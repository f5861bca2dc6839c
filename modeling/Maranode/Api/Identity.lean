/-
  Maranode.Api.Identity

  Who a sign-in is for, over every door to the users.

  Names are unique by the index of the table; that a provider's subject is there once holds
  only because every handler looks under the lock before it writes.  So the key of a sign-in
  (the name of a local user, or the subject of a provider) is the key of one account, through
  commands of the CLI that write what they read long before, until that account is deleted
  (`signIns_same_iff`).
-/
import Maranode.Api.SessionAdmin
import Maranode.Api.UserAdmin
import Maranode.Api.Usernames

namespace Maranode.Api

open Lib Store UserDb

variable (X : External) (R : Rfc3339Reader) (S : SignIn)

/-! ## Requests -/

/-- The database, and the commands of the CLI between their read and their write. -/
structure UserState where
  db : Store.UserDb
  jobs : List UsersJob

/-- A new data directory. -/
def UserState.fresh : UserState := ⟨.fresh, []⟩

/-- What reaches the database: a handler of the API, a start of the daemon, or a part of a
    command of the CLI. -/
inductive UserRequest where
  | enters (door : Door) (d : Draw)
  | updateUser (id : Uuid) (req : UpdateUserReq) (readAt : DateTime)
  | delUser (id : Uuid)
  | setPassword (id : Uuid) (password salt : String) (readAt : DateTime)
  | requestReset (limited : Option ApiError) (smtp : Bool) (email : String) (d : ResetDraw)
  | confirmReset (token password : String) (d : ResetDraw)
  | deleteSession (token : String)
  | deleteSessionsExcept (userId : Uuid) (keepToken : String)
  | deleteSessionByPrefix (userId : Uuid) (tokenPrefix : String)
  | restart (adminKey : Option String) (d : Draw)
  | start (command : UsersCommand) (readAt : DateTime)
  | finish (i : Nat) (password : String) (d : Draw)
  | abort (i : Nat)

/-- `maranode users` reads the database. -/
def UserState.started (s : UserState) : Except String (Option UsersJob) → UserState
  | .ok (some job) => { s with jobs := s.jobs ++ [job] }
  | _ => s

namespace UserRequest

def serve (s : UserState) : UserRequest → UserState
  | .enters door d => { s with db := door.enter X R S s.db d }
  | .updateUser id req readAt => { s with db := (Api.updateUser X R S s.db id req readAt).1 }
  | .delUser id => { s with db := (Api.delUser X s.db id).1 }
  | .setPassword id password salt readAt =>
      { s with db := (Api.setPassword X R S s.db id password salt readAt).1 }
  | .requestReset limited smtp email d =>
      { s with db := (Api.requestReset X R S s.db limited smtp email d).1 }
  | .confirmReset token password d =>
      { s with db := (Api.confirmReset X R S s.db token password d).1 }
  | .deleteSession token => { s with db := s.db.deleteSession token }
  | .deleteSessionsExcept userId keepToken =>
      { s with db := (s.db.deleteSessionsForUserExcept X userId keepToken).1 }
  | .deleteSessionByPrefix userId tokenPrefix =>
      { s with db := s.db.deleteSessionByPrefix X userId tokenPrefix }
  | .restart adminKey d =>
      match initialAdmin X S s.db adminKey d with
      | .error _ => s
      | .ok db => { s with db := db }
  | .start command readAt => s.started (command.start X R s.db readAt)
  | .finish i password d =>
      match s.jobs[i]? with
      | none => s
      | some job => ⟨(job.finish X S s.db password d).1, s.jobs.eraseIdx i⟩
  | .abort i => { s with jobs := s.jobs.eraseIdx i }

/-- The id that is drawn for a new user. -/
def drawn : UserRequest → Option Uuid
  | .enters (.login _ _) _ => none
  | .enters _ d => some d.id
  | .restart _ d => some d.id
  | .finish _ _ d => some d.id
  | _ => none

/-- OIDC, LDAP and SAML claim subjects of their own. -/
def Vouched : UserRequest → Prop
  | .enters (.sso claim) _ => claim.provider ≠ .localAccount
  | _ => True

/-- The request as an operation of a run. -/
def next (s : UserState) (e : UserRequest) : Option UserState := some (e.serve X R S s)

end UserRequest

/-- The state after some requests. -/
def afterRequests (s : UserState) (requests : List UserRequest) : UserState :=
  requests.foldl (UserRequest.serve X R S) s

/-- No id is drawn twice. -/
structure Proper (requests : List UserRequest) : Prop where
  ids : (requests.filterMap UserRequest.drawn).Nodup
  vouched : ∀ e ∈ requests, e.Vouched

/-! ## Keys -/

/-- What a sign-in names its user by. -/
inductive SignInKey where
  | password (username : String)
  | provider (provider sub : String)
  deriving DecidableEq

def signInKey (r : UserRow) : SignInKey :=
  match r.providerSub with
  | none => .password r.username
  | some sub => .provider r.provider sub

/-- The request is a sign-in by the key, and a session of the user is granted. -/
def SignsIn (s : UserState) (key : SignInKey) (user : User) : UserRequest → Prop
  | .enters (.login limited req) d => key = .password req.username ∧
      ∃ token, (login X R S s.db limited req d).2 = .granted token user
  | .enters (.sso claim) d => key = .provider claim.provider.asStr claim.sub ∧
      ∃ token, (upsertSso X R S s.db claim d).2 = .granted token user
  | _ => False

/-- The request deletes the user. -/
def Removes (s : UserState) (id : Uuid) : UserRequest → Prop
  | .delUser other => other = id ∧ (delUser X s.db other).2 = .ok ()
  | .finish i _ _ => s.jobs[i]? = some (.delete id) ∧
      (s.db.users.get (X.uuidText id)).isSome = true
  | _ => False

/-- Rows of one account, by the columns no handler changes. -/
structure SameIdentity (r s : UserRow) : Prop where
  id : r.id = s.id
  username : r.username = s.username
  provider : r.provider = s.provider
  providerSub : r.providerSub = s.providerSub

/-- Columns other than these are written. -/
def Rewrites (users users' : Lib.Table UserRow.id) : Prop :=
  ∃ f : UserRow → UserRow, (∀ r ∈ users.rows, SameIdentity (f r) r) ∧
    users'.rows = users.rows.map f

/-- What a request does to the table: whom it adds, and whom it takes. -/
inductive UsersChange (users : Lib.Table UserRow.id) :
    List User → Option Uuid → Lib.Table UserRow.id → Prop where
  | rewrites {users'} (h : Rewrites users users') : UsersChange users [] none users'
  | adds {user mid users'} (hinsert : users.insert (userRow X user) = some mid)
      (hkey : ∀ r ∈ users.rows, signInKey r ≠ signInKey (userRow X user))
      (hlocal : user.providerSub = none ↔ user.provider = .localAccount)
      (h : Rewrites mid users') : UsersChange users [user] none users'
  | removes {id} :
      UsersChange users [] (some id) (users.deleteWhere fun r => r.id == X.uuidText id)

variable {X R S} {s : UserState} {e : UserRequest} {db db' : Store.UserDb}
  {users mid users' : Lib.Table UserRow.id} {user : User} {id : Uuid} {d : Draw}
  {key : SignInKey} {added : List User} {removed : Option Uuid}

theorem SameIdentity.refl (r : UserRow) : SameIdentity r r := ⟨rfl, rfl, rfl, rfl⟩

theorem SameIdentity.symm {r s : UserRow} (h : SameIdentity r s) : SameIdentity s r :=
  ⟨h.id.symm, h.username.symm, h.provider.symm, h.providerSub.symm⟩

theorem SameIdentity.trans {r s t : UserRow} (h : SameIdentity r s) (h' : SameIdentity s t) :
    SameIdentity r t :=
  ⟨h.id.trans h'.id, h.username.trans h'.username, h.provider.trans h'.provider,
    h.providerSub.trans h'.providerSub⟩

theorem SameIdentity.signInKey {r s : UserRow} (h : SameIdentity r s) :
    signInKey r = signInKey s := by
  rw [Api.signInKey, Api.signInKey, h.providerSub, h.username, h.provider]

theorem SameAccount.userRow {u v : User} (h : SameAccount u v) :
    SameIdentity (userRow X u) (userRow X v) :=
  ⟨congrArg X.uuidText h.id, h.username, congrArg AuthProvider.asStr h.provider, h.providerSub⟩

theorem Rewrites.refl (users : Lib.Table UserRow.id) : Rewrites users users :=
  ⟨id, fun r _ => .refl r, List.map_id _ |>.symm⟩

theorem Rewrites.trans (h : Rewrites users mid) (h' : Rewrites mid users') :
    Rewrites users users' := by
  obtain ⟨f, hf, hmid⟩ := h
  obtain ⟨g, hg, husers⟩ := h'
  refine ⟨g ∘ f, fun r hr => ?_, ?_⟩
  · refine (hg (f r) ?_).trans (hf r hr)
    rw [hmid]
    exact List.mem_map_of_mem hr
  · rw [husers, hmid, List.map_map]

theorem rewrites_update {k : String} {f : UserRow → UserRow} (hf : ∀ r, (f r).id = r.id)
    (hsame : ∀ r ∈ users.rows, r.id = k → SameIdentity (f r) r) :
    Rewrites users (users.update k f hf) := by
  refine ⟨fun r => if r.id = k then f r else r, fun r hr => ?_, rfl⟩
  dsimp only
  split
  · next hk => exact hsame r hr hk
  · exact .refl r

theorem Rewrites.signInKeys (h : Rewrites users users') :
    users'.rows.map signInKey = users.rows.map signInKey := by
  obtain ⟨f, hf, hrows⟩ := h
  rw [hrows, List.map_map]
  exact List.map_congr_left fun r hr => (hf r hr).signInKey

theorem Rewrites.row (h : Rewrites users users') {r : UserRow} (hr : r ∈ users.rows) :
    ∃ r' ∈ users'.rows, SameIdentity r' r := by
  obtain ⟨f, hf, hrows⟩ := h
  refine ⟨f r, ?_, hf r hr⟩
  rw [hrows]
  exact List.mem_map_of_mem hr

theorem Rewrites.origin (h : Rewrites users users') {r' : UserRow} (hr' : r' ∈ users'.rows) :
    ∃ r ∈ users.rows, SameIdentity r' r := by
  obtain ⟨f, hf, hrows⟩ := h
  rw [hrows, List.mem_map] at hr'
  obtain ⟨r, hr, rfl⟩ := hr'
  exact ⟨r, hr, hf r hr⟩

/-! ## One change -/

/-- A row is there afterwards unless its user is taken. -/
theorem UsersChange.row (h : UsersChange X users added removed users') {r : UserRow}
    (hr : r ∈ users.rows) (hid : r.id = X.uuidText id) (hremoved : removed ≠ some id) :
    ∃ r' ∈ users'.rows, SameIdentity r' r := by
  cases h with
  | rewrites h => exact h.row hr
  | adds hinsert hkey hlocal h =>
      refine h.row ?_
      rw [(Table.insert_eq_some hinsert).2]
      exact List.mem_append_left _ hr
  | @removes other =>
      refine ⟨r, Table.mem_deleteWhere.mpr ⟨hr, ?_⟩, .refl r⟩
      rw [beq_eq_false_iff_ne, hid]
      exact fun hsame => hremoved (congrArg some (uuidText_inj X hsame).symm)

/-- A row that is there afterwards was there, or is that of a new user. -/
theorem UsersChange.origin (h : UsersChange X users added removed users') {r' : UserRow}
    (hr' : r' ∈ users'.rows) :
    (∃ r ∈ users.rows, SameIdentity r' r ∧ ∀ id, removed = some id → r'.id ≠ X.uuidText id) ∨
      ∃ u ∈ added, SameIdentity r' (userRow X u) := by
  cases h with
  | rewrites h =>
      obtain ⟨r, hr, hsame⟩ := h.origin hr'
      exact .inl ⟨r, hr, hsame, by rintro _ ⟨⟩⟩
  | adds hinsert hkey hlocal h =>
      obtain ⟨r, hr, hsame⟩ := h.origin hr'
      rw [(Table.insert_eq_some hinsert).2] at hr
      rcases List.mem_append.mp hr with hold | hnew
      · exact .inl ⟨r, hold, hsame, by rintro _ ⟨⟩⟩
      · rw [List.mem_singleton.mp hnew] at hsame
        exact .inr ⟨_, List.mem_singleton_self _, hsame⟩
  | removes =>
      obtain ⟨hr, hother⟩ := Table.mem_deleteWhere.mp hr'
      refine .inl ⟨r', hr, .refl r', fun id hid => ?_⟩
      rw [← Option.some.inj hid]
      exact beq_eq_false_iff_ne.mp hother

theorem UsersChange.unique (h : UsersChange X users added removed users')
    (hkeys : users.Unique signInKey) : users'.Unique signInKey := by
  cases h with
  | rewrites h =>
      rw [Table.Unique, h.signInKeys]
      exact hkeys
  | adds hinsert hkey hlocal h =>
      rw [Table.Unique, h.signInKeys]
      exact (Table.unique_insert_iff hinsert).mpr ⟨hkeys, hkey⟩
  | removes => exact hkeys.deleteWhere _

theorem UsersChange.nodup (h : UsersChange X users added removed users') :
    (added.map User.id).Nodup := by
  cases h with
  | rewrites h => exact List.nodup_nil
  | adds hinsert hkey hlocal h => exact List.nodup_singleton _
  | removes => exact List.nodup_nil

theorem UsersChange.local_iff (h : UsersChange X users added removed users') :
    ∀ u ∈ added, u.providerSub = none ↔ u.provider = .localAccount := by
  cases h with
  | rewrites h => exact fun _ hu => absurd hu List.not_mem_nil
  | adds hinsert hkey hlocal h =>
      intro u hu
      rw [List.mem_singleton.mp hu]
      exact hlocal
  | removes => exact fun _ hu => absurd hu List.not_mem_nil

/-! ## The invariant -/

/-- The user that a command holds. -/
def UsersJob.user? : UsersJob → Option User
  | .setPassword user => some user
  | .update user => some user
  | _ => none

variable (X) in
/-- Every row, and every user that a command holds, is one of the users that were made. -/
structure SoundUsers (made : List User) (s : UserState) : Prop where
  ids : (made.map User.id).Nodup
  local_iff : ∀ m ∈ made, m.providerSub = none ↔ m.provider = .localAccount
  rows : ∀ r ∈ s.db.users.rows, ∃ m ∈ made, SameIdentity r (userRow X m)
  keys : s.db.users.Unique signInKey
  jobs : ∀ job ∈ s.jobs, ∀ u ∈ job.user?, ∃ m ∈ made, SameAccount u m

variable {made : List User}

theorem sound_fresh : SoundUsers X [] UserState.fresh where
  ids := List.nodup_nil
  local_iff := fun _ hm => absurd hm List.not_mem_nil
  rows := fun _ hr => absurd hr List.not_mem_nil
  keys := List.nodup_nil
  jobs := fun _ hjob => absurd hjob List.not_mem_nil

theorem SoundUsers.eq_of_id {m m' : User} (h : SoundUsers X made s) (hm : m ∈ made)
    (hm' : m' ∈ made) (hid : m.id = m'.id) : m = m' := List.inj_on_of_nodup_map h.ids hm hm' hid

/-- The user whom a row is read as. -/
theorem SoundUsers.rowToUser (h : SoundUsers X made s) {r : UserRow} (hr : r ∈ s.db.users.rows)
    (readAt : DateTime) :
    ∃ m ∈ made, SameIdentity r (userRow X m) ∧ SameAccount (Store.rowToUser X R readAt r) m := by
  obtain ⟨m, hm, hsame⟩ := h.rows r hr
  refine ⟨m, hm, hsame, id_rowToUser hsame.id, hsame.username, ?_, hsame.providerSub⟩
  rw [Store.rowToUser]
  dsimp only
  rw [hsame.provider, userRow, AuthProvider.fromStr_asStr]
  rfl

/-- A user who was read some time ago is written. -/
theorem SoundUsers.rewrites (h : SoundUsers X made s) (hm : ∃ m ∈ made, SameAccount user m)
    (hupdate : s.db.update X user = some db') : Rewrites s.db.users db'.users := by
  obtain ⟨m, hm, haccount⟩ := hm
  rcases s.db.update_cases X user with hnone | hsome
  · rw [hnone] at hupdate
    cases hupdate
  · rw [hsome] at hupdate
    rw [← Option.some.inj hupdate]
    refine rewrites_update (id_setColumns X user) fun r hr hid => ?_
    obtain ⟨m', hm', hsame⟩ := h.rows r hr
    have hkey : m' = m := h.eq_of_id hm' hm
      (uuidText_inj X (hsame.id.symm.trans (hid.trans (congrArg X.uuidText haccount.id))))
    rw [hkey] at hsame
    have hrow := haccount.userRow (X := X) |>.trans hsame.symm
    exact ⟨rfl, hrow.username, hrow.provider, hrow.providerSub⟩

theorem SoundUsers.change (h : SoundUsers X made s) {jobs : List UsersJob}
    (hchange : UsersChange X s.db.users added removed db'.users)
    (hnew : ∀ u ∈ added, u.id ∉ made.map User.id)
    (hjobs : ∀ job ∈ jobs, job ∈ s.jobs ∨ ∀ u ∈ job.user?, ∃ m ∈ made, SameAccount u m) :
    SoundUsers X (made ++ added) ⟨db', jobs⟩ where
  -- Ids that are drawn are new.
  ids := by
    rw [List.map_append, List.nodup_append]
    refine ⟨h.ids, hchange.nodup, fun a ha b hb hsame => ?_⟩
    · obtain ⟨u, hu, rfl⟩ := List.mem_map.mp hb
      rw [hsame] at ha
      exact hnew u hu ha
  local_iff := by
    intro m hm
    rcases List.mem_append.mp hm with hold | hadded
    · exact h.local_iff m hold
    · exact hchange.local_iff m hadded
  -- A row goes back to the user who was made when it was added.
  rows := by
    intro r' hr'
    rcases hchange.origin hr' with ⟨r, hr, hsame, -⟩ | ⟨u, hu, hsame⟩
    · obtain ⟨m, hm, hmade⟩ := h.rows r hr
      exact ⟨m, List.mem_append_left _ hm, hsame.trans hmade⟩
    · exact ⟨u, List.mem_append_right _ hu, hsame⟩
  keys := hchange.unique h.keys
  jobs := by
    intro job hjob u hu
    -- A command holds a user it held before, or one it has just read from a row.
    rcases hjobs job hjob with hold | hread
    · obtain ⟨m, hm, hsame⟩ := h.jobs job hold u hu
      exact ⟨m, List.mem_append_left _ hm, hsame⟩
    · obtain ⟨m, hm, hsame⟩ := hread u hu
      exact ⟨m, List.mem_append_left _ hm, hsame⟩

/-! ## Each request -/

theorem rewrites_openSession (db : Store.UserDb) (user : User) (d : Draw) :
    Rewrites db.users (openSession X S db user d).1.users := by
  have hstep := @usersStep_openSession X S db d user
  generalize (openSession X S db user d).1.users = users' at hstep
  cases hstep with
  | same => exact .refl _
  | @login _ _ _ now => exact rewrites_update (id_setLogin now) fun r _ _ => ⟨rfl, rfl, rfl, rfl⟩

theorem rewrites_sessionFor (db : Store.UserDb) (user : User) (d : Draw) :
    Rewrites db.users (sessionFor X S db user d).1.users := by
  rcases @sessionFor_cases X S db d user with hsame | hopened
  · rw [hsame]
    exact .refl _
  · rw [hopened]
    exact rewrites_openSession db user d

/-- No other row has the name, and a local user is found by it. -/
theorem adds_local (hcreate : db.create X user = some db')
    (hprovider : user.provider = .localAccount) (hsub : user.providerSub = none) :
    UsersChange X db.users [user] none db'.users := by
  obtain ⟨htaken, users', hinsert, rfl⟩ := create_eq_some.mp hcreate
  refine .adds hinsert (fun r hr hsame => ?_) (iff_of_true hsub hprovider) (.refl _)
  have hname : r.username ≠ user.username :=
    username_ne_of_taken htaken r hr (Table.get_eq_none.mp (Table.insert_eq_some hinsert).1 r hr)
  have hnew : signInKey (userRow X user) = .password user.username := by
    rw [signInKey, userRow, hsub]
  rw [hnew, signInKey] at hsame
  split at hsame
  · exact hname (SignInKey.password.inj hsame)
  · cases hsame

/-- The subject was looked up, and no row had it. -/
theorem adds_claim {claim : SsoClaim} {role : Role} {readAt : DateTime}
    (hprovider : claim.provider ≠ .localAccount)
    (hnone : db.getByProviderSub X R readAt claim.provider.asStr claim.sub = none)
    (hcreate : db.create X (claim.newUser role d) = some db') (h : Rewrites db'.users users') :
    UsersChange X db.users [claim.newUser role d] none users' := by
  obtain ⟨-, users'', hinsert, rfl⟩ := create_eq_some.mp hcreate
  refine .adds hinsert (fun r hr hsame => ?_) ?_ h
  · have hnew : signInKey (userRow X (claim.newUser role d)) =
        .provider claim.provider.asStr claim.sub := rfl
    rw [hnew, signInKey] at hsame
    split at hsame
    · cases hsame
    · next sub hsub =>
        obtain ⟨hp, hs⟩ := SignInKey.provider.inj hsame
        rw [getByProviderSub, Option.map_eq_none_iff, List.find?_eq_none] at hnone
        refine hnone r hr ?_
        rw [hp, hsub, hs, beq_self_eq_true, beq_self_eq_true, Bool.and_self]
  · refine iff_of_false ?_ hprovider
    rintro ⟨⟩

theorem SoundUsers.of_getById (h : SoundUsers X made s) {readAt : DateTime} {found : User}
    (hfound : s.db.getById X R readAt id = some found) : ∃ m ∈ made, SameAccount found m := by
  obtain ⟨r, hr, -, rfl⟩ := exists_row_of_getById hfound
  obtain ⟨m, hm, -, hsame⟩ := h.rowToUser (R := R) hr readAt
  exact ⟨m, hm, hsame⟩

theorem SameAccount.trans_made {u v : User} (hv : ∃ m ∈ made, SameAccount v m)
    (h : SameAccount u v) : ∃ m ∈ made, SameAccount u m := by
  obtain ⟨m, hm, hsame⟩ := hv
  exact ⟨m, hm, h.id.trans hsame.id, h.username.trans hsame.username,
    h.provider.trans hsame.provider, h.providerSub.trans hsame.providerSub⟩

theorem change_enter (h : SoundUsers X made s) (door : Door)
    (hvouched : (UserRequest.enters door d).Vouched) :
    ∃ added, UsersChange X s.db.users added none (door.enter X R S s.db d).users ∧
      ∀ u ∈ added, (UserRequest.enters door d).drawn = some u.id := by
  have hnobody : ∀ u ∈ ([] : List User), (UserRequest.enters door d).drawn = some u.id :=
    fun u hu => absurd hu List.not_mem_nil
  -- Three doors: an administrator makes a user, a password, a provider.
  cases door with
  | createUser req =>
      rw [Door.enter]
      rcases createUser_cases X S s.db req d with ⟨e, hout⟩ | ⟨user, db', huser, hcreate, hout⟩
      · rw [hout]
        exact ⟨[], .rewrites (.refl _), hnobody⟩
      · rw [hout]
        obtain ⟨hid, -, hprovider, hsub, -, -⟩ := newUser_eq_ok huser
        refine ⟨[user], adds_local hcreate hprovider hsub, fun u hu => ?_⟩
        rw [List.mem_singleton.mp hu, hid]
        rfl
  | login limited req =>
      rw [Door.enter]
      rcases login_cases X R S s.db limited req d with ⟨e, hout⟩ | ⟨user, -, hout⟩
      · rw [hout]
        exact ⟨[], .rewrites (.refl _), hnobody⟩
      · rw [hout]
        exact ⟨[], .rewrites (rewrites_openSession _ _ _), hnobody⟩
  | sso claim =>
      rw [Door.enter]
      -- A provider's user is turned down, found and updated, or made.
      rcases upsertSso_cases X R S s.db claim d with
        ⟨e, hout⟩ | ⟨found, db', hfound, hupdate, hout⟩ | ⟨role, db', -, hnone, hcreate, hout⟩
      · rw [hout]
        exact ⟨[], .rewrites (.refl _), hnobody⟩
      · rw [hout]
        obtain ⟨r, hr, -, hread⟩ := exists_row_of_getByProviderSub hfound
        obtain ⟨m, hm, -, hsame⟩ := h.rowToUser (R := R) hr d.readAt
        rw [hread] at hsame
        have hwritten : Rewrites s.db.users db'.users := by
          refine h.rewrites ?_ hupdate
          exact ⟨m, hm, hsame.id, hsame.username, hsame.provider, hsame.providerSub⟩
        exact ⟨[], .rewrites (hwritten.trans (rewrites_sessionFor _ _ _)), hnobody⟩
      · rw [hout]
        -- The subject was looked for under the lock, so no row has it.
        refine ⟨[claim.newUser role d],
          adds_claim hvouched hnone hcreate (rewrites_sessionFor _ _ _), fun u hu => ?_⟩
        rw [List.mem_singleton.mp hu]
        rfl

/-- The users of the table do not change with the tokens. -/
theorem users_of_requestReset (db : Store.UserDb) (limited : Option ApiError) (smtp : Bool)
    (email : String) (d : ResetDraw) :
    (requestReset X R S db limited smtp email d).1.users = db.users := by
  have hsame : ∀ {u : User} {db' : Store.UserDb} {reply : Store.UserDb.Reply},
      db.createResetToken X u.id d.first d.second d.token = (db', reply) →
        db'.users = db.users := by
    intro u db' reply hmade
    have hstep := usersStep_step (X := X) (R := R) db
      ⟨.createResetToken u.id d.token, d.first, d.second⟩
    have hout : (db.step X R ⟨.createResetToken u.id d.token, d.first, d.second⟩).1 = db' :=
      congrArg Prod.fst hmade
    rw [hout] at hstep
    generalize db'.users = users' at hstep
    cases hstep
    rfl
  rcases requestReset_cases X R S db limited smtp email d with
    ⟨reply, hout, -⟩ | ⟨u, -, -, -, -, ⟨db', token, hmade, hout⟩ | ⟨db', reply, e, hmade, -, hout⟩⟩
  · rw [hout]
  · rw [hout]
    exact hsame hmade
  · rw [hout]
    exact hsame hmade

/-- The store with other reset tokens. -/
theorem users_of_consumeResetToken {now : DateTime} {token : String} {owner : Option Uuid}
    (h : db.consumeResetToken X now token = (db', owner)) : db'.users = db.users := by
  rw [consumeResetToken] at h
  split at h
  · exact congrArg (fun out => out.1.users) h.symm
  · exact congrArg (fun out => out.1.users) h.symm

theorem rewrites_confirmReset (h : SoundUsers X made s) (token password : String) (d : ResetDraw) :
    Rewrites s.db.users (confirmReset X R S s.db token password d).1.users := by
  rcases confirmReset_cases X R S s.db token password d with
    ⟨-, e, hout, -⟩ | ⟨-, ⟨db', e, hconsumed, hout, -⟩ | ⟨db', id, e, hconsumed, hout, -⟩ |
      ⟨db', id, user, hash, db'', hconsumed, hfound, -, hupdate, hout⟩⟩
  · rw [hout]
    exact .refl _
  · rw [hout, users_of_consumeResetToken hconsumed]
    exact .refl _
  · rw [hout, users_of_consumeResetToken hconsumed]
    exact .refl _
  · rw [hout]
    have husers := users_of_consumeResetToken hconsumed
    have hstill : SoundUsers X made { s with db := db' } :=
      ⟨h.ids, h.local_iff, by rw [husers]; exact h.rows, by rw [husers]; exact h.keys, h.jobs⟩
    rw [← husers]
    refine hstill.rewrites ?_ hupdate
    exact SameAccount.trans_made (hstill.of_getById hfound) ⟨rfl, rfl, rfl, rfl⟩

/-- The users after a deletion. -/
theorem change_delete (db : Store.UserDb) (id : Uuid) :
    ∃ removed, UsersChange X db.users [] removed (db.delete X id).1.users ∧
      ∀ other, id = other ∧ (db.users.get (X.uuidText other)).isSome = true ↔
        removed = some other := by
  rw [delete]
  cases hthere : (db.users.get (X.uuidText id)).isSome with
  | true =>
      refine ⟨some id, .removes, fun other => ⟨fun h => congrArg some h.1, fun h => ?_⟩⟩
      obtain rfl := Option.some.inj h
      exact ⟨rfl, hthere⟩
  | false =>
      refine ⟨none, .rewrites (.refl _), fun other => iff_of_false ?_ (by rintro ⟨⟩)⟩
      rintro ⟨rfl, hsome⟩
      rw [hthere] at hsome
      cases hsome

/-- What a job writes. -/
theorem change_finish (h : SoundUsers X made s) {i : Nat} {job : UsersJob}
    (hjob : s.jobs[i]? = some job) (password : String) (d : Draw) :
    ∃ added removed,
      UsersChange X s.db.users added removed (job.finish X S s.db password d).1.users ∧
      (∀ u ∈ added, d.id = u.id) ∧
      ∀ id, job = .delete id ∧ (s.db.users.get (X.uuidText id)).isSome = true ↔
        removed = some id := by
  have hwrites := writes_finish X S s.db password d job
  have hheld := h.jobs job (List.mem_of_getElem? hjob)
  generalize job.finish X S s.db password d = out at hwrites ⊢
  have hnobody : ∀ u ∈ ([] : List User), d.id = u.id := fun u hu => absurd hu List.not_mem_nil
  -- Only a deletion takes a user.
  have hnever : ∀ {job : UsersJob}, (∀ id, job ≠ .delete id) → ∀ id,
      job = .delete id ∧ (s.db.users.get (X.uuidText id)).isSome = true ↔
        (none : Option Uuid) = some id :=
    fun hother id => iff_of_false (fun hdelete => hother id hdelete.1) (by rintro ⟨⟩)
  cases hwrites with
  | nothing hother => exact ⟨[], none, .rewrites (.refl _), hnobody, hnever hother⟩
  | create hhash hcreate =>
      refine ⟨[_], none, adds_local hcreate rfl rfl, fun u hu => ?_, hnever (by rintro _ ⟨⟩)⟩
      rw [List.mem_singleton.mp hu]
      rfl
  -- These two write a user who was read some time ago; the account is still the same.
  | setPassword hhash hupdate =>
      refine ⟨[], none, .rewrites (h.rewrites ?_ hupdate), hnobody, hnever (by rintro _ ⟨⟩)⟩
      exact SameAccount.trans_made (hheld _ rfl) ⟨rfl, rfl, rfl, rfl⟩
  | update hupdate =>
      exact ⟨[], none, .rewrites (h.rewrites (hheld _ rfl) hupdate), hnobody,
        hnever (by rintro _ ⟨⟩)⟩
  | @delete other =>
      obtain ⟨removed, hchange, hremoved⟩ := change_delete (X := X) s.db other
      refine ⟨[], removed, hchange, hnobody, fun id => ?_⟩
      rw [← hremoved id, UsersJob.delete.injEq]

theorem change_serve (h : SoundUsers X made s) (hvouched : e.Vouched) :
    ∃ added removed, UsersChange X s.db.users added removed (e.serve X R S s).db.users ∧
      (∀ u ∈ added, e.drawn = some u.id) ∧ ∀ id, Removes X s id e ↔ removed = some id := by
  -- What most requests do: they add nobody and take nobody.
  have hkeeps : ∀ {e : UserRequest} {users'}, Rewrites s.db.users users' →
      (∀ id, ¬ Removes X s id e) →
      ∃ added removed, UsersChange X s.db.users added removed users' ∧
        (∀ u ∈ added, e.drawn = some u.id) ∧ ∀ id, Removes X s id e ↔ removed = some id :=
    fun hrewrites hnever => ⟨[], none, .rewrites hrewrites, fun u hu => absurd hu List.not_mem_nil,
      fun id => iff_of_false (hnever id) (by rintro ⟨⟩)⟩
  cases e with
  | enters door d =>
      obtain ⟨added, hchange, hdrawn⟩ := change_enter (R := R) (S := S) h door hvouched
      exact ⟨added, none, hchange, hdrawn, fun id => iff_of_false (fun h => h) (by rintro ⟨⟩)⟩
  | updateUser id req readAt =>
      refine hkeeps ?_ fun _ h => h
      rw [UserRequest.serve]
      rcases updateUser_cases X R S s.db id req readAt with
        ⟨e, hout⟩ | ⟨found, user, db', hfound, huser, hupdate, hout⟩
      · rw [hout]
        exact .refl _
      · rw [hout]
        exact h.rewrites (SameAccount.trans_made (h.of_getById hfound)
          (UpdateUserReq.on_eq_ok huser).1) hupdate
  -- A deletion takes whoever had the id, and answers that there was one.
  | delUser other =>
      obtain ⟨hout, hok⟩ := delUser_cases X s.db other
      obtain ⟨removed, hchange, hremoved⟩ := change_delete (X := X) s.db other
      refine ⟨[], removed, ?_, fun u hu => absurd hu List.not_mem_nil, fun id => ?_⟩
      · rw [UserRequest.serve, hout]
        exact hchange
      · rw [← hremoved id, Removes, hok]
        refine and_congr_right fun hid => ?_
        rw [hid]
  | setPassword id password salt readAt =>
      refine hkeeps ?_ fun _ h => h
      rw [UserRequest.serve]
      rcases setPassword_cases X R S s.db id password salt readAt with
        ⟨e, hout⟩ | ⟨found, hash, db', hfound, -, hupdate, hout⟩
      · rw [hout]
        exact .refl _
      · rw [hout]
        refine h.rewrites ?_ hupdate
        exact SameAccount.trans_made (h.of_getById hfound) ⟨rfl, rfl, rfl, rfl⟩
  | requestReset limited smtp email d =>
      refine hkeeps ?_ fun _ h => h
      rw [UserRequest.serve]
      dsimp only
      rw [users_of_requestReset]
      exact .refl _
  | confirmReset token password d =>
      exact hkeeps (rewrites_confirmReset h token password d) fun _ h => h
  | deleteSession token => exact hkeeps (.refl _) fun _ h => h
  | deleteSessionsExcept userId keepToken => exact hkeeps (.refl _) fun _ h => h
  | deleteSessionByPrefix userId tokenPrefix => exact hkeeps (.refl _) fun _ h => h
  -- The start makes the administrator only in an empty database.
  | restart adminKey d =>
      rw [UserRequest.serve]
      rcases initialAdmin_cases X S s.db adminKey d with
        ⟨e, hout⟩ | hout | ⟨key, hash, db', -, -, hcreate, hout⟩
      · rw [hout]
        exact hkeeps (.refl _) fun _ h => h
      · rw [hout]
        exact hkeeps (.refl _) fun _ h => h
      · rw [hout]
        refine ⟨[_], none, adds_local hcreate rfl rfl, fun u hu => ?_,
          fun id => iff_of_false (fun h => h) (by rintro ⟨⟩)⟩
        rw [List.mem_singleton.mp hu]
        rfl
  -- A command reads, and writes nothing yet.
  | start command readAt =>
      refine hkeeps ?_ fun _ h => h
      rw [UserRequest.serve]
      cases command.start X R s.db readAt with
      | error e => exact .refl _
      | ok job =>
          cases job with
          | none => exact .refl _
          | some job => exact .refl _
  -- What the command read is written now, to the table of now.
  | finish i password d =>
      rw [UserRequest.serve]
      cases hjob : s.jobs[i]? with
      | none =>
          refine hkeeps (.refl _) fun id hremoves => ?_
          rw [Removes, hjob] at hremoves
          cases hremoves.1
      | some job =>
          obtain ⟨added, removed, hchange, hdrawn, hremoved⟩ :=
            change_finish (S := S) h hjob password d
          refine ⟨added, removed, hchange, fun u hu => congrArg some (hdrawn u hu), fun id => ?_⟩
          rw [← hremoved id, Removes, hjob, Option.some.injEq]
  | abort i => exact hkeeps (.refl _) fun _ h => h

/-- A job is there before, or was read from the table. -/
theorem job_of_serve {job : UsersJob} (hjob : job ∈ (e.serve X R S s).jobs) :
    job ∈ s.jobs ∨ ∃ readAt, job.Read X R s.db readAt := by
  cases e with
  | start command readAt =>
      rw [UserRequest.serve] at hjob
      rcases hstart : command.start X R s.db readAt with e | read
      · rw [hstart] at hjob
        exact .inl hjob
      · rw [hstart] at hjob
        cases read with
        | none => exact .inl hjob
        | some started =>
            refine (List.mem_append.mp hjob).imp_right fun hnew => ⟨readAt, ?_⟩
            rw [List.mem_singleton.mp hnew]
            exact read_start hstart
  | finish i password d =>
      rw [UserRequest.serve] at hjob
      split at hjob
      · exact .inl hjob
      · exact .inl (List.mem_of_mem_eraseIdx hjob)
  | abort i => exact .inl (List.mem_of_mem_eraseIdx hjob)
  | restart adminKey d =>
      rw [UserRequest.serve] at hjob
      split at hjob
      · exact .inl hjob
      · exact .inl hjob
  | _ => exact .inl hjob

/-- The user of a job is that of a row, but for the column that is to be written. -/
theorem exists_row_of_read {job : UsersJob} {readAt : DateTime}
    (h : job.Read X R db readAt) (hu : job.user? = some user) :
    ∃ r ∈ db.users.rows, SameAccount user (rowToUser X R readAt r) ∧
      user.role = (rowToUser X R readAt r).role ∧
      user.passwordHash = (rowToUser X R readAt r).passwordHash := by
  cases h with
  | create => cases hu
  | setPassword hr =>
      rw [← Option.some.inj hu]
      exact ⟨_, hr, ⟨rfl, rfl, rfl, rfl⟩, rfl, rfl⟩
  | update hr =>
      rw [← Option.some.inj hu]
      exact ⟨_, hr, ⟨rfl, rfl, rfl, rfl⟩, rfl, rfl⟩
  | delete hr => cases hu

/-- What a command holds was read from the table. -/
theorem jobs_serve (h : SoundUsers X made s) :
    ∀ job ∈ (e.serve X R S s).jobs,
      job ∈ s.jobs ∨ ∀ u ∈ job.user?, ∃ m ∈ made, SameAccount u m := by
  intro job hjob
  refine (job_of_serve hjob).imp_right fun hread u hu => ?_
  obtain ⟨readAt, hread⟩ := hread
  obtain ⟨r, hr, hsame, -, -⟩ := exists_row_of_read hread hu
  obtain ⟨m, hm, -, hmade⟩ := h.rowToUser (R := R) hr readAt
  exact SameAccount.trans_made ⟨m, hm, hmade⟩ hsame

variable (X R S) in
/-- A request that is served: whom it adds, whom it takes, and what holds afterwards. -/
structure Served (made : List User) (s : UserState) (e : UserRequest) (added : List User)
    (removed : Option Uuid) : Prop where
  change : UsersChange X s.db.users added removed (e.serve X R S s).db.users
  drawn : ∀ u ∈ added, e.drawn = some u.id
  removes : ∀ id, Removes X s id e ↔ removed = some id
  sound : SoundUsers X (made ++ added) (e.serve X R S s)

theorem SoundUsers.serve (h : SoundUsers X made s) (hvouched : e.Vouched)
    (hnew : ∀ m ∈ made, e.drawn ≠ some m.id) :
    ∃ added removed, Served X R S made s e added removed := by
  obtain ⟨added, removed, hchange, hdrawn, hremoves⟩ := change_serve (R := R) (S := S) h hvouched
  refine ⟨added, removed, hchange, hdrawn, hremoves, h.change hchange (fun u hu hmem => ?_)
    (jobs_serve h)⟩
  obtain ⟨m, hm, hid⟩ := List.mem_map.mp hmem
  exact hnew m hm ((hdrawn u hu).trans (congrArg some hid.symm))

/-! ## Runs -/

variable {requests : List UserRequest}

/-- No user who was made has an id that is still to be drawn. -/
def Ahead (made : List User) (requests : List UserRequest) : Prop :=
  ∀ m ∈ made, m.id ∉ requests.filterMap UserRequest.drawn

theorem Proper.tail (h : Proper (e :: requests)) : Proper requests := by
  refine ⟨?_, fun e' he' => h.vouched e' (List.mem_cons_of_mem _ he')⟩
  have hids := h.ids
  rw [List.filterMap_cons] at hids
  split at hids
  · exact hids
  · exact (List.nodup_cons.mp hids).2

theorem Ahead.head (h : Ahead made (e :: requests)) : ∀ m ∈ made, e.drawn ≠ some m.id :=
  fun m hm hdrawn => h m hm (List.mem_filterMap.mpr ⟨e, List.mem_cons_self, hdrawn⟩)

theorem Ahead.tail (hproper : Proper (e :: requests)) (h : Ahead made (e :: requests))
    (hadded : ∀ u ∈ added, e.drawn = some u.id) : Ahead (made ++ added) requests := by
  intro m hm hlater
  rcases List.mem_append.mp hm with hold | hnew
  · refine h m hold ?_
    obtain ⟨e', he', hdrawn⟩ := List.mem_filterMap.mp hlater
    exact List.mem_filterMap.mpr ⟨e', List.mem_cons_of_mem _ he', hdrawn⟩
  · have hids := hproper.ids
    rw [List.filterMap_cons_some (hadded m hnew)] at hids
    exact (List.nodup_cons.mp hids).1 hlater

/-- A run adds users, and their ids are drawn in it. -/
theorem SoundUsers.run (h : SoundUsers X made s) (hproper : Proper requests)
    (hahead : Ahead made requests) :
    ∃ added, SoundUsers X (made ++ added) (afterRequests X R S s requests) ∧
      ∀ u ∈ added, u.id ∈ requests.filterMap UserRequest.drawn := by
  induction requests generalizing made s with
  | nil =>
      refine ⟨[], ?_, fun u hu => absurd hu List.not_mem_nil⟩
      rw [List.append_nil]
      exact h
  | cons e requests ih =>
      obtain ⟨added, removed, hserved⟩ :=
        h.serve (R := R) (S := S) (hproper.vouched e List.mem_cons_self) hahead.head
      obtain ⟨later, hsound, hlater⟩ :=
        ih hserved.sound hproper.tail (hahead.tail hproper hserved.drawn)
      refine ⟨added ++ later, ?_, fun u hu => ?_⟩
      · rw [← List.append_assoc]
        exact hsound
      · rcases List.mem_append.mp hu with hfirst | hrest
        · exact List.mem_filterMap.mpr ⟨e, List.mem_cons_self, hserved.drawn u hfirst⟩
        · obtain ⟨e', he', hdrawn⟩ := List.mem_filterMap.mp (hlater u hrest)
          exact List.mem_filterMap.mpr ⟨e', List.mem_cons_of_mem _ he', hdrawn⟩

/-- The user has no row. -/
def Gone (X : External) (s : UserState) (id : Uuid) : Prop :=
  ∀ r ∈ s.db.users.rows, r.id ≠ X.uuidText id

theorem Served.gone (h : Served X R S made s e added removed) {m : User}
    (hm : e.drawn ≠ some m.id) (hgone : Gone X s m.id ∨ removed = some m.id) :
    Gone X (e.serve X R S s) m.id := by
  intro r' hr' hid
  rcases h.change.origin hr' with ⟨r, hr, hsame, hkept⟩ | ⟨u, hu, hsame⟩
  · rcases hgone with hgone | hremoved
    · exact hgone r hr (hsame.id.symm.trans hid)
    · exact hkept m.id hremoved hid
  · refine hm ((h.drawn u hu).trans (congrArg some (uuidText_inj X ?_)))
    exact hsame.id.symm.trans hid

/-- Who was deleted does not come back. -/
theorem SoundUsers.run_gone (h : SoundUsers X made s) (hproper : Proper requests)
    (hahead : Ahead made requests) {m : User} (hm : m ∈ made) (hgone : Gone X s m.id) :
    Gone X (afterRequests X R S s requests) m.id := by
  induction requests generalizing made s with
  | nil => exact hgone
  | cons e requests ih =>
      obtain ⟨added, removed, hserved⟩ :=
        h.serve (R := R) (S := S) (hproper.vouched e List.mem_cons_self) hahead.head
      exact ih hserved.sound hproper.tail (hahead.tail hproper hserved.drawn)
        (List.mem_append_left _ hm) (hserved.gone (hahead.head m hm) (.inl hgone))

variable (X R S) in
/-- The user is not deleted in the run. -/
def Stays (id : Uuid) (s : UserState) (requests : List UserRequest) : Prop :=
  Run.Along (UserRequest.next X R S) (fun s e => ¬ Removes X s id e) s requests

theorem stays_cons :
    Stays X R S id s (e :: requests) ↔
      ¬ Removes X s id e ∧ Stays X R S id (e.serve X R S s) requests :=
  Run.along_cons rfl requests

/-- Who is not deleted stays. -/
theorem SoundUsers.run_row (h : SoundUsers X made s) (hproper : Proper requests)
    (hahead : Ahead made requests) {r : UserRow} (hr : r ∈ s.db.users.rows)
    (hid : r.id = X.uuidText id) (hstays : Stays X R S id s requests) :
    ∃ r' ∈ (afterRequests X R S s requests).db.users.rows, SameIdentity r' r := by
  induction requests generalizing made s r with
  | nil => exact ⟨r, hr, .refl r⟩
  | cons e requests ih =>
      obtain ⟨added, removed, hserved⟩ :=
        h.serve (R := R) (S := S) (hproper.vouched e List.mem_cons_self) hahead.head
      obtain ⟨hkeeps, hrest⟩ := stays_cons.mp hstays
      obtain ⟨r', hr', hsame⟩ := hserved.change.row hr hid
        fun hremoved => hkeeps ((hserved.removes id).mpr hremoved)
      obtain ⟨r'', hr'', hsame'⟩ := ih hserved.sound hproper.tail
        (hahead.tail hproper hserved.drawn) hr' (hsame.id.trans hid) hrest
      exact ⟨r'', hr'', hsame'.trans hsame⟩

/-- Who is deleted is gone for good. -/
theorem SoundUsers.run_removed (h : SoundUsers X made s) (hproper : Proper requests)
    (hahead : Ahead made requests) {m : User} (hm : m ∈ made)
    (hremoved : ¬ Stays X R S m.id s requests) :
    Gone X (afterRequests X R S s requests) m.id := by
  induction requests generalizing made s with
  | nil => exact absurd trivial hremoved
  | cons e requests ih =>
      obtain ⟨added, removed, hserved⟩ :=
        h.serve (R := R) (S := S) (hproper.vouched e List.mem_cons_self) hahead.head
      have hahead' := hahead.tail hproper hserved.drawn
      by_cases hnow : Removes X s m.id e
      · have hgone := hserved.gone (hahead.head m hm) (.inr ((hserved.removes m.id).mp hnow))
        exact hserved.sound.run_gone hproper.tail hahead' (List.mem_append_left _ hm) hgone
      · refine ih hserved.sound hproper.tail hahead' (List.mem_append_left _ hm) fun hstays => ?_
        exact hremoved (stays_cons.mpr ⟨hnow, hstays⟩)

/-! ## Sign-ins -/

/-- A login that is granted has the name and the password of a local user. -/
theorem login_granted {limited : Option ApiError} {req : LoginReq} {token : String}
    (h : (login X R S db limited req d).2 = .granted token user) :
    db.getByUsername X R d.readAt req.username = some user ∧ user.provider = .localAccount ∧
      (∃ hash, user.passwordHash = some hash ∧
        S.argon2.verifyPassword req.password hash = .ok true) ∧
      login X R S db limited req d = openSession X S db user d := by
  -- Each check of the handler is passed, in its order.
  rw [login.eq_def] at h ⊢
  cases limited with
  | some e => cases h
  | none =>
      dsimp only at h ⊢
      cases hfound : db.getByUsername X R d.readAt req.username with
      | none =>
          rw [hfound] at h
          cases h
      | some found =>
          rw [hfound] at h
          dsimp only at h ⊢
          split at h
          · cases h
          · next hactive =>
              split at h
              · cases h
              · next hprovider =>
                  split at h
                  · cases h
                  · next hash hhash =>
                      split at h
                      · cases h
                      · next ok hverify =>
                          split at h
                          · cases h
                          · next hok =>
                              rw [Bool.not_eq_true', Bool.not_eq_false] at hok
                              rw [hok] at hverify
                              -- The session is opened for the user who was found by the name.
                              have hsame := openSession_granted h
                              rw [hsame] at hprovider hhash hactive ⊢
                              rw [if_neg hactive, if_neg hprovider, hhash, hok]
                              exact ⟨rfl, not_not.mp hprovider, ⟨hash, rfl, hverify⟩, rfl⟩

/-- Sign-ins come by a door. -/
theorem SignsIn.door (h : SignsIn X R S s key user e) : ∃ door d, e = .enters door d := by
  cases e with
  | enters door d => exact ⟨door, d, rfl⟩
  | _ => exact h.elim

/-- Whoever signs in has a row with the key. -/
theorem SignsIn.row (h : SoundUsers X made s) (hsigns : SignsIn X R S s key user e) :
    (∃ r ∈ (e.serve X R S s).db.users.rows, r.id = X.uuidText user.id ∧ signInKey r = key) ∧
      ∀ id, ¬ Removes X s id e := by
  -- a row that the handler found, and that later writes leave
  have hfound : ∀ {db' : Store.UserDb} {r : UserRow} (readAt : DateTime),
      r ∈ s.db.users.rows → (rowToUser X R readAt r).id = user.id → signInKey r = key →
      Rewrites s.db.users db'.users →
      ∃ r ∈ db'.users.rows, r.id = X.uuidText user.id ∧ signInKey r = key := by
    intro db' r readAt hr hid hkey hrewrites
    obtain ⟨m, hm, hsame, haccount⟩ := h.rowToUser (R := R) hr readAt
    obtain ⟨r', hr', hsame'⟩ := hrewrites.row hr
    refine ⟨r', hr', ?_, hsame'.signInKey.trans hkey⟩
    rw [hsame'.id, hsame.id, ← hid, haccount.id]
    rfl
  obtain ⟨door, d, rfl⟩ := hsigns.door
  refine ⟨?_, fun _ h => h⟩
  rw [UserRequest.serve]
  dsimp only
  cases door with
  | createUser req => exact hsigns.elim
  | login limited req =>
      obtain ⟨rfl, token, hgranted⟩ := hsigns
      obtain ⟨huser, hlocal, -, hout⟩ := login_granted hgranted
      rw [Door.enter, hout]
      obtain ⟨r, hr, hname, rfl⟩ := exists_row_of_getByUsername huser
      refine hfound d.readAt hr rfl ?_ (rewrites_openSession _ _ _)
      obtain ⟨m, hm, hsame, haccount⟩ := h.rowToUser (R := R) hr d.readAt
      -- A local account has no subject, so its key is the name.
      have hsub : m.providerSub = none :=
        (h.local_iff m hm).mpr (haccount.provider.symm.trans hlocal)
      rw [signInKey, hsame.providerSub, userRow, hsub, ← hname]
  | sso claim =>
      obtain ⟨rfl, token, hgranted⟩ := hsigns
      rw [Door.enter]
      rcases upsertSso_cases X R S s.db claim d with
        ⟨e, hout⟩ | ⟨found, db', hread, hupdate, hout⟩ |
          ⟨role, db', -, hnone, hcreate, hout⟩
      -- The provider's user was turned down, so nobody is signed in.
      · rw [hout] at hgranted
        cases hgranted
      · rw [hout] at hgranted ⊢
        have huser := sessionFor_granted hgranted
        rw [getByProviderSub, Option.map_eq_some_iff] at hread
        obtain ⟨r, hr, rfl⟩ := hread
        have hmem := List.mem_of_find?_eq_some hr
        have hclaimed := List.find?_some hr
        rw [Bool.and_eq_true, beq_iff_eq, beq_iff_eq] at hclaimed
        obtain ⟨m, hm, -, hsame⟩ := h.rowToUser (R := R) hmem d.readAt
        have hwritten : Rewrites s.db.users db'.users := by
          refine h.rewrites ?_ hupdate
          exact ⟨m, hm, hsame.id, hsame.username, hsame.provider, hsame.providerSub⟩
        refine hfound d.readAt hmem ?_ ?_
          (hwritten.trans (rewrites_sessionFor _ _ _))
        · rw [← huser]
        · rw [signInKey, hclaimed.2, hclaimed.1]
      -- A new user, whose row the session leaves.
      · rw [hout] at hgranted ⊢
        obtain rfl := sessionFor_granted hgranted
        obtain ⟨-, users, hinsert, rfl⟩ := create_eq_some.mp hcreate
        have hmem : userRow X (claim.newUser role d) ∈ users.rows := by
          rw [(Table.insert_eq_some hinsert).2]
          exact List.mem_append_right _ (List.mem_singleton_self _)
        obtain ⟨r, hr, hsame⟩ :=
          (rewrites_sessionFor (X := X) (S := S) { s.db with users := users }
            (claim.newUser role d) d).row hmem
        exact ⟨r, hr, hsame.id, hsame.signInKey⟩

theorem Proper.append {later : List UserRequest} (h : Proper (requests ++ later)) :
    Proper requests ∧ Proper later ∧
      ∀ i ∈ requests.filterMap UserRequest.drawn, i ∉ later.filterMap UserRequest.drawn := by
  have hids := h.ids
  rw [List.filterMap_append, List.nodup_append] at hids
  obtain ⟨hfirst, hlater, hapart⟩ := hids
  refine ⟨⟨hfirst, fun e he => h.vouched e (List.mem_append_left _ he)⟩,
    ⟨hlater, fun e he => h.vouched e (List.mem_append_right _ he)⟩, fun i hi hi' => ?_⟩
  exact hapart i hi i hi' rfl

theorem afterRequests_append (s : UserState) (requests later : List UserRequest) :
    afterRequests X R S s (requests ++ later) =
      afterRequests X R S (afterRequests X R S s requests) later := List.foldl_append

/-- A run in front of another one. -/
theorem SoundUsers.run_ahead {later : List UserRequest} (h : SoundUsers X made s)
    (hproper : Proper (requests ++ later)) (hahead : Ahead made (requests ++ later)) :
    ∃ added, SoundUsers X (made ++ added) (afterRequests X R S s requests) ∧
      Ahead (made ++ added) later := by
  obtain ⟨hfirst, -, hapart⟩ := hproper.append
  have hmade : Ahead made requests ∧ Ahead made later := by
    constructor
    · intro m hm hdrawn
      refine hahead m hm ?_
      rw [List.filterMap_append]
      exact List.mem_append_left _ hdrawn
    · intro m hm hdrawn
      refine hahead m hm ?_
      rw [List.filterMap_append]
      exact List.mem_append_right _ hdrawn
  obtain ⟨added, hsound, hadded⟩ := h.run (R := R) (S := S) hfirst hmade.1
  refine ⟨added, hsound, fun m hm => ?_⟩
  rcases List.mem_append.mp hm with hold | hnew
  · exact hmade.2 m hold
  · exact hapart m.id (hadded m hnew)

/-- **One key, one account.**  In every run over the doors, with commands of the CLI that write
    what they read before, two sign-ins are for the same user exactly when they are by the
    same key and the user was not deleted in between. -/
theorem signIns_same_iff (X : External) (R : Rfc3339Reader) (S : SignIn)
    (before between : List UserRequest) (first second : UserRequest)
    (hproper : Proper (before ++ first :: (between ++ [second]))) {key key' : SignInKey}
    {user user' : User}
    (hfirst : SignsIn X R S (afterRequests X R S .fresh before) key user first)
    (hsecond : SignsIn X R S (afterRequests X R S .fresh (before ++ first :: between))
      key' user' second) :
    user.id = user'.id ↔
      key = key' ∧
        Stays X R S user.id (afterRequests X R S .fresh (before ++ [first])) between := by
  obtain ⟨made, h, hahead⟩ := sound_fresh.run_ahead (R := R) (S := S) hproper
    fun m hm => absurd hm List.not_mem_nil
  rw [List.nil_append] at h hahead
  rw [afterRequests_append] at hsecond ⊢
  generalize afterRequests X R S .fresh before = s at h hfirst hsecond ⊢
  change SignsIn X R S (afterRequests X R S (first.serve X R S s) between) key' user' second
    at hsecond
  change _ ↔ _ ∧ Stays X R S user.id (first.serve X R S s) between
  -- after the first sign-in
  have hproper' := hproper.append.2.1
  obtain ⟨added, removed, hserved⟩ :=
    h.serve (R := R) (S := S) (hproper'.vouched first List.mem_cons_self) hahead.head
  obtain ⟨⟨r, hr, hid, hkey⟩, -⟩ := hfirst.row h
  have hahead' := hahead.tail hproper' hserved.drawn
  obtain ⟨m, hm, hmade⟩ := hserved.sound.rows r hr
  have huser : m.id = user.id := uuidText_inj X (hmade.id.symm.trans hid)
  rw [← huser] at hid ⊢
  -- before the second one, and after it
  have hbetween := hproper'.tail.append.1
  have hahead'' : Ahead (made ++ added) between := fun u hu hdrawn => by
    refine hahead' u hu ?_
    rw [List.filterMap_append]
    exact List.mem_append_left _ hdrawn
  obtain ⟨later, h', hlast⟩ := hserved.sound.run_ahead (R := R) (S := S) hproper'.tail hahead'
  obtain ⟨added', removed', hserved'⟩ :=
    h'.serve (R := R) (S := S) (hproper'.tail.append.2.1.vouched second
      (List.mem_singleton_self _)) hlast.head
  obtain ⟨⟨r', hr', hid', hkey'⟩, hkeeps⟩ := hsecond.row h'
  have hstill : m ∈ made ++ added ++ later := List.mem_append_left _ hm
  constructor
  · intro hsame
    -- Same user: both rows are those of one account, and it was not deleted in between.
    obtain ⟨m', hm', hmade'⟩ := hserved'.sound.rows r' hr'
    have hone : m' = m := hserved'.sound.eq_of_id hm' (List.mem_append_left _ hstill)
      (uuidText_inj X (hmade'.id.symm.trans (hid'.trans (congrArg X.uuidText hsame.symm))))
    rw [hone] at hmade'
    refine ⟨?_, not_not.mp fun hremoved => ?_⟩
    · rw [← hkey, ← hkey', hmade.signInKey, hmade'.signInKey]
    · have hgone := hserved.sound.run_removed hbetween hahead'' hm hremoved
      exact hserved'.gone (hlast.head m hstill) (.inl hgone) r' hr' hmade'.id
  · rintro ⟨rfl, hstays⟩
    -- Same key: the row of the first sign-in is still there, and keys are unique.
    obtain ⟨r₁, hr₁, hsame₁⟩ := hserved.sound.run_row hbetween hahead'' hr hid hstays
    obtain ⟨r₂, hr₂, hsame₂⟩ := hserved'.change.row hr₁ (hsame₁.id.trans hid)
      fun hremoved => hkeeps m.id ((hserved'.removes m.id).mpr hremoved)
    have hrow : r₂ = r' := hserved'.sound.keys.eq_of_col_eq hr₂ hr'
      ((hsame₂.trans hsame₁).signInKey.trans (hkey.trans hkey'.symm))
    refine uuidText_inj X ?_
    rw [← hid', ← hrow, hsame₂.id, hsame₁.id, hid]

/-! ## Samples -/

/-- Gina is made, and signs in. -/
def ginaMade : UserRequest :=
  .enters (.createUser ⟨"Gina", some "old-password", none, "operator"⟩) (drawAt 9 "")

def ginaEnters (password token : String) : UserRequest :=
  .enters (.login none ⟨"gina", password⟩) (drawAt 0 token)

/-- The administrator sets another password while a command of the CLI holds the old row. -/
def ginaChanged : List UserRequest :=
  [.start (.setActive "gina" false) 0, .setPassword 9 "new-password" "salt" 0]

theorem signIns_same_gina :
    ∃ user user', SignsIn .sample .sample .sample
        (afterRequests .sample .sample .sample .fresh [ginaMade])
        (.password "gina") user (ginaEnters "old-password" "3fa8") ∧
      SignsIn .sample .sample .sample (afterRequests .sample .sample .sample .fresh
          ([ginaMade] ++ ginaEnters "old-password" "3fa8" :: ginaChanged))
        (.password "gina") user' (ginaEnters "new-password" "77c0") ∧ user.id = user'.id := by
  have hproper : Proper ([ginaMade] ++ ginaEnters "old-password" "3fa8" ::
      (ginaChanged ++ [ginaEnters "new-password" "77c0"])) := by
    refine ⟨by decide, ?_⟩
    simp [ginaMade, ginaEnters, ginaChanged, UserRequest.Vouched]
  refine ⟨_, _, ⟨rfl, _, rfl⟩, ⟨rfl, _, rfl⟩,
    (signIns_same_iff .sample .sample .sample [ginaMade] ginaChanged
      (ginaEnters "old-password" "3fa8") (ginaEnters "new-password" "77c0") hproper
      ⟨rfl, _, rfl⟩ ⟨rfl, _, rfl⟩).mpr ⟨rfl, ?_⟩⟩
  exact stays_cons.mpr ⟨fun h => h, stays_cons.mpr ⟨fun h => h, trivial⟩⟩

end Maranode.Api
