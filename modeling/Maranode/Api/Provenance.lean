/-
  Maranode.Api.Provenance

  What a sign-in relies on, over every door to the users.

  A row has a role and the hash of a password.  Whatever is written, both were given to that
  very account: by an administrator, by a provider with the first sign-in, or with a mailed
  token.  A command of the CLI may write back what another request has changed since, but it
  writes it to the account that it read.  So nobody signs in with a role or a password that
  nobody gave to the account (`signIn_given`).
-/
import Maranode.Api.Identity

namespace Maranode.Api

open Lib Store UserDb

variable (X : External) (R : Rfc3339Reader) (S : SignIn)

/-! ## Gifts -/

/-- The start of the daemon makes the administrator. -/
def MakesAdmin (s : UserState) (adminKey : Option String) (d : Draw) : Prop :=
  ∃ hash db', s.db.create X (localUser "admin" none .admin hash d) = some db' ∧
    initialAdmin X S s.db adminKey d = .ok db'

/-- The request succeeds, and gives the account the role. -/
def GivesRole (s : UserState) (id : Uuid) (role : Role) : UserRequest → Prop
  | .enters (.createUser req) d => d.id = id ∧ parseRole req.role = .ok role ∧
      ∃ user, (createUser X S s.db req d).2 = .ok user
  -- The first sign-in makes the user, with the role of the claim.
  | .enters (.sso claim) d => d.id = id ∧ parseRole claim.role = .ok role ∧
      s.db.getByProviderSub X R d.readAt claim.provider.asStr claim.sub = none ∧
      (s.db.create X (claim.newUser role d)).isSome = true
  | .updateUser other req readAt => other = id ∧
      (∃ r, req.role = some r ∧ parseRole r = .ok role) ∧
      ∃ user, (updateUser X R S s.db other req readAt).2 = .ok user
  | .restart adminKey d => d.id = id ∧ role = .admin ∧ MakesAdmin X S s adminKey d
  | .finish i typed d => d.id = id ∧
      ∃ username email, s.jobs[i]? = some (.create username email role) ∧
        (UsersJob.finish X S s.db typed d (.create username email role)).2 = .ok ()
  | _ => False

/-- The request succeeds, and gives the account the password. -/
def GivesPassword (s : UserState) (id : Uuid) (password : String) : UserRequest → Prop
  | .enters (.createUser req) d => d.id = id ∧ req.password = some password ∧
      ∃ user, (createUser X S s.db req d).2 = .ok user
  | .setPassword other typed salt readAt => other = id ∧ typed = password ∧
      (setPassword X R S s.db other typed salt readAt).2 = .ok ()
  | .confirmReset token typed d => typed = password ∧
      (s.db.consumeResetToken X d.first token).2 = some id ∧
      (confirmReset X R S s.db token typed d).2 = .ok ()
  | .restart adminKey d => d.id = id ∧ adminKey = some password ∧ MakesAdmin X S s adminKey d
  | .finish i typed d => typed = password ∧ ∃ job, s.jobs[i]? = some job ∧
      (job.finish X S s.db typed d).2 = .ok () ∧
      ((d.id = id ∧ ∃ username email role, job = .create username email role) ∨
        ∃ user, user.id = id ∧ job = .setPassword user)
  | _ => False

/-- Some request of a run from the new data directory. -/
def Happened (P : UserState → UserRequest → Prop) (requests : List UserRequest) : Prop :=
  ∃ before e later, requests = before ++ e :: later ∧
    P (afterRequests X R S .fresh before) e

/-- The role and the password of an account were given to it. -/
structure Given (requests : List UserRequest) (id : Uuid) (role : Role) (hash : Option String) :
    Prop where
  role : Happened X R S (fun s e => GivesRole X R S s id role e) requests
  hash : ∀ h ∈ hash, ∃ salt password, S.argon2.hashPassword salt password = .ok h ∧
    Happened X R S (fun s e => GivesPassword X R S s id password e) requests

/-- The user, or one who was read, has what was given to the account. -/
def GivenUser (requests : List UserRequest) (user : User) : Prop :=
  Given X R S requests user.id user.role user.passwordHash

/-- Rows that agree in what a sign-in relies on. -/
structure SameColumns (r s : UserRow) : Prop where
  id : r.id = s.id
  role : r.role = s.role
  hash : r.passwordHash = s.passwordHash

/-- Every row agrees with one that was there, or with a user who has a property. -/
def Writes (P : User → Prop) (users users' : Lib.Table UserRow.id) : Prop :=
  ∀ r' ∈ users'.rows, (∃ r ∈ users.rows, SameColumns r' r) ∨
    ∃ u, P u ∧ SameColumns r' (userRow X u)

variable {X R S} {s : UserState} {e : UserRequest} {db db' : Store.UserDb}
  {users mid users' : Lib.Table UserRow.id} {user : User} {id : Uuid} {d : Draw}
  {requests : List UserRequest} {P : User → Prop} {role : Role} {hash : Option String}

theorem SameColumns.refl (r : UserRow) : SameColumns r r := ⟨rfl, rfl, rfl⟩

theorem SameColumns.trans {r s t : UserRow} (h : SameColumns r s) (h' : SameColumns s t) :
    SameColumns r t := ⟨h.id.trans h'.id, h.role.trans h'.role, h.hash.trans h'.hash⟩

theorem Happened.mono {P : UserState → UserRequest → Prop} (h : Happened X R S P requests)
    (more : List UserRequest) : Happened X R S P (requests ++ more) := by
  obtain ⟨before, e, later, rfl, he⟩ := h
  exact ⟨before, e, later ++ more, by rw [List.append_assoc, List.cons_append], he⟩

theorem Happened.last {P : UserState → UserRequest → Prop}
    (hs : afterRequests X R S .fresh requests = s) (h : P s e) :
    Happened X R S P (requests ++ [e]) :=
  ⟨requests, e, [], rfl, hs ▸ h⟩

theorem Given.mono (h : Given X R S requests id role hash) (more : List UserRequest) :
    Given X R S (requests ++ more) id role hash := by
  refine ⟨h.role.mono more, fun h' hmem => ?_⟩
  obtain ⟨salt, password, hhash, hgives⟩ := h.hash h' hmem
  exact ⟨salt, password, hhash, hgives.mono more⟩

theorem Writes.refl (P : User → Prop) (users : Lib.Table UserRow.id) : Writes X P users users :=
  fun r hr => .inl ⟨r, hr, .refl r⟩

theorem Writes.trans (h : Writes X P users mid) (h' : Writes X P mid users') :
    Writes X P users users' := by
  intro r'' hr''
  rcases h' r'' hr'' with ⟨r', hr', hsame'⟩ | hnew
  · rcases h r' hr' with ⟨r, hr, hsame⟩ | ⟨u, hu, hsame⟩
    · exact .inl ⟨r, hr, hsame'.trans hsame⟩
    · exact .inr ⟨u, hu, hsame'.trans hsame⟩
  · exact .inr hnew

theorem writes_create (hcreate : db.create X user = some db') (huser : P user) :
    Writes X P db.users db'.users := by
  obtain ⟨-, users', hinsert, rfl⟩ := create_eq_some.mp hcreate
  intro r hr
  rw [(Table.insert_eq_some hinsert).2] at hr
  rcases List.mem_append.mp hr with hold | hnew
  · exact .inl ⟨r, hold, .refl r⟩
  · rw [List.mem_singleton.mp hnew]
    exact .inr ⟨user, huser, .refl _⟩

theorem writes_update (hupdate : db.update X user = some db') (huser : P user) :
    Writes X P db.users db'.users := by
  rcases db.update_cases X user with hnone | hsome
  · rw [hnone] at hupdate
    cases hupdate
  · rw [hsome] at hupdate
    rw [← Option.some.inj hupdate]
    intro r' hr'
    dsimp only at hr'
    rw [Table.update, List.mem_map] at hr'
    obtain ⟨r, hr, rfl⟩ := hr'
    split
    · next hid => exact .inr ⟨user, huser, hid, rfl, rfl⟩
    · exact .inl ⟨r, hr, .refl r⟩

theorem writes_openSession (db : Store.UserDb) (user : User) (d : Draw) :
    Writes X P db.users (openSession X S db user d).1.users := by
  have hstep := @usersStep_openSession X S db d user
  generalize (openSession X S db user d).1.users = users' at hstep
  cases hstep with
  | same => exact .refl _ _
  | login =>
      intro r' hr'
      rw [Table.update, List.mem_map] at hr'
      obtain ⟨r, hr, rfl⟩ := hr'
      refine .inl ⟨r, hr, ?_⟩
      split
      · exact ⟨rfl, rfl, rfl⟩
      · exact .refl r

theorem writes_sessionFor (db : Store.UserDb) (user : User) (d : Draw) :
    Writes X P db.users (sessionFor X S db user d).1.users := by
  rcases @sessionFor_cases X S db d user with hsame | hopened
  · rw [hsame]
    exact .refl _ _
  · rw [hopened]
    exact writes_openSession db user d

theorem writes_delete (db : Store.UserDb) (id : Uuid) :
    Writes X P db.users (db.delete X id).1.users := by
  rw [delete]
  split
  · exact fun r hr => .inl ⟨r, (Table.mem_deleteWhere.mp hr).1, .refl r⟩
  · exact .refl _ _

/-! ## The invariant -/

variable (X R S) in
/-- Every row, and every user that a command holds, has what was given to the account. -/
structure TracedUsers (requests : List UserRequest) (s : UserState) : Prop where
  rows : ∀ r ∈ s.db.users.rows, ∃ u, GivenUser X R S requests u ∧ SameColumns r (userRow X u)
  jobs : ∀ job ∈ s.jobs, ∀ u ∈ job.user?, GivenUser X R S requests u

theorem traced_fresh : TracedUsers X R S [] UserState.fresh where
  rows := fun _ hr => absurd hr List.not_mem_nil
  jobs := fun _ hjob => absurd hjob List.not_mem_nil

/-- A user who is read has what the row has. -/
theorem TracedUsers.rowToUser (h : TracedUsers X R S requests s) {r : UserRow}
    (hr : r ∈ s.db.users.rows) (readAt : DateTime) :
    GivenUser X R S requests (Store.rowToUser X R readAt r) := by
  obtain ⟨u, hu, hsame⟩ := h.rows r hr
  have hid : (Store.rowToUser X R readAt r).id = u.id := id_rowToUser hsame.id
  have hrole : (Store.rowToUser X R readAt r).role = u.role := by
    rw [Store.rowToUser]
    dsimp only
    rw [hsame.role, userRow, Role.fromStr_asStr]
    rfl
  have hhash : (Store.rowToUser X R readAt r).passwordHash = u.passwordHash := hsame.hash
  rw [GivenUser, hid, hrole, hhash]
  exact hu

theorem TracedUsers.of_getById (h : TracedUsers X R S requests s) {readAt : DateTime} {found : User}
    (hfound : s.db.getById X R readAt id = some found) :
    GivenUser X R S requests found ∧ found.id = id := by
  obtain ⟨r, hr, hid, rfl⟩ := exists_row_of_getById hfound
  exact ⟨h.rowToUser hr readAt, id_rowToUser hid⟩

/-- A hash that was made of a password. -/
theorem given_password {h : String} {salt password : String}
    (hrole : Happened X R S (fun s e => GivesRole X R S s id role e) requests)
    (hhash : S.argon2.hashPassword salt password = .ok h)
    (hgives : Happened X R S (fun s e => GivesPassword X R S s id password e) requests) :
    Given X R S requests id role (some h) := by
  refine ⟨hrole, fun h' hmem => ?_⟩
  rw [← Option.some.inj hmem]
  exact ⟨salt, password, hhash, hgives⟩

theorem given_noPassword
    (hrole : Happened X R S (fun s e => GivesRole X R S s id role e) requests) :
    Given X R S requests id role none :=
  ⟨hrole, by rintro _ ⟨⟩⟩

/-! ## Each request -/

theorem newUser_given {req : CreateUserReq} (huser : S.newUser req d = .ok user) :
    parseRole req.role = .ok user.role ∧
      ∀ h ∈ user.passwordHash, ∃ password, req.password = some password ∧
        S.argon2.hashPassword d.salt password = .ok h := by
  rw [SignIn.newUser] at huser
  split at huser
  · cases huser
  · next role hrole =>
      split at huser
      · cases huser
      · next passwordHash hhash =>
          rw [← Except.ok.inj huser]
          refine ⟨hrole, fun h hmem => ?_⟩
          have hsome : passwordHash = some h := hmem
          rw [hsome] at hhash
          cases hpassword : req.password with
          | none =>
              rw [hpassword, SignIn.hashOf] at hhash
              cases Except.ok.inj hhash
          | some password =>
              refine ⟨password, rfl, ?_⟩
              rw [hpassword, SignIn.hashOf] at hhash
              cases hmade : S.argon2.hashPassword d.salt password with
              | error e =>
                  rw [hmade] at hhash
                  cases hhash
              | ok made =>
                  rw [hmade] at hhash
                  rw [Option.some.inj (Except.ok.inj hhash)]

theorem writes_enter (hs : afterRequests X R S .fresh requests = s)
    (h : TracedUsers X R S requests s) (door : Door) (d : Draw) :
    Writes X (GivenUser X R S (requests ++ [.enters door d])) s.db.users
      (door.enter X R S s.db d).users := by
  -- A row is written by a door only for a user who is made, or who was found.
  cases door with
  | createUser req =>
      rw [Door.enter]
      rcases createUser_cases X S s.db req d with
        ⟨e, hout⟩ | ⟨user, db', huser, hcreate, hout⟩
      · rw [hout]
        exact .refl _ _
      · rw [hout]
        obtain ⟨hrole, hhash⟩ := newUser_given huser
        have hid := (newUser_eq_ok huser).1
        have hdone : ∃ user, (createUser X S s.db req d).2 = .ok user := ⟨user, by rw [hout]⟩
        refine writes_create hcreate ⟨.last hs ⟨hid.symm, hrole, hdone⟩, fun h hmem => ?_⟩
        obtain ⟨password, hpassword, hmade⟩ := hhash h hmem
        exact ⟨d.salt, password, hmade, .last hs ⟨hid.symm, hpassword, hdone⟩⟩
  | login limited req =>
      rw [Door.enter]
      rcases login_cases X R S s.db limited req d with ⟨e, hout⟩ | ⟨user, -, hout⟩
      · rw [hout]
        exact .refl _ _
      · rw [hout]
        exact writes_openSession _ user d
  | sso claim =>
      rw [Door.enter]
      rcases upsertSso_cases X R S s.db claim d with
        ⟨e, hout⟩ | ⟨found, db', hfound, hupdate, hout⟩ | ⟨role, db', hrole, hnew, hcreate, hout⟩
      · rw [hout]
        exact .refl _ _
      · rw [hout]
        obtain ⟨r, hr, -, rfl⟩ := exists_row_of_getByProviderSub hfound
        -- A user who was found keeps role and hash.
        have hgiven := (h.rowToUser hr d.readAt).mono [.enters (.sso claim) d]
        exact (writes_update hupdate hgiven).trans (writes_sessionFor _ _ _)
      · rw [hout]
        refine .trans (writes_create hcreate ?_) (writes_sessionFor _ _ _)
        -- A user of a provider has the role of the claim, and no password.
        exact given_noPassword (.last hs ⟨rfl, hrole, hnew, Option.isSome_iff_exists.mpr ⟨_, hcreate⟩⟩)

theorem writes_confirmReset (hs : afterRequests X R S .fresh requests = s)
    (h : TracedUsers X R S requests s) (token password : String) (d : ResetDraw) :
    Writes X (GivenUser X R S (requests ++ [.confirmReset token password d])) s.db.users
      (confirmReset X R S s.db token password d).1.users := by
  rcases confirmReset_cases X R S s.db token password d with
    ⟨-, e, hout, -⟩ | ⟨-, ⟨db', e, hconsumed, hout, -⟩ | ⟨db', id, e, hconsumed, hout, -⟩ |
      ⟨db', id, user, hash, db'', hconsumed, hfound, hhash, hupdate, hout⟩⟩
  · rw [hout]
    exact .refl _ _
  · rw [hout, users_of_consumeResetToken hconsumed]
    exact .refl _ _
  · rw [hout, users_of_consumeResetToken hconsumed]
    exact .refl _ _
  · rw [hout]
    have husers := users_of_consumeResetToken hconsumed
    have hstill : TracedUsers X R S requests { s with db := db' } := by
      refine ⟨?_, h.jobs⟩
      rw [husers]
      exact h.rows
    obtain ⟨hgiven, rfl⟩ := hstill.of_getById hfound
    rw [← husers]
    refine writes_update hupdate
      (given_password (hgiven.role.mono _) hhash (.last hs ⟨rfl, ?_, ?_⟩))
    · rw [hconsumed]
    · rw [hout]

theorem writes_job (hs : afterRequests X R S .fresh requests = s)
    (h : TracedUsers X R S requests s) {i : Nat} {job : UsersJob}
    (hjob : s.jobs[i]? = some job) (password : String) (d : Draw) :
    Writes X (GivenUser X R S (requests ++ [.finish i password d])) s.db.users
      (job.finish X S s.db password d).1.users := by
  have hwrites := writes_finish X S s.db password d job
  have hheld := h.jobs job (List.mem_of_getElem? hjob)
  generalize hout : job.finish X S s.db password d = out at hwrites ⊢
  cases hwrites with
  | nothing hother => exact .refl _ _
  | create hhash hcreate =>
      have hdone := congrArg Prod.snd hout
      exact writes_create hcreate (given_password (.last hs ⟨rfl, _, _, hjob, hdone⟩) hhash
        (.last hs ⟨rfl, _, hjob, hdone, .inl ⟨rfl, _, _, _, rfl⟩⟩))
  | @setPassword user hash db' hhash hupdate =>
      have hdone := congrArg Prod.snd hout
      refine writes_update hupdate (given_password ((hheld user rfl).role.mono _) hhash ?_)
      exact .last hs ⟨rfl, _, hjob, hdone, .inr ⟨user, rfl, rfl⟩⟩
  | update hupdate => exact writes_update hupdate ((hheld _ rfl).mono _)
  | delete => exact writes_delete _ _

/-- What a request writes was given to the account, now or before. -/
theorem writes_serve (hs : afterRequests X R S .fresh requests = s)
    (h : TracedUsers X R S requests s) :
    Writes X (GivenUser X R S (requests ++ [e])) s.db.users (e.serve X R S s).db.users := by
  cases e with
  | enters door d => exact writes_enter hs h door d
  | updateUser id req readAt =>
      rw [UserRequest.serve]
      rcases updateUser_cases X R S s.db id req readAt with
        ⟨e, hout⟩ | ⟨found, user, db', hfound, huser, hupdate, hout⟩
      · rw [hout]
        exact .refl _ _
      · rw [hout]
        obtain ⟨hgiven, hid⟩ := h.of_getById hfound
        obtain ⟨hsame, hhash, hrole⟩ := UpdateUserReq.on_eq_ok huser
        have hkeeps := hgiven.mono [.updateUser id req readAt]
        -- Without a role in the request the user keeps the one he has.
        refine writes_update hupdate ⟨?_, ?_⟩
        · rcases hrole with hrole | ⟨r, hr, hrole⟩
          · rw [hsame.id, hrole]
            exact hkeeps.role
          · exact .last hs ⟨(hsame.id.trans hid).symm, ⟨r, hr, hrole⟩, user, by rw [hout]⟩
        · rw [hsame.id, hhash]
          exact hkeeps.hash
  | delUser id =>
      rw [UserRequest.serve, (delUser_cases X _ id).1]
      exact writes_delete _ id
  | setPassword id password salt readAt =>
      rw [UserRequest.serve]
      rcases setPassword_cases X R S s.db id password salt readAt with
        ⟨e, hout⟩ | ⟨found, hash, db', hfound, hhash, hupdate, hout⟩
      · rw [hout]
        exact .refl _ _
      · rw [hout]
        obtain ⟨hgiven, hid⟩ := h.of_getById hfound
        exact writes_update hupdate
          (given_password (hgiven.role.mono _) hhash (.last hs ⟨hid.symm, rfl, by rw [hout]⟩))
  | requestReset limited smtp email d =>
      -- Requests on tokens and sessions write no row of a user.
      rw [UserRequest.serve]
      dsimp only
      rw [users_of_requestReset]
      exact .refl _ _
  | confirmReset token password d => exact writes_confirmReset hs h token password d
  | deleteSession token => exact .refl _ _
  | deleteSessionsExcept userId keepToken => exact .refl _ _
  | deleteSessionByPrefix userId tokenPrefix => exact .refl _ _
  | restart adminKey d =>
      rw [UserRequest.serve]
      rcases initialAdmin_cases X S s.db adminKey d with
        ⟨e, hout⟩ | hout | ⟨key, hash, db', rfl, hhash, hcreate, hout⟩
      · rw [hout]
        exact .refl _ _
      · rw [hout]
        exact .refl _ _
      · rw [hout]
        -- The administrator of the first start has the admin key as password.
        have hmakes : MakesAdmin X S s (some key) d := ⟨hash, db', hcreate, hout⟩
        exact writes_create hcreate
          (given_password (.last hs ⟨rfl, rfl, hmakes⟩) hhash (.last hs ⟨rfl, rfl, hmakes⟩))
  | start command readAt =>
      rw [UserRequest.serve]
      rcases command.start X R s.db readAt with e | job
      · exact .refl _ _
      · cases job with
        | none => exact .refl _ _
        | some job => exact .refl _ _
  -- A command writes back the user whom it read, with one column changed.
  | finish i password d =>
      rw [UserRequest.serve]
      cases hjob : s.jobs[i]? with
      | none => exact .refl _ _
      | some job => exact writes_job hs h hjob password d
  | abort i => exact .refl _ _

theorem TracedUsers.serve (hs : afterRequests X R S .fresh requests = s)
    (h : TracedUsers X R S requests s) :
    TracedUsers X R S (requests ++ [e]) (e.serve X R S s) where
  rows := by
    intro r' hr'
    rcases writes_serve hs h r' hr' with ⟨r, hr, hsame⟩ | hnew
    · obtain ⟨u, hu, hrow⟩ := h.rows r hr
      exact ⟨u, hu.mono [e], hsame.trans hrow⟩
    · exact hnew
  jobs := by
    intro job hjob u hu
    rcases job_of_serve hjob with hold | ⟨readAt, hread⟩
    · exact (h.jobs job hold u hu).mono [e]
    · obtain ⟨r, hr, hsame, hrole, hhash⟩ := exists_row_of_read hread hu
      rw [GivenUser, hsame.id, hrole, hhash]
      exact (h.rowToUser hr readAt).mono [e]

variable (X R S) in
/-- After any requests. -/
theorem traced_afterRequests (requests : List UserRequest) :
    TracedUsers X R S requests (afterRequests X R S .fresh requests) := by
  induction requests using List.reverseRecOn with
  | nil => exact traced_fresh
  | append_singleton requests e ih =>
      rw [afterRequests_append]
      exact ih.serve rfl

/-- **What a sign-in relies on.**  In every run over the doors, with commands of the CLI in
    between, a session is granted to a user whose role was given to that account; and when a
    password was typed, it is one that was set for that account. -/
theorem signIn_given (X : External) (R : Rfc3339Reader) (S : SignIn)
    (requests : List UserRequest) (e : UserRequest) {key : SignInKey} {user : User}
    (hsigns : SignsIn X R S (afterRequests X R S .fresh requests) key user e) :
    Happened X R S (fun s e => GivesRole X R S s user.id user.role e) (requests ++ [e]) ∧
      ∀ limited req d, e = .enters (.login limited req) d →
        Happened X R S (fun s e => GivesPassword X R S s user.id req.password e) requests := by
  have htraced := traced_afterRequests X R S requests
  -- Only two doors open a session for a user who was there.
  obtain ⟨door, d, rfl⟩ := hsigns.door
  cases door with
  | createUser req => exact hsigns.elim
  | login limited req =>
      obtain ⟨-, token, hgranted⟩ := hsigns
      obtain ⟨hfound, -, ⟨hash, hhash, hverify⟩, -⟩ := login_granted hgranted
      obtain ⟨r, hr, -, rfl⟩ := exists_row_of_getByUsername hfound
      have hgiven := htraced.rowToUser (R := R) hr d.readAt
      refine ⟨hgiven.role.mono _, fun limited' req' d' hsame => ?_⟩
      obtain ⟨hdoor, -⟩ := UserRequest.enters.inj hsame
      obtain ⟨-, rfl⟩ := Door.login.inj hdoor
      -- The password verifies, so it is the one the hash was made of.
      obtain ⟨salt, password, hmade, hset⟩ := hgiven.hash hash hhash
      rw [S.argon2.verify_hash hmade] at hverify
      rw [of_decide_eq_true (Except.ok.inj hverify)]
      exact hset
  | sso claim =>
      obtain ⟨-, token, hgranted⟩ := hsigns
      refine ⟨?_, fun limited req d' hsame => ?_⟩
      -- The role of a provider's user is that of his row, or of the claim that made him.
      · rcases upsertSso_cases X R S (afterRequests X R S .fresh requests).db claim d with
          ⟨e, hout⟩ | ⟨found, db', hfound, -, hout⟩ | ⟨role, db', hrole, hnew, hcreate, hout⟩
        · rw [hout] at hgranted
          cases hgranted
        · rw [hout] at hgranted
          obtain ⟨r, hr, -, rfl⟩ := exists_row_of_getByProviderSub hfound
          rw [← sessionFor_granted hgranted]
          exact (htraced.rowToUser (R := R) hr d.readAt).role.mono _
        · rw [hout] at hgranted
          rw [← sessionFor_granted hgranted]
          exact .last rfl ⟨rfl, hrole, hnew, Option.isSome_iff_exists.mpr ⟨_, hcreate⟩⟩
      · cases (UserRequest.enters.inj hsame).1

/-- Gina has the role of her first day, and the password that was set last. -/
theorem signIn_given_gina :
    ∃ user : User,
      Happened .sample .sample .sample
        (fun s e => GivesRole .sample .sample .sample s user.id user.role e)
        (([ginaMade] ++ ginaChanged) ++ [ginaEnters "new-password" "77c0"]) ∧
      Happened .sample .sample .sample
        (fun s e => GivesPassword .sample .sample .sample s user.id "new-password" e)
        ([ginaMade] ++ ginaChanged) := by
  have hsigns := signIn_given .sample .sample .sample ([ginaMade] ++ ginaChanged)
    (ginaEnters "new-password" "77c0") ⟨rfl, _, rfl⟩
  exact ⟨_, hsigns.1, hsigns.2 _ _ _ rfl⟩

end Maranode.Api
