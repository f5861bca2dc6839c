/-
  Maranode.Api.Usernames

  Names at the doors: a user whom an administrator makes, and one whom a provider vouches
  for.

  One door changes a name before it is stored, and the others take it as it comes.  A user
  who was made as `Alice` is `alice` in the table and nobody at the login; and a provider
  that says `Alice` makes another user beside that one.
-/
import Maranode.Api.SignIn
import Maranode.Lib.Run

namespace Maranode.Api

open Lib Store UserDb

variable (X : External) (R : Rfc3339Reader) (S : SignIn)

/-! ## Requests -/

inductive Door where
  | createUser (req : CreateUserReq)
  | login (limited : Option ApiError) (req : LoginReq)
  | sso (claim : SsoClaim)

/-- A request at a door, with what is drawn for it, or a call that another handler makes. -/
inductive AuthEvent where
  | enters (door : Door) (d : Draw)
  | call (e : UserEvent)

def Door.enter (db : Store.UserDb) (door : Door) (d : Draw) : Store.UserDb :=
  match door with
  | .createUser req => (Api.createUser X S db req d).1
  | .login limited req => (Api.login X R S db limited req d).1
  | .sso claim => (upsertSso X R S db claim d).1

def AuthEvent.serve (db : Store.UserDb) : AuthEvent → Store.UserDb
  | .enters door d => door.enter X R S db d
  | .call e => (db.step X R e).1

/-- The database after some requests. -/
def after (db : Store.UserDb) (events : List AuthEvent) : Store.UserDb :=
  events.foldl (AuthEvent.serve X R S) db

/-- The request is no other handler's change of the user, and no deletion. -/
def AuthEvent.Spares (id : Uuid) : AuthEvent → Prop
  | .enters _ _ => True
  | .call e => UserDb.Spares id e.call

variable {X R S} {db : Store.UserDb} {d : Draw} {id : Uuid} {name hash : String}

/-! ## What requests keep -/

theorem wellKept_openSession {user : User} (h : WellKept X db) :
    WellKept X (openSession X S db user d).1 :=
  h.of_usersStep usersStep_openSession

theorem wellKept_sessionFor {user : User} (h : WellKept X db) :
    WellKept X (sessionFor X S db user d).1 := by
  rcases @sessionFor_cases X S db d user with hsame | hopened
  · rwa [hsame]
  · rw [hopened]
    exact wellKept_openSession h

theorem wellKept_enter (door : Door) (h : WellKept X db) : WellKept X (door.enter X R S db d) := by
  cases door with
  | createUser req =>
      rw [Door.enter]
      rcases createUser_cases X S db req d with ⟨e, hout⟩ | ⟨user, db', -, hcreate, hout⟩
      · rwa [hout]
      · rw [hout]
        exact h.of_usersStep (usersStep_create hcreate)
  | login limited req =>
      rw [Door.enter]
      rcases login_cases X R S db limited req d with ⟨e, hout⟩ | ⟨user, -, hout⟩
      · rwa [hout]
      · rw [hout]
        exact wellKept_openSession h
  | sso claim =>
      rw [Door.enter]
      rcases upsertSso_cases X R S db claim d with
        ⟨e, hout⟩ | ⟨found, db', -, hupdate, hout⟩ | ⟨role, db', -, -, hcreate, hout⟩
      · rwa [hout]
      · rw [hout]
        exact wellKept_sessionFor (h.of_usersStep (usersStep_update hupdate))
      · rw [hout]
        exact wellKept_sessionFor (h.of_usersStep (usersStep_create hcreate))

theorem wellKept_serve (e : AuthEvent) (h : WellKept X db) : WellKept X (e.serve X R S db) := by
  cases e with
  | enters door d => exact wellKept_enter door h
  | call e => exact h.of_usersStep (usersStep_step db e)

theorem wellKept_after (events : List AuthEvent) (h : WellKept X db) :
    WellKept X (after X R S db events) := by
  induction events generalizing db with
  | nil => exact h
  | cons e events ih => exact ih (wellKept_serve e h)

theorem hasAccount_openSession {user : User} (h : HasAccount X db id name hash) :
    HasAccount X (openSession X S db user d).1 id name hash :=
  usersStep_openSession.keeps trivial h

theorem hasAccount_sessionFor {user : User} (h : HasAccount X db id name hash) :
    HasAccount X (sessionFor X S db user d).1 id name hash := by
  rcases @sessionFor_cases X S db d user with hsame | hopened
  · rwa [hsame]
  · rw [hopened]
    exact hasAccount_openSession h

/-- A user whom a provider vouches for is not one with a password. -/
theorem id_ne_of_getByProviderSub {readAt : DateTime} {provider sub : String} {found : User}
    (hkept : WellKept X db) (h : HasAccount X db id name hash)
    (hfound : db.getByProviderSub X R readAt provider sub = some found) : found.id ≠ id := by
  obtain ⟨r, hr, hsub, rfl⟩ := exists_row_of_getByProviderSub hfound
  obtain ⟨row, hrow, hlocal⟩ := h
  obtain ⟨id', hid'⟩ := hkept.ids r hr
  rw [id_rowToUser hid']
  rintro rfl
  have hsame := db.users.eq_of_key_eq hr hrow (hid'.trans hlocal.id_eq.symm)
  rw [hsame, hlocal.sub_eq] at hsub
  cases hsub

theorem hasAccount_enter (door : Door) (hkept : WellKept X db)
    (h : HasAccount X db id name hash) : HasAccount X (door.enter X R S db d) id name hash := by
  cases door with
  | createUser req =>
      rw [Door.enter]
      rcases createUser_cases X S db req d with ⟨e, hout⟩ | ⟨user, db', -, hcreate, hout⟩
      · rwa [hout]
      · rw [hout]
        exact (usersStep_create hcreate).keeps trivial h
  | login limited req =>
      rw [Door.enter]
      rcases login_cases X R S db limited req d with ⟨e, hout⟩ | ⟨user, -, hout⟩
      · rwa [hout]
      · rw [hout]
        exact hasAccount_openSession h
  | sso claim =>
      rw [Door.enter]
      rcases upsertSso_cases X R S db claim d with
        ⟨e, hout⟩ | ⟨found, db', hfound, hupdate, hout⟩ | ⟨role, db', -, -, hcreate, hout⟩
      · rwa [hout]
      · rw [hout]
        have hother : found.id ≠ id := id_ne_of_getByProviderSub hkept h hfound
        exact hasAccount_sessionFor ((usersStep_update hupdate).keeps hother h)
      · rw [hout]
        exact hasAccount_sessionFor ((usersStep_create hcreate).keeps trivial h)

theorem hasAccount_serve {e : AuthEvent} (hspares : e.Spares id) (hkept : WellKept X db)
    (h : HasAccount X db id name hash) : HasAccount X (e.serve X R S db) id name hash := by
  cases e with
  | enters door d => exact hasAccount_enter door hkept h
  | call e => exact (usersStep_step db e).keeps hspares h

theorem hasAccount_after {events : List AuthEvent} (hspares : ∀ e ∈ events, e.Spares id)
    (hkept : WellKept X db) (h : HasAccount X db id name hash) :
    HasAccount X (after X R S db events) id name hash := by
  induction events generalizing db with
  | nil => exact h
  | cons e events ih =>
      obtain ⟨he, hrest⟩ := List.forall_mem_cons.mp hspares
      exact ih hrest (wellKept_serve e hkept) (hasAccount_serve he hkept h)

/-- `create_user` makes an account under the name it stores. -/
theorem hasAccount_createUser {req : CreateUserReq} {password : String} {db' : Store.UserDb}
    {user : User} (hcreate : createUser X S db req d = (db', .ok user))
    (hpassword : req.password = some password) :
    ∃ hash, S.argon2.hashPassword d.salt password = .ok hash ∧
      HasAccount X db' user.id (S.normalize req.username) hash := by
  rcases createUser_cases X S db req d with ⟨e, hout⟩ | ⟨user', db'', huser, hrow, hout⟩
  · rw [hout] at hcreate
    cases hcreate
  · rw [hout] at hcreate
    obtain ⟨rfl, huser'⟩ := Prod.mk.inj hcreate
    obtain rfl := Except.ok.inj huser'
    obtain ⟨-, hname, hprovider, hsub, hactive, hhash⟩ := newUser_eq_ok huser
    rw [hpassword, SignIn.hashOf] at hhash
    cases hhashed : S.argon2.hashPassword d.salt password with
    | error e =>
        rw [hhashed] at hhash
        cases hhash
    | ok hash =>
        rw [hhashed] at hhash
        have hstored : user'.passwordHash = some hash := (Except.ok.inj hhash).symm
        obtain ⟨-, users, hinsert, rfl⟩ := create_eq_some.mp hrow
        refine ⟨hash, rfl, userRow X user', ?_, rfl, hname, hstored, ?_, hsub, ?_⟩
        · rw [(Table.insert_eq_some hinsert).2]
          exact List.mem_append_right _ (List.mem_singleton_self _)
        · rw [userRow, hprovider]
          rfl
        · rw [userRow, hactive]
          rfl

/-! ## Signing in with a password -/

/-- With the name that is stored and the password that was hashed, the login gets to the
    session. -/
theorem login_of_hasAccount {password : String} (hkept : WellKept X db)
    (h : HasAccount X db id name hash)
    (hverify : S.argon2.verifyPassword password hash = .ok true) :
    ∃ user, user.id = id ∧
      login X R S db none ⟨name, password⟩ d = openSession X S db user d := by
  obtain ⟨r, hr, hlocal⟩ := h
  have hfound : db.getByUsername X R d.readAt name = some (rowToUser X R d.readAt r) :=
    (getByUsername_eq_some hkept).mpr ⟨r, hr, hlocal.username_eq, rfl⟩
  obtain ⟨hid, hactive, hprovider, hhash⟩ := @LocalRow.rowToUser X R id name hash d.readAt r hlocal
  refine ⟨_, hid, ?_⟩
  rw [login, hfound]
  dsimp only
  rw [hactive, hprovider, hhash]
  dsimp only
  rw [hverify]
  rfl

/-- A login that gets to the session of the user had the user's name. -/
theorem name_of_grants_login {username password : String} (hkept : WellKept X db)
    (h : HasAccount X db id name hash)
    (hgrants : Grants X (login X R S db none ⟨username, password⟩ d) id) : username = name := by
  rcases login_cases X R S db none ⟨username, password⟩ d with ⟨e, hout⟩ | ⟨user, hfound, hout⟩
  · rw [hout] at hgrants
    obtain ⟨token, user, hreply, -⟩ := hgrants
    cases hreply
  · rw [hout] at hgrants
    have hid : user.id = id := by
      obtain ⟨token, user', hreply, hid, -⟩ := hgrants
      rw [openSession] at hreply
      split at hreply
      · rw [← (SessionReply.granted.inj hreply).2] at hid
        exact hid
      · cases hreply
      · cases hreply
    obtain ⟨r, hr, hname, huser⟩ := (getByUsername_eq_some hkept).mp hfound
    obtain ⟨row, hrow, hlocal⟩ := h
    obtain ⟨id', hid'⟩ := hkept.ids r hr
    rw [← huser, id_rowToUser hid'] at hid
    have hsame := db.users.eq_of_key_eq hr hrow (by rw [hid', hid, hlocal.id_eq])
    dsimp only at hname
    rw [← hname, hsame, hlocal.username_eq]

/-- Login, once the user was made and nobody else changed the user. -/
theorem grants_login_iff {before later : List AuthEvent} {req : CreateUserReq}
    {password : String} {made : Draw} {db' : Store.UserDb} {user : User}
    (hcreate : createUser X S (after X R S .fresh before) req made = (db', .ok user))
    (hpassword : req.password = some password) (hspares : ∀ e ∈ later, e.Spares user.id) :
    Grants X (login X R S (after X R S db' later) none ⟨req.username, password⟩ d) user.id ↔
      S.normalize req.username = req.username ∧ Issues X S (after X R S db' later) user.id d := by
  have hbefore : WellKept X (after X R S .fresh before) := wellKept_after before wellKept_fresh
  have hmade : WellKept X db' := by
    have hkept := wellKept_enter (R := R) (S := S) (d := made) (.createUser req) hbefore
    rw [Door.enter, hcreate] at hkept
    exact hkept
  obtain ⟨hash, hhash, haccount⟩ := hasAccount_createUser hcreate hpassword
  have hlater := wellKept_after (R := R) (S := S) later hmade
  have hstill := hasAccount_after (R := R) (S := S) hspares hmade haccount
  by_cases hname : S.normalize req.username = req.username
  · rw [hname] at hstill
    have hverify : S.argon2.verifyPassword password hash = .ok true := by
      rw [S.argon2.verify_hash hhash, decide_eq_true rfl]
    obtain ⟨user', hid, hlogin⟩ := @login_of_hasAccount X R S _ d _ _ _ _ hlater hstill hverify
    rw [hlogin, grants_openSession_iff hid (HasAccount.isNone_get hstill)]
    exact (and_iff_right hname).symm
  · exact iff_of_false (fun hgrants => hname (name_of_grants_login hlater hstill hgrants).symm)
      fun h => hname h.1

/-! ## Names that differ -/

variable (S) in
/-- No two users have names that are equal after `create_user`'s normalisation. -/
def Distinct (db : Store.UserDb) : Prop := db.users.Unique fun r => S.normalize r.username

variable (X R S) in
/-- The user that a request hands to the store, to be made. -/
def Door.makes (db : Store.UserDb) (door : Door) (d : Draw) : Option User :=
  match door with
  | .createUser req => (S.newUser req d).toOption
  | .login _ _ => none
  | .sso claim =>
      if (db.getByProviderSub X R d.readAt claim.provider.asStr claim.sub).isSome then none
      else (parseRole claim.role).toOption.map fun role => claim.newUser role d

variable (X R S) in
/-- A name that is added differs from those there in more than case and outer spaces. -/
def Fits (db : Store.UserDb) (door : Door) (d : Draw) : Prop :=
  ∀ user, door.makes X R S db d = some user → Accepts X db user →
    ∀ r ∈ db.users.rows, S.normalize r.username = S.normalize user.username →
      r.username = user.username

/-- After a user is made. -/
theorem distinct_create_iff {user : User} {db' : Store.UserDb}
    (hcreate : db.create X user = some db') :
    Distinct S db' ↔ Distinct S db ∧ ∀ r ∈ db.users.rows,
      S.normalize r.username = S.normalize user.username → r.username = user.username := by
  obtain ⟨htaken, users, hinsert, rfl⟩ := create_eq_some.mp hcreate
  have hnew : ∀ r ∈ db.users.rows, r.username ≠ user.username := fun r hr =>
    username_ne_of_taken htaken r hr (Table.get_eq_none.mp (Table.insert_eq_some hinsert).1 r hr)
  rw [Distinct, Distinct, Table.unique_insert_iff hinsert]
  refine and_congr_right fun _ => forall₂_congr fun r hr => ?_
  exact ⟨fun hne hsame => absurd hsame hne, fun h hsame => hnew r hr (h hsame)⟩

theorem distinct_openSession_iff {user : User} :
    Distinct S (openSession X S db user d).1 ↔ Distinct S db := by
  have hstep := @usersStep_openSession X S db d user
  rw [Distinct]
  generalize (openSession X S db user d).1.users = users' at hstep ⊢
  cases hstep with
  | same => exact Iff.rfl
  | @login userId ttlHours token now =>
      exact Table.unique_update_iff (id_setLogin now) fun _ _ _ => rfl

theorem distinct_sessionFor_iff {user : User} :
    Distinct S (sessionFor X S db user d).1 ↔ Distinct S db := by
  rcases @sessionFor_cases X S db d user with hsame | hopened
  · rw [hsame]
  · rw [hopened, distinct_openSession_iff]

/-- A sign-in of a user whom the provider knows changes no name. -/
theorem distinct_update_iff {readAt : DateTime} {provider sub : String} {found : User}
    {email : Option String} {db' : Store.UserDb} (hkept : WellKept X db)
    (hfound : db.getByProviderSub X R readAt provider sub = some found)
    (hupdate : db.update X { found with email := email } = some db') :
    Distinct S db' ↔ Distinct S db := by
  obtain ⟨r, hr, -, rfl⟩ := exists_row_of_getByProviderSub hfound
  obtain ⟨id, hid⟩ := hkept.ids r hr
  rcases db.update_cases X { rowToUser X R readAt r with email := email } with hnone | hsome
  · rw [hnone] at hupdate
    cases hupdate
  · rw [hsome] at hupdate
    rw [← Option.some.inj hupdate, Distinct]
    refine (Table.unique_update_iff (id_setColumns X { rowToUser X R readAt r with email := email })
      fun s hs hkey => ?_)
    have hsame : s = r := by
      refine db.users.eq_of_key_eq hs hr (hkey.trans ?_)
      dsimp only
      rw [id_rowToUser hid, hid]
    rw [hsame]
    rfl

/-- A request that makes nobody. -/
theorem fits_of_makes_eq_none {door : Door} (h : door.makes X R S db d = none) :
    Fits X R S db door d := by
  intro user huser
  rw [h] at huser
  cases huser

/-- A request that hands a user to the store, and ends as the store does, up to sessions. -/
theorem distinct_iff_of_makes {door : Door} {user : User} {db₂ : Store.UserDb}
    (hdistinct : Distinct S db) (hmakes : door.makes X R S db d = some user)
    (hnone : db.create X user = none → db₂ = db)
    (hsome : ∀ db', db.create X user = some db' → (Distinct S db₂ ↔ Distinct S db')) :
    Distinct S db₂ ↔ Fits X R S db door d := by
  have hfits : Fits X R S db door d ↔ (Accepts X db user → ∀ r ∈ db.users.rows,
      S.normalize r.username = S.normalize user.username → r.username = user.username) := by
    rw [Fits, hmakes]
    simp only [Option.some.injEq, forall_eq']
  rw [hfits, ← isSome_create_iff]
  cases hcreate : db.create X user with
  | none =>
      rw [hnone hcreate]
      refine iff_of_true hdistinct ?_
      rintro ⟨db', h⟩
      cases h
  | some db' =>
      rw [hsome db' hcreate, distinct_create_iff hcreate, and_iff_right hdistinct]
      exact ⟨fun h _ => h, fun h => h ⟨db', rfl⟩⟩

/-- A request keeps the names apart exactly when the name it adds fits. -/
theorem distinct_enter_iff (hkept : WellKept X db) (hdistinct : Distinct S db) (door : Door) :
    Distinct S (door.enter X R S db d) ↔ Fits X R S db door d := by
  -- A door that makes nobody keeps the names as they are.
  cases door with
  | createUser req =>
      rw [Door.enter, Api.createUser]
      cases huser : S.newUser req d with
      | error e =>
          refine iff_of_true hdistinct (fits_of_makes_eq_none ?_)
          rw [Door.makes, huser]
          rfl
      | ok user =>
          have hmakes : Door.makes X R S db (.createUser req) d = some user := by
            rw [Door.makes, huser]
            rfl
          dsimp only
          refine distinct_iff_of_makes hdistinct hmakes (fun hnone => ?_) fun db' hsome => ?_
          · rw [hnone]
          · rw [hsome]
  | login limited req =>
      refine iff_of_true ?_ (fits_of_makes_eq_none rfl)
      rw [Door.enter]
      rcases login_cases X R S db limited req d with ⟨e, hout⟩ | ⟨user, -, hout⟩
      · rwa [hout]
      · rwa [hout, distinct_openSession_iff]
  | sso claim =>
      rw [Door.enter]
      cases hfound : db.getByProviderSub X R d.readAt claim.provider.asStr claim.sub with
      | some found =>
          -- A user who was found is updated under the name he has.
          have hmakes : Door.makes X R S db (.sso claim) d = none := by
            rw [Door.makes, hfound]
            rfl
          refine iff_of_true ?_ (fits_of_makes_eq_none hmakes)
          rcases upsertSso_cases X R S db claim d with
            ⟨e, hout⟩ | ⟨found', db', hfound', hupdate, hout⟩ | ⟨role, db', -, hnone, -, -⟩
          · rwa [hout]
          · rwa [hout, distinct_sessionFor_iff, distinct_update_iff hkept hfound' hupdate]
          · rw [hfound] at hnone
            cases hnone
      | none =>
          rw [upsertSso, hfound]
          -- A user who is made takes the name of the claim, unless the role is turned down.
          cases hrole : parseRole claim.role with
          | error e =>
              refine iff_of_true hdistinct (fits_of_makes_eq_none ?_)
              rw [Door.makes, hfound, hrole]
              rfl
          | ok role =>
              have hmakes : Door.makes X R S db (.sso claim) d = some (claim.newUser role d) := by
                rw [Door.makes, hfound, hrole]
                rfl
              dsimp only
              refine distinct_iff_of_makes hdistinct hmakes (fun hnone => ?_) fun db' hsome => ?_
              · rw [hnone]
              · rw [hsome]
                exact distinct_sessionFor_iff

/-! ## Runs -/

variable (X R S) in
/-- A request at a door, as an operation of a run. -/
def enterStep (db : Store.UserDb) (o : Door × Draw) : Option Store.UserDb :=
  some (o.1.enter X R S db o.2)

/-- Along a run of requests the names stay apart exactly when every name that is added
    fits. -/
theorem distinct_along_iff (hkept : WellKept X db) (hdistinct : Distinct S db)
    (requests : List (Door × Draw)) :
    Run.Along (enterStep X R S) (fun db o => ∀ db', enterStep X R S db o = some db' →
        Distinct S db') db requests ↔
      Run.Along (enterStep X R S) (fun db o => Fits X R S db o.1 o.2) db requests := by
  have hnext : ∀ db o, (∀ db', enterStep X R S db o = some db' →
      WellKept X db' ∧ Distinct S db') ↔
        WellKept X (o.1.enter X R S db o.2) ∧ Distinct S (o.1.enter X R S db o.2) := by
    intro db o
    rw [enterStep]
    simp only [Option.some.injEq, forall_eq']
  have hexact : ∀ db o, WellKept X db ∧ Distinct S db →
      ((∀ db', enterStep X R S db o = some db' → WellKept X db' ∧ Distinct S db') ↔
        Fits X R S db o.1 o.2) := by
    rintro db o ⟨hkept, hdistinct⟩
    rw [hnext, and_iff_right (wellKept_enter o.1 hkept), distinct_enter_iff hkept hdistinct]
  rw [← Run.along_iff_of_exact hexact ⟨hkept, hdistinct⟩]
  refine Run.along_congr_of_invariant (I := WellKept X) ?_ ?_ hkept requests
  · intro db o db' hkept hstep
    rw [← Option.some.inj hstep]
    exact wellKept_enter o.1 hkept
  · intro db o hkept
    rw [hnext, and_iff_right (wellKept_enter o.1 hkept), enterStep]
    simp only [Option.some.injEq, forall_eq']

variable (X R S) in
/-- **Names.**  A user who was made with a name and a password signs in with them, as long as
    nobody else changed the user, exactly when `create_user` left the name as it was and a
    session can be issued; and along requests the names stay apart exactly when every name
    that is added differs from those there in more than case and outer spaces. -/
theorem signIn_names :
    (∀ (before later : List AuthEvent) (req : CreateUserReq) (password : String)
        (made d : Draw) (db' : Store.UserDb) (user : User),
      createUser X S (after X R S .fresh before) req made = (db', .ok user) →
      req.password = some password → (∀ e ∈ later, e.Spares user.id) →
      (Grants X (login X R S (after X R S db' later) none ⟨req.username, password⟩ d) user.id ↔
        S.normalize req.username = req.username ∧
          Issues X S (after X R S db' later) user.id d)) ∧
    ∀ (db : Store.UserDb) (requests : List (Door × Draw)), WellKept X db → Distinct S db →
      (Run.Along (enterStep X R S) (fun db o => ∀ db', enterStep X R S db o = some db' →
          Distinct S db') db requests ↔
        Run.Along (enterStep X R S) (fun db o => Fits X R S db o.1 o.2) db requests) :=
  ⟨fun _ _ _ _ _ _ _ _ hcreate hpassword hspares => grants_login_iff hcreate hpassword hspares,
    fun _ requests hkept hdistinct => distinct_along_iff hkept hdistinct requests⟩

/-! ## Alice -/

def userReq (username : String) : CreateUserReq := ⟨username, some "s3cret-pw", none, "viewer"⟩

/-- The user that a request of `username` makes in a new database. -/
def madeUser (username : String) : User where
  id := 1
  username := SignIn.sample.normalize username
  email := none
  passwordHash := some secretHash
  role := .viewer
  provider := .localAccount
  providerSub := none
  active := true
  createdAt := 0
  lastLogin := none

theorem exists_createUser (username : String) :
    ∃ db', createUser .sample .sample .fresh (userReq username) (drawAt 1 "t1") =
      (db', .ok (madeUser username)) ∧ db'.sessions = .empty := by
  have huser : SignIn.sample.newUser (userReq username) (drawAt 1 "t1") =
      .ok (madeUser username) := rfl
  have haccepts : Accepts .sample .fresh (madeUser username) :=
    ⟨List.any_nil, Table.get_empty _⟩
  obtain ⟨db', hcreate⟩ := isSome_create_iff.mpr haccepts
  refine ⟨db', ?_, ?_⟩
  · rw [createUser, huser]
    dsimp only
    rw [hcreate]
  · obtain ⟨-, users, -, rfl⟩ := create_eq_some.mp hcreate
    rfl

theorem issues_of_empty {db' : Store.UserDb} (h : db'.sessions = .empty) :
    Issues .sample .sample db' 1 (drawAt 2 "t2") := by
  refine ⟨by decide, ?_⟩
  rw [purgeSessions, h]
  rfl

/-- A user made as `alice` signs in as `alice`. -/
theorem alice_signsIn :
    ∃ db', createUser .sample .sample .fresh (userReq "alice") (drawAt 1 "t1") =
        (db', .ok (madeUser "alice")) ∧
      Grants .sample
        (login .sample .sample .sample db' none ⟨"alice", "s3cret-pw"⟩ (drawAt 2 "t2")) 1 := by
  obtain ⟨db', hcreate, hempty⟩ := exists_createUser "alice"
  have hnone : ∀ e ∈ ([] : List AuthEvent), e.Spares (madeUser "alice").id :=
    fun _ h => absurd h List.not_mem_nil
  obtain ⟨hlogin, -⟩ := signIn_names .sample .sample .sample
  have hname : SignIn.sample.normalize "alice" = "alice" := by decide
  exact ⟨db', hcreate, (hlogin [] [] (userReq "alice") "s3cret-pw" (drawAt 1 "t1")
    (drawAt 2 "t2") db' (madeUser "alice") hcreate rfl hnone).mpr
    ⟨hname, issues_of_empty hempty⟩⟩

/-- A user made as `Alice` does not sign in as `Alice`; and a provider that says `Alice`
    makes another user beside `alice`. -/
theorem not_signIn_names :
    (∃ db', createUser .sample .sample .fresh (userReq "Alice") (drawAt 1 "t1") =
        (db', .ok (madeUser "Alice")) ∧ Issues .sample .sample db' 1 (drawAt 2 "t2") ∧
      ¬ Grants .sample
        (login .sample .sample .sample db' none ⟨"Alice", "s3cret-pw"⟩ (drawAt 2 "t2")) 1) ∧
    ¬ Distinct .sample (after .sample .sample .sample .fresh
      [.enters (.createUser (userReq "alice")) (drawAt 1 "t1"),
        .enters (.sso ⟨.oidc, "subject-1", "Alice", none, "viewer"⟩) (drawAt 2 "t2")]) := by
  constructor
  · obtain ⟨db', hcreate, hempty⟩ := exists_createUser "Alice"
    refine ⟨db', hcreate, issues_of_empty hempty, fun hgrants => ?_⟩
    have hkept : WellKept .sample db' := by
      have hentered := wellKept_enter (X := .sample) (R := .sample) (S := .sample)
        (d := drawAt 1 "t1") (.createUser (userReq "Alice")) wellKept_fresh
      rw [Door.enter, hcreate] at hentered
      exact hentered
    obtain ⟨hash, -, haccount⟩ := hasAccount_createUser hcreate rfl
    have hname := name_of_grants_login hkept haccount hgrants
    revert hname
    decide
  · intro hdistinct
    rw [Distinct, Table.Unique] at hdistinct
    revert hdistinct
    decide +kernel

end Maranode.Api
