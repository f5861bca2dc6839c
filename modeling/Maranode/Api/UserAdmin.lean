/-
  Maranode.Api.UserAdmin

  The doors of administrators to the users: `users.rs` of the API, `maranode users`, and the
  first start of the daemon.

  A handler of the API holds the lock from its read to its write.  A command of the CLI opens
  the file of the database in a process of its own, so the daemon may write between the two.
-/
import Maranode.Api.PasswordReset

namespace Maranode.Api

open Lib Store UserDb

variable (X : External) (R : Rfc3339Reader) (S : SignIn)

/-! ## users.rs of the API -/

structure UpdateUserReq where
  email : Option String
  role : Option String
  active : Option Bool

/-- The user with what the request names. -/
def UpdateUserReq.on (req : UpdateUserReq) (found : User) : ApiResult User :=
  let user := { found with
    email := req.email.or found.email
    active := req.active.getD found.active }
  match req.role with
  | none => .ok user
  | some r =>
      match parseRole r with
      | .error e => .error e
      | .ok role => .ok { user with role := role }

def updateUser (db : Store.UserDb) (id : Uuid) (req : UpdateUserReq) (readAt : DateTime) :
    Store.UserDb × ApiResult User :=
  match db.getById X R readAt id with
  | none => (db, .error (.notFound "user not found"))
  | some found =>
      match req.on found with
      | .error e => (db, .error e)
      | .ok user =>
          match db.update X user with
          | none => (db, .error (.internal (S.refusal user)))
          | some db' => (db', .ok user)

def delUser (db : Store.UserDb) (id : Uuid) : Store.UserDb × ApiResult Unit :=
  match db.delete X id with
  | (db', true) => (db', .ok ())
  | (db', false) => (db', .error (.notFound "user not found"))

def setPassword (db : Store.UserDb) (id : Uuid) (password salt : String) (readAt : DateTime) :
    Store.UserDb × ApiResult Unit :=
  match db.getById X R readAt id with
  | none => (db, .error (.notFound "user not found"))
  | some found =>
      match S.argon2.hashPassword salt password with
      | .error e => (db, .error (.internal s!"password hash error: {e}"))
      | .ok hash =>
          match db.update X { found with passwordHash := some hash } with
          | none => (db, .error (.internal (S.refusal { found with passwordHash := some hash })))
          | some db' => (db', .ok ())

/-! ## main.rs of the daemon -/

/-- A local user with a password. -/
def localUser (username : String) (email : Option String) (role : Role) (hash : String)
    (d : Draw) : User where
  id := d.id
  username := username
  email := email
  passwordHash := some hash
  role := role
  provider := .localAccount
  providerSub := none
  active := true
  createdAt := d.createdAt
  lastLogin := none

/-- The start with an empty database: `admin` with the admin key as password. -/
def initialAdmin (db : Store.UserDb) (adminKey : Option String) (d : Draw) :
    Except String Store.UserDb :=
  if db.users.rows.length = 0 then
    match adminKey with
    | none => .ok db
    | some key =>
        match S.argon2.hashPassword d.salt key with
        | .error e => .error s!"password hash error: {e}"
        | .ok hash =>
            match db.create X (localUser "admin" none .admin hash d) with
            | none => .error (S.refusal (localUser "admin" none .admin hash d))
            | some db' => .ok db'
  else .ok db

/-! ## maranode users -/

inductive UsersCommand where
  | create (username : String) (email : Option String) (role : String)
  | setPassword (username : String)
  | setActive (username : String) (active : Bool)
  | delete (username : String)

/-- What a command is about to write, after its read. -/
inductive UsersJob where
  | create (username : String) (email : Option String) (role : Role)
  | setPassword (user : User)
  | update (user : User)
  | delete (id : Uuid)

/-- A command up to its read; `none` when nothing is to be written. -/
def UsersCommand.start (db : Store.UserDb) (readAt : DateTime) :
    UsersCommand → Except String (Option UsersJob)
  | .create username email role =>
      match Role.fromStr role with
      | none => .error s!"unknown role '{role}': expected admin, operator, auditor, viewer"
      | some role =>
          if (db.getByUsername X R readAt username).isSome then
            .error s!"user '{username}' already exists"
          else .ok (some (.create username email role))
  | .setPassword username =>
      match db.getByUsername X R readAt username with
      | none => .error s!"user '{username}' not found"
      | some user =>
          if user.provider ≠ .localAccount then
            .error
              s!"user '{username}' authenticates via {user.provider.asStr}: password cannot be set"
          else .ok (some (.setPassword user))
  | .setActive username active =>
      match db.getByUsername X R readAt username with
      | none => .error s!"user '{username}' not found"
      | some user =>
          if user.active = active then .ok none
          else .ok (some (.update { user with active := active }))
  | .delete username =>
      match db.getByUsername X R readAt username with
      | none => .error s!"user '{username}' not found"
      | some user => .ok (some (.delete user.id))

/-- The rest of a command, with the password that was given or typed. -/
def UsersJob.finish (db : Store.UserDb) (password : String) (d : Draw) :
    UsersJob → Store.UserDb × Except String Unit
  | .create username email role =>
      if tooShort password then (db, .error "password must be at least 8 characters")
      else
        match S.argon2.hashPassword d.salt password with
        | .error _ => (db, .error "hashing password")
        | .ok hash =>
            match db.create X (localUser username email role hash d) with
            | none => (db, .error "creating user")
            | some db' => (db', .ok ())
  | .setPassword user =>
      if tooShort password then (db, .error "password must be at least 8 characters")
      else
        match S.argon2.hashPassword d.salt password with
        | .error _ => (db, .error "hashing password")
        | .ok hash =>
            match db.update X { user with passwordHash := some hash } with
            | none => (db, .error "updating user")
            | some db' => (db', .ok ())
  | .update user =>
      match db.update X user with
      | none => (db, .error "updating user")
      | some db' => (db', .ok ())
  | .delete id => ((db.delete X id).1, .ok ())

/-! ## What they write -/

variable {X R S} {db : Store.UserDb} {d : Draw} {id : Uuid} {readAt : DateTime}

/-- Users of one account, by what no handler changes. -/
structure SameAccount (u v : User) : Prop where
  id : u.id = v.id
  username : u.username = v.username
  provider : u.provider = v.provider
  providerSub : u.providerSub = v.providerSub

theorem UpdateUserReq.on_eq_ok {req : UpdateUserReq} {found user : User}
    (h : req.on found = .ok user) :
    SameAccount user found ∧ user.passwordHash = found.passwordHash ∧
      (user.role = found.role ∨ ∃ r, req.role = some r ∧ parseRole r = .ok user.role) := by
  rw [UpdateUserReq.on] at h
  dsimp only at h
  split at h
  · rw [← Except.ok.inj h]
    exact ⟨⟨rfl, rfl, rfl, rfl⟩, rfl, .inl rfl⟩
  · next r hr =>
      split at h
      · cases h
      · next role hrole =>
          rw [← Except.ok.inj h]
          exact ⟨⟨rfl, rfl, rfl, rfl⟩, rfl, .inr ⟨r, hr, hrole⟩⟩

theorem updateUser_cases (X : External) (R : Rfc3339Reader) (S : SignIn) (db : Store.UserDb)
    (id : Uuid) (req : UpdateUserReq) (readAt : DateTime) :
    (∃ e, updateUser X R S db id req readAt = (db, .error e)) ∨
      ∃ found user db', db.getById X R readAt id = some found ∧ req.on found = .ok user ∧
        db.update X user = some db' ∧ updateUser X R S db id req readAt = (db', .ok user) := by
  rw [updateUser]
  cases hfound : db.getById X R readAt id with
  | none => exact .inl ⟨_, rfl⟩
  | some found =>
      dsimp only
      cases huser : req.on found with
      | error e => exact .inl ⟨e, rfl⟩
      | ok user =>
          dsimp only
          cases hupdate : db.update X user with
          | none => exact .inl ⟨_, rfl⟩
          | some db' => exact .inr ⟨found, user, db', rfl, huser, hupdate, rfl⟩

theorem delUser_cases (X : External) (db : Store.UserDb) (id : Uuid) :
    (delUser X db id).1 = (db.delete X id).1 ∧
      ((delUser X db id).2 = .ok () ↔ (db.users.get (X.uuidText id)).isSome = true) := by
  rw [delUser, delete]
  cases hthere : (db.users.get (X.uuidText id)).isSome with
  | true => exact ⟨rfl, iff_of_true rfl rfl⟩
  | false => exact ⟨rfl, iff_of_false (by rintro ⟨⟩) Bool.false_ne_true⟩

theorem setPassword_cases (X : External) (R : Rfc3339Reader) (S : SignIn) (db : Store.UserDb)
    (id : Uuid) (password salt : String) (readAt : DateTime) :
    (∃ e, setPassword X R S db id password salt readAt = (db, .error e)) ∨
      ∃ found hash db', db.getById X R readAt id = some found ∧
        S.argon2.hashPassword salt password = .ok hash ∧
        db.update X { found with passwordHash := some hash } = some db' ∧
        setPassword X R S db id password salt readAt = (db', .ok ()) := by
  rw [setPassword]
  cases hfound : db.getById X R readAt id with
  | none => exact .inl ⟨_, rfl⟩
  | some found =>
      dsimp only
      cases hhash : S.argon2.hashPassword salt password with
      | error e => exact .inl ⟨_, rfl⟩
      | ok hash =>
          dsimp only
          cases hupdate : db.update X { found with passwordHash := some hash } with
          | none => exact .inl ⟨_, rfl⟩
          | some db' => exact .inr ⟨found, hash, db', rfl, rfl, hupdate, rfl⟩

theorem initialAdmin_cases (X : External) (S : SignIn) (db : Store.UserDb)
    (adminKey : Option String) (d : Draw) :
    (∃ e, initialAdmin X S db adminKey d = .error e) ∨ initialAdmin X S db adminKey d = .ok db ∨
      ∃ key hash db', adminKey = some key ∧ S.argon2.hashPassword d.salt key = .ok hash ∧
        db.create X (localUser "admin" none .admin hash d) = some db' ∧
        initialAdmin X S db adminKey d = .ok db' := by
  rw [initialAdmin.eq_def]
  split
  · cases adminKey with
    | none => exact .inr (.inl rfl)
    | some key =>
        dsimp only
        cases hhash : S.argon2.hashPassword d.salt key with
        | error e => exact .inl ⟨_, rfl⟩
        | ok hash =>
            dsimp only
            cases hcreate : db.create X (localUser "admin" none .admin hash d) with
            | none => exact .inl ⟨_, rfl⟩
            | some db' => exact .inr (.inr ⟨key, hash, db', rfl, hhash, hcreate, rfl⟩)
  · exact .inr (.inl rfl)

/-- What a job may write, and how it ends. -/
inductive UsersJob.Writes (X : External) (S : SignIn) (db : Store.UserDb) (password : String)
    (d : Draw) : UsersJob → Store.UserDb × Except String Unit → Prop where
  | nothing {job e} (hother : ∀ id, job ≠ UsersJob.delete id) :
      Writes X S db password d job (db, .error e)
  | create {username email role hash db'}
      (hhash : S.argon2.hashPassword d.salt password = .ok hash)
      (hcreate : db.create X (localUser username email role hash d) = some db') :
      Writes X S db password d (.create username email role) (db', .ok ())
  | setPassword {user hash db'} (hhash : S.argon2.hashPassword d.salt password = .ok hash)
      (hupdate : db.update X { user with passwordHash := some hash } = some db') :
      Writes X S db password d (.setPassword user) (db', .ok ())
  | update {user db'} (hupdate : db.update X user = some db') :
      Writes X S db password d (.update user) (db', .ok ())
  | delete {other} : Writes X S db password d (.delete other) ((db.delete X other).1, .ok ())

theorem writes_finish (X : External) (S : SignIn) (db : Store.UserDb) (password : String)
    (d : Draw) (job : UsersJob) :
    job.Writes X S db password d (job.finish X S db password d) := by
  -- The rest of a command ends with its write, or before it.
  cases job with
  | create username email role =>
      rw [UsersJob.finish.eq_def]
      dsimp only
      split
      · exact .nothing (by rintro _ ⟨⟩)
      · split
        · exact .nothing (by rintro _ ⟨⟩)
        · next hash hhash =>
            split
            · exact .nothing (by rintro _ ⟨⟩)
            · next db' hcreate => exact .create hhash hcreate
  | setPassword user =>
      rw [UsersJob.finish.eq_def]
      dsimp only
      split
      · exact .nothing (by rintro _ ⟨⟩)
      · split
        · exact .nothing (by rintro _ ⟨⟩)
        · next hash hhash =>
            split
            · exact .nothing (by rintro _ ⟨⟩)
            · next db' hupdate => exact .setPassword hhash hupdate
  | update user =>
      rw [UsersJob.finish.eq_def]
      dsimp only
      split
      · exact .nothing (by rintro _ ⟨⟩)
      · next db' hupdate => exact .update hupdate
  | delete id => exact .delete

/-- The user that a command read. -/
inductive UsersJob.Read (X : External) (R : Rfc3339Reader) (db : Store.UserDb)
    (readAt : DateTime) : UsersJob → Prop where
  | create {username email role} : Read X R db readAt (.create username email role)
  | setPassword {r} (hr : r ∈ db.users.rows) :
      Read X R db readAt (.setPassword (rowToUser X R readAt r))
  | update {r active} (hr : r ∈ db.users.rows) :
      Read X R db readAt (.update { rowToUser X R readAt r with active := active })
  | delete {r} (hr : r ∈ db.users.rows) :
      Read X R db readAt (.delete (rowToUser X R readAt r).id)

theorem exists_row_of_getByUsername {username : String} {user : User}
    (h : db.getByUsername X R readAt username = some user) :
    ∃ r ∈ db.users.rows, r.username = username ∧ rowToUser X R readAt r = user := by
  rw [getByUsername, Option.map_eq_some_iff] at h
  obtain ⟨r, hfound, hr⟩ := h
  have hname := List.find?_some hfound
  exact ⟨r, List.mem_of_find?_eq_some hfound, beq_iff_eq.mp hname, hr⟩

theorem exists_row_of_getById {user : User} (h : db.getById X R readAt id = some user) :
    ∃ r ∈ db.users.rows, r.id = X.uuidText id ∧ rowToUser X R readAt r = user := by
  rw [getById, Option.map_eq_some_iff] at h
  obtain ⟨r, hfound, hr⟩ := h
  obtain ⟨hmem, hid⟩ := Table.get_eq_some.mp hfound
  exact ⟨r, hmem, hid, hr⟩

theorem read_start {command : UsersCommand} {job : UsersJob}
    (h : command.start X R db readAt = .ok (some job)) : job.Read X R db readAt := by
  -- What a command takes along it has read from a row, or nothing at all.
  cases command with
  | create username email role =>
      rw [UsersCommand.start] at h
      split at h
      · cases h
      · split at h
        · cases h
        · rw [← Option.some.inj (Except.ok.inj h)]
          exact .create
  | setPassword username =>
      rw [UsersCommand.start] at h
      split at h
      · cases h
      · next user hfound =>
          split at h
          · cases h
          · obtain ⟨r, hr, -, rfl⟩ := exists_row_of_getByUsername hfound
            rw [← Option.some.inj (Except.ok.inj h)]
            exact .setPassword hr
  | setActive username active =>
      rw [UsersCommand.start] at h
      split at h
      · cases h
      · next user hfound =>
          split at h
          · cases Except.ok.inj h
          · obtain ⟨r, hr, -, rfl⟩ := exists_row_of_getByUsername hfound
            rw [← Option.some.inj (Except.ok.inj h)]
            exact .update hr
  | delete username =>
      rw [UsersCommand.start] at h
      split at h
      · cases h
      · next user hfound =>
          obtain ⟨r, hr, -, rfl⟩ := exists_row_of_getByUsername hfound
          rw [← Option.some.inj (Except.ok.inj h)]
          exact .delete hr

end Maranode.Api
