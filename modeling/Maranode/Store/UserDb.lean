/-
  Maranode.Store.UserDb

  `user_db.rs`: users, their sessions and their password reset tokens, in three tables.

  The tables hold texts: ids, roles and times are written when a row is made and parsed
  when it is read, and whether something has expired is decided by comparing texts.  The
  bundled SQLite enforces foreign keys, so the rows of a user go with the user.
-/
import Maranode.Api.UserCtx
import Maranode.Common.Rfc3339
import Maranode.Lib.Like
import Maranode.Lib.Table

namespace Maranode

open Lib

/-! ## Roles and providers as texts -/

namespace Api

def Role.asStr : Role → String
  | .admin => "admin"
  | .operator => "operator"
  | .auditor => "auditor"
  | .viewer => "viewer"

def Role.fromStr (s : String) : Option Role :=
  if s = "admin" then some .admin
  else if s = "operator" then some .operator
  else if s = "auditor" then some .auditor
  else if s = "viewer" then some .viewer
  else none

@[simp] theorem Role.fromStr_asStr (r : Role) : Role.fromStr r.asStr = some r := by
  cases r <;> rfl

def AuthProvider.asStr : AuthProvider → String
  | .localAccount => "local"
  | .oidc => "oidc"
  | .ldap => "ldap"
  | .saml => "saml"

def AuthProvider.fromStr (s : String) : Option AuthProvider :=
  if s = "local" then some .localAccount
  else if s = "oidc" then some .oidc
  else if s = "ldap" then some .ldap
  else if s = "saml" then some .saml
  else none

@[simp] theorem AuthProvider.fromStr_asStr (p : AuthProvider) :
    AuthProvider.fromStr p.asStr = some p := by
  cases p <;> rfl

end Api

namespace Store

open Api (User)

/-! ## Rows -/

/-- A row of `users`. -/
structure UserRow where
  id : String
  username : String
  email : Option String
  passwordHash : Option String
  role : String
  provider : String
  providerSub : Option String
  active : Int
  createdAt : String
  lastLogin : Option String
  deriving DecidableEq

/-- A row of `sessions`. -/
structure SessionRow where
  token : String
  userId : String
  createdAt : String
  expiresAt : String
  deriving DecidableEq

/-- A row of `password_reset_tokens`. -/
structure ResetRow where
  token : String
  userId : String
  expiresAt : String
  deriving DecidableEq

structure UserDb where
  users : Table UserRow.id
  sessions : Table SessionRow.token
  resets : Table ResetRow.token

/-- A new database file. -/
def UserDb.fresh : UserDb := ⟨.empty, .empty, .empty⟩

variable (X : External) (R : Rfc3339Reader)

/-- The columns `create` and `update` write. -/
def userRow (user : User) : UserRow where
  id := X.uuidText user.id
  username := user.username
  email := user.email
  passwordHash := user.passwordHash
  role := user.role.asStr
  provider := user.provider.asStr
  providerSub := user.providerSub
  active := if user.active then 1 else 0
  createdAt := toRfc3339 user.createdAt
  lastLogin := user.lastLogin.map toRfc3339

/-- `row_to_user`; `now` is the time of a column that is not one. -/
def rowToUser (now : DateTime) (row : UserRow) : User where
  id := (X.uuidOfText row.id).getD 0
  username := row.username
  email := row.email
  passwordHash := row.passwordHash
  role := (Api.Role.fromStr row.role).getD .viewer
  provider := (Api.AuthProvider.fromStr row.provider).getD .localAccount
  providerSub := row.providerSub
  active := row.active != 0
  createdAt := (R.read row.createdAt).getD now
  lastLogin := row.lastLogin.bind R.read

/-- The times of a user have years of four digits. -/
def DatesOk (user : User) : Prop :=
  FourDigitYear user.createdAt ∧ ∀ t ∈ user.lastLogin, FourDigitYear t

/-- A user is read back. -/
theorem rowToUser_userRow {user : User} (h : DatesOk user) (now : DateTime) :
    rowToUser X R now (userRow X user) = user := by
  obtain ⟨id, username, email, passwordHash, role, provider, providerSub, active, createdAt,
    lastLogin⟩ := user
  have hcreated := R.read_toRfc3339 createdAt h.1
  have hlast : (lastLogin.map toRfc3339).bind R.read = lastLogin := by
    cases lastLogin with
    | none => rfl
    | some t => exact R.read_toRfc3339 t (h.2 t rfl)
  have hactive : ((if active = true then (1 : Int) else 0) != 0) = active := by
    cases active with
    | true => rfl
    | false => rfl
  rw [userRow, rowToUser]
  dsimp only
  rw [X.uuid_roundTrip, Api.Role.fromStr_asStr, Api.AuthProvider.fromStr_asStr, hcreated, hlast,
    hactive]
  rfl

theorem uuidText_inj {a b : Uuid} (h : X.uuidText a = X.uuidText b) : a = b := by
  have hread := X.uuid_roundTrip a
  rw [h, X.uuid_roundTrip] at hread
  exact (Option.some.inj hread).symm

/-! ## Users -/

namespace UserDb

/-- Another row has the name or the address. -/
def taken (db : UserDb) (id : String) (user : User) : Bool :=
  db.users.rows.any fun r =>
    r.id != id && (r.username == user.username || r.email.isSome && r.email == user.email)

/-- `create`, which fails when a name is taken. -/
def create (db : UserDb) (user : User) : Option UserDb :=
  if db.taken (X.uuidText user.id) user then none
  else (db.users.insert (userRow X user)).map fun users => { db with users := users }

/-- The columns `update` sets. -/
def setColumns (user : User) (row : UserRow) : UserRow :=
  { userRow X user with id := row.id, createdAt := row.createdAt }

theorem id_setColumns (user : User) (row : UserRow) : (setColumns X user row).id = row.id := rfl

/-- `update`: nothing happens when there is no such user. -/
def update (db : UserDb) (user : User) : Option UserDb :=
  if (db.users.get (X.uuidText user.id)).isSome && db.taken (X.uuidText user.id) user then none
  else
    some { db with
      users := db.users.update (X.uuidText user.id) (setColumns X user) (id_setColumns X user) }

/-- `delete`, with the rows that refer to the user. -/
def delete (db : UserDb) (id : Uuid) : UserDb × Bool :=
  if (db.users.get (X.uuidText id)).isSome then
    ({ users := db.users.deleteWhere fun r => r.id == X.uuidText id
       sessions := db.sessions.deleteWhere fun r => r.userId == X.uuidText id
       resets := db.resets.deleteWhere fun r => r.userId == X.uuidText id }, true)
  else (db, false)

/-! ## Sessions -/

/-- `now + Duration::hours(ttl_hours)`, which panics beyond the times there are. -/
def addHours (now : DateTime) (ttlHours : Int) : Option DateTime :=
  let expires := now + ttlHours * 3600000000000
  if minUtc ≤ expires ∧ expires ≤ maxUtc then some expires else none

/-- What a call returns. -/
inductive Reply where
  | done
  | removed (existed : Bool)
  | token (token : String)
  | user (user : Option User)
  | count (n : UInt64)
  | owner (id : Option Uuid)
  | failed
  | panicked
  deriving DecidableEq

/-- The sessions of the user that have expired go. -/
def purgeSessions (db : UserDb) (userId : Uuid) (now : DateTime) : UserDb :=
  { db with
    sessions := db.sessions.deleteWhere fun s =>
      s.userId == X.uuidText userId && decide (s.expiresAt < toRfc3339 now) }

def setLogin (now : DateTime) (row : UserRow) : UserRow :=
  { row with lastLogin := some (toRfc3339 now) }

theorem id_setLogin (now : DateTime) (row : UserRow) : (setLogin now row).id = row.id := rfl

/-- `UPDATE users SET last_login`. -/
def setLastLogin (db : UserDb) (userId : Uuid) (now : DateTime) : UserDb :=
  { db with users := db.users.update (X.uuidText userId) (setLogin now) (id_setLogin now) }

/-- A new session, of a user that exists and with a token that does not. -/
def issueSession (db : UserDb) (userId : Uuid) (ttlHours : Int) (now : DateTime)
    (token : String) : UserDb × Reply :=
  match addHours now ttlHours with
  | none => (db, .panicked)
  | some expires =>
      if (db.users.get (X.uuidText userId)).isNone then (db, .failed)
      else
        match db.sessions.insert
          ⟨token, X.uuidText userId, toRfc3339 now, toRfc3339 expires⟩ with
        | none => (db, .failed)
        | some sessions =>
            (setLastLogin X { db with sessions := sessions } userId now, .token token)

/-- `create_session`, with the token that is drawn; the clock is read twice. -/
def createSession (db : UserDb) (userId : Uuid) (ttlHours : Int) (purgedAt now : DateTime)
    (token : String) : UserDb × Reply :=
  issueSession X (purgeSessions X db userId purgedAt) userId ttlHours now token

/-- `resolve_session`. -/
def resolveSession (db : UserDb) (now readAt : DateTime) (token : String) : Option User :=
  ((db.sessions.rows.flatMap fun s =>
    if s.token = token ∧ toRfc3339 now < s.expiresAt then
      db.users.rows.flatMap fun u => if u.id = s.userId ∧ u.active = 1 then [u] else []
    else []).head?).map (rowToUser X R readAt)

/-- `delete_session`. -/
def deleteSession (db : UserDb) (token : String) : UserDb :=
  { db with sessions := db.sessions.deleteWhere fun s => s.token == token }

/-- `delete_session_by_prefix`. -/
def deleteSessionByPrefix (db : UserDb) (userId : Uuid) (tokenPrefix : String) : UserDb :=
  { db with
    sessions := db.sessions.deleteWhere fun s =>
      s.userId == X.uuidText userId && Like.like (tokenPrefix.toList ++ ['%']) s.token.toList }

/-- `delete_sessions_for_user_except`. -/
def deleteSessionsForUserExcept (db : UserDb) (userId : Uuid) (keepToken : String) :
    UserDb × UInt64 :=
  let others := fun s : SessionRow => s.userId == X.uuidText userId && s.token != keepToken
  ({ db with sessions := db.sessions.deleteWhere others },
    (db.sessions.rows.countP others).toUInt64)

/-! ## Reset tokens -/

/-- All tokens that have expired go. -/
def purgeResets (db : UserDb) (now : DateTime) : UserDb :=
  { db with resets := db.resets.deleteWhere fun r => decide (r.expiresAt < toRfc3339 now) }

/-- `Utc::now() + Duration::minutes(30)`. -/
def resetExpiry (now : DateTime) : DateTime := now + 1800000000000

/-- A new reset token. -/
def issueReset (db : UserDb) (userId : Uuid) (now : DateTime) (token : String) :
    UserDb × Reply :=
  if (db.users.get (X.uuidText userId)).isNone then (db, .failed)
  else
    match db.resets.insert ⟨token, X.uuidText userId, toRfc3339 (resetExpiry now)⟩ with
    | none => (db, .failed)
    | some resets => ({ db with resets := resets }, .token token)

/-- `create_reset_token`. -/
def createResetToken (db : UserDb) (userId : Uuid) (purgedAt now : DateTime) (token : String) :
    UserDb × Reply :=
  issueReset X (purgeResets db purgedAt) userId now token

/-- `consume_reset_token`. -/
def consumeResetToken (db : UserDb) (now : DateTime) (token : String) : UserDb × Option Uuid :=
  match (db.resets.rows.flatMap fun r =>
      if r.token = token ∧ toRfc3339 now < r.expiresAt then [r] else []).head? with
  | none => (db, none)
  | some r =>
      ({ db with resets := db.resets.deleteWhere fun r => r.token == token },
        X.uuidOfText r.userId)

/-! ## What is found -/

variable {X R} {db : UserDb} {now readAt : DateTime} {token : String}

/-- A session is resolved from its row and the row of its user. -/
theorem resolveSession_eq_some {user : User} :
    db.resolveSession X R now readAt token = some user ↔
      ∃ s row, db.sessions.get token = some s ∧ toRfc3339 now < s.expiresAt ∧
        db.users.get s.userId = some row ∧ row.active = 1 ∧
        rowToUser X R readAt row = user := by
  -- The join over the users is a look-up, since ids are unique; so is that over sessions.
  have hjoin : ∀ s : SessionRow,
      (db.users.rows.flatMap fun u => if u.id = s.userId ∧ u.active = 1 then [u] else []) =
        ((db.users.get s.userId).map fun u =>
          if u.id = s.userId ∧ u.active = 1 then [u] else []).getD [] :=
    fun s => db.users.flatMap_rows s.userId _ fun u hu => if_neg fun h => hu h.1
  rw [resolveSession, db.sessions.flatMap_rows token _ fun s hs => if_neg fun h => hs h.1]
  simp only [hjoin]
  -- The session has to be there and not expired.
  cases hs : db.sessions.get token with
  | none =>
      refine iff_of_false (fun h => Option.some_ne_none user h.symm) ?_
      rintro ⟨s, -, ⟨⟩, -⟩
  | some s =>
      have htoken : s.token = token := (Table.get_eq_some.mp hs).2
      rw [Option.map_some, Option.getD_some]
      by_cases hlive : toRfc3339 now < s.expiresAt
      · rw [if_pos ⟨htoken, hlive⟩]
        cases hu : db.users.get s.userId with
        | none =>
            refine iff_of_false (fun h => Option.some_ne_none user h.symm) ?_
            rintro ⟨_, row, ⟨⟩, -, hrow, -⟩
            rw [hu] at hrow
            cases hrow
        | some row =>
            have hid : row.id = s.userId := (Table.get_eq_some.mp hu).2
            rw [Option.map_some, Option.getD_some]
            -- The user has to be there and active.
            by_cases hactive : row.active = 1
            · rw [if_pos ⟨hid, hactive⟩]
              constructor
              · intro h
                exact ⟨s, row, rfl, hlive, hu, hactive, Option.some.inj h⟩
              · rintro ⟨_, row', ⟨⟩, -, hrow, -, huser⟩
                rw [hu] at hrow
                obtain rfl := Option.some.inj hrow
                exact congrArg some huser
            · rw [if_neg fun h => hactive h.2]
              refine iff_of_false (fun h => Option.some_ne_none user h.symm) ?_
              rintro ⟨_, row', ⟨⟩, -, hrow, hactive', -⟩
              rw [hu] at hrow
              obtain rfl := Option.some.inj hrow
              exact hactive hactive'
      · rw [if_neg fun h => hlive h.2]
        refine iff_of_false (fun h => Option.some_ne_none user h.symm) ?_
        rintro ⟨_, row, ⟨⟩, hlive', -⟩
        exact hlive hlive'

/-- A reset token is consumed with its row. -/
theorem consumeResetToken_of_live {r : ResetRow} (hr : db.resets.get token = some r)
    (hlive : toRfc3339 now < r.expiresAt) :
    db.consumeResetToken X now token =
      ({ db with resets := db.resets.deleteWhere fun r => r.token == token },
        X.uuidOfText r.userId) := by
  have htoken : r.token = token := (Table.get_eq_some.mp hr).2
  have hrows := db.resets.flatMap_rows token
    (fun r => if r.token = token ∧ toRfc3339 now < r.expiresAt then [r] else [])
    fun r hr => if_neg fun h => hr h.1
  rw [hr, Option.map_some, Option.getD_some, if_pos ⟨htoken, hlive⟩] at hrows
  rw [consumeResetToken, hrows]
  rfl

theorem consumeResetToken_of_not_live
    (h : ∀ r, db.resets.get token = some r → ¬ toRfc3339 now < r.expiresAt) :
    db.consumeResetToken X now token = (db, none) := by
  have hrows := db.resets.flatMap_rows token
    (fun r => if r.token = token ∧ toRfc3339 now < r.expiresAt then [r] else [])
    fun r hr => if_neg fun h => hr h.1
  have hempty : ((db.resets.get token).map fun r =>
      if r.token = token ∧ toRfc3339 now < r.expiresAt then [r] else []).getD [] = [] := by
    cases hr : db.resets.get token with
    | none => rfl
    | some r => exact if_neg fun hlive => h r hr hlive.2
  rw [hempty] at hrows
  rw [consumeResetToken, hrows]
  rfl

/-! ## What a call does -/

variable {user : User} {userId : Uuid} {ttlHours : Int}

theorem create_cases (X : External) (db : UserDb) (user : User) :
    db.create X user = none ∨ ∃ users, db.users.insert (userRow X user) = some users ∧
      db.create X user = some { db with users := users } := by
  rw [create]
  split
  · exact .inl rfl
  · cases hinsert : db.users.insert (userRow X user) with
    | none => exact .inl rfl
    | some users => exact .inr ⟨users, rfl, rfl⟩

theorem update_cases (X : External) (db : UserDb) (user : User) :
    db.update X user = none ∨
      db.update X user = some { db with
        users := db.users.update (X.uuidText user.id) (setColumns X user)
          (id_setColumns X user) } := by
  rw [update]
  split
  · exact .inl rfl
  · exact .inr rfl

theorem issueSession_cases (X : External) (db : UserDb) (userId : Uuid) (ttlHours : Int)
    (now : DateTime) (token : String) :
    (∃ reply, db.issueSession X userId ttlHours now token = (db, reply) ∧
      (reply = .failed ∨ reply = .panicked)) ∨
    ∃ sessions, db.sessions.insert ⟨token, X.uuidText userId, toRfc3339 now,
        toRfc3339 (now + ttlHours * 3600000000000)⟩ = some sessions ∧
      db.issueSession X userId ttlHours now token =
        (setLastLogin X { db with sessions := sessions } userId now, .token token) := by
  rw [issueSession]
  cases hexpires : addHours now ttlHours with
  | none => exact .inl ⟨.panicked, rfl, .inr rfl⟩
  | some expires =>
      have hsum : expires = now + ttlHours * 3600000000000 := by
        rw [addHours] at hexpires
        split at hexpires
        · exact (Option.some.inj hexpires).symm
        · cases hexpires
      dsimp only
      split
      · exact .inl ⟨.failed, rfl, .inl rfl⟩
      · rw [hsum]
        cases hinsert : db.sessions.insert ⟨token, X.uuidText userId, toRfc3339 now,
            toRfc3339 (now + ttlHours * 3600000000000)⟩ with
        | none => exact .inl ⟨.failed, rfl, .inl rfl⟩
        | some sessions => exact .inr ⟨sessions, rfl, rfl⟩

theorem issueReset_cases (X : External) (db : UserDb) (userId : Uuid) (now : DateTime)
    (token : String) :
    db.issueReset X userId now token = (db, .failed) ∨
    ∃ resets, db.resets.insert ⟨token, X.uuidText userId, toRfc3339 (resetExpiry now)⟩ =
        some resets ∧
      db.issueReset X userId now token = ({ db with resets := resets }, .token token) := by
  rw [issueReset]
  split
  · exact .inl rfl
  · cases hinsert : db.resets.insert
        ⟨token, X.uuidText userId, toRfc3339 (resetExpiry now)⟩ with
    | none => exact .inl rfl
    | some resets => exact .inr ⟨resets, rfl, rfl⟩

end UserDb

end Store

end Maranode
