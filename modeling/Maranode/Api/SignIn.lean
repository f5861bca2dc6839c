/-
  Maranode.Api.SignIn

  `users.rs` and `identity.rs`: how users come to be, and how they sign in.

  A user is made by an administrator, or by the first sign-in with a provider; a sign-in
  with a password looks the name up as it was typed.  Hashing, lower case and the texts of
  SQLite are parameters, and so is what is drawn for a request.
-/
import Maranode.Store.Accounts

namespace Maranode.Api

open Lib Store UserDb

/-! ## Parameters -/

/-- `argon2`: what was hashed is verified, and nothing else. -/
structure Argon2 where
  hashPassword : (salt password : String) → Except String String
  verifyPassword : (password hash : String) → Except String Bool
  verify_hash : ∀ {salt password hash}, hashPassword salt password = .ok hash →
    ∀ other, verifyPassword other hash = .ok (decide (other = password))

/-- What the handlers call, and `session_hours`. -/
structure SignIn where
  argon2 : Argon2
  toLowercase : String → String
  refusal : User → String
  sessionRefusal : String
  sessionHours : Int

/-- What is drawn for a request, and the clock. -/
structure Draw where
  id : Uuid
  salt : String
  token : String
  createdAt : DateTime
  readAt : DateTime
  purgedAt : DateTime
  issuedAt : DateTime

variable (X : External) (R : Rfc3339Reader) (S : SignIn)

/-! ## create_user -/

structure CreateUserReq where
  username : String
  password : Option String
  email : Option String
  role : String

/-- `trim().to_lowercase()`. -/
def SignIn.normalize (username : String) : String :=
  S.toLowercase (String.ofList (Text.trim username.toList))

/-- `Role::from_str`. -/
def parseRole (s : String) : ApiResult Role :=
  match Role.fromStr s with
  | none => .error (.badRequest s!"unknown role '{s}': expected admin, operator, auditor, viewer")
  | some role => .ok role

/-- The hash of a password that may be left out. -/
def SignIn.hashOf (salt : String) : Option String → Except String (Option String)
  | none => .ok none
  | some password => (S.argon2.hashPassword salt password).map some

/-- The user that `create_user` makes, if it gets there. -/
def SignIn.newUser (req : CreateUserReq) (d : Draw) : ApiResult User :=
  match parseRole req.role with
  | .error e => .error e
  | .ok role =>
      match S.hashOf d.salt req.password with
      | .error e => .error (.internal s!"password hash error: {e}")
      | .ok passwordHash =>
          .ok { id := d.id, username := S.normalize req.username, email := req.email
                passwordHash := passwordHash, role := role, provider := .localAccount
                providerSub := none, active := true, createdAt := d.createdAt, lastLogin := none }

def createUser (db : Store.UserDb) (req : CreateUserReq) (d : Draw) :
    Store.UserDb × ApiResult User :=
  match S.newUser req d with
  | .error e => (db, .error e)
  | .ok user =>
      match db.create X user with
      | none => (db, .error (.conflict (S.refusal user)))
      | some db' => (db', .ok user)

/-! ## Sessions -/

/-- The answer to a sign-in, with the user whose session it is. -/
inductive SessionReply where
  | error (e : ApiError)
  | granted (token : String) (user : User)
  | panicked

def openSession (db : Store.UserDb) (user : User) (d : Draw) : Store.UserDb × SessionReply :=
  match db.createSession X user.id S.sessionHours d.purgedAt d.issuedAt d.token with
  | (db', .token token) => (db', .granted token user)
  | (db', .panicked) => (db', .panicked)
  | (db', _) => (db', .error (.internal S.sessionRefusal))

/-! ## login -/

structure LoginReq where
  username : String
  password : String

/-- `login`; `limited` is what the rate limiter says. -/
def login (db : Store.UserDb) (limited : Option ApiError) (req : LoginReq) (d : Draw) :
    Store.UserDb × SessionReply :=
  match limited with
  | some e => (db, .error e)
  | none =>
      match db.getByUsername X R d.readAt req.username with
      | none => (db, .error (.unauthorized "invalid username or password"))
      | some user =>
          if !user.active then (db, .error (.forbidden "account is disabled"))
          else if user.provider ≠ .localAccount then
            (db, .error (.badRequest
              s!"this account uses {user.provider.asStr} login: use the SSO flow"))
          else
            match user.passwordHash with
            | none => (db, .error (.internal "no password set for this account"))
            | some hash =>
                match S.argon2.verifyPassword req.password hash with
                | .error e => (db, .error (.internal s!"invalid hash: {e}"))
                | .ok ok =>
                    if !ok then (db, .error (.unauthorized "invalid username or password"))
                    else openSession X S db user d

/-! ## upsert_sso_user_and_session -/

/-- What a provider says of who signs in. -/
structure SsoClaim where
  provider : AuthProvider
  sub : String
  username : String
  email : Option String
  role : String

/-- The user that the first sign-in with a provider makes. -/
def SsoClaim.newUser (c : SsoClaim) (role : Role) (d : Draw) : User where
  id := d.id
  username := c.username
  email := c.email
  passwordHash := none
  role := role
  provider := c.provider
  providerSub := some c.sub
  active := true
  createdAt := d.createdAt
  lastLogin := none

/-- A session for a user who is not disabled. -/
def sessionFor (db : Store.UserDb) (user : User) (d : Draw) : Store.UserDb × SessionReply :=
  if !user.active then (db, .error (.forbidden "account is disabled"))
  else openSession X S db user d

def upsertSso (db : Store.UserDb) (c : SsoClaim) (d : Draw) : Store.UserDb × SessionReply :=
  match parseRole c.role with
  | .error e => (db, .error e)
  | .ok role =>
      match db.getByProviderSub X R d.readAt c.provider.asStr c.sub with
      | some found =>
          let existing := { found with email := c.email.or found.email }
          match db.update X existing with
          | none => (db, .error (.internal (S.refusal existing)))
          | some db' => sessionFor X S db' existing d
      | none =>
          match db.create X (c.newUser role d) with
          | none => (db, .error (.internal (S.refusal (c.newUser role d))))
          | some db' => sessionFor X S db' (c.newUser role d) d

/-! ## What they do to the users -/

variable {X R S} {db : Store.UserDb} {d : Draw} {user : User} {id : Uuid}

theorem usersStep_openSession :
    UserDb.UsersStep X db.users (.createSession user.id S.sessionHours d.token)
      (openSession X S db user d).1.users := by
  have hstep := UserDb.usersStep_issueSession (X := X)
    (UserDb.purgeSessions X db user.id d.purgedAt) user.id S.sessionHours d.issuedAt d.token
  rw [openSession, UserDb.createSession]
  split
  · next db' token hrun =>
      rw [hrun] at hstep
      exact hstep
  · next db' hrun =>
      rw [hrun] at hstep
      exact hstep
  · next db' reply htoken hpanicked hrun =>
      rw [hrun] at hstep
      exact hstep

variable (X S) in
/-- The answer is a session of the user, and the session is there. -/
def Grants (out : Store.UserDb × SessionReply) (id : Uuid) : Prop :=
  ∃ token user, out.2 = .granted token user ∧ user.id = id ∧
    ∃ s, out.1.sessions.get token = some s ∧ s.userId = X.uuidText id

variable (X S) in
/-- A session can be issued: its end is a time, and its token was not drawn before. -/
def Issues (db : Store.UserDb) (id : Uuid) (d : Draw) : Prop :=
  addHours d.issuedAt S.sessionHours ≠ none ∧
    (purgeSessions X db id d.purgedAt).sessions.get d.token = none

theorem grants_openSession_iff (hid : user.id = id)
    (hrow : (db.users.get (X.uuidText id)).isNone = false) :
    Grants X (openSession X S db user d) id ↔ Issues X S db id d := by
  -- The purge leaves the users.
  have hrow' : ((purgeSessions X db id d.purgedAt).users.get (X.uuidText id)).isNone = false :=
    hrow
  rw [openSession, hid, createSession, issueSession, Issues]
  -- The hours may lead beyond the times there are.
  cases hexpires : addHours d.issuedAt S.sessionHours with
  | none =>
      refine iff_of_false ?_ fun h => h.1 rfl
      rintro ⟨token, user', hreply, -⟩
      cases hreply
  | some expires =>
      dsimp only
      rw [hrow', if_neg Bool.false_ne_true]
      cases hinsert : (purgeSessions X db id d.purgedAt).sessions.insert
          ⟨d.token, X.uuidText id, toRfc3339 d.issuedAt, toRfc3339 expires⟩ with
      -- The token is there already.
      | none =>
          refine iff_of_false ?_ fun h => ?_
          · rintro ⟨token, user', hreply, -⟩
            cases hreply
          · have hfresh : (purgeSessions X db id d.purgedAt).sessions.get
                (SessionRow.token ⟨d.token, X.uuidText id, toRfc3339 d.issuedAt,
                  toRfc3339 expires⟩) = none := h.2
            obtain ⟨sessions, hsome⟩ := Table.exists_insert hfresh
            rw [hinsert] at hsome
            cases hsome
      | some sessions =>
          refine iff_of_true ⟨d.token, user, rfl, hid,
            ⟨d.token, X.uuidText id, toRfc3339 d.issuedAt, toRfc3339 expires⟩, ?_, rfl⟩
            ⟨Option.some_ne_none _, ?_⟩
          · have hget := Table.get_of_insert hinsert
            exact (congrFun hget d.token).trans (Function.update_self ..)
          · exact (Table.insert_eq_some hinsert).1

theorem sessionFor_cases :
    (sessionFor X S db user d).1 = db ∨ sessionFor X S db user d = openSession X S db user d := by
  rw [sessionFor]
  split
  · exact .inl rfl
  · exact .inr rfl

theorem openSession_granted {token : String} {user' : User}
    (h : (openSession X S db user' d).2 = .granted token user) : user' = user := by
  rw [openSession] at h
  split at h
  · exact (SessionReply.granted.inj h).2
  · cases h
  · cases h

theorem sessionFor_granted {token : String} {user' : User}
    (h : (sessionFor X S db user' d).2 = .granted token user) : user' = user := by
  rw [sessionFor] at h
  split at h
  · cases h
  · exact openSession_granted h

theorem newUser_eq_ok {req : CreateUserReq} (h : S.newUser req d = .ok user) :
    user.id = d.id ∧ user.username = S.normalize req.username ∧
      user.provider = .localAccount ∧ user.providerSub = none ∧ user.active = true ∧
      S.hashOf d.salt req.password = .ok user.passwordHash := by
  rw [SignIn.newUser] at h
  split at h
  · cases h
  · next role hrole =>
      split at h
      · cases h
      · next passwordHash hhash =>
          rw [← Except.ok.inj h]
          exact ⟨rfl, rfl, rfl, rfl, rfl, hhash⟩

theorem createUser_cases (X : External) (S : SignIn) (db : Store.UserDb) (req : CreateUserReq)
    (d : Draw) :
    (∃ e, createUser X S db req d = (db, .error e)) ∨
      ∃ user db', S.newUser req d = .ok user ∧ db.create X user = some db' ∧
        createUser X S db req d = (db', .ok user) := by
  rw [createUser]
  cases huser : S.newUser req d with
  | error e => exact .inl ⟨e, rfl⟩
  | ok user =>
      dsimp only
      cases hcreate : db.create X user with
      | none => exact .inl ⟨_, rfl⟩
      | some db' => exact .inr ⟨user, db', rfl, hcreate, rfl⟩

theorem login_cases (X : External) (R : Rfc3339Reader) (S : SignIn) (db : Store.UserDb)
    (limited : Option ApiError) (req : LoginReq) (d : Draw) :
    (∃ e, login X R S db limited req d = (db, .error e)) ∨
      ∃ user, db.getByUsername X R d.readAt req.username = some user ∧
        login X R S db limited req d = openSession X S db user d := by
  rw [login.eq_def]
  split
  · exact .inl ⟨_, rfl⟩
  · split
    · exact .inl ⟨_, rfl⟩
    · next user hfound =>
        split
        · exact .inl ⟨_, rfl⟩
        · split
          · exact .inl ⟨_, rfl⟩
          · split
            · exact .inl ⟨_, rfl⟩
            · split
              · exact .inl ⟨_, rfl⟩
              · split
                · exact .inl ⟨_, rfl⟩
                · exact .inr ⟨user, hfound, rfl⟩

theorem upsertSso_cases (X : External) (R : Rfc3339Reader) (S : SignIn) (db : Store.UserDb)
    (c : SsoClaim) (d : Draw) :
    (∃ e, upsertSso X R S db c d = (db, .error e)) ∨
      (∃ found db', db.getByProviderSub X R d.readAt c.provider.asStr c.sub = some found ∧
        db.update X { found with email := c.email.or found.email } = some db' ∧
        upsertSso X R S db c d =
          sessionFor X S db' { found with email := c.email.or found.email } d) ∨
      ∃ role db', parseRole c.role = .ok role ∧
        db.getByProviderSub X R d.readAt c.provider.asStr c.sub = none ∧
        db.create X (c.newUser role d) = some db' ∧
        upsertSso X R S db c d = sessionFor X S db' (c.newUser role d) d := by
  rw [upsertSso]
  cases hrole : parseRole c.role with
  | error e => exact .inl ⟨e, rfl⟩
  | ok role =>
      dsimp only
      cases hfound : db.getByProviderSub X R d.readAt c.provider.asStr c.sub with
      | some found =>
          dsimp only
          cases hupdate : db.update X { found with email := c.email.or found.email } with
          | none => exact .inl ⟨_, rfl⟩
          | some db' => exact .inr (.inl ⟨found, db', rfl, hupdate, rfl⟩)
      | none =>
          dsimp only
          cases hcreate : db.create X (c.newUser role d) with
          | none => exact .inl ⟨_, rfl⟩
          | some db' => exact .inr (.inr ⟨role, db', rfl, rfl, hcreate, rfl⟩)

/-! ## Samples -/

/-- The hash of `s3cret-pw` with the first sixteen bytes as its salt. -/
def secretHash : String :=
  "$argon2id$v=19$m=19456,t=2,p=1$AAECAwQFBgcICQoLDA0ODw" ++
    "$0QwzsL0BapUIMYHfWY+dpj9us1h7n0hbruHm8ujaY50"

theorem plainHash_ne (password : String) : "hash of " ++ password ≠ secretHash := by
  intro h
  have hhead : ("hash of " ++ password).toList.head? = secretHash.toList.head? := by rw [h]
  have hplain : "hash of ".toList.head? = some 'h' := by decide
  have hsecret : secretHash.toList.head? = some '$' := by decide +kernel
  rw [String.toList_append, List.head?_append, hplain, Option.some_or, hsecret] at hhead
  exact absurd (Option.some.inj hhead) (by decide)

/-- An instance: the hash above, and every other password beside its name. -/
def Argon2.sample : Argon2 where
  hashPassword salt password :=
    if salt = "AAECAwQFBgcICQoLDA0ODw" ∧ password = "s3cret-pw" then .ok secretHash
    else .ok ("hash of " ++ password)
  verifyPassword password hash :=
    if hash = secretHash then .ok (decide (password = "s3cret-pw"))
    else .ok (decide (hash = "hash of " ++ password))
  verify_hash := by
    intro salt password hash hhash other
    split at hhash
    · next hsecret =>
        rw [← Except.ok.inj hhash, if_pos rfl, hsecret.2]
    · rw [← Except.ok.inj hhash, if_neg (plainHash_ne password)]
      refine congrArg Except.ok (decide_eq_decide.mpr ?_)
      rw [String.append_right_inj]
      exact eq_comm

/-- Names of letters of ASCII, and eight hours. -/
def SignIn.sample : SignIn where
  argon2 := .sample
  toLowercase := fun s => String.ofList (s.toList.map Char.toLower)
  refusal := fun _ => "UNIQUE constraint failed: users.username"
  sessionRefusal := "UNIQUE constraint failed: sessions.token"
  sessionHours := 8

def drawAt (id : Uuid) (token : String) : Draw :=
  ⟨id, "AAECAwQFBgcICQoLDA0ODw", token, 0, 0, 0, 0⟩

end Maranode.Api
