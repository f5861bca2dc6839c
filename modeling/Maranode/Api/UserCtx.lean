/-
  Maranode.Api.UserCtx

  `error.rs`, `common/user.rs` and `user_ctx.rs`: who a request is from, and what that
  user may do.

  A request shows a bearer token, which is the admin key, the token of a session, or
  nothing.  There is no layer in front of the routes: a handler asks for a `UserCtx` or
  calls `authorizePermission`, or it does not.
-/
import Maranode.Common.External
import Maranode.Lib.Separated

namespace Maranode.Api

open Lib

/-! ## error.rs -/

/-- Status and message. -/
structure ApiError where
  status : Nat
  message : String
  deriving DecidableEq

abbrev ApiResult := Except ApiError

namespace ApiError

def badRequest (msg : String) : ApiError := ⟨400, msg⟩

def unauthorized (msg : String) : ApiError := ⟨401, msg⟩

def forbidden (msg : String) : ApiError := ⟨403, msg⟩

def notFound (msg : String) : ApiError := ⟨404, msg⟩

def conflict (msg : String) : ApiError := ⟨409, msg⟩

def internal (msg : String) : ApiError := ⟨500, msg⟩

def notImplemented (msg : String) : ApiError := ⟨501, msg⟩

end ApiError

/-! ## common/user.rs -/

inductive Permission where
  | chat
  | ragIngest
  | ragManage
  | modelManage
  | auditView
  | auditExport
  | auditPrune
  | userManage
  | workspaceManage
  | incidentManage
  | dlpManage
  | configManage
  deriving DecidableEq

inductive Role where
  | admin
  | operator
  | auditor
  | viewer
  deriving DecidableEq

def Role.permissions : Role → List Permission
  | .admin =>
      [.chat, .ragIngest, .ragManage, .modelManage, .auditView, .auditExport, .auditPrune,
        .userManage, .workspaceManage, .incidentManage, .dlpManage, .configManage]
  | .operator => [.chat, .ragIngest, .ragManage, .modelManage, .auditView]
  | .auditor => [.chat, .auditView, .auditExport]
  | .viewer => [.chat]

def Role.has (role : Role) (perm : Permission) : Bool := role.permissions.contains perm

def Role.canManageUsers (role : Role) : Bool := role.has .userManage

inductive AuthProvider where
  | localAccount
  | oidc
  | ldap
  | saml
  deriving DecidableEq

structure User where
  id : Uuid
  username : String
  email : Option String
  passwordHash : Option String
  role : Role
  provider : AuthProvider
  providerSub : Option String
  active : Bool
  createdAt : DateTime
  lastLogin : Option DateTime
  deriving DecidableEq

/-! ## Credentials -/

/-- A session of the user database; the expiry is kept as text, and compared as text. -/
structure Session where
  token : String
  userId : Uuid
  createdAt : String
  expiresAt : String
  deriving DecidableEq

structure UserDb where
  users : List User
  sessions : List Session

variable (X : External)

/-- `resolve_session`, asked at `now`: the token of a session that has not expired, of a
    user that is active. -/
def UserDb.resolveSession (db : UserDb) (now : DateTime) (token : String) : Option User :=
  (db.sessions.find? fun s => s.token == token && decide (X.toRfc3339 now < s.expiresAt)).bind
    fun s => db.users.find? fun u => u.id == s.userId && u.active

/-- `strip_prefix("Bearer ")`. -/
def stripBearer (authorization : Option String) : Option Text :=
  authorization.bind fun value =>
    if "Bearer ".toList.isPrefixOf value.toList then some (value.toList.drop "Bearer ".length)
    else none

/-- `bearer_from_headers`, from the `Authorization` header. -/
def bearerFromHeaders (authorization : Option String) : Option String :=
  authorization.bind fun value =>
    if "Bearer ".toList.isPrefixOf value.toList then
      let token := String.ofList (Text.trim (value.toList.drop "Bearer ".length))
      if token.isEmpty then none else some token
    else none

/-- What a request is checked against. -/
structure Credentials where
  adminKey : Option String
  userDb : UserDb
  now : DateTime

/-- An admin key that is set and not empty. -/
def Credentials.hostKey (c : Credentials) : Option String := c.adminKey.filter (!·.isEmpty)

/-- The bearer is the admin key. -/
def Credentials.isAdmin (c : Credentials) (authorization : Option String) : Bool :=
  match bearerFromHeaders authorization, c.hostKey with
  | some token, some ak => token == ak
  | _, _ => false

inductive AuthError where
  | missingCredentials
  | invalidToken
  | inactiveAccount
  | forbidden
  deriving DecidableEq

/-- `AuthError::into_response`. -/
def AuthError.toApiError : AuthError → ApiError
  | .missingCredentials => .unauthorized "authentication required"
  | .invalidToken => .unauthorized "invalid or expired token"
  | .inactiveAccount => .forbidden "account is disabled"
  | .forbidden => .forbidden "insufficient permissions"

def syntheticAdmin (now : DateTime) : User where
  id := 0
  username := "admin"
  email := none
  passwordHash := none
  role := .admin
  provider := .localAccount
  providerSub := none
  active := true
  createdAt := now
  lastLogin := none

/-- `UserCtx::from_request_parts`. -/
def Credentials.userCtx (c : Credentials) (authorization : Option String) :
    Except AuthError User :=
  match bearerFromHeaders authorization with
  | none => .error .missingCredentials
  | some token =>
      if c.isAdmin authorization then .ok (syntheticAdmin c.now)
      else
        match c.userDb.resolveSession X c.now token with
        | none => .error .invalidToken
        | some user => if user.active then .ok user else .error .inactiveAccount

/-- `AdminCtx::from_request_parts`. -/
def Credentials.adminCtx (c : Credentials) (authorization : Option String) :
    Except AuthError User :=
  match c.userCtx X authorization with
  | .error e => .error e
  | .ok user => if user.role.canManageUsers then .ok user else .error .forbidden

/-- `UserCtx::require`. -/
def User.require (user : User) (perm : Permission) : ApiResult Unit :=
  if user.role.has perm then .ok () else .error (.forbidden "insufficient permissions")

/-- `authorize_privileged`. -/
def Credentials.authorizePrivileged (c : Credentials) (authorization : Option String)
    (perm : Role → Bool) : ApiResult Unit :=
  if c.isAdmin authorization then .ok ()
  else
    let session := (bearerFromHeaders authorization).bind fun token =>
      c.userDb.resolveSession X c.now token
    if session.any fun user => user.active && perm user.role then .ok ()
    else if c.hostKey.isNone then .ok ()
    else .error (.forbidden "admin privileges required")

/-- `authorize_permission`. -/
def Credentials.authorizePermission (c : Credentials) (authorization : Option String)
    (perm : Permission) : ApiResult Unit :=
  c.authorizePrivileged X authorization fun role => role.has perm

/-! ## Requests without a credential -/

/-- The bearer is neither the admin key nor the token of a session that resolves. -/
def Credentials.NoCredential (c : Credentials) (authorization : Option String) : Prop :=
  ∀ token, bearerFromHeaders authorization = some token →
    c.hostKey ≠ some token ∧ c.userDb.resolveSession X c.now token = none

variable {X} {c : Credentials} {authorization : Option String}

theorem Credentials.NoCredential.isAdmin (h : c.NoCredential X authorization) :
    c.isAdmin authorization = false := by
  rw [Credentials.isAdmin]
  cases hbearer : bearerFromHeaders authorization with
  | none => rfl
  | some token =>
      cases hkey : c.hostKey with
      | none => rfl
      | some ak =>
          have hne := (h token hbearer).1
          rw [hkey] at hne
          exact beq_eq_false_iff_ne.mpr fun heq => hne (congrArg some heq.symm)

theorem Credentials.NoCredential.userCtx (h : c.NoCredential X authorization) :
    ∃ e, c.userCtx X authorization = .error e := by
  rw [Credentials.userCtx]
  cases hbearer : bearerFromHeaders authorization with
  | none => exact ⟨_, rfl⟩
  | some token =>
      refine ⟨.invalidToken, ?_⟩
      simp only [h.isAdmin, Bool.false_eq_true, if_false, (h token hbearer).2]

theorem Credentials.NoCredential.adminCtx (h : c.NoCredential X authorization) :
    ∃ e, c.adminCtx X authorization = .error e := by
  obtain ⟨e, he⟩ := h.userCtx
  exact ⟨e, by rw [Credentials.adminCtx, he]⟩

/-- With an admin key in place, nothing is allowed without a credential. -/
theorem Credentials.NoCredential.authorizePermission (h : c.NoCredential X authorization)
    (hkey : c.hostKey ≠ none) (perm : Permission) :
    c.authorizePermission X authorization perm
      = .error (.forbidden "admin privileges required") := by
  have hsession : ((bearerFromHeaders authorization).bind fun token =>
      c.userDb.resolveSession X c.now token) = none := by
    rw [Option.bind_eq_none_iff]
    exact fun token hbearer => (h token hbearer).2
  have hsome : c.hostKey.isNone = false := by
    rw [Option.isNone_eq_false_iff, Option.isSome_iff_ne_none]
    exact hkey
  rw [Credentials.authorizePermission, Credentials.authorizePrivileged, h.isAdmin, hsession, hsome]
  rfl

end Maranode.Api
