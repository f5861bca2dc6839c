/-
  Maranode.Api.Logout

  `users.rs`: closing sessions by the header that opened the request.

  Who a request is from is decided by the token of the header without the white space
  around it.  The handlers take what stands after `Bearer ` as it is: with white space they
  name a session that is not there.
-/
import Maranode.Store.Accounts
import Maranode.Store.Sessions

namespace Maranode.Api

open Lib Store UserDb

variable (X : External) (R : Rfc3339Reader)

/-! ## Handlers -/

/-- `UserCtx::from_request_parts`, with the sessions of the store. -/
def storeUserCtx (adminKey : Option String) (db : Store.UserDb) (now readAt : DateTime)
    (authorization : Option String) : Except AuthError User :=
  match bearerFromHeaders authorization with
  | none => .error .missingCredentials
  | some token =>
      if adminKey.filter (!·.isEmpty) = some token then .ok (syntheticAdmin now)
      else
        match db.resolveSession X R now readAt token with
        | none => .error .invalidToken
        | some user => if user.active then .ok user else .error .inactiveAccount

/-- `logout`, which answers the same whatever is deleted, and when SQLite does not delete
    (`fails`). -/
def logout (adminKey : Option String) (db : Store.UserDb) (now readAt : DateTime)
    (authorization : Option String) (fails : Option String) : Store.UserDb × ApiResult Unit :=
  match storeUserCtx X R adminKey db now readAt authorization with
  | .error e => (db, .error e.toApiError)
  | .ok _ =>
      match stripBearer authorization with
      | none => (db, .ok ())
      | some token =>
          (if fails.isSome then db else db.deleteSession (String.ofList token), .ok ())

/-- `current_token`, which `list_sessions` marks the session of the request by. -/
def currentToken (authorization : Option String) : String :=
  String.ofList ((stripBearer authorization).getD [])

def revokeOtherSessions (adminKey : Option String) (db : Store.UserDb) (now readAt : DateTime)
    (authorization : Option String) (fails : Option String) :
    Store.UserDb × ApiResult UInt64 :=
  match storeUserCtx X R adminKey db now readAt authorization with
  | .error e => (db, .error e.toApiError)
  | .ok user =>
      match fails with
      | some e => (db, .error (.internal e))
      | none =>
          let out := db.deleteSessionsForUserExcept X user.id (currentToken authorization)
          (out.1, .ok out.2)

/-- The store after some calls. -/
def afterCalls (db : Store.UserDb) (events : List UserEvent) : Store.UserDb :=
  events.foldl (fun db e => (db.step X R e).1) db

/-! ## Headers -/

/-- The header is accepted as the token of a session, not as the admin key. -/
structure Accepted (adminKey : Option String) (db : Store.UserDb) (now readAt : DateTime)
    (value token : String) (user : User) : Prop where
  bearer : bearerFromHeaders (some value) = some token
  notKey : adminKey.filter (!·.isEmpty) ≠ some token
  user_eq : storeUserCtx X R adminKey db now readAt (some value) = .ok user

/-- No white space stands around the token of the header. -/
def Bare (value : String) : Prop := ∀ rest ∈ stripBearer (some value), Text.trim rest = rest

/-- After the logout nobody is signed in by the header, as long as its token is not drawn
    again. -/
def Closes (adminKey : Option String) (db : Store.UserDb) (now readAt : DateTime)
    (value token : String) (fails : Option String) : Prop :=
  ∀ (later : List UserEvent) (now' readAt' : DateTime),
    (∀ e ∈ later, e.sessionToken ≠ some token) →
    ∃ e, storeUserCtx X R adminKey
      (afterCalls X R (logout X R adminKey db now readAt (some value) fails).1 later) now' readAt'
      (some value) = .error e

/-- When others were revoked, the one of the header is left of the user's sessions. -/
def LeavesOne (adminKey : Option String) (db : Store.UserDb) (now readAt : DateTime)
    (value token : String) (user : User) : Prop :=
  ∀ s, (s ∈ (revokeOtherSessions X R adminKey db now readAt (some value) none).1.sessions.rows ∧
    s.userId = X.uuidText user.id) ↔ db.sessions.get token = some s

variable {X R} {adminKey : Option String} {db : Store.UserDb} {now readAt : DateTime}
  {value token : String} {user : User}

/-- The authenticator trims what the handlers take. -/
theorem exists_rest_of_bearer (h : bearerFromHeaders (some value) = some token) :
    ∃ rest, stripBearer (some value) = some rest ∧ token = String.ofList (Text.trim rest) := by
  rw [bearerFromHeaders, Option.bind_some] at h
  rw [stripBearer, Option.bind_some]
  split at h
  · next hbearer =>
      rw [if_pos hbearer]
      dsimp only at h
      split at h
      · cases h
      · exact ⟨_, rfl, (Option.some.inj h).symm⟩
  · cases h

theorem currentToken_eq_iff (h : bearerFromHeaders (some value) = some token) :
    currentToken (some value) = token ↔ Bare value := by
  obtain ⟨rest, hrest, rfl⟩ := exists_rest_of_bearer h
  rw [currentToken, Bare, hrest, Option.getD_some, String.ofList_inj]
  simp only [Option.mem_def, Option.some.injEq, forall_eq']
  exact eq_comm

/-- An accepted header has a row. -/
theorem Accepted.resolve (h : Accepted X R adminKey db now readAt value token user) :
    db.resolveSession X R now readAt token = some user ∧ user.active = true := by
  have huser := h.user_eq
  rw [storeUserCtx, h.bearer] at huser
  dsimp only at huser
  rw [if_neg h.notKey] at huser
  split at huser
  · cases huser
  · next found hfound =>
      split at huser
      · next hactive =>
          rw [← Except.ok.inj huser]
          exact ⟨hfound, hactive⟩
      · cases huser

/-- Without a row, the header is refused. -/
theorem refused_of_get_eq_none (hbearer : bearerFromHeaders (some value) = some token)
    (hkey : adminKey.filter (!·.isEmpty) ≠ some token) (hget : db.sessions.get token = none) :
    ∃ e, storeUserCtx X R adminKey db now readAt (some value) = .error e := by
  have hnone : db.resolveSession X R now readAt token = none := by
    rw [Option.eq_none_iff_forall_ne_some]
    intro user huser
    obtain ⟨s, row, hs, -⟩ := resolveSession_eq_some.mp huser
    rw [hget] at hs
    cases hs
  refine ⟨.invalidToken, ?_⟩
  rw [storeUserCtx, hbearer]
  dsimp only
  rw [if_neg hkey, hnone]

/-- The row of the token decides. -/
theorem Accepted.congr {db' : Store.UserDb}
    (h : Accepted X R adminKey db now readAt value token user)
    (hsessions : db'.sessions.get token = db.sessions.get token) (husers : db'.users = db.users) :
    storeUserCtx X R adminKey db' now readAt (some value) = .ok user := by
  obtain ⟨hresolve, hactive⟩ := h.resolve
  have hresolve' : db'.resolveSession X R now readAt token = some user := by
    rw [resolveSession_eq_some, hsessions, husers]
    exact resolveSession_eq_some.mp hresolve
  rw [storeUserCtx, h.bearer]
  dsimp only
  rw [if_neg h.notKey, hresolve']
  dsimp only
  rw [if_pos hactive]

/-! ## The store -/

theorem wellKept_afterCalls (events : List UserEvent) (h : WellKept X db) :
    WellKept X (afterCalls X R db events) := by
  induction events generalizing db with
  | nil => exact h
  | cons e events ih => exact ih (h.of_usersStep (usersStep_step db e))

/-- A token that has no row and is not drawn has no row. -/
theorem get_afterCalls_eq_none (later : List UserEvent)
    (hlater : ∀ e ∈ later, e.sessionToken ≠ some token) (h : db.sessions.get token = none) :
    (afterCalls X R db later).sessions.get token = none := by
  induction later generalizing db with
  | nil => exact h
  | cons e later ih =>
      have hparts := List.forall_mem_cons.mp hlater
      refine ih hparts.2 (Table.get_eq_none.mpr fun s hs htoken => ?_)
      obtain ⟨db', hpurge, hperform⟩ := exists_purged_step X R db e
      change s ∈ (db.step X R e).1.sessions.rows at hs
      rw [hperform] at hs
      rcases (rows_perform e).1 s hs with hold | hdrawn
      · exact Table.get_eq_none.mp h s (hpurge.sessionRows s hold) htoken
      · rw [← htoken] at hparts
        exact hparts.1 hdrawn

/-- The session of an accepted header is the user's. -/
theorem Accepted.row (hkept : WellKept X db)
    (h : Accepted X R adminKey db now readAt value token user) :
    ∃ s, db.sessions.get token = some s ∧ s.userId = X.uuidText user.id := by
  obtain ⟨s, row, hs, -, hrow, -, huser⟩ := resolveSession_eq_some.mp h.resolve.1
  obtain ⟨hmem, hid⟩ := Table.get_eq_some.mp hrow
  obtain ⟨id, hrowId⟩ := hkept.ids row hmem
  refine ⟨s, hs, ?_⟩
  rw [← huser, id_rowToUser hrowId, ← hrowId]
  exact hid.symm

theorem logout_eq (h : Accepted X R adminKey db now readAt value token user)
    (fails : Option String) :
    logout X R adminKey db now readAt (some value) fails =
      (if fails.isSome then db else db.deleteSession (currentToken (some value)), .ok ()) := by
  obtain ⟨rest, hrest, -⟩ := exists_rest_of_bearer h.bearer
  rw [logout, h.user_eq, currentToken, hrest]
  rfl

theorem get_deleteSession (db : Store.UserDb) (deleted : String) :
    (db.deleteSession deleted).sessions.get = Function.update db.sessions.get deleted none :=
  db.sessions.get_deleteKey fun _ => beq_eq_decide _ _

/-- The logout closes the session of the header exactly when the header has no white space
    and the deletion does not fail. -/
theorem closes_iff (h : Accepted X R adminKey db now readAt value token user)
    (fails : Option String) :
    Closes X R adminKey db now readAt value token fails ↔ Bare value ∧ fails = none := by
  rw [← currentToken_eq_iff h.bearer, Closes, logout_eq h]
  constructor
  · intro hcloses
    obtain ⟨e, hrefused⟩ := hcloses [] now readAt fun _ he => absurd he List.not_mem_nil
    rw [afterCalls, List.foldl_nil] at hrefused
    cases fails with
    | some msg =>
        rw [Option.isSome_some, if_pos rfl, h.user_eq] at hrefused
        cases hrefused
    | none =>
        refine ⟨?_, rfl⟩
        by_contra hne
        have hget : (db.deleteSession (currentToken (some value))).sessions.get token =
            db.sessions.get token := by
          rw [get_deleteSession, Function.update_of_ne (Ne.symm hne)]
        have hstill : storeUserCtx X R adminKey (db.deleteSession (currentToken (some value))) now
            readAt (some value) = .ok user := h.congr hget rfl
        rw [Option.isSome_none, if_neg Bool.false_ne_true, hstill] at hrefused
        cases hrefused
  · rintro ⟨htoken, rfl⟩ later now' readAt' hlater
    refine refused_of_get_eq_none h.bearer h.notKey (get_afterCalls_eq_none later hlater ?_)
    rw [Option.isSome_none, if_neg Bool.false_ne_true, htoken, get_deleteSession,
      Function.update_self]

/-- The other sessions are revoked, and the one of the header kept, exactly when the header
    has no white space. -/
theorem leavesOne_iff (hkept : WellKept X db)
    (h : Accepted X R adminKey db now readAt value token user) :
    LeavesOne X R adminKey db now readAt value token user ↔ Bare value := by
  obtain ⟨row, hrow, howner⟩ := h.row hkept
  -- Of this user a session stays only by its token, which is what the header is cut to.
  have hleft : ∀ s : SessionRow,
      (s ∈ (revokeOtherSessions X R adminKey db now readAt (some value) none).1.sessions.rows ∧
        s.userId = X.uuidText user.id) ↔
      s ∈ db.sessions.rows ∧ s.userId = X.uuidText user.id ∧
        s.token = currentToken (some value) := by
    intro s
    rw [revokeOtherSessions, h.user_eq]
    dsimp only
    rw [deleteSessionsForUserExcept]
    dsimp only
    rw [Table.mem_deleteWhere, and_assoc]
    refine and_congr_right fun _ => ?_
    rw [Bool.and_eq_false_iff, beq_eq_false_iff_ne, bne_eq_false_iff_eq]
    constructor
    · rintro ⟨hother | htoken, hmine⟩
      · exact absurd hmine hother
      · exact ⟨hmine, htoken⟩
    · rintro ⟨hmine, htoken⟩
      exact ⟨.inr htoken, hmine⟩
  rw [← currentToken_eq_iff h.bearer, LeavesOne]
  constructor
  -- The session that was used stays, so its token is what was cut out.
  · intro hleaves
    obtain ⟨-, -, htoken⟩ := (hleft row).mp ((hleaves row).mpr hrow)
    rw [← htoken]
    exact (Table.get_eq_some.mp hrow).2
  · intro htoken s
    rw [hleft, htoken, Table.get_eq_some]
    constructor
    · rintro ⟨hmem, -, hsame⟩
      exact ⟨hmem, hsame⟩
    · rintro ⟨hmem, hsame⟩
      -- Tokens are keys, so there is no other session with this one.
      have hget := Table.get_eq_some.mpr ⟨hmem, hsame⟩
      rw [hrow] at hget
      rw [← Option.some.inj hget]
      exact ⟨(Table.get_eq_some.mp hrow).1, howner, (Table.get_eq_some.mp hrow).2⟩

variable (X R) in
/-- **Headers.**  In every state of the store, for every header that is accepted as a session:
    the logout is answered as done, and closes the session for good exactly when no white
    space stands around the token and the deletion does not fail; the revocation of the
    others leaves the session alone, and the handlers read the token that was authenticated,
    exactly when no white space stands around it. -/
theorem header_closes_iff (adminKey : Option String) (events : List UserEvent)
    (now readAt : DateTime) (value token : String) (user : User) (fails : Option String)
    (h : Accepted X R adminKey (afterCalls X R .fresh events) now readAt value token user) :
    (logout X R adminKey (afterCalls X R .fresh events) now readAt (some value) fails).2 = .ok () ∧
      (Closes X R adminKey (afterCalls X R .fresh events) now readAt value token fails ↔
        Bare value ∧ fails = none) ∧
      (LeavesOne X R adminKey (afterCalls X R .fresh events) now readAt value token user ↔
        Bare value) ∧
      (currentToken (some value) = token ↔ Bare value) :=
  ⟨congrArg Prod.snd (logout_eq h fails), closes_iff h fails,
    leavesOne_iff (wellKept_afterCalls events wellKept_fresh) h, currentToken_eq_iff h.bearer⟩

/-! ## Two spaces -/

def bob : User where
  id := 1
  username := "bob"
  email := none
  passwordHash := none
  role := .viewer
  provider := .localAccount
  providerSub := none
  active := true
  createdAt := 0
  lastLogin := none

/-- Bob signs in twice. -/
def bobSignsIn : List UserEvent :=
  [⟨.create bob, 0, 0⟩, ⟨.createSession 1 8 "6f1d", 0, 0⟩, ⟨.createSession 1 8 "a24c", 0, 0⟩]

theorem accepted_bob {value : String} (hbearer : bearerFromHeaders (some value) = some "6f1d") :
    Accepted .sample .sample none (afterCalls .sample .sample .fresh bobSignsIn) 1 1 value "6f1d"
      { bob with lastLogin := some 0 } where
  bearer := hbearer
  notKey := by decide
  user_eq := by
    have hresolve : (afterCalls .sample .sample .fresh bobSignsIn).resolveSession .sample .sample
        1 1 "6f1d" = some { bob with lastLogin := some 0 } := by decide +kernel
    rw [storeUserCtx, hbearer]
    dsimp only
    rw [if_neg (by decide), hresolve]
    rfl

/-- With one space, Bob's session is closed, or the only one left. -/
theorem bob_closes :
    Closes .sample .sample none (afterCalls .sample .sample .fresh bobSignsIn) 1 1 "Bearer 6f1d"
        "6f1d" none ∧
      LeavesOne .sample .sample none (afterCalls .sample .sample .fresh bobSignsIn) 1 1
        "Bearer 6f1d" "6f1d" { bob with lastLogin := some 0 } := by
  have hbare : Bare "Bearer 6f1d" := by
    intro rest hrest
    rw [← Option.some.inj hrest]
    decide
  obtain ⟨-, hcloses, hleaves, -⟩ := header_closes_iff .sample .sample none bobSignsIn 1 1
    "Bearer 6f1d" "6f1d" _ none (accepted_bob (by decide))
  exact ⟨hcloses.mpr ⟨hbare, rfl⟩, hleaves.mpr hbare⟩

/-- With two spaces, Bob is signed in after the logout, and signed out with the others. -/
theorem not_header_closes :
    Accepted .sample .sample none (afterCalls .sample .sample .fresh bobSignsIn) 1 1
        "Bearer  6f1d" "6f1d" { bob with lastLogin := some 0 } ∧
      ¬ Closes .sample .sample none (afterCalls .sample .sample .fresh bobSignsIn) 1 1
        "Bearer  6f1d" "6f1d" none ∧
      ¬ LeavesOne .sample .sample none (afterCalls .sample .sample .fresh bobSignsIn) 1 1
        "Bearer  6f1d" "6f1d" { bob with lastLogin := some 0 } := by
  have haccepted := @accepted_bob "Bearer  6f1d" (by decide)
  have hspace : ¬ Bare "Bearer  6f1d" := by
    intro hbare
    exact absurd (hbare " 6f1d".toList rfl) (by decide)
  exact ⟨haccepted, fun h => hspace ((closes_iff haccepted none).mp h).1,
    fun h => hspace ((leavesOne_iff (wellKept_afterCalls _ wellKept_fresh) haccepted).mp h)⟩

end Maranode.Api
