/-
  Maranode.Api.PasswordReset

  `reset.rs`: a password is set with a token that was mailed.

  The two handlers are calls of the user store under one lock, so a run of them among all
  other calls is a history of calls (`Tied`).  What the clients saw of it says which token
  is good: one that was mailed less than half an hour ago and not taken since, for a user
  who was not deleted (`confirmReset_takes_iff`).  What is set is the password and nothing
  else; the sessions of the user stay (`confirmReset_sets`).
-/
import Maranode.Api.SignIn
import Maranode.Store.Constraints

namespace Maranode.Api

open Lib Lib.Expiry Store UserDb

variable (X : External) (R : Rfc3339Reader) (S : SignIn)

/-! ## The handlers -/

/-- What is drawn for a request, and the clock. -/
structure ResetDraw where
  token : String
  salt : String
  readAt : DateTime
  first : DateTime
  second : DateTime

/-- The token that is handed to the mail server, and for whom. -/
structure ResetMail where
  address : String
  token : String
  user : User
  deriving DecidableEq

/-- `request_reset`; `limited` is what the rate limiter says, `smtp` whether mail is
    configured. -/
def requestReset (db : Store.UserDb) (limited : Option ApiError) (smtp : Bool) (email : String)
    (d : ResetDraw) : Store.UserDb × ApiResult (Option ResetMail) :=
  match limited with
  | some e => (db, .error e)
  | none =>
      if !smtp then (db, .error (.badRequest "email delivery is not configured"))
      else
        match db.getByEmail X R d.readAt email with
        | none => (db, .ok none)
        | some u =>
            if u.active then
              match db.createResetToken X u.id d.first d.second d.token with
              | (db', .token token) => (db', .ok (some ⟨email, token, u⟩))
              | (db', _) => (db', .error (.internal S.sessionRefusal))
            else (db, .ok none)

/-- `body.password.len() < 8`. -/
def tooShort (password : String) : Bool := decide ((Text.encode password.toList).length < 8)

/-- `confirm_reset`. -/
def confirmReset (db : Store.UserDb) (token password : String) (d : ResetDraw) :
    Store.UserDb × ApiResult Unit :=
  if tooShort password then (db, .error (.badRequest "password must be at least 8 characters"))
  else
    match db.consumeResetToken X d.first token with
    | (db, none) => (db, .error (.unauthorized "invalid or expired reset token"))
    | (db, some userId) =>
        match db.getById X R d.readAt userId with
        | none => (db, .error (.notFound "user not found"))
        | some user =>
            match S.argon2.hashPassword d.salt password with
            | .error e => (db, .error (.internal s!"password hash error: {e}"))
            | .ok hash =>
                match db.update X { user with passwordHash := some hash } with
                | none => (db, .error (.internal (S.refusal user)))
                | some db => (db, .ok ())

/-! ## Among all other calls -/

/-- A request to the API, as far as it gets to the user store. -/
inductive AccountOp where
  /-- A call of another handler. -/
  | call (e : UserEvent)
  | request (limited : Option ApiError) (smtp : Bool) (email : String) (d : ResetDraw)
  | confirm (token password : String) (d : ResetDraw)

inductive AccountReply where
  | called (reply : Store.UserDb.Reply)
  | requested (reply : ApiResult (Option ResetMail))
  | confirmed (reply : ApiResult Unit)

/-- The requests so far, with what was answered. -/
abbrev AccountLog := List (AccountOp × AccountReply)

namespace AccountOp

/-- No other handler makes or takes reset tokens. -/
def Known : AccountOp → Prop
  | .call e => (∀ userId token, e.call ≠ .createResetToken userId token) ∧
      ∀ token, e.call ≠ .consumeResetToken token
  | .request _ _ _ _ => True
  | .confirm _ _ _ => True

def serve (db : Store.UserDb) : AccountOp → Store.UserDb × AccountReply
  | .call e => ((db.step X R e).1, .called (db.step X R e).2)
  | .request limited smtp email d =>
      ((requestReset X R S db limited smtp email d).1,
        .requested (requestReset X R S db limited smtp email d).2)
  | .confirm token password d =>
      ((confirmReset X R S db token password d).1,
        .confirmed (confirmReset X R S db token password d).2)

def first : AccountOp → DateTime
  | .call e => e.first
  | .request _ _ _ d => d.first
  | .confirm _ _ d => d.first

def second : AccountOp → DateTime
  | .call e => e.second
  | .request _ _ _ d => d.second
  | .confirm _ _ d => d.second

/-- The times have years of four digits. -/
def DatesOk : AccountOp → Prop
  | .call e => e.DatesOk
  | .request _ _ _ d => FourDigitYear d.first ∧ FourDigitYear d.second
  | .confirm _ _ d => FourDigitYear d.first ∧ FourDigitYear d.second

end AccountOp

def nextAccounts (s : Store.UserDb × AccountLog) (op : AccountOp) : Store.UserDb × AccountLog :=
  ((op.serve X R S s.1).1, s.2 ++ [(op, (op.serve X R S s.1).2)])

/-- The store after some requests, and what was answered. -/
def afterOps (ops : List AccountOp) : Store.UserDb × AccountLog :=
  ops.foldl (nextAccounts X R S) (Store.UserDb.fresh, [])

/-- Requests one after the other up to some time. -/
structure Orderly (ops : List AccountOp) (now : DateTime) : Prop where
  order : ops.Pairwise fun a b => a.second ≤ b.first
  clock : ∀ op ∈ ops, op.first ≤ op.second ∧ op.second ≤ now
  dates : ∀ op ∈ ops, op.DatesOk
  known : ∀ op ∈ ops, op.Known

/-! ## What the answers say of a token -/

/-- The answer is neither of the two refusals. -/
def takes : ApiResult Unit → Bool
  | .error (.badRequest _) => false
  | .error (.unauthorized _) => false
  | _ => true

/-- What an answer says of the expiry of a token of a user. -/
def mailEffect (k : String × Uuid) : AccountOp × AccountReply → Effect DateTime
  | (.request _ _ _ d, .requested (.ok (some m))) =>
      if m.token = k.1 ∧ m.user.id = k.2 then .set (resetExpiry d.second) else .keep
  | (.confirm token _ _, .confirmed reply) =>
      if takes reply = true ∧ token = k.1 then .clear else .keep
  | (.call e, .called reply) =>
      match e.call, reply with
      | .delete id, .removed true => if id = k.2 then .clear else .keep
      | _, _ => .keep
  | _ => .keep

/-- The token was mailed, to the address of a user who is active. -/
def Mailed (token : String) (u : User) (mailedAt : DateTime) : AccountOp × AccountReply → Prop
  | (.request limited smtp email d, reply) =>
      limited = none ∧ smtp = true ∧ d.second = mailedAt ∧ u.active = true ∧ u.email = some email ∧
        reply = .requested (.ok (some ⟨email, token, u⟩))
  | _ => False

/-- The token is mailed for the user again or taken, or the user is deleted. -/
def Ends (token : String) (id : Uuid) : AccountOp × AccountReply → Prop
  | (.request _ _ _ _, .requested (.ok (some m))) => m.token = token ∧ m.user.id = id
  | (.confirm used _ _, .confirmed reply) => takes reply = true ∧ used = token
  | (.call e, .called reply) => e.call = .delete id ∧ reply = .removed true
  | _ => False

variable {X R S} {db : Store.UserDb} {d : ResetDraw} {token password : String} {now : DateTime}
  {s : Store.UserDb × AccountLog}

/-! ## What a handler does -/

theorem requestReset_cases (X : External) (R : Rfc3339Reader) (S : SignIn) (db : Store.UserDb)
    (limited : Option ApiError) (smtp : Bool) (email : String) (d : ResetDraw) :
    (∃ reply, requestReset X R S db limited smtp email d = (db, reply) ∧
        ∀ m, reply ≠ .ok (some m)) ∨
      ∃ u, limited = none ∧ smtp = true ∧ db.getByEmail X R d.readAt email = some u ∧
        u.active = true ∧
        ((∃ db' token, db.createResetToken X u.id d.first d.second d.token = (db', .token token) ∧
            requestReset X R S db limited smtp email d = (db', .ok (some ⟨email, token, u⟩))) ∨
          ∃ db' reply e, db.createResetToken X u.id d.first d.second d.token = (db', reply) ∧
            (∀ token, reply ≠ .token token) ∧
            requestReset X R S db limited smtp email d = (db', .error e)) := by
  rw [requestReset.eq_def]
  -- The checks of the handler, in its order.
  cases limited with
  | some e => exact .inl ⟨_, rfl, by rintro _ ⟨⟩⟩
  | none =>
      cases smtp with
      | false => exact .inl ⟨_, rfl, by rintro _ ⟨⟩⟩
      | true =>
          dsimp only
          rw [Bool.not_true, if_neg Bool.false_ne_true]
          cases hfound : db.getByEmail X R d.readAt email with
          | none => exact .inl ⟨_, rfl, by rintro _ ⟨⟩⟩
          | some u =>
              dsimp only
              cases hactive : u.active with
              | false =>
                  rw [if_neg Bool.false_ne_true]
                  exact .inl ⟨_, rfl, by rintro _ ⟨⟩⟩
              | true =>
                  rw [if_pos rfl]
                  refine .inr ⟨u, rfl, rfl, rfl, hactive, ?_⟩
                  rcases hmade : db.createResetToken X u.id d.first d.second d.token with
                    ⟨db', reply⟩
                  -- Drawing a token that is there already fails, and nothing is mailed.
                  cases reply with
                  | token token => exact .inl ⟨db', token, rfl, rfl⟩
                  | _ => exact .inr ⟨db', _, _, rfl, by rintro _ ⟨⟩, rfl⟩

theorem confirmReset_cases (X : External) (R : Rfc3339Reader) (S : SignIn) (db : Store.UserDb)
    (token password : String) (d : ResetDraw) :
    (tooShort password = true ∧ ∃ e, confirmReset X R S db token password d = (db, .error e) ∧
        takes (.error e) = false) ∨
      tooShort password = false ∧
        ((∃ db' e, db.consumeResetToken X d.first token = (db', none) ∧
            confirmReset X R S db token password d = (db', .error e) ∧
            takes (.error e) = false) ∨
          (∃ db' id e, db.consumeResetToken X d.first token = (db', some id) ∧
            confirmReset X R S db token password d = (db', .error e) ∧
            takes (.error e) = true) ∨
          ∃ db' id user hash db'', db.consumeResetToken X d.first token = (db', some id) ∧
            db'.getById X R d.readAt id = some user ∧
            S.argon2.hashPassword d.salt password = .ok hash ∧
            db'.update X { user with passwordHash := some hash } = some db'' ∧
            confirmReset X R S db token password d = (db'', .ok ())) := by
  rw [confirmReset.eq_def]
  cases hshort : tooShort password with
  | true => exact .inl ⟨rfl, _, rfl, rfl⟩
  | false =>
      refine .inr ⟨rfl, ?_⟩
      rw [if_neg Bool.false_ne_true]
      rcases hconsumed : db.consumeResetToken X d.first token with ⟨db', owner⟩
      cases owner with
      -- The token is not good, and stays.
      | none => exact .inl ⟨db', _, rfl, rfl, rfl⟩
      | some id =>
          dsimp only
          cases huser : db'.getById X R d.readAt id with
          -- From here on the token is gone, whatever comes after it.
          | none => exact .inr (.inl ⟨db', id, _, rfl, rfl, rfl⟩)
          | some user =>
              dsimp only
              cases hhash : S.argon2.hashPassword d.salt password with
              | error e => exact .inr (.inl ⟨db', id, _, rfl, rfl, rfl⟩)
              | ok hash =>
                  dsimp only
                  cases hupdate : db'.update X { user with passwordHash := some hash } with
                  | none => exact .inr (.inl ⟨db', id, _, rfl, rfl, rfl⟩)
                  | some db'' =>
                      exact .inr (.inr
                        ⟨db', id, user, hash, db'', rfl, huser, rfl, hupdate, rfl⟩)

/-- A token is taken when the store has it. -/
theorem takes_confirmReset_iff :
    takes (confirmReset X R S db token password d).2 = true ↔
      tooShort password = false ∧ ∃ id, (db.consumeResetToken X d.first token).2 = some id := by
  rcases confirmReset_cases X R S db token password d with
    ⟨hshort, e, hout, hrefused⟩ | ⟨hlong, ⟨db', e, hconsumed, hout, hrefused⟩ |
      ⟨db', id, e, hconsumed, hout, htaken⟩ |
      ⟨db', id, user, hash, db'', hconsumed, -, -, -, hout⟩⟩
  · rw [hout, hrefused, hshort]
    exact iff_of_false Bool.false_ne_true fun h => Bool.noConfusion h.1
  · rw [hout, hrefused, hconsumed]
    refine iff_of_false Bool.false_ne_true ?_
    rintro ⟨-, id, hid⟩
    cases hid
  · rw [hout, hconsumed]
    exact iff_of_true htaken ⟨hlong, id, rfl⟩
  · rw [hout, hconsumed]
    exact iff_of_true rfl ⟨hlong, id, rfl⟩

/-! ## Runs -/

/-- The store is what some history of calls makes of it, and the answers tell of a reset token
    what that history does. -/
structure Tied (X : External) (now : DateTime) (s : Store.UserDb × AccountLog) : Prop where
  history : ∃ h : History, Store.Kept X now (s.1, h) ∧
    ∀ k, replay (resetEffect k) h = replay (mailEffect k) s.2
  constrained : Constrained X s.1
  mailed : ∀ o ∈ s.2, ∀ k expiry, mailEffect k o = .set expiry →
    ∃ u mailedAt, u.id = k.2 ∧ expiry = resetExpiry mailedAt ∧ Mailed k.1 u mailedAt o

theorem Tied.mono {now' : DateTime} (h : Tied X now s) (hle : now ≤ now') : Tied X now' s := by
  obtain ⟨h', hkept, hsame⟩ := h.history
  exact ⟨⟨h', hkept.mono hle, hsame⟩, h.constrained, h.mailed⟩

/-- An answer that comes with no call of the store, or with calls of the same effect. -/
theorem Tied.answer {db' : Store.UserDb} {o : AccountOp × AccountReply} {h h' : History}
    (hs : Tied X now s) (hsame : ∀ k, replay (resetEffect k) h = replay (mailEffect k) s.2)
    (hkept : Store.Kept X now (db', h'))
    (heffect : ∀ k, replay (resetEffect k) h' = (mailEffect k o).apply (replay (resetEffect k) h))
    (hconstrained : Constrained X db')
    (hmailed : ∀ k expiry, mailEffect k o = .set expiry →
      ∃ u mailedAt, u.id = k.2 ∧ expiry = resetExpiry mailedAt ∧ Mailed k.1 u mailedAt o) :
    Tied X now (db', s.2 ++ [o]) := by
  refine ⟨⟨h', hkept, fun k => ?_⟩, hconstrained, fun o' ho' => ?_⟩
  · dsimp only
    rw [replay_concat, heffect, hsame]
  · rcases List.mem_append.mp ho' with hold | hnew
    · exact hs.mailed o' hold
    · rw [List.mem_singleton.mp hnew]
      exact hmailed

/-- One call of the store. -/
theorem kept_step {h : History} {e : UserEvent} (hkept : Store.Kept X now (db, h))
    (hnow : now ≤ e.first) (hdates : e.DatesOk) :
    Store.Kept X e.first ((db.step X R e).1, h ++ [(e, (db.step X R e).2)]) := by
  rw [db.step_eq X R e]
  exact (hkept.purge hnow hdates.1 (purgesExpired_purged X e db)).perform hdates

theorem datesOk_plain {call : UserCall} {first second : DateTime} (hfirst : FourDigitYear first)
    (hsecond : FourDigitYear second) (hcreate : ∀ user, call ≠ .create user)
    (hupdate : ∀ user, call ≠ .update user) : UserEvent.DatesOk ⟨call, first, second⟩ :=
  ⟨hfirst, hsecond, fun user h => h.elim (fun h => absurd h (hcreate user))
    fun h => absurd h (hupdate user)⟩

/-- The effect of another handler's call is its answer's. -/
theorem resetEffect_called {e : UserEvent} (hknown : AccountOp.Known (.call e))
    (reply : Store.UserDb.Reply) (k : String × Uuid) :
    resetEffect k (e, reply) = mailEffect k (.call e, .called reply) := by
  obtain ⟨call, first, second⟩ := e
  obtain ⟨hmake, htake⟩ := hknown
  cases call with
  | createResetToken userId token => exact absurd rfl (hmake userId token)
  | consumeResetToken token => exact absurd rfl (htake token)
  | delete id =>
      cases reply with
      | removed existed => cases existed <;> rfl
      | _ => rfl
  | _ => cases reply <;> rfl

theorem mailEffect_called_ne_set (e : UserEvent) (reply : Store.UserDb.Reply) (k : String × Uuid)
    (expiry : DateTime) : mailEffect k (.call e, .called reply) ≠ .set expiry := by
  intro hset
  obtain ⟨call, first, second⟩ := e
  cases call with
  | delete id =>
      cases reply with
      | removed existed =>
          cases existed with
          | false => cases hset
          | true =>
              change (if id = k.2 then Effect.clear else .keep) = Effect.set expiry at hset
              split at hset
              · cases hset
              · cases hset
      | _ => cases hset
  | _ => cases hset

theorem tied_call {e : UserEvent} (hs : Tied X now s) (hknown : AccountOp.Known (.call e))
    (hnow : now ≤ e.first) (hdates : e.DatesOk) :
    Tied X e.first (nextAccounts X R S s (.call e)) := by
  obtain ⟨h, hkept, hsame⟩ := hs.history
  refine (hs.mono hnow).answer hsame (kept_step (R := R) hkept hnow hdates) (fun k => ?_)
    (constrained_step hs.constrained e) fun k expiry hset => ?_
  · rw [replay_concat, resetEffect_called hknown]
    rfl
  · exact absurd hset (mailEffect_called_ne_set _ _ _ _)

theorem tied_request {limited : Option ApiError} {smtp : Bool} {email : String} (hs : Tied X now s)
    (hnow : now ≤ d.first) (hdates : FourDigitYear d.first ∧ FourDigitYear d.second) :
    Tied X d.first (nextAccounts X R S s (.request limited smtp email d)) := by
  obtain ⟨h, hkept, hsame⟩ := hs.history
  rw [nextAccounts, AccountOp.serve]
  rcases requestReset_cases X R S s.1 limited smtp email d with
    ⟨reply, hout, hnone⟩ | ⟨u, rfl, rfl, hfound, hactive, hmade⟩
  -- Nothing was mailed, so nothing is said of any token.
  · have hkeep : ∀ k, mailEffect k (.request limited smtp email d, .requested reply) = .keep := by
      intro k
      cases reply with
      | error e => rfl
      | ok mail =>
          cases mail with
          | none => rfl
          | some m => exact absurd rfl (hnone m)
    rw [hout]
    refine (hs.mono hnow).answer hsame (hkept.mono hnow) (fun k => ?_) hs.constrained
      fun k expiry hset => ?_
    · rw [hkeep]
      rfl
    · rw [hkeep] at hset
      cases hset
  · have hcall : UserEvent.DatesOk ⟨.createResetToken u.id d.token, d.first, d.second⟩ :=
      datesOk_plain hdates.1 hdates.2 (by rintro _ ⟨⟩) (by rintro _ ⟨⟩)
    have hstep := kept_step (R := R) hkept hnow hcall
    have hconstrained := constrained_step (R := R) hs.constrained
      ⟨.createResetToken u.id d.token, d.first, d.second⟩
    have hcalled : s.1.step X R ⟨.createResetToken u.id d.token, d.first, d.second⟩ =
        s.1.createResetToken X u.id d.first d.second d.token := rfl
    rw [hcalled] at hstep hconstrained
    -- The user was looked up by the address that the mail goes to.
    have hemail : u.email = some email := by
      obtain ⟨r, hr, rfl⟩ := Option.map_eq_some_iff.mp hfound
      have haddress := List.find?_some hr
      exact eq_of_beq haddress
    rcases hmade with ⟨db', token, hmade, hout⟩ | ⟨db', reply, e, hmade, hother, hout⟩
    · rw [hmade] at hstep hconstrained
      rw [hout]
      refine (hs.mono hnow).answer hsame hstep (fun k => ?_) hconstrained fun k expiry hset => ?_
      · rw [replay_concat]
        rfl
      · rw [mailEffect] at hset
        -- The call sets the expiry of the token that was mailed, and of no other.
        split at hset
        · next hk =>
            refine ⟨u, d.second, hk.2, (Effect.set.inj hset).symm, rfl, rfl, rfl, hactive,
              hemail, ?_⟩
            rw [← hk.1]
        · cases hset
    · rw [hmade] at hstep hconstrained
      rw [hout]
      refine (hs.mono hnow).answer hsame hstep (fun k => ?_) hconstrained fun k expiry hset => ?_
      · rw [replay_concat]
        -- No token came of it, and the mail tells of none.
        cases reply with
        | token t => exact absurd rfl (hother t)
        | _ => rfl
      · cases hset

/-- The user of an id is the account that the history made. -/
theorem getById_of_kept {h : History} (hkept : Store.Kept X now (db, h)) (readAt : DateTime)
    (id : Uuid) : db.getById X R readAt id = accountAfter h id := by
  have hget : db.users.get (X.uuidText id) = (accountAfter h id).map (userRow X) :=
    hkept.accounts.get id
  rw [getById, hget]
  cases haccount : accountAfter h id with
  | none => rfl
  | some user =>
      exact congrArg some (rowToUser_userRow X R (hkept.accounts.dates id user haccount) readAt)

theorem tied_confirm (hs : Tied X now s) (hnow : now ≤ d.first)
    (hdates : FourDigitYear d.first ∧ FourDigitYear d.second) :
    Tied X d.first (nextAccounts X R S s (.confirm token password d)) := by
  obtain ⟨h, hkept, hsame⟩ := hs.history
  -- A confirmation mails nothing.
  have hneverMails : ∀ (reply : ApiResult Unit) (k : String × Uuid) (expiry : DateTime),
      mailEffect k (.confirm token password d, .confirmed reply) = .set expiry →
      ∃ u mailedAt, u.id = k.2 ∧ expiry = resetExpiry mailedAt ∧
        Mailed k.1 u mailedAt (.confirm token password d, .confirmed reply) := by
    intro reply k expiry hset
    rw [mailEffect] at hset
    split at hset
    · cases hset
    · cases hset
  -- The call that takes the token is an event of the history.
  have htaking : UserEvent.DatesOk ⟨.consumeResetToken token, d.first, d.second⟩ :=
    datesOk_plain hdates.1 hdates.2 (by rintro _ ⟨⟩) (by rintro _ ⟨⟩)
  have hstep := kept_step (R := R) hkept hnow htaking
  have hconstrained := constrained_step (R := R) hs.constrained
    ⟨.consumeResetToken token, d.first, d.second⟩
  have hcalled : s.1.step X R ⟨.consumeResetToken token, d.first, d.second⟩ =
      ((s.1.consumeResetToken X d.first token).1,
        .owner (s.1.consumeResetToken X d.first token).2) := rfl
  rw [hcalled] at hstep hconstrained
  -- What the client is answered tells whether the token was taken.
  have hrefusedEffect : ∀ (e : ApiError) (k : String × Uuid), takes (.error e) = false →
      mailEffect k (.confirm token password d, .confirmed (.error e)) = .keep := by
    intro e k hrefused
    rw [mailEffect, hrefused, if_neg fun h => Bool.false_ne_true h.1]
  have htakenEffect : ∀ (reply : ApiResult Unit) (k : String × Uuid) (id : Uuid),
      takes reply = true → mailEffect k (.confirm token password d, .confirmed reply) =
        resetEffect k (⟨.consumeResetToken token, d.first, d.second⟩, .owner (some id)) := by
    intro reply k id htaken
    rw [mailEffect, htaken, resetEffect]
    simp only [true_and]
  rw [nextAccounts, AccountOp.serve]
  rcases confirmReset_cases X R S s.1 token password d with
    ⟨-, e, hout, hrefused⟩ | ⟨-, ⟨db', e, hconsumed, hout, hrefused⟩ |
      ⟨db', id, e, hconsumed, hout, htaken⟩ |
      ⟨db', id, user, hash, db'', hconsumed, huser, -, hupdate, hout⟩⟩
  -- Too short: nothing was asked of the store.
  · rw [hout]
    refine (hs.mono hnow).answer hsame (hkept.mono hnow) (fun k => ?_) hs.constrained
      (hneverMails _)
    rw [hrefusedEffect e k hrefused]
    rfl
  -- The token is not good, which changes no token.
  · rw [hconsumed] at hstep hconstrained
    rw [hout]
    refine (hs.mono hnow).answer hsame hstep (fun k => ?_) hconstrained (hneverMails _)
    rw [replay_concat, hrefusedEffect e k hrefused]
    rfl
  -- The token is taken, and the password is not set.
  · rw [hconsumed] at hstep hconstrained
    rw [hout]
    refine (hs.mono hnow).answer hsame hstep (fun k => ?_) hconstrained (hneverMails _)
    rw [replay_concat, htakenEffect _ k id htaken]
  -- The token is taken and the password is set: two events of the history.
  · rw [hconsumed] at hstep hconstrained
    rw [hout]
    rw [getById_of_kept hstep] at huser
    -- The user is one of the store, so the times still have four digits.
    have hsetting : UserEvent.DatesOk
        ⟨.update { user with passwordHash := some hash }, d.first, d.first⟩ := by
      refine ⟨hdates.1, hdates.1, ?_⟩
      rintro u (hcreate | hwrite)
      · cases hcreate
      · rw [← UserCall.update.inj hwrite]
        exact hstep.accounts.dates id user huser
    have hset := kept_step (R := R) hstep (Int.le_refl d.first) hsetting
    have hdone : db'.step X R ⟨.update { user with passwordHash := some hash }, d.first, d.first⟩ =
        (db'', .done) := by
      change ((db'.update X { user with passwordHash := some hash }).getD db',
        if (db'.update X { user with passwordHash := some hash }).isSome
          then Store.UserDb.Reply.done else .failed) = (db'', .done)
      rw [hupdate]
      rfl
    rw [hdone] at hset
    have hwritten := constrained_step (R := R) hconstrained
      ⟨.update { user with passwordHash := some hash }, d.first, d.first⟩
    rw [hdone] at hwritten
    refine (hs.mono hnow).answer hsame hset (fun k => ?_) hwritten (hneverMails _)
    rw [replay_concat, replay_concat, htakenEffect (.ok ()) k id rfl]
    rfl

/-- Each request keeps the store to the answers. -/
theorem tied_next {op : AccountOp} (hs : Tied X now s) (hknown : op.Known) (hnow : now ≤ op.first)
    (hdates : op.DatesOk) : Tied X op.first (nextAccounts X R S s op) := by
  cases op with
  | call e => exact tied_call hs hknown hnow hdates
  | request limited smtp email d => exact tied_request hs hnow hdates
  | confirm token password d => exact tied_confirm hs hnow hdates

theorem Orderly.before {ops : List AccountOp} {op : AccountOp} (h : Orderly (ops ++ [op]) now) :
    Orderly ops op.first ∧ op.first ≤ op.second ∧ op.second ≤ now ∧ op.DatesOk ∧ op.Known := by
  have hlast : op ∈ ops ++ [op] := List.mem_append_right _ (List.mem_singleton_self op)
  obtain ⟨horder, -, hbefore⟩ := List.pairwise_append.mp h.order
  refine ⟨⟨horder, fun a ha => ?_, fun a ha => h.dates a (List.mem_append_left _ ha),
    fun a ha => h.known a (List.mem_append_left _ ha)⟩, (h.clock op hlast).1, (h.clock op hlast).2,
    h.dates op hlast, h.known op hlast⟩
  exact ⟨(h.clock a (List.mem_append_left _ ha)).1, hbefore a ha op (List.mem_singleton_self op)⟩

/-- After any requests the store is as their answers say. -/
theorem tied_afterOps {ops : List AccountOp} (h : Orderly ops now) :
    Tied X now (afterOps X R S ops) := by
  induction ops using List.reverseRecOn generalizing now with
  | nil =>
      have hnone : Timed [] now := ⟨List.Pairwise.nil, fun _ he => absurd he List.not_mem_nil,
        fun _ he => absurd he List.not_mem_nil⟩
      exact ⟨⟨[], kept_run (R := R) hnone, fun k => rfl⟩, constrained_fresh,
        fun _ ho => absurd ho List.not_mem_nil⟩
  | append_singleton ops op ih =>
      obtain ⟨hbefore, hclock, hnow, hdates, hknown⟩ := h.before
      have hnext := tied_next (R := R) (S := S) (ih hbefore) hknown (Int.le_refl _) hdates
      rw [afterOps, List.foldl_append]
      exact hnext.mono (Int.le_trans hclock hnow)

/-! ## Which token is good -/

theorem mailEffect_of_mailed {u : User} {mailedAt : DateTime} {o : AccountOp × AccountReply}
    (h : Mailed token u mailedAt o) : mailEffect (token, u.id) o = .set (resetExpiry mailedAt) := by
  obtain ⟨op, reply⟩ := o
  cases op with
  | call e => exact h.elim
  | confirm used password d => exact h.elim
  | request limited smtp email d =>
      obtain ⟨-, -, rfl, -, -, rfl⟩ := h
      exact if_pos ⟨rfl, rfl⟩

theorem mailEffect_eq_keep_iff {k : String × Uuid} {o : AccountOp × AccountReply} :
    mailEffect k o = .keep ↔ ¬ Ends k.1 k.2 o := by
  have hkeep : ∀ {effect : Effect DateTime} {c : Prop} [Decidable c], effect ≠ .keep →
      ((if c then effect else .keep) = .keep ↔ ¬ c) := by
    intro effect c _ hne
    split
    · next hc => exact iff_of_false hne fun h => h hc
    · next hc => exact iff_of_true rfl hc
  -- An answer to another request than this one says nothing.
  have hidle : ∀ {p : Prop}, ¬ p → ((Effect.keep : Effect DateTime) = .keep ↔ ¬ p) :=
    fun hp => iff_of_true rfl hp
  obtain ⟨op, reply⟩ := o
  cases op with
  | call e =>
      cases reply with
      | requested reply => exact hidle id
      | confirmed reply => exact hidle id
      | called reply =>
          obtain ⟨call, first, second⟩ := e
          -- Of the calls only a deletion that found the user ends his tokens.
          by_cases hdeletes : (∃ id, call = .delete id) ∧ reply = .removed true
          · obtain ⟨⟨id, rfl⟩, rfl⟩ := hdeletes
            refine (hkeep (by rintro ⟨⟩)).trans (not_congr ?_)
            change id = k.2 ↔ UserCall.delete id = .delete k.2 ∧
              Store.UserDb.Reply.removed true = .removed true
            rw [UserCall.delete.injEq, and_iff_left rfl]
          · have hno : ¬ Ends k.1 k.2 (.call ⟨call, first, second⟩, .called reply) :=
              fun h => hdeletes ⟨⟨k.2, h.1⟩, h.2⟩
            refine iff_of_true ?_ hno
            rw [mailEffect]
            · intro id hcall hreply
              exact hdeletes ⟨⟨id, hcall⟩, hreply⟩
  | request limited smtp email d =>
      cases reply with
      | called reply => exact hidle id
      | confirmed reply => exact hidle id
      | requested reply =>
          cases reply with
          | error e => exact hidle id
          | ok mail =>
              cases mail with
              | none => exact hidle id
              -- A new mail takes the place of the token before it.
              | some m => exact hkeep (by rintro ⟨⟩)
  | confirm used password d =>
      cases reply with
      | called reply => exact hidle id
      | requested reply => exact hidle id
      -- Taken and not taken are told apart by the answer.
      | confirmed reply => exact hkeep (by rintro ⟨⟩)

/-- **Which token is good.**  After any requests, a password that is long enough is taken with
    a token exactly when the token was mailed less than half an hour ago, for an active user
    at the address it was asked for, and since then it was not taken and the user not
    deleted. -/
theorem confirmReset_takes_iff (X : External) (R : Rfc3339Reader) (S : SignIn)
    {ops : List AccountOp} {now : DateTime} (h : Orderly ops now) (token password : String)
    {d : ResetDraw} (hnow : now ≤ d.first) (hfirst : FourDigitYear d.first) :
    takes (confirmReset X R S (afterOps X R S ops).1 token password d).2 = true ↔
      8 ≤ (Text.encode password.toList).length ∧
        ∃ b o c u mailedAt, (afterOps X R S ops).2 = b ++ o :: c ∧ Mailed token u mailedAt o ∧
          (∀ o' ∈ c, ¬ Ends token u.id o') ∧ d.first < resetExpiry mailedAt ∧
          FourDigitYear (resetExpiry mailedAt) := by
  have htied := (tied_afterOps (X := X) (R := R) (S := S) h).mono hnow
  obtain ⟨history, hkept, hsame⟩ := htied.history
  rw [takes_confirmReset_iff, tooShort, decide_eq_false_iff_not, Nat.not_lt]
  refine and_congr_right fun _ => ?_
  constructor
  · rintro ⟨id, hid⟩
    obtain ⟨expiry, hexpiry, hlive, hyear⟩ := (hkept.consumeResetToken_iff hfirst).mp hid
    rw [hsame] at hexpiry
    obtain ⟨b, o, c, hlog, hset, hkeep⟩ := replay_eq_some_iff.mp hexpiry
    have ho : o ∈ (afterOps X R S ops).2 := by
      rw [hlog]
      exact List.mem_append_right _ List.mem_cons_self
    obtain ⟨u, mailedAt, hu, rfl, hmailed⟩ := htied.mailed o ho _ _ hset
    refine ⟨b, o, c, u, mailedAt, hlog, hmailed, fun o' ho' => ?_, hlive, hyear⟩
    have hstill := mailEffect_eq_keep_iff.mp (hkeep o' ho')
    rwa [← hu] at hstill
  · rintro ⟨b, o, c, u, mailedAt, hlog, hmailed, hends, hlive, hyear⟩
    refine ⟨u.id, (hkept.consumeResetToken_iff hfirst).mpr ⟨resetExpiry mailedAt, ?_, hlive, hyear⟩⟩
    rw [hsame, hlog]
    exact replay_eq_some_iff.mpr ⟨b, o, c, rfl, mailEffect_of_mailed hmailed,
      fun o' ho' => mailEffect_eq_keep_iff.mpr (hends o' ho')⟩

/-! ## What is set -/

/-- The password of one user is set, and the token is gone.  Whoever is signed in stays so. -/
structure SetsPassword (X : External) (R : Rfc3339Reader) (S : SignIn) (db : Store.UserDb)
    (user : User) (token password hash : String) (out : Store.UserDb × ApiResult Unit) : Prop where
  reply : out.2 = .ok ()
  users : out.1.users = db.users.update (X.uuidText user.id)
    (fun r => { r with passwordHash := some hash }) fun _ => rfl
  sessions : out.1.sessions = db.sessions
  resets : out.1.resets = db.resets.deleteWhere fun r => r.token == token
  login : user.active = true → user.provider = .localAccount → ∀ (other : String) (d : Draw),
    login X R S out.1 none ⟨user.username, other⟩ d =
      if other = password then
        openSession X S out.1 { user with passwordHash := some hash } d
      else (out.1, .error (.unauthorized "invalid username or password"))

/-- A token that is taken is one of a user who is there. -/
theorem exists_user_of_consumed {h : History} {id : Uuid} (hkept : Store.Kept X now (db, h))
    (hconstrained : Constrained X db) (hid : (db.consumeResetToken X now token).2 = some id) :
    db.consumeResetToken X now token =
        ({ db with resets := db.resets.deleteWhere fun r => r.token == token }, some id) ∧
      ∃ user, accountAfter h id = some user := by
  by_cases hlive : ∃ r, db.resets.get token = some r ∧ toRfc3339 now < r.expiresAt
  · obtain ⟨r, hr, hlive⟩ := hlive
    have hconsumed := consumeResetToken_of_live (X := X) hr hlive
    have hrow := (Table.get_eq_some.mp hr).1
    obtain ⟨owner, howner⟩ := hkept.owned.resets r hrow
    have hthere := hconstrained.referred.resets r hrow
    have hget : db.users.get (X.uuidText owner) = (accountAfter h owner).map (userRow X) :=
      hkept.accounts.get owner
    rw [howner, X.uuid_roundTrip] at hconsumed
    rw [hconsumed] at hid
    obtain rfl := Option.some.inj hid
    rw [howner, hget, Option.isSome_map] at hthere
    exact ⟨hconsumed, Option.isSome_iff_exists.mp hthere⟩
  · rw [consumeResetToken_of_not_live fun r hr h => hlive ⟨r, hr, h⟩] at hid
    cases hid

/-- The login of a user whose row is there. -/
theorem login_of_row {user : User} {hash : String} (hkept : WellKept X db) (hdates : DatesOk user)
    (hrow : userRow X user ∈ db.users.rows) (hactive : user.active = true)
    (hprovider : user.provider = .localAccount) (hhash : user.passwordHash = some hash)
    {other : String} {ok : Bool} (hverify : S.argon2.verifyPassword other hash = .ok ok)
    (d : Draw) :
    login X R S db none ⟨user.username, other⟩ d =
      if ok = true then openSession X S db user d
      else (db, .error (.unauthorized "invalid username or password")) := by
  have hfound : db.getByUsername X R d.readAt user.username = some user :=
    (getByUsername_eq_some hkept).mpr ⟨_, hrow, rfl, rowToUser_userRow X R hdates d.readAt⟩
  rw [login, hfound]
  dsimp only
  rw [hactive, hprovider, hhash]
  dsimp only
  rw [hverify]
  cases ok with
  | true => rfl
  | false => rfl

variable (R S) in
/-- The answer to a password that is taken. -/
def Answered (db : Store.UserDb) (token password : String) (d : ResetDraw) (user : User) : Prop :=
  match S.argon2.hashPassword d.salt password with
  | .error e =>
      confirmReset X R S db token password d =
        ({ db with resets := db.resets.deleteWhere fun r => r.token == token },
          .error (.internal s!"password hash error: {e}"))
  | .ok hash =>
      SetsPassword X R S db user token password hash (confirmReset X R S db token password d)

theorem setsPassword_of_user {id : Uuid} {user : User} {hash : String}
    (hconsumed : db.consumeResetToken X d.first token =
      ({ db with resets := db.resets.deleteWhere fun r => r.token == token }, some id))
    (hwritten : Constrained X
      { db with resets := db.resets.deleteWhere fun r => r.token == token })
    (hlong : tooShort password = false) (hfound : db.getById X R d.readAt id = some user)
    (hget : db.users.get (X.uuidText id) = some (userRow X user)) (hid : user.id = id)
    (hdates : DatesOk user) (hhash : S.argon2.hashPassword d.salt password = .ok hash) :
    SetsPassword X R S db user token password hash
      (confirmReset X R S db token password d) := by
  -- The row is the one the user was read from.
  have hkey : db.users.get (X.uuidText user.id) = some (userRow X user) := by
    rw [hid]
    exact hget
  have hupdate := update_of_sameNames (X := X) { user with passwordHash := some hash }
    hwritten.apart hkey ⟨rfl, rfl, rfl⟩
  have hout : confirmReset X R S db token password d =
      ({ users := db.users.update (X.uuidText user.id)
          (setColumns X { user with passwordHash := some hash }) (id_setColumns X _)
         sessions := db.sessions
         resets := db.resets.deleteWhere fun r => r.token == token }, .ok ()) := by
    have hstill : UserDb.getById X R { db with
        resets := db.resets.deleteWhere fun r => r.token == token } d.readAt id = some user :=
      hfound
    rw [confirmReset, hlong, if_neg Bool.false_ne_true, hconsumed]
    dsimp only
    rw [hstill]
    dsimp only
    rw [hhash]
    dsimp only
    rw [hupdate]
  -- Of the columns that `update` sets only the hash is another.
  have hcolumns : db.users.update (X.uuidText user.id)
        (setColumns X { user with passwordHash := some hash }) (id_setColumns X _) =
      db.users.update (X.uuidText user.id) (fun r => { r with passwordHash := some hash })
        fun _ => rfl := by
    refine Table.update_congr _ _ fun r hr => ?_
    rw [hkey] at hr
    rw [← Option.some.inj hr]
    rfl
  -- Names are as before, so the constraints hold, and the login finds this row.
  have hafter := constrained_step (R := R) hwritten
    ⟨.update { user with passwordHash := some hash }, d.first, d.first⟩
  have hstep : (UserDb.step X R
      { db with resets := db.resets.deleteWhere fun r => r.token == token }
      ⟨.update { user with passwordHash := some hash }, d.first, d.first⟩).1 =
      (confirmReset X R S db token password d).1 := by
    rw [hout]
    change (UserDb.update X _ _).getD _ = _
    rw [hupdate]
    rfl
  rw [hstep] at hafter
  refine ⟨by rw [hout], by rw [hout]; exact hcolumns, by rw [hout], by rw [hout], ?_⟩
  intro hactive hprovider other d'
  have hrow : userRow X { user with passwordHash := some hash } ∈
      (confirmReset X R S db token password d).1.users.rows := by
    have hnew := db.users.get_update (X.uuidText user.id)
      (id_setColumns X { user with passwordHash := some hash })
    rw [hout]
    refine (Table.get_eq_some (k := X.uuidText user.id).mp ?_).1
    rw [hnew, Function.update_self, hkey]
    rfl
  have hnewDates : DatesOk { user with passwordHash := some hash } := hdates
  -- Whatever password is tried, the login answers as the new hash does.
  have hlogin := login_of_row (R := R) (S := S) hafter.wellKept hnewDates hrow hactive hprovider rfl
    (S.argon2.verify_hash hhash other) d'
  simp only [decide_eq_true_eq] at hlogin
  exact hlogin

theorem answered_of_consumed {h : History} {id : Uuid} (hkept : Store.Kept X d.first (db, h))
    (hconstrained : Constrained X db) (hlong : tooShort password = false)
    (hid : (db.consumeResetToken X d.first token).2 = some id) :
    ∃ user, user.id = id ∧ db.getById X R d.readAt id = some user ∧
      Answered (X := X) R S db token password d user := by
  obtain ⟨hconsumed, user, huser⟩ := exists_user_of_consumed hkept hconstrained hid
  have hsame := hkept.accounts.id id user huser
  have hfound : db.getById X R d.readAt id = some user :=
    (getById_of_kept hkept d.readAt id).trans huser
  -- The row was written from the account, so reading it gives the user.
  have hget : db.users.get (X.uuidText id) = some (userRow X user) := by
    have hrows : db.users.get (X.uuidText id) = (accountAfter h id).map (userRow X) :=
      hkept.accounts.get id
    rw [hrows, huser]
    rfl
  have hwritten := constrained_step (R := R) hconstrained
    ⟨.consumeResetToken token, d.first, d.first⟩
  have hstep : (db.step X R ⟨.consumeResetToken token, d.first, d.first⟩).1 =
      { db with resets := db.resets.deleteWhere fun r => r.token == token } :=
    congrArg Prod.fst hconsumed
  rw [hstep] at hwritten
  refine ⟨user, hsame, hfound, ?_⟩
  rw [Answered]
  -- Without a hash the handler ends with the token gone.
  cases hhash : S.argon2.hashPassword d.salt password with
  | error e =>
      dsimp only
      rw [confirmReset, hlong, if_neg Bool.false_ne_true, hconsumed]
      dsimp only
      have hstill : UserDb.getById X R { db with
          resets := db.resets.deleteWhere fun r => r.token == token } d.readAt id = some user :=
        hfound
      rw [hstill, hhash]
  | ok hash =>
      dsimp only
      exact setsPassword_of_user hconsumed hwritten hlong hfound hget hsame
        (hkept.accounts.dates id user huser) hhash

/-- **What is set.**  With a token that is good, the password of its user is set when it can be
    hashed.  No other column changes and no session ends; a login of a local user then goes
    by the new password. -/
theorem confirmReset_sets (X : External) (R : Rfc3339Reader) (S : SignIn)
    {ops : List AccountOp} {now : DateTime} (h : Orderly ops now) {token password : String}
    {d : ResetDraw} (hnow : now ≤ d.first)
    (htaken : takes (confirmReset X R S (afterOps X R S ops).1 token password d).2 = true) :
    ∃ user, ((afterOps X R S ops).1.consumeResetToken X d.first token).2 = some user.id ∧
      (afterOps X R S ops).1.getById X R d.readAt user.id = some user ∧
      Answered (X := X) R S (afterOps X R S ops).1 token password d user := by
  have htied := (tied_afterOps (X := X) (R := R) (S := S) h).mono hnow
  obtain ⟨history, hkept, -⟩ := htied.history
  obtain ⟨hlong, id, hid⟩ := takes_confirmReset_iff.mp htaken
  obtain ⟨user, rfl, hfound, hanswered⟩ :=
    answered_of_consumed (R := R) (S := S) hkept htied.constrained hlong hid
  exact ⟨user, hid, hfound, hanswered⟩

/-! ## Samples -/

def erin : User where
  id := 5
  username := "erin"
  email := some "erin@example.org"
  passwordHash := some "hash of old-password"
  role := .operator
  provider := .localAccount
  providerSub := none
  active := true
  createdAt := 0
  lastLogin := none

def resetDraw (token : String) (now : DateTime) : ResetDraw := ⟨token, "salt", now, now, now⟩

/-- Erin is made, asks for a token, and asks for another one. -/
def erinForgets : List AccountOp :=
  [.call ⟨.create erin, 0, 0⟩, .request none true "erin@example.org" (resetDraw "3fa8" 1),
    .request none true "erin@example.org" (resetDraw "77c0" 2)]

theorem orderly_erinForgets : Orderly erinForgets 2 := by
  refine ⟨by decide, by decide, ?_, ?_⟩
  · rw [erinForgets, List.forall_mem_cons, List.forall_mem_cons, List.forall_mem_singleton]
    have hone : FourDigitYear 1 := by decide
    have htwo : FourDigitYear 2 := by decide
    refine ⟨⟨by decide, by decide, fun user huser => ?_⟩, ⟨hone, hone⟩,
      ⟨htwo, htwo⟩⟩
    have hsame : user = erin := by simpa [eq_comm] using huser
    rw [hsame]
    exact ⟨by decide, by rintro t ⟨⟩⟩
  · rw [erinForgets, List.forall_mem_cons, List.forall_mem_cons, List.forall_mem_singleton]
    refine ⟨⟨?_, ?_⟩, trivial, trivial⟩
    · rintro userId token ⟨⟩
    · rintro token ⟨⟩

/-- The first of two tokens is good as well. -/
theorem confirmReset_takes_erin :
    takes (confirmReset .sample .sample .sample (afterOps .sample .sample .sample erinForgets).1
        "3fa8" "new-password" (resetDraw "" 3)).2 = true ∧
      ∃ b o c u mailedAt, (afterOps .sample .sample .sample erinForgets).2 = b ++ o :: c ∧
        Mailed "3fa8" u mailedAt o ∧ (∀ o' ∈ c, ¬ Ends "3fa8" u.id o') ∧
        3 < resetExpiry mailedAt ∧ FourDigitYear (resetExpiry mailedAt) := by
  have htaken : takes (confirmReset .sample .sample .sample
      (afterOps .sample .sample .sample erinForgets).1 "3fa8" "new-password"
        (resetDraw "" 3)).2 = true := by
    decide
  exact ⟨htaken, ((confirmReset_takes_iff .sample .sample .sample orderly_erinForgets "3fa8"
    "new-password" (d := resetDraw "" 3) (by decide) (by decide)).mp htaken).2⟩

theorem confirmReset_sets_erin :
    ∃ user, ((afterOps .sample .sample .sample erinForgets).1.consumeResetToken .sample 3
        "3fa8").2 = some user.id ∧
      (afterOps .sample .sample .sample erinForgets).1.getById .sample .sample 3 user.id =
        some user ∧
      Answered (X := .sample) .sample .sample (afterOps .sample .sample .sample erinForgets).1
        "3fa8" "new-password" (resetDraw "" 3) user :=
  confirmReset_sets .sample .sample .sample orderly_erinForgets (d := resetDraw "" 3) (by decide)
    (by decide)

end Maranode.Api
