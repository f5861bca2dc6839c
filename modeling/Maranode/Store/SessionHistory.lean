/-
  Maranode.Store.SessionHistory

  Histories of the calls of the user store, and what its tables keep of them.

  A history says which call created a token, what deleted or revoked it since, and what
  became of its user.  The tables keep less, as the calls that create tokens purge expired
  rows, and never something else: they stay `Purged` from the history (`Kept`).
-/
import Maranode.Store.UserDb
import Maranode.Lib.Expiry
import Mathlib.Algebra.Order.Group.Int

namespace Maranode.Store

open Lib Lib.Expiry
open Api (User)

/-! ## Calls -/

/-- A call, with the token that is drawn. -/
inductive UserCall where
  | create (user : User)
  | update (user : User)
  | delete (id : Uuid)
  | createSession (userId : Uuid) (ttlHours : Int) (token : String)
  | resolveSession (token : String)
  | deleteSession (token : String)
  | deleteSessionByPrefix (userId : Uuid) (tokenPrefix : String)
  | deleteSessionsForUserExcept (userId : Uuid) (keepToken : String)
  | createResetToken (userId : Uuid) (token : String)
  | consumeResetToken (token : String)
  deriving DecidableEq

/-- A call, with what it reads of the clock. -/
structure UserEvent where
  call : UserCall
  first : DateTime
  second : DateTime
  deriving DecidableEq

variable (X : External) (R : Rfc3339Reader)

namespace UserDb

/-- What is purged before the rest of a call. -/
def purged (db : UserDb) (e : UserEvent) : UserDb :=
  match e.call with
  | .createSession userId _ _ => purgeSessions X db userId e.first
  | .createResetToken _ _ => purgeResets db e.first
  | _ => db

/-- A call that purges nothing. -/
def perform (db : UserDb) (e : UserEvent) : UserDb × Reply :=
  match e.call with
  | .create user =>
      ((db.create X user).getD db, if (db.create X user).isSome then .done else .failed)
  | .update user =>
      ((db.update X user).getD db, if (db.update X user).isSome then .done else .failed)
  | .delete id => ((db.delete X id).1, .removed (db.delete X id).2)
  | .createSession userId ttlHours token => db.issueSession X userId ttlHours e.second token
  | .resolveSession token => (db, .user (db.resolveSession X R e.first e.second token))
  | .deleteSession token => (db.deleteSession token, .done)
  | .deleteSessionByPrefix userId tokenPrefix =>
      (db.deleteSessionByPrefix X userId tokenPrefix, .done)
  | .deleteSessionsForUserExcept userId keepToken =>
      ((db.deleteSessionsForUserExcept X userId keepToken).1,
        .count (db.deleteSessionsForUserExcept X userId keepToken).2)
  | .createResetToken userId token => db.issueReset X userId e.second token
  | .consumeResetToken token =>
      ((db.consumeResetToken X e.first token).1,
        .owner (db.consumeResetToken X e.first token).2)

/-- A call. -/
def step (db : UserDb) (e : UserEvent) : UserDb × Reply :=
  match e.call with
  | .createSession userId ttlHours token =>
      db.createSession X userId ttlHours e.first e.second token
  | .createResetToken userId token => db.createResetToken X userId e.first e.second token
  | _ => db.perform X R e

theorem step_eq (db : UserDb) (e : UserEvent) :
    db.step X R e = (db.purged X e).perform X R e := by
  obtain ⟨call, first, second⟩ := e
  cases call with
  | createSession userId ttlHours token => rfl
  | createResetToken userId token => rfl
  | create user => rfl
  | update user => rfl
  | delete id => rfl
  | resolveSession token => rfl
  | deleteSession token => rfl
  | deleteSessionByPrefix userId tokenPrefix => rfl
  | deleteSessionsForUserExcept userId keepToken => rfl
  | consumeResetToken token => rfl

/-- Replies of calls that change nothing. -/
def Reply.Idle : Reply → Prop
  | .removed existed => existed = false
  | .user _ => True
  | .owner id => id = none
  | .failed => True
  | .panicked => True
  | _ => False

theorem Reply.Idle.cases {reply : Reply} (h : reply.Idle) :
    reply = .removed false ∨ (∃ user, reply = .user user) ∨ reply = .owner none ∨
      reply = .failed ∨ reply = .panicked := by
  cases reply with
  | removed existed => exact .inl (congrArg Reply.removed h)
  | done => exact h.elim
  | token t => exact h.elim
  | user user => exact .inr (.inl ⟨user, rfl⟩)
  | count n => exact h.elim
  | owner id => exact .inr (.inr (.inl (congrArg Reply.owner h)))
  | failed => exact .inr (.inr (.inr (.inl rfl)))
  | panicked => exact .inr (.inr (.inr (.inr rfl)))

/-- What a call that purges nothing does. -/
inductive Performs (db : UserDb) (first second : DateTime) : UserCall → UserDb → Reply → Prop where
  | idle {call reply} (h : reply.Idle) : Performs db first second call db reply
  | create {user users} (h : db.users.insert (userRow X user) = some users) :
      Performs db first second (.create user) { db with users := users } .done
  | update {user} : Performs db first second (.update user)
      { db with
        users := db.users.update (X.uuidText user.id) (setColumns X user) (id_setColumns X user) }
      .done
  | delete {id} : Performs db first second (.delete id)
      { users := db.users.deleteWhere fun r => r.id == X.uuidText id
        sessions := db.sessions.deleteWhere fun r => r.userId == X.uuidText id
        resets := db.resets.deleteWhere fun r => r.userId == X.uuidText id } (.removed true)
  | createSession {userId ttlHours token sessions}
      (h : db.sessions.insert ⟨token, X.uuidText userId, toRfc3339 second,
        toRfc3339 (second + ttlHours * 3600000000000)⟩ = some sessions) :
      Performs db first second (.createSession userId ttlHours token)
        (setLastLogin X { db with sessions := sessions } userId second) (.token token)
  | deleteSession {token} : Performs db first second (.deleteSession token)
      { db with sessions := db.sessions.deleteWhere fun s => s.token == token } .done
  | deleteByPrefix {userId tokenPrefix} :
      Performs db first second (.deleteSessionByPrefix userId tokenPrefix)
        { db with sessions := db.sessions.deleteWhere fun s =>
            s.userId == X.uuidText userId &&
              Like.like (tokenPrefix.toList ++ ['%']) s.token.toList } .done
  | deleteOthers {userId keepToken n} :
      Performs db first second (.deleteSessionsForUserExcept userId keepToken)
        { db with sessions := db.sessions.deleteWhere fun s =>
            s.userId == X.uuidText userId && s.token != keepToken } (.count n)
  | createReset {userId token resets}
      (h : db.resets.insert ⟨token, X.uuidText userId, toRfc3339 (resetExpiry second)⟩ =
        some resets) :
      Performs db first second (.createResetToken userId token) { db with resets := resets }
        (.token token)
  | consumeReset {token r} (h : db.resets.get token = some r)
      (hlive : toRfc3339 first < r.expiresAt) :
      Performs db first second (.consumeResetToken token)
        { db with resets := db.resets.deleteWhere fun r => r.token == token }
        (.owner (X.uuidOfText r.userId))

theorem performs_perform (db : UserDb) (e : UserEvent) :
    Performs X db e.first e.second e.call (db.perform X R e).1 (db.perform X R e).2 := by
  obtain ⟨call, first, second⟩ := e
  -- Each call either does what its constructor says or leaves the tables alone.
  cases call with
  | create user =>
      have hcases := db.create_cases X user
      change Performs X db first second _ ((db.create X user).getD db)
        (if (db.create X user).isSome then .done else .failed)
      rcases hcases with hnone | ⟨users, hinsert, hsome⟩
      · rw [hnone]
        exact .idle trivial
      · rw [hsome]
        exact .create hinsert
  | update user =>
      have hcases := db.update_cases X user
      change Performs X db first second _ ((db.update X user).getD db)
        (if (db.update X user).isSome then .done else .failed)
      rcases hcases with hnone | hsome
      · rw [hnone]
        exact .idle trivial
      · rw [hsome]
        exact .update
  | delete id =>
      change Performs X db first second _ (db.delete X id).1 (.removed (db.delete X id).2)
      rw [delete]
      split
      · exact .delete
      · exact .idle rfl
  | createSession userId ttlHours token =>
      change Performs X db first second _ (db.issueSession X userId ttlHours second token).1
        (db.issueSession X userId ttlHours second token).2
      -- A session needs a user and a fresh token; without them nothing is written.
      rcases db.issueSession_cases X userId ttlHours second token with
        ⟨reply, hsame, rfl | rfl⟩ | ⟨sessions, hinsert, hissued⟩
      · rw [hsame]
        exact .idle trivial
      · rw [hsame]
        exact .idle trivial
      · rw [hissued]
        exact .createSession hinsert
  | resolveSession token => exact .idle trivial
  | deleteSession token => exact .deleteSession
  | deleteSessionByPrefix userId tokenPrefix => exact .deleteByPrefix
  | deleteSessionsForUserExcept userId keepToken => exact .deleteOthers
  | createResetToken userId token =>
      change Performs X db first second _ (db.issueReset X userId second token).1
        (db.issueReset X userId second token).2
      rcases db.issueReset_cases X userId second token with hsame | ⟨resets, hinsert, hissued⟩
      · rw [hsame]
        exact .idle trivial
      · rw [hissued]
        exact .createReset hinsert
  | consumeResetToken token =>
      change Performs X db first second _ (db.consumeResetToken X first token).1
        (.owner (db.consumeResetToken X first token).2)
      -- A live token is taken; an expired or unknown one is answered with nobody.
      by_cases hlive : ∃ r, db.resets.get token = some r ∧ toRfc3339 first < r.expiresAt
      · obtain ⟨r, hr, hlive⟩ := hlive
        rw [consumeResetToken_of_live hr hlive]
        exact .consumeReset hr hlive
      · rw [consumeResetToken_of_not_live fun r hr h => hlive ⟨r, hr, h⟩]
        exact .idle rfl

end UserDb

/-! ## Histories -/

/-- The calls so far, with what they returned. -/
abbrev History := List (UserEvent × UserDb.Reply)

/-- A store over some calls, with their history. -/
def runWith (step : UserDb → UserEvent → UserDb × UserDb.Reply) (events : List UserEvent) :
    UserDb × History :=
  events.foldl (fun s e => ((step s.1 e).1, s.2 ++ [(e, (step s.1 e).2)])) (UserDb.fresh, [])

/-- The calls of the code. -/
def run (events : List UserEvent) : UserDb × History := runWith (UserDb.step X R) events

/-- The same calls in a store that purges nothing. -/
def runUnpurged (events : List UserEvent) : UserDb × History :=
  runWith (UserDb.perform X R) events

theorem runWith_concat (step : UserDb → UserEvent → UserDb × UserDb.Reply)
    (events : List UserEvent) (e : UserEvent) :
    runWith step (events ++ [e]) =
      ((step (runWith step events).1 e).1,
        (runWith step events).2 ++ [(e, (step (runWith step events).1 e).2)]) := by
  rw [runWith, List.foldl_append]
  rfl

/-- What a call makes of the expiry of a token of a user. -/
def sessionEffect (k : String × Uuid) (d : UserEvent × UserDb.Reply) : Effect DateTime :=
  match d.1.call, d.2 with
  | .createSession userId ttlHours _, .token token =>
      if token = k.1 ∧ userId = k.2 then .set (d.1.second + ttlHours * 3600000000000) else .keep
  | .deleteSession token, .done => if token = k.1 then .clear else .keep
  | .deleteSessionByPrefix userId tokenPrefix, .done =>
      if userId = k.2 ∧ Like.like (tokenPrefix.toList ++ ['%']) k.1.toList = true then .clear
      else .keep
  | .deleteSessionsForUserExcept userId keepToken, .count _ =>
      if userId = k.2 ∧ k.1 ≠ keepToken then .clear else .keep
  | .delete id, .removed true => if id = k.2 then .clear else .keep
  | _, _ => .keep

/-- What a call makes of the expiry of a reset token of a user. -/
def resetEffect (k : String × Uuid) (d : UserEvent × UserDb.Reply) : Effect DateTime :=
  match d.1.call, d.2 with
  | .createResetToken userId _, .token token =>
      if token = k.1 ∧ userId = k.2 then .set (UserDb.resetExpiry d.1.second) else .keep
  | .consumeResetToken token, .owner (some _) => if token = k.1 then .clear else .keep
  | .delete id, .removed true => if id = k.2 then .clear else .keep
  | _, _ => .keep

/-- What a call makes of a user. -/
def accountEffect (id : Uuid) (d : UserEvent × UserDb.Reply) (account : Option User) :
    Option User :=
  match d.1.call, d.2 with
  | .create user, .done => if user.id = id then some user else account
  | .update user, .done =>
      if user.id = id then account.map fun old => { user with createdAt := old.createdAt }
      else account
  | .delete id', .removed true => if id' = id then none else account
  | .createSession userId _ _, .token _ =>
      if userId = id then account.map fun old => { old with lastLogin := some d.1.second }
      else account
  | _, _ => account

/-- The user of an id, after a history. -/
def accountAfter (h : History) (id : Uuid) : Option User :=
  h.foldl (fun account d => accountEffect id d account) none

/-- The rows of a token and a user, by their expiry. -/
def entries {ρ : Type} {token : ρ → String} (userId expiresAt : ρ → String) (t : Table token)
    (k : String × Uuid) : Option String :=
  ((t.get k.1).filter fun r => userId r == X.uuidText k.2).map expiresAt

/-! ## Rows of tokens -/

section Entries

variable {X} {ρ : Type} {token userId expiresAt : ρ → String} {t t' : Table token}
  {k : String × Uuid}

theorem entries_eq_some {e : String} : entries X userId expiresAt t k = some e ↔
    ∃ r, t.get k.1 = some r ∧ userId r = X.uuidText k.2 ∧ expiresAt r = e := by
  rw [entries, Option.map_eq_some_iff]
  refine exists_congr fun r => ?_
  rw [Option.filter_eq_some_iff, beq_iff_eq, and_assoc]

/-- A deletion that does not tell the rows of a token and a user apart. -/
theorem entries_deleteWhere {p : ρ → Bool} {c : Prop} [Decidable c]
    (h : ∀ r, token r = k.1 → userId r = X.uuidText k.2 → p r = decide c) :
    entries X userId expiresAt (t.deleteWhere p) k =
      if c then none else entries X userId expiresAt t k := by
  rw [entries, Table.get_deleteWhere, entries]
  cases hr : t.get k.1 with
  | none => rw [Option.filter_none, Option.filter_none, Option.map_none, ite_self]
  | some r =>
      have htoken := (Table.get_eq_some.mp hr).2
      by_cases howner : userId r = X.uuidText k.2
      · have hp := h r htoken howner
        by_cases hc : c
        · simp [Option.filter_some, hp, hc]
        · simp [Option.filter_some, hp, hc]
      · by_cases hc : c
        · simp [Option.filter_some, howner, apply_ite, hc]
        · simp [Option.filter_some, howner, apply_ite, hc]

theorem uuidText_beq (a b : Uuid) : (X.uuidText a == X.uuidText b) = decide (a = b) := by
  by_cases h : a = b
  · rw [h, beq_self_eq_true, decide_eq_true rfl]
  · rw [decide_eq_false h, beq_eq_false_iff_ne]
    exact fun htext => h (uuidText_inj X htext)

theorem entries_deleteUser (id : Uuid) :
    entries X userId expiresAt (t.deleteWhere fun r => userId r == X.uuidText id) k =
      if id = k.2 then none else entries X userId expiresAt t k := by
  refine entries_deleteWhere fun r _ howner => ?_
  rw [howner, uuidText_beq, decide_eq_decide]
  exact eq_comm

theorem entries_deleteToken (deleted : String) :
    entries X userId expiresAt (t.deleteWhere fun r => token r == deleted) k =
      if deleted = k.1 then none else entries X userId expiresAt t k := by
  refine entries_deleteWhere fun r htoken _ => ?_
  rw [htoken, beq_eq_decide, decide_eq_decide]
  exact eq_comm

/-- A row that is inserted is the one of its token, and of no other user. -/
theorem entries_insert {r : ρ} {owner : Uuid} (h : t.insert r = some t')
    (howner : userId r = X.uuidText owner) :
    entries X userId expiresAt t' k =
      if token r = k.1 ∧ owner = k.2 then some (expiresAt r)
      else entries X userId expiresAt t k := by
  have hnone := (Table.insert_eq_some h).1
  rw [entries, Table.get_of_insert h, entries]
  by_cases htoken : token r = k.1
  · rw [← htoken, Function.update_self, hnone, Option.filter_some, howner]
    by_cases hk : owner = k.2
    · rw [hk, if_pos (beq_self_eq_true _), if_pos ⟨rfl, rfl⟩]
      rfl
    · have hne : ¬ (X.uuidText owner == X.uuidText k.2) = true :=
        fun h => hk (uuidText_inj X (eq_of_beq h))
      rw [if_neg hne, if_neg fun h => hk h.2]
      rfl
  · rw [Function.update_of_ne (Ne.symm htoken), if_neg fun h => htoken h.1]

/-- Expired rows go, of one user or of all. -/
theorem entries_purge {p : ρ → Bool} {q : String → Bool}
    (h : ∀ r, token r = k.1 → userId r = X.uuidText k.2 → p r = q (expiresAt r)) :
    entries X userId expiresAt (t.deleteWhere p) k =
      (entries X userId expiresAt t k).filter fun e => !q e := by
  rw [entries, Table.get_deleteWhere, entries]
  cases hr : t.get k.1 with
  | none => rfl
  | some r =>
      have htoken := (Table.get_eq_some.mp hr).2
      by_cases howner : userId r = X.uuidText k.2
      · have hp := h r htoken howner
        cases hq : q (expiresAt r) with
        | true => simp [Option.filter_some, hp, hq, howner]
        | false => simp [Option.filter_some, hp, hq, howner]
      · simp [Option.filter_some, howner, apply_ite]

end Entries

/-! ## What a call does to the tokens -/

abbrev sessionEntries (db : UserDb) : String × Uuid → Option String :=
  entries X SessionRow.userId SessionRow.expiresAt db.sessions

abbrev resetEntries (db : UserDb) : String × Uuid → Option String :=
  entries X ResetRow.userId ResetRow.expiresAt db.resets

/-- The tokens belong to ids. -/
structure Owned (db : UserDb) : Prop where
  sessions : ∀ s ∈ db.sessions.rows, ∃ id, s.userId = X.uuidText id
  resets : ∀ r ∈ db.resets.rows, ∃ id, r.userId = X.uuidText id

variable {X R} {db : UserDb}

theorem sessionEffect_idle {e : UserEvent} {reply : UserDb.Reply} (h : reply.Idle)
    (k : String × Uuid) : sessionEffect k (e, reply) = .keep := by
  obtain ⟨call, first, second⟩ := e
  rcases h.cases with rfl | ⟨user, rfl⟩ | rfl | rfl | rfl
  all_goals cases call <;> rfl

theorem sessionEntries_perform {e : UserEvent} {db' : UserDb} {reply : UserDb.Reply}
    (h : UserDb.Performs X db e.first e.second e.call db' reply) (k : String × Uuid) :
    sessionEntries X db' k =
      ((sessionEffect k (e, reply)).map toRfc3339).apply (sessionEntries X db k) := by
  -- Each call sets, clears or keeps the entry of this token and this user.
  obtain ⟨call, first, second⟩ := e
  cases h with
  | idle h =>
      rw [sessionEffect_idle h]
      rfl
  | create h => rfl
  | update => rfl
  | @delete id => exact (entries_deleteUser id).trans (Effect.apply_clear toRfc3339 _ _).symm
  | @createSession userId ttlHours token sessions h =>
      exact (entries_insert h rfl).trans (Effect.apply_set toRfc3339 _ _ _).symm
  | @deleteSession token =>
      exact (entries_deleteToken token).trans (Effect.apply_clear toRfc3339 _ _).symm
  | @deleteByPrefix userId tokenPrefix =>
      -- The rows that go are those of this user whose token begins so.
      have hrows : ∀ r : SessionRow, r.token = k.1 → r.userId = X.uuidText k.2 →
          (r.userId == X.uuidText userId &&
              Like.like (tokenPrefix.toList ++ ['%']) r.token.toList) =
            decide (userId = k.2 ∧ Like.like (tokenPrefix.toList ++ ['%']) k.1.toList = true) := by
        intro r htoken howner
        have hsame : decide (k.2 = userId) = decide (userId = k.2) := decide_eq_decide.mpr eq_comm
        rw [htoken, howner, uuidText_beq, Bool.decide_and, hsame, Bool.decide_eq_true]
      exact (entries_deleteWhere hrows).trans (Effect.apply_clear toRfc3339 _ _).symm
  | @deleteOthers userId keepToken n =>
      -- All rows of this user go but the one that is kept.
      have hrows : ∀ r : SessionRow, r.token = k.1 → r.userId = X.uuidText k.2 →
          (r.userId == X.uuidText userId && r.token != keepToken) =
            decide (userId = k.2 ∧ k.1 ≠ keepToken) := by
        intro r htoken howner
        have hsame : decide (k.2 = userId) = decide (userId = k.2) := decide_eq_decide.mpr eq_comm
        rw [htoken, howner, uuidText_beq, Bool.decide_and, hsame, bne, beq_eq_decide, decide_not]
      exact (entries_deleteWhere hrows).trans (Effect.apply_clear toRfc3339 _ _).symm
  | createReset h => rfl
  | consumeReset h hlive => rfl

theorem resetEffect_idle {e : UserEvent} {reply : UserDb.Reply} (h : reply.Idle)
    (k : String × Uuid) : resetEffect k (e, reply) = .keep := by
  obtain ⟨call, first, second⟩ := e
  rcases h.cases with rfl | ⟨user, rfl⟩ | rfl | rfl | rfl
  all_goals cases call <;> rfl

theorem resetEntries_perform (howned : Owned X db) {e : UserEvent} {db' : UserDb}
    {reply : UserDb.Reply} (h : UserDb.Performs X db e.first e.second e.call db' reply)
    (k : String × Uuid) :
    resetEntries X db' k =
      ((resetEffect k (e, reply)).map toRfc3339).apply (resetEntries X db k) := by
  obtain ⟨call, first, second⟩ := e
  cases h with
  | idle h =>
      rw [resetEffect_idle h]
      rfl
  | create h => rfl
  | update => rfl
  | @delete id => exact (entries_deleteUser id).trans (Effect.apply_clear toRfc3339 _ _).symm
  | createSession h => rfl
  | deleteSession => rfl
  | deleteByPrefix => rfl
  | deleteOthers => rfl
  | createReset h => exact (entries_insert h rfl).trans (Effect.apply_set toRfc3339 _ _ _).symm
  | @consumeReset token r h hlive =>
      obtain ⟨id, hid⟩ := howned.resets r (Table.get_eq_some.mp h).1
      rw [hid, X.uuid_roundTrip]
      exact (entries_deleteToken token).trans (Effect.apply_clear toRfc3339 _ _).symm

/-- The rows that are left or new belong to ids as well. -/
theorem owned_perform (howned : Owned X db) {first second : DateTime} {call : UserCall}
    {db' : UserDb} {reply : UserDb.Reply}
    (h : UserDb.Performs X db first second call db' reply) : Owned X db' := by
  -- Rows go, or the new one names a user by the text of an id.
  cases h with
  | idle h => exact howned
  | create h => exact ⟨howned.sessions, howned.resets⟩
  | update => exact ⟨howned.sessions, howned.resets⟩
  | delete =>
      exact ⟨fun s hs => howned.sessions s (Table.mem_deleteWhere.mp hs).1,
        fun r hr => howned.resets r (Table.mem_deleteWhere.mp hr).1⟩
  | @createSession userId ttlHours token sessions h =>
      refine ⟨fun s hs => ?_, howned.resets⟩
      have hmem : s ∈ sessions.rows := hs
      rw [(Table.insert_eq_some h).2] at hmem
      rcases List.mem_append.mp hmem with hold | hnew
      · exact howned.sessions s hold
      · rw [List.mem_singleton.mp hnew]
        exact ⟨userId, rfl⟩
  | deleteSession | deleteByPrefix =>
      exact ⟨fun s hs => howned.sessions s (Table.mem_deleteWhere.mp hs).1, howned.resets⟩
  | deleteOthers =>
      exact ⟨fun s hs => howned.sessions s (Table.mem_deleteWhere.mp hs).1, howned.resets⟩
  | @createReset userId token resets h =>
      refine ⟨howned.sessions, fun r hr => ?_⟩
      have hmem : r ∈ resets.rows := hr
      rw [(Table.insert_eq_some h).2] at hmem
      rcases List.mem_append.mp hmem with hold | hnew
      · exact howned.resets r hold
      · rw [List.mem_singleton.mp hnew]
        exact ⟨userId, rfl⟩
  | consumeReset h hlive =>
      exact ⟨howned.sessions, fun r hr => howned.resets r (Table.mem_deleteWhere.mp hr).1⟩

/-! ## What a call does to the users -/

theorem accountEffect_idle {e : UserEvent} {reply : UserDb.Reply} (h : reply.Idle)
    (id : Uuid) (account : Option User) : accountEffect id (e, reply) account = account := by
  obtain ⟨call, first, second⟩ := e
  rcases h.cases with rfl | ⟨user, rfl⟩ | rfl | rfl | rfl
  all_goals cases call <;> rfl

/-- The table of users holds the rows of the accounts. -/
structure Accounts (X : External) (account : Uuid → Option User) (users : Table UserRow.id) :
    Prop where
  get : ∀ id, users.get (X.uuidText id) = (account id).map (userRow X)
  id : ∀ id user, account id = some user → user.id = id
  dates : ∀ id user, account id = some user → DatesOk user

/-- The row and the account of one id change. -/
theorem Accounts.change {account : Uuid → Option User} {users users' : Table UserRow.id}
    (h : Accounts X account users) {owner : Uuid} {f : Option User → Option User}
    (hget : users'.get =
      Function.update users.get (X.uuidText owner) ((f (account owner)).map (userRow X)))
    (hnew : ∀ user, f (account owner) = some user → user.id = owner ∧ DatesOk user) :
    Accounts X (fun id => if owner = id then f (account id) else account id) users' := by
  refine ⟨fun id => ?_, fun id user huser => ?_, fun id user huser => ?_⟩
  · by_cases hid : owner = id
    · rw [if_pos hid, ← hid, hget, Function.update_self]
    · have hne : X.uuidText id ≠ X.uuidText owner := fun heq => hid (uuidText_inj X heq).symm
      rw [if_neg hid, hget, Function.update_of_ne hne, h.get]
  · by_cases hid : owner = id
    · rw [if_pos hid, ← hid] at huser
      rw [← hid]
      exact (hnew user huser).1
    · rw [if_neg hid] at huser
      exact h.id id user huser
  · by_cases hid : owner = id
    · rw [if_pos hid, ← hid] at huser
      exact (hnew user huser).2
    · rw [if_neg hid] at huser
      exact h.dates id user huser

/-- The times a call brings have years of four digits. -/
def UserEvent.DatesOk (e : UserEvent) : Prop :=
  FourDigitYear e.first ∧ FourDigitYear e.second ∧
    ∀ user, e.call = .create user ∨ e.call = .update user → Store.DatesOk user

theorem accounts_perform {account : Uuid → Option User} (haccounts : Accounts X account db.users)
    {e : UserEvent} (hdates : e.DatesOk) {db' : UserDb} {reply : UserDb.Reply}
    (h : UserDb.Performs X db e.first e.second e.call db' reply) :
    Accounts X (fun id => accountEffect id (e, reply) (account id)) db'.users := by
  obtain ⟨call, first, second⟩ := e
  obtain ⟨hfirst, hsecond, husers⟩ := hdates
  -- Four of the calls change an account, and the rows change with it.
  cases h with
  | idle h =>
      have hsame : (fun id => accountEffect id (⟨call, first, second⟩, reply) (account id)) =
          account := funext fun id => accountEffect_idle h id _
      rw [hsame]
      exact haccounts
  | @create user users h =>
      refine haccounts.change (f := fun _ => some user) (Table.get_of_insert h) ?_
      rintro _ ⟨⟩
      exact ⟨rfl, husers user (.inl rfl)⟩
  | @update user =>
      refine haccounts.change (f := Option.map fun old => { user with createdAt := old.createdAt })
        ?_ ?_
      -- The update keeps the row's time of creation and takes the rest from the request.
      · refine (Table.get_update _ _ (UserDb.id_setColumns X user)).trans ?_
        rw [haccounts.get, Option.map_map, Option.map_map]
        have hrow : ∀ old, account user.id = some old →
            (UserDb.setColumns X user ∘ userRow X) old =
              userRow X { user with createdAt := old.createdAt } := by
          intro old hold
          have hid := haccounts.id user.id old hold
          rw [Function.comp_apply, UserDb.setColumns, userRow, userRow, hid]
          rfl
        rw [Option.map_congr fun old hold => hrow old hold]
        rfl
      · intro u hu
        obtain ⟨old, hold, rfl⟩ := Option.map_eq_some_iff.mp hu
        exact ⟨rfl, (haccounts.dates user.id old hold).1, (husers user (.inr rfl)).2⟩
  | @delete id =>
      refine haccounts.change (f := fun _ => none) (Table.get_deleteKey _ fun r => ?_) ?_
      · exact beq_eq_decide _ _
      · rintro _ ⟨⟩
  -- A login only writes the time of the login.
  | @createSession userId ttlHours token sessions h =>
      refine haccounts.change
        (f := Option.map fun old => { old with lastLogin := some second }) ?_ ?_
      · refine (Table.get_update _ _ (UserDb.id_setLogin second)).trans ?_
        rw [haccounts.get, Option.map_map, Option.map_map]
        rfl
      · intro u hu
        obtain ⟨old, hold, rfl⟩ := Option.map_eq_some_iff.mp hu
        refine ⟨haccounts.id userId old hold, (haccounts.dates userId old hold).1, ?_⟩
        intro t ht
        rw [← Option.mem_some_iff.mp ht]
        exact hsecond
  | deleteSession => exact haccounts
  | deleteByPrefix => exact haccounts
  | deleteOthers => exact haccounts
  | createReset h => exact haccounts
  | @consumeReset token r h hlive =>
      cases X.uuidOfText r.userId with
      | none => exact haccounts
      | some id => exact haccounts

/-! ## What is kept of a history -/

/-- The time up to which an expiry reads as one to come. -/
def deadline (expiry : DateTime) : DateTime := if FourDigitYear expiry then expiry else minUtc

/-- The texts are those of the times, but for some that have expired. -/
def Tracks (now : DateTime) (full : String × Uuid → Option DateTime)
    (texts : String × Uuid → Option String) : Prop :=
  ∃ kept : String × Uuid → Option DateTime, (∀ k, texts k = (kept k).map toRfc3339) ∧
    Purged deadline now full kept

theorem lt_deadline {now expiry : DateTime} (hnow : FourDigitYear now) :
    now < deadline expiry ↔ now < expiry ∧ FourDigitYear expiry := by
  rw [deadline]
  split
  · next h => rw [and_iff_left h]
  · next h =>
      refine iff_of_false ?_ fun hlive => h hlive.2
      exact Int.not_lt.mpr (minUtc_le_of_fourDigitYear hnow)

theorem Tracks.mono {now now' : DateTime} {full : String × Uuid → Option DateTime}
    {texts : String × Uuid → Option String} (h : Tracks now full texts) (hle : now ≤ now') :
    Tracks now' full texts := by
  obtain ⟨kept, htexts, hpurged⟩ := h
  exact ⟨kept, htexts, hpurged.mono hle⟩

/-- Texts that have expired are purged. -/
theorem Tracks.purge {now : DateTime} {full : String × Uuid → Option DateTime}
    {texts : String × Uuid → Option String} (h : Tracks now full texts)
    (hnow : FourDigitYear now) {q : String × Uuid → String → Bool}
    (hq : ∀ k s, q k s = true → s < toRfc3339 now) :
    Tracks now full fun k => (texts k).filter fun s => !q k s := by
  obtain ⟨kept, htexts, hpurged⟩ := h
  refine ⟨fun k => (kept k).filter fun t => !q k (toRfc3339 t), fun k => ?_, ?_⟩
  · dsimp only
    rw [htexts, Option.filter_map]
    rfl
  · refine hpurged.retain fun k t ht => ?_
    have hlt := hq k (toRfc3339 t) (by rw [← Bool.not_not (q k _), ht]; rfl)
    refine Int.not_lt.mp fun hlive => ?_
    exact String.lt_asymm hlt ((toRfc3339_lt_iff hnow).mpr ((lt_deadline hnow).mp hlive))

/-- A call has its effect on both. -/
theorem Tracks.apply {now : DateTime} {full : String × Uuid → Option DateTime}
    {texts texts' : String × Uuid → Option String} (h : Tracks now full texts)
    {effect : String × Uuid → Effect DateTime}
    (ht : ∀ k, texts' k = ((effect k).map toRfc3339).apply (texts k)) :
    Tracks now (fun k => (effect k).apply (full k)) texts' := by
  obtain ⟨kept, htexts, hpurged⟩ := h
  refine ⟨fun k => (effect k).apply (kept k), fun k => ?_, hpurged.apply effect⟩
  rw [ht, htexts, Effect.map_apply]

/-- What has not expired is there, and nothing else is alive. -/
theorem Tracks.alive {now : DateTime} {full : String × Uuid → Option DateTime}
    {texts : String × Uuid → Option String} (h : Tracks now full texts)
    (hnow : FourDigitYear now) {k : String × Uuid} :
    (∃ s, texts k = some s ∧ toRfc3339 now < s) ↔
      ∃ expiry, full k = some expiry ∧ now < expiry ∧ FourDigitYear expiry := by
  obtain ⟨kept, htexts, hpurged⟩ := h
  constructor
  · rintro ⟨s, hs, hlt⟩
    rw [htexts] at hs
    obtain ⟨expiry, hkept, rfl⟩ := Option.map_eq_some_iff.mp hs
    exact ⟨expiry, hpurged.eq_some hkept, (toRfc3339_lt_iff hnow).mp hlt⟩
  · rintro ⟨expiry, hfull, hlive⟩
    have hkept := hpurged.of_live hfull ((lt_deadline hnow).mpr hlive)
    refine ⟨toRfc3339 expiry, ?_, (toRfc3339_lt_iff hnow).mpr hlive⟩
    rw [htexts, hkept]
    rfl

/-! ## Runs -/

/-- What is done before a call takes nothing away but what has expired. -/
structure PurgesExpired (X : External) (e : UserEvent) (db db' : UserDb) : Prop where
  users : db'.users = db.users
  sessions : ∃ q : String × Uuid → String → Bool, (∀ k s, q k s = true → s < toRfc3339 e.first) ∧
    ∀ k, sessionEntries X db' k = (sessionEntries X db k).filter fun s => !q k s
  resets : ∃ q : String × Uuid → String → Bool, (∀ k s, q k s = true → s < toRfc3339 e.first) ∧
    ∀ k, resetEntries X db' k = (resetEntries X db k).filter fun s => !q k s
  sessionRows : ∀ s ∈ db'.sessions.rows, s ∈ db.sessions.rows
  resetRows : ∀ r ∈ db'.resets.rows, r ∈ db.resets.rows

theorem PurgesExpired.refl (X : External) (e : UserEvent) (db : UserDb) :
    PurgesExpired X e db db := by
  have hnone : ∀ o : Option String, o = o.filter fun _ => !false := by
    intro o
    cases o with
    | none => rfl
    | some s => rfl
  exact ⟨rfl, ⟨fun _ _ => false, fun _ _ h => Bool.noConfusion h, fun k => hnone _⟩,
    ⟨fun _ _ => false, fun _ _ h => Bool.noConfusion h, fun k => hnone _⟩, fun _ h => h,
    fun _ h => h⟩

theorem purgesExpired_purged (X : External) (e : UserEvent) (db : UserDb) :
    PurgesExpired X e db (db.purged X e) := by
  obtain ⟨call, first, second⟩ := e
  have hsame := PurgesExpired.refl X ⟨call, first, second⟩ db
  cases call with
  | createSession userId ttlHours token =>
      refine ⟨rfl, ⟨fun k s => decide (userId = k.2) && decide (s < toRfc3339 first), ?_, ?_⟩,
        hsame.resets, fun s hs => (Table.mem_deleteWhere.mp hs).1, fun _ h => h⟩
      · intro k s h
        exact of_decide_eq_true (Bool.and_eq_true_iff.mp h).2
      · intro k
        refine entries_purge fun r _ howner => ?_
        have hsame : decide (k.2 = userId) = decide (userId = k.2) := decide_eq_decide.mpr eq_comm
        rw [howner, uuidText_beq, hsame]
  | createResetToken userId token =>
      refine ⟨rfl, hsame.sessions, ⟨fun _ s => decide (s < toRfc3339 first), ?_, ?_⟩,
        fun _ h => h, fun s hs => (Table.mem_deleteWhere.mp hs).1⟩
      · intro k s h
        exact of_decide_eq_true h
      · intro k
        exact entries_purge fun r _ howner => rfl
  | create user => exact hsame
  | update user => exact hsame
  | delete id => exact hsame
  | resolveSession token => exact hsame
  | deleteSession token => exact hsame
  | deleteSessionByPrefix userId tokenPrefix => exact hsame
  | deleteSessionsForUserExcept userId keepToken => exact hsame
  | consumeResetToken token => exact hsame

/-- The tables hold what a history says, but for some that has expired. -/
structure Kept (X : External) (now : DateTime) (s : UserDb × History) : Prop where
  owned : Owned X s.1
  accounts : Accounts X (accountAfter s.2) s.1.users
  sessions : Tracks now (fun k => replay (sessionEffect k) s.2) (sessionEntries X s.1)
  resets : Tracks now (fun k => replay (resetEffect k) s.2) (resetEntries X s.1)

theorem Kept.mono {now now' : DateTime} {s : UserDb × History} (h : Kept X now s)
    (hle : now ≤ now') : Kept X now' s :=
  ⟨h.owned, h.accounts, h.sessions.mono hle, h.resets.mono hle⟩

theorem Kept.purge {now : DateTime} {s : UserDb × History} (h : Kept X now s) {e : UserEvent}
    (hnow : now ≤ e.first) (hfirst : FourDigitYear e.first) {db : UserDb}
    (hpurge : PurgesExpired X e s.1 db) : Kept X e.first (db, s.2) := by
  obtain ⟨q, hq, hsessions⟩ := hpurge.sessions
  obtain ⟨q', hq', hresets⟩ := hpurge.resets
  refine ⟨⟨fun s hs => h.owned.sessions s (hpurge.sessionRows s hs),
    fun r hr => h.owned.resets r (hpurge.resetRows r hr)⟩, ?_, ?_, ?_⟩
  · rw [hpurge.users]
    exact h.accounts
  · rw [funext hsessions]
    exact (h.sessions.mono hnow).purge hfirst hq
  · rw [funext hresets]
    exact (h.resets.mono hnow).purge hfirst hq'

theorem accountAfter_concat (h : History) (d : UserEvent × UserDb.Reply) :
    accountAfter (h ++ [d]) = fun id => accountEffect id d (accountAfter h id) := by
  funext id
  rw [accountAfter, List.foldl_append]
  rfl

/-- One call keeps the tables to the history. -/
theorem Kept.perform {s : UserDb × History} {e : UserEvent} (h : Kept X e.first s)
    (hdates : e.DatesOk) :
    Kept X e.first ((s.1.perform X R e).1, s.2 ++ [(e, (s.1.perform X R e).2)]) := by
  have hperforms := UserDb.performs_perform X R s.1 e
  refine ⟨owned_perform h.owned hperforms, ?_, ?_, ?_⟩
  · rw [accountAfter_concat]
    exact accounts_perform h.accounts hdates hperforms
  · simp only [replay_concat]
    exact h.sessions.apply fun k => sessionEntries_perform hperforms k
  · simp only [replay_concat]
    exact h.resets.apply fun k => resetEntries_perform h.owned hperforms k

/-- Calls one after the other up to some time, all in years of four digits. -/
structure Timed (events : List UserEvent) (now : DateTime) : Prop where
  order : events.Pairwise fun a b => a.second ≤ b.first
  clock : ∀ e ∈ events, e.first ≤ e.second ∧ e.second ≤ now
  dates : ∀ e ∈ events, e.DatesOk

theorem Timed.before {events : List UserEvent} {e : UserEvent} {now : DateTime}
    (h : Timed (events ++ [e]) now) :
    Timed events e.first ∧ e.first ≤ e.second ∧ e.second ≤ now ∧ e.DatesOk := by
  have hlast : e ∈ events ++ [e] := List.mem_append_right _ (List.mem_singleton_self e)
  obtain ⟨horder, -, hbefore⟩ := List.pairwise_append.mp h.order
  refine ⟨⟨horder, fun a ha => ?_, fun a ha => h.dates a (List.mem_append_left _ ha)⟩,
    (h.clock e hlast).1, (h.clock e hlast).2, h.dates e hlast⟩
  exact ⟨(h.clock a (List.mem_append_left _ ha)).1, hbefore a ha e (List.mem_singleton_self e)⟩

/-- After any calls the tables hold what the history says, with the purges or without. -/
theorem kept_runWith {step : UserDb → UserEvent → UserDb × UserDb.Reply}
    (hstep : ∀ db e, ∃ db', PurgesExpired X e db db' ∧ step db e = db'.perform X R e)
    {events : List UserEvent} {now : DateTime} (h : Timed events now) :
    Kept X now (runWith step events) := by
  induction events using List.reverseRecOn generalizing now with
  | nil =>
      have hempty : Tracks now (fun _ => none) fun _ => none :=
        ⟨fun _ => none, fun _ => rfl, Purged.refl _ _⟩
      have howned : Owned X UserDb.fresh :=
        ⟨fun _ hs => absurd hs List.not_mem_nil, fun _ hr => absurd hr List.not_mem_nil⟩
      refine ⟨howned, ⟨fun _ => rfl, ?_, ?_⟩, hempty, hempty⟩
      · rintro _ _ ⟨⟩
      · rintro _ _ ⟨⟩
  | append_singleton events e ih =>
      obtain ⟨hbefore, hclock, hnow, hdates⟩ := h.before
      obtain ⟨db', hpurge, hperform⟩ := hstep (runWith step events).1 e
      have hkept := ((ih hbefore).purge (Int.le_refl _) hdates.1 hpurge).perform (R := R) hdates
      rw [runWith_concat, hperform]
      exact hkept.mono (Int.le_trans hclock hnow)

theorem exists_purged_step (X : External) (R : Rfc3339Reader) (db : UserDb) (e : UserEvent) :
    ∃ db', PurgesExpired X e db db' ∧ db.step X R e = db'.perform X R e :=
  ⟨db.purged X e, purgesExpired_purged X e db, db.step_eq X R e⟩

theorem exists_purged_perform (X : External) (R : Rfc3339Reader) (db : UserDb) (e : UserEvent) :
    ∃ db', PurgesExpired X e db db' ∧ db.perform X R e = db'.perform X R e :=
  ⟨db, .refl X e db, rfl⟩

theorem kept_run {events : List UserEvent} {now : DateTime} (h : Timed events now) :
    Kept X now (run X R events) :=
  kept_runWith (exists_purged_step X R) h

theorem kept_runUnpurged {events : List UserEvent} {now : DateTime} (h : Timed events now) :
    Kept X now (runUnpurged X R events) :=
  kept_runWith (exists_purged_perform X R) h

/-! ## Answers -/

/-- A session is resolved when its expiry is to come and its user is active. -/
theorem Kept.resolveSession_iff {now readAt : DateTime} {s : UserDb × History} (h : Kept X now s)
    (hnow : FourDigitYear now) {token : String} {user : User} :
    s.1.resolveSession X R now readAt token = some user ↔
      (∃ expiry, replay (sessionEffect (token, user.id)) s.2 = some expiry ∧ now < expiry ∧
        FourDigitYear expiry) ∧ accountAfter s.2 user.id = some user ∧ user.active = true := by
  rw [UserDb.resolveSession_eq_some, ← h.sessions.alive hnow]
  constructor
  · rintro ⟨row, urow, hrow, hlive, hurow, hactive, huser⟩
    obtain ⟨id, hid⟩ := h.owned.sessions row (Table.get_eq_some.mp hrow).1
    rw [hid, h.accounts.get] at hurow
    obtain ⟨account, haccount, rfl⟩ := Option.map_eq_some_iff.mp hurow
    rw [rowToUser_userRow X R (h.accounts.dates id account haccount)] at huser
    obtain rfl := huser
    have hsame := h.accounts.id id account haccount
    rw [hsame]
    refine ⟨⟨row.expiresAt, entries_eq_some.mpr ⟨row, hrow, hid, rfl⟩, hlive⟩, haccount, ?_⟩
    by_contra hfalse
    rw [userRow, if_neg hfalse] at hactive
    cases hactive
  · rintro ⟨⟨text, hentry, hlive⟩, haccount, hactive⟩
    obtain ⟨row, hrow, hid, rfl⟩ := entries_eq_some.mp hentry
    refine ⟨row, userRow X user, hrow, hlive, ?_, ?_, ?_⟩
    · rw [hid, h.accounts.get, haccount]
      rfl
    · rw [userRow, if_pos hactive]
    · exact rowToUser_userRow X R (h.accounts.dates user.id user haccount) readAt

/-- A reset token is consumed when its expiry is to come. -/
theorem Kept.consumeResetToken_iff {now : DateTime} {s : UserDb × History} (h : Kept X now s)
    (hnow : FourDigitYear now) {token : String} {id : Uuid} :
    (s.1.consumeResetToken X now token).2 = some id ↔
      ∃ expiry, replay (resetEffect (token, id)) s.2 = some expiry ∧ now < expiry ∧
        FourDigitYear expiry := by
  rw [← h.resets.alive hnow]
  constructor
  · intro hconsumed
    by_cases hlive : ∃ r, s.1.resets.get token = some r ∧ toRfc3339 now < r.expiresAt
    · obtain ⟨r, hr, hlive⟩ := hlive
      obtain ⟨owner, howner⟩ := h.owned.resets r (Table.get_eq_some.mp hr).1
      rw [UserDb.consumeResetToken_of_live hr hlive, howner, X.uuid_roundTrip] at hconsumed
      rw [← Option.some.inj hconsumed]
      exact ⟨r.expiresAt, entries_eq_some.mpr ⟨r, hr, howner, rfl⟩, hlive⟩
    · rw [UserDb.consumeResetToken_of_not_live fun r hr h => hlive ⟨r, hr, h⟩] at hconsumed
      cases hconsumed
  · rintro ⟨text, hentry, hlive⟩
    obtain ⟨r, hr, howner, rfl⟩ := entries_eq_some.mp hentry
    rw [UserDb.consumeResetToken_of_live hr hlive, howner]
    exact X.uuid_roundTrip id

end Maranode.Store
