/-
  Maranode.Store.Sessions

  Sessions and reset tokens.

  What the store answers is what the history of its calls says (`answers_history`), and a
  store that purges nothing gives the same answers, but for the number of sessions that are
  revoked.
-/
import Maranode.Store.SessionHistory

namespace Maranode.Store

open Lib Lib.Expiry
open Api (User)

variable {X : External} {R : Rfc3339Reader} {db : UserDb}

/-! ## With and without the purges -/

/-- The same reply, or counts of rows. -/
def UserDb.Reply.Agrees (a b : UserDb.Reply) : Prop :=
  a = b ∨ ∃ n m, a = .count n ∧ b = .count m

/-- The same calls, with replies that agree. -/
def AgreeOn (h h' : History) : Prop :=
  List.Forall₂ (fun d d' => d.1 = d'.1 ∧ d.2.Agrees d'.2) h h'

theorem sessionEffect_agrees {e : UserEvent} {a b : UserDb.Reply} (h : a.Agrees b)
    (k : String × Uuid) : sessionEffect k (e, a) = sessionEffect k (e, b) := by
  rcases h with rfl | ⟨n, m, rfl, rfl⟩
  · rfl
  · obtain ⟨call, first, second⟩ := e
    cases call <;> rfl

theorem resetEffect_agrees {e : UserEvent} {a b : UserDb.Reply} (h : a.Agrees b)
    (k : String × Uuid) : resetEffect k (e, a) = resetEffect k (e, b) := by
  rcases h with rfl | ⟨n, m, rfl, rfl⟩
  · rfl
  · obtain ⟨call, first, second⟩ := e
    cases call <;> rfl

theorem accountEffect_agrees {e : UserEvent} {a b : UserDb.Reply} (h : a.Agrees b) (id : Uuid)
    (account : Option User) :
    accountEffect id (e, a) account = accountEffect id (e, b) account := by
  rcases h with rfl | ⟨n, m, rfl, rfl⟩
  · rfl
  · obtain ⟨call, first, second⟩ := e
    cases call <;> rfl

theorem foldl_of_forall₂ {α δ : Type} {r : δ → δ → Prop} {f : α → δ → α}
    (hf : ∀ a d d', r d d' → f a d = f a d') {h h' : List δ} (hr : List.Forall₂ r h h') (a : α) :
    h.foldl f a = h'.foldl f a := by
  induction hr generalizing a with
  | nil => rfl
  | cons hd _ ih => rw [List.foldl_cons, List.foldl_cons, hf a _ _ hd, ih]

/-- Histories that agree say the same. -/
theorem AgreeOn.same {h h' : History} (hagree : AgreeOn h h') :
    (∀ k, replay (sessionEffect k) h = replay (sessionEffect k) h') ∧
      (∀ k, replay (resetEffect k) h = replay (resetEffect k) h') ∧
      accountAfter h = accountAfter h' := by
  refine ⟨fun k => foldl_of_forall₂ ?_ hagree none, fun k => foldl_of_forall₂ ?_ hagree none,
    funext fun id => foldl_of_forall₂ ?_ hagree none⟩
  · rintro entry ⟨e, a⟩ ⟨_, b⟩ ⟨rfl, hd⟩
    rw [sessionEffect_agrees hd]
  · rintro entry ⟨e, a⟩ ⟨_, b⟩ ⟨rfl, hd⟩
    rw [resetEffect_agrees hd]
  · rintro account ⟨e, a⟩ ⟨_, b⟩ ⟨rfl, hd⟩
    exact accountEffect_agrees hd id account

/-- The token a call draws for a session. -/
def UserEvent.sessionToken (e : UserEvent) : Option String :=
  match e.call with
  | .createSession _ _ token => some token
  | _ => none

/-- The token a call draws for a reset. -/
def UserEvent.resetToken (e : UserEvent) : Option String :=
  match e.call with
  | .createResetToken _ token => some token
  | _ => none

/-- No token is drawn twice. -/
def DrawnOnce (events : List UserEvent) : Prop :=
  (events.filterMap UserEvent.sessionToken).Nodup ∧ (events.filterMap UserEvent.resetToken).Nodup

/-- A call adds no row but one of the token it draws. -/
theorem rows_perform (e : UserEvent) :
    (∀ s ∈ (db.perform X R e).1.sessions.rows,
      s ∈ db.sessions.rows ∨ e.sessionToken = some s.token) ∧
    ∀ r ∈ (db.perform X R e).1.resets.rows,
      r ∈ db.resets.rows ∨ e.resetToken = some r.token := by
  have hperforms := UserDb.performs_perform X R db e
  obtain ⟨call, first, second⟩ := e
  generalize (db.perform X R ⟨call, first, second⟩).1 = db' at hperforms ⊢
  generalize (db.perform X R ⟨call, first, second⟩).2 = reply at hperforms
  -- A row that is there after the call was there before, or its token was drawn by it.
  cases hperforms with
  | idle h => exact ⟨fun s hs => .inl hs, fun r hr => .inl hr⟩
  | create h => exact ⟨fun s hs => .inl hs, fun r hr => .inl hr⟩
  | update => exact ⟨fun s hs => .inl hs, fun r hr => .inl hr⟩
  | delete =>
      exact ⟨fun s hs => .inl (Table.mem_deleteWhere.mp hs).1,
        fun r hr => .inl (Table.mem_deleteWhere.mp hr).1⟩
  | @createSession userId ttlHours token sessions h =>
      refine ⟨fun s hs => ?_, fun r hr => .inl hr⟩
      have hmem : s ∈ sessions.rows := hs
      rw [(Table.insert_eq_some h).2] at hmem
      refine (List.mem_append.mp hmem).imp_right fun hnew => ?_
      rw [List.mem_singleton.mp hnew]
      rfl
  | deleteSession | deleteByPrefix =>
      exact ⟨fun s hs => .inl (Table.mem_deleteWhere.mp hs).1, fun r hr => .inl hr⟩
  | deleteOthers =>
      exact ⟨fun s hs => .inl (Table.mem_deleteWhere.mp hs).1, fun r hr => .inl hr⟩
  | @createReset userId token resets h =>
      refine ⟨fun s hs => .inl hs, fun r hr => ?_⟩
      have hmem : r ∈ resets.rows := hr
      rw [(Table.insert_eq_some h).2] at hmem
      refine (List.mem_append.mp hmem).imp_right fun hnew => ?_
      rw [List.mem_singleton.mp hnew]
      rfl
  | consumeReset h hlive =>
      exact ⟨fun s hs => .inl hs, fun r hr => .inl (Table.mem_deleteWhere.mp hr).1⟩

/-- The tokens of the tables were drawn. -/
theorem rows_runWith {step : UserDb → UserEvent → UserDb × UserDb.Reply}
    (hstep : ∀ db e, ∃ db', PurgesExpired X e db db' ∧ step db e = db'.perform X R e)
    (events : List UserEvent) :
    (∀ s ∈ (runWith step events).1.sessions.rows,
      s.token ∈ events.filterMap UserEvent.sessionToken) ∧
    ∀ r ∈ (runWith step events).1.resets.rows,
      r.token ∈ events.filterMap UserEvent.resetToken := by
  induction events using List.reverseRecOn with
  | nil => exact ⟨fun _ hs => absurd hs List.not_mem_nil, fun _ hr => absurd hr List.not_mem_nil⟩
  | append_singleton events e ih =>
      obtain ⟨db', hpurge, hperform⟩ := hstep (runWith step events).1 e
      obtain ⟨hsessions, hresets⟩ := @rows_perform X R db' e
      rw [runWith_concat, hperform, List.filterMap_append, List.filterMap_append]
      constructor
      · intro s hs
        rw [List.mem_append]
        rcases hsessions s hs with hold | hnew
        · exact .inl (ih.1 s (hpurge.sessionRows s hold))
        · exact .inr (List.mem_filterMap.mpr ⟨e, List.mem_singleton_self e, hnew⟩)
      · intro r hr
        rw [List.mem_append]
        rcases hresets r hr with hold | hnew
        · exact .inl (ih.2 r (hpurge.resetRows r hold))
        · exact .inr (List.mem_filterMap.mpr ⟨e, List.mem_singleton_self e, hnew⟩)

/-- Replies that agree and the same users. -/
def UserDb.Alike (a b : UserDb × UserDb.Reply) : Prop := a.2.Agrees b.2 ∧ a.1.users = b.1.users

section Agreement

variable {users : Table UserRow.id} {sessions sessions' : Table SessionRow.token}
  {resets resets' : Table ResetRow.token}

/-- Calls about users are about the table of users. -/
theorem alike_create (user : User) (first second : DateTime) :
    UserDb.Alike (UserDb.perform X R ⟨users, sessions, resets⟩ ⟨.create user, first, second⟩)
      (UserDb.perform X R ⟨users, sessions', resets'⟩ ⟨.create user, first, second⟩) := by
  have hcreate : ∀ s r, UserDb.create X ⟨users, s, r⟩ user =
      if UserDb.taken ⟨users, sessions, resets⟩ (X.uuidText user.id) user then none
      else (users.insert (userRow X user)).map fun users => ⟨users, s, r⟩ := fun _ _ => rfl
  rw [UserDb.perform, UserDb.perform]
  dsimp only
  rw [hcreate, hcreate]
  split
  · exact ⟨.inl rfl, rfl⟩
  · cases users.insert (userRow X user) with
    | none => exact ⟨.inl rfl, rfl⟩
    | some users => exact ⟨.inl rfl, rfl⟩

theorem alike_update (user : User) (first second : DateTime) :
    UserDb.Alike (UserDb.perform X R ⟨users, sessions, resets⟩ ⟨.update user, first, second⟩)
      (UserDb.perform X R ⟨users, sessions', resets'⟩ ⟨.update user, first, second⟩) := by
  have hupdate : ∀ s r, UserDb.update X ⟨users, s, r⟩ user =
      if (users.get (X.uuidText user.id)).isSome &&
        UserDb.taken ⟨users, sessions, resets⟩ (X.uuidText user.id) user then none
      else some ⟨users.update (X.uuidText user.id) (UserDb.setColumns X user)
        (UserDb.id_setColumns X user), s, r⟩ := fun _ _ => rfl
  rw [UserDb.perform, UserDb.perform]
  dsimp only
  rw [hupdate, hupdate]
  split
  · exact ⟨.inl rfl, rfl⟩
  · exact ⟨.inl rfl, rfl⟩

theorem alike_delete (id : Uuid) (first second : DateTime) :
    UserDb.Alike (UserDb.perform X R ⟨users, sessions, resets⟩ ⟨.delete id, first, second⟩)
      (UserDb.perform X R ⟨users, sessions', resets'⟩ ⟨.delete id, first, second⟩) := by
  rw [UserDb.perform, UserDb.perform]
  dsimp only
  rw [UserDb.delete, UserDb.delete]
  dsimp only
  split
  · exact ⟨.inl rfl, rfl⟩
  · exact ⟨.inl rfl, rfl⟩

/-- A session is issued in both stores or in neither. -/
theorem alike_createSession (userId : Uuid) (ttlHours : Int) (token : String)
    (first second : DateTime) (h : sessions.get token = none) (h' : sessions'.get token = none) :
    UserDb.Alike
      (UserDb.perform X R ⟨users, sessions, resets⟩
        ⟨.createSession userId ttlHours token, first, second⟩)
      (UserDb.perform X R ⟨users, sessions', resets'⟩
        ⟨.createSession userId ttlHours token, first, second⟩) := by
  rw [UserDb.perform, UserDb.perform]
  dsimp only
  rw [UserDb.issueSession, UserDb.issueSession]
  dsimp only
  cases UserDb.addHours second ttlHours with
  | none => exact ⟨.inl rfl, rfl⟩
  | some expires =>
      dsimp only
      split
      · exact ⟨.inl rfl, rfl⟩
      · have hinserted : ∀ t : Table SessionRow.token, t.get token = none → ∃ t', t.insert
            ⟨token, X.uuidText userId, toRfc3339 second, toRfc3339 expires⟩ = some t' :=
          fun t ht => Table.exists_insert ht
        obtain ⟨_, hinsert⟩ := hinserted sessions h
        obtain ⟨_, hinsert'⟩ := hinserted sessions' h'
        rw [hinsert, hinsert']
        exact ⟨.inl rfl, rfl⟩

/-- A reset token is issued in both stores or in neither. -/
theorem alike_createResetToken (userId : Uuid) (token : String) (first second : DateTime)
    (h : resets.get token = none) (h' : resets'.get token = none) :
    UserDb.Alike
      (UserDb.perform X R ⟨users, sessions, resets⟩
        ⟨.createResetToken userId token, first, second⟩)
      (UserDb.perform X R ⟨users, sessions', resets'⟩
        ⟨.createResetToken userId token, first, second⟩) := by
  rw [UserDb.perform, UserDb.perform]
  dsimp only
  rw [UserDb.issueReset, UserDb.issueReset]
  dsimp only
  split
  · exact ⟨.inl rfl, rfl⟩
  · have hinserted : ∀ t : Table ResetRow.token, t.get token = none → ∃ t', t.insert
        ⟨token, X.uuidText userId, toRfc3339 (UserDb.resetExpiry second)⟩ = some t' :=
      fun t ht => Table.exists_insert ht
    obtain ⟨_, hinsert⟩ := hinserted resets h
    obtain ⟨_, hinsert'⟩ := hinserted resets' h'
    rw [hinsert, hinsert']
    exact ⟨.inl rfl, rfl⟩

theorem users_consumeResetToken (now : DateTime) (token : String) :
    (db.consumeResetToken X now token).1.users = db.users := by
  rw [UserDb.consumeResetToken]
  split
  · rfl
  · rfl

/-- A call on two stores with the same users, the same answers and neither of them with the
    token that is drawn. -/
theorem alike_perform {db' : UserDb} {e : UserEvent} (husers : db.users = db'.users)
    (hsession : ∀ t, e.sessionToken = some t →
      db.sessions.get t = none ∧ db'.sessions.get t = none)
    (hreset : ∀ t, e.resetToken = some t → db.resets.get t = none ∧ db'.resets.get t = none)
    (hresolve : ∀ t, db.resolveSession X R e.first e.second t =
      db'.resolveSession X R e.first e.second t)
    (hconsume : ∀ t, (db.consumeResetToken X e.first t).2 =
      (db'.consumeResetToken X e.first t).2) :
    UserDb.Alike (db.perform X R e) (db'.perform X R e) := by
  obtain ⟨users, sessions, resets⟩ := db
  obtain ⟨users', sessions', resets'⟩ := db'
  obtain rfl : users = users' := husers
  obtain ⟨call, first, second⟩ := e
  -- The users are the same and the drawn token is new to both, so both do the same.
  cases call with
  | create user => exact alike_create user first second
  | update user => exact alike_update user first second
  | delete id => exact alike_delete id first second
  | createSession userId ttlHours token =>
      obtain ⟨h, h'⟩ := hsession token rfl
      exact alike_createSession userId ttlHours token first second h h'
  | resolveSession token => exact ⟨.inl (congrArg UserDb.Reply.user (hresolve token)), rfl⟩
  | deleteSession token => exact ⟨.inl rfl, rfl⟩
  | deleteSessionByPrefix userId tokenPrefix => exact ⟨.inl rfl, rfl⟩
  | deleteSessionsForUserExcept userId keepToken => exact ⟨.inr ⟨_, _, rfl, rfl⟩, rfl⟩
  | createResetToken userId token =>
      obtain ⟨h, h'⟩ := hreset token rfl
      exact alike_createResetToken userId token first second h h'
  -- What the answer to a token is, the hypothesis says.
  | consumeResetToken token =>
      refine ⟨.inl (congrArg UserDb.Reply.owner (hconsume token)), ?_⟩
      have hleft := @users_consumeResetToken X ⟨users, sessions, resets⟩ first token
      have hright := @users_consumeResetToken X ⟨users, sessions', resets'⟩ first token
      exact hleft.trans hright.symm

end Agreement

/-- A token that was not drawn before is in no row. -/
theorem get_eq_none_of_drawn {ρ : Type} {token : ρ → String} {table : Table token}
    {draw : UserEvent → Option String} {events : List UserEvent} {e : UserEvent}
    (hrows : ∀ r ∈ table.rows, token r ∈ events.filterMap draw)
    (hdrawn : ((events ++ [e]).filterMap draw).Nodup) {t : String} (ht : draw e = some t) :
    table.get t = none := by
  rw [List.filterMap_append, List.nodup_append] at hdrawn
  rw [Table.get_eq_none]
  rintro r hr rfl
  have hlast : token r ∈ [e].filterMap draw :=
    List.mem_filterMap.mpr ⟨e, List.mem_singleton_self e, ht⟩
  exact hdrawn.2.2 (token r) (hrows r hr) (token r) hlast rfl

/-- Two stores that keep histories which agree give the same answers. -/
theorem Kept.same_answers {now : DateTime} {s s' : UserDb × History} (h : Kept X now s)
    (h' : Kept X now s') (hagree : AgreeOn s.2 s'.2) (hnow : FourDigitYear now) :
    (∀ readAt t, s.1.resolveSession X R now readAt t = s'.1.resolveSession X R now readAt t) ∧
      ∀ t, (s.1.consumeResetToken X now t).2 = (s'.1.consumeResetToken X now t).2 := by
  obtain ⟨hsessions, hresets, haccounts⟩ := hagree.same
  constructor
  · intro readAt t
    ext user
    rw [h.resolveSession_iff hnow, h'.resolveSession_iff hnow, hsessions, haccounts]
  · intro t
    ext id
    rw [h.consumeResetToken_iff hnow, h'.consumeResetToken_iff hnow, hresets]

/-- Without the purges every call returns the same, but for counts of rows. -/
theorem agreeOn_run {events : List UserEvent} {now : DateTime} (h : Timed events now)
    (hdrawn : DrawnOnce events) :
    AgreeOn (run X R events).2 (runUnpurged X R events).2 ∧
      (run X R events).1.users = (runUnpurged X R events).1.users := by
  -- The induction is on the calls from the back: the last one meets two states alike.
  induction events using List.reverseRecOn generalizing now with
  | nil => exact ⟨.nil, rfl⟩
  | append_singleton events e ih =>
      obtain ⟨hbefore, -, -, hdates⟩ := h.before
      have hdrawn' : DrawnOnce events := by
        obtain ⟨hsession, hreset⟩ := hdrawn
        rw [List.filterMap_append] at hsession hreset
        exact ⟨(List.nodup_append.mp hsession).1, (List.nodup_append.mp hreset).1⟩
      obtain ⟨hagree, husers⟩ := ih hbefore hdrawn'
      -- Both runs keep the rows that are still live, the purged one after its purge as well.
      have hkept := @kept_run X R events e.first hbefore
      have hkept' := @kept_runUnpurged X R events e.first hbefore
      have hrows := rows_runWith (exists_purged_step X R) events
      have hrows' := rows_runWith (exists_purged_perform X R) events
      have hpurge := purgesExpired_purged X e (run X R events).1
      obtain ⟨hresolve, hconsume⟩ :=
        (hkept.purge (Int.le_refl _) hdates.1 hpurge).same_answers (R := R) hkept' hagree hdates.1
      have halike : UserDb.Alike (((run X R events).1.purged X e).perform X R e)
          ((runUnpurged X R events).1.perform X R e) := by
        -- The last call draws a token that neither run has seen.
        refine alike_perform (hpurge.users.trans husers) ?_ ?_ (hresolve e.second) hconsume
        · intro t ht
          have hkeptRows : ∀ s ∈ ((run X R events).1.purged X e).sessions.rows,
              s.token ∈ events.filterMap UserEvent.sessionToken :=
            fun s hs => hrows.1 s (hpurge.sessionRows s hs)
          exact ⟨get_eq_none_of_drawn hkeptRows hdrawn.1 ht,
            get_eq_none_of_drawn hrows'.1 hdrawn.1 ht⟩
        · intro t ht
          have hkeptRows : ∀ r ∈ ((run X R events).1.purged X e).resets.rows,
              r.token ∈ events.filterMap UserEvent.resetToken :=
            fun r hr => hrows.2 r (hpurge.resetRows r hr)
          exact ⟨get_eq_none_of_drawn hkeptRows hdrawn.2 ht,
            get_eq_none_of_drawn hrows'.2 hdrawn.2 ht⟩
      -- Both runs take one step more.
      have hrun : run X R (events ++ [e]) =
          ((((run X R events).1.purged X e).perform X R e).1,
            (run X R events).2 ++ [(e, (((run X R events).1.purged X e).perform X R e).2)]) := by
        rw [run, runWith_concat, UserDb.step_eq]
        rfl
      have hrun' : runUnpurged X R (events ++ [e]) =
          (((runUnpurged X R events).1.perform X R e).1,
            (runUnpurged X R events).2 ++ [(e, ((runUnpurged X R events).1.perform X R e).2)]) :=
        runWith_concat _ events e
      rw [hrun, hrun']
      refine ⟨List.rel_append hagree (.cons ⟨rfl, halike.1⟩ .nil), halike.2⟩

/-! ## The store and the histories -/

/-- The session was created for the user, nothing has deleted or revoked it since, the user
    is there and active, and the session is alive. -/
def SessionAlive (alive : DateTime → DateTime → Prop) (h : History) (now : DateTime)
    (token : String) (user : User) : Prop :=
  ∃ before d after expiry, h = before ++ d :: after ∧
    sessionEffect (token, user.id) d = .set expiry ∧
    (∀ d' ∈ after, sessionEffect (token, user.id) d' = .keep) ∧
    alive now expiry ∧ accountAfter h user.id = some user ∧ user.active = true

/-- The reset token was created for the user, nothing has consumed it since nor deleted the
    user, and the token is alive. -/
def ResetAlive (alive : DateTime → DateTime → Prop) (h : History) (now : DateTime)
    (token : String) (id : Uuid) : Prop :=
  ∃ before d after expiry, h = before ++ d :: after ∧ resetEffect (token, id) d = .set expiry ∧
    (∀ d' ∈ after, resetEffect (token, id) d' = .keep) ∧ alive now expiry

/-- Before the expiry, which is not later than the year 9999. -/
def AliveText (now expiry : DateTime) : Prop := now < expiry ∧ FourDigitYear expiry

/-- The sessions that are resolved after some calls are those alive. -/
def ResolvesAlive (X : External) (R : Rfc3339Reader) (alive : DateTime → DateTime → Prop)
    (events : List UserEvent) (now : DateTime) : Prop :=
  ∀ readAt token user, (run X R events).1.resolveSession X R now readAt token = some user ↔
    SessionAlive alive (run X R events).2 now token user

/-- The reset tokens that are consumed after some calls are those alive. -/
def ConsumesAlive (X : External) (R : Rfc3339Reader) (alive : DateTime → DateTime → Prop)
    (events : List UserEvent) (now : DateTime) : Prop :=
  ∀ token id, ((run X R events).1.consumeResetToken X now token).2 = some id ↔
    ResetAlive alive (run X R events).2 now token id

/-- **Sessions and reset tokens.**  What the store answers after any calls is what their
    history says, and without the purges it would answer the same. -/
theorem answers_history {events : List UserEvent} {now : DateTime} (h : Timed events now)
    (hnow : FourDigitYear now) :
    ResolvesAlive X R AliveText events now ∧ ConsumesAlive X R AliveText events now ∧
      (DrawnOnce events → AgreeOn (run X R events).2 (runUnpurged X R events).2) := by
  have hkept := @kept_run X R events now h
  refine ⟨fun readAt token user => ?_, fun token id => ?_, fun hdrawn => (agreeOn_run h hdrawn).1⟩
  · rw [hkept.resolveSession_iff hnow]
    constructor
    · rintro ⟨⟨expiry, hreplay, halive⟩, haccount⟩
      obtain ⟨before, d, after, hh, hd, hafter⟩ := replay_eq_some_iff.mp hreplay
      exact ⟨before, d, after, expiry, hh, hd, hafter, halive, haccount⟩
    · rintro ⟨before, d, after, expiry, hh, hd, hafter, halive, haccount⟩
      exact ⟨⟨expiry, replay_eq_some_iff.mpr ⟨before, d, after, hh, hd, hafter⟩, halive⟩, haccount⟩
  · rw [hkept.consumeResetToken_iff hnow]
    constructor
    · rintro ⟨expiry, hreplay, halive⟩
      obtain ⟨before, d, after, hh, hd, hafter⟩ := replay_eq_some_iff.mp hreplay
      exact ⟨before, d, after, expiry, hh, hd, hafter, halive⟩
    · rintro ⟨before, d, after, expiry, hh, hd, hafter, halive⟩
      exact ⟨expiry, replay_eq_some_iff.mpr ⟨before, d, after, hh, hd, hafter⟩, halive⟩

def bob : User where
  id := 1
  username := "bob"
  email := none
  passwordHash := none
  role := .viewer
  provider := .localAccount
  providerSub := none
  active := true
  createdAt := 0
  lastLogin := none

/-- A session of an hour, another one two hours later, and the revocation of all but that. -/
def twoSessions : List UserEvent :=
  [⟨.create bob, 0, 0⟩, ⟨.createSession 1 1 "a", 0, 0⟩,
    ⟨.createSession 1 1 "b", 7200000000000, 7200000000000⟩,
    ⟨.deleteSessionsForUserExcept 1 "b", 7200000000000, 7200000000000⟩]

/-- A session that ends with the year 9999. -/
def longSession : List UserEvent :=
  [⟨.create bob, 0, 0⟩, ⟨.createSession 1 70389528 "a", 0, 0⟩]

theorem datesOk_bob : DatesOk bob := by
  refine ⟨by decide +kernel, ?_⟩
  rintro t ⟨⟩

theorem timed_twoSessions : Timed twoSessions 7200000000000 := by
  refine ⟨by decide, by decide, ?_⟩
  have hclock : ∀ e ∈ twoSessions, FourDigitYear e.first ∧ FourDigitYear e.second := by
    decide +kernel
  have husers : ∀ e ∈ twoSessions, ∀ user,
      e.call = .create user ∨ e.call = .update user → user = bob := by
    simp [twoSessions, eq_comm]
  intro e he
  refine ⟨(hclock e he).1, (hclock e he).2, fun user huser => ?_⟩
  rw [husers e he user huser]
  exact datesOk_bob

theorem answers_history_twoSessions :
    ResolvesAlive .sample .sample AliveText twoSessions 7200000000000 ∧
      ConsumesAlive .sample .sample AliveText twoSessions 7200000000000 ∧
      AgreeOn (run .sample .sample twoSessions).2 (runUnpurged .sample .sample twoSessions).2 := by
  have hnow : FourDigitYear 7200000000000 := by decide +kernel
  have hanswers := @answers_history .sample .sample twoSessions 7200000000000 timed_twoSessions
    hnow
  have hdrawn : DrawnOnce twoSessions := by
    refine ⟨?_, ?_⟩
    · decide
    · decide
  exact ⟨hanswers.1, hanswers.2.1, hanswers.2.2 hdrawn⟩

theorem history_longSession : (run .sample .sample longSession).2 =
    [(⟨.create bob, 0, 0⟩, .done), (⟨.createSession 1 70389528 "a", 0, 0⟩, .token "a")] := by
  decide +kernel

/-- A session that ends after the year 9999 is not resolved, and the purges are seen in the
    number of sessions that are revoked. -/
theorem not_answers_longSession :
    ¬ ResolvesAlive .sample .sample (· < ·) longSession 0 ∧
      (run .sample .sample twoSessions).2 ≠ (runUnpurged .sample .sample twoSessions).2 := by
  constructor
  · intro hresolves
    have hsession : SessionAlive (· < ·) (run .sample .sample longSession).2 0 "a"
        { bob with lastLogin := some 0 } := by
      rw [history_longSession]
      refine ⟨[_], _, [], 253402300800000000000, rfl, rfl, ?_, by decide, rfl, rfl⟩
      exact fun _ h => absurd h List.not_mem_nil
    have hresolved := (hresolves 0 "a" _).mpr hsession
    revert hresolved
    decide +kernel
  · intro hsame
    have hreplies := congrArg (List.map Prod.snd) hsame
    revert hreplies
    decide +kernel

end Maranode.Store
