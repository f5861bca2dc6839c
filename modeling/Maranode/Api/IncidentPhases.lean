/-
  Maranode.Api.IncidentPhases

  What becomes of one incident over the requests about it: the order of its phases, the
  entry that resolves it, and the requests that are answered with an error.

  `transition_phase` changes the incident in the handle before it writes the file, and
  looks at no phase; `investigate` checks the phase itself and `resolve` does not.
-/
import Maranode.Api.Incident

namespace Maranode.Api

open Lib Lib.Run

/-! ## One incident -/

def IncidentPhase.rank : IncidentPhase → Nat
  | .declared => 0
  | .investigating => 1
  | .resolved => 2

/-- The entries of the log that say it is resolved. -/
def IncidentState.resolvedEntries (inc : IncidentState) : List PhaseEntry :=
  inc.phaseLog.filter fun e => decide (e.phase = .resolved)

/-- The log has as many of them as the phase says: one or none. -/
def IncidentState.Logged (inc : IncidentState) : Prop :=
  inc.resolvedEntries.length = if inc.phase = .resolved then 1 else 0

/-- The same incident, later: its phase did not go back, and once it was resolved nothing
    of it changed. -/
structure IncidentState.Follows (inc inc' : IncidentState) : Prop where
  id : inc'.id = inc.id
  phase : inc.phase.rank ≤ inc'.phase.rank
  fixed : inc.phase = .resolved → inc' = inc

theorem IncidentState.Follows.refl (inc : IncidentState) : inc.Follows inc :=
  ⟨rfl, Nat.le_refl _, fun _ => rfl⟩

theorem IncidentState.Follows.trans {inc inc' inc'' : IncidentState} (h : inc.Follows inc')
    (h' : inc'.Follows inc'') : inc.Follows inc'' := by
  refine ⟨h'.id.trans h.id, h.phase.trans h'.phase, fun hres => ?_⟩
  obtain rfl := h.fixed hres
  exact h'.fixed hres

theorem IncidentState.logged_new (id declaredBy reason : String) (webhookUrls : List String)
    (now : DateTime) : (IncidentState.new id declaredBy reason webhookUrls now).Logged := rfl

theorem IncidentState.phase_transition (inc : IncidentState) (newPhase : IncidentPhase)
    (by_ : String) (note : Option String) (at_ resolvedAt : DateTime) :
    (inc.transition newPhase by_ note at_ resolvedAt).phase = newPhase := by
  rw [IncidentState.transition]
  split_ifs <;> rfl

theorem IncidentState.id_transition (inc : IncidentState) (newPhase : IncidentPhase)
    (by_ : String) (note : Option String) (at_ resolvedAt : DateTime) :
    (inc.transition newPhase by_ note at_ resolvedAt).id = inc.id := by
  rw [IncidentState.transition]
  split_ifs <;> rfl

theorem IncidentState.phaseLog_transition (inc : IncidentState) (newPhase : IncidentPhase)
    (by_ : String) (note : Option String) (at_ resolvedAt : DateTime) :
    (inc.transition newPhase by_ note at_ resolvedAt).phaseLog
      = inc.phaseLog ++ [⟨newPhase, at_, by_, note⟩] := by
  rw [IncidentState.transition]
  split_ifs <;> rfl

/-- The log grows, so nothing is as it was. -/
theorem IncidentState.transition_ne (inc : IncidentState) (newPhase : IncidentPhase)
    (by_ : String) (note : Option String) (at_ resolvedAt : DateTime) :
    inc.transition newPhase by_ note at_ resolvedAt ≠ inc := by
  intro h
  have hlen := congrArg (fun i : IncidentState => i.phaseLog.length) h
  rw [phaseLog_transition, List.length_append, List.length_singleton] at hlen
  omega

/-- A transition of an incident that is not resolved. -/
theorem IncidentState.Logged.transition {inc : IncidentState} (h : inc.Logged)
    (hres : inc.phase ≠ .resolved) (newPhase : IncidentPhase) (by_ : String)
    (note : Option String) (at_ resolvedAt : DateTime) :
    (inc.transition newPhase by_ note at_ resolvedAt).Logged := by
  rw [Logged, resolvedEntries, if_neg hres] at h
  rw [Logged, resolvedEntries, phaseLog_transition, phase_transition, List.filter_append,
    List.length_append, h, Nat.zero_add, List.filter_singleton]
  by_cases hnew : newPhase = .resolved
  · rw [decide_eq_true hnew, if_pos hnew]
    rfl
  · rw [decide_eq_false hnew, if_neg hnew]
    rfl

theorem IncidentState.follows_transition {inc : IncidentState} {newPhase : IncidentPhase}
    (hres : inc.phase ≠ .resolved) (hrank : inc.phase.rank ≤ newPhase.rank) (by_ : String)
    (note : Option String) (at_ resolvedAt : DateTime) :
    inc.Follows (inc.transition newPhase by_ note at_ resolvedAt) := by
  refine ⟨id_transition .., ?_, fun h => absurd h hres⟩
  rw [phase_transition]
  exact hrank

/-! ## Requests -/

/-- `declare`, `investigate` and `resolve`. -/
def IncidentOp.IsRequest : IncidentOp → Prop
  | .declare _ _ | .investigate _ _ | .resolve _ _ => True
  | .land _ _ | .restart => False

/-- What a request is answered. -/
def IncidentSys.answer (s : IncidentSys) : IncidentOp → IncidentReply
  | .declare req aw => (s.declare req aw).2
  | .investigate req aw => (s.investigate req aw).2
  | .resolve req aw => (s.resolve req aw).2
  | .land _ _ | .restart => .gone

def IncidentReply.IsError : IncidentReply → Prop
  | .refused _ | .persistFailed => True
  | .gone | .done _ _ => False

/-- The request declares this incident. -/
def IncidentOp.Declares (inc : IncidentState) : IncidentOp → Prop
  | .declare req _ =>
      inc = IncidentState.new req.id req.username req.reason req.webhookUrls req.now
  | _ => False

/-- The incident in the handle moves forward, or makes place for a new one once it is
    resolved; an incident that is resolved was resolved once; and an error leaves the
    handle as it was. -/
structure IncidentSys.Orderly (s : IncidentSys) (op : IncidentOp) : Prop where
  forward : ∀ inc, s.guard = some inc → ∃ inc', (s.next op).guard = some inc' ∧
    (inc.Follows inc' ∨ inc.phase = .resolved ∧ op.Declares inc')
  once : ∀ inc, (s.next op).guard = some inc → inc.Logged
  unchanged : (s.answer op).IsError → (s.next op).guard = s.guard

/-- The write is answered with an error. -/
def PersistEnd.Failed (p : PersistEnd) : Prop := ∃ w, p = .returned w ∧ w ≠ .written

/-- An investigation that starts and a resolve that gets to the incident have their write
    succeed, and the incident that is resolved was not yet. -/
def Guarded (s : IncidentSys) : IncidentOp → Prop
  | .investigate req aw =>
      req.permitted = true → aw.locked = true →
        (∃ inc, s.guard = some inc ∧ inc.phase = .declared) → ¬ aw.persist.Failed
  | .resolve req aw =>
      req.permitted = true → aw.locked = true → ∀ inc, s.guard = some inc →
        inc.phase ≠ .resolved ∧ ¬ aw.persist.Failed
  | .declare _ _ | .land _ _ | .restart => True

variable {s : IncidentSys} {op : IncidentOp}

/-- The incident in the handle has its log right. -/
def IncidentSys.Logged (s : IncidentSys) : Prop := ∀ inc, s.guard = some inc → inc.Logged

theorem IncidentSys.logged_fresh : IncidentSys.fresh.Logged := fun _ h => by cases h

/-- A request that leaves the handle as it was. -/
theorem IncidentSys.Logged.orderly_of_same (h : s.Logged) (hsame : (s.next op).guard = s.guard) :
    s.Orderly op := by
  refine ⟨fun inc hinc => ⟨inc, hsame.trans hinc, .inl (.refl inc)⟩, fun inc hinc => ?_,
    fun _ => hsame⟩
  exact h inc (hsame.symm.trans hinc)

/-- A transition of an incident that is not resolved, without an error. -/
theorem IncidentSys.Logged.orderly_of_transition (h : s.Logged) {inc : IncidentState}
    (hguard : s.guard = some inc) (hres : inc.phase ≠ .resolved) {newPhase : IncidentPhase}
    (hrank : inc.phase.rank ≤ newPhase.rank) {req : PhaseRequest}
    (hnext : (s.next op).guard
      = some (inc.transition newPhase req.username req.note req.at_ req.resolvedAt))
    (hanswer : ¬ (s.answer op).IsError) : s.Orderly op := by
  refine ⟨fun inc' hinc' => ?_, fun inc' hinc' => ?_, fun herror => absurd herror hanswer⟩
  · obtain rfl := Option.some.inj (hguard.symm.trans hinc')
    exact ⟨_, hnext, .inl (IncidentState.follows_transition hres hrank ..)⟩
  · obtain rfl := Option.some.inj (hnext.symm.trans hinc')
    exact (h inc hguard).transition hres ..

/-- A transition with an error is not orderly, whatever the phase. -/
theorem IncidentSys.not_orderly_of_error {inc : IncidentState} (hguard : s.guard = some inc)
    {newPhase : IncidentPhase} {req : PhaseRequest}
    (hnext : (s.next op).guard
      = some (inc.transition newPhase req.username req.note req.at_ req.resolvedAt))
    (hanswer : (s.answer op).IsError) : ¬ s.Orderly op := by
  intro horderly
  have hsame := hnext.symm.trans ((horderly.unchanged hanswer).trans hguard)
  exact IncidentState.transition_ne _ _ _ _ _ _ (Option.some.inj hsame)

/-- Nor is one of an incident that is resolved. -/
theorem IncidentSys.not_orderly_of_resolved {inc : IncidentState} (hguard : s.guard = some inc)
    (hres : inc.phase = .resolved) {newPhase : IncidentPhase} {req : PhaseRequest}
    (hnext : (s.next op).guard
      = some (inc.transition newPhase req.username req.note req.at_ req.resolvedAt))
    (hnew : ∀ inc', ¬ op.Declares inc') : ¬ s.Orderly op := by
  intro horderly
  obtain ⟨inc', hinc', hfollows | ⟨-, hdeclares⟩⟩ := horderly.forward inc hguard
  · obtain rfl := Option.some.inj (hnext.symm.trans hinc')
    exact IncidentState.transition_ne _ _ _ _ _ _ (hfollows.fixed hres)
  · exact hnew inc' hdeclares

/-! ## What each request makes of the handle -/

theorem IncidentSys.transition_guard (inc : IncidentState) (newPhase : IncidentPhase)
    (req : PhaseRequest) (p : PersistEnd) :
    (s.transition inc newPhase req p).guard
      = some (inc.transition newPhase req.username req.note req.at_ req.resolvedAt) :=
  IncidentSys.persist_guard _ _ _

/-- `declare` leaves the handle as it was, or fills it when no incident is active. -/
theorem IncidentSys.declare_guard (s : IncidentSys) (req : DeclareRequest) (aw : Awaits) :
    (s.declare req aw).1.guard = s.guard ∨
    (s.guard.any (·.isActive) = false ∧ ¬ (s.declare req aw).2.IsError ∧
      (s.declare req aw).1.guard = some
        (IncidentState.new req.id req.username req.reason req.webhookUrls req.now)) := by
  rw [IncidentSys.declare]
  split_ifs with hperm hlock hactive hcut
  · exact .inl rfl
  · exact .inl rfl
  · exact .inl rfl
  · exact .inl (IncidentSys.persist_guard _ _ _)
  · exact .inr ⟨Bool.eq_false_of_not_eq_true hactive, id, rfl⟩

theorem PersistEnd.not_failed_dropped : ¬ PersistEnd.dropped.Failed := by
  rintro ⟨w, hw, -⟩
  cases hw

theorem PersistEnd.failed_returned_iff {w : WriteEnd} :
    (PersistEnd.returned w).Failed ↔ w ≠ .written := by
  constructor
  · rintro ⟨w', hw, hne⟩
    rwa [PersistEnd.returned.inj hw]
  · exact fun hne => ⟨w, rfl, hne⟩

/-- How a request to a phase ends: with an error exactly when its write failed, whatever it
    leaves before the write and after it. -/
theorem IncidentSys.phaseReply_spec {moved written : IncidentSys} {guard : Option IncidentState}
    (hmoved : moved.guard = guard) (hwritten : written.guard = guard) (aw : Awaits) (incidentId : String)
    (phase : IncidentPhase) :
    let out : IncidentSys × IncidentReply :=
      match aw.persist with
      | .dropped => (moved, .gone)
      | .returned .written => (written, if aw.finished then .done incidentId phase else .gone)
      | .returned _ => (moved, .persistFailed)
    out.1.guard = guard ∧ (out.2.IsError ↔ aw.persist.Failed) := by
  rcases aw.persist with (_ | _ | _) | _
  · refine ⟨hwritten, iff_of_false ?_ fun hfailed => PersistEnd.failed_returned_iff.mp hfailed rfl⟩
    cases aw.finished <;> exact id
  · exact ⟨hmoved, iff_of_true trivial (PersistEnd.failed_returned_iff.mpr fun h => by cases h)⟩
  · exact ⟨hmoved, iff_of_true trivial (PersistEnd.failed_returned_iff.mpr fun h => by cases h)⟩
  · exact ⟨hmoved, iff_of_false id PersistEnd.not_failed_dropped⟩

/-- `investigate` leaves the handle as it was, or moves on what was declared. -/
theorem IncidentSys.investigate_guard (s : IncidentSys) (req : PhaseRequest) (aw : Awaits) :
    ((s.investigate req aw).1.guard = s.guard ∧
      ¬ (req.permitted = true ∧ aw.locked = true ∧
        ∃ inc, s.guard = some inc ∧ inc.phase = .declared)) ∨
    (req.permitted = true ∧ aw.locked = true ∧ ∃ inc, s.guard = some inc ∧ inc.phase = .declared ∧
      (s.investigate req aw).1.guard
        = some (inc.transition .investigating req.username req.note req.at_ req.resolvedAt) ∧
      ((s.investigate req aw).2.IsError ↔ aw.persist.Failed)) := by
  rw [IncidentSys.investigate]
  -- Permission, lock, record, phase: each turns the request down by itself.
  by_cases hperm : req.permitted = false
  · rw [if_pos hperm]
    exact .inl ⟨rfl, fun h => Bool.false_ne_true (hperm.symm.trans h.1)⟩
  by_cases hlock : aw.locked = false
  · rw [if_neg hperm, if_pos hlock]
    exact .inl ⟨rfl, fun h => Bool.false_ne_true (hlock.symm.trans h.2.1)⟩
  rw [if_neg hperm, if_neg hlock]
  cases hguard : s.guard with
  | none =>
      refine .inl ⟨hguard, ?_⟩
      rintro ⟨-, -, inc, hinc, -⟩
      cases hinc
  | some inc =>
      dsimp only
      by_cases hphase : inc.phase = .declared
      · rw [if_neg (not_not.mpr hphase)]
        refine .inr ⟨Bool.eq_true_of_not_eq_false hperm, Bool.eq_true_of_not_eq_false hlock, inc, rfl,
          hphase, ?_⟩
        -- The guard holds the new record whether or not it could be saved.
        have hmoved := transition_guard (s := s) inc .investigating req aw.persist
        exact phaseReply_spec hmoved hmoved aw inc.id .investigating
      · rw [if_pos hphase]
        refine .inl ⟨hguard, ?_⟩
        rintro ⟨-, -, inc', hinc', hdeclared⟩
        exact hphase (Option.some.inj hinc' ▸ hdeclared)

/-- `resolve` resolves what is there. -/
theorem IncidentSys.resolve_guard (s : IncidentSys) (req : PhaseRequest) (aw : Awaits) :
    ((s.resolve req aw).1.guard = s.guard ∧
      ¬ (req.permitted = true ∧ aw.locked = true ∧ s.guard ≠ none)) ∨
    (req.permitted = true ∧ aw.locked = true ∧ ∃ inc, s.guard = some inc ∧
      (s.resolve req aw).1.guard
        = some (inc.transition .resolved req.username req.note req.at_ req.resolvedAt) ∧
      ((s.resolve req aw).2.IsError ↔ aw.persist.Failed)) := by
  rw [IncidentSys.resolve]
  by_cases hperm : req.permitted = false
  · rw [if_pos hperm]
    exact .inl ⟨rfl, fun h => Bool.false_ne_true (hperm.symm.trans h.1)⟩
  by_cases hlock : aw.locked = false
  · rw [if_neg hperm, if_pos hlock]
    exact .inl ⟨rfl, fun h => Bool.false_ne_true (hlock.symm.trans h.2.1)⟩
  rw [if_neg hperm, if_neg hlock]
  cases hguard : s.guard with
  | none => exact .inl ⟨hguard, fun h => h.2.2 rfl⟩
  | some inc =>
      dsimp only
      refine .inr ⟨Bool.eq_true_of_not_eq_false hperm, Bool.eq_true_of_not_eq_false hlock, inc, rfl,
        ?_⟩
      have hmoved := transition_guard (s := s) inc .resolved req aw.persist
      have hcleared : ({ s.transition inc .resolved req aw.persist with
          auditFrozen := false } : IncidentSys).guard = _ := hmoved
      exact phaseReply_spec hmoved hcleared aw inc.id .resolved

/-! ## Requests in order -/

/-- A request is orderly exactly when it is guarded. -/
theorem IncidentSys.Logged.orderly_iff (h : s.Logged) (hop : op.IsRequest) :
    s.Orderly op ↔ Guarded s op := by
  cases op with
  | land i w => exact hop.elim
  | restart => exact hop.elim
  | declare req aw =>
      refine iff_of_true ?_ trivial
      rcases s.declare_guard req aw with hsame | ⟨hactive, hanswer, hnew⟩
      · exact h.orderly_of_same hsame
      -- A declare takes the place of a resolved record, or of none.
      · refine ⟨fun inc hinc => ⟨_, hnew, .inr ⟨?_, rfl⟩⟩, fun inc hinc => ?_,
          fun herror => absurd herror hanswer⟩
        · rw [hinc] at hactive
          exact not_not.mp (of_decide_eq_false hactive)
        · rw [← Option.some.inj (hnew.symm.trans hinc)]
          exact IncidentState.logged_new ..
  | investigate req aw =>
      rcases s.investigate_guard req aw with
        ⟨hsame, hnot⟩ | ⟨hperm, hlock, inc, hguard, hphase, hnext, hanswer⟩
      · exact iff_of_true (h.orderly_of_same hsame)
          fun hperm hlock hdeclared => (hnot ⟨hperm, hlock, hdeclared⟩).elim
      · have hres : inc.phase ≠ .resolved := by
          -- The phase before an investigation is declared, so the record is not resolved.
          rw [hphase]
          exact fun hno => by cases hno
        -- A save that fails is answered an error, and the phase has moved all the same.
        by_cases hfailed : aw.persist.Failed
        · refine iff_of_false (not_orderly_of_error hguard hnext (hanswer.mpr hfailed)) fun hok => ?_
          exact hok hperm hlock ⟨inc, hguard, hphase⟩ hfailed
        · refine iff_of_true ?_ fun _ _ _ => hfailed
          refine h.orderly_of_transition hguard hres ?_ hnext (mt hanswer.mp hfailed)
          rw [hphase]
          exact Nat.zero_le _
  | resolve req aw =>
      rcases s.resolve_guard req aw with
        ⟨hsame, hnot⟩ | ⟨hperm, hlock, inc, hguard, hnext, hanswer⟩
      · refine iff_of_true (h.orderly_of_same hsame) fun hperm hlock inc hinc => ?_
        refine (hnot ⟨hperm, hlock, fun hnone => ?_⟩).elim
        cases hinc.symm.trans hnone
      -- `resolve` does not look at the phase, so a resolved record is resolved again.
      · by_cases hres : inc.phase = .resolved
        · refine iff_of_false (not_orderly_of_resolved hguard hres hnext fun _ => id) fun hok => ?_
          exact (hok hperm hlock inc hguard).1 hres
        by_cases hfailed : aw.persist.Failed
        · refine iff_of_false (not_orderly_of_error hguard hnext (hanswer.mpr hfailed)) fun hok => ?_
          exact (hok hperm hlock inc hguard).2 hfailed
        · refine iff_of_true ?_ fun _ _ inc' hinc' => ?_
          · refine h.orderly_of_transition hguard hres ?_ hnext (mt hanswer.mp hfailed)
            -- To resolved from any phase is no step back.
            cases inc.phase with
            | declared => exact Nat.zero_le _
            | investigating => exact Nat.le_succ _
            | resolved => exact Nat.le_refl _
          · rw [← Option.some.inj (hguard.symm.trans hinc')]
            exact ⟨hres, hfailed⟩

/-- A declare that is seen through fills the handle with a new incident. -/
def Replaces (s : IncidentSys) (op : IncidentOp) : Prop :=
  ∃ inc, op.Declares inc ∧ (s.next op).guard = some inc

/-- An incident follows itself as long as none replaces it. -/
theorem IncidentState.Follows.of_run {inc : IncidentState} {ops : List IncidentOp} {t : IncidentSys}
    (hguard : s.guard = some inc) (horderly : Along IncidentSys.step IncidentSys.Orderly s ops)
    (hsame : Along IncidentSys.step (fun s op => ¬ Replaces s op) s ops)
    (ht : run IncidentSys.step s ops = some t) : ∃ inc', t.guard = some inc' ∧ inc.Follows inc' := by
  refine invariant_of_along (I := fun t : IncidentSys => ∃ inc', t.guard = some inc' ∧
    inc.Follows inc') (fun u op u' ⟨inc', hinc', hfollows⟩ ⟨hop, hnot⟩ hu => ?_)
    ⟨inc, hguard, .refl inc⟩ (horderly.and hsame) ht
  obtain rfl := Option.some.inj hu
  obtain ⟨inc'', hnext, hlater | ⟨-, hdeclares⟩⟩ := hop.forward inc' hinc'
  · exact ⟨inc'', hnext, hfollows.trans hlater⟩
  · exact absurd ⟨inc'', hdeclares, hnext⟩ hnot

/-- **Incidents over requests.**  All along a run of requests incidents only move forward,
    are resolved once and for all and are left alone by errors exactly when the requests
    are guarded; and then whatever is in the handle follows itself until a new incident
    replaces it. -/
theorem orderly_iff_guarded (ops : List IncidentOp) (hops : ∀ op ∈ ops, op.IsRequest) :
    (Along IncidentSys.step IncidentSys.Orderly .fresh ops ↔
      Along IncidentSys.step Guarded .fresh ops) ∧
    (Along IncidentSys.step Guarded .fresh ops → ∀ before between after : List IncidentOp,
      ops = before ++ between ++ after → ∀ s t inc, run IncidentSys.step .fresh before = some s →
        run IncidentSys.step s between = some t → s.guard = some inc →
          Along IncidentSys.step (fun s op => ¬ Replaces s op) s between →
            ∃ inc', t.guard = some inc' ∧ inc.Follows inc') := by
  -- Both conditions speak of requests only, and the log is kept by either.
  have hrequests : Along IncidentSys.step (fun _ op => op.IsRequest) .fresh ops :=
    along_of_forall (fun op hop _ => hops op hop) _
  have hiff : Along IncidentSys.step IncidentSys.Orderly .fresh ops ↔
      Along IncidentSys.step Guarded .fresh ops := by
    constructor
    · intro horderly
      refine Along.imp_of_invariant (I := IncidentSys.Logged) (fun s op s' _ hop hs' => ?_)
        (fun s op hs hop => (hs.orderly_iff hop.1).mp hop.2) IncidentSys.logged_fresh
        (hrequests.and horderly)
      rw [← Option.some.inj hs']
      exact hop.2.once
    · intro hguarded
      refine Along.imp_of_invariant (I := IncidentSys.Logged) (fun s op s' hs hop hs' => ?_)
        (fun s op hs hop => (hs.orderly_iff hop.1).mpr hop.2) IncidentSys.logged_fresh
        (hrequests.and hguarded)
      rw [← Option.some.inj hs']
      exact ((hs.orderly_iff hop.1).mpr hop.2).once
  refine ⟨hiff, ?_⟩
  rintro hguarded before between after rfl s t inc hs ht hinc hsame
  have horderly := hiff.mpr hguarded
  -- What follows for a record holds from the place on where it is in the guard.
  rw [List.append_assoc, along_append] at horderly
  have hbetween := (along_append.mp (horderly.2 s hs)).1
  exact IncidentState.Follows.of_run hinc hbetween hsame ht

/-- Declared, investigated and resolved. -/
def inOrder : List IncidentOp :=
  [.declare exampleDeclare .full, .investigate exampleResolve .full, .resolve exampleResolve .full]

theorem isRequest_inOrder : ∀ op ∈ inOrder, op.IsRequest := by
  intro op hop
  rcases List.mem_cons.mp hop with rfl | hop
  · trivial
  rcases List.mem_cons.mp hop with rfl | hop
  · trivial
  rw [List.mem_singleton.mp hop]
  trivial

theorem orderly_inOrder : Along IncidentSys.step IncidentSys.Orderly .fresh inOrder := by
  refine (orderly_iff_guarded inOrder isRequest_inOrder).1.mpr ⟨trivial, fun s hs => ⟨?_, ?_⟩⟩
  · exact fun _ _ _ => fun hfailed => PersistEnd.failed_returned_iff.mp hfailed rfl
  · rintro t ht
    refine ⟨fun _ _ inc hinc => ⟨?_, fun hfailed => PersistEnd.failed_returned_iff.mp hfailed rfl⟩,
      fun _ _ => trivial⟩
    obtain rfl := Option.some.inj hs
    obtain rfl := Option.some.inj ht
    obtain rfl := Option.some.inj hinc
    exact fun hno => by cases hno

/-- A resolve whose write fails, and one of an incident that is resolved. -/
theorem not_orderly_resolve :
    ¬ Along IncidentSys.step IncidentSys.Orderly .fresh
      [.declare exampleDeclare .full,
        .resolve exampleResolve { Awaits.full with persist := .returned .kept }] ∧
    ¬ Along IncidentSys.step IncidentSys.Orderly .fresh
      [.declare exampleDeclare .full, .resolve exampleResolve .full,
        .resolve { exampleResolve with note := some "again" } .full] := by
  constructor
  · intro h
    have hlast := (h.2 _ rfl).1
    have herror : (((IncidentSys.fresh.declare exampleDeclare .full).1).answer (.resolve exampleResolve
        { Awaits.full with persist := .returned .kept })).IsError := trivial
    exact IncidentSys.not_orderly_of_error rfl rfl herror hlast
  · intro h
    have hlast := ((h.2 _ rfl).2 _ rfl).1
    exact IncidentSys.not_orderly_of_resolved rfl rfl rfl (fun _ => id) hlast

end Maranode.Api
