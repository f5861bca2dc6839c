/-
  Maranode.Api.Incident

  `incident.rs` and the handlers of `routes/incident.rs` that change an incident.

  An incident lives in three places: the handle in memory, the flag `audit_frozen`
  and the file `incident-state.json`.  A handler holds the handle's lock from its
  first await to its end, so handlers do not interleave; but the future of a handler
  can be dropped at any of its awaits, and then nothing after it happens.
-/
import Maranode.Common.External
import Maranode.Lib.Run

namespace Maranode.Api

open Lib

/-! ## common/incident.rs -/

inductive IncidentPhase where
  | declared
  | investigating
  | resolved
  deriving DecidableEq

structure PhaseEntry where
  phase : IncidentPhase
  at_ : DateTime
  by_ : String
  note : Option String

structure IncidentState where
  id : String
  declaredAt : DateTime
  declaredBy : String
  reason : String
  phase : IncidentPhase
  auditFrozen : Bool
  resolvedAt : Option DateTime
  resolutionSummary : Option String
  phaseLog : List PhaseEntry
  webhookUrls : List String

/-- `IncidentState::new`. -/
def IncidentState.new (id declaredBy reason : String) (webhookUrls : List String)
    (now : DateTime) : IncidentState where
  id := id
  declaredAt := now
  declaredBy := declaredBy
  reason := reason
  phase := .declared
  auditFrozen := true
  resolvedAt := none
  resolutionSummary := none
  phaseLog := [{ phase := .declared, at_ := now, by_ := declaredBy, note := some reason }]
  webhookUrls := webhookUrls

/-- `transition_phase`, up to the write.  It reads the clock for the log and once more
    for `resolved_at`. -/
def IncidentState.transition (inc : IncidentState) (newPhase : IncidentPhase) (by_ : String)
    (note : Option String) (at_ resolvedAt : DateTime) : IncidentState :=
  let inc := { inc with
    phaseLog := inc.phaseLog ++ [{ phase := newPhase, at_, by_, note }]
    phase := newPhase }
  if newPhase = .resolved then
    { inc with resolvedAt := some resolvedAt, resolutionSummary := note, auditFrozen := false }
  else inc

/-! ## The daemon -/

/-- The handle, the flag, what the file parses as, and the writes whose request is
    gone. -/
structure IncidentSys where
  guard : Option IncidentState
  auditFrozen : Bool
  file : Option IncidentState
  inFlight : List IncidentState

/-- The daemon on a new data directory. -/
def IncidentSys.fresh : IncidentSys where
  guard := none
  auditFrozen := false
  file := none
  inFlight := []

/-- How a write of the file ends: done, refused with the file as it was, or stopped
    halfway, which leaves nothing that parses. -/
inductive WriteEnd where
  | written
  | kept
  | spoiled
  deriving DecidableEq

def WriteEnd.file (w : WriteEnd) (old : Option IncidentState) (inc : IncidentState) :
    Option IncidentState :=
  match w with
  | .written => some inc
  | .kept => old
  | .spoiled => none

/-- How the await on `persist_incident` ends.  When the caller is dropped there, the
    write goes on without it. -/
inductive PersistEnd where
  | returned (w : WriteEnd)
  | dropped
  deriving DecidableEq

/-- Where a handler is dropped, if at all: waiting for the lock, waiting for the write,
    or at an await after it. -/
structure Awaits where
  locked : Bool
  persist : PersistEnd
  finished : Bool

structure DeclareRequest where
  username : String
  permitted : Bool
  id : String
  reason : String
  webhookUrls : List String
  now : DateTime

structure PhaseRequest where
  username : String
  permitted : Bool
  note : Option String
  at_ : DateTime
  resolvedAt : DateTime

/-- What the client gets.  `gone` is no answer at all. -/
inductive IncidentReply where
  | gone
  | refused (msg : String)
  | persistFailed
  | done (id : String) (phase : IncidentPhase)

def IncidentState.isActive (inc : IncidentState) : Bool := decide (inc.phase ≠ .resolved)

/-- `persist_incident`, on behalf of a handler. -/
def IncidentSys.persist (s : IncidentSys) (inc : IncidentState) : PersistEnd → IncidentSys
  | .returned w => { s with file := w.file s.file inc }
  | .dropped => { s with inFlight := s.inFlight ++ [inc] }

/-- `declare`.  The error of the write is ignored; the handle is set last. -/
def IncidentSys.declare (s : IncidentSys) (req : DeclareRequest) (aw : Awaits) :
    IncidentSys × IncidentReply :=
  if req.permitted = false then (s, .refused "insufficient permissions")
  else if aw.locked = false then (s, .gone)
  else if s.guard.any (·.isActive) then (s, .refused "an incident is already active")
  else
    let inc := IncidentState.new req.id req.username req.reason req.webhookUrls req.now
    let s := { s with auditFrozen := true }.persist inc aw.persist
    if aw.persist = .dropped ∨ aw.finished = false then (s, .gone)
    else ({ s with guard := some inc }, .done inc.id inc.phase)

/-- `transition_phase` in place, through the guard. -/
def IncidentSys.transition (s : IncidentSys) (inc : IncidentState) (newPhase : IncidentPhase)
    (req : PhaseRequest) (p : PersistEnd) : IncidentSys :=
  let inc := inc.transition newPhase req.username req.note req.at_ req.resolvedAt
  { s with guard := some inc }.persist inc p

/-- `investigate`. -/
def IncidentSys.investigate (s : IncidentSys) (req : PhaseRequest) (aw : Awaits) :
    IncidentSys × IncidentReply :=
  if req.permitted = false then (s, .refused "insufficient permissions")
  else if aw.locked = false then (s, .gone)
  else
    match s.guard with
    | none => (s, .refused "no active incident")
    | some inc =>
        if inc.phase ≠ .declared then (s, .refused "incident must be in 'declared' phase")
        else
          let s := s.transition inc .investigating req aw.persist
          match aw.persist with
          | .dropped => (s, .gone)
          | .returned .written =>
              (s, if aw.finished then .done inc.id .investigating else .gone)
          | .returned _ => (s, .persistFailed)

/-- `resolve`.  The flag is cleared only after the write. -/
def IncidentSys.resolve (s : IncidentSys) (req : PhaseRequest) (aw : Awaits) :
    IncidentSys × IncidentReply :=
  if req.permitted = false then (s, .refused "insufficient permissions")
  else if aw.locked = false then (s, .gone)
  else
    match s.guard with
    | none => (s, .refused "no active incident")
    | some inc =>
        let s := s.transition inc .resolved req aw.persist
        match aw.persist with
        | .dropped => (s, .gone)
        | .returned .written =>
            ({ s with auditFrozen := false }, if aw.finished then .done inc.id .resolved else .gone)
        | .returned _ => (s, .persistFailed)

/-- A write whose request is gone reaches the disk. -/
def IncidentSys.land (s : IncidentSys) (i : Nat) (w : WriteEnd) : IncidentSys :=
  match s.inFlight[i]? with
  | some inc => { s with file := w.file s.file inc, inFlight := s.inFlight.eraseIdx i }
  | none => s

/-- The daemon stops at any point and starts: `load_incident_on_start` and the
    recovery in `main`. -/
def IncidentSys.restart (s : IncidentSys) : IncidentSys where
  guard := s.file
  auditFrozen := (s.file.map (·.auditFrozen)).getD false
  file := s.file
  inFlight := []

inductive IncidentOp where
  | declare (req : DeclareRequest) (aw : Awaits)
  | investigate (req : PhaseRequest) (aw : Awaits)
  | resolve (req : PhaseRequest) (aw : Awaits)
  | land (i : Nat) (w : WriteEnd)
  | restart

def IncidentSys.next (s : IncidentSys) : IncidentOp → IncidentSys
  | .declare req aw => (s.declare req aw).1
  | .investigate req aw => (s.investigate req aw).1
  | .resolve req aw => (s.resolve req aw).1
  | .land i w => s.land i w
  | .restart => s.restart

def IncidentSys.step (s : IncidentSys) (op : IncidentOp) : Option IncidentSys := some (s.next op)

/-! ## The flag and the handle -/

/-- `audit_frozen` is set exactly when the handle holds an incident that is not
    resolved. -/
def IncidentSys.Agree (s : IncidentSys) : Prop :=
  s.auditFrozen = true ↔ ∃ inc, s.guard = some inc ∧ inc.phase ≠ .resolved

/-- A declare that got past its check runs to its end, and the write of a resolve of an
    active incident succeeds and is waited for. -/
def SeenThrough (s : IncidentSys) : IncidentOp → Prop
  | .declare req aw =>
      req.permitted = true → aw.locked = true → s.guard.any (·.isActive) = false →
        aw.persist ≠ .dropped ∧ aw.finished = true
  | .resolve req aw =>
      req.permitted = true → aw.locked = true → s.guard.any (·.isActive) = true →
        aw.persist = .returned .written
  | _ => True

/-- The incident's own flag says whether it is active, wherever a copy of it is. -/
structure IncidentSys.Recorded (s : IncidentSys) : Prop where
  guard : ∀ inc, s.guard = some inc → inc.auditFrozen = inc.isActive
  file : ∀ inc, s.file = some inc → inc.auditFrozen = inc.isActive
  inFlight : ∀ inc ∈ s.inFlight, inc.auditFrozen = inc.isActive

theorem IncidentSys.agree_iff {s : IncidentSys} :
    s.Agree ↔ s.auditFrozen = s.guard.any (·.isActive) := by
  have hany : s.guard.any (·.isActive) = true ↔
      ∃ inc, s.guard = some inc ∧ inc.phase ≠ .resolved := by
    simp [Option.any_eq_true, IncidentState.isActive]
  rw [IncidentSys.Agree, ← hany]
  exact Bool.eq_iff_iff.symm

theorem IncidentState.isActive_transition (inc : IncidentState) (newPhase : IncidentPhase)
    (by_ : String) (note : Option String) (at_ resolvedAt : DateTime) :
    (inc.transition newPhase by_ note at_ resolvedAt).isActive = decide (newPhase ≠ .resolved) := by
  rw [IncidentState.transition]
  split_ifs <;> rfl

theorem IncidentState.auditFrozen_transition {inc : IncidentState} {newPhase : IncidentPhase}
    (h : newPhase = .resolved ∨ inc.auditFrozen = true) (by_ : String) (note : Option String)
    (at_ resolvedAt : DateTime) :
    (inc.transition newPhase by_ note at_ resolvedAt).auditFrozen
      = (inc.transition newPhase by_ note at_ resolvedAt).isActive := by
  rw [IncidentState.isActive_transition, IncidentState.transition]
  by_cases hres : newPhase = .resolved
  · rw [if_pos hres, hres]
    rfl
  · rw [if_neg hres, decide_eq_true hres]
    exact h.resolve_left hres

@[simp] theorem IncidentSys.persist_guard (s : IncidentSys) (inc : IncidentState) (p : PersistEnd) :
    (s.persist inc p).guard = s.guard := by
  cases p <;> rfl

@[simp] theorem IncidentSys.persist_auditFrozen (s : IncidentSys) (inc : IncidentState)
    (p : PersistEnd) : (s.persist inc p).auditFrozen = s.auditFrozen := by
  cases p <;> rfl

theorem WriteEnd.file_cases {w : WriteEnd} {old : Option IncidentState} {inc inc' : IncidentState}
    (h : w.file old inc = some inc') : inc' = inc ∨ old = some inc' := by
  cases w with
  | written => exact .inl (Option.some.inj h).symm
  | kept => exact .inr h
  | spoiled => cases h

theorem IncidentSys.Recorded.persist {s : IncidentSys} (h : s.Recorded) {inc : IncidentState}
    (hinc : inc.auditFrozen = inc.isActive) (p : PersistEnd) : (s.persist inc p).Recorded := by
  cases p with
  | returned w =>
      refine ⟨h.guard, fun inc' hinc' => ?_, h.inFlight⟩
      rcases WriteEnd.file_cases hinc' with rfl | hold
      · exact hinc
      · exact h.file inc' hold
  | dropped =>
      exact ⟨h.guard, h.file, List.forall_mem_append.mpr
        ⟨h.inFlight, List.forall_mem_singleton.mpr hinc⟩⟩

theorem IncidentSys.Recorded.setGuard {s : IncidentSys} (h : s.Recorded) {inc : IncidentState}
    (hinc : inc.auditFrozen = inc.isActive) : { s with guard := some inc }.Recorded :=
  ⟨fun _ hinc' => Option.some.inj hinc' ▸ hinc, h.file, h.inFlight⟩

theorem IncidentSys.Recorded.setFrozen {s : IncidentSys} (h : s.Recorded) (b : Bool) :
    { s with auditFrozen := b }.Recorded := ⟨h.guard, h.file, h.inFlight⟩

theorem IncidentSys.Recorded.transition {s : IncidentSys} (h : s.Recorded) {inc : IncidentState}
    {newPhase : IncidentPhase} (hinc : newPhase = .resolved ∨ inc.auditFrozen = true)
    (req : PhaseRequest) (p : PersistEnd) : (s.transition inc newPhase req p).Recorded := by
  have hnew := IncidentState.auditFrozen_transition hinc req.username req.note req.at_
    req.resolvedAt
  exact (h.setGuard hnew).persist hnew p

/-! ## What each request can do -/

/-- `declare` does nothing, or sets the flag and writes a new incident, and at its end
    sets the handle. -/
theorem IncidentSys.declare_cases (s : IncidentSys) (req : DeclareRequest) (aw : Awaits) :
    ((s.declare req aw).1 = s ∧
      (req.permitted = false ∨ aw.locked = false ∨ s.guard.any (·.isActive) = true)) ∨
    (req.permitted = true ∧ aw.locked = true ∧ s.guard.any (·.isActive) = false ∧
      ∃ inc : IncidentState, inc.isActive = true ∧ inc.auditFrozen = true ∧
        ((aw.persist = .dropped ∨ aw.finished = false) ∧
            (s.declare req aw).1 = { s with auditFrozen := true }.persist inc aw.persist ∨
          (aw.persist ≠ .dropped ∧ aw.finished = true) ∧
            (s.declare req aw).1 =
              { { s with auditFrozen := true }.persist inc aw.persist with guard := some inc })) := by
  rw [IncidentSys.declare]
  split_ifs with hperm hlock hactive hcut
  · exact .inl ⟨rfl, .inl hperm⟩
  · exact .inl ⟨rfl, .inr (.inl hlock)⟩
  · exact .inl ⟨rfl, .inr (.inr hactive)⟩
  · exact .inr ⟨by simpa using hperm, by simpa using hlock, by simpa using hactive, _, rfl, rfl,
      .inl ⟨hcut, rfl⟩⟩
  · exact .inr ⟨by simpa using hperm, by simpa using hlock, by simpa using hactive, _, rfl, rfl,
      .inr ⟨by simpa [not_or] using hcut, rfl⟩⟩

/-- `investigate` does nothing, or moves a declared incident on. -/
theorem IncidentSys.investigate_cases (s : IncidentSys) (req : PhaseRequest) (aw : Awaits) :
    (s.investigate req aw).1 = s ∨
    ∃ inc, s.guard = some inc ∧ inc.phase = .declared ∧
      (s.investigate req aw).1 = s.transition inc .investigating req aw.persist := by
  rw [IncidentSys.investigate]
  by_cases hperm : req.permitted = false
  · rw [if_pos hperm]
    exact .inl rfl
  by_cases hlock : aw.locked = false
  · rw [if_neg hperm, if_pos hlock]
    exact .inl rfl
  rw [if_neg hperm, if_neg hlock]
  rcases s.guard with - | inc
  · exact .inl rfl
  dsimp only
  by_cases hphase : inc.phase ≠ .declared
  · rw [if_pos hphase]
    exact .inl rfl
  · rw [if_neg hphase]
    refine .inr ⟨inc, rfl, not_not.mp hphase, ?_⟩
    rcases aw.persist with (- | - | -) | - <;> rfl

/-- `resolve` does nothing, or resolves the incident whatever its phase, and clears the
    flag once the write is done. -/
theorem IncidentSys.resolve_cases (s : IncidentSys) (req : PhaseRequest) (aw : Awaits) :
    ((s.resolve req aw).1 = s ∧
      (req.permitted = false ∨ aw.locked = false ∨ s.guard = none)) ∨
    (req.permitted = true ∧ aw.locked = true ∧ ∃ inc, s.guard = some inc ∧
      (aw.persist = .returned .written ∧
          (s.resolve req aw).1 =
            { s.transition inc .resolved req aw.persist with auditFrozen := false } ∨
        aw.persist ≠ .returned .written ∧
          (s.resolve req aw).1 = s.transition inc .resolved req aw.persist)) := by
  rw [IncidentSys.resolve]
  by_cases hperm : req.permitted = false
  · rw [if_pos hperm]
    exact .inl ⟨rfl, .inl hperm⟩
  by_cases hlock : aw.locked = false
  · rw [if_neg hperm, if_pos hlock]
    exact .inl ⟨rfl, .inr (.inl hlock)⟩
  rw [if_neg hperm, if_neg hlock]
  rcases s.guard with - | inc
  · exact .inl ⟨rfl, .inr (.inr rfl)⟩
  refine .inr ⟨by simpa using hperm, by simpa using hlock, inc, rfl, ?_⟩
  rcases aw.persist with (- | - | -) | -
  · exact .inl ⟨rfl, rfl⟩
  all_goals exact .inr ⟨nofun, rfl⟩

/-- Whatever happens, every copy of an incident says of itself whether it is active. -/
theorem IncidentSys.Recorded.next {s : IncidentSys} (h : s.Recorded) (op : IncidentOp) :
    (s.next op).Recorded := by
  cases op with
  | declare req aw =>
      rw [IncidentSys.next]
      -- Turned down, cut off after the flag, or done.
      rcases s.declare_cases req aw with ⟨hsame, -⟩ | ⟨-, -, -, inc, hact, hfrozen, hcut | hdone⟩
      · rw [hsame]
        exact h
      · exact hcut.2 ▸ (h.setFrozen true).persist (hfrozen.trans hact.symm) _
      · have hinc := hfrozen.trans hact.symm
        exact hdone.2 ▸ ((h.setFrozen true).persist hinc _).setGuard hinc
  | investigate req aw =>
      rw [IncidentSys.next]
      rcases s.investigate_cases req aw with hsame | ⟨inc, hguard, hphase, hnext⟩
      · rw [hsame]
        exact h
      -- The phase is declared, so the record says frozen already.
      · have hfrozen : inc.auditFrozen = true := by
          rw [h.guard inc hguard, IncidentState.isActive, hphase]
          rfl
        exact hnext ▸ h.transition (.inr hfrozen) req aw.persist
  | resolve req aw =>
      rw [IncidentSys.next]
      rcases s.resolve_cases req aw with ⟨hsame, -⟩ | ⟨-, -, inc, -, hok | hfail⟩
      · rw [hsame]
        exact h
      -- Only a resolve that is seen through takes the flag back.
      · exact hok.2 ▸ (h.transition (.inl rfl) req aw.persist).setFrozen false
      · exact hfail.2 ▸ h.transition (.inl rfl) req aw.persist
  | land i w =>
      rw [IncidentSys.next, IncidentSys.land]
      rcases hi : s.inFlight[i]? with - | inc
      · exact h
      refine ⟨h.guard, fun inc' hinc' => ?_, fun inc' hinc' => ?_⟩
      -- The file has the record that has just landed, or the one it had.
      · rcases WriteEnd.file_cases hinc' with rfl | hold
        · exact h.inFlight inc' (List.mem_of_getElem? hi)
        · exact h.file inc' hold
      · exact h.inFlight inc' (List.mem_of_mem_eraseIdx hinc')
  -- A restart takes the record from the file and loses what is in flight.
  | restart => exact ⟨h.file, h.file, fun _ hinc => nomatch hinc⟩

/-! ## One request, and any number of them -/

theorem IncidentSys.transition_agree_iff {s : IncidentSys} {inc : IncidentState}
    {newPhase : IncidentPhase} {req : PhaseRequest} {p : PersistEnd} :
    (s.transition inc newPhase req p).Agree ↔ s.auditFrozen = decide (newPhase ≠ .resolved) := by
  rw [IncidentSys.agree_iff, IncidentSys.transition, IncidentSys.persist_guard,
    IncidentSys.persist_auditFrozen, Option.any_some, IncidentState.isActive_transition]

/-- From a state where flag and handle agree, they agree after an operation exactly when
    it was seen through. -/
theorem IncidentSys.Recorded.next_agree_iff {s : IncidentSys} (h : s.Recorded) (hs : s.Agree)
    (op : IncidentOp) : (s.next op).Agree ↔ SeenThrough s op := by
  have hfrozen := IncidentSys.agree_iff.mp hs
  cases op with
  | declare req aw =>
      rw [IncidentSys.next]
      rcases s.declare_cases req aw with ⟨hsame, hwhy⟩ |
        ⟨hperm, hlock, hidle, inc, hact, -, hcut | hdone⟩
      · rw [hsame]
        -- Nothing was done, and the condition asks nothing of a request that is turned down.
        refine iff_of_true hs fun hperm hlock hidle => ?_
        simp [hperm, hlock, hidle] at hwhy
      · rw [hcut.2, IncidentSys.agree_iff, IncidentSys.persist_guard,
          IncidentSys.persist_auditFrozen, hidle]
        -- The flag is set before the save, so a declare that is cut off leaves it without a record.
        refine iff_of_false (by simp) fun hseen => ?_
        obtain ⟨hdropped, hfin⟩ := hseen hperm hlock hidle
        rcases hcut.1 with hd | hf
        · exact hdropped hd
        · rw [hf] at hfin
          cases hfin
      · rw [hdone.2, IncidentSys.agree_iff, IncidentSys.persist_auditFrozen, Option.any_some, hact]
        exact iff_of_true rfl fun _ _ _ => hdone.1
  | investigate req aw =>
      rw [IncidentSys.next]
      rcases s.investigate_cases req aw with hsame | ⟨inc, hguard, hphase, hnext⟩
      · rw [hsame]
        exact iff_of_true hs trivial
      -- The phase moves from declared to investigating, both frozen.
      · rw [hnext, IncidentSys.transition_agree_iff, hfrozen, hguard, Option.any_some,
          IncidentState.isActive, hphase]
        exact iff_of_true rfl trivial
  | resolve req aw =>
      rw [IncidentSys.next]
      rcases s.resolve_cases req aw with ⟨hsame, hwhy⟩ | ⟨hperm, hlock, inc, hguard, hok | hfail⟩
      · rw [hsame]
        refine iff_of_true hs fun hperm hlock hactive => ?_
        rcases hwhy with hp | hl | hnone
        · rw [hperm] at hp
          cases hp
        · rw [hlock] at hl
          cases hl
        · rw [hnone] at hactive
          cases hactive
      -- A resolve that went through takes the flag back.
      · have hafter : (s.resolve req aw).1.Agree := by
          rw [hok.2, IncidentSys.agree_iff, IncidentSys.transition, IncidentSys.persist_guard,
            Option.any_some, IncidentState.isActive_transition]
          rfl
        exact iff_of_true hafter fun _ _ _ => hok.1
      · -- The flag is as before, and the incident is resolved now.
        rw [hfail.2, IncidentSys.transition_agree_iff, hfrozen]
        constructor
        · intro hidle _ _ hactive
          rw [hidle] at hactive
          cases hactive
        · intro hseen
          by_contra hactive
          exact hfail.1 (hseen hperm hlock (by simpa using hactive))
  | land i w =>
      rw [IncidentSys.next, IncidentSys.land]
      rcases s.inFlight[i]? with - | inc
      · exact iff_of_true hs trivial
      · exact iff_of_true hs trivial
  | restart =>
      refine iff_of_true (IncidentSys.agree_iff.mpr ?_) trivial
      -- On a restart the flag is what the record says of itself.
      show (s.file.map (·.auditFrozen)).getD false = s.file.any (·.isActive)
      rcases hfile : s.file with - | inc
      · rfl
      · exact h.file inc hfile

theorem IncidentSys.recorded_fresh : IncidentSys.fresh.Recorded where
  guard _ h := nomatch h
  file _ h := nomatch h
  inFlight _ h := nomatch h

theorem IncidentSys.agree_fresh : IncidentSys.fresh.Agree := IncidentSys.agree_iff.mpr rfl

/-- **The freeze flag.**  Over any declares, investigates and resolves, dropped where
    they may be, with writes that fail or land late, and restarts, the flag and the
    handle agree after every one of them exactly when each declare and each resolve was
    seen through. -/
theorem audit_frozen_iff_active_iff (ops : List IncidentOp) :
    Run.Along IncidentSys.step (fun s op => (s.next op).Agree) IncidentSys.fresh ops ↔
      Run.Along IncidentSys.step SeenThrough IncidentSys.fresh ops := by
  have hstart : IncidentSys.fresh.Recorded ∧ IncidentSys.fresh.Agree :=
    ⟨IncidentSys.recorded_fresh, IncidentSys.agree_fresh⟩
  constructor
  · refine Run.Along.imp_of_invariant (I := fun s => s.Recorded ∧ s.Agree) ?_ ?_ hstart
    · rintro s op s' ⟨hrec, -⟩ hagree hs'
      obtain rfl := Option.some.inj hs'
      exact ⟨hrec.next op, hagree⟩
    · exact fun s op h hagree => (h.1.next_agree_iff h.2 op).mp hagree
  · refine Run.Along.imp_of_invariant (I := fun s => s.Recorded ∧ s.Agree) ?_ ?_ hstart
    · rintro s op s' ⟨hrec, hs⟩ hseen hs'
      obtain rfl := Option.some.inj hs'
      exact ⟨hrec.next op, (hrec.next_agree_iff hs op).mpr hseen⟩
    · exact fun s op h hseen => (h.1.next_agree_iff h.2 op).mpr hseen

/-- A request that is not dropped, and whose write succeeds. -/
def Awaits.full : Awaits where
  locked := true
  persist := .returned .written
  finished := true

def exampleDeclare : DeclareRequest where
  username := "alice"
  permitted := true
  id := "INC-0"
  reason := "intrusion"
  webhookUrls := []
  now := 0

def exampleResolve : PhaseRequest where
  username := "alice"
  permitted := true
  note := some "contained"
  at_ := newYear
  resolvedAt := newYear

/-- A declare whose client goes away after the write, and a resolve whose write fails. -/
theorem audit_frozen_not_iff_active :
    ¬ ((IncidentSys.fresh.declare exampleDeclare { Awaits.full with finished := false }).1).Agree ∧
    ¬ (((IncidentSys.fresh.declare exampleDeclare Awaits.full).1.resolve exampleResolve
        { Awaits.full with persist := .returned .kept }).1).Agree := by
  rw [IncidentSys.agree_iff, IncidentSys.agree_iff]
  decide

end Maranode.Api
