/-
  Maranode.Inference.Queue

  The inference queue around the llama.cpp engine: `InferenceQueue` and what its calls
  and their generations do to the semaphore and the wait counter, step by step.

  A generation runs in a blocking task of its own.  `generate` waits for that task, but
  `generate_stream` returns as soon as it is spawned, and a call that is dropped does not
  stop it either.  The permit and the wait guard belong to the call.
-/
import Maranode.Lib.Run

namespace Maranode.Inference

open Lib

/-! ## Calls -/

/-- How far a call is. -/
inductive CallPhase where
  | checked
  | refused (err : String)
  | queued
  | permitted
  | spawned
  | released
  | ended
  deriving DecidableEq

/-- How far the blocking task of a call is. -/
inductive GenPhase where
  | none
  | pending
  | running
  | finished
  deriving DecidableEq

/-- A `generate` or, when `stream` is set, a `generate_stream` call. -/
structure Call where
  stream : Bool
  phase : CallPhase
  gen : GenPhase
  deriving DecidableEq

/-- `generate_sync` or `stream_sync` is executing. -/
def Call.generating (c : Call) : Bool := c.gen = .running

/-- The generation is in its task, which may have to wait for a thread. -/
def Call.inTask (c : Call) : Bool := c.gen = .pending || c.gen = .running

/-- The call passed the check, and neither it nor its generation is over. -/
def Call.unfinished (c : Call) : Bool :=
  c.phase = .checked || c.phase = .queued || c.phase = .permitted || c.phase = .spawned || c.inTask

/-- Between the check and the increment. -/
def Call.uncounted (c : Call) : Bool := c.phase = .checked

/-- The call has its `WaitGuard`. -/
def Call.guarded (c : Call) : Bool :=
  c.phase = .queued || c.phase = .permitted || c.phase = .spawned || c.phase = .released

/-- The call has a permit of the semaphore. -/
def Call.holding (c : Call) : Bool := c.phase = .permitted || c.phase = .spawned

/-! ## The queue -/

structure Queue where
  maxParallel : Nat
  maxWaiting : Nat
  waiting : Nat
  permits : Nat
  calls : List Call
  deriving DecidableEq

/-- `InferenceQueue::new`, before any call. -/
def Queue.new (maxWaiting maxParallel : Nat) : Queue where
  maxParallel := max maxParallel 1
  maxWaiting := maxWaiting
  waiting := 0
  permits := max maxParallel 1
  calls := []

def Queue.checkCapacity (q : Queue) : Except String Unit :=
  if q.maxWaiting ≠ 0 then
    if q.waiting ≥ q.maxWaiting then
      .error ("server busy: " ++ toString q.waiting ++ " requests already in flight (max "
        ++ toString q.maxWaiting ++ "). try again shortly.")
    else .ok ()
  else .ok ()

inductive QueueStep where
  | check (stream : Bool)
  | count (i : Nat)
  | acquire (i : Nat)
  | spawn (i : Nat)
  | start (i : Nat)
  | finish (i : Nat)
  | ret (i : Nat)
  | drop (i : Nat)
  | dropQueued (i : Nat)
  | uncount (i : Nat)
  deriving DecidableEq

/-- The call, when it is at such a point. -/
def Queue.call (q : Queue) (i : Nat) (at' : Call → Bool) : Option Call := q.calls[i]?.filter at'

/-- A new call, by the outcome of its check. -/
def Call.new (stream : Bool) : Except String Unit → Call
  | .ok () => { stream := stream, phase := .checked, gen := .none }
  | .error err => { stream := stream, phase := .refused err, gen := .none }

/-- The call returns by itself: before its task when the model does not load, and after
    spawning it at once for a stream, else when the task is done. -/
def Call.canReturn (c : Call) : Bool :=
  c.phase = .permitted || (c.phase = .spawned && (c.stream || c.gen = .finished))

/-- The call is waiting for the model or for its task, so that it can be dropped. -/
def Call.canDrop (c : Call) : Bool :=
  c.phase = .permitted || (c.phase = .spawned && !c.stream)

/-- The guards of a call are dropped in reverse order: the permit before the wait guard. -/
def Queue.dropPermit (q : Queue) (i : Nat) (c : Call) : Queue :=
  { q with permits := q.permits + 1, calls := q.calls.set i { c with phase := .released } }

/-- One step of one call or of its task; `none` when it is not at that step. -/
def Queue.step (q : Queue) : QueueStep → Option Queue
  | .check stream => some { q with calls := q.calls ++ [Call.new stream q.checkCapacity] }
  | .count i =>
      (q.call i (·.phase = .checked)).map fun c =>
        { q with waiting := q.waiting + 1, calls := q.calls.set i { c with phase := .queued } }
  | .acquire i =>
      (q.call i fun c => c.phase = .queued && q.permits ≠ 0).map fun c =>
        { q with permits := q.permits - 1, calls := q.calls.set i { c with phase := .permitted } }
  | .spawn i =>
      (q.call i (·.phase = .permitted)).map fun c =>
        { q with calls := q.calls.set i { c with phase := .spawned, gen := .pending } }
  | .start i =>
      (q.call i (·.gen = .pending)).map fun c =>
        { q with calls := q.calls.set i { c with gen := .running } }
  | .finish i =>
      (q.call i (·.gen = .running)).map fun c =>
        { q with calls := q.calls.set i { c with gen := .finished } }
  | .ret i => (q.call i Call.canReturn).map fun c => q.dropPermit i c
  | .drop i => (q.call i Call.canDrop).map fun c => q.dropPermit i c
  | .dropQueued i =>
      (q.call i (·.phase = .queued)).map fun c =>
        { q with calls := q.calls.set i { c with phase := .released } }
  | .uncount i =>
      (q.call i (·.phase = .released)).map fun c =>
        { q with waiting := q.waiting - 1, calls := q.calls.set i { c with phase := .ended } }

/-! ## The bounds -/

/-- The generations in progress keep to `max_parallel`, and the admitted requests to
    `max_waiting`, when it is set. -/
structure InBounds (q : Queue) : Prop where
  parallel : q.calls.countP Call.generating ≤ q.maxParallel
  admitted : q.maxWaiting ≠ 0 → q.calls.countP Call.unfinished ≤ q.maxWaiting

/-- A call returns or is dropped only when no task of it is left, and passes the check
    only when those between their check and their increment leave room for it. -/
def Covered (q : Queue) : QueueStep → Prop
  | .check _ => q.maxWaiting = 0 ∨ q.maxWaiting ≤ q.waiting ∨
      q.waiting + q.calls.countP Call.uncounted < q.maxWaiting
  | .ret i => ∀ c, q.calls[i]? = some c → c.inTask = false
  | .drop i => ∀ c, q.calls[i]? = some c → c.inTask = false
  | _ => True

instance (q : Queue) : Decidable (InBounds q) :=
  decidable_of_iff (q.calls.countP Call.generating ≤ q.maxParallel ∧
    (q.maxWaiting ≠ 0 → q.calls.countP Call.unfinished ≤ q.maxWaiting))
    ⟨fun h => ⟨h.1, h.2⟩, fun h => ⟨h.1, h.2⟩⟩

instance (q : Queue) (op : QueueStep) : Decidable (Covered q op) :=
  match op with
  | .check _ => inferInstanceAs (Decidable (_ ∨ _ ∨ _))
  | .ret i => inferInstanceAs (Decidable (∀ c ∈ q.calls[i]?, c.inTask = false))
  | .drop i => inferInstanceAs (Decidable (∀ c ∈ q.calls[i]?, c.inTask = false))
  | .count _ | .acquire _ | .spawn _ | .start _ | .finish _ | .dropQueued _ | .uncount _ =>
      inferInstanceAs (Decidable True)

/-- What the counters say, and which calls the tasks belong to. -/
structure Accounted (q : Queue) : Prop where
  permits : q.permits + q.calls.countP Call.holding = q.maxParallel
  waiting : q.waiting = q.calls.countP Call.guarded
  room : q.maxWaiting ≠ 0 → q.waiting + q.calls.countP Call.uncounted ≤ q.maxWaiting
  tasks : ∀ c ∈ q.calls, c.inTask = true → c.holding = true

theorem accounted_new (maxWaiting maxParallel : Nat) :
    Accounted (Queue.new maxWaiting maxParallel) where
  permits := rfl
  waiting := rfl
  room := fun _ => Nat.zero_le _
  tasks := nofun

/-- A call that is not finished is counted, or about to be. -/
theorem Call.counted_of_unfinished {c : Call} (htask : c.inTask = true → c.holding = true)
    (h : c.unfinished = true) : (c.guarded || c.uncounted) = true := by
  cases hin : c.inTask with
  | true =>
      have hheld := htask hin
      simp only [holding, guarded, Bool.or_eq_true] at hheld ⊢
      tauto
  | false =>
      simp only [unfinished, guarded, uncounted, hin, Bool.or_eq_true] at h ⊢
      tauto

theorem Accounted.inBounds {q : Queue} (h : Accounted q) : InBounds q where
  parallel := by
    have hle : q.calls.countP Call.generating ≤ q.calls.countP Call.holding := by
      apply List.countP_mono_left
      intro c hc hgen
      apply h.tasks c hc
      rw [Call.inTask, Bool.or_eq_true]
      exact .inr hgen
    have hpermits := h.permits
    omega
  admitted := by
    intro hmax
    have hle : q.calls.countP Call.unfinished
        ≤ q.calls.countP fun c => c.guarded || c.uncounted :=
      List.countP_mono_left fun c hc => Call.counted_of_unfinished (h.tasks c hc)
    have hor := Run.countP_or_le Call.guarded Call.uncounted q.calls
    have hroom := h.room hmax
    rw [h.waiting] at hroom
    omega

/-! ## One call at a time -/

theorem call_eq_some {q : Queue} {i : Nat} {at' : Call → Bool} {c : Call} :
    q.call i at' = some c ↔ q.calls[i]? = some c ∧ at' c = true := by
  rw [Queue.call, Option.filter_eq_some_iff]

/-- A call moves, and takes from the counters what it gains. -/
theorem Accounted.move {q : Queue} (h : Accounted q) {i : Nat} {c c' : Call}
    (hi : q.calls[i]? = some c) {permits waiting : Nat}
    (hpermits : permits + c'.holding.toNat = q.permits + c.holding.toNat)
    (hwaiting : waiting + c.guarded.toNat = q.waiting + c'.guarded.toNat)
    (hroom : waiting + c'.uncounted.toNat ≤ q.waiting + c.uncounted.toNat)
    (htask : c'.inTask = true → c'.holding = true) :
    Accounted { q with permits := permits, waiting := waiting, calls := q.calls.set i c' } where
  permits := by
    have hset := Run.countP_set_add Call.holding hi c'
    have hold := h.permits
    dsimp only
    omega
  waiting := by
    have hset := Run.countP_set_add Call.guarded hi c'
    have hold := h.waiting
    dsimp only
    omega
  room := by
    intro hmax
    have hset := Run.countP_set_add Call.uncounted hi c'
    have hold := h.room hmax
    dsimp only at hmax ⊢
    omega
  tasks := by
    intro d hd
    rcases List.mem_or_eq_of_mem_set hd with hd | rfl
    · exact h.tasks d hd
    · exact htask

/-- A new call is not counted yet, so the check must leave room for the others too. -/
theorem Accounted.check {q : Queue} (h : Accounted q) (stream : Bool)
    (hcov : Covered q (.check stream)) :
    Accounted { q with calls := q.calls ++ [Call.new stream q.checkCapacity] } := by
  have hnew : ∀ r, (Call.new stream r).holding = false ∧ (Call.new stream r).guarded = false ∧
      (Call.new stream r).inTask = false := by
    intro r
    cases r <;> exact ⟨rfl, rfl, rfl⟩
  obtain ⟨hholding, hguarded, hin⟩ := hnew q.checkCapacity
  refine ⟨?_, ?_, fun hmax => ?_, fun c hc => ?_⟩
  · rw [List.countP_append, List.countP_singleton, hholding]
    exact h.permits
  · rw [List.countP_append, List.countP_singleton, hguarded]
    exact h.waiting
  · have hroom := h.room hmax
    rw [List.countP_append, List.countP_singleton]
    rcases hcov with hzero | hfull | hfits
    · exact absurd hzero hmax
    · rw [Queue.checkCapacity, if_pos hmax, if_pos hfull]
      exact hroom
    · show q.waiting + (q.calls.countP Call.uncounted + _) ≤ q.maxWaiting
      split <;> omega
  · rcases List.mem_append.mp hc with hc | hc
    · exact h.tasks c hc
    · obtain rfl := List.mem_singleton.mp hc
      intro htask
      rw [hin] at htask
      cases htask

theorem Call.holding_of_canReturn {c : Call} (h : c.canReturn = true) : c.holding = true := by
  simp only [canReturn, holding, Bool.or_eq_true, Bool.and_eq_true] at h ⊢
  exact h.imp_right And.left

theorem Call.holding_of_canDrop {c : Call} (h : c.canDrop = true) : c.holding = true := by
  simp only [canDrop, holding, Bool.or_eq_true, Bool.and_eq_true] at h ⊢
  exact h.imp_right And.left

theorem Call.holding_iff {c : Call} :
    c.holding = true ↔ c.phase = .permitted ∨ c.phase = .spawned := by
  simp [holding]

@[simp] theorem Call.inTask_phase (c : Call) (phase : CallPhase) :
    ({ c with phase := phase } : Call).inTask = c.inTask := rfl

/-- A call without a permit has no task. -/
theorem Accounted.inTask_eq_false {q : Queue} (h : Accounted q) {i : Nat} {c : Call}
    (hi : q.calls[i]? = some c) (hfree : c.holding = false) : c.inTask = false := by
  cases htask : c.inTask with
  | false => rfl
  | true =>
      have hheld := h.tasks c (List.mem_of_getElem? hi) htask
      rw [hfree] at hheld
      cases hheld

/-- A call that gives its permit back keeps its guard. -/
theorem Accounted.dropPermit {q : Queue} (h : Accounted q) {i : Nat} {c : Call}
    (hi : q.calls[i]? = some c) (hheld : c.holding = true) (htask : c.inTask = false) :
    Accounted (q.dropPermit i c) := by
  apply h.move hi
  · show q.permits + 1 + 0 = q.permits + c.holding.toNat
    rw [hheld]
    rfl
  · rcases Call.holding_iff.mp hheld with hphase | hphase <;> simp [Call.guarded, hphase]
  · exact Nat.add_le_add_left (Nat.zero_le _) _
  · rw [Call.inTask_phase, htask]
    exact nofun

theorem Accounted.step {q q' : Queue} {op : QueueStep} (h : Accounted q) (hcov : Covered q op)
    (hq' : q.step op = some q') : Accounted q' := by
  cases op with
  | check stream =>
      obtain rfl := Option.some.inj hq'
      exact h.check stream hcov
  | count i =>
      obtain ⟨c, hcall, rfl⟩ := Option.map_eq_some_iff.mp hq'
      obtain ⟨hi, hat⟩ := call_eq_some.mp hcall
      have hphase : c.phase = .checked := of_decide_eq_true hat
      have hnone : c.inTask = false :=
        h.inTask_eq_false hi (by simp [Call.holding, hphase])
      -- A call comes into the queue: the counter goes up and no permit moves.
      apply h.move hi <;> simp [Call.holding, Call.guarded, Call.uncounted, hphase, hnone]
  | acquire i =>
      obtain ⟨c, hcall, rfl⟩ := Option.map_eq_some_iff.mp hq'
      obtain ⟨hi, hat⟩ := call_eq_some.mp hcall
      -- A permit is taken only where one is free.
      obtain ⟨hphase, hfree⟩ : c.phase = .queued ∧ q.permits ≠ 0 := by simpa using hat
      apply h.move hi <;> simp [Call.holding, Call.guarded, Call.uncounted, hphase]
      omega
  | spawn i =>
      obtain ⟨c, hcall, rfl⟩ := Option.map_eq_some_iff.mp hq'
      obtain ⟨hi, hat⟩ := call_eq_some.mp hcall
      have hphase : c.phase = .permitted := of_decide_eq_true hat
      apply h.move hi <;> simp [Call.holding, Call.guarded, Call.uncounted, hphase]
  | start i =>
      obtain ⟨c, hcall, rfl⟩ := Option.map_eq_some_iff.mp hq'
      obtain ⟨hi, hat⟩ := call_eq_some.mp hcall
      have hgen : c.gen = .pending := of_decide_eq_true hat
      -- A task runs only for a call that holds a permit.
      have hheld := h.tasks c (List.mem_of_getElem? hi) (by simp [Call.inTask, hgen])
      exact h.move hi rfl rfl (Nat.le_refl _) fun _ => hheld
  | finish i =>
      obtain ⟨c, hcall, rfl⟩ := Option.map_eq_some_iff.mp hq'
      obtain ⟨hi, -⟩ := call_eq_some.mp hcall
      exact h.move hi rfl rfl (Nat.le_refl _) nofun
  | ret i =>
      obtain ⟨c, hcall, rfl⟩ := Option.map_eq_some_iff.mp hq'
      obtain ⟨hi, hat⟩ := call_eq_some.mp hcall
      exact h.dropPermit hi (Call.holding_of_canReturn hat) (hcov c hi)
  | drop i =>
      obtain ⟨c, hcall, rfl⟩ := Option.map_eq_some_iff.mp hq'
      obtain ⟨hi, hat⟩ := call_eq_some.mp hcall
      exact h.dropPermit hi (Call.holding_of_canDrop hat) (hcov c hi)
  | dropQueued i =>
      obtain ⟨c, hcall, rfl⟩ := Option.map_eq_some_iff.mp hq'
      obtain ⟨hi, hat⟩ := call_eq_some.mp hcall
      have hphase : c.phase = .queued := of_decide_eq_true hat
      have hnone : c.inTask = false :=
        h.inTask_eq_false hi (by simp [Call.holding, hphase])
      apply h.move hi <;> simp [Call.holding, Call.guarded, Call.uncounted, hphase, hnone]
  | uncount i =>
      obtain ⟨c, hcall, rfl⟩ := Option.map_eq_some_iff.mp hq'
      obtain ⟨hi, hat⟩ := call_eq_some.mp hcall
      have hphase : c.phase = .released := of_decide_eq_true hat
      have hnone : c.inTask = false :=
        h.inTask_eq_false hi (by simp [Call.holding, hphase])
      -- The call itself is among those the counter counts.
      have hpos : 0 < q.waiting := by
        rw [h.waiting, List.countP_pos_iff]
        exact ⟨c, List.mem_of_getElem? hi, by simp [Call.guarded, hphase]⟩
      apply h.move hi <;> simp [Call.holding, Call.guarded, Call.uncounted, hphase, hnone]
      omega

/-- **Queue bounds.**  However the calls and their tasks interleave, as long as every call
    outlives its task and checks with room for those not counted yet, no more than
    `max_parallel` generations are in progress and no more than `max_waiting` requests
    are admitted. -/
theorem queue_in_bounds {maxWaiting maxParallel : Nat} {ops : List QueueStep} {q : Queue}
    (hrun : Run.run Queue.step (Queue.new maxWaiting maxParallel) ops = some q)
    (hcovered : Run.Along Queue.step Covered (Queue.new maxWaiting maxParallel) ops) :
    InBounds q := by
  have hacc : Accounted q :=
    Run.invariant_of_along (fun _ _ _ h hcov hq' => h.step hcov hq')
      (accounted_new maxWaiting maxParallel) hcovered hrun
  exact hacc.inBounds

/-! ## Streams, one after the other and at once -/

/-- A stream that is over before the next step of its call. -/
def shortStream (i : Nat) : List QueueStep :=
  [.check true, .count i, .acquire i, .spawn i, .start i, .finish i, .ret i, .uncount i]

/-- A stream that has returned while its task goes on. -/
def longStream (i : Nat) : List QueueStep :=
  [.check true, .count i, .acquire i, .spawn i, .ret i, .uncount i, .start i]

/-- The queue after two short streams. -/
def afterShortStreams : Queue :=
  { Queue.new 1 1 with calls := List.replicate 2 ⟨true, .ended, .finished⟩ }

theorem queue_in_bounds_in_turn : InBounds afterShortStreams := by
  have hrun : Run.run Queue.step (Queue.new 1 1) (shortStream 0 ++ shortStream 1)
      = some afterShortStreams := by
    decide
  apply queue_in_bounds hrun
  decide

/-- With one slot, two streams generate at once, as each has given its permit back; and
    two calls get past the check of a queue that admits one. -/
theorem queue_out_of_bounds :
    (∃ q, Run.run Queue.step (Queue.new 0 1) (longStream 0 ++ longStream 1) = some q ∧
      ¬ InBounds q) ∧
    ∃ q, Run.run Queue.step (Queue.new 1 1) [.check true, .check true] = some q ∧
      ¬ InBounds q :=
  ⟨⟨_, rfl, by decide⟩, _, rfl, by decide⟩

end Maranode.Inference
