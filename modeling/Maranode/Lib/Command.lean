/-
  Maranode.Lib.Command

  A program that runs commands on a machine, where any of them may fail.

  A command that fails leaves the machine as it is.  `fails` says which ones do, by
  their number; a trace keeps the machine after each of them, so that a statement can
  speak about every moment of a program.
-/
import Mathlib.Tactic.Common

namespace Lib.Command

variable {σ κ : Type}

/-- The machine, and the machine after each command so far. -/
structure Trace (σ : Type) where
  state : σ
  seen : List σ

def Trace.start (s : σ) : Trace σ := ⟨s, []⟩

variable (exec : κ → σ → Option σ) (fails : Nat → Bool)

/-- Run a command: whether it exited with success, and what it left. -/
def invoke (c : κ) (t : Trace σ) : Bool × Trace σ :=
  match if fails t.seen.length then none else exec c t.state with
  | some s => (true, ⟨s, t.seen ++ [s]⟩)
  | none => (false, ⟨t.state, t.seen ++ [t.state]⟩)

/-- Take the steps in order, up to the first that fails. -/
def runAll {ι : Type} (step : ι → Trace σ → Bool × Trace σ) (t : Trace σ) :
    List ι → Bool × Trace σ
  | [] => (true, t)
  | i :: is =>
      match step i t with
      | (true, t) => runAll step t is
      | (false, t) => (false, t)

variable {exec fails}

/-! ## One command -/

variable (exec fails) in
/-- A command succeeds and does what it does, or it leaves the machine as it is. -/
theorem invoke_cases (c : κ) (t : Trace σ) :
    (∃ s, fails t.seen.length = false ∧ exec c t.state = some s ∧
      invoke exec fails c t = (true, ⟨s, t.seen ++ [s]⟩)) ∨
    (fails t.seen.length = true ∨ exec c t.state = none) ∧
      invoke exec fails c t = (false, ⟨t.state, t.seen ++ [t.state]⟩) := by
  unfold invoke
  cases hfails : fails t.seen.length with
  | true => exact .inr ⟨.inl rfl, rfl⟩
  | false =>
      cases hexec : exec c t.state with
      | none => exact .inr ⟨.inr rfl, rfl⟩
      | some s => exact .inl ⟨s, rfl, rfl, rfl⟩

theorem invoke_of_some {c : κ} {t : Trace σ} {s : σ} (hfails : fails t.seen.length = false)
    (hexec : exec c t.state = some s) :
    invoke exec fails c t = (true, ⟨s, t.seen ++ [s]⟩) := by
  rw [invoke, hfails, hexec]
  rfl

theorem invoke_of_none {c : κ} {t : Trace σ} (hexec : exec c t.state = none) :
    invoke exec fails c t = (false, ⟨t.state, t.seen ++ [t.state]⟩) := by
  rw [invoke, hexec, ite_self]

theorem invoke_of_fails {c : κ} {t : Trace σ} (hfails : fails t.seen.length = true) :
    invoke exec fails c t = (false, ⟨t.state, t.seen ++ [t.state]⟩) := by
  rw [invoke, hfails]
  rfl

theorem invoke_congr {exec' : κ → σ → Option σ} {c : κ} (h : ∀ s, exec c s = exec' c s)
    (t : Trace σ) : invoke exec fails c t = invoke exec' fails c t := by
  rw [invoke, invoke, h]

/-! ## Every moment -/

/-- The machine satisfies `I` now, and did after each command. -/
def Trace.Always (I : σ → Prop) (t : Trace σ) : Prop := I t.state ∧ ∀ s ∈ t.seen, I s

theorem Trace.always_start {I : σ → Prop} {s : σ} (h : I s) : (Trace.start s).Always I :=
  ⟨h, List.forall_mem_nil _⟩

theorem Trace.Always.push {I : σ → Prop} {t : Trace σ} (h : t.Always I) {s : σ} (hs : I s) :
    Trace.Always I ⟨s, t.seen ++ [s]⟩ :=
  ⟨hs, List.forall_mem_append.mpr ⟨h.2, List.forall_mem_singleton.mpr hs⟩⟩

/-- What a command keeps when it succeeds holds at every moment. -/
theorem Trace.Always.invoke {I : σ → Prop} {t : Trace σ} (h : t.Always I) {c : κ}
    (hc : ∀ s s', I s → exec c s = some s' → I s') :
    (invoke exec fails c t).2.Always I := by
  obtain ⟨s, -, hexec, heq⟩ | ⟨-, heq⟩ := invoke_cases exec fails c t
  · rw [heq]
    exact h.push (hc _ _ h.1 hexec)
  · rw [heq]
    exact h.push h.1

section Programs

variable {ι : Type} {step : ι → Trace σ → Bool × Trace σ}

theorem runAll_cons_true {i : ι} {t : Trace σ} (h : (step i t).1 = true) (is : List ι) :
    runAll step t (i :: is) = runAll step (step i t).2 is := by
  rw [runAll]
  rcases hrun : step i t with ⟨_ | _, t'⟩
  · rw [hrun] at h
    cases h
  · rfl

theorem runAll_cons_false {i : ι} {t : Trace σ} (h : (step i t).1 = false) (is : List ι) :
    runAll step t (i :: is) = step i t := by
  rw [runAll]
  rcases hrun : step i t with ⟨_ | _, t'⟩
  · rfl
  · rw [hrun] at h
    cases h

/-- A program that succeeds goes on behind its first step. -/
theorem runAll_cons_ok {i : ι} {is : List ι} {t : Trace σ}
    (h : (runAll step t (i :: is)).1 = true) :
    (step i t).1 = true ∧ runAll step t (i :: is) = runAll step (step i t).2 is := by
  cases hrun : (step i t).1 with
  | false =>
      rw [runAll_cons_false hrun, hrun] at h
      cases h
  | true => exact ⟨rfl, runAll_cons_true hrun is⟩

/-- Steps that do the same one by one do so in a program. -/
theorem runAll_congr {step' : ι → Trace σ → Bool × Trace σ} {is : List ι}
    (h : ∀ i ∈ is, ∀ t, step i t = step' i t) (t : Trace σ) :
    runAll step t is = runAll step' t is := by
  induction is generalizing t with
  | nil => rfl
  | cons i is ih =>
      rw [runAll, runAll, h i List.mem_cons_self t]
      rcases step' i t with ⟨_ | _, t'⟩
      · rfl
      · exact ih (fun j hj => h j (List.mem_cons_of_mem _ hj)) t'

/-- What every step keeps, the program keeps. -/
theorem runAll_keeps {J : Trace σ → Prop} {is : List ι}
    (hstep : ∀ i ∈ is, ∀ t, J t → J (step i t).2) {t : Trace σ} (h : J t) :
    J (runAll step t is).2 := by
  induction is generalizing t with
  | nil => exact h
  | cons i is ih =>
      have hfirst := hstep i List.mem_cons_self t h
      cases hrun : (step i t).1 with
      | true =>
          rw [runAll_cons_true hrun]
          exact ih (fun j hj => hstep j (List.mem_cons_of_mem _ hj)) hfirst
      | false =>
          rw [runAll_cons_false hrun]
          exact hfirst

theorem runAll_append (is js : List ι) (t : Trace σ) :
    runAll step t (is ++ js) =
      if (runAll step t is).1 then runAll step (runAll step t is).2 js else runAll step t is := by
  induction is generalizing t with
  | nil => rfl
  | cons i is ih =>
      rw [List.cons_append]
      cases hrun : (step i t).1 with
      | true => rw [runAll_cons_true hrun, runAll_cons_true hrun, ih]
      | false =>
          rw [runAll_cons_false hrun, runAll_cons_false hrun, hrun]
          rfl

/-- A program whose steps all succeed succeeds, with the effect of one after the other. -/
theorem runAll_of_forall {effect : ι → σ → σ} {is : List ι}
    (hstep : ∀ i ∈ is, ∀ t, (step i t).1 = true ∧ (step i t).2.state = effect i t.state)
    (t : Trace σ) : (runAll step t is).1 = true ∧
      (runAll step t is).2.state = is.foldl (fun s i => effect i s) t.state := by
  induction is generalizing t with
  | nil => exact ⟨rfl, rfl⟩
  | cons i is ih =>
      obtain ⟨hok, hstate⟩ := hstep i List.mem_cons_self t
      rw [runAll_cons_true hok, List.foldl_cons, ← hstate]
      exact ih (fun j hj => hstep j (List.mem_cons_of_mem _ hj)) _

end Programs

end Lib.Command
