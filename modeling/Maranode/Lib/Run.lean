/-
  Maranode.Lib.Run

  Runs of a system whose operations may fail.

  `run` takes one operation after the other; `Along P` says that every operation
  of the run satisfies `P` in the state it is taken in.  `run_invariant` is the
  rule every run result of the development goes through.
-/
import Mathlib.Tactic.Common

namespace Lib.Run

variable {σ ω : Type} (step : σ → ω → Option σ)

/-- Take the operations in order; `none` when one fails. -/
def run (s : σ) : List ω → Option σ
  | [] => some s
  | o :: os => (step s o).bind fun s' => run s' os

/-- Every operation of the run meets the condition in the state it is taken in. -/
def Along (P : σ → ω → Prop) (s : σ) : List ω → Prop
  | [] => True
  | o :: os => P s o ∧ ∀ s', step s o = some s' → Along P s' os

variable {step}

theorem run_cons {s s' : σ} {o : ω} (h : step s o = some s') (os : List ω) :
    run step s (o :: os) = run step s' os := by
  rw [run, h, Option.bind_some]

theorem run_append (s : σ) (os os' : List ω) :
    run step s (os ++ os') = (run step s os).bind fun s' => run step s' os' := by
  induction os generalizing s with
  | nil => rfl
  | cons o os ih =>
      rw [List.cons_append, run, run, Option.bind_assoc]
      congr 1
      funext s'
      exact ih s'

theorem along_cons {P : σ → ω → Prop} {s s' : σ} {o : ω} (h : step s o = some s') (os : List ω) :
    Along step P s (o :: os) ↔ P s o ∧ Along step P s' os := by
  refine and_congr_right fun _ => ⟨fun hrest => hrest s' h, fun hrest t ht => ?_⟩
  rwa [Option.some.inj (ht.symm.trans h)]

theorem along_append {P : σ → ω → Prop} {s : σ} {os os' : List ω} :
    Along step P s (os ++ os') ↔
      Along step P s os ∧ ∀ t, run step s os = some t → Along step P t os' := by
  induction os generalizing s with
  | nil =>
      refine ⟨fun h => ⟨trivial, fun t ht => ?_⟩, fun h => h.2 s rfl⟩
      rwa [← Option.some.inj ht]
  | cons o os ih =>
      rw [List.cons_append, Along, Along, and_assoc]
      refine and_congr_right fun _ => ⟨fun h => ⟨fun s' hs' => ?_, fun t ht => ?_⟩,
        fun h s' hs' => ?_⟩
      · exact (ih.mp (h s' hs')).1
      · obtain ⟨s', hs', hrest⟩ := Option.bind_eq_some_iff.mp ht
        exact (ih.mp (h s' hs')).2 t hrest
      · exact ih.mpr ⟨h.1 s' hs', fun t ht => h.2 t ((run_cons hs' os).trans ht)⟩

/-- A condition that can be decided can be decided along a run. -/
instance Along.decidable {P : σ → ω → Prop} [∀ s o, Decidable (P s o)] :
    (s : σ) → (os : List ω) → Decidable (Along step P s os)
  | _, [] => .isTrue trivial
  | s, o :: os =>
      match h : step s o with
      | none => decidable_of_iff (P s o)
          ⟨fun ho => ⟨ho, fun _ hs' => nomatch h.symm.trans hs'⟩, And.left⟩
      | some s' =>
          have := Along.decidable (P := P) s' os
          decidable_of_iff _ (along_cons h os).symm

theorem Along.mono {P Q : σ → ω → Prop} (hPQ : ∀ s o, P s o → Q s o) {s : σ} {os : List ω}
    (h : Along step P s os) : Along step Q s os := by
  induction os generalizing s with
  | nil => trivial
  | cons o os ih => exact ⟨hPQ s o h.1, fun s' hs' => ih (h.2 s' hs')⟩

theorem Along.and {P Q : σ → ω → Prop} {s : σ} {os : List ω} (hP : Along step P s os)
    (hQ : Along step Q s os) : Along step (fun s o => P s o ∧ Q s o) s os := by
  induction os generalizing s with
  | nil => trivial
  | cons o os ih => exact ⟨⟨hP.1, hQ.1⟩, fun s' hs' => ih (hP.2 s' hs') (hQ.2 s' hs')⟩

theorem along_of_forall {P : σ → ω → Prop} {os : List ω} (h : ∀ o ∈ os, ∀ s, P s o) (s : σ) :
    Along step P s os := by
  induction os generalizing s with
  | nil => trivial
  | cons o os ih =>
      obtain ⟨ho, hos⟩ := List.forall_mem_cons.mp h
      exact ⟨ho s, fun s' _ => ih hos s'⟩

/-- **Invariants over runs.**  What holds at the start and is kept by every operation
    that meets the condition, none of which fails, holds after the run. -/
theorem run_invariant {I : σ → Prop} {P : σ → ω → Prop}
    (hstep : ∀ s o, I s → P s o → ∃ s', step s o = some s' ∧ I s') {s : σ} {os : List ω}
    (hs : I s) (hP : Along step P s os) : ∃ s', run step s os = some s' ∧ I s' := by
  induction os generalizing s with
  | nil => exact ⟨s, rfl, hs⟩
  | cons o os ih =>
      obtain ⟨s', hs', hI⟩ := hstep s o hs hP.1
      obtain ⟨t, ht, hIt⟩ := ih hI (hP.2 s' hs')
      exact ⟨t, by rw [run_cons hs', ht], hIt⟩

/-- What every operation that meets the condition keeps holds after every run of such
    operations that does not fail. -/
theorem invariant_of_along {I : σ → Prop} {P : σ → ω → Prop}
    (hstep : ∀ s o s', I s → P s o → step s o = some s' → I s') {s t : σ} {os : List ω}
    (hs : I s) (hP : Along step P s os) (ht : run step s os = some t) : I t := by
  induction os generalizing s with
  | nil => exact Option.some.inj ht ▸ hs
  | cons o os ih =>
      obtain ⟨s', hs', hrest⟩ := Option.bind_eq_some_iff.mp ht
      exact ih (hstep s o s' hs hP.1 hs') (hP.2 s' hs') hrest

/-- What every operation keeps holds after every run that does not fail. -/
theorem invariant_of_run {I : σ → Prop} (hstep : ∀ s o s', I s → step s o = some s' → I s')
    {s t : σ} {os : List ω} (hs : I s) (ht : run step s os = some t) : I t :=
  invariant_of_along (P := fun _ _ => True) (fun s o s' h _ => hstep s o s' h) hs
    (along_of_forall (fun _ _ _ => trivial) s) ht

/-- A condition that follows from another one where an invariant holds follows from
    it along every run. -/
theorem Along.imp_of_invariant {I : σ → Prop} {P Q : σ → ω → Prop}
    (hstep : ∀ s o s', I s → P s o → step s o = some s' → I s')
    (hPQ : ∀ s o, I s → P s o → Q s o) {s : σ} {os : List ω} (hs : I s)
    (h : Along step P s os) : Along step Q s os := by
  induction os generalizing s with
  | nil => trivial
  | cons o os ih =>
      exact ⟨hPQ s o hs h.1, fun s' hs' => ih (hstep s o s' hs h.1 hs') (h.2 s' hs')⟩

/-- Conditions that agree where an invariant of all operations holds agree along every
    run. -/
theorem along_congr_of_invariant {I : σ → Prop} {P Q : σ → ω → Prop}
    (hstep : ∀ s o s', I s → step s o = some s' → I s')
    (hPQ : ∀ s o, I s → (P s o ↔ Q s o)) {s : σ} (hs : I s) (os : List ω) :
    Along step P s os ↔ Along step Q s os :=
  ⟨Along.imp_of_invariant (fun s o s' hI _ => hstep s o s' hI) (fun s o hI => (hPQ s o hI).mp) hs,
    Along.imp_of_invariant (fun s o s' hI _ => hstep s o s' hI) (fun s o hI => (hPQ s o hI).mpr) hs⟩

/-- **Exact steps.**  Where every operation keeps an invariant exactly when it meets a
    condition, it holds all along a run exactly when the condition does. -/
theorem along_iff_of_exact {I : σ → Prop} {P : σ → ω → Prop}
    (hexact : ∀ s o, I s → ((∀ s', step s o = some s' → I s') ↔ P s o)) {s : σ} (hs : I s)
    (os : List ω) :
    Along step (fun s o => ∀ s', step s o = some s' → I s') s os ↔ Along step P s os := by
  constructor
  · exact Along.imp_of_invariant (fun s o s' _ hkept hs' => hkept s' hs')
      (fun s o hI => (hexact s o hI).mp) hs
  · exact Along.imp_of_invariant (fun s o s' hI hP hs' => (hexact s o hI).mpr hP s' hs')
      (fun s o hI => (hexact s o hI).mpr) hs

/-! ## Parties -/

section Parties

variable {ι α : Type} [DecidableEq ι] {f : ι → α} {i : ι} {a : α}

/-- What holds of every party still does when one of them moves to where it holds. -/
theorem forall_update {P : α → Prop} (h : ∀ j, P (f j)) (ha : P a) :
    ∀ j, P (Function.update f i a j) := by
  intro j
  by_cases hj : j = i
  · rw [hj, Function.update_self]
    exact ha
  · rw [Function.update_of_ne hj]
    exact h j

/-- The same for what holds between any two. -/
theorem pairwise_update {R : α → α → Prop} (hsymm : ∀ a b, R a b → R b a)
    (h : ∀ j k, j ≠ k → R (f j) (f k)) (ha : ∀ j, j ≠ i → R a (f j)) :
    ∀ j k, j ≠ k → R (Function.update f i a j) (Function.update f i a k) := by
  intro j k hjk
  by_cases hj : j = i
  · subst hj
    rw [Function.update_self, Function.update_of_ne hjk.symm]
    exact ha k hjk.symm
  · rw [Function.update_of_ne hj]
    by_cases hk : k = i
    · subst hk
      rw [Function.update_self]
      exact hsymm _ _ (ha j hj)
    · rw [Function.update_of_ne hk]
      exact h j k hjk

end Parties

/-! ## Parties in a list -/

section Counts

variable {α : Type}

theorem countP_or_le (p q : α → Bool) (l : List α) :
    (l.countP fun a => p a || q a) ≤ l.countP p + l.countP q := by
  induction l with
  | nil => exact Nat.zero_le _
  | cons a l ih =>
      rw [List.countP_cons, List.countP_cons, List.countP_cons]
      cases p a <;> cases q a <;> simp <;> omega

/-- What a count loses and gains when one party moves. -/
theorem countP_set_add (p : α → Bool) {l : List α} {i : Nat} {a : α} (hi : l[i]? = some a)
    (b : α) : (l.set i b).countP p + (p a).toNat = l.countP p + (p b).toNat := by
  induction l generalizing i with
  | nil => cases hi
  | cons x l ih =>
      cases i with
      | zero =>
          obtain rfl := Option.some.inj hi
          rw [List.set_cons_zero, List.countP_cons, List.countP_cons]
          cases p x <;> cases p b <;> simp
      | succ i =>
          rw [List.set_cons_succ, List.countP_cons, List.countP_cons]
          have hrest := ih hi
          omega

end Counts

end Lib.Run
