/-
  Maranode.Lib.Grid

  Tables that are filled row by row.

  The cells of two borders are given, and each other cell is made from the ones above it, to
  its left, and between these.  What a recurrence says of the cells is then what they hold
  (`cell_fill`).
-/
import Mathlib.Data.List.Basic
import Mathlib.Data.Nat.Basic

namespace Lib

/-! ## Loops -/

section Loops

variable {σ : Type} {P : Nat → σ → Prop} {step : σ → Nat → σ} {n : Nat} {s : σ}

/-- `for i in 0..n`. -/
theorem foldl_range_rule (hs : P 0 s) (hstep : ∀ i < n, ∀ s, P i s → P (i + 1) (step s i)) :
    P n ((List.range n).foldl step s) := by
  induction n with
  | zero => exact hs
  | succ n ih =>
      rw [List.range_succ, List.foldl_append]
      exact hstep n (by omega) _ (ih fun i hi => hstep i (by omega))

/-- `for i in 1..=n`. -/
theorem foldl_range'_rule (hs : P 1 s)
    (hstep : ∀ i, 1 ≤ i → i ≤ n → ∀ s, P i s → P (i + 1) (step s i)) :
    P (n + 1) ((List.range' 1 n).foldl step s) := by
  induction n with
  | zero => exact hs
  | succ n ih =>
      rw [List.range'_1_concat, List.foldl_append, Nat.add_comm 1 n]
      exact hstep (n + 1) (by omega) (by omega) _ (ih fun i hi hle => hstep i hi (by omega))

end Loops

/-! ## Cells -/

/-- The rows of a table. -/
abbrev Grid := List (List Nat)

namespace Grid

def cell (dp : Grid) (i j : Nat) : Nat := (dp.getD i []).getD j 0

def set (dp : Grid) (i j v : Nat) : Grid := dp.modify i fun row => row.set j v

/-- Rows `0` to `m` of columns `0` to `n`. -/
structure Shape (m n : Nat) (dp : Grid) : Prop where
  rows : dp.length = m + 1
  columns : ∀ row ∈ dp, row.length = n + 1

/-- A table of zeros. -/
def zeros (m n : Nat) : Grid := List.replicate (m + 1) (List.replicate (n + 1) 0)

variable {m n : Nat} {dp : Grid}

theorem shape_zeros (m n : Nat) : Shape m n (zeros m n) := by
  refine ⟨List.length_replicate, fun row hrow => ?_⟩
  rw [List.eq_of_mem_replicate hrow, List.length_replicate]

theorem Shape.set (h : Shape m n dp) (i j v : Nat) : Shape m n (dp.set i j v) := by
  refine ⟨(List.length_modify _ _ _).trans h.rows, fun row hrow => ?_⟩
  obtain ⟨k, hk, rfl⟩ := List.mem_iff_getElem.mp hrow
  have hlt : k < dp.length := by
    rwa [Grid.set, List.length_modify] at hk
  have hold := h.columns dp[k] (List.getElem_mem hlt)
  simp only [Grid.set, List.getElem_modify]
  split
  · rw [List.length_set, hold]
  · exact hold

theorem cell_set (h : Shape m n dp) {i j : Nat} (hi : i ≤ m) (hj : j ≤ n) (v i' j' : Nat) :
    cell (dp.set i j v) i' j' = if i' = i ∧ j' = j then v else cell dp i' j' := by
  simp only [cell, Grid.set, List.getD_eq_getElem?_getD, List.getElem?_modify]
  by_cases hrow : i' = i
  · subst hrow
    have hlt : i' < dp.length := by
      rw [h.rows]
      omega
    have hlen := h.columns dp[i'] (List.getElem_mem hlt)
    simp only [List.getElem?_eq_getElem hlt, Option.map_eq_map, Option.map_some, Option.getD_some,
      true_and, if_true, List.getElem?_set]
    by_cases hcol : j = j'
    · have hin : j' < dp[i'].length := by omega
      rw [if_pos hcol, if_pos hcol.symm]
      subst hcol
      simp [hin]
    · rw [if_neg hcol, if_neg fun hsame => hcol hsame.symm]
  · have hother : ¬ i = i' := fun hsame => hrow hsame.symm
    have hnot : ¬ (i' = i ∧ j' = j) := fun hsame => hrow hsame.1
    rw [if_neg hnot]
    simp [hother]

/-! ## Filling -/

variable (f : Nat → Nat → Nat → Nat → Nat → Nat)

/-- A cell is made from the one between, the one above and the one to the left. -/
def fillCell (i : Nat) (dp : Grid) (j : Nat) : Grid :=
  dp.set i j (f i j (cell dp (i - 1) (j - 1)) (cell dp (i - 1) j) (cell dp i (j - 1)))

def fillRow (n : Nat) (dp : Grid) (i : Nat) : Grid :=
  (List.range' 1 n).foldl (fillCell f i) dp

def fill (m n : Nat) (dp : Grid) : Grid := (List.range' 1 m).foldl (fillRow f n) dp

/-- The cells are filled up to a cell of a row. -/
structure Filled (D : Nat → Nat → Nat) (m n : Nat) (i j : Nat) (dp : Grid) : Prop where
  shape : Shape m n dp
  done : ∀ i' j', i' ≤ m → j' ≤ n → i' = 0 ∨ j' = 0 ∨ i' < i ∨ i' = i ∧ j' < j →
    cell dp i' j' = D i' j'

variable {f} {D : Nat → Nat → Nat}

theorem filled_fillCell
    (hD : ∀ i j, i < m → j < n →
      D (i + 1) (j + 1) = f (i + 1) (j + 1) (D i j) (D i (j + 1)) (D (i + 1) j))
    {i j : Nat} (hi : 1 ≤ i) (him : i ≤ m) (hj : 1 ≤ j) (hjn : j ≤ n) (h : Filled D m n i j dp) :
    Filled D m n i (j + 1) (fillCell f i dp j) := by
  refine ⟨h.shape.set _ _ _, fun i' j' hi' hj' hdone => ?_⟩
  rw [fillCell, cell_set h.shape him hjn]
  split
  · next hsame =>
      obtain ⟨rfl, rfl⟩ := hsame
      obtain ⟨i, rfl⟩ := Nat.exists_eq_add_of_le' hi
      obtain ⟨j, rfl⟩ := Nat.exists_eq_add_of_le' hj
      have hbetween := h.done i j (by omega) (by omega) (by omega)
      have habove := h.done i (j + 1) (by omega) (by omega) (by omega)
      have hleft := h.done (i + 1) j (by omega) (by omega) (by omega)
      rw [hD i j (by omega) (by omega), Nat.add_sub_cancel, Nat.add_sub_cancel, hbetween, habove,
        hleft]
  · next hother => exact h.done i' j' hi' hj' (by omega)

theorem filled_fillRow
    (hD : ∀ i j, i < m → j < n →
      D (i + 1) (j + 1) = f (i + 1) (j + 1) (D i j) (D i (j + 1)) (D (i + 1) j))
    {i : Nat} (hi : 1 ≤ i) (him : i ≤ m) (h : Filled D m n i 1 dp) :
    Filled D m n (i + 1) 1 (fillRow f n dp i) := by
  have hrow : Filled D m n i (n + 1) (fillRow f n dp i) :=
    foldl_range'_rule (P := fun j dp => Filled D m n i j dp) h fun j hj hjn dp hdp =>
      filled_fillCell hD hi him hj hjn hdp
  exact ⟨hrow.shape, fun i' j' hi' hj' hdone => hrow.done i' j' hi' hj' (by omega)⟩

/-- **What the cells hold.**  The borders are right, and each step of the recurrence is. -/
theorem cell_fill
    (hD : ∀ i j, i < m → j < n →
      D (i + 1) (j + 1) = f (i + 1) (j + 1) (D i j) (D i (j + 1)) (D (i + 1) j))
    (hshape : Shape m n dp) (hleft : ∀ i ≤ m, cell dp i 0 = D i 0)
    (habove : ∀ j ≤ n, cell dp 0 j = D 0 j) {i j : Nat} (hi : i ≤ m) (hj : j ≤ n) :
    cell (fill f m n dp) i j = D i j := by
  have hstart : Filled D m n 1 1 dp := by
    refine ⟨hshape, fun i' j' hi' hj' hdone => ?_⟩
    by_cases hzero : i' = 0
    · rw [hzero]
      exact habove j' hj'
    · have hcolumn : j' = 0 := by omega
      rw [hcolumn]
      exact hleft i' hi'
  have hfilled : Filled D m n (m + 1) 1 (fill f m n dp) :=
    foldl_range'_rule (P := fun i dp => Filled D m n i 1 dp) hstart fun i hi him dp hdp =>
      filled_fillRow hD hi him hdp
  exact hfilled.done i j hi hj (by omega)

end Grid

end Lib
