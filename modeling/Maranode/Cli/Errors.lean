/-
  Maranode.Cli.Errors

  `errors.rs`: which of the options was meant.

  The table of `edit_distance` holds the least number of edits between the front of one word
  and the front of the other.  `did_you_mean` looks for the same word first, which finds
  nothing that the closest option is not.
-/
import Maranode.Lib.EditDistance
import Maranode.Lib.Grid
import Maranode.Lib.Text
import Mathlib.Data.List.MinMax

namespace Maranode.Cli

open Lib Lib.EditDistance

/-! ## The code -/

def editDistance (a b : Text) : Nat :=
  let m := a.length
  let n := b.length
  let dp := Grid.zeros m n
  let dp := (List.range (m + 1)).foldl (fun dp i => Grid.set dp i 0 i) dp
  let dp := (List.range (n + 1)).foldl (fun dp j => Grid.set dp 0 j j) dp
  let dp := (List.range' 1 m).foldl
    (fun dp i => (List.range' 1 n).foldl
      (fun dp j => Grid.set dp i j
        (if a[i - 1]? = b[j - 1]? then Grid.cell dp (i - 1) (j - 1)
        else 1 + min (min (Grid.cell dp (i - 1) (j - 1)) (Grid.cell dp (i - 1) j))
          (Grid.cell dp i (j - 1)))) dp) dp
  Grid.cell dp m n

/-- `lower` is `to_lowercase`. -/
def didYouMean (lower : String → String) (input : String) (options : List String) :
    Option String :=
  match options.find? fun o => lower o == lower input with
  | some opt => some opt
  | none =>
      (((options.map fun o => (o, editDistance (lower input).toList (lower o).toList)).filter
        fun p => p.2 ≤ 2).argmin Prod.snd).map Prod.fst

/-! ## The table -/

/-- The distance of the first `i` characters from the first `j`, from their ends. -/
def ofFronts (a b : Text) (i j : Nat) : Nat := distance (a.take i).reverse (b.take j).reverse

theorem reverse_take_succ {a : Text} {i : Nat} (hi : i < a.length) :
    (a.take (i + 1)).reverse = a[i] :: (a.take i).reverse := by
  rw [List.take_succ_eq_append_getElem hi, List.reverse_append]
  rfl

/-- How the borders start. -/
theorem shape_borders (m n : Nat) :
    Grid.Shape m n ((List.range (n + 1)).foldl (fun dp j => Grid.set dp 0 j j)
      ((List.range (m + 1)).foldl (fun dp i => Grid.set dp i 0 i) (Grid.zeros m n))) ∧
    ∀ i ≤ m, ∀ j ≤ n, i = 0 ∨ j = 0 →
      Grid.cell ((List.range (n + 1)).foldl (fun dp j => Grid.set dp 0 j j)
        ((List.range (m + 1)).foldl (fun dp i => Grid.set dp i 0 i) (Grid.zeros m n))) i j =
        i + j := by
  -- The first loop fills the left border and nothing else.
  have hleft : Grid.Shape m n
        ((List.range (m + 1)).foldl (fun dp i => Grid.set dp i 0 i) (Grid.zeros m n)) ∧
      ∀ i < m + 1, Grid.cell
        ((List.range (m + 1)).foldl (fun dp i => Grid.set dp i 0 i) (Grid.zeros m n)) i 0 = i := by
    refine foldl_range_rule
      (P := fun k dp => Grid.Shape m n dp ∧ ∀ i < k, Grid.cell dp i 0 = i)
      ⟨Grid.shape_zeros m n, fun i hi => absurd hi (by omega)⟩ fun k hk dp hdp => ?_
    refine ⟨hdp.1.set _ _ _, fun i hi => ?_⟩
    rw [Grid.cell_set hdp.1 (by omega) (by omega)]
    split
    · next hsame => exact hsame.1.symm
    · next hother => exact hdp.2 i (by omega)
  generalize (List.range (m + 1)).foldl (fun dp i => Grid.set dp i 0 i) (Grid.zeros m n) = left
    at hleft ⊢
  -- The second fills the upper border and keeps the left one.
  have habove : Grid.Shape m n ((List.range (n + 1)).foldl (fun dp j => Grid.set dp 0 j j) left) ∧
      (∀ i ≤ m, Grid.cell
        ((List.range (n + 1)).foldl (fun dp j => Grid.set dp 0 j j) left) i 0 = i) ∧
      ∀ j < n + 1, Grid.cell
        ((List.range (n + 1)).foldl (fun dp j => Grid.set dp 0 j j) left) 0 j = j := by
    refine foldl_range_rule
      (P := fun k dp => Grid.Shape m n dp ∧ (∀ i ≤ m, Grid.cell dp i 0 = i) ∧
        ∀ j < k, Grid.cell dp 0 j = j)
      ⟨hleft.1, fun i hi => hleft.2 i (by omega), fun j hj => absurd hj (by omega)⟩
      fun k hk dp hdp => ?_
    refine ⟨hdp.1.set _ _ _, fun i hi => ?_, fun j hj => ?_⟩
    -- The two borders meet in the corner, where both write 0.
    · rw [Grid.cell_set hdp.1 (by omega) (by omega)]
      split
      · next hsame => omega
      · exact hdp.2.1 i hi
    · rw [Grid.cell_set hdp.1 (by omega) (by omega)]
      split
      · next hsame => exact hsame.2.symm
      · next hother => exact hdp.2.2 j (by omega)
  refine ⟨habove.1, fun i hi j hj hborder => ?_⟩
  rcases hborder with rfl | rfl
  · rw [habove.2.2 j (by omega)]
    omega
  · rw [habove.2.1 i hi]
    omega

/-- The table holds the distances of the fronts. -/
theorem editDistance_eq (a b : Text) : editDistance a b = distance a.reverse b.reverse := by
  obtain ⟨hshape, hborders⟩ := shape_borders a.length b.length
  have hcells := Grid.cell_fill (D := ofFronts a b) (m := a.length) (n := b.length)
    (f := fun i j between above left => if a[i - 1]? = b[j - 1]? then between
      else 1 + min (min between above) left) ?_ hshape ?_ ?_ (le_refl a.length)
    (le_refl b.length)
  · rw [ofFronts, List.take_length, List.take_length] at hcells
    exact hcells
  · intro i j hi hj
    have hsame : a[i]? = b[j]? ↔ a[i] = b[j] := by
      rw [List.getElem?_eq_getElem hi, List.getElem?_eq_getElem hj, Option.some.injEq]
    simp only [ofFronts, reverse_take_succ hi, reverse_take_succ hj, distance_cons,
      Nat.add_sub_cancel, hsame]
  · intro i hi
    rw [hborders i hi 0 (by omega) (.inr rfl), ofFronts, List.take_zero, List.reverse_nil,
      distance_nil_right, List.length_reverse, List.length_take]
    omega
  · intro j hj
    rw [hborders 0 (by omega) j hj (.inl rfl), ofFronts, List.take_zero, List.reverse_nil,
      distance_nil_left, List.length_reverse, List.length_take]
    omega

theorem edits_reverse_iff {n : Nat} {a b : Text} : Edits n a.reverse b.reverse ↔ Edits n a b := by
  refine ⟨fun h => ?_, Edits.reverse⟩
  have hback := h.reverse
  rwa [List.reverse_reverse, List.reverse_reverse] at hback

/-- What `edit_distance` returns is the least number of edits. -/
theorem editDistance_le_iff {a b : Text} {n : Nat} :
    editDistance a b ≤ n ↔ ∃ m ≤ n, Edits m a b := by
  rw [editDistance_eq, distance_le_iff]
  simp only [edits_reverse_iff]

theorem editDistance_eq_zero {a b : Text} : editDistance a b = 0 ↔ a = b := by
  rw [← Nat.le_zero, editDistance_le_iff]
  constructor
  · rintro ⟨m, hm, hedits⟩
    obtain rfl := Nat.le_zero.mp hm
    cases hedits
    rfl
  · rintro rfl
    exact ⟨0, le_refl 0, .none a⟩

/-! ## The closest option -/

section Closest

variable {β : Type} (d : β → Nat)

theorem argmin_cons_none {l : List β} (y : β) (h : l.argmin d = none) :
    (y :: l).argmin d = some y := by
  rw [List.argmin_cons, h]

theorem argmin_cons_some {l : List β} {c : β} (y : β) (h : l.argmin d = some c) :
    (y :: l).argmin d = if d c < d y then some c else some y := by
  rw [List.argmin_cons, h]

/-- The first option that is as good as can be. -/
theorem argmin_of_find {l : List β} {x : β} (h : l.find? (fun y => d y == 0) = some x) :
    l.argmin d = some x := by
  have hzero : d x = 0 := by simpa using List.find?_some h
  induction l with
  | nil => cases h
  | cons y l ih =>
      rw [List.find?_cons] at h
      cases hy : d y == 0 with
      | true =>
          rw [hy] at h
          obtain rfl := Option.some.inj h
          cases hl : l.argmin d with
          | none => exact argmin_cons_none d y hl
          | some c =>
              rw [argmin_cons_some d y hl]
              exact if_neg (by omega)
      | false =>
          rw [hy] at h
          have hne := ne_of_beq_false hy
          rw [argmin_cons_some d y (ih h)]
          exact if_pos (by omega)

theorem argmin_map_pair (l : List β) :
    (l.map fun y => (y, d y)).argmin Prod.snd = (l.argmin d).map fun y => (y, d y) := by
  induction l with
  | nil => rfl
  | cons y l ih =>
      rw [List.map_cons]
      cases hl : l.argmin d with
      | none =>
          rw [hl] at ih
          rw [argmin_cons_none _ _ ih, argmin_cons_none d y hl]
          rfl
      | some c =>
          rw [hl] at ih
          rw [argmin_cons_some _ _ ih, argmin_cons_some d y hl]
          split
          · rfl
          · rfl

/-- A bound on the options is a bound on the closest one. -/
theorem argmin_filter_le (n : Nat) (l : List β) :
    (l.filter fun y => d y ≤ n).argmin d = (l.argmin d).filter fun y => d y ≤ n := by
  induction l with
  | nil => rfl
  -- The head stays: it is compared with the least of the filtered rest.
  | cons y l ih =>
      by_cases hy : d y ≤ n
      · rw [List.filter_cons_of_pos (by simpa using hy)]
        cases hl : l.argmin d with
        | none =>
            rw [hl] at ih
            rw [argmin_cons_none d y ih, argmin_cons_none d y hl]
            simp [Option.filter_some, hy]
        | some c =>
            rw [hl, Option.filter_some] at ih
            rw [argmin_cons_some d y hl]
            by_cases hc : d c ≤ n
            · rw [if_pos (by simpa using hc)] at ih
              rw [argmin_cons_some d y ih]
              split
              · simp [Option.filter_some, hc]
              · simp [Option.filter_some, hy]
            -- The rest's least is over the bound, so it does not beat the head.
            · rw [if_neg (by simpa using hc)] at ih
              have hlt : ¬ d c < d y := by omega
              rw [argmin_cons_none d y ih, if_neg hlt]
              simp [Option.filter_some, hy]
      -- The head goes: it is over the bound, so it can only win against something over the bound.
      · rw [List.filter_cons_of_neg (by simpa using hy), ih]
        cases hl : l.argmin d with
        | none =>
            rw [argmin_cons_none d y hl]
            simp [Option.filter_some, hy]
        | some c =>
            rw [argmin_cons_some d y hl]
            split
            · rfl
            · have hc : ¬ d c ≤ n := by omega
              simp [Option.filter_some, hc, hy]

end Closest

/-- How far an option is from what was typed. -/
def away (lower : String → String) (input option : String) : Nat :=
  editDistance (lower input).toList (lower option).toList

/-- **Did you mean.**  `edit_distance` is the least number of edits, and `did_you_mean` returns
    the first of the closest options, when it is at most two edits away. -/
theorem didYouMean_closest :
    (∀ (a b : Text) (n : Nat), editDistance a b ≤ n ↔ ∃ m ≤ n, Edits m a b) ∧
      ∀ (lower : String → String) (input : String) (options : List String),
        didYouMean lower input options =
          (options.argmin (away lower input)).filter fun o => away lower input o ≤ 2 := by
  refine ⟨fun a b n => editDistance_le_iff, fun lower input options => ?_⟩
  have hexact : ∀ o, (lower o == lower input) = (away lower input o == 0) := by
    intro o
    rw [Bool.eq_iff_iff, beq_iff_eq, beq_iff_eq, away, editDistance_eq_zero, String.toList_inj]
    exact eq_comm
  rw [didYouMean]
  simp only [hexact]
  split
  · next opt hfound =>
      have hzero : away lower input opt = 0 := by simpa using List.find?_some hfound
      rw [argmin_of_find _ hfound, Option.filter_some, hzero]
      rfl
  · have hpairs : (options.map fun o =>
          (o, editDistance (lower input).toList (lower o).toList)).filter (fun p => p.2 ≤ 2) =
        (options.filter fun o => away lower input o ≤ 2).map fun o => (o, away lower input o) :=
      List.filter_map
    have hfirst : (Prod.fst ∘ fun o => (o, away lower input o)) = id := rfl
    rw [hpairs, argmin_map_pair, argmin_filter_le, Option.map_map, hfirst, Option.map_id]
    rfl

end Maranode.Cli
