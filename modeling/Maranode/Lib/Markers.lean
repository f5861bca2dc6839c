/-
  Maranode.Lib.Markers

  A text divided by markers: every piece of it starts with a marker, which says what the
  piece is, and goes on with any text.

  The text of a piece may itself hold markers.  Nothing tells these from the ones that were
  written between the pieces, so what can be read back is what is left when every piece is
  cut at the markers in it: two divided texts are equal exactly when that agrees
  (`render_eq_iff`).  Markers that do not overlap are needed for this, and a `Markers`
  carries that they do not.
-/
import Mathlib.Data.List.Infix
import Mathlib.Data.List.Flatten

namespace Lib

/-- Finitely many markers, none of which is found at the start of another or starts inside
    one. -/
structure Markers (ι α : Type) where
  all : List ι
  text : ι → List α
  mem_all : ∀ i, i ∈ all
  text_ne_nil : ∀ i, text i ≠ []
  eq_of_prefix : ∀ i j, text i <+: text j → i = j
  apart : ∀ i j, ∀ k < (text i).length, 0 < k →
    ¬ (text i).drop k <+: text j ∧ ¬ text j <+: (text i).drop k

namespace Markers

variable {ι α : Type} (M : Markers ι α)

theorem length_text_pos (i : ι) : 0 < (M.text i).length :=
  List.length_pos_of_ne_nil (M.text_ne_nil i)

/-- A marker that starts in a text does not reach into one that starts with a marker. -/
theorem not_prefix_append {c rest : List α} (hc : c ≠ []) {i j : ι} (h : ¬ M.text i <+: c) :
    ¬ M.text i <+: c ++ (M.text j ++ rest) := by
  intro hpre
  by_cases hlen : (M.text i).length ≤ c.length
  · exact h (List.prefix_of_prefix_length_le hpre (List.prefix_append c _) hlen)
  · rw [Nat.not_le] at hlen
    -- What is behind the end of `c` would be compared with the marker there.
    have hover : (M.text i).drop c.length <+: M.text j ++ rest := by
      have hdrop := hpre.drop c.length
      rwa [List.drop_left] at hdrop
    have hpos : 0 < c.length := List.length_pos_of_ne_nil hc
    obtain ⟨hshort, hlong⟩ := M.apart i j c.length hlen hpos
    rcases List.prefix_or_prefix_of_prefix hover (List.prefix_append (M.text j) rest) with hij | hji
    · exact hshort hij
    · exact hlong hji

/-- The text of some pieces. -/
def render (pieces : List (ι × List α)) : List α :=
  pieces.flatMap fun p => M.text p.1 ++ p.2

theorem render_cons (p : ι × List α) (pieces : List (ι × List α)) :
    M.render (p :: pieces) = M.text p.1 ++ (p.2 ++ M.render pieces) := by
  rw [render, List.flatMap_cons, List.append_assoc]
  rfl

theorem render_append (ps qs : List (ι × List α)) :
    M.render (ps ++ qs) = M.render ps ++ M.render qs :=
  List.flatMap_append

/-! ## Cutting a text -/

variable [DecidableEq α]

/-- The marker a text starts with. -/
def head? (s : List α) : Option ι := M.all.find? fun i => decide (M.text i <+: s)

theorem prefix_of_head? {s : List α} {i : ι} (h : M.head? s = some i) : M.text i <+: s :=
  of_decide_eq_true (List.find?_some (p := fun i => decide (M.text i <+: s)) h)

theorem head?_eq_none_iff {s : List α} : M.head? s = none ↔ ∀ i, ¬ M.text i <+: s := by
  rw [head?, List.find?_eq_none]
  constructor
  · intro h i
    have hnot := h i (M.mem_all i)
    rwa [decide_eq_true_iff] at hnot
  · intro h i _
    rw [decide_eq_true_iff]
    exact h i

/-- A text starts with one marker at most. -/
theorem head?_eq_some_of_prefix {s : List α} {i : ι} (h : M.text i <+: s) :
    M.head? s = some i := by
  cases hhead : M.head? s with
  | none => exact absurd h (M.head?_eq_none_iff.mp hhead i)
  | some j =>
      have hj := M.prefix_of_head? hhead
      rcases List.prefix_or_prefix_of_prefix h hj with hij | hji
      · rw [M.eq_of_prefix i j hij]
      · rw [M.eq_of_prefix j i hji]

/-- What comes before the first marker, and what follows each one. -/
def cut (s : List α) : List α × List (ι × List α) :=
  match s with
  | [] => ([], [])
  | a :: s =>
      match M.head? (a :: s) with
      | some i =>
          let (c, pieces) := cut ((a :: s).drop (M.text i).length)
          ([], (i, c) :: pieces)
      | none =>
          let (c, pieces) := cut s
          (a :: c, pieces)
termination_by s.length
decreasing_by
  · have hpos := M.length_text_pos i
    rw [List.length_drop, List.length_cons]
    omega
  · exact Nat.lt_succ_self _

@[simp] theorem cut_nil : M.cut [] = ([], []) := by
  rw [cut]

/-- A marker ends what comes before it. -/
theorem cut_of_prefix {s : List α} {i : ι} (h : M.text i <+: s) :
    M.cut s = ([], (i, (M.cut (s.drop (M.text i).length)).1)
      :: (M.cut (s.drop (M.text i).length)).2) := by
  cases s with
  | nil => exact absurd (List.prefix_nil.mp h) (M.text_ne_nil i)
  | cons a s => rw [cut, M.head?_eq_some_of_prefix h]

theorem cut_cons_of_none {a : α} {s : List α} (h : M.head? (a :: s) = none) :
    M.cut (a :: s) = (a :: (M.cut s).1, (M.cut s).2) := by
  rw [cut, h]

theorem cut_text_append (i : ι) (s : List α) :
    M.cut (M.text i ++ s) = ([], (i, (M.cut s).1) :: (M.cut s).2) := by
  rw [M.cut_of_prefix (List.prefix_append (M.text i) s), List.drop_left]

/-- A written marker is where the text before it ends, whatever that is. -/
theorem cut_append (c rest : List α) (j : ι) :
    M.cut (c ++ (M.text j ++ rest))
      = ((M.cut c).1, (M.cut c).2 ++ (j, (M.cut rest).1) :: (M.cut rest).2) := by
  induction hlen : c.length using Nat.strong_induction_on generalizing c with
  | _ n ih =>
      cases c with
      | nil =>
          rw [List.nil_append, M.cut_text_append, M.cut_nil]
          rfl
      | cons a c =>
          rw [List.length_cons] at hlen
          cases hhead : M.head? (a :: c) with
          | some i =>
              obtain ⟨d, hd⟩ := M.prefix_of_head? hhead
              have hless : d.length < n := by
                have hpos := M.length_text_pos i
                have htotal := congrArg List.length hd
                rw [List.length_append, List.length_cons] at htotal
                omega
              rw [← hd, List.append_assoc, M.cut_text_append, M.cut_text_append, ih _ hless d rfl]
              rfl
          | none =>
              have hnone : M.head? (a :: (c ++ (M.text j ++ rest))) = none := by
                rw [head?_eq_none_iff] at hhead ⊢
                intro i
                exact M.not_prefix_append (List.cons_ne_nil a c) (hhead i)
              rw [List.cons_append, M.cut_cons_of_none hnone, M.cut_cons_of_none hhead,
                ih c.length (by omega) c rfl]

/-! ## Pieces -/

/-- A piece, cut at the markers in it. -/
def divide (p : ι × List α) : List (ι × List α) := (p.1, (M.cut p.2).1) :: (M.cut p.2).2

theorem cut_append_render (c : List α) (pieces : List (ι × List α)) :
    M.cut (c ++ M.render pieces) = ((M.cut c).1, (M.cut c).2 ++ pieces.flatMap M.divide) := by
  induction pieces generalizing c with
  | nil =>
      rw [render, List.flatMap_nil, List.flatMap_nil, List.append_nil, List.append_nil]
  | cons p pieces ih =>
      rw [render_cons, M.cut_append, ih, List.flatMap_cons]
      rfl

/-- Cutting loses nothing. -/
theorem cut_join (s : List α) : (M.cut s).1 ++ M.render (M.cut s).2 = s := by
  induction hlen : s.length using Nat.strong_induction_on generalizing s with
  | _ n ih =>
      cases s with
      | nil =>
          rw [M.cut_nil]
          rfl
      | cons a s =>
          rw [List.length_cons] at hlen
          cases hhead : M.head? (a :: s) with
          | some i =>
              obtain ⟨d, hd⟩ := M.prefix_of_head? hhead
              have hless : d.length < n := by
                have hpos := M.length_text_pos i
                have htotal := congrArg List.length hd
                rw [List.length_append, List.length_cons] at htotal
                omega
              rw [← hd, M.cut_text_append, List.nil_append, render_cons, ih _ hless d rfl]
          | none =>
              rw [M.cut_cons_of_none hhead, List.cons_append, ih s.length (by omega) s rfl]

theorem render_divide (p : ι × List α) : M.render (M.divide p) = M.text p.1 ++ p.2 := by
  rw [divide, render_cons, M.cut_join]

theorem render_flatMap_divide (pieces : List (ι × List α)) :
    M.render (pieces.flatMap M.divide) = M.render pieces := by
  induction pieces with
  | nil => rfl
  | cons p pieces ih =>
      rw [List.flatMap_cons, render_append, ih, M.render_divide, render_cons, List.append_assoc]

/-- Two divided texts are equal exactly when their pieces are, once cut. -/
theorem render_eq_iff {ps qs : List (ι × List α)} :
    M.render ps = M.render qs ↔ ps.flatMap M.divide = qs.flatMap M.divide := by
  constructor
  · intro h
    have hps := M.cut_append_render [] ps
    have hqs := M.cut_append_render [] qs
    rw [h, hqs, M.cut_nil] at hps
    exact (congrArg Prod.snd hps).symm
  · intro h
    rw [← M.render_flatMap_divide ps, ← M.render_flatMap_divide qs, h]

/-! ## Pieces without markers -/

/-- No marker is anywhere in the text. -/
def Free (s : List α) : Prop := ∀ i, ¬ M.text i <:+: s

theorem cut_of_free {s : List α} (h : M.Free s) : M.cut s = (s, []) := by
  induction s with
  | nil => exact M.cut_nil
  | cons a s ih =>
      have hnone : M.head? (a :: s) = none :=
        M.head?_eq_none_iff.mpr fun i hpre => h i hpre.isInfix
      rw [M.cut_cons_of_none hnone, ih fun i hin => h i (List.infix_cons hin)]

theorem divide_of_free {p : ι × List α} (h : M.Free p.2) : M.divide p = [p] := by
  rw [divide, M.cut_of_free h]

/-- A piece with a marker in it falls apart. -/
theorem one_lt_length_divide {p : ι × List α} (h : ¬ M.Free p.2) : 1 < (M.divide p).length := by
  obtain ⟨i, hin⟩ := not_forall.mp h
  obtain ⟨c, rest, hp⟩ := not_not.mp hin
  have hrender : p.2 = c ++ M.render [(i, rest)] := by
    rw [render_cons, render, List.flatMap_nil, List.append_nil, ← hp, List.append_assoc]
  rw [divide, hrender, M.cut_append_render, List.flatMap_singleton, divide]
  simp only [List.length_cons, List.length_append]
  omega

end Markers

end Lib
