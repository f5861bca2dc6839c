/-
  Maranode.Lib.TopK

  The first k of a list in a stable order.

  A stable sort of two lists one after the other is the merge of their sorts, and the first
  k of a merge are those of the merge of the first k of each.  What is selected from many
  lists can so be selected from each of them first (`topK_flatMap`).
-/
import Mathlib.Data.List.Sort

namespace Lib.TopK

variable {α β : Type} {le : α → α → Bool}

/-- The first `k` in the order, elements that are equal in it as they stand. -/
def topK (le : α → α → Bool) (k : Nat) (l : List α) : List α := (l.mergeSort le).take k

/-- A total preorder. -/
structure Total (le : α → α → Bool) : Prop where
  trans : ∀ a b c, le a b = true → le b c = true → le a c = true
  total : ∀ a b, (le a b || le b a) = true

theorem Total.comap (h : Total le) (f : β → α) : Total fun a b => le (f a) (f b) where
  trans a b c := h.trans (f a) (f b) (f c)
  total a b := h.total (f a) (f b)

theorem Total.le_of_not_le (h : Total le) {a b : α} (hab : ¬ le a b = true) :
    le b a = true := by
  rcases Bool.or_eq_true_iff.mp (h.total a b) with hle | hle
  · exact absurd hle hab
  · exact hle

/-! ## Sorting and merging -/

/-- Put an element before the first that it does not come after. -/
def insert (le : α → α → Bool) (a : α) (l : List α) : List α :=
  l.orderedInsert (fun x y => le x y = true) a

theorem insert_pos {a b : α} (h : le a b = true) (l : List α) :
    insert le a (b :: l) = a :: b :: l :=
  List.orderedInsert_cons_of_le (r := fun x y => le x y = true) l h

theorem insert_neg {a b : α} (h : ¬ le a b = true) (l : List α) :
    insert le a (b :: l) = b :: insert le a l :=
  List.orderedInsert_of_not_le (r := fun x y => le x y = true) l h

/-- A new first element stays before all that are equal to it. -/
theorem mergeSort_cons_eq (h : Total le) (a : α) (l : List α) :
    (a :: l).mergeSort le = insert le a (l.mergeSort le) := by
  obtain ⟨l₁, l₂, hcons, hrest, hbefore⟩ := List.mergeSort_cons h.trans h.total a l
  have hsorted : (l₁ ++ a :: l₂).Pairwise (fun x y => le x y = true) := by
    rw [← hcons]
    exact List.pairwise_mergeSort h.trans h.total _
  have hafter : ∀ b ∈ l₂, le a b = true :=
    (List.pairwise_cons.mp (List.pairwise_append.mp hsorted).2.1).1
  rw [hcons, hrest]
  clear hcons hrest hsorted
  induction l₁ with
  | nil =>
      cases l₂ with
      | nil => rfl
      | cons b l₂ =>
          exact (insert_pos (hafter b (List.mem_cons_self ..)) l₂).symm
  | cons b l₁ ih =>
      have hb : ¬ le a b = true := by
        have hnot := hbefore b (List.mem_cons_self ..)
        simpa using hnot
      rw [List.cons_append, List.cons_append, insert_neg hb,
        ih fun c hc => hbefore c (List.mem_cons_of_mem _ hc)]

/-- Putting an element into the first of two lists puts it into their merge. -/
theorem merge_insert (h : Total le) (a : α) (xs ys : List α) :
    (insert le a xs).merge ys le = insert le a (xs.merge ys le) := by
  -- The two lists are walked together, so the induction is on both.
  induction xs generalizing ys with
  | nil =>
      induction ys with
      | nil => simp
      | cons y ys ihy =>
          rw [List.nil_merge] at ihy ⊢
          show [a].merge (y :: ys) le = _
          by_cases hay : le a y = true
          · rw [insert_pos hay, List.cons_merge_cons_pos _ _ _ hay, List.nil_merge]
          · rw [insert_neg hay, ← ihy, List.cons_merge_cons_neg _ _ _ hay]
            rfl
  | cons x xs ihx =>
      induction ys with
      | nil => simp
      | cons y ys ihy =>
          -- The inserted one comes first on the left side, and then it is compared with the right.
          by_cases hax : le a x = true
          · rw [insert_pos hax] at ihy ⊢
            by_cases hay : le a y = true
            · rw [List.cons_merge_cons_pos _ _ _ hay]
              by_cases hxy : le x y = true
              · rw [List.cons_merge_cons_pos _ _ _ hxy, insert_pos hax]
              · rw [List.cons_merge_cons_neg _ _ _ hxy, insert_pos hay]
            · have hxy : ¬ le x y = true := fun hxy => hay (h.trans a x y hax hxy)
              rw [List.cons_merge_cons_neg _ _ _ hay, List.cons_merge_cons_neg _ _ _ hxy,
                insert_neg hay, ihy]
          -- The left head stays in front of the inserted one.
          · rw [insert_neg hax] at ihy ⊢
            by_cases hxy : le x y = true
            · rw [List.cons_merge_cons_pos _ _ _ hxy, List.cons_merge_cons_pos _ _ _ hxy,
                insert_neg hax, ihx]
            · have hay : ¬ le a y = true := fun hay =>
                hax (h.trans a y x hay (h.le_of_not_le hxy))
              rw [List.cons_merge_cons_neg _ _ _ hxy, List.cons_merge_cons_neg _ _ _ hxy,
                insert_neg hay, ihy]

theorem mergeSort_append (h : Total le) (xs ys : List α) :
    (xs ++ ys).mergeSort le = (xs.mergeSort le).merge (ys.mergeSort le) le := by
  induction xs with
  | nil => simp
  | cons x xs ih =>
      rw [List.cons_append, mergeSort_cons_eq h, ih, mergeSort_cons_eq h, merge_insert h]

/-- What comes first in a merge comes first in one of the two. -/
theorem take_merge (le : α → α → Bool) (k : Nat) (xs ys : List α) :
    (xs.merge ys le).take k = ((xs.take k).merge (ys.take k) le).take k := by
  induction k generalizing xs ys with
  | zero => simp
  | succ k ih =>
      -- One of the two can be cut one later.
      have hcut : ∀ us vs : List α, (us.merge vs le).take k =
          ((us.take k).merge (vs.take (k + 1)) le).take k ∧
          (us.merge vs le).take k = ((us.take (k + 1)).merge (vs.take k) le).take k := by
        intro us vs
        have hle : k ≤ k + 1 := by omega
        constructor
        · rw [ih us vs, ih (us.take k) (vs.take (k + 1)), List.take_take, List.take_take,
            Nat.min_self, Nat.min_eq_left hle]
        · rw [ih us vs, ih (us.take (k + 1)) (vs.take k), List.take_take, List.take_take,
            Nat.min_self, Nat.min_eq_left hle]
      cases xs with
      | nil => simp [List.take_take]
      | cons x xs =>
          cases ys with
          | nil => simp [List.take_take]
          | cons y ys =>
              rw [List.take_succ_cons, List.take_succ_cons]
              by_cases hxy : le x y = true
              · rw [List.cons_merge_cons_pos _ _ _ hxy, List.cons_merge_cons_pos _ _ _ hxy]
                exact congrArg (x :: ·) (hcut xs (y :: ys)).1
              · rw [List.cons_merge_cons_neg _ _ _ hxy, List.cons_merge_cons_neg _ _ _ hxy]
                exact congrArg (y :: ·) (hcut (x :: xs) ys).2

/-! ## Selecting -/

/-- What was selected is in order. -/
theorem mergeSort_topK (h : Total le) (k : Nat) (l : List α) :
    (topK le k l).mergeSort le = topK le k l := by
  apply List.mergeSort_of_pairwise
  exact (List.pairwise_mergeSort h.trans h.total l).sublist (List.take_sublist k _)

theorem topK_topK (h : Total le) (k : Nat) (l : List α) :
    topK le k (topK le k l) = topK le k l := by
  rw [topK, mergeSort_topK h, topK, List.take_take, Nat.min_self]

theorem topK_append (h : Total le) (k : Nat) (xs ys : List α) :
    topK le k (xs ++ ys) = topK le k (topK le k xs ++ topK le k ys) := by
  rw [topK, topK, mergeSort_append h, mergeSort_append h, mergeSort_topK h, mergeSort_topK h]
  exact take_merge le k _ _

/-- **Selecting in two steps.**  The first k of many lists are among the first k of each. -/
theorem topK_flatMap (h : Total le) (k : Nat) (f : β → List α) (l : List β) :
    topK le k (l.flatMap fun b => topK le k (f b)) = topK le k (l.flatMap f) := by
  induction l with
  | nil => rfl
  | cons b l ih =>
      rw [List.flatMap_cons, List.flatMap_cons, topK_append h, topK_topK h, ih, ← topK_append h]

/-- The order matters for the elements only. -/
theorem topK_congr {le' : α → α → Bool} {l : List α} (h : ∀ a ∈ l, ∀ b ∈ l, le a b = le' a b)
    (k : Nat) : topK le k l = topK le' k l := by
  have hmap := List.map_mergeSort (f := id) (r := le) (s := le') h
  rw [List.map_id, List.map_id] at hmap
  rw [topK, topK, hmap]

end Lib.TopK
