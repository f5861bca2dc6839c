/-
  Maranode.Lib.EditDistance

  The number of edits between two lists.

  An edit inserts, deletes or replaces one element, anywhere.  Edits in any order can be done
  from the left to the right, so a recurrence over the two lists finds the least number of
  them (`distance_le_iff`).
-/
import Mathlib.Data.Nat.Basic

namespace Lib.EditDistance

variable {α : Type}

/-! ## Edits -/

/-- One element is inserted, deleted or replaced, here or further on. -/
inductive Edit : List α → List α → Prop where
  | insert (c : α) (bs : List α) : Edit bs (c :: bs)
  | delete (c : α) (bs : List α) : Edit (c :: bs) bs
  | replace (c d : α) (bs : List α) : Edit (c :: bs) (d :: bs)
  | later (c : α) {bs cs : List α} (h : Edit bs cs) : Edit (c :: bs) (c :: cs)

/-- A number of edits, one after the other. -/
inductive Edits : Nat → List α → List α → Prop where
  | none (as : List α) : Edits 0 as as
  | more {n : Nat} {as bs cs : List α} (h : Edits n as bs) (hedit : Edit bs cs) :
      Edits (n + 1) as cs

theorem Edit.append_left {as bs : List α} (h : Edit as bs) (front : List α) :
    Edit (front ++ as) (front ++ bs) := by
  induction front with
  | nil => exact h
  | cons c front ih => exact .later c ih

theorem Edit.append_right {as bs : List α} (h : Edit as bs) (back : List α) :
    Edit (as ++ back) (bs ++ back) := by
  induction h with
  | insert c bs => exact .insert c (bs ++ back)
  | delete c bs => exact .delete c (bs ++ back)
  | replace c d bs => exact .replace c d (bs ++ back)
  | later c h ih => exact .later c ih

theorem Edit.reverse {as bs : List α} (h : Edit as bs) : Edit as.reverse bs.reverse := by
  induction h with
  | insert c bs =>
      have hlast := (Edit.insert c []).append_left bs.reverse
      rwa [List.append_nil, ← List.reverse_cons] at hlast
  | delete c bs =>
      have hlast := (Edit.delete c []).append_left bs.reverse
      rwa [List.append_nil, ← List.reverse_cons] at hlast
  | replace c d bs =>
      have hlast := (Edit.replace c d []).append_left bs.reverse
      rwa [← List.reverse_cons, ← List.reverse_cons] at hlast
  | later c h ih =>
      rw [List.reverse_cons, List.reverse_cons]
      exact ih.append_right [c]

theorem Edits.reverse {n : Nat} {as bs : List α} (h : Edits n as bs) :
    Edits n as.reverse bs.reverse := by
  induction h with
  | none as => exact .none as.reverse
  | more h hedit ih => exact .more ih hedit.reverse

theorem Edits.later {n : Nat} {as bs : List α} (h : Edits n as bs) (c : α) :
    Edits n (c :: as) (c :: bs) := by
  induction h with
  | none as => exact .none (c :: as)
  | more h hedit ih => exact .more ih (.later c hedit)

/-! ## Alignments -/

/-- What becomes of the elements, from the left to the right, and how many of them change. -/
inductive Align : Nat → List α → List α → Prop where
  | nil : Align 0 [] []
  | keep {n : Nat} {as bs : List α} (c : α) (h : Align n as bs) : Align n (c :: as) (c :: bs)
  | insert {n : Nat} {as bs : List α} (c : α) (h : Align n as bs) : Align (n + 1) as (c :: bs)
  | delete {n : Nat} {as bs : List α} (c : α) (h : Align n as bs) : Align (n + 1) (c :: as) bs
  | replace {n : Nat} {as bs : List α} (c d : α) (h : Align n as bs) :
      Align (n + 1) (c :: as) (d :: bs)

theorem Align.refl (as : List α) : Align 0 as as := by
  induction as with
  | nil => exact .nil
  | cons c as ih => exact .keep c ih

theorem align_nil_left (bs : List α) : Align bs.length [] bs := by
  induction bs with
  | nil => exact .nil
  | cons b bs ih => exact .insert b ih

theorem align_nil_right (as : List α) : Align as.length as [] := by
  induction as with
  | nil => exact .nil
  | cons a as ih => exact .delete a ih

/-- The changes of an alignment are edits. -/
theorem Align.edits {n : Nat} {as bs : List α} (h : Align n as bs) : Edits n as bs := by
  induction h with
  | nil => exact .none []
  | keep c h ih => exact ih.later c
  | @insert n as bs c h ih => exact .more ih (.insert c bs)
  | @delete n as bs c h ih => exact .more (ih.later c) (.delete c bs)
  | @replace n as bs c d h ih => exact .more (ih.later c) (.replace c d bs)

/-- One more edit changes at most one more element. -/
theorem Align.edit {n : Nat} {as bs cs : List α} (h : Align n as bs) (hedit : Edit bs cs) :
    ∃ m ≤ n + 1, Align m as cs := by
  -- The induction is on the alignment; the edit touches its first column or a later one.
  induction h generalizing cs with
  | nil =>
      cases hedit with
      | insert c => exact ⟨1, by omega, .insert c .nil⟩
  | @keep n as bs c h ih =>
      cases hedit with
      | insert d => exact ⟨n + 1, by omega, .insert d (.keep c h)⟩
      | delete => exact ⟨n + 1, by omega, .delete c h⟩
      | replace c d => exact ⟨n + 1, by omega, .replace c d h⟩
      | later c hlater =>
          obtain ⟨m, hm, halign⟩ := ih hlater
          exact ⟨m, hm, .keep c halign⟩
  | @insert n as bs c h ih =>
      -- An insertion that is edited again: undone, replaced or kept.
      cases hedit with
      | insert d => exact ⟨n + 2, by omega, .insert d (.insert c h)⟩
      | delete => exact ⟨n, by omega, h⟩
      | replace c d => exact ⟨n + 1, by omega, .insert d h⟩
      | later c hlater =>
          obtain ⟨m, hm, halign⟩ := ih hlater
          exact ⟨m + 1, by omega, .insert c halign⟩
  | @delete n as bs a h ih =>
      -- What was deleted is not there to be edited.
      obtain ⟨m, hm, halign⟩ := ih hedit
      exact ⟨m + 1, by omega, .delete a halign⟩
  | @replace n as bs a c h ih =>
      cases hedit with
      | insert d => exact ⟨n + 2, by omega, .insert d (.replace a c h)⟩
      | delete => exact ⟨n + 1, by omega, .delete a h⟩
      | replace c d => exact ⟨n + 1, by omega, .replace a d h⟩
      | later c hlater =>
          obtain ⟨m, hm, halign⟩ := ih hlater
          exact ⟨m + 1, by omega, .replace a c halign⟩

/-- Edits in any order are an alignment with no more changes. -/
theorem Edits.align {n : Nat} {as bs : List α} (h : Edits n as bs) : ∃ m ≤ n, Align m as bs := by
  induction h with
  | none as => exact ⟨0, le_refl 0, .refl as⟩
  | more h hedit ih =>
      obtain ⟨m, hm, halign⟩ := ih
      obtain ⟨m', hm', halign'⟩ := halign.edit hedit
      exact ⟨m', by omega, halign'⟩

/-! ## The recurrence -/

variable [DecidableEq α]

/-- The recurrence.  Equal elements are kept without a look at the other ways. -/
def distance : List α → List α → Nat
  | [], bs => bs.length
  | a :: as, [] => (a :: as).length
  | a :: as, b :: bs =>
      if a = b then distance as bs
      else 1 + min (min (distance as bs) (distance as (b :: bs))) (distance (a :: as) bs)
termination_by as bs => as.length + bs.length

@[simp] theorem distance_nil_left (bs : List α) : distance [] bs = bs.length := by
  rw [distance]

@[simp] theorem distance_nil_right (as : List α) : distance as [] = as.length := by
  cases as with
  | nil => rw [distance]
  | cons a as => rw [distance]

theorem distance_cons (a b : α) (as bs : List α) :
    distance (a :: as) (b :: bs) =
      if a = b then distance as bs
      else 1 + min (min (distance as bs) (distance as (b :: bs))) (distance (a :: as) bs) := by
  rw [distance]

/-- Neighbours differ by at most one.  The induction is on the size of the table. -/
theorem distance_near (n : Nat) (as bs : List α) (hn : as.length + bs.length = n) (c : α) :
    (distance as (c :: bs) ≤ distance as bs + 1 ∧ distance as bs ≤ distance as (c :: bs) + 1) ∧
      distance (c :: as) bs ≤ distance as bs + 1 ∧ distance as bs ≤ distance (c :: as) bs + 1 := by
  -- Both bounds at once, by induction on the two lengths together.
  induction n using Nat.strong_induction_on generalizing as bs c with
  | _ n ih =>
      constructor
      · cases as with
        | nil =>
            rw [distance_nil_left, distance_nil_left, List.length_cons]
            omega
        | cons a as =>
            have hsize : as.length + bs.length < n := by
              rw [List.length_cons] at hn
              omega
            -- The distance is the least of three, and each of them is near by induction.
            obtain ⟨⟨-, hc⟩, ha, ha'⟩ := ih _ hsize as bs rfl a
            obtain ⟨⟨-, hc⟩, -⟩ := ih _ hsize as bs rfl c
            rw [distance_cons]
            split
            · omega
            · omega
      · cases bs with
        | nil =>
            rw [distance_nil_right, distance_nil_right, List.length_cons]
            omega
        | cons b bs =>
            have hsize : as.length + bs.length < n := by
              rw [List.length_cons] at hn
              omega
            obtain ⟨⟨hb, hb'⟩, -⟩ := ih _ hsize as bs rfl b
            obtain ⟨-, -, hc⟩ := ih _ hsize as bs rfl c
            rw [distance_cons]
            split
            · omega
            · omega

theorem distance_insert_le (as bs : List α) (c : α) :
    distance as (c :: bs) ≤ distance as bs + 1 :=
  (distance_near _ as bs rfl c).1.1

theorem distance_delete_le (as bs : List α) (c : α) :
    distance (c :: as) bs ≤ distance as bs + 1 :=
  (distance_near _ as bs rfl c).2.1

/-- No alignment changes fewer elements. -/
theorem distance_le_of_align {n : Nat} {as bs : List α} (h : Align n as bs) :
    distance as bs ≤ n := by
  induction h with
  | nil => simp
  | keep c h ih =>
      rw [distance_cons, if_pos rfl]
      exact ih
  | @insert n as bs c h ih =>
      have hle := distance_insert_le as bs c
      omega
  | @delete n as bs c h ih =>
      have hle := distance_delete_le as bs c
      omega
  | @replace n as bs c d h ih =>
      have hstep := distance_cons c d as bs
      split at hstep
      · omega
      · omega

/-- The recurrence counts the changes of an alignment. -/
theorem align_distance (as bs : List α) : Align (distance as bs) as bs := by
  induction as, bs using distance.induct with
  | case1 bs =>
      rw [distance_nil_left]
      exact align_nil_left bs
  | case2 a as =>
      rw [distance_nil_right]
      exact align_nil_right (a :: as)
  | case3 as b bs ih =>
      rw [distance_cons, if_pos rfl]
      exact .keep b ih
  | case4 a as b bs hne ih1 ih2 ih3 =>
      rw [distance_cons, if_neg hne, Nat.add_comm]
      rcases Nat.le_total (min (distance as bs) (distance as (b :: bs))) (distance (a :: as) bs)
        with hle | hle
      · rw [Nat.min_eq_left hle]
        rcases Nat.le_total (distance as bs) (distance as (b :: bs)) with hle' | hle'
        · rw [Nat.min_eq_left hle']
          exact .replace a b ih1
        · rw [Nat.min_eq_right hle']
          exact .delete a ih2
      · rw [Nat.min_eq_right hle]
        exact .insert b ih3

/-- The distance is the least number of edits. -/
theorem distance_le_iff {n : Nat} {as bs : List α} :
    distance as bs ≤ n ↔ ∃ m ≤ n, Edits m as bs := by
  constructor
  · intro h
    exact ⟨distance as bs, h, (align_distance as bs).edits⟩
  · rintro ⟨m, hm, hedits⟩
    obtain ⟨m', hm', halign⟩ := hedits.align
    have hle := distance_le_of_align halign
    omega

end Lib.EditDistance
