/-
  Maranode.Lib.Windows

  Counting in windows.

  Times are grouped in windows: a time that comes `width` or later after a window began
  begins the next one.  What the windows let through, up to a limit each, is compared with
  the bound over every interval of the width, wherever the interval begins (`Sliding`):
  only two windows can meet in an interval, and they are within the bound exactly when the
  later one follows the earlier one at a distance, time by time (`Paced`).
-/
import Mathlib.Data.List.Induction
import Mathlib.Tactic.Common

namespace Lib.Windows

variable (width limit : Nat)

/-! ## Intervals -/

/-- No interval of the width holds more than `limit` of the times. -/
def Sliding (times : List Nat) : Prop :=
  ∀ s, times.countP (fun t => decide (s ≤ t ∧ t < s + width)) ≤ limit

variable {width limit}

/-- One more time, after the others: the interval that ends with it has room. -/
theorem sliding_concat_iff (hwidth : 0 < width) {times : List Nat} {t : Nat}
    (hpast : ∀ x ∈ times, x ≤ t) :
    Sliding width limit (times ++ [t]) ↔ Sliding width limit times ∧
      times.countP (fun x => decide (t < x + width)) < limit := by
  have hcount : ∀ s, (times ++ [t]).countP (fun x => decide (s ≤ x ∧ x < s + width)) =
      times.countP (fun x => decide (s ≤ x ∧ x < s + width)) +
        if s ≤ t ∧ t < s + width then 1 else 0 := by
    intro s
    rw [List.countP_append, List.countP_singleton]
    simp only [decide_eq_true_eq]
  constructor
  -- The windows before are among those of the longer list, and the new one ends at `t`.
  · intro h
    refine ⟨fun s => ?_, ?_⟩
    · have hs := h s
      rw [hcount] at hs
      omega
    -- The window that ends at `t` has the new time and every time counted here.
    · have hend := h (t + 1 - width)
      rw [hcount, if_pos (by omega)] at hend
      have hsame : times.countP (fun x => decide (t + 1 - width ≤ x ∧ x < t + 1 - width + width)) =
          times.countP (fun x => decide (t < x + width)) := by
        refine List.countP_congr fun x hx => ?_
        have hle := hpast x hx
        rw [decide_eq_true_iff, decide_eq_true_iff]
        omega
      omega
  · rintro ⟨hsliding, hroom⟩ s
    rw [hcount]
    split
    · next hs =>
        -- A window with `t` in it holds no more of the times than the one that ends there.
        have hle : times.countP (fun x => decide (s ≤ x ∧ x < s + width)) ≤
            times.countP (fun x => decide (t < x + width)) := by
          refine List.countP_mono_left fun x _ hx => ?_
          rw [decide_eq_true_iff] at hx ⊢
          omega
        omega
    · exact hsliding s

/-- Without a limit to share, there are no times. -/
theorem sliding_zero_iff (hwidth : 0 < width) {times : List Nat} :
    Sliding width 0 times ↔ times = [] := by
  constructor
  · intro h
    refine List.eq_nil_iff_forall_not_mem.mpr fun t ht => ?_
    have hnone := List.countP_eq_zero.mp (Nat.le_zero.mp (h t)) t ht
    rw [decide_eq_true_iff] at hnone
    omega
  · rintro rfl s
    exact Nat.le_refl 0

/-- In times in order, those that an interval still holds are the last ones. -/
theorem countP_lt_iff {times : List Nat} {c t : Nat} (hsorted : times.Pairwise (· ≤ ·))
    (hc : c < limit) :
    times.countP (fun x => decide (t < x + width)) + c < limit ↔
      ∀ i (hi : i < times.length), i + limit = times.length + c → times[i] + width ≤ t := by
  have hsplit : ∀ i, times.countP (fun x => decide (t < x + width)) =
      (times.take i).countP (fun x => decide (t < x + width)) +
        (times.drop i).countP (fun x => decide (t < x + width)) := by
    intro i
    rw [← List.countP_append, List.take_append_drop]
  have hle : ∀ {i j} (hi : i < times.length) (hj : j < times.length), i ≤ j →
      times[i] ≤ times[j] := by
    intro i j hi hj hij
    rcases Nat.eq_or_lt_of_le hij with rfl | hlt
    · exact Nat.le_refl _
    · exact List.pairwise_iff_getElem.mp hsorted i j hi hj hlt
  constructor
  -- A time of that rank would make the window too full.
  · intro hroom i hi hrank
    by_contra hlate
    have hall : (times.drop i).countP (fun x => decide (t < x + width)) =
        (times.drop i).length := by
      rw [List.countP_eq_length]
      intro x hx
      obtain ⟨k, hk, rfl⟩ := List.mem_drop_iff_getElem.mp hx
      have horder := hle hi (by omega : i + k < times.length) (Nat.le_add_right i k)
      rw [decide_eq_true_iff]
      omega
    have htotal := hsplit i
    rw [hall, List.length_drop] at htotal
    omega
  · intro hrank
    -- Few times there are, and nothing needs to have left the window.
    by_cases hshort : times.length + c < limit
    · have hcount := List.countP_le_length (p := fun x => decide (t < x + width)) (l := times)
      omega
    -- The time of that rank left the window, and with it all before it.
    · have hi : times.length + c - limit < times.length := by omega
      have hold := hrank _ hi (by omega)
      have hnone : (times.take (times.length + c - limit + 1)).countP
          (fun x => decide (t < x + width)) = 0 := by
        rw [List.countP_eq_zero]
        intro x hx
        obtain ⟨k, hk, rfl⟩ := List.mem_take_iff_getElem.mp hx
        have horder := hle (by omega : k < times.length) hi (by omega)
        rw [decide_eq_true_iff]
        omega
      have hcount := List.countP_le_length (p := fun x => decide (t < x + width))
        (l := times.drop (times.length + c - limit + 1))
      have htotal := hsplit (times.length + c - limit + 1)
      rw [hnone] at htotal
      rw [List.length_drop] at hcount
      omega

/-! ## Windows -/

structure Window where
  start : Nat
  times : List Nat
  deriving DecidableEq

variable (width limit)

/-- The windows, newest first, with the one that a time is in at the front. -/
def current (t : Nat) : List Window → List Window
  | [] => [⟨t, []⟩]
  | w :: ws => if width ≤ t - w.start then ⟨t, []⟩ :: w :: ws else w :: ws

/-- A time in the window at the front. -/
def push (t : Nat) : List Window → List Window
  | [] => []
  | w :: ws => ⟨w.start, w.times ++ [t]⟩ :: ws

def arrive (ws : List Window) (t : Nat) : List Window := push t (current width t ws)

/-- The windows of times in order. -/
def windows (times : List Nat) : List Window := times.foldl (arrive width) []

/-- What the windows let through, in order. -/
def passed : List Window → List Nat
  | [] => []
  | w :: ws => passed ws ++ w.times.take limit

/-- What the newest window let through. -/
def newest : List Window → List Nat
  | [] => []
  | w :: _ => w.times.take limit

/-- The times come at a distance from those as far from the limit in the window before. -/
def Follows (before times : List Nat) : Prop :=
  ∀ i (hi : i < before.length), ∀ j (hj : j < times.length), i + limit = before.length + j →
    before[i] + width ≤ times[j]

/-- Each window follows the one before it. -/
def Paced : List Window → Prop
  | [] => True
  | w :: ws => Follows width limit (newest limit ws) (w.times.take limit) ∧ Paced ws

/-- The windows of times up to `now`. -/
structure Grouped (ws : List Window) (now : Nat) : Prop where
  started : ∀ w ∈ ws, w.start ≤ now
  within : ∀ w ∈ ws, ∀ x ∈ w.times, w.start ≤ x ∧ x < w.start + width ∧ x ≤ now
  sorted : ∀ w ∈ ws, w.times.Pairwise (· ≤ ·)
  spaced : ws.Pairwise fun w v => v.start + width ≤ w.start

instance Follows.decidable (before times : List Nat) :
    Decidable (Follows width limit before times) :=
  inferInstanceAs (Decidable (∀ i (hi : i < before.length), ∀ j (hj : j < times.length),
    i + limit = before.length + j → before[i] + width ≤ times[j]))

instance Paced.decidable : (ws : List Window) → Decidable (Paced width limit ws)
  | [] => .isTrue trivial
  | w :: ws =>
      have := Paced.decidable ws
      inferInstanceAs (Decidable (Follows width limit (newest limit ws) (w.times.take limit) ∧
        Paced width limit ws))

variable {width limit} {w : Window} {ws : List Window} {now t : Nat}

theorem follows_nil_right (before : List Nat) : Follows width limit before [] :=
  fun _ _ _ hj => absurd hj (Nat.not_lt_zero _)

theorem follows_concat_iff {before times : List Nat} :
    Follows width limit before (times ++ [t]) ↔ Follows width limit before times ∧
      ∀ i (hi : i < before.length), i + limit = before.length + times.length →
        before[i] + width ≤ t := by
  constructor
  · intro h
    refine ⟨fun i hi j hj hrank => ?_, fun i hi hrank => ?_⟩
    · have hij := h i hi j (by rw [List.length_append]; omega) hrank
      rwa [List.getElem_append_left hj] at hij
    · have hij := h i hi times.length (by rw [List.length_append, List.length_singleton]; omega)
        hrank
      rwa [List.getElem_concat_length rfl] at hij
  · rintro ⟨hold, hnew⟩ i hi j hj hrank
    rw [List.length_append, List.length_singleton] at hj
    rcases Nat.lt_succ_iff_lt_or_eq.mp hj with hlt | rfl
    · rw [List.getElem_append_left hlt]
      exact hold i hi j hlt hrank
    · rw [List.getElem_concat_length rfl]
      exact hnew i hi hrank

/-! ## What a time does -/

theorem Grouped.later (h : Grouped width ws now) (hnow : now ≤ t) : Grouped width ws t where
  started w hw := Nat.le_trans (h.started w hw) hnow
  within w hw x hx :=
    ⟨(h.within w hw x hx).1, (h.within w hw x hx).2.1, Nat.le_trans (h.within w hw x hx).2.2 hnow⟩
  sorted := h.sorted
  spaced := h.spaced

theorem grouped_nil : Grouped width [] now where
  started _ hw := absurd hw List.not_mem_nil
  within _ hw := absurd hw List.not_mem_nil
  sorted _ hw := absurd hw List.not_mem_nil
  spaced := List.Pairwise.nil

/-- A time is in the window at the front, which begins with it or goes on. -/
theorem current_cases (h : Grouped width ws now) (hnow : now ≤ t) (hwidth : 0 < width) :
    ∃ w rest, current width t ws = w :: rest ∧ Grouped width (w :: rest) t ∧
      t < w.start + width ∧ ((ws = w :: rest) ∨ (w = ⟨t, []⟩ ∧ rest = ws)) := by
  have hlater := h.later hnow
  have hopens : (∀ v ∈ ws, v.start + width ≤ t) → Grouped width (⟨t, []⟩ :: ws) t := by
    intro hspaced
    exact ⟨List.forall_mem_cons.mpr ⟨Nat.le_refl t, hlater.started⟩,
      List.forall_mem_cons.mpr ⟨fun _ hx => absurd hx List.not_mem_nil, hlater.within⟩,
      List.forall_mem_cons.mpr ⟨List.Pairwise.nil, hlater.sorted⟩,
      List.pairwise_cons.mpr ⟨hspaced, hlater.spaced⟩⟩
  cases ws with
  | nil =>
      exact ⟨⟨t, []⟩, [], rfl, hopens fun _ hv => absurd hv List.not_mem_nil,
        Nat.lt_add_of_pos_right hwidth, .inr ⟨rfl, rfl⟩⟩
  | cons w rest =>
      have hstarted := hlater.started w List.mem_cons_self
      by_cases hexpired : width ≤ t - w.start
      · refine ⟨⟨t, []⟩, w :: rest, if_pos hexpired, hopens ?_, Nat.lt_add_of_pos_right hwidth,
          .inr ⟨rfl, rfl⟩⟩
        rw [List.forall_mem_cons]
        refine ⟨by omega, fun v hv => ?_⟩
        have hbefore := (List.pairwise_cons.mp h.spaced).1 v hv
        omega
      · exact ⟨w, rest, if_neg hexpired, hlater, by omega, .inl rfl⟩

theorem grouped_push (h : Grouped width (w :: ws) t) (ht : t < w.start + width) :
    Grouped width (push t (w :: ws)) t where
  started := List.forall_mem_cons.mpr (List.forall_mem_cons.mp h.started)
  within := by
    have hparts := List.forall_mem_cons.mp h.within
    refine List.forall_mem_cons.mpr ⟨fun x hx => ?_, hparts.2⟩
    rcases List.mem_append.mp hx with hold | hnew
    · exact hparts.1 x hold
    · rw [List.mem_singleton.mp hnew]
      exact ⟨h.started w List.mem_cons_self, ht, Nat.le_refl t⟩
  sorted := by
    have hparts := List.forall_mem_cons.mp h.sorted
    refine List.forall_mem_cons.mpr ⟨?_, hparts.2⟩
    refine List.pairwise_append.mpr ⟨hparts.1, List.pairwise_singleton _ _, fun x hx y hy => ?_⟩
    rw [List.mem_singleton.mp hy]
    exact (h.within w List.mem_cons_self x hx).2.2
  spaced := List.pairwise_cons.mpr (List.pairwise_cons.mp h.spaced)

theorem grouped_arrive (h : Grouped width ws now) (hnow : now ≤ t) (hwidth : 0 < width) :
    Grouped width (arrive width ws t) t := by
  obtain ⟨w, rest, hcurrent, hgrouped, ht, -⟩ := current_cases h hnow hwidth
  rw [arrive, hcurrent]
  exact grouped_push hgrouped ht

theorem mem_passed {x : Nat} (hx : x ∈ passed limit ws) : ∃ w ∈ ws, x ∈ w.times := by
  induction ws with
  | nil => cases hx
  | cons w ws ih =>
      rcases List.mem_append.mp hx with hold | hnew
      · obtain ⟨v, hv, hmem⟩ := ih hold
        exact ⟨v, List.mem_cons_of_mem _ hv, hmem⟩
      · exact ⟨w, List.mem_cons_self, List.mem_of_mem_take hnew⟩

/-- Of the windows before the one a time is in, an interval that ends with the time holds
    only what the newest let through. -/
theorem countP_passed_older (h : Grouped width (w :: ws) t) :
    (passed limit ws).countP (fun x => decide (t < x + width)) =
      (newest limit ws).countP (fun x => decide (t < x + width)) := by
  cases ws with
  | nil => rfl
  | cons v older =>
      have hspaced := List.pairwise_cons.mp h.spaced
      have hstarted := h.started w List.mem_cons_self
      have hv := hspaced.1 v List.mem_cons_self
      have hold : (passed limit older).countP (fun x => decide (t < x + width)) = 0 := by
        rw [List.countP_eq_zero]
        intro x hx
        obtain ⟨u, hu, hmem⟩ := mem_passed hx
        have hwithin := h.within u (List.mem_cons_of_mem _ (List.mem_cons_of_mem _ hu)) x hmem
        have hbefore := (List.pairwise_cons.mp hspaced.2).1 u hu
        rw [decide_eq_true_iff]
        omega
      rw [passed, List.countP_append, hold, Nat.zero_add, newest]

theorem sorted_newest (h : Grouped width ws now) : (newest limit ws).Pairwise (· ≤ ·) := by
  cases ws with
  | nil => exact List.Pairwise.nil
  | cons w ws => exact (h.sorted w List.mem_cons_self).sublist (List.take_sublist limit _)

/-- What is let through with a time: the time, when its window has room. -/
theorem take_concat (times : List Nat) (t : Nat) :
    (times ++ [t]).take limit =
      times.take limit ++ if times.length < limit then [t] else [] := by
  rw [List.take_append]
  split
  · next hroom => rw [List.take_of_length_le (l := [t]) (by rw [List.length_singleton]; omega)]
  · next hfull => rw [Nat.sub_eq_zero_of_le (by omega), List.take_zero]

theorem passed_push (w : Window) (ws : List Window) (t : Nat) :
    passed limit (push t (w :: ws)) =
      passed limit (w :: ws) ++ if w.times.length < limit then [t] else [] := by
  rw [push, passed, passed, take_concat, List.append_assoc]

theorem passed_current : passed limit (current width t ws) = passed limit ws := by
  cases ws with
  | nil => exact List.take_nil
  | cons w rest =>
      rw [current]
      split
      · rw [passed, List.take_nil, List.append_nil]
      · rfl

theorem passed_arrive {rest : List Window} (h : current width t ws = w :: rest) :
    passed limit (arrive width ws t) =
      passed limit ws ++ if w.times.length < limit then [t] else [] := by
  rw [arrive, h, passed_push, ← h, passed_current]

/-- A time keeps to the bound exactly when it keeps the distance. -/
theorem sliding_push_iff (hwidth : 0 < width) (h : Grouped width (w :: ws) t)
    (ht : t < w.start + width)
    (hsame : Sliding width limit (passed limit (w :: ws)) ↔ Paced width limit (w :: ws)) :
    Sliding width limit (passed limit (push t (w :: ws))) ↔
      Paced width limit (push t (w :: ws)) := by
  rw [passed_push, push, Paced, take_concat]
  by_cases hroom : w.times.length < limit
  · rw [if_pos hroom, follows_concat_iff, and_right_comm, ← Paced, ← hsame]
    have hpast : ∀ x ∈ passed limit (w :: ws), x ≤ t := by
      intro x hx
      obtain ⟨v, hv, hmem⟩ := mem_passed hx
      exact (h.within v hv x hmem).2.2
    rw [sliding_concat_iff hwidth hpast]
    refine and_congr_right fun _ => ?_
    have htake : w.times.take limit = w.times := List.take_of_length_le (by omega)
    have hnow : w.times.countP (fun x => decide (t < x + width)) = w.times.length := by
      rw [List.countP_eq_length]
      intro x hx
      have hwithin := h.within w List.mem_cons_self x hx
      rw [decide_eq_true_iff]
      omega
    rw [passed, List.countP_append, countP_passed_older h, htake, hnow]
    have holder : Grouped width ws t :=
      ⟨(List.forall_mem_cons.mp h.started).2, (List.forall_mem_cons.mp h.within).2,
        (List.forall_mem_cons.mp h.sorted).2, (List.pairwise_cons.mp h.spaced).2⟩
    exact countP_lt_iff (sorted_newest holder) hroom
  · rw [if_neg hroom, List.append_nil, List.append_nil, ← Paced]
    exact hsame

theorem sliding_arrive_iff (hwidth : 0 < width) (h : Grouped width ws now) (hnow : now ≤ t)
    (hsame : Sliding width limit (passed limit ws) ↔ Paced width limit ws) :
    Sliding width limit (passed limit (arrive width ws t)) ↔
      Paced width limit (arrive width ws t) := by
  obtain ⟨w, rest, hcurrent, hgrouped, ht, hcases⟩ := current_cases h hnow hwidth
  rw [arrive, hcurrent]
  refine sliding_push_iff hwidth hgrouped ht ?_
  rcases hcases with rfl | ⟨rfl, rfl⟩
  · exact hsame
  · rw [passed, List.take_nil, List.append_nil, Paced, List.take_nil,
      and_iff_right (follows_nil_right _)]
    exact hsame

/-- **Windows.**  For times in order, what the windows let through is within the bound over
    every interval exactly when each window follows the one before it at a distance. -/
theorem sliding_windows_iff (hwidth : 0 < width) {times : List Nat}
    (hsorted : times.Pairwise (· ≤ ·)) :
    Sliding width limit (passed limit (windows width times)) ↔
      Paced width limit (windows width times) := by
  have hrun : ∀ (times : List Nat) (ws : List Window) (now : Nat), Grouped width ws now →
      times.Pairwise (· ≤ ·) → (∀ t ∈ times, now ≤ t) →
      (Sliding width limit (passed limit ws) ↔ Paced width limit ws) →
      (Sliding width limit (passed limit (times.foldl (arrive width) ws)) ↔
        Paced width limit (times.foldl (arrive width) ws)) := by
    intro times
    induction times with
    | nil => exact fun _ _ _ _ _ hsame => hsame
    | cons t times ih =>
        intro ws now hgrouped hsorted hnow hsame
        have ht := hnow t List.mem_cons_self
        have hparts := List.pairwise_cons.mp hsorted
        exact ih _ t (grouped_arrive hgrouped ht hwidth) hparts.2 hparts.1
          (sliding_arrive_iff hwidth hgrouped ht hsame)
  refine hrun times [] 0 grouped_nil hsorted (fun t _ => Nat.zero_le t) (iff_of_true ?_ trivial)
  exact fun s => Nat.zero_le _

end Lib.Windows
