/-
  Maranode.Lib.Calendar

  The proleptic Gregorian calendar: days, counted from the first of the year 0, and the
  dates they have.

  A later day has a later date (`Date.ofDays_before`), and a date tells its day
  (`Date.toDays_ofDays`).
-/
import Mathlib.Algebra.Order.Group.Int

namespace Lib

/-! ## Years -/

def isLeap (y : Int) : Bool := decide (y % 4 = 0 ∧ (y % 100 ≠ 0 ∨ y % 400 = 0))

/-- The days before a year. -/
def daysBefore (y : Int) : Int := 365 * y + (y + 3) / 4 - (y + 99) / 100 + (y + 399) / 400

def yearLength (y : Int) : Nat := if isLeap y then 366 else 365

/-- The year of a day: the mean length of a year guesses it but for one. -/
def yearOf (d : Int) : Int :=
  let y := d * 400 / 146097
  if d < daysBefore y then y - 1 else if daysBefore (y + 1) ≤ d then y + 1 else y

theorem daysBefore_succ (y : Int) : daysBefore (y + 1) = daysBefore y + yearLength y := by
  rw [yearLength]
  cases hleap : isLeap y with
  | true =>
      have h := of_decide_eq_true hleap
      rw [if_pos rfl, daysBefore, daysBefore]
      omega
  | false =>
      have h := of_decide_eq_false hleap
      rw [if_neg Bool.false_ne_true, daysBefore, daysBefore]
      omega

theorem daysBefore_le (d : Int) : daysBefore (d * 400 / 146097 - 1) ≤ d := by
  rw [daysBefore]
  omega

theorem lt_daysBefore (d : Int) : d < daysBefore (d * 400 / 146097 + 2) := by
  rw [daysBefore]
  omega

/-- A day is in its year. -/
theorem yearOf_spec (d : Int) : daysBefore (yearOf d) ≤ d ∧ d < daysBefore (yearOf d + 1) := by
  have hlow := daysBefore_le d
  have hhigh := lt_daysBefore d
  rw [yearOf]
  split
  · next h => exact ⟨hlow, by rwa [Int.sub_add_cancel]⟩
  · next h =>
      split
      · next h' => exact ⟨h', by rwa [Int.add_assoc]⟩
      · next h' => exact ⟨Int.not_lt.mp h, Int.not_le.mp h'⟩

theorem daysBefore_mono {y y' : Int} (h : y ≤ y') : daysBefore y ≤ daysBefore y' := by
  rw [daysBefore, daysBefore]
  omega

theorem yearOf_mono {d d' : Int} (h : d ≤ d') : yearOf d ≤ yearOf d' := by
  by_contra hlt
  have hnext : yearOf d' + 1 ≤ yearOf d := by omega
  have hmono := daysBefore_mono hnext
  have hd := (yearOf_spec d).1
  have hd' := (yearOf_spec d').2
  omega

/-! ## Months -/

def monthLengths (leap : Bool) : List Nat :=
  [31, if leap then 29 else 28, 31, 30, 31, 30, 31, 31, 30, 31, 30, 31]

/-- The days of some months. -/
def daysIn : List Nat → Nat
  | [] => 0
  | len :: lens => len + daysIn lens

/-- Month and day of a day of the year, from the lengths of the months. -/
def monthDay : List Nat → Nat → Nat × Nat
  | [], o => (1, o + 1)
  | len :: lens, o =>
      if o < len then (1, o + 1)
      else ((monthDay lens (o - len)).1 + 1, (monthDay lens (o - len)).2)

/-- The day of the year of a month and day. -/
def dayOfYear : List Nat → Nat → Nat → Nat
  | len :: lens, m + 2, d => len + dayOfYear lens (m + 1) d
  | _, _, d => d - 1

theorem one_le_monthDay (lens : List Nat) (o : Nat) :
    1 ≤ (monthDay lens o).1 ∧ 1 ≤ (monthDay lens o).2 := by
  induction lens generalizing o with
  | nil => exact ⟨Nat.le_refl 1, Nat.le_add_left 1 o⟩
  | cons len lens ih =>
      rw [monthDay]
      split
      · exact ⟨Nat.le_refl 1, Nat.le_add_left 1 o⟩
      · exact ⟨Nat.le_add_left 1 _, (ih (o - len)).2⟩

theorem dayOfYear_monthDay (lens : List Nat) (o : Nat) :
    dayOfYear lens (monthDay lens o).1 (monthDay lens o).2 = o := by
  induction lens generalizing o with
  | nil => rfl
  | cons len lens ih =>
      rw [monthDay]
      split
      · rfl
      · next h =>
          have hrest := ih (o - len)
          have hone := (one_le_monthDay lens (o - len)).1
          obtain ⟨m, hm⟩ := Nat.exists_eq_add_of_le' hone
          rw [hm] at hrest ⊢
          rw [dayOfYear, hrest]
          omega

/-- A later day of the year is in a later month, or later in the same. -/
theorem monthDay_lt {lens : List Nat} {o o' : Nat} (h : o < o') :
    (monthDay lens o).1 < (monthDay lens o').1 ∨
      (monthDay lens o).1 = (monthDay lens o').1 ∧
        (monthDay lens o).2 < (monthDay lens o').2 := by
  induction lens generalizing o o' with
  | nil => exact .inr ⟨rfl, Nat.add_lt_add_right h 1⟩
  | cons len lens ih =>
      rw [monthDay, monthDay]
      split
      · split
        · exact .inr ⟨rfl, Nat.add_lt_add_right h 1⟩
        · have hone := (one_le_monthDay lens (o' - len)).1
          exact .inl (Nat.lt_add_of_pos_left hone)
      · next hlen =>
          have hlen' : ¬ o' < len := by omega
          rw [if_neg hlen']
          have hrest : o - len < o' - len := by omega
          rcases ih hrest with hm | ⟨hm, hd⟩
          · exact .inl (Nat.add_lt_add_right hm 1)
          · exact .inr ⟨congrArg (· + 1) hm, hd⟩

theorem monthDay_le {lens : List Nat} {o bound : Nat} (ho : o < daysIn lens)
    (hbound : ∀ len ∈ lens, len ≤ bound) :
    (monthDay lens o).1 ≤ lens.length ∧ (monthDay lens o).2 ≤ bound := by
  induction lens generalizing o with
  | nil => exact absurd ho (Nat.not_lt_zero o)
  | cons len lens ih =>
      have hlen := hbound len List.mem_cons_self
      rw [monthDay]
      split
      · next h => exact ⟨Nat.le_add_left 1 _, Nat.le_trans h hlen⟩
      · next h =>
          rw [daysIn] at ho
          have hrest := ih (o := o - len) (by omega) fun l hl =>
            hbound l (List.mem_cons_of_mem _ hl)
          exact ⟨Nat.add_le_add_right hrest.1 1, hrest.2⟩

theorem daysIn_monthLengths (leap : Bool) :
    daysIn (monthLengths leap) = if leap then 366 else 365 := by
  cases leap with
  | true => rfl
  | false => rfl

theorem monthLengths_le {leap : Bool} : ∀ len ∈ monthLengths leap, len ≤ 31 := by
  cases leap with
  | true => decide
  | false => decide

/-! ## Dates -/

structure Date where
  year : Int
  month : Nat
  day : Nat
  deriving DecidableEq

namespace Date

/-- The date of a day. -/
def ofDays (d : Int) : Date :=
  let y := yearOf d
  let md := monthDay (monthLengths (isLeap y)) (d - daysBefore y).toNat
  ⟨y, md.1, md.2⟩

/-- The day of a date. -/
def toDays (date : Date) : Int :=
  daysBefore date.year + dayOfYear (monthLengths (isLeap date.year)) date.month date.day

/-- An earlier date. -/
def Before (a b : Date) : Prop :=
  a.year < b.year ∨
    a.year = b.year ∧ (a.month < b.month ∨ a.month = b.month ∧ a.day < b.day)

theorem toDays_ofDays (d : Int) : (ofDays d).toDays = d := by
  have hlow := (yearOf_spec d).1
  rw [ofDays, toDays]
  dsimp only
  rw [dayOfYear_monthDay]
  omega

theorem ofDays_before {d d' : Int} (h : d < d') : (ofDays d).Before (ofDays d') := by
  have hyear := yearOf_mono (Int.le_of_lt h)
  rcases Int.lt_or_eq_of_le hyear with hlt | heq
  · exact .inl hlt
  · refine .inr ⟨heq, ?_⟩
    have hlow := (yearOf_spec d).1
    have hday : (d - daysBefore (yearOf d)).toNat < (d' - daysBefore (yearOf d')).toNat := by
      rw [← heq]
      omega
    rw [ofDays, ofDays]
    dsimp only
    rw [heq] at hday ⊢
    exact monthDay_lt hday

/-- Month and day are numbers of two digits. -/
theorem ofDays_le (d : Int) : (ofDays d).month ≤ 12 ∧ (ofDays d).day ≤ 31 := by
  obtain ⟨hlow, hhigh⟩ := yearOf_spec d
  rw [daysBefore_succ, yearLength, ← daysIn_monthLengths] at hhigh
  have hday : (d - daysBefore (yearOf d)).toNat < daysIn (monthLengths (isLeap (yearOf d))) := by
    omega
  exact monthDay_le hday monthLengths_le

end Date

end Lib
