/-
  Maranode.Common.Rfc3339

  chrono's `to_rfc3339`, character by character.

  A year of four digits is written bare and any other with a sign, and the fraction of a
  second has as many groups of three digits as it needs.  Texts still compare the way the
  times do, as long as the earlier one has a year of four digits (`toRfc3339_lt_iff`).
-/
import Maranode.Common.External
import Maranode.Lib.Calendar
import Maranode.Lib.Digits

namespace Maranode

open Lib Lib.Digits

/-! ## The parts of a time -/

/-- The day, from the first of the year 0. -/
def dayOf (t : DateTime) : Int := t / 86400000000000 + 719528

def secondOfDay (t : DateTime) : Nat := (t % 86400000000000 / 1000000000).toNat

def nanosecond (t : DateTime) : Nat := (t % 1000000000).toNat

/-- A later time is on a later day, or later on the same. -/
theorem parts_lt {t t' : Int} (h : t < t') :
    dayOf t < dayOf t' ∨ dayOf t = dayOf t' ∧
      (secondOfDay t < secondOfDay t' ∨ secondOfDay t = secondOfDay t' ∧
        nanosecond t < nanosecond t') := by
  rw [dayOf, dayOf, secondOfDay, secondOfDay, nanosecond, nanosecond]
  omega

theorem secondOfDay_lt (t : DateTime) : secondOfDay t < 86400 := by
  rw [secondOfDay]
  omega

theorem nanosecond_lt (t : DateTime) : nanosecond t < 1000000000 := by
  rw [nanosecond]
  omega

def dateOf (t : DateTime) : Date := .ofDays (dayOf t)

/-- The year is one of 0 to 9999. -/
def FourDigitYear (t : DateTime) : Prop := 0 ≤ (dateOf t).year ∧ (dateOf t).year ≤ 9999

instance (t : DateTime) : Decidable (FourDigitYear t) := inferInstanceAs (Decidable (_ ∧ _))

/-- A year of four digits is one that chrono has. -/
theorem minUtc_le_of_fourDigitYear {t : Int} (h : FourDigitYear t) : minUtc ≤ t := by
  have hyear := daysBefore_mono h.1
  have hday := (yearOf_spec (dayOf t)).1
  have hzero : daysBefore 0 = 0 := rfl
  rw [hzero] at hyear
  have hnonneg : 0 ≤ dayOf t := Int.le_trans hyear hday
  rw [dayOf] at hnonneg
  rw [minUtc]
  change (_ : Int) ≤ _
  omega

/-! ## The text -/

/-- `{:+05}`. -/
def signedYear (y : Int) : Text :=
  let digits := Nat.toDigits 10 y.natAbs
  (if y < 0 then '-' else '+') :: (List.replicate (4 - digits.length) '0' ++ digits)

def yearText (y : Int) : Text :=
  if 0 ≤ y ∧ y ≤ 9999 then padded 2 (y / 100).toNat ++ padded 2 (y % 100).toNat
  else signedYear y

/-- `SecondsFormat::AutoSi`. -/
def fractionText (nano : Nat) : Text :=
  if nano = 0 then []
  else if nano % 1000000 = 0 then '.' :: padded 3 (nano / 1000000)
  else if nano % 1000 = 0 then '.' :: padded 6 (nano / 1000)
  else '.' :: padded 9 nano

def dateText (d : Date) : Text :=
  yearText d.year ++ ('-' :: padded 2 d.month ++ ('-' :: padded 2 d.day))

def timeText (second : Nat) : Text :=
  padded 2 (second / 3600) ++ (':' :: padded 2 (second / 60 % 60) ++
    (':' :: padded 2 (second % 60)))

/-- `to_rfc3339` of a time in UTC. -/
def rfc3339Text (t : DateTime) : Text :=
  dateText (dateOf t) ++ ('T' :: timeText (secondOfDay t) ++
    (fractionText (nanosecond t) ++ "+00:00".toList))

def toRfc3339 (t : DateTime) : String := String.ofList (rfc3339Text t)

example : toRfc3339 1704067200120000000 = "2024-01-01T00:00:00.120+00:00" := by decide +kernel

/-! ## Fractions -/

/-- Groups of three digits, up to the last that is not zero. -/
def groupsText : List Nat → Text
  | [] => []
  | g :: gs => if ∀ n ∈ g :: gs, n = 0 then [] else padded 3 g ++ groupsText gs

/-- Digits of two groups, and those of the first when the second is zero. -/
theorem padded_groups (w : Nat) (n : Nat) :
    padded (w + 3) n = padded w (n / 1000) ++ padded 3 (n % 1000) :=
  padded_add w 3 n

theorem fractionText_eq {nano : Nat} (h : nano ≠ 0) :
    fractionText nano =
      '.' :: groupsText [nano / 1000000, nano / 1000 % 1000, nano % 1000] := by
  have hgroups : padded 9 nano =
      padded 3 (nano / 1000000) ++ (padded 3 (nano / 1000 % 1000) ++ padded 3 (nano % 1000)) := by
    have hdiv : nano / 1000 / 1000 = nano / 1000000 := Nat.div_div_eq_div_mul nano 1000 1000
    rw [padded_groups 6, padded_groups 3, hdiv, List.append_assoc]
  have hsix : padded 6 (nano / 1000) =
      padded 3 (nano / 1000000) ++ padded 3 (nano / 1000 % 1000) := by
    have hdiv : nano / 1000 / 1000 = nano / 1000000 := Nat.div_div_eq_div_mul nano 1000 1000
    rw [padded_groups 3, hdiv]
  have hfirst : ¬ ∀ n ∈ [nano / 1000000, nano / 1000 % 1000, nano % 1000], n = 0 := by
    simp only [List.mem_cons, List.not_mem_nil, or_false, forall_eq_or_imp, forall_eq]
    omega
  have hsecond : (∀ n ∈ [nano / 1000 % 1000, nano % 1000], n = 0) ↔ nano % 1000000 = 0 := by
    simp only [List.mem_cons, List.not_mem_nil, or_false, forall_eq_or_imp, forall_eq]
    omega
  have hthird : (∀ n ∈ [nano % 1000], n = 0) ↔ nano % 1000 = 0 := by
    simp only [List.mem_cons, List.not_mem_nil, or_false, forall_eq]
  rw [fractionText, if_neg h, groupsText, if_neg hfirst, groupsText, groupsText]
  by_cases hsix' : nano % 1000000 = 0
  · rw [if_pos hsix', if_pos (hsecond.mpr hsix'), List.append_nil]
  · rw [if_neg hsix', if_neg (hsecond.not.mpr hsix')]
    by_cases hthree' : nano % 1000 = 0
    · rw [if_pos hthree', if_pos (hthird.mpr hthree'), List.append_nil, hsix]
    · rw [if_neg hthree', if_neg (hthird.not.mpr hthree'), hgroups, groupsText, List.append_nil]

/-- A group list that is larger than another has a group that is not zero. -/
theorem exists_ne_zero {gs gs' : List Nat} (hlen : gs.length = gs'.length) (h : gs < gs') :
    ¬ ∀ n ∈ gs', n = 0 := by
  induction gs generalizing gs' with
  | nil =>
      rw [List.length_nil] at hlen
      rw [List.eq_nil_of_length_eq_zero hlen.symm] at h
      exact absurd h (List.not_lt_nil _)
  | cons g gs ih =>
      cases gs' with
      | nil => exact absurd h (List.not_lt_nil _)
      | cons g' gs' =>
          intro hzero
          have hg' := hzero g' List.mem_cons_self
          rcases List.cons_lt_cons_iff.mp h with hhead | ⟨-, htail⟩
          · rw [hg'] at hhead
            exact Nat.not_lt_zero g hhead
          · rw [List.length_cons, List.length_cons] at hlen
            exact ih (Nat.succ.inj hlen) htail fun n hn => hzero n (List.mem_cons_of_mem _ hn)

/-- Of two groups of digits that go before the offset the smaller one is the earlier text. -/
theorem groupsText_lt {gs gs' : List Nat} (hlen : gs.length = gs'.length) (h : gs < gs')
    (hbound : ∀ g ∈ gs', g < 1000) (offset : Text) :
    groupsText gs ++ '+' :: offset < groupsText gs' ++ '+' :: offset := by
  induction gs generalizing gs' with
  | nil =>
      rw [List.length_nil] at hlen
      rw [List.eq_nil_of_length_eq_zero hlen.symm] at h
      exact absurd h (List.not_lt_nil _)
  | cons g gs ih =>
      cases gs' with
      | nil => exact absurd h (List.not_lt_nil _)
      | cons g' gs' =>
          have hnonzero : ¬ ∀ n ∈ g' :: gs', n = 0 := exists_ne_zero hlen h
          rw [List.length_cons, List.length_cons] at hlen
          rw [groupsText, groupsText, if_neg hnonzero]
          split
          · obtain ⟨d, rest, hrest, hd⟩ := exists_padded_eq_cons 2 g'
            rw [hrest]
            exact List.cons_lt_cons_iff.mpr (.inl (plus_lt_digitChar hd))
          · rw [List.append_assoc, List.append_assoc]
            rcases List.cons_lt_cons_iff.mp h with hhead | ⟨rfl, htail⟩
            · exact field_lt (hbound g' List.mem_cons_self) (.inl hhead)
            · have hrest := fun n hn => hbound n (List.mem_cons_of_mem _ hn)
              exact List.append_left_lt (ih (Nat.succ.inj hlen) htail hrest)

theorem fractionText_lt {m n : Nat} (h : m < n) (hn : n < 1000000000) (offset : Text) :
    fractionText m ++ '+' :: offset < fractionText n ++ '+' :: offset := by
  have hn0 : n ≠ 0 := by omega
  rw [fractionText_eq hn0]
  by_cases hm0 : m = 0
  · rw [hm0, fractionText, if_pos rfl, List.nil_append, List.cons_append]
    exact List.cons_lt_cons_iff.mpr (.inl (by decide))
  · rw [fractionText_eq hm0, List.cons_append, List.cons_append]
    have hgroups : [m / 1000000, m / 1000 % 1000, m % 1000] <
        [n / 1000000, n / 1000 % 1000, n % 1000] := by
      simp only [List.cons_lt_cons_iff, List.not_lt_nil, and_false, or_false]
      omega
    have hbound : ∀ g ∈ [n / 1000000, n / 1000 % 1000, n % 1000], g < 1000 := by
      simp only [List.mem_cons, List.not_mem_nil, or_false, forall_eq_or_imp, forall_eq]
      omega
    exact cons_lt_cons (groupsText_lt (by rfl) hgroups hbound offset)

/-! ## The order of the texts -/

theorem timeText_lt {s s' : Nat} (h : s < s') (hs' : s' < 86400) : timeText s < timeText s' := by
  have hhour : s' / 3600 < 10 ^ 2 := by omega
  have hminute : s' / 60 % 60 < 10 ^ 2 := by omega
  have hsecond : s' % 60 < 10 ^ 2 := by omega
  rw [timeText, timeText]
  by_cases hlt : s / 3600 < s' / 3600
  · exact field_lt hhour (.inl hlt)
  · refine field_lt hhour (.inr ⟨by omega, cons_lt_cons ?_⟩)
    by_cases hlt' : s / 60 % 60 < s' / 60 % 60
    · exact field_lt hminute (.inl hlt')
    · refine field_lt hminute (.inr ⟨by omega, cons_lt_cons ?_⟩)
      exact padded_lt_padded (by omega) hsecond

theorem length_timeText (s : Nat) : (timeText s).length = 8 := by
  simp [timeText]

/-- A year of four digits. -/
theorem yearText_eq {y : Int} (h : 0 ≤ y ∧ y ≤ 9999) : yearText y = padded 4 y.toNat := by
  have hdiv : (y / 100).toNat = y.toNat / 10 ^ 2 := by omega
  have hmod : (y % 100).toNat = y.toNat % 10 ^ 2 := by omega
  rw [yearText, if_pos h, hdiv, hmod, ← padded_add]

theorem dateText_lt {d d' : Date} (h : d.Before d') (hyear : 0 ≤ d.year) (hyear' : d'.year ≤ 9999)
    (hmonth' : d'.month ≤ 12) (hday' : d'.day ≤ 31) : dateText d < dateText d' := by
  have hy : d.year ≤ d'.year := by
    rcases h with hlt | ⟨heq, -⟩
    · exact Int.le_of_lt hlt
    · exact Int.le_of_eq heq
  have hyear4 : d'.year.toNat < 10 ^ 4 := by omega
  have hmonth2 : d'.month < 10 ^ 2 := by omega
  have hday2 : d'.day < 10 ^ 2 := by omega
  rw [dateText, dateText, yearText_eq ⟨hyear, by omega⟩, yearText_eq ⟨by omega, hyear'⟩]
  rcases h with hlt | ⟨heq, hlt | ⟨hmonth, hday⟩⟩
  · exact field_lt hyear4 (.inl (by omega))
  · exact field_lt hyear4 (.inr ⟨by omega, cons_lt_cons (field_lt hmonth2 (.inl hlt))⟩)
  · refine field_lt hyear4 (.inr ⟨by omega, cons_lt_cons ?_⟩)
    exact field_lt hmonth2 (.inr ⟨hmonth, cons_lt_cons (padded_lt_padded hday hday2)⟩)

theorem length_dateText {d : Date} (h : 0 ≤ d.year ∧ d.year ≤ 9999) :
    (dateText d).length = 10 := by
  rw [dateText, yearText_eq h]
  simp

theorem rfc3339Text_lt {t t' : Int} (h : t < t') (ht : FourDigitYear t) (ht' : FourDigitYear t') :
    rfc3339Text t < rfc3339Text t' := by
  have hlen : (dateText (dateOf t)).length = (dateText (dateOf t')).length := by
    rw [length_dateText ht, length_dateText ht']
  rw [rfc3339Text, rfc3339Text]
  rcases parts_lt h with hday | ⟨hday, hrest⟩
  · have hle := Date.ofDays_le (dayOf t')
    exact append_lt_append_of_lt hlen
      (dateText_lt (Date.ofDays_before hday) ht.1 ht'.2 hle.1 hle.2) _ _
  · have hdate : dateOf t = dateOf t' := congrArg Date.ofDays hday
    rw [hdate]
    refine List.append_left_lt (cons_lt_cons ?_)
    rcases hrest with hsecond | ⟨hsecond, hnano⟩
    · have htime : (timeText (secondOfDay t)).length = (timeText (secondOfDay t')).length := by
        rw [length_timeText, length_timeText]
      exact append_lt_append_of_lt htime (timeText_lt hsecond (secondOfDay_lt t')) _ _
    · rw [hsecond]
      exact List.append_left_lt (fractionText_lt hnano (nanosecond_lt t') _)

/-- A year that is not one of four digits has a sign in front. -/
theorem rfc3339Text_lt_of_signed {t t' : DateTime} (ht : FourDigitYear t)
    (ht' : ¬ FourDigitYear t') : rfc3339Text t' < rfc3339Text t := by
  obtain ⟨d, rest, hrest, hd⟩ := exists_padded_eq_cons 3 (dateOf t).year.toNat
  have hsigned : yearText (dateOf t').year = signedYear (dateOf t').year := if_neg ht'
  rw [rfc3339Text, rfc3339Text, dateText, dateText, yearText_eq ht, hrest, hsigned, signedYear]
  refine List.cons_lt_cons_iff.mpr (.inl ?_)
  split
  · exact minus_lt_digitChar hd
  · exact plus_lt_digitChar hd

/-- Of a time with a year of four digits and any other one, the texts compare the way the
    times do, but that a year of five digits comes first. -/
theorem toRfc3339_lt_iff {t t' : Int} (ht : FourDigitYear t) :
    toRfc3339 t < toRfc3339 t' ↔ t < t' ∧ FourDigitYear t' := by
  rw [String.lt_iff, toRfc3339, toRfc3339, String.toList_ofList, String.toList_ofList]
  by_cases ht' : FourDigitYear t'
  · rw [and_iff_left ht']
    refine ⟨fun hlt => ?_, fun h => rfc3339Text_lt h ht ht'⟩
    by_contra hle
    rcases Int.lt_or_eq_of_le (Int.not_lt.mp hle) with hgt | heq
    · exact absurd hlt (List.lt_asymm (rfc3339Text_lt hgt ht' ht))
    · rw [heq] at hlt
      exact List.lt_irrefl _ hlt
  · refine iff_of_false ?_ fun h => ht' h.2
    exact List.lt_asymm (rfc3339Text_lt_of_signed ht ht')

/-! ## Reading -/

/-- chrono: `parse_from_rfc3339`, which reads what `to_rfc3339` wrote when the year has four
    digits. -/
structure Rfc3339Reader where
  read : String → Option DateTime
  read_toRfc3339 : ∀ t, FourDigitYear t → read (toRfc3339 t) = some t

/-- A number of a width, and what follows it and the character behind it. -/
def readField (w : Nat) (cs : Text) : Nat × Text := (value (cs.take w), cs.drop (w + 1))

/-- The nanoseconds of a fraction, when there is one. -/
def readFraction : Text → Nat
  | '.' :: cs =>
      let digits := cs.takeWhile Char.isDigit
      value digits * 10 ^ (9 - digits.length)
  | _ => 0

/-- The time of a date, a second of the day and a nanosecond. -/
def timeOf (date : Date) (second nano : Nat) : DateTime :=
  ((date.toDays - 719528) * 86400000000000 + second * 1000000000 + nano : Int)

/-- A text of a year of four digits in UTC. -/
def readTime (cs : Text) : DateTime :=
  let year := readField 4 cs
  let month := readField 2 year.2
  let day := readField 2 month.2
  let hour := readField 2 day.2
  let minute := readField 2 hour.2
  timeOf ⟨year.1, month.1, day.1⟩
    (hour.1 * 3600 + minute.1 * 60 + value (minute.2.take 2)) (readFraction (minute.2.drop 2))

theorem readField_eq {w n : Nat} (hn : n < 10 ^ w) (c : Char) (cs : Text) :
    readField w (padded w n ++ c :: cs) = (n, cs) := by
  have htake : (padded w n ++ c :: cs).take w = padded w n :=
    List.take_left' (length_padded w n)
  have hdrop : (padded w n ++ c :: cs).drop (w + 1) = cs := by
    rw [← List.drop_drop, List.drop_left' (length_padded w n)]
    rfl
  rw [readField, htake, hdrop, value_padded hn]

theorem readFraction_eq {nano : Nat} (h : nano < 1000000000) (offset : Text) :
    readFraction (fractionText nano ++ '+' :: offset) = nano := by
  have hplus : '+'.isDigit = false := rfl
  have hread : ∀ w m, m < 10 ^ w →
      readFraction ('.' :: (padded w m ++ '+' :: offset)) = m * 10 ^ (9 - w) := by
    intro w m hm
    rw [readFraction, takeWhile_padded w m hplus, value_padded hm, length_padded]
  rw [fractionText]
  split
  · next hzero =>
      rw [hzero]
      rfl
  · split
    · next hthree =>
        rw [List.cons_append, hread 3 _ (by omega)]
        omega
    · split
      · next hsix =>
          rw [List.cons_append, hread 6 _ (by omega)]
          omega
      · rw [List.cons_append, hread 9 _ (by omega)]
        omega

theorem timeOf_parts (t : Int) :
    timeOf (dateOf t) (secondOfDay t) (nanosecond t) = t := by
  rw [timeOf, dateOf, Date.toDays_ofDays, dayOf, secondOfDay, nanosecond]
  change (_ : Int) = _
  omega

/-- What is written is read back. -/
theorem readTime_rfc3339Text {t : DateTime} (h : FourDigitYear t) :
    readTime (rfc3339Text t) = t := by
  -- Each field has its width, so each is read from its own digits.
  obtain ⟨hmonth, hday⟩ := Date.ofDays_le (dayOf t)
  have hs := secondOfDay_lt t
  have hyear4 : (dateOf t).year.toNat < 10 ^ 4 := by
    have := h.2
    omega
  have hmonth2 : (dateOf t).month < 10 ^ 2 := Nat.lt_of_le_of_lt hmonth (by decide)
  have hday2 : (dateOf t).day < 10 ^ 2 := Nat.lt_of_le_of_lt hday (by decide)
  have hhour2 : secondOfDay t / 3600 < 10 ^ 2 := by omega
  have hminute2 : secondOfDay t / 60 % 60 < 10 ^ 2 := by omega
  have hsecond2 : secondOfDay t % 60 < 10 ^ 2 := by omega
  have htext : rfc3339Text t =
      padded 4 (dateOf t).year.toNat ++ '-' :: (padded 2 (dateOf t).month ++ '-' ::
        (padded 2 (dateOf t).day ++ 'T' :: (padded 2 (secondOfDay t / 3600) ++ ':' ::
          (padded 2 (secondOfDay t / 60 % 60) ++ ':' :: (padded 2 (secondOfDay t % 60) ++
            (fractionText (nanosecond t) ++ "+00:00".toList)))))) := by
    rw [rfc3339Text, dateText, timeText, yearText_eq h]
    simp only [List.append_assoc, List.cons_append]
  have htake : ∀ rest, value ((padded 2 (secondOfDay t % 60) ++ rest).take 2) =
      secondOfDay t % 60 := by
    intro rest
    rw [List.take_left' (length_padded 2 _), value_padded hsecond2]
  have hdrop : ∀ rest, (padded 2 (secondOfDay t % 60) ++ rest).drop 2 = rest :=
    fun rest => List.drop_left' (length_padded 2 _)
  have hdate : (⟨((dateOf t).year.toNat : Int), (dateOf t).month, (dateOf t).day⟩ : Date) =
      dateOf t := by
    rw [Int.toNat_of_nonneg h.1]
  -- Hour, minute and second make up the second of the day again.
  have hclock : secondOfDay t / 3600 * 3600 + secondOfDay t / 60 % 60 * 60 +
      secondOfDay t % 60 = secondOfDay t := by
    omega
  -- The fields are read off one after the other, and the rest is the fraction.
  rw [readTime, htext, readField_eq hyear4]
  dsimp only
  rw [readField_eq hmonth2]
  dsimp only
  rw [readField_eq hday2]
  dsimp only
  rw [readField_eq hhour2]
  dsimp only
  rw [readField_eq hminute2]
  dsimp only
  rw [htake, hdrop, hdate, hclock]
  exact (congrArg _ (readFraction_eq (nanosecond_lt t) "00:00".toList)).trans (timeOf_parts t)

/-- An instance to apply results at. -/
def Rfc3339Reader.sample : Rfc3339Reader where
  read s := some (readTime s.toList)
  read_toRfc3339 := by
    intro t h
    rw [toRfc3339, String.toList_ofList, readTime_rfc3339Text h]

end Maranode
