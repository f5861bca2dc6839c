/-
  Maranode.Common.Instant

  chrono's times as chrono keeps them: a day, a second of the day, and nanoseconds that go
  on past the second in a leap second.

  `to_rfc3339` writes a leap second as the second 60.  Of two instants with years of four
  digits the earlier one has the smaller text, byte by byte (`encode_text_lt_iff`).
-/
import Maranode.Common.Rfc3339
import Maranode.Lib.TextOrder

namespace Maranode

open Lib Lib.Digits

/-! ## Instants -/

/-- `chrono::DateTime<Utc>`; nanoseconds from 1000000000 on are those of a leap second. -/
@[ext] structure Instant where
  day : Int
  second : Nat
  nano : Nat
  second_lt : second < 86400
  nano_lt : nano < 2000000000
  leap : 1000000000 ≤ nano → second % 60 = 59

namespace Instant

/-- The order chrono derives, field by field. -/
def Before (t t' : Instant) : Prop :=
  t.day < t'.day ∨ t.day = t'.day ∧
    (t.second < t'.second ∨ t.second = t'.second ∧ t.nano < t'.nano)

instance (t t' : Instant) : Decidable (t.Before t') := inferInstanceAs (Decidable (_ ∨ _))

theorem before_trichotomy (t t' : Instant) : t.Before t' ∨ t = t' ∨ t'.Before t := by
  rw [Before, Before, Instant.ext_iff]
  omega

def date (t : Instant) : Date := .ofDays t.day

def FourDigitYear (t : Instant) : Prop := 0 ≤ t.date.year ∧ t.date.year ≤ 9999

instance (t : Instant) : Decidable t.FourDigitYear := inferInstanceAs (Decidable (_ ∧ _))

/-- An instant that is in no leap second. -/
def ofTime (t : DateTime) : Instant where
  day := dayOf t
  second := secondOfDay t
  nano := nanosecond t
  second_lt := secondOfDay_lt t
  nano_lt := Nat.lt_trans (nanosecond_lt t) (by decide)
  leap h := absurd (nanosecond_lt t) (Nat.not_lt.mpr h)

theorem before_ofTime_iff {t t' : Int} : (ofTime t).Before (ofTime t') ↔ t < t' := by
  refine ⟨fun h => ?_, parts_lt⟩
  by_contra hle
  rcases Int.lt_or_eq_of_le (Int.not_lt.mp hle) with hgt | heq
  · have hback : (ofTime t').Before (ofTime t) := parts_lt hgt
    rw [Before] at h hback
    omega
  · rw [heq, Before] at h
    omega

/-! ## The text -/

/-- The time of day; a leap second is the second 60. -/
def clockText (second nano : Nat) : Text :=
  padded 2 (second / 3600) ++ (':' :: padded 2 (second / 60 % 60) ++
    (':' :: padded 2 (second % 60 + nano / 1000000000)))

/-- `to_rfc3339`. -/
def text (t : Instant) : Text :=
  dateText t.date ++ ('T' :: clockText t.second t.nano ++
    (fractionText (t.nano % 1000000000) ++ "+00:00".toList))

def toRfc3339 (t : Instant) : String := String.ofList t.text

theorem text_ofTime (t : DateTime) : (ofTime t).text = rfc3339Text t := by
  have hdiv : nanosecond t / 1000000000 = 0 := Nat.div_eq_of_lt (nanosecond_lt t)
  have hmod : nanosecond t % 1000000000 = nanosecond t := Nat.mod_eq_of_lt (nanosecond_lt t)
  rw [text, rfc3339Text, ofTime, clockText, timeText, hdiv, hmod]
  rfl

theorem toRfc3339_ofTime (t : DateTime) : (ofTime t).toRfc3339 = Maranode.toRfc3339 t :=
  congrArg String.ofList (text_ofTime t)

/-! ## The order of the texts -/

theorem length_clockText (second nano : Nat) : (clockText second nano).length = 8 := by
  simp only [clockText, List.length_append, List.length_cons, length_padded]

theorem clockText_lt {s s' n n' : Nat} (h : s < s') (hs' : s' < 86400) (hn' : n' < 2000000000)
    (hleap : 1000000000 ≤ n → s % 60 = 59) :
    clockText s n < clockText s' n' := by
  have hhour : s' / 3600 < 10 ^ 2 := by omega
  have hminute : s' / 60 % 60 < 10 ^ 2 := by omega
  have hsecond : s' % 60 + n' / 1000000000 < 10 ^ 2 := by omega
  rw [clockText, clockText]
  by_cases hlt : s / 3600 < s' / 3600
  · exact field_lt hhour (.inl hlt)
  · refine field_lt hhour (.inr ⟨by omega, cons_lt_cons ?_⟩)
    by_cases hlt' : s / 60 % 60 < s' / 60 % 60
    · exact field_lt hminute (.inl hlt')
    · -- A leap second is the last of its minute, so none is before a second of the same one.
      have hearlier : s % 60 < s' % 60 := by omega
      refine field_lt hminute (.inr ⟨by omega, cons_lt_cons ?_⟩)
      exact padded_lt_padded (by omega) hsecond

/-- Later in the same second. -/
theorem clock_fraction_lt {s n n' : Nat} (h : n < n') (hn' : n' < 2000000000) (offset : Text) :
    clockText s n ++ (fractionText (n % 1000000000) ++ '+' :: offset) <
      clockText s n' ++ (fractionText (n' % 1000000000) ++ '+' :: offset) := by
  by_cases hleap : n / 1000000000 = n' / 1000000000
  · rw [clockText, clockText, hleap]
    exact List.append_left_lt (fractionText_lt (by omega) (by omega) offset)
  · have hsecond : s % 60 + n' / 1000000000 < 10 ^ 2 := by omega
    have hclock : clockText s n < clockText s n' := by
      rw [clockText, clockText]
      refine List.append_left_lt (cons_lt_cons (List.append_left_lt (cons_lt_cons ?_)))
      exact padded_lt_padded (by omega) hsecond
    have hlen : (clockText s n).length = (clockText s n').length := by
      rw [length_clockText, length_clockText]
    exact append_lt_append_of_lt hlen hclock _ _

theorem text_lt {t t' : Instant} (h : t.Before t') (ht : t.FourDigitYear)
    (ht' : t'.FourDigitYear) : t.text < t'.text := by
  have hlen : (dateText t.date).length = (dateText t'.date).length := by
    rw [length_dateText ht, length_dateText ht']
  rw [text, text]
  rcases h with hday | ⟨hday, hrest⟩
  · have hle := Date.ofDays_le t'.day
    exact append_lt_append_of_lt hlen
      (dateText_lt (Date.ofDays_before hday) ht.1 ht'.2 hle.1 hle.2) _ _
  · have hdate : t.date = t'.date := congrArg Date.ofDays hday
    rw [hdate]
    refine List.append_left_lt (cons_lt_cons ?_)
    rcases hrest with hsecond | ⟨hsecond, hnano⟩
    · have hclock : (clockText t.second t.nano).length = (clockText t'.second t'.nano).length := by
        rw [length_clockText, length_clockText]
      exact append_lt_append_of_lt hclock
        (clockText_lt hsecond t'.second_lt t'.nano_lt t.leap) _ _
    · rw [hsecond]
      exact clock_fraction_lt hnano t'.nano_lt _

theorem text_lt_iff {t t' : Instant} (ht : t.FourDigitYear) (ht' : t'.FourDigitYear) :
    t.text < t'.text ↔ t.Before t' := by
  refine ⟨fun h => ?_, fun h => text_lt h ht ht'⟩
  rcases before_trichotomy t t' with hlt | rfl | hgt
  · exact hlt
  · exact absurd h (List.lt_irrefl _)
  · exact absurd h (List.lt_asymm (text_lt hgt ht' ht))

theorem text_inj {t t' : Instant} (ht : t.FourDigitYear) (ht' : t'.FourDigitYear) :
    t.text = t'.text ↔ t = t' := by
  refine ⟨fun h => ?_, congrArg text⟩
  rcases before_trichotomy t t' with hlt | heq | hgt
  · exact absurd (text_lt hlt ht ht') (h ▸ List.lt_irrefl _)
  · exact heq
  · exact absurd (text_lt hgt ht' ht) (h ▸ List.lt_irrefl _)

/-- **The bytes of the texts compare the way the instants do.** -/
theorem encode_text_lt_iff {t t' : Instant} (ht : t.FourDigitYear) (ht' : t'.FourDigitYear) :
    Text.encode t.text < Text.encode t'.text ↔ t.Before t' :=
  Text.encode_lt_encode_iff.trans (text_lt_iff ht ht')

theorem encode_text_inj {t t' : Instant} (ht : t.FourDigitYear) (ht' : t'.FourDigitYear) :
    Text.encode t.text = Text.encode t'.text ↔ t = t' :=
  ⟨fun h => (text_inj ht ht').mp (Text.encode_injective h), fun h => congrArg _ (congrArg _ h)⟩

theorem toRfc3339_lt_iff {t t' : Instant} (ht : t.FourDigitYear) (ht' : t'.FourDigitYear) :
    t.toRfc3339 < t'.toRfc3339 ↔ t.Before t' := by
  rw [String.lt_iff, toRfc3339, toRfc3339, String.toList_ofList, String.toList_ofList]
  exact text_lt_iff ht ht'

end Instant

end Maranode
