/-
  Maranode.Common.GgufArrays

  How `skip_value` gets through what is no GGUF file.

  Every array inside of another one has a header that is read, so arrays are nested no deeper
  than there are bytes (`skipValue_fuel`).  The elements are another matter: a seek past the
  end does not fail, and an array of numbers can be as long as its header says
  (`consumes_iff`).
-/
import Maranode.Common.Gguf

namespace Maranode.Common

open Lib Lib.Reader

variable {version fuel valType : Nat} {r r' : Bytes}

/-! ## Reading shortens -/

theorem length_readNumber {w n : Nat} (h : readNumber w r = some (n, r')) :
    r'.length + w = r.length := by
  rw [readNumber] at h
  obtain ⟨⟨bs, rest⟩, hread, hout⟩ := Option.map_eq_some_iff.mp h
  obtain ⟨rfl, rfl⟩ := Prod.mk.inj hout
  obtain ⟨hlen, rfl⟩ := readExact_eq_some.mp hread
  rw [List.length_append, hlen]
  exact Nat.add_comm _ _

theorem four_le_lengthWidth (version : Nat) : 4 ≤ lengthWidth version := by
  rw [lengthWidth]
  split <;> omega

theorem length_readString {bs : Bytes} (h : readString version r = some (bs, r')) :
    r'.length + 4 ≤ r.length := by
  obtain ⟨⟨len, r₁⟩, hlen, hread⟩ := Option.bind_eq_some_iff.mp h
  have hfirst := length_readNumber hlen
  have hwidth := four_le_lengthWidth version
  dsimp only at hread
  split at hread
  · cases hread
  · obtain ⟨-, rfl⟩ := readExact_eq_some.mp hread
    rw [List.length_append] at hfirst
    omega

/-- The header of an array: the type of its elements and how many there are. -/
def readHeader (version : Nat) (r : Bytes) : Option (Nat × Nat × Bytes) :=
  (readNumber 4 r).bind fun (elemType, r) =>
    (readLength version r).map fun (count, r) => (elemType, count, r)

theorem skipArray_eq (skip : Nat → Bytes → Option Bytes) (r : Bytes) :
    skipArray version skip r =
      (readHeader version r).bind fun (elemType, count, r) => times (skip elemType) count r := by
  rw [skipArray, readHeader, Option.bind_assoc]
  congr 1
  funext p
  rw [Option.bind_map]
  rfl

theorem length_readHeader {elemType count : Nat}
    (h : readHeader version r = some (elemType, count, r')) : r'.length + 8 ≤ r.length := by
  obtain ⟨⟨e, r₁⟩, htype, hcount⟩ := Option.bind_eq_some_iff.mp h
  obtain ⟨⟨n, r₂⟩, hlength, hout⟩ := Option.map_eq_some_iff.mp hcount
  cases hout
  have hfirst := length_readNumber htype
  have hsecond := length_readNumber hlength
  have hwidth := four_le_lengthWidth version
  omega

/-- Rows of pieces that do not get longer. -/
theorem length_times {skip : Bytes → Option Bytes} {bound : Nat}
    (h : ∀ a b, a.length ≤ bound → skip a = some b → b.length ≤ a.length) {n : Nat}
    (hr : r.length ≤ bound) (htimes : times skip n r = some r') : r'.length ≤ r.length := by
  induction n generalizing r with
  | zero => exact Nat.le_of_eq (congrArg List.length (Option.some.inj htimes).symm)
  | succ n ih =>
      obtain ⟨a, ha, hrest⟩ := Option.bind_eq_some_iff.mp htimes
      have hle := h r a hr ha
      exact Nat.le_trans (ih (by omega) hrest) hle

theorem times_congr {skip skip' : Bytes → Option Bytes} {bound : Nat}
    (hsame : ∀ a, a.length ≤ bound → skip a = skip' a)
    (h : ∀ a b, a.length ≤ bound → skip a = some b → b.length ≤ a.length) (n : Nat)
    (hr : r.length ≤ bound) : times skip n r = times skip' n r := by
  induction n generalizing r with
  | zero => rfl
  | succ n ih =>
      rw [times, times, ← hsame r hr]
      cases hskip : skip r with
      | none => rfl
      | some a =>
          have hle := h r a hr hskip
          exact ih (by omega)

/-! ## Values -/

/-- The bytes that a number is skipped by. -/
def skipWidth (valType : Nat) : Option Nat :=
  match valType with
  | 0 | 1 | 7 => some 1
  | 2 | 3 => some 2
  | 4 | 5 | 6 => some 4
  | 10 | 11 | 12 => some 8
  | _ => none

theorem skipWidth_pos {w : Nat} (h : skipWidth valType = some w) : 0 < w := by
  unfold skipWidth at h
  split at h <;> cases h <;> omega

theorem kind_cases (valType : Nat) :
    (∃ w, skipWidth valType = some w) ∨ valType = 8 ∨ valType = 9 ∨ 13 ≤ valType := by
  rw [← Option.isSome_iff_exists]
  by_cases h : 13 ≤ valType
  · exact .inr (.inr (.inr h))
  · have hlt : valType < 13 := by omega
    clear h
    revert valType
    decide

/-- A number is skipped, whether it is there or not. -/
theorem skipValue_number {w : Nat} (h : skipWidth valType = some w) (r : Bytes) :
    skipValue version fuel valType r = some (r.drop w) := by
  unfold skipWidth at h
  split at h <;> cases h <;> rw [skipValue]

theorem skipValue_string (version fuel : Nat) (r : Bytes) :
    skipValue version fuel 8 r = (readString version r).map Prod.snd := by
  rw [skipValue]

theorem skipValue_array (version fuel : Nat) (r : Bytes) :
    skipValue version (fuel + 1) 9 r = skipArray version (skipValue version fuel) r := by
  rw [skipValue]

theorem skipValue_unknown (h : 13 ≤ valType) (version fuel : Nat) (r : Bytes) :
    skipValue version fuel valType r = none := by
  unfold skipValue
  split
  all_goals first | omega | rfl

/-- An array is its header and its elements. -/
theorem skipValue_array_eq_some (h : skipValue version fuel 9 r = some r') :
    ∃ k elemType count r₁, fuel = k + 1 ∧ readHeader version r = some (elemType, count, r₁) ∧
      times (skipValue version k elemType) count r₁ = some r' := by
  cases fuel with
  | zero =>
      rw [skipValue] at h
      cases h
  | succ k =>
      rw [skipValue_array, skipArray_eq] at h
      obtain ⟨⟨elemType, count, r₁⟩, hheader, htimes⟩ := Option.bind_eq_some_iff.mp h
      exact ⟨k, elemType, count, r₁, rfl, hheader, htimes⟩

/-- What is no array is skipped by its width, or read. -/
theorem skipValue_flat (hflat : valType ≠ 9) (h : skipValue version fuel valType r = some r') :
    (∃ w, skipWidth valType = some w ∧ r' = r.drop w) ∨ r'.length + 4 ≤ r.length := by
  rcases kind_cases valType with ⟨w, hw⟩ | rfl | rfl | hunknown
  · rw [skipValue_number hw] at h
    exact .inl ⟨w, hw, (Option.some.inj h).symm⟩
  · rw [skipValue_string] at h
    obtain ⟨⟨bs, rest⟩, hread, rfl⟩ := Option.map_eq_some_iff.mp h
    exact .inr (length_readString hread)
  · exact absurd rfl hflat
  · rw [skipValue_unknown hunknown] at h
    cases h

/-- Nothing is left that was not there. -/
theorem length_skipValue (h : skipValue version fuel valType r = some r') :
    r'.length ≤ r.length := by
  induction fuel using Nat.strong_induction_on generalizing valType r r' with
  | _ fuel ih =>
      by_cases hflat : valType = 9
      · subst hflat
        obtain ⟨k, elemType, count, r₁, rfl, hheader, htimes⟩ := skipValue_array_eq_some h
        have hshort := length_readHeader hheader
        have hrow := length_times (fun a b _ => ih k (Nat.lt_succ_self k))
          (Nat.le_refl r₁.length) htimes
        omega
      · rcases skipValue_flat hflat h with ⟨w, -, rfl⟩ | hshort
        · rw [List.length_drop]
          omega
        · omega

/-- All but numbers are read, at least in part. -/
theorem length_skipValue_lt (hkind : skipWidth valType = none)
    (h : skipValue version fuel valType r = some r') : r'.length < r.length := by
  by_cases hflat : valType = 9
  · subst hflat
    obtain ⟨k, elemType, count, r₁, rfl, hheader, htimes⟩ := skipValue_array_eq_some h
    have hshort := length_readHeader hheader
    have hrow := length_times (fun a b _ => length_skipValue) (Nat.le_refl r₁.length) htimes
    omega
  · rcases skipValue_flat hflat h with ⟨w, hw, -⟩ | hshort
    · rw [hkind] at hw
      cases hw
    · omega

/-- **How deep arrays are nested.**  No deeper than there are bytes to skip: as much fuel is
    as good as any more. -/
theorem skipValue_fuel (version valType : Nat) {fuel : Nat} {r : Bytes} (h : r.length ≤ fuel) :
    skipValue version fuel valType r = skipValue version r.length valType r := by
  -- Any two fuels from the length on agree; the induction is on the length of the text.
  have hall : ∀ n t f f' (a : Bytes), a.length = n → n ≤ f → n ≤ f' →
      skipValue version f t a = skipValue version f' t a := by
    intro n
    induction n using Nat.strong_induction_on with
    | _ n ih =>
        intro t f f' a hn hf hf'
        -- Only an array calls itself again, on the text behind its header.
        rcases kind_cases t with ⟨w, hw⟩ | rfl | rfl | hunknown
        · rw [skipValue_number hw, skipValue_number hw]
        · rw [skipValue_string, skipValue_string]
        · cases hheader : readHeader version a with
          | none =>
              have hnone : ∀ k, skipValue version k 9 a = none := by
                intro k
                cases k with
                | zero => rw [skipValue]
                | succ k =>
                    rw [skipValue_array, skipArray_eq, hheader]
                    rfl
              rw [hnone, hnone]
          | some header =>
              obtain ⟨elemType, count, r₁⟩ := header
              -- The header takes bytes, so the elements are read from a shorter text.
              have hshort := length_readHeader hheader
              obtain ⟨k, rfl⟩ : ∃ k, f = k + 1 := ⟨f - 1, by omega⟩
              obtain ⟨k', rfl⟩ : ∃ k', f' = k' + 1 := ⟨f' - 1, by omega⟩
              rw [skipValue_array, skipValue_array, skipArray_eq, skipArray_eq, hheader]
              refine times_congr (fun b hb => ?_)
                (fun b c _ => length_skipValue) count (Nat.le_refl r₁.length)
              exact ih b.length (by omega) elemType k k' b rfl (by omega) (by omega)
        · rw [skipValue_unknown hunknown, skipValue_unknown hunknown]
  exact hall r.length valType fuel r.length r rfl h (Nat.le_refl _)

/-! ## Elements -/

/-- Skipping a value comes to an array: of `count` elements of a type, the first of which
    is where `first` starts. -/
inductive Meets (version : Nat) : Nat → Bytes → Nat → Nat → Bytes → Prop where
  | array {r first : Bytes} {elemType count : Nat}
      (hheader : readHeader version r = some (elemType, count, first)) :
      Meets version 9 r elemType count first
  | element {r first a inner : Bytes} {elemType count i elemType' count' : Nat}
      (hheader : readHeader version r = some (elemType, count, first)) (hi : i < count)
      (ha : times (skipValue version first.length elemType) i first = some a)
      (hinner : Meets version elemType a elemType' count' inner) :
      Meets version 9 r elemType' count' inner

/-- Every element that is skipped takes some of what is there. -/
def Consumes (version elemType count : Nat) (first : Bytes) : Prop :=
  ∀ i a b, i < count → times (skipValue version first.length elemType) i first = some a →
    skipValue version first.length elemType a = some b → b.length < a.length

theorem times_number {w : Nat} (h : skipWidth valType = some w) (n : Nat) (r : Bytes) :
    times (skipValue version fuel valType) n r = some (r.drop (n * w)) := by
  induction n generalizing r with
  | zero => rw [times, Nat.zero_mul, List.drop_zero]
  | succ n ih =>
      rw [times, skipValue_number h, Option.bind_some, ih, List.drop_drop, Nat.succ_mul,
        Nat.add_comm w]

/-- **One array.**  Its elements all take something exactly when they are no numbers, or
    there is something left for the last of them. -/
theorem consumes_iff (version elemType count : Nat) (first : Bytes) :
    Consumes version elemType count first ↔
      ∀ w, skipWidth elemType = some w → count = 0 ∨ (count - 1) * w < first.length := by
  constructor
  · intro h w hw
    by_cases hcount : count = 0
    · exact .inl hcount
    · have hlast := h (count - 1) _ _ (by omega) (times_number hw _ _) (skipValue_number hw _)
      rw [List.length_drop, List.length_drop] at hlast
      exact .inr (by omega)
  · intro h i a b hi ha hb
    cases hkind : skipWidth elemType with
    | none => exact length_skipValue_lt hkind hb
    | some w =>
        have hpos := skipWidth_pos hkind
        rw [times_number hkind] at ha
        rw [skipValue_number hkind] at hb
        obtain rfl := Option.some.inj ha
        obtain rfl := Option.some.inj hb
        have hle : i * w ≤ (count - 1) * w := Nat.mul_le_mul_right w (by omega)
        rw [List.length_drop, List.length_drop]
        rcases h w hkind with hzero | hlast
        · omega
        · omega

end Maranode.Common
