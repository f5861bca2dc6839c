/-
  Maranode.Cli.QuantScan

  The positions of `parse_gguf_meta`, on any bytes.

  What is read is looked for with `get`, which fails beyond the end, but the sums that say
  where to look next are not checked.  As a slice is shorter than half of what a `usize`
  holds, only a length that was read can make one of them overflow (`safe_iff`).
-/
import Maranode.Cli.Quant
import Maranode.Common.GgufArrays
import Maranode.Lib.Checked
import Maranode.Lib.Run

namespace Maranode.Cli

open Lib Lib.Reader Maranode.Common

/-! ## What stands at a position -/

/-- The number in the next `w` bytes, if they are there. -/
def numberIn (w : Nat) (data : Bytes) (pos : Nat) : Option Nat :=
  if pos + w ≤ data.length then some (number ((data.drop pos).take w)) else none

/-- The type of the value of a pair, and where the value starts. -/
def valueAt (data : Bytes) (pos : Nat) : Option (Nat × Nat) :=
  (numberIn 8 data pos).bind fun keyLen =>
    (numberIn 4 data (pos + 8 + keyLen)).map fun valType => (valType, pos + 8 + keyLen + 4)

/-- The type of the elements of an array, their number, and where the first one starts. -/
def arrayAt (data : Bytes) (pos : Nat) : Option (Nat × Nat × Nat) :=
  (numberIn 4 data pos).bind fun elemType =>
    (numberIn 8 data (pos + 4)).map fun count => (elemType, count, pos + 4 + 8)

/-- The body of the loop over the texts of an array. -/
def nextString (checks : Bool) (data : Bytes) (pos : Nat) : Except GgufStop (Option Nat) :=
  (u64Le checks data pos).bind fun slen =>
    match slen with
    | none => .ok none
    | some slen =>
        (addUsize checks 8 slen).bind fun len => (addUsize checks pos len).map some

/-- Both loops, one iteration at a time. -/
def stringStep (checks : Bool) (data : Bytes) (pos : Nat) (_ : Unit) : Option Nat :=
  match nextString checks data pos with
  | .ok next => next
  | .error _ => none

def pairStep (checks : Bool) (data : Bytes) (s : GgufScan) (_ : Unit) : Option GgufScan :=
  match scanPair checks data s with
  | .ok (true, s') => some s'
  | _ => none

/-- A loop of as many iterations. -/
def iterations (n : Nat) : List Unit := List.replicate n ()

/-! ## Safe iterations, and what makes them so -/

/-- An iteration of the inner loop overflows nowhere, and moves on. -/
def StringSafe (checks : Bool) (data : Bytes) (pos : Nat) (_ : Unit) : Prop :=
  nextString true data pos ≠ .error .overflow ∧
    ∀ next, nextString checks data pos = .ok (some next) → pos < next

/-- So does one of the outer loop, which ends beyond the end of the data. -/
structure Safe (checks : Bool) (data : Bytes) (s : GgufScan) (_ : Unit) : Prop where
  fits : scanPair true data s ≠ .error .overflow
  moves : ∀ s', scanPair checks data s = .ok (true, s') → s.pos < s'.pos
  ends : data.length ≤ s.pos → ∀ s', scanPair checks data s ≠ .ok (true, s')
  strings : ∀ pos count first, valueAt data s.pos = some (12, pos) →
    arrayAt data pos = some (11, count, first) →
      Run.Along (stringStep checks data) (StringSafe checks data) first (iterations count)

/-- A text that stands there ends below `usize::MAX`. -/
def StringFits (data : Bytes) (pos : Nat) (_ : Unit) : Prop :=
  pos + 8 < 2 ^ 64 ∧ ∀ len, numberIn 8 data pos = some len → pos + 8 + len < 2 ^ 64

/-- The pair that stands there does: its key, and a text or an array that is its value. -/
structure Fits (checks : Bool) (data : Bytes) (s : GgufScan) (_ : Unit) : Prop where
  room : s.pos + 8 < 2 ^ 64
  key : ∀ keyLen, numberIn 8 data s.pos = some keyLen → s.pos + 8 + keyLen < 2 ^ 64
  text : ∀ pos len, valueAt data s.pos = some (11, pos) → numberIn 8 data pos = some len →
    pos + 8 + len < 2 ^ 64
  array : ∀ pos elemType count first size, valueAt data s.pos = some (12, pos) →
    arrayAt data pos = some (elemType, count, first) → elemSize elemType = some size →
      first + count * size < 2 ^ 64
  strings : ∀ pos count first, valueAt data s.pos = some (12, pos) →
    arrayAt data pos = some (11, count, first) →
      Run.Along (stringStep checks data) (StringFits data) first (iterations count)

variable {checks : Bool} {data : Bytes} {pos w a b : Nat} {s : GgufScan}

/-! ## Sums -/

theorem addUsize_overflow (h : ¬ a + b < 2 ^ 64) : addUsize true a b = .error .overflow := by
  rw [addUsize, if_neg h, if_pos rfl]

theorem mulUsize_of_lt (h : a * b < 2 ^ 64) : mulUsize checks a b = .ok (a * b) := if_pos h

theorem mulUsize_overflow (h : ¬ a * b < 2 ^ 64) : mulUsize true a b = .error .overflow := by
  rw [mulUsize, if_neg h, if_pos rfl]

theorem numberAt_of_lt (h : pos + w < 2 ^ 64) :
    numberAt checks w data pos = .ok (numberIn w data pos) := by
  rw [numberAt, addUsize_of_lt h]
  dsimp only [Except.bind]
  rw [get, numberIn]
  by_cases hle : pos + w ≤ data.length
  · rw [if_pos ⟨Nat.le_add_right pos w, hle⟩, if_pos hle, Option.map_some,
      Nat.add_sub_cancel_left]
  · rw [if_neg fun hget => hle hget.2, if_neg hle, Option.map_none]

theorem numberAt_overflow (h : ¬ pos + w < 2 ^ 64) :
    numberAt true w data pos = .error .overflow := by
  rw [numberAt, addUsize_overflow h]
  rfl

theorem le_of_numberIn {n : Nat} (h : numberIn w data pos = some n) : pos + w ≤ data.length := by
  rw [numberIn] at h
  split at h
  · assumption
  · cases h

/-! ## The inner loop -/

theorem skipStrings_succ (checks : Bool) (data : Bytes) (n pos : Nat) :
    skipStrings checks data (n + 1) pos =
      (nextString checks data pos).bind fun next =>
        match next with
        | none => .ok pos
        | some next => skipStrings checks data n next := by
  rw [skipStrings, nextString]
  cases u64Le checks data pos with
  | error e => rfl
  | ok slen =>
      cases slen with
      | none => rfl
      | some slen =>
          dsimp only [Except.bind]
          cases addUsize checks 8 slen with
          | error e => rfl
          | ok len =>
              dsimp only
              cases addUsize checks pos len <;> rfl

/-- Where a text fits, both builds go on behind it. -/
theorem nextString_of_fits (checks : Bool) (h : StringFits data pos ()) :
    nextString checks data pos = .ok ((numberIn 8 data pos).map fun len => pos + 8 + len) := by
  obtain ⟨hroom, hlen⟩ := h
  rw [nextString, u64Le, numberAt_of_lt hroom]
  cases hnum : numberIn 8 data pos with
  | none => rfl
  | some len =>
      have hfits := hlen len hnum
      dsimp only [Except.bind]
      rw [addUsize_of_lt (by omega)]
      dsimp only
      rw [addUsize_of_lt (by omega), Option.map_some, Nat.add_assoc]
      rfl

theorem nextString_overflow (h : ¬ StringFits data pos ()) :
    nextString true data pos = .error .overflow := by
  rw [nextString, u64Le]
  by_cases hroom : pos + 8 < 2 ^ 64
  · rw [numberAt_of_lt hroom]
    cases hnum : numberIn 8 data pos with
    | none =>
        refine absurd ⟨hroom, fun len hlen => ?_⟩ h
        rw [hnum] at hlen
        cases hlen
    | some len =>
        have hover : ¬ pos + 8 + len < 2 ^ 64 := by
          intro hfits
          refine h ⟨hroom, fun len' hlen' => ?_⟩
          rw [hnum] at hlen'
          rwa [← Option.some.inj hlen']
        dsimp only [Except.bind]
        by_cases hlen : 8 + len < 2 ^ 64
        · rw [addUsize_of_lt hlen]
          dsimp only
          rw [addUsize_overflow (by omega)]
          rfl
        · rw [addUsize_overflow hlen]
  · rw [numberAt_overflow hroom]
    rfl

theorem stringSafe_iff (checks : Bool) (data : Bytes) (pos : Nat) (u : Unit) :
    StringSafe checks data pos u ↔ StringFits data pos u := by
  constructor
  · intro h
    by_contra hfits
    exact h.1 (nextString_overflow hfits)
  · intro h
    refine ⟨fun hover => ?_, fun next hnext => ?_⟩
    · rw [nextString_of_fits true h] at hover
      cases hover
    · rw [nextString_of_fits checks h] at hnext
      obtain ⟨len, -, rfl⟩ := Option.map_eq_some_iff.mp (Except.ok.inj hnext)
      omega

/-- Where all the texts fit, both builds get through the loop, and no way back. -/
theorem skipStrings_of_fits {n : Nat}
    (h : Run.Along (stringStep checks data) (StringFits data) pos (iterations n)) :
    ∃ stop, pos ≤ stop ∧ ∀ checks, skipStrings checks data n pos = .ok stop := by
  induction n generalizing pos with
  | zero => exact ⟨pos, Nat.le_refl _, fun _ => rfl⟩
  | succ n ih =>
      obtain ⟨hfits, hrest⟩ := h
      cases hnum : numberIn 8 data pos with
      | none =>
          refine ⟨pos, Nat.le_refl _, fun checks => ?_⟩
          rw [skipStrings_succ, nextString_of_fits checks hfits, hnum]
          rfl
      | some len =>
          have hnext : ∀ checks, nextString checks data pos = .ok (some (pos + 8 + len)) := by
            intro checks
            rw [nextString_of_fits checks hfits, hnum]
            rfl
          have hstep : stringStep checks data pos () = some (pos + 8 + len) := by
            rw [stringStep, hnext]
          obtain ⟨stop, hle, hstop⟩ := ih (hrest _ hstep)
          refine ⟨stop, by omega, fun checks => ?_⟩
          rw [skipStrings_succ, hnext]
          exact hstop checks

theorem skipStrings_overflow {n : Nat}
    (h : ¬ Run.Along (stringStep checks data) (StringFits data) pos (iterations n)) :
    skipStrings true data n pos = .error .overflow := by
  induction n generalizing pos with
  | zero => exact absurd trivial h
  | succ n ih =>
      rw [skipStrings_succ]
      by_cases hfits : StringFits data pos ()
      · have hrest : ¬ ∀ next, stringStep checks data pos () = some next →
            Run.Along (stringStep checks data) (StringFits data) next (iterations n) :=
          fun hall => h ⟨hfits, hall⟩
        push Not at hrest
        obtain ⟨next, hstep, hnot⟩ := hrest
        have hnext : nextString true data pos = .ok (some next) := by
          rw [stringStep, nextString_of_fits checks hfits] at hstep
          rw [nextString_of_fits true hfits]
          exact congrArg Except.ok hstep
        rw [hnext]
        exact ih hnot
      · rw [nextString_overflow hfits]
        rfl

/-! ## The outer loop -/

/-- The sums that follow a position inside of the data. -/
theorem advance_inside (checks : Bool) (hdata : data.length < 2 ^ 63) (hpos : s.pos ≤ data.length)
    {n : Nat} (hn : n ≤ 8) : advance checks s n = .ok (true, { s with pos := s.pos + n }) := by
  rw [advance, addUsize_of_lt (by omega)]
  rfl

theorem scanValue_unknown {valType : Nat} (h : 13 ≤ valType) (checks : Bool) (key : Text) :
    scanValue checks data key valType s = .ok (false, s) := by
  unfold scanValue
  split
  all_goals first | omega | rfl

/-- What is neither a text nor an array to the scan is skipped by a constant. -/
theorem scanValue_flat (hdata : data.length < 2 ^ 63) (hpos : s.pos ≤ data.length)
    {valType : Nat} (h11 : valType ≠ 11) (h12 : valType ≠ 12) (key : Text) :
    ∃ out, s.pos ≤ out.2.pos ∧ ∀ checks, scanValue checks data key valType s = .ok out := by
  -- A fixed width from inside the data cannot overflow, checked or not.
  have hadvance : ∀ (t : GgufScan) n, t.pos = s.pos → n ≤ 8 →
      ∃ out : Bool × GgufScan, s.pos ≤ out.2.pos ∧ ∀ checks, advance checks t n = .ok out := by
    intro t n ht hn
    rw [← ht] at hpos ⊢
    refine ⟨(true, { t with pos := t.pos + n }), Nat.le_add_right _ _, fun checks => ?_⟩
    exact advance_inside checks hdata hpos hn
  by_cases hunknown : 13 ≤ valType
  · exact ⟨(false, s), Nat.le_refl _, fun checks => scanValue_unknown hunknown checks key⟩
  have hlt : valType < 13 := by omega
  clear hunknown
  -- The thirteen types of the format, each by the width the scan passes over.
  interval_cases valType
  · exact hadvance s 1 rfl (by omega)
  · exact hadvance s 1 rfl (by omega)
  · exact hadvance s 2 rfl (by omega)
  · exact hadvance s 2 rfl (by omega)
  -- A string: eight bytes are read as the length before they are passed over.
  · cases hnum : numberIn 8 data s.pos with
    | none =>
        refine ⟨(false, s), Nat.le_refl _, fun checks => ?_⟩
        rw [scanValue, u64Le, numberAt_of_lt (by omega), hnum]
        rfl
    | some v =>
        obtain ⟨out, hle, hout⟩ := hadvance { s with
          contextLength := if isContextLength key then some v else s.contextLength } 8 rfl
          (by omega)
        refine ⟨out, hle, fun checks => ?_⟩
        rw [scanValue, u64Le, numberAt_of_lt (by omega), hnum]
        exact hout checks
  · obtain ⟨out, hle, hout⟩ := hadvance s 4 rfl (by omega)
    refine ⟨out, hle, fun checks => ?_⟩
    rw [scanValue, u32Le, numberAt_of_lt (by omega)]
    exact hout checks
  · exact hadvance s 4 rfl (by omega)
  · exact hadvance s 1 rfl (by omega)
  -- A `uint32`: four bytes are read, and two keys keep what they hold.
  · cases hnum : numberIn 4 data s.pos with
    | none =>
        refine ⟨(false, s), Nat.le_refl _, fun checks => ?_⟩
        rw [scanValue, u32Le, numberAt_of_lt (by omega), hnum]
        rfl
    | some v =>
        obtain ⟨out, hle, hout⟩ := hadvance { s with
          fileType := if key = "general.file_type".toList then some v else s.fileType } 4 rfl
          (by omega)
        refine ⟨out, hle, fun checks => ?_⟩
        rw [scanValue, u32Le, numberAt_of_lt (by omega), hnum]
        exact hout checks
  · exact hadvance s 8 rfl (by omega)
  · exact hadvance s 8 rfl (by omega)
  · exact absurd rfl h11
  · exact absurd rfl h12

/-- A text. -/
theorem scanValue_text (hdata : data.length < 2 ^ 63) (hpos : s.pos ≤ data.length) (key : Text) :
    if ∀ len, numberIn 8 data s.pos = some len → s.pos + 8 + len < 2 ^ 64 then
      ∃ out, s.pos ≤ out.2.pos ∧ ∀ checks, scanValue checks data key 11 s = .ok out
    else scanValue true data key 11 s = .error .overflow := by
  cases hnum : numberIn 8 data s.pos with
  | none =>
      rw [if_pos nofun]
      refine ⟨(false, s), Nat.le_refl _, fun checks => ?_⟩
      rw [scanValue, u64Le, numberAt_of_lt (by omega), hnum]
      rfl
  -- The length is read; only its own size can carry the end past a `usize`.
  | some len =>
      have hbegin : ∀ checks, addUsize checks s.pos 8 = .ok (s.pos + 8) :=
        fun checks => addUsize_of_lt (by omega)
      by_cases hfits : s.pos + 8 + len < 2 ^ 64
      · rw [if_pos fun len' hlen' => by rwa [← Option.some.inj hlen']]
        refine ⟨(true, { s with
          pos := s.pos + 8 + len
          architecture :=
            if key = "general.architecture".toList then
              (get data (s.pos + 8) (s.pos + 8 + len)).bind Text.decode
            else s.architecture }), ?_, fun checks => ?_⟩
        · show s.pos ≤ s.pos + 8 + len
          omega
        · rw [scanValue, u64Le, numberAt_of_lt (by omega), hnum]
          dsimp only [Except.bind]
          rw [hbegin]
          dsimp only
          rw [addUsize_of_lt hfits]
      -- The end is no `usize`: the checked scan stops with the overflow.
      · rw [if_neg fun hall => hfits (hall len rfl)]
        rw [scanValue, u64Le, numberAt_of_lt (by omega), hnum]
        dsimp only [Except.bind]
        rw [hbegin]
        dsimp only
        rw [addUsize_overflow hfits]

/-- An array that is not all there ends the scan. -/
theorem scanValue_noArray (hdata : data.length < 2 ^ 63) (hpos : s.pos ≤ data.length)
    (h : arrayAt data s.pos = none) (key : Text) :
    ∃ out, s.pos ≤ out.2.pos ∧ ∀ checks, scanValue checks data key 12 s = .ok out := by
  rw [arrayAt] at h
  cases htype : numberIn 4 data s.pos with
  | none =>
      refine ⟨(false, s), Nat.le_refl _, fun checks => ?_⟩
      rw [scanValue, u32Le, numberAt_of_lt (by omega), htype]
      rfl
  | some elemType =>
      rw [htype, Option.bind_some, Option.map_eq_none_iff] at h
      have hinside := le_of_numberIn htype
      have hbegin : ∀ checks, addUsize checks s.pos 4 = .ok (s.pos + 4) :=
        fun checks => addUsize_of_lt (by omega)
      refine ⟨(false, { s with pos := s.pos + 4 }), Nat.le_add_right _ _, fun checks => ?_⟩
      rw [scanValue, u32Le, numberAt_of_lt (by omega), htype]
      dsimp only [Except.bind]
      rw [hbegin]
      dsimp only
      rw [u64Le, numberAt_of_lt (by omega), h]

theorem scanValue_array (hdata : data.length < 2 ^ 63) {elemType count first : Nat}
    (h : arrayAt data s.pos = some (elemType, count, first)) (key : Text) :
    s.pos ≤ first ∧ ∀ checks, scanValue checks data key 12 s =
      if elemType = 11 then
        (skipStrings checks data count first).bind fun pos => .ok (true, { s with pos })
      else
        match elemSize elemType with
        | none => .ok (false, { s with pos := first })
        | some size =>
            (mulUsize checks count size).bind (advance checks { s with pos := first }) := by
  obtain ⟨e, htype, hcount⟩ := Option.bind_eq_some_iff.mp h
  obtain ⟨n, hlength, hout⟩ := Option.map_eq_some_iff.mp hcount
  cases hout
  have hinside := le_of_numberIn htype
  have hinside' := le_of_numberIn hlength
  refine ⟨by omega, fun checks => ?_⟩
  have hbegin : addUsize checks s.pos 4 = .ok (s.pos + 4) := addUsize_of_lt (by omega)
  have hstart : addUsize checks (s.pos + 4) 8 = .ok (s.pos + 4 + 8) := addUsize_of_lt (by omega)
  rw [scanValue, u32Le, numberAt_of_lt (by omega), htype]
  dsimp only [Except.bind]
  rw [hbegin]
  dsimp only
  rw [u64Le, numberAt_of_lt (by omega), hlength]
  exact hstart ▸ rfl

/-- The value of a pair fits. -/
structure ValueFits (checks : Bool) (data : Bytes) (valType pos : Nat) : Prop where
  text : valType = 11 → ∀ len, numberIn 8 data pos = some len → pos + 8 + len < 2 ^ 64
  array : valType = 12 → ∀ elemType count first size,
    arrayAt data pos = some (elemType, count, first) → elemSize elemType = some size →
      first + count * size < 2 ^ 64
  strings : valType = 12 → ∀ count first, arrayAt data pos = some (11, count, first) →
    Run.Along (stringStep checks data) (StringFits data) first (iterations count)

/-- Where it does, both builds get on with it. -/
theorem scanValue_of_fits {valType : Nat} (hdata : data.length < 2 ^ 63)
    (hpos : s.pos ≤ data.length) (h : ValueFits checks data valType s.pos) (key : Text) :
    ∃ out, s.pos ≤ out.2.pos ∧ ∀ checks, scanValue checks data key valType s = .ok out := by
  by_cases h11 : valType = 11
  · subst h11
    have htext := scanValue_text hdata hpos key
    rwa [if_pos (h.text rfl)] at htext
  -- An array is sized by its element type; every other value is flat or a text.
  by_cases h12 : valType = 12
  · subst h12
    cases harray : arrayAt data s.pos with
    | none => exact scanValue_noArray hdata hpos harray key
    | some found =>
        obtain ⟨elemType, count, first⟩ := found
        obtain ⟨hle, heq⟩ := scanValue_array hdata harray key
        -- Elements of changing width are passed over one after the other.
        by_cases helem : elemType = 11
        · subst helem
          obtain ⟨stop, hfirst, hstop⟩ := skipStrings_of_fits (h.strings rfl count first harray)
          refine ⟨(true, { s with pos := stop }), Nat.le_trans hle hfirst, fun checks => ?_⟩
          rw [heq, if_pos rfl, hstop]
          rfl
        · cases hsize : elemSize elemType with
          | none =>
              refine ⟨(false, { s with pos := first }), hle, fun checks => ?_⟩
              rw [heq, if_neg helem, hsize]
          -- Elements of one width are passed over in one step, which `ValueFits` bounds.
          | some size =>
              have hfits := h.array rfl elemType count first size harray hsize
              refine ⟨(true, { s with pos := first + count * size }),
                Nat.le_trans hle (Nat.le_add_right _ _), fun checks => ?_⟩
              rw [heq, if_neg helem, hsize]
              dsimp only
              rw [mulUsize_of_lt (by omega)]
              dsimp only [Except.bind]
              rw [advance, addUsize_of_lt hfits]
              rfl
  · exact scanValue_flat hdata hpos h11 h12 key

/-- Where it does not, the build that checks stops. -/
theorem scanValue_overflow {valType : Nat} (hdata : data.length < 2 ^ 63)
    (hpos : s.pos ≤ data.length) (h : ¬ ValueFits checks data valType s.pos) (key : Text) :
    scanValue true data key valType s = .error .overflow := by
  by_cases h11 : valType = 11
  · subst h11
    have htext := scanValue_text hdata hpos key
    rwa [if_neg fun hfits => h ⟨fun _ => hfits, nofun, nofun⟩] at htext
  by_cases h12 : valType = 12
  · subst h12
    -- Without a readable array head there is nothing that could fail to fit.
    cases harray : arrayAt data s.pos with
    | none =>
        refine absurd ⟨nofun, fun _ _ _ _ _ hfound => ?_, fun _ _ _ hfound => ?_⟩ h
        · rw [harray] at hfound
          cases hfound
        · rw [harray] at hfound
          cases hfound
    | some found =>
        obtain ⟨elemType, count, first⟩ := found
        obtain ⟨hle, heq⟩ := scanValue_array hdata harray key
        rw [heq]
        -- An array of texts fails at one of its elements, or it would fit.
        by_cases helem : elemType = 11
        · subst helem
          have hnot : ¬ Run.Along (stringStep checks data) (StringFits data) first
              (iterations count) := by
            intro hall
            refine h ⟨nofun, fun _ e n p size hfound hsize => ?_, fun _ n p hfound => ?_⟩
            · cases Option.some.inj (harray.symm.trans hfound)
              cases hsize
            · cases Option.some.inj (harray.symm.trans hfound)
              exact hall
          rw [if_pos rfl, skipStrings_overflow hnot]
          rfl
        · rw [if_neg helem]
          cases hsize : elemSize elemType with
          | none =>
              refine absurd ⟨nofun, fun _ e n p size hfound hsome => ?_,
                fun _ n p hfound => ?_⟩ h
              · cases Option.some.inj (harray.symm.trans hfound)
                rw [hsize] at hsome
                cases hsome
              · cases Option.some.inj (harray.symm.trans hfound)
                exact absurd rfl helem
          -- An array of one width fails in the product or in the sum.
          | some size =>
              have hover : ¬ first + count * size < 2 ^ 64 := by
                intro hfits
                refine h ⟨nofun, fun _ e n p size' hfound hsome => ?_, fun _ n p hfound => ?_⟩
                · cases Option.some.inj (harray.symm.trans hfound)
                  cases Option.some.inj (hsize.symm.trans hsome)
                  exact hfits
                · cases Option.some.inj (harray.symm.trans hfound)
                  exact absurd rfl helem
              dsimp only
              by_cases hmul : count * size < 2 ^ 64
              · rw [mulUsize_of_lt hmul]
                dsimp only [Except.bind]
                rw [advance, addUsize_overflow hover]
                rfl
              · rw [mulUsize_overflow hmul]
                rfl
  · exact absurd ⟨fun heq => absurd heq h11, fun heq => absurd heq h12,
      fun heq => absurd heq h12⟩ h

/-- A pair without a type ends the scan; any other one is scanned from its value on. -/
theorem scanPair_value (hdata : data.length < 2 ^ 63) (hroom : s.pos + 8 < 2 ^ 64)
    (hkey : ∀ keyLen, numberIn 8 data s.pos = some keyLen → s.pos + 8 + keyLen < 2 ^ 64) :
    (valueAt data s.pos = none ∧ ∃ s', ∀ checks, scanPair checks data s = .ok (false, s')) ∨
      ∃ valType pos key, valueAt data s.pos = some (valType, pos) ∧ s.pos + 12 ≤ pos ∧
        pos ≤ data.length ∧
        ∀ checks, scanPair checks data s = scanValue checks data key valType { s with pos } := by
  have hlen : ∀ checks, u64Le checks data s.pos = .ok (numberIn 8 data s.pos) :=
    fun checks => numberAt_of_lt hroom
  have hbegin : ∀ checks, addUsize checks s.pos 8 = .ok (s.pos + 8) :=
    fun checks => addUsize_of_lt hroom
  rw [valueAt]
  cases hnum : numberIn 8 data s.pos with
  | none =>
      refine .inl ⟨rfl, s, fun checks => ?_⟩
      rw [scanPair, hlen, hnum]
      rfl
  -- The key's length is read, and its end is a `usize` by the caller's word.
  | some keyLen =>
      have hend : ∀ checks, addUsize checks (s.pos + 8) keyLen = .ok (s.pos + 8 + keyLen) :=
        fun checks => addUsize_of_lt (hkey keyLen hnum)
      rw [Option.bind_some]
      -- The key lies in the data, or the scan ends behind its length.
      cases hget : get data (s.pos + 8) (s.pos + 8 + keyLen) with
      | none =>
          have hout : ¬ s.pos + 8 + keyLen + 4 ≤ data.length := by
            intro hle
            rw [get, if_pos ⟨Nat.le_add_right _ _, by omega⟩] at hget
            cases hget
          refine .inl ⟨?_, { s with pos := s.pos + 8 }, fun checks => ?_⟩
          · rw [numberIn, if_neg hout, Option.map_none]
          · rw [scanPair, hlen, hnum]
            dsimp only [Except.bind]
            rw [hbegin]
            dsimp only
            rw [hend]
            dsimp only
            rw [hget]
      | some key =>
          have hinside : s.pos + 8 + keyLen ≤ data.length := by
            rw [get] at hget
            split at hget
            · rename_i hle
              exact hle.2
            · cases hget
          have htype : ∀ checks, u32Le checks data (s.pos + 8 + keyLen) =
              .ok (numberIn 4 data (s.pos + 8 + keyLen)) :=
            fun checks => numberAt_of_lt (by omega)
          -- With the key read, the pair is the scan of its value.
          have hscan : ∀ checks, scanPair checks data s =
              (Except.ok (numberIn 4 data (s.pos + 8 + keyLen))).bind fun valType =>
                match valType with
                | none => .ok (false, { s with pos := s.pos + 8 + keyLen })
                | some valType =>
                    (addUsize checks (s.pos + 8 + keyLen) 4).bind fun pos =>
                      scanValue checks data (keyText key) valType { s with pos } := by
            intro checks
            rw [scanPair, hlen, hnum]
            dsimp only [Except.bind]
            rw [hbegin]
            dsimp only
            rw [hend]
            dsimp only
            rw [hget]
            exact (htype checks) ▸ rfl
          cases hvalType : numberIn 4 data (s.pos + 8 + keyLen) with
          | none =>
              refine .inl ⟨rfl, { s with pos := s.pos + 8 + keyLen }, fun checks => ?_⟩
              rw [hscan, hvalType]
              rfl
          -- A tag was read, so the data goes on behind the key.
          | some valType =>
              have hle := le_of_numberIn hvalType
              refine .inr ⟨valType, s.pos + 8 + keyLen + 4, keyText key, rfl, by omega, hle,
                fun checks => ?_⟩
              rw [hscan, hvalType]
              dsimp only [Except.bind]
              rw [addUsize_of_lt (by omega)]

/-- Where the key does not fit, the build that checks stops. -/
theorem scanPair_overflow (h : ¬ (s.pos + 8 < 2 ^ 64 ∧
    ∀ keyLen, numberIn 8 data s.pos = some keyLen → s.pos + 8 + keyLen < 2 ^ 64)) :
    scanPair true data s = .error .overflow := by
  rw [scanPair, u64Le]
  by_cases hroom : s.pos + 8 < 2 ^ 64
  · rw [numberAt_of_lt hroom]
    cases hnum : numberIn 8 data s.pos with
    | none =>
        refine absurd ⟨hroom, fun keyLen hkeyLen => ?_⟩ h
        rw [hnum] at hkeyLen
        cases hkeyLen
    | some keyLen =>
        have hover : ¬ s.pos + 8 + keyLen < 2 ^ 64 := by
          intro hfits
          refine h ⟨hroom, fun keyLen' hkeyLen' => ?_⟩
          rwa [← Option.some.inj (hnum.symm.trans hkeyLen')]
        dsimp only [Except.bind]
        rw [addUsize_of_lt hroom]
        dsimp only
        rw [addUsize_overflow hover]
  · rw [numberAt_overflow hroom]
    rfl

theorem fits_iff (checks : Bool) (data : Bytes) (s : GgufScan) (u : Unit) :
    Fits checks data s u ↔ (s.pos + 8 < 2 ^ 64 ∧
      ∀ keyLen, numberIn 8 data s.pos = some keyLen → s.pos + 8 + keyLen < 2 ^ 64) ∧
      ∀ valType pos, valueAt data s.pos = some (valType, pos) →
        ValueFits checks data valType pos := by
  constructor
  · intro h
    refine ⟨⟨h.room, h.key⟩, fun valType pos hvalue => ⟨?_, ?_, ?_⟩⟩
    · rintro rfl
      exact fun len => h.text pos len hvalue
    · rintro rfl
      exact fun e n p size => h.array pos e n p size hvalue
    · rintro rfl
      exact fun n p => h.strings pos n p hvalue
  · rintro ⟨⟨hroom, hkey⟩, hvalues⟩
    exact
      { room := hroom
        key := hkey
        text := fun pos len hvalue => (hvalues 11 pos hvalue).text rfl len
        array := fun pos e n p size hvalue => (hvalues 12 pos hvalue).array rfl e n p size
        strings := fun pos n p hvalue => (hvalues 12 pos hvalue).strings rfl n p }

/-- One iteration of both builds, where everything fits. -/
theorem scanPair_of_fits (hdata : data.length < 2 ^ 63) {u : Unit} (h : Fits checks data s u) :
    ∃ out, (out.1 = true → s.pos < out.2.pos ∧ s.pos < data.length) ∧
      ∀ checks, scanPair checks data s = .ok out := by
  obtain ⟨⟨hroom, hkey⟩, hvalues⟩ := (fits_iff checks data s u).mp h
  rcases scanPair_value hdata hroom hkey with
    ⟨-, s', hout⟩ | ⟨valType, pos, key, hvalue, hpos, hinside, hscan⟩
  · exact ⟨(false, s'), nofun, hout⟩
  · obtain ⟨out, hle, hout⟩ :=
      scanValue_of_fits (s := { s with pos }) hdata hinside (hvalues valType pos hvalue) key
    refine ⟨out, fun _ => ?_, fun checks => (hscan checks).trans (hout checks)⟩
    have hle : pos ≤ out.2.pos := hle
    exact ⟨by omega, by omega⟩

theorem scanPair_of_not_fits (hdata : data.length < 2 ^ 63) {u : Unit}
    (h : ¬ Fits checks data s u) : scanPair true data s = .error .overflow := by
  rw [fits_iff] at h
  by_cases hpair : s.pos + 8 < 2 ^ 64 ∧
      ∀ keyLen, numberIn 8 data s.pos = some keyLen → s.pos + 8 + keyLen < 2 ^ 64
  · rcases scanPair_value hdata hpair.1 hpair.2 with
      ⟨hnone, -⟩ | ⟨valType, pos, key, hvalue, -, hinside, hscan⟩
    · refine absurd ⟨hpair, fun valType pos hvalue => ?_⟩ h
      rw [hnone] at hvalue
      cases hvalue
    · rw [hscan]
      refine scanValue_overflow hdata hinside
        (fun (hfits : ValueFits checks data valType pos) => ?_) key
      refine h ⟨hpair, fun valType' pos' hvalue' => ?_⟩
      cases Option.some.inj (hvalue.symm.trans hvalue')
      exact hfits
  · exact scanPair_overflow hpair

/-- **One iteration.**  It is safe exactly when the pair fits. -/
theorem safe_iff (hdata : data.length < 2 ^ 63) (checks : Bool) (s : GgufScan) (u : Unit) :
    Safe checks data s u ↔ Fits checks data s u := by
  constructor
  · intro h
    by_contra hfits
    exact h.fits (scanPair_of_not_fits hdata hfits)
  · intro h
    obtain ⟨out, hmoves, hout⟩ := scanPair_of_fits hdata h
    refine ⟨fun hover => ?_, fun s' hs' => ?_, fun hend s' hs' => ?_,
      fun pos n p hvalue harray => ?_⟩
    · rw [hout] at hover
      cases hover
    · obtain rfl := Except.ok.inj ((hout checks).symm.trans hs')
      exact (hmoves rfl).1
    · obtain rfl := Except.ok.inj ((hout checks).symm.trans hs')
      have hinside := (hmoves rfl).2
      omega
    · exact (h.strings pos n p hvalue harray).mono fun pos u =>
        (stringSafe_iff checks data pos u).mpr

/-! ## The whole scan -/

/-- The header is that of a file the CLI knows. -/
def Accepted (data : Bytes) : Prop :=
  24 ≤ data.length ∧ headerNumber data 0 4 = 0x46554747 ∧ 2 ≤ headerNumber data 4 4 ∧
    headerNumber data 4 4 ≤ 3

instance (data : Bytes) : Decidable (Accepted data) := inferInstanceAs (Decidable (_ ∧ _ ∧ _ ∧ _))

def scanStart : GgufScan := ⟨24, none, none, none⟩

/-- The iterations of the outer loop, as many as there are pairs by the header. -/
def pairIterations (data : Bytes) : List Unit :=
  if Accepted data then iterations (headerNumber data 16 8) else []

/-- What is read of a header that is there is read with `unwrap`. -/
theorem numberAt_header (checks : Bool) (hlen : 24 ≤ data.length) {off : Nat}
    (hoff : off + w ≤ 24) : numberAt checks w data off = .ok (some (headerNumber data off w)) := by
  rw [numberAt_of_lt (by omega), numberIn, if_pos (by omega)]
  rfl

theorem ok_ne_overflow {α : Type} (a : α) : (Except.ok a : Except GgufStop α) ≠ .error .overflow :=
  nofun

theorem bail_ne_overflow {α : Type} (message : String) :
    (Except.error (.bail message) : Except GgufStop α) ≠ .error .overflow := nofun

theorem scanPairs_overflow_iff (hdata : data.length < 2 ^ 63) (n : Nat) (s : GgufScan) :
    scanPairs true data n s ≠ .error .overflow ↔
      Run.Along (pairStep true data) (Fits true data) s (iterations n) := by
  induction n generalizing s with
  | zero => exact iff_of_true (ok_ne_overflow s) trivial
  | succ n ih =>
      rw [scanPairs]
      show _ ↔ Fits true data s () ∧
        ∀ s', pairStep true data s () = some s' → Run.Along _ _ s' (iterations n)
      by_cases hfits : Fits true data s ()
      · obtain ⟨⟨next, s'⟩, -, hout⟩ := scanPair_of_fits hdata hfits
        rw [and_iff_right hfits, pairStep, hout]
        cases next with
        | true =>
            show scanPairs true data n s' ≠ _ ↔ ∀ t, some s' = some t → _
            rw [ih s']
            exact ⟨fun hall t ht => Option.some.inj ht ▸ hall, fun hall => hall s' rfl⟩
        | false =>
            refine iff_of_true (ok_ne_overflow s') fun t ht => ?_
            cases ht
      · rw [scanPair_of_not_fits hdata hfits]
        exact iff_of_false (fun hne => hne rfl) fun hall => hfits hall.1

/-- A build that checks gets through a file exactly when all that it comes to fits. -/
theorem parseGgufMeta_overflow_iff (hdata : data.length < 2 ^ 63) :
    parseGgufMeta true data ≠ .error .overflow ↔
      Run.Along (pairStep true data) (Fits true data) scanStart (pairIterations data) := by
  rw [parseGgufMeta, pairIterations]
  by_cases hlen : data.length < 24
  · rw [if_pos hlen, if_neg fun haccepted => by have := haccepted.1; omega]
    exact iff_of_true (bail_ne_overflow _) trivial
  · rw [if_neg hlen]
    by_cases hmagic : headerNumber data 0 4 = 0x46554747
    · rw [if_neg (not_not.mpr hmagic)]
      dsimp only
      by_cases hversion : headerNumber data 4 4 < 2 ∨ 3 < headerNumber data 4 4
      · rw [if_pos hversion, if_neg fun haccepted => by have := haccepted.2.2; omega]
        exact iff_of_true (bail_ne_overflow _) trivial
      · rw [if_neg hversion, if_pos ⟨by omega, hmagic, by omega, by omega⟩,
          ← scanPairs_overflow_iff hdata]
        show (scanPairs true data _ scanStart).bind _ ≠ _ ↔ _
        cases scanPairs true data (headerNumber data 16 8) scanStart with
        | error e => simp [Except.bind]
        | ok t => exact iff_of_true (ok_ne_overflow _) (ok_ne_overflow _)
    · rw [if_pos hmagic, if_neg fun haccepted => hmagic haccepted.2.1]
      exact iff_of_true (bail_ne_overflow _) trivial

/-- **Two parsers on any bytes.**  All along a scan of the CLI, every iteration overflows
    nowhere, moves on, and ends beyond the data, exactly when every length that it comes to
    fits.  Skipping a value ends, with arrays nested no deeper than there are bytes; and its
    loops consume something each time exactly when no array of numbers is longer than what
    is there. -/
theorem parsers_safe_iff (checks : Bool) (data : Checked.Slice) (version valType : Nat)
    (r : Bytes) :
    ((24 ≤ data.1.length → ∀ off w, off + w ≤ 24 →
        numberAt checks w data.1 off = .ok (some (headerNumber data.1 off w))) ∧
      (Run.Along (pairStep checks data.1) (Safe checks data.1) scanStart (pairIterations data.1) ↔
        Run.Along (pairStep checks data.1) (Fits checks data.1) scanStart
          (pairIterations data.1)) ∧
      (parseGgufMeta true data.1 ≠ .error .overflow ↔
        Run.Along (pairStep true data.1) (Fits true data.1) scanStart
          (pairIterations data.1))) ∧
    (∀ fuel, r.length ≤ fuel →
      skipValue version fuel valType r = skipValue version r.length valType r) ∧
    ((∀ elemType count first, Meets version valType r elemType count first →
        Consumes version elemType count first) ↔
      ∀ elemType count first, Meets version valType r elemType count first →
        ∀ w, skipWidth elemType = some w → count = 0 ∨ (count - 1) * w < first.length) := by
  constructor
  · obtain ⟨data, hslice⟩ := data
    have hdata : data.length < 2 ^ 63 := Nat.lt_of_le_of_lt hslice (by decide)
    refine ⟨fun hlen off w hoff => numberAt_header checks hlen hoff, ⟨fun h => ?_, fun h => ?_⟩,
      parseGgufMeta_overflow_iff hdata⟩
    · exact h.mono fun s u => (safe_iff hdata checks s u).mp
    · exact h.mono fun s u => (safe_iff hdata checks s u).mpr
  · refine ⟨fun fuel => skipValue_fuel version valType, ?_⟩
    refine forall_congr' fun elemType => forall_congr' fun count => forall_congr' fun first => ?_
    exact imp_congr_right fun _ => consumes_iff version elemType count first

/-! ## Two files -/

/-- A file of one pair, with a key of 2^64 - 1 bytes. -/
def longKeyFile : Bytes :=
  littleEndian 4 0x46554747 ++ littleEndian 4 3 ++ littleEndian 8 0 ++ littleEndian 8 1 ++
    littleEndian 8 (2 ^ 64 - 1)

/-- An array of one byte, which is not there. -/
def missingByte : Bytes := littleEndian 4 0 ++ littleEndian 8 1

/-- The end of the key overflows, and the missing byte is skipped. -/
theorem not_parsers_safe :
    (¬ ∀ (checks : Bool) (data : Checked.Slice),
      Run.Along (pairStep checks data.1) (Safe checks data.1) scanStart
        (pairIterations data.1)) ∧
    ¬ ∀ (version valType : Nat) (r : Bytes) (elemType count : Nat) (first : Bytes),
      Meets version valType r elemType count first → Consumes version elemType count first := by
  constructor
  · intro h
    have hall := h true ⟨longKeyFile, by decide⟩
    have hpairs : pairIterations longKeyFile = iterations 1 := by decide
    rw [hpairs] at hall
    exact hall.1.fits rfl
  · intro h
    have hconsumes := h 3 9 missingByte 0 1 [] (.array (by decide))
    have hlt := hconsumes 0 [] [] (by decide) rfl rfl
    exact Nat.lt_irrefl _ hlt

end Maranode.Cli
