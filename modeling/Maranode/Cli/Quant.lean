/-
  Maranode.Cli.Quant

  `commands/quant.rs`: what `quant inspect` reads of a GGUF file.

  `parse_gguf_meta` has a table of tags of its own, in which 4 is eight bytes wide, 8 four,
  9 eight, 11 a text and 12 a flat array.  It follows the pairs of a file up to the first
  one that the two tables size differently, and a `uint32` is one of these.
-/
import Maranode.Common.Gguf

namespace Maranode.Cli

open Lib Lib.Reader Maranode.Common

/-! ## usize -/

/-- Why `parse_gguf_meta` gives nothing: an error, or a panic where overflow is checked. -/
inductive GgufStop where
  | bail (message : String)
  | overflow
  deriving DecidableEq

/-- `+` on `usize`; a release build does not check. -/
def addUsize (checks : Bool) (a b : Nat) : Except GgufStop Nat :=
  if a + b < 2 ^ 64 then .ok (a + b)
  else if checks then .error .overflow
  else .ok ((a + b) % 2 ^ 64)

def mulUsize (checks : Bool) (a b : Nat) : Except GgufStop Nat :=
  if a * b < 2 ^ 64 then .ok (a * b)
  else if checks then .error .overflow
  else .ok ((a * b) % 2 ^ 64)

/-- `data.get(start..stop)`. -/
def get (data : Bytes) (start stop : Nat) : Option Bytes :=
  if start ≤ stop ∧ stop ≤ data.length then some ((data.drop start).take (stop - start))
  else none

/-- `u32_le` and `u64_le`, by their width. -/
def numberAt (checks : Bool) (w : Nat) (data : Bytes) (off : Nat) :
    Except GgufStop (Option Nat) :=
  (addUsize checks off w).bind fun stop => .ok ((get data off stop).map number)

def u32Le (checks : Bool) (data : Bytes) (off : Nat) : Except GgufStop (Option Nat) :=
  numberAt checks 4 data off

def u64Le (checks : Bool) (data : Bytes) (off : Nat) : Except GgufStop (Option Nat) :=
  numberAt checks 8 data off

/-! ## parse_gguf_meta -/

def ggufFileTypeName (fileType : Nat) : String :=
  match fileType with
  | 0 => "F32"
  | 1 => "F16"
  | 2 => "Q4_0"
  | 3 => "Q4_1"
  | 7 => "Q8_0"
  | 8 => "Q5_0"
  | 9 => "Q5_1"
  | 10 => "Q2_K"
  | 11 => "Q3_K_S"
  | 12 => "Q3_K_M"
  | 13 => "Q3_K_L"
  | 14 => "Q4_K_S"
  | 15 => "Q4_K_M"
  | 16 => "Q5_K_S"
  | 17 => "Q5_K_M"
  | 18 => "Q6_K"
  | 19 => "IQ2_XXS"
  | 20 => "IQ2_XS"
  | 21 => "Q2_K_S"
  | 22 => "IQ3_XS"
  | 23 => "IQ3_S"
  | 24 => "IQ3_M"
  | 25 => "IQ4_NL"
  | 26 => "IQ4_XS"
  | 27 => "IQ1_S"
  | 28 => "IQ1_M"
  | _ => "unknown"

/-- What is reported, less the estimate of the parameters. -/
structure GgufMeta where
  version : Nat
  tensorCount : Nat
  kvCount : Nat
  fileType : Option Nat
  quantizationName : String
  contextLength : Option Nat
  architecture : Option Text

/-- Where the scan stands, and what it has met. -/
structure GgufScan where
  pos : Nat
  fileType : Option Nat
  contextLength : Option Nat
  architecture : Option Text

/-- The text of a key; one that is not UTF-8 is empty. -/
def keyText (key : Bytes) : Text := (Text.decode key).getD []

/-- `key.ends_with(".context_length")`. -/
def isContextLength (key : Text) : Bool := ".context_length".toList.isSuffixOf key

/-- The elements of an array of texts, as long as they have a length. -/
def skipStrings (checks : Bool) (data : Bytes) : Nat → Nat → Except GgufStop Nat
  | 0, pos => .ok pos
  | n + 1, pos =>
      (u64Le checks data pos).bind fun slen =>
        match slen with
        | none => .ok pos
        | some slen =>
            (addUsize checks 8 slen).bind fun len =>
              (addUsize checks pos len).bind (skipStrings checks data n)

def elemSize (elemType : Nat) : Option Nat :=
  match elemType with
  | 0 | 1 | 7 => some 1
  | 2 | 3 => some 2
  | 4 | 5 | 6 | 8 => some 4
  | 9 | 10 => some 8
  | _ => none

/-- `pos += n`, and on to the next pair. -/
def advance (checks : Bool) (s : GgufScan) (n : Nat) : Except GgufStop (Bool × GgufScan) :=
  (addUsize checks s.pos n).bind fun pos => .ok (true, { s with pos })

/-- The value of a pair; `false` leaves the loop. -/
def scanValue (checks : Bool) (data : Bytes) (key : Text) (valType : Nat) (s : GgufScan) :
    Except GgufStop (Bool × GgufScan) :=
  match valType with
  | 8 =>
      (u32Le checks data s.pos).bind fun v =>
        match v with
        | none => .ok (false, s)
        | some v =>
            let fileType := if key = "general.file_type".toList then some v else s.fileType
            advance checks { s with fileType } 4
  | 4 =>
      (u64Le checks data s.pos).bind fun v =>
        match v with
        | none => .ok (false, s)
        | some v =>
            let contextLength := if isContextLength key then some v else s.contextLength
            advance checks { s with contextLength } 8
  | 0 | 1 | 7 => advance checks s 1
  | 2 | 3 => advance checks s 2
  | 5 => (u32Le checks data s.pos).bind fun _ => advance checks s 4
  | 6 => advance checks s 4
  | 9 => advance checks s 8
  | 10 => advance checks s 8
  | 11 =>
      (u64Le checks data s.pos).bind fun slen =>
        match slen with
        | none => .ok (false, s)
        | some slen =>
            (addUsize checks s.pos 8).bind fun pos =>
              (addUsize checks pos slen).bind fun stop =>
                let architecture :=
                  if key = "general.architecture".toList then
                    (get data pos stop).bind Text.decode
                  else s.architecture
                .ok (true, { s with pos := stop, architecture })
  | 12 =>
      (u32Le checks data s.pos).bind fun elemType =>
        match elemType with
        | none => .ok (false, s)
        | some elemType =>
            (addUsize checks s.pos 4).bind fun pos =>
              (u64Le checks data pos).bind fun arrLen =>
                match arrLen with
                | none => .ok (false, { s with pos })
                | some arrLen =>
                    (addUsize checks pos 8).bind fun pos =>
                      if elemType = 11 then
                        (skipStrings checks data arrLen pos).bind fun pos =>
                          .ok (true, { s with pos })
                      else
                        match elemSize elemType with
                        | none => .ok (false, { s with pos })
                        | some size =>
                            (mulUsize checks arrLen size).bind (advance checks { s with pos })
  | _ => .ok (false, s)

/-- The body of the loop. -/
def scanPair (checks : Bool) (data : Bytes) (s : GgufScan) :
    Except GgufStop (Bool × GgufScan) :=
  (u64Le checks data s.pos).bind fun keyLen =>
    match keyLen with
    | none => .ok (false, s)
    | some keyLen =>
        (addUsize checks s.pos 8).bind fun pos =>
          (addUsize checks pos keyLen).bind fun stop =>
            match get data pos stop with
            | none => .ok (false, { s with pos })
            | some key =>
                (u32Le checks data stop).bind fun valType =>
                  match valType with
                  | none => .ok (false, { s with pos := stop })
                  | some valType =>
                      (addUsize checks stop 4).bind fun pos =>
                        scanValue checks data (keyText key) valType { s with pos }

def scanPairs (checks : Bool) (data : Bytes) : Nat → GgufScan → Except GgufStop GgufScan
  | 0, s => .ok s
  | n + 1, s =>
      (scanPair checks data s).bind fun (next, s) =>
        if next then scanPairs checks data n s else .ok s

/-- The numbers of the header, which is 24 bytes. -/
def headerNumber (data : Bytes) (off w : Nat) : Nat := number ((data.drop off).take w)

def parseGgufMeta (checks : Bool) (data : Bytes) : Except GgufStop GgufMeta :=
  if data.length < 24 then .error (.bail "file too small for gguf")
  else if headerNumber data 0 4 ≠ 0x46554747 then .error (.bail "not a gguf file")
  else
    let version := headerNumber data 4 4
    if version < 2 ∨ 3 < version then
      .error (.bail s!"unsupported gguf version {toString version}")
    else
      let kvCount := headerNumber data 16 8
      (scanPairs checks data kvCount ⟨24, none, none, none⟩).bind fun s =>
        .ok
          { version
            tensorCount := headerNumber data 8 8
            kvCount
            fileType := s.fileType
            quantizationName := (s.fileType.map ggufFileTypeName).getD "unknown"
            contextLength := s.contextLength
            architecture := s.architecture }

/-! ## Positions -/

section Positions

variable {checks : Bool} {data bs rest : Bytes} {pos w : Nat}

theorem addUsize_of_lt {a b : Nat} (h : a + b < 2 ^ 64) : addUsize checks a b = .ok (a + b) :=
  if_pos h

/-- The bytes at a position are the next `n` of what is left. -/
theorem get_add {n : Nat} (hpos : pos ≤ data.length) :
    get data pos (pos + n) =
      if n ≤ (data.drop pos).length then some ((data.drop pos).take n) else none := by
  rw [get, List.length_drop, Nat.add_sub_cancel_left]
  by_cases h : n ≤ data.length - pos
  · rw [if_pos h, if_pos ⟨Nat.le_add_right pos n, by omega⟩]
  · rw [if_neg h, if_neg (by omega)]

theorem numberAt_eq (hdata : data.length < 2 ^ 63) (hpos : pos ≤ data.length) (hw : w ≤ 8) :
    numberAt checks w data pos =
      .ok (if w ≤ (data.drop pos).length then some (number ((data.drop pos).take w))
        else none) := by
  rw [numberAt, addUsize_of_lt (by omega)]
  dsimp only [Except.bind]
  rw [get_add hpos]
  split <;> rfl

/-- The scan stands before these bytes. -/
def Before (data : Bytes) (pos : Nat) (bs : Bytes) : Prop :=
  pos ≤ data.length ∧ data.drop pos = bs

theorem Before.add (h : Before data pos (bs ++ rest)) : Before data (pos + bs.length) rest := by
  have hlen := congrArg List.length h.2
  rw [List.length_drop, List.length_append] at hlen
  have hpos := h.1
  refine ⟨by omega, ?_⟩
  rw [← List.drop_drop, h.2, List.drop_left]

variable (checks) in
theorem Before.numberAt (h : Before data pos (bs ++ rest)) (hdata : data.length < 2 ^ 63)
    (hw : bs.length ≤ 8) :
    numberAt checks bs.length data pos = .ok (some (number bs)) := by
  have hle : bs.length ≤ (bs ++ rest).length := by
    rw [List.length_append]
    omega
  rw [numberAt_eq hdata h.1 hw, h.2, if_pos hle, List.take_left]

variable (checks) in
theorem Before.addUsize (h : Before data pos (bs ++ rest)) (hdata : data.length < 2 ^ 63) :
    addUsize checks pos bs.length = .ok (pos + bs.length) := by
  have hend := h.add.1
  exact addUsize_of_lt (by omega)

end Positions

/-! ## In step with the file -/

variable {version : Nat} {checks : Bool} {data rest : Bytes} {s : GgufScan}

/-- Both tables size the values of the type alike. -/
def sizedAlike : GgufType → Bool
  | .uint8 | .int8 | .bool | .uint16 | .int16 | .int32 | .float32 | .uint64 => true
  | _ => false

/-- The scan is not led astray by the value: it is sized alike, or an `int64` that is zero,
    which is taken for an empty text. -/
def InStep (p : GgufPair version) : Prop :=
  sizedAlike p.type = true ∨ p.type = .int64 ∧ number p.value.encode = 0

/-- The bytes the scan takes for a value of a type, where that is a constant and not the
    one of the format. -/
def takenFor : GgufType → Option Nat
  | .uint32 | .array => some 8
  | .string => some 4
  | _ => none

/-- A key of the length that is given there does not fit into what is left. -/
def NoKey (bs : Bytes) : Prop := bs.length < 8 + number (bs.take 8)

/-- Looking for that key does not overflow, or is not checked. -/
def Quiet (checks : Bool) (data bs : Bytes) : Prop :=
  checks = true → 8 ≤ bs.length → data.length - bs.length + 8 + number (bs.take 8) < 2 ^ 64

variable (checks) in
theorem advance_before {bs : Bytes} (h : Before data s.pos (bs ++ rest))
    (hdata : data.length < 2 ^ 63) :
    advance checks s bs.length = .ok (true, { s with pos := s.pos + bs.length }) := by
  rw [advance, h.addUsize checks hdata]
  rfl

variable (checks) in
/-- The scan passes a key and comes to its value. -/
theorem scanPair_before (hversion : lengthWidth version = 8) (hdata : data.length < 2 ^ 63)
    {p : GgufPair version} (h : Before data s.pos (p.encode ++ rest)) :
    ∃ pos, Before data pos (p.value.encode ++ rest) ∧
      scanPair checks data s =
        scanValue checks data (keyText p.key) p.type.tag { s with pos } := by
  have hkey := p.hkey
  rw [hversion] at hkey
  rw [GgufPair.encode, hversion, List.append_assoc, List.append_assoc, List.append_assoc] at h
  -- Where the scan stands after the length, after the key and after the tag.
  have hafterLen := h.add
  have hafterKey := hafterLen.add
  have hafterType := hafterKey.add
  have hlen := h.numberAt checks hdata (by rw [length_littleEndian])
  have hpos := h.addUsize checks hdata
  have htag := hafterKey.numberAt checks hdata (by rw [length_littleEndian]; omega)
  have hposType := hafterKey.addUsize checks hdata
  -- The three fields have fixed widths, so the positions are the scan's own numbers.
  rw [length_littleEndian] at hafterLen hafterKey hafterType hlen hpos htag hposType
  rw [length_littleEndian] at hafterType htag hposType
  rw [number_littleEndian hkey] at hlen
  rw [number_littleEndian p.type.tag_lt] at htag
  have hget : get data (s.pos + 8) (s.pos + 8 + p.key.length) = some p.key := by
    rw [get_add hafterLen.1, hafterLen.2, List.take_left, if_pos]
    rw [List.length_append]
    omega
  refine ⟨_, hafterType, ?_⟩
  rw [scanPair, u64Le, hlen]
  dsimp only [Except.bind]
  rw [hpos]
  dsimp only
  rw [hafterLen.addUsize checks hdata]
  dsimp only
  rw [hget]
  dsimp only
  rw [u32Le, htag]
  dsimp only
  rw [hposType]

theorem scanValue_sizedAlike {key : Text} {t : GgufType} (ht : sizedAlike t = true)
    (hdata : data.length < 2 ^ 63) {v : GgufValue version t}
    (h : Before data s.pos (v.encode ++ rest)) :
    scanValue checks data key t.tag s =
      .ok (true, { s with pos := s.pos + v.encode.length }) := by
  cases v with
  | string | array => cases ht
  | scalar t bytes hw =>
      rw [GgufValue.encode] at h ⊢
      have hadvance := advance_before checks h hdata
      have hwidth : ∀ n, some n = some bytes.length →
          advance checks s n = .ok (true, { s with pos := s.pos + bytes.length }) := by
        intro n hn
        rw [Option.some.inj hn, hadvance]
      cases t with
      | string | array | uint32 | int64 | float64 => cases ht
      | int32 =>
          rw [GgufType.tag, scanValue, u32Le, numberAt_eq hdata h.1 (by omega)]
          exact hwidth 4 hw
      | _ =>
          rw [GgufType.tag, scanValue]
          exact hwidth _ hw

/-- An `int64` that is zero is an empty text. -/
theorem scanValue_zero {key : Text} (hdata : data.length < 2 ^ 63) {v : GgufValue version .int64}
    (hzero : number v.encode = 0) (h : Before data s.pos (v.encode ++ rest)) :
    ∃ s', scanValue checks data key 11 s = .ok (true, s') ∧ Before data s'.pos rest ∧
      s'.contextLength = s.contextLength := by
  cases v with
  | scalar t bytes hw =>
      have hlen : bytes.length = 8 := (Option.some.inj hw).symm
      rw [GgufValue.encode] at h hzero
      have hnumber := h.numberAt checks hdata (by omega)
      have hpos := h.addUsize checks hdata
      have hafter := h.add
      have hend := hafter.1
      rw [hlen] at hnumber hpos hafter hend
      rw [scanValue, u64Le, hnumber, hzero]
      dsimp only [Except.bind]
      rw [hpos]
      dsimp only
      rw [addUsize_of_lt (by omega)]
      exact ⟨_, rfl, hafter, rfl⟩

variable (checks) in
/-- **A pair in step.** -/
theorem scanPair_inStep (hversion : lengthWidth version = 8) (hdata : data.length < 2 ^ 63)
    {p : GgufPair version} (hstep : InStep p) (h : Before data s.pos (p.encode ++ rest)) :
    ∃ s', scanPair checks data s = .ok (true, s') ∧ Before data s'.pos rest ∧
      s'.contextLength = s.contextLength := by
  obtain ⟨pos, hvalue, hscan⟩ := scanPair_before checks hversion hdata h
  rw [hscan]
  rcases hstep with halike | ⟨htype, hzero⟩
  · rw [scanValue_sizedAlike halike hdata (s := { s with pos }) hvalue]
    exact ⟨_, rfl, hvalue.add, rfl⟩
  · obtain ⟨key, hkey, type, value⟩ := p
    cases htype
    exact scanValue_zero hdata hzero hvalue

variable (checks) in
/-- **Pairs in step.**  The scan comes to what follows them. -/
theorem scanPairs_inStep (hversion : lengthWidth version = 8) (hdata : data.length < 2 ^ 63)
    {ps : List (GgufPair version)} (hstep : ∀ p ∈ ps, InStep p)
    (h : Before data s.pos (ps.flatMap GgufPair.encode ++ rest)) :
    ∃ s', Before data s'.pos rest ∧ s'.contextLength = s.contextLength ∧
      ∀ n, scanPairs checks data (ps.length + n) s = scanPairs checks data n s' := by
  induction ps generalizing s with
  | nil => exact ⟨s, h, rfl, fun n => by rw [List.length_nil, Nat.zero_add]⟩
  | cons p ps ih =>
      obtain ⟨hp, hps⟩ := List.forall_mem_cons.mp hstep
      rw [List.flatMap_cons, List.append_assoc] at h
      obtain ⟨t, hscan, hbefore, hlength⟩ :=
        scanPair_inStep checks hversion hdata hp h
      obtain ⟨s', hend, hsame, hrest⟩ := ih hps hbefore
      refine ⟨s', hend, hsame.trans hlength, fun n => ?_⟩
      have hcount : (p :: ps).length + n = ps.length + n + 1 := by
        rw [List.length_cons]
        omega
      rw [hcount, scanPairs, hscan]
      exact hrest n

variable (checks) in
/-- Where no key fits, the scan ends, or overflows. -/
theorem scanPairs_noKey (hdata : data.length < 2 ^ 63) {bs : Bytes} (h : Before data s.pos bs)
    (hno : NoKey bs) (n : Nat) :
    (Quiet checks data bs ∧ ∃ t, scanPairs checks data (n + 1) s = .ok t ∧
        t.contextLength = s.contextLength) ∨
      ¬ Quiet checks data bs ∧ scanPairs checks data (n + 1) s = .error .overflow := by
  have hlen := congrArg List.length h.2
  have hpos := h.1
  rw [List.length_drop] at hlen
  rw [scanPairs, scanPair, u64Le, numberAt_eq hdata hpos (Nat.le_refl 8), h.2]
  -- With eight bytes left the scan reads a key length, and `NoKey` says that it leads nowhere.
  by_cases height : 8 ≤ bs.length
  · have hnumber : number (bs.take 8) < 2 ^ 64 := by
      have hlt := number_lt (bs.take 8)
      rw [List.length_take, Nat.min_eq_left height] at hlt
      exact hlt
    have hoff : data.length - bs.length = s.pos := by omega
    rw [NoKey] at hno
    rw [if_pos height]
    dsimp only [Except.bind]
    rw [addUsize_of_lt (by omega), Quiet, hoff]
    dsimp only
    -- Whether the end of that key is still a `usize` decides between the two outcomes.
    by_cases hfits : s.pos + 8 + number (bs.take 8) < 2 ^ 64
    · left
      refine ⟨fun _ _ => hfits, ?_⟩
      have hget : get data (s.pos + 8) (s.pos + 8 + number (bs.take 8)) = none :=
        if_neg (by omega)
      rw [addUsize_of_lt hfits]
      dsimp only
      rw [hget]
      exact ⟨_, rfl, rfl⟩
    -- An overflowing end panics with checked arithmetic and wraps to a hole without it.
    · cases checks with
      | true =>
          right
          refine ⟨fun hquiet => hfits (hquiet rfl height), ?_⟩
          rw [addUsize, if_neg hfits]
          rfl
      | false =>
          left
          refine ⟨fun hchecks => absurd hchecks Bool.false_ne_true, ?_⟩
          have hget : get data (s.pos + 8) ((s.pos + 8 + number (bs.take 8)) % 2 ^ 64) = none :=
            if_neg (by omega)
          rw [addUsize, if_neg hfits, if_neg Bool.false_ne_true]
          dsimp only
          rw [hget]
          exact ⟨_, rfl, rfl⟩
  · left
    rw [if_neg height]
    exact ⟨fun _ hle => absurd hle height, _, rfl, rfl⟩

/-! ## Out of step -/

theorem Before.drop {pos n : Nat} {bs : Bytes} (h : Before data pos bs) (hn : n ≤ bs.length) :
    Before data (pos + n) (bs.drop n) := by
  have hsplit : Before data pos (bs.take n ++ bs.drop n) := by rwa [List.take_append_drop]
  have hnext := hsplit.add
  rwa [List.length_take_of_le hn] at hnext

variable (checks) in
theorem advance_drop {n : Nat} {bs : Bytes} (h : Before data s.pos bs) (hn : n ≤ bs.length)
    (hdata : data.length < 2 ^ 63) :
    advance checks s n = .ok (true, { s with pos := s.pos + n }) := by
  have hend := (h.drop hn).1
  rw [advance, addUsize_of_lt (by omega)]
  rfl

variable (checks) in
/-- Texts and arrays leave the scan inside of them. -/
theorem scanPair_inside (hversion : lengthWidth version = 8) (hdata : data.length < 2 ^ 63)
    {p : GgufPair version} {n : Nat} (hn : takenFor p.type = some n) (htype : p.type ≠ .uint32)
    (h : Before data s.pos (p.encode ++ rest)) :
    ∃ t, scanPair checks data s = .ok (true, t) ∧
      Before data t.pos ((p.value.encode ++ rest).drop n) ∧
      t.contextLength = s.contextLength := by
  obtain ⟨pos, hvalue, hscan⟩ := scanPair_before checks hversion hdata h
  rw [hscan]
  obtain ⟨key, hkey, type, value⟩ := p
  dsimp only at hn htype hvalue ⊢
  cases value with
  | scalar _ bytes hw =>
      cases type with
      -- A scalar other than a `uint32` takes no fixed number of bytes here.
      | uint32 => exact absurd rfl htype
      | string | array => cases hw
      | _ => cases hn
  -- Four bytes are read and passed over for a string.
  | string bytes hlen =>
      obtain rfl : 4 = n := Option.some.inj hn
      have hfour : 4 ≤ ((GgufValue.string bytes hlen).encode ++ rest).length := by
        rw [GgufValue.encode, hversion, List.length_append, List.length_append,
          length_littleEndian]
        omega
      have hadvance := fun s' (hs' : Before data s'.pos _) =>
        advance_drop checks (s := s') hs' hfour hdata
      rw [GgufType.tag, scanValue, u32Le, numberAt_eq hdata hvalue.1 (by omega), hvalue.2,
        if_pos hfour]
      dsimp only [Except.bind]
      rw [hadvance _ hvalue]
      exact ⟨_, rfl, hvalue.drop hfour, rfl⟩
  -- Eight bytes are passed over for an array, its type and part of its count.
  | array t m hm elems =>
      obtain rfl : 8 = n := Option.some.inj hn
      have height : 8 ≤ ((GgufValue.array t m hm elems).encode ++ rest).length := by
        rw [GgufValue.encode, hversion, List.length_append, List.length_append,
          List.length_append, length_littleEndian, length_littleEndian]
        omega
      rw [GgufType.tag, scanValue, advance_drop checks hvalue height hdata]
      exact ⟨_, rfl, hvalue.drop height, rfl⟩

variable (checks) in
/-- A `uint32` is read as eight bytes, if there are as many. -/
theorem scanPair_uint32 (hversion : lengthWidth version = 8) (hdata : data.length < 2 ^ 63)
    {p : GgufPair version} {v : UInt32} (hv : p.value.asUint32 = some v)
    (h : Before data s.pos (p.encode ++ rest)) :
    (rest.length < 4 ∧ ∃ t, scanPair checks data s = .ok (false, t) ∧
        t.contextLength = s.contextLength) ∨
      (4 ≤ rest.length ∧ ∃ t, scanPair checks data s = .ok (true, t) ∧
        Before data t.pos (rest.drop 4) ∧
        t.contextLength =
          if isContextLength (keyText p.key) then
            some (v.toNat + 2 ^ 32 * number (rest.take 4))
          else s.contextLength) := by
  obtain ⟨pos, hvalue, hscan⟩ := scanPair_before checks hversion hdata h
  rw [hscan]
  obtain ⟨key, hkey, type, value⟩ := p
  obtain rfl : type = .uint32 := by
    by_contra hne
    rw [asUint32_of_ne hne] at hv
    cases hv
  obtain ⟨bytes, hbytes, hencode, hnumber⟩ := exists_of_uint32 value
  dsimp only at hv hvalue ⊢
  rw [hencode] at hvalue
  -- The scan reads eight bytes where the value has four: its lower half is the value.
  have hv' : v.toNat = number bytes := by
    have hlt : number bytes < 2 ^ 32 := by
      have hbound := number_lt bytes
      rw [hbytes] at hbound
      exact hbound
    rw [hnumber] at hv
    rw [← Option.some.inj hv, UInt32.toNat_ofNat', Nat.mod_eq_of_lt hlt]
  have hlen : (bytes ++ rest).length = 4 + rest.length := by rw [List.length_append, hbytes]
  rw [GgufType.tag, scanValue, u64Le, numberAt_eq hdata hvalue.1 (Nat.le_refl 8), hvalue.2, hlen]
  -- Four more bytes are there to be read, and they become the upper half.
  by_cases hfour : 4 ≤ rest.length
  · right
    have htake : number ((bytes ++ rest).take 8) = v.toNat + 2 ^ 32 * number (rest.take 4) := by
      rw [List.take_append, hbytes, List.take_of_length_le (by omega), number_append, hbytes, hv']
      rfl
    rw [if_pos (by omega), htake]
    dsimp only [Except.bind]
    have height : 8 ≤ (bytes ++ rest).length := by omega
    have hadvance := fun s' (hs' : Before data s'.pos _) =>
      advance_drop checks (s := s') hs' height hdata
    rw [hadvance _ hvalue]
    have hdrop : (bytes ++ rest).drop 8 = rest.drop 4 := by
      rw [List.drop_append, hbytes, List.drop_of_length_le (by omega), List.nil_append]
    refine ⟨hfour, _, rfl, ?_, ?_⟩
    · rw [← hdrop]
      exact hvalue.drop height
    · rfl
  · left
    rw [if_neg (by omega)]
    exact ⟨Nat.lt_of_not_le hfour, _, rfl, rfl⟩

/-! ## Whole files -/

/-- The CLI reports the length that the daemon reads. -/
def Agrees (checks : Bool) (data : Bytes) : Prop :=
  ∀ v, readContextLength data = some v →
    ∃ found, parseGgufMeta checks data = .ok found ∧ found.contextLength = some v.toNat

/-- What follows a pair in the file, when these are the pairs after it. -/
def following (file : GgufFile) (post : List (GgufPair file.version)) : Bytes :=
  post.flatMap GgufPair.encode ++ file.rest

/-- In step, the scan comes to a `uint32` whose key ends in `.context_length` and which is
    the length of the file; four zero bytes follow it, and then the scan is at its end. -/
def ReadAlike (checks : Bool) (file : GgufFile) : Prop :=
  ∃ pre p post v, file.pairs = pre ++ p :: post ∧ (∀ q ∈ pre, InStep q) ∧
    isContextLength (keyText p.key) = true ∧ p.value.asUint32 = some v ∧
    file.contextLength = some v ∧ (following file post).take 4 = List.replicate 4 0 ∧
    (post = [] ∨ NoKey ((following file post).drop 4) ∧
      Quiet checks file.bytes ((following file post).drop 4))

/-- Once it is out of step, the scan meets no further pair: a text, an array or a `uint32`
    takes it out, and no key fits where it stands then. -/
def EndsOutOfStep (file : GgufFile) : Prop :=
  ∀ pre p post, file.pairs = pre ++ p :: post → (∀ q ∈ pre, InStep q) → ¬ InStep p →
    post = [] ∨ ∃ n, takenFor p.type = some n ∧
      NoKey ((p.value.encode ++ following file post).drop n)

theorem headerNumber_of_before {off : Nat} {bs : Bytes} (h : Before data off (bs ++ rest)) :
    headerNumber data off bs.length = number bs := by
  rw [headerNumber, h.2, List.take_left]

/-- What a parse reports is what the scan of the pairs meets. -/
theorem parseGgufMeta_bytes (checks : Bool) {file : GgufFile} (hversion : 2 ≤ file.version) :
    Before file.bytes 24 (file.pairs.flatMap GgufPair.encode ++ file.rest) ∧
      ∀ c, (∃ found, parseGgufMeta checks file.bytes = .ok found ∧ found.contextLength = c) ↔
        ∃ t, scanPairs checks file.bytes file.pairs.length ⟨24, none, none, none⟩ = .ok t ∧
          t.contextLength = c := by
  have hwidth : lengthWidth file.version = 8 := by
    rw [lengthWidth, if_neg (by omega)]
  have hhigh := file.hversion.2
  have hpairs := file.hpairs
  rw [hwidth] at hpairs
  -- The header's fields are read one after the other, each where the one before ends.
  have hmagic : Before file.bytes 0 file.bytes := ⟨Nat.zero_le _, rfl⟩
  nth_rewrite 2 [GgufFile.bytes] at hmagic
  rw [hwidth] at hmagic
  have hver := hmagic.add
  have htensors := hver.add
  have hcount := htensors.add
  have hbody := hcount.add
  have hmagicNumber := headerNumber_of_before hmagic
  have hverNumber := headerNumber_of_before hver
  have hcountNumber := headerNumber_of_before hcount
  simp only [length_littleEndian, length_magic, Nat.zero_add]
    at hmagicNumber hverNumber hcountNumber hbody
  rw [number_littleEndian (by omega)] at hverNumber
  rw [number_littleEndian hpairs] at hcountNumber
  refine ⟨hbody, fun c => ?_⟩
  have hend := hbody.1
  have hvalue : number magic = 0x46554747 := by decide +kernel
  rw [parseGgufMeta, if_neg (by omega), hmagicNumber, hvalue, if_neg (not_not_intro rfl),
    hverNumber, hcountNumber]
  dsimp only
  -- Past the header the reader is the scan of the pairs.
  rw [if_neg (by omega)]
  cases scanPairs checks file.bytes file.pairs.length ⟨24, none, none, none⟩ with
  | error e =>
      refine iff_of_false ?_ ?_
      · rintro ⟨found, hfound, -⟩
        cases hfound
      · rintro ⟨t, ht, -⟩
        cases ht
  | ok t =>
      constructor
      · rintro ⟨found, hfound, rfl⟩
        obtain rfl := Except.ok.inj hfound
        exact ⟨t, rfl, rfl⟩
      · rintro ⟨t', ht, rfl⟩
        obtain rfl := Except.ok.inj ht
        exact ⟨_, rfl, rfl⟩

instance (p : GgufPair version) : Decidable (InStep p) := by
  rw [InStep]
  infer_instance

/-- All pairs are in step, or there is a first one that is not. -/
theorem inStep_or_exists_first (ps : List (GgufPair version)) :
    (∀ p ∈ ps, InStep p) ∨
      ∃ pre p post, ps = pre ++ p :: post ∧ (∀ q ∈ pre, InStep q) ∧ ¬ InStep p := by
  induction ps with
  | nil => exact .inl fun p hp => absurd hp List.not_mem_nil
  | cons p ps ih =>
      by_cases hp : InStep p
      · rcases ih with hall | ⟨pre, q, post, rfl, hpre, hq⟩
        · exact .inl (List.forall_mem_cons.mpr ⟨hp, hall⟩)
        · exact .inr ⟨p :: pre, q, post, rfl, List.forall_mem_cons.mpr ⟨hp, hpre⟩, hq⟩
      · exact .inr ⟨[], p, ps, rfl, fun q hq => absurd hq List.not_mem_nil, hp⟩

theorem exists_of_contextLengthOf {ps : List (GgufPair version)} {v : UInt32}
    (h : contextLengthOf ps = some v) : ∃ p ∈ ps, p.contextLength = some v := by
  induction ps with
  | nil => cases h
  | cons p ps ih =>
      rw [contextLengthOf] at h
      split at h
      · cases hp : p.contextLength with
        | some w =>
            rw [hp] at h
            exact ⟨p, List.mem_cons_self, hp.trans h⟩
        | none =>
            rw [hp] at h
            dsimp only at h
            split at h
            · obtain ⟨q, hq, hlength⟩ := ih h
              exact ⟨q, List.mem_cons_of_mem p hq, hlength⟩
            · cases h
      · cases h

/-- The pair that gives the length is a `uint32` whose key ends in `.context_length`. -/
theorem of_contextLength {p : GgufPair version} {v : UInt32} (h : p.contextLength = some v) :
    p.value.asUint32 = some v ∧ isContextLength (keyText p.key) = true := by
  rw [GgufPair.contextLength] at h
  split at h
  · next hkey =>
      refine ⟨h, ?_⟩
      rw [keyIs, decide_eq_true_iff] at hkey
      rw [keyText, hkey]
      decide +kernel
  · cases h

theorem InStep.type_ne {p : GgufPair version} (h : InStep p) : p.type ≠ .uint32 := by
  intro htype
  rcases h with halike | ⟨hint, -⟩
  · rw [htype] at halike
    cases halike
  · rw [htype] at hint
    cases hint

theorem InStep.contextLength {p : GgufPair version} (h : InStep p) : p.contextLength = none := by
  cases hlength : p.contextLength with
  | none => rfl
  | some v =>
      have hv := (of_contextLength hlength).1
      rw [asUint32_of_ne h.type_ne] at hv
      cases hv

variable (checks) in
/-- At the first pair out of step the scan has met no length. -/
theorem scanPairs_first {file : GgufFile} (hversion : 2 ≤ file.version)
    (hsize : file.bytes.length < 2 ^ 63) {pre post : List (GgufPair file.version)}
    {p : GgufPair file.version} (hpairs : file.pairs = pre ++ p :: post)
    (hpre : ∀ q ∈ pre, InStep q) :
    ∃ s, Before file.bytes s.pos (p.encode ++ following file post) ∧ s.contextLength = none ∧
      ∀ c, (∃ found, parseGgufMeta checks file.bytes = .ok found ∧ found.contextLength = c) ↔
        ∃ t, scanPairs checks file.bytes (post.length + 1) s = .ok t ∧ t.contextLength = c := by
  have hwidth : lengthWidth file.version = 8 := by
    rw [lengthWidth, if_neg (by omega)]
  obtain ⟨hbefore, hparse⟩ := parseGgufMeta_bytes checks hversion
  rw [hpairs, List.flatMap_append, List.flatMap_cons, List.append_assoc, List.append_assoc]
    at hbefore
  obtain ⟨s, hs, hlength, hscan⟩ :=
    scanPairs_inStep checks (s := ⟨24, none, none, none⟩) hwidth hsize hpre hbefore
  have hcount : file.pairs.length = pre.length + (post.length + 1) := by
    rw [hpairs, List.length_append, List.length_cons]
  rw [hcount, hscan] at hparse
  exact ⟨s, hs, hlength, hparse⟩

/-- What is read as eight bytes is the length only where zeros follow it. -/
theorem eq_of_wide {v w : UInt32} {bs : Bytes} (hbs : 4 ≤ bs.length)
    (h : v.toNat + 2 ^ 32 * number (bs.take 4) = w.toNat) :
    v = w ∧ bs.take 4 = List.replicate 4 0 := by
  have hw : w.toNat < 2 ^ 32 := w.toNat_lt
  have hzero : number (bs.take 4) = 0 := by omega
  rw [number_eq_zero, List.length_take_of_le hbs] at hzero
  refine ⟨UInt32.toNat_inj.mp ?_, hzero⟩
  rw [hzero] at h
  exact h

/-- **Enough.**  A file that is read alike is agreed on. -/
theorem agrees_of_readAlike {file : GgufFile} (hversion : 2 ≤ file.version)
    (hsize : file.bytes.length < 2 ^ 63) (h : ReadAlike checks file) :
    Agrees checks file.bytes := by
  obtain ⟨pre, p, post, v, hpairs, hpre, hkey, hv, hlength, hzeros, hend⟩ := h
  have hwidth : lengthWidth file.version = 8 := by
    rw [lengthWidth, if_neg (by omega)]
  obtain ⟨s, hs, -, hparse⟩ := scanPairs_first checks hversion hsize hpairs hpre
  intro w hw
  rw [readContextLength_bytes, hlength] at hw
  obtain rfl := Option.some.inj hw
  refine (hparse _).mpr ?_
  have hfour : 4 ≤ (following file post).length := by
    have htaken := congrArg List.length hzeros
    rw [List.length_take, List.length_replicate] at htaken
    omega
  rcases scanPair_uint32 checks hwidth hsize hv hs with
    ⟨hshort, -⟩ | ⟨-, t, hscan, hbefore, hread⟩
  · omega
  · rw [if_pos hkey, hzeros] at hread
    rw [scanPairs, hscan]
    rcases hend with rfl | ⟨hno, hquiet⟩
    · exact ⟨t, rfl, hread⟩
    · cases post with
      | nil => exact ⟨t, rfl, hread⟩
      | cons q qs =>
          rcases scanPairs_noKey checks hsize hbefore hno qs.length with
            ⟨-, u, hu, hsame⟩ | ⟨hloud, -⟩
          · exact ⟨u, hu, hsame.trans hread⟩
          · exact absurd hquiet hloud

/-- Where no further key fits, a scan that goes on reports what it had. -/
theorem of_scanPairs_noKey (hdata : data.length < 2 ^ 63) (h : Before data s.pos bs) {n : Nat}
    (hno : n ≠ 0 → NoKey bs) {t : GgufScan} (ht : scanPairs checks data n s = .ok t) :
    t.contextLength = s.contextLength ∧ (n ≠ 0 → Quiet checks data bs) := by
  cases n with
  | zero =>
      obtain rfl := Except.ok.inj ht
      exact ⟨rfl, fun hne => absurd rfl hne⟩
  | succ n =>
      rcases scanPairs_noKey checks hdata h (hno (Nat.succ_ne_zero n)) n with
        ⟨hquiet, u, hu, hsame⟩ | ⟨-, hover⟩
      · obtain rfl : t = u := Except.ok.inj (ht.symm.trans hu)
        exact ⟨hsame, fun _ => hquiet⟩
      · cases ht.symm.trans hover

/-- Eight bytes from the start of a 32-bit value are four of what follows it. -/
theorem drop_uint32 {p : GgufPair version} (htype : p.type = .uint32) (rest : Bytes) :
    (p.value.encode ++ rest).drop 8 = rest.drop 4 := by
  obtain ⟨key, hkey, type, value⟩ := p
  cases htype
  obtain ⟨bytes, hbytes, hencode, -⟩ := exists_of_uint32 value
  dsimp only
  rw [hencode, List.drop_append, hbytes, List.drop_of_length_le (by omega), List.nil_append]

/-- A length that a pair gives is given by the first pair out of step, if that is the last. -/
theorem type_of_last {file : GgufFile} {pre : List (GgufPair file.version)}
    {p : GgufPair file.version} (hpairs : file.pairs = pre ++ [p])
    (hpre : ∀ q ∈ pre, InStep q) {v : UInt32} (hlength : file.contextLength = some v) :
    p.type = .uint32 := by
  by_contra htype
  have hlength' : contextLengthOf file.pairs = some v := hlength
  obtain ⟨q, hq, hqv⟩ := exists_of_contextLengthOf hlength'
  rw [hpairs, List.mem_append, List.mem_singleton] at hq
  rcases hq with hq | rfl
  · rw [(hpre q hq).contextLength] at hqv
    cases hqv
  · have hv := (of_contextLength hqv).1
    rw [asUint32_of_ne htype] at hv
    cases hv

/-- **Needed.**  Where the scan ends once it is out of step, only a file that is read alike
    is agreed on. -/
theorem readAlike_of_agrees {file : GgufFile} (hversion : 2 ≤ file.version)
    (hsize : file.bytes.length < 2 ^ 63) (hends : EndsOutOfStep file)
    (h : Agrees checks file.bytes) {v : UInt32} (hlength : file.contextLength = some v) :
    ReadAlike checks file := by
  have hwidth : lengthWidth file.version = 8 := by
    rw [lengthWidth, if_neg (by omega)]
  have hfound := h v ((readContextLength_bytes file).trans hlength)
  -- Some pair is out of step, or no pair has the length and there is nothing to agree on.
  rcases inStep_or_exists_first file.pairs with hall | ⟨pre, p, post, hpairs, hpre, hp⟩
  · obtain ⟨q, hq, hqv⟩ := exists_of_contextLengthOf hlength
    rw [(hall q hq).contextLength] at hqv
    cases hqv
  obtain ⟨s, hs, hnone, hparse⟩ := scanPairs_first checks hversion hsize hpairs hpre
  obtain ⟨t, ht, htv⟩ := (hparse _).mp hfound
  have hend := hends pre p post hpairs hpre hp
  rw [scanPairs] at ht
  -- The first pair out of step is the length itself or something before it.
  by_cases htype : p.type = .uint32
  · obtain ⟨w, hw⟩ : ∃ w, p.value.asUint32 = some w := by
      obtain ⟨key, hkey, type, value⟩ := p
      cases htype
      obtain ⟨bytes, -, -, hvalue⟩ := exists_of_uint32 value
      exact ⟨_, hvalue⟩
    rcases scanPair_uint32 checks hwidth hsize hw hs with
      ⟨-, u, hscan, hread⟩ | ⟨hfour, u, hscan, hbefore, hread⟩
    · rw [hscan] at ht
      obtain rfl := Except.ok.inj ht
      rw [hread, hnone] at htv
      cases htv
    · rw [hscan] at ht
      -- What the scan has after this pair is what it reports.
      have hno : post.length ≠ 0 → NoKey ((following file post).drop 4) := by
        intro hpost
        obtain ⟨n, hn, hno⟩ := hend.resolve_left (mt List.length_eq_zero_iff.mpr hpost)
        rw [htype] at hn
        obtain rfl : 8 = n := Option.some.inj hn
        rwa [drop_uint32 htype] at hno
      obtain ⟨hsame, hquiet⟩ := of_scanPairs_noKey hsize hbefore hno ht
      rw [← hsame, htv] at hread
      split at hread
      · next hkey =>
          obtain ⟨rfl, hzeros⟩ := eq_of_wide hfour (Option.some.inj hread).symm
          refine ⟨pre, p, post, w, hpairs, hpre, hkey, hw, hlength, hzeros, ?_⟩
          by_cases hpost : post.length = 0
          · exact .inl (List.length_eq_zero_iff.mp hpost)
          · exact .inr ⟨hno hpost, hquiet hpost⟩
      · rw [hnone] at hread
        cases hread
  -- Passing over part of another value, the scan finds no length behind it.
  · exfalso
    rcases hend with rfl | ⟨n, hn, hno⟩
    · exact htype (type_of_last hpairs hpre hlength)
    · obtain ⟨u, hscan, hbefore, hsame⟩ :=
        scanPair_inside checks hwidth hsize hn htype hs
      rw [hscan] at ht
      have hreports := (of_scanPairs_noKey hsize hbefore (fun _ => hno) ht).1
      rw [hreports, hsame, hnone] at htv
      cases htv

/-- **Two readers of a file.**  The CLI agrees with the daemon on a file without a length,
    and on one that is read alike; on no other one, where the scan ends once it is out of
    step. -/
theorem agrees_iff (checks : Bool) (file : GgufFile) (hversion : 2 ≤ file.version)
    (hsize : file.bytes.length < 2 ^ 63) :
    (file.contextLength = none ∨ ReadAlike checks file → Agrees checks file.bytes) ∧
      (EndsOutOfStep file → Agrees checks file.bytes →
        file.contextLength = none ∨ ReadAlike checks file) := by
  constructor
  · rintro (hnone | halike)
    · intro v hv
      rw [readContextLength_bytes, hnone] at hv
      cases hv
    · exact agrees_of_readAlike hversion hsize halike
  · intro hends h
    cases hlength : file.contextLength with
    | none => exact .inl rfl
    | some v => exact .inr (readAlike_of_agrees hversion hsize hends h hlength)

/-! ## A file of one pair -/

/-- `llama.context_length` is 4096. -/
def lengthPair : GgufPair 3 where
  key := Text.encode "llama.context_length".toList
  hkey := by decide +kernel
  type := .uint32
  value := .scalar .uint32 [0x00, 0x10, 0x00, 0x00] rfl

/-- A file with that pair and these bytes after it. -/
def lengthFile (rest : Bytes) : GgufFile where
  version := 3
  hversion := by decide
  tensors := 0
  htensors := by decide
  pairs := [lengthPair]
  hpairs := by decide
  rest

theorem contextLength_lengthFile (rest : Bytes) :
    (lengthFile rest).contextLength = some 4096 := by
  have hpair : lengthPair.contextLength = some 4096 := by decide +kernel
  have hkey : lengthPair.key.length ≤ 4096 := by decide +kernel
  change contextLengthOf [lengthPair] = some 4096
  rw [contextLengthOf, if_pos hkey, hpair]

/-- Followed by four zero bytes, the length is read alike. -/
theorem readAlike_lengthFile (checks : Bool) : ReadAlike checks (lengthFile [0, 0, 0, 0]) := by
  refine ⟨[], lengthPair, [], 4096, rfl, fun q hq => absurd hq List.not_mem_nil, ?_, ?_, ?_, ?_,
    .inl rfl⟩
  · decide +kernel
  · decide
  · exact contextLength_lengthFile _
  · rfl

theorem agrees_iff_lengthFile : Agrees false (lengthFile [0, 0, 0, 0]).bytes :=
  (agrees_iff false (lengthFile [0, 0, 0, 0]) (by decide) (by decide +kernel)).1
    (.inr (readAlike_lengthFile false))

theorem parseGgufMeta_lengthFile (checks : Bool) :
    (parseGgufMeta checks (lengthFile []).bytes).toOption.map GgufMeta.contextLength =
      some none := by
  cases checks <;> decide +kernel

/-- Where nothing follows the pair, the CLI reports no length. -/
theorem not_agrees_lengthFile :
    ¬ ∀ (checks : Bool) (file : GgufFile), 2 ≤ file.version → file.bytes.length < 2 ^ 63 →
      Agrees checks file.bytes := by
  intro h
  have hagrees := h false (lengthFile []) (by decide) (by decide +kernel)
  obtain ⟨found, hfound, hlength⟩ :=
    hagrees 4096 ((readContextLength_bytes _).trans (contextLength_lengthFile []))
  have hnone := parseGgufMeta_lengthFile false
  rw [hfound] at hnone
  change some found.contextLength = some none at hnone
  rw [hlength] at hnone
  cases hnone

end Maranode.Cli
