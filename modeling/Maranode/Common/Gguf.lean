/-
  Maranode.Common.Gguf

  `gguf.rs`: the context length of a GGUF file.

  A GGUF file is a header and a list of keys with values of thirteen types, an array being
  a row of values of one type.  `read_context_length` skips what it does not look for.  On
  every file of the format it finds what scanning the pairs themselves finds
  (`readContextLength_bytes`): a text of more than 4096 bytes stops both.
-/
import Maranode.Lib.Reader
import Mathlib.Data.List.FinRange

namespace Maranode.Common

open Lib Lib.Reader

/-! ## The format -/

/-- The types of values, in the order of their tags. -/
inductive GgufType where
  | uint8 | int8 | uint16 | int16 | uint32 | int32 | float32 | bool
  | string | array | uint64 | int64 | float64
  deriving DecidableEq

namespace GgufType

def tag : GgufType → Nat
  | uint8 => 0
  | int8 => 1
  | uint16 => 2
  | int16 => 3
  | uint32 => 4
  | int32 => 5
  | float32 => 6
  | bool => 7
  | string => 8
  | array => 9
  | uint64 => 10
  | int64 => 11
  | float64 => 12

/-- The bytes of a value, where all values of the type have as many. -/
def width : GgufType → Option Nat
  | uint8 | int8 | bool => some 1
  | uint16 | int16 => some 2
  | uint32 | int32 | float32 => some 4
  | uint64 | int64 | float64 => some 8
  | string | array => none

theorem tag_lt (t : GgufType) : t.tag < 256 ^ 4 := by
  cases t <;> decide

end GgufType

/-- The bytes of a length: four in version 1, eight after it. -/
def lengthWidth (version : Nat) : Nat := if version = 1 then 4 else 8

/-- A value, with lengths that its version can write. -/
inductive GgufValue (version : Nat) : GgufType → Type where
  | scalar (t : GgufType) (bytes : Bytes) (h : t.width = some bytes.length) : GgufValue version t
  | string (bytes : Bytes) (h : bytes.length < 256 ^ lengthWidth version) :
      GgufValue version .string
  | array (t : GgufType) (n : Nat) (h : n < 256 ^ lengthWidth version)
      (elems : Fin n → GgufValue version t) : GgufValue version .array

namespace GgufValue

variable {version : Nat}

def encode : {t : GgufType} → GgufValue version t → Bytes
  | _, scalar _ bytes _ => bytes
  | _, string bytes _ => littleEndian (lengthWidth version) bytes.length ++ bytes
  | _, array t n _ elems =>
      littleEndian 4 t.tag ++ (littleEndian (lengthWidth version) n ++
        (List.finRange n).flatMap fun i => (elems i).encode)

/-- Every text in the value is short enough to be read. -/
def readable : {t : GgufType} → GgufValue version t → Bool
  | _, scalar _ _ _ => true
  | _, string bytes _ => decide (bytes.length ≤ 4096)
  | _, array _ n _ elems => (List.finRange n).all fun i => (elems i).readable

/-- The number a value of type `uint32` is. -/
def asUint32 : {t : GgufType} → GgufValue version t → Option UInt32
  | .uint32, scalar _ bytes _ => some (UInt32.ofNat (number bytes))
  | _, _ => none

end GgufValue

structure GgufPair (version : Nat) where
  key : Bytes
  hkey : key.length < 256 ^ lengthWidth version
  type : GgufType
  value : GgufValue version type

def GgufPair.encode {version : Nat} (p : GgufPair version) : Bytes :=
  littleEndian (lengthWidth version) p.key.length ++
    (p.key ++ (littleEndian 4 p.type.tag ++ p.value.encode))

/-- A file: after the pairs come the tensors. -/
structure GgufFile where
  version : Nat
  hversion : 1 ≤ version ∧ version ≤ 3
  tensors : Nat
  htensors : tensors < 256 ^ lengthWidth version
  pairs : List (GgufPair version)
  hpairs : pairs.length < 256 ^ lengthWidth version
  rest : Bytes

def magic : Bytes := Text.encode "GGUF".toList

theorem length_magic : magic.length = 4 := by decide +kernel

def GgufFile.bytes (file : GgufFile) : Bytes :=
  magic ++ (littleEndian 4 file.version ++ (littleEndian (lengthWidth file.version) file.tensors ++
    (littleEndian (lengthWidth file.version) file.pairs.length ++
      (file.pairs.flatMap GgufPair.encode ++ file.rest))))

/-! ## The reader -/

/-- `n_kv` and the other lengths: `read_u32` in version 1, `read_u64` after it. -/
def readLength (version : Nat) (r : Bytes) : Option (Nat × Bytes) :=
  readNumber (lengthWidth version) r

/-- The bytes of `read_string`, which are read as UTF-8 with replacements. -/
def readString (version : Nat) (r : Bytes) : Option (Bytes × Bytes) :=
  (readLength version r).bind fun (len, r) => if len > 4096 then none else readExact len r

/-- `skip_array`, with what skips a value. -/
def skipArray (version : Nat) (skipValue : Nat → Bytes → Option Bytes) (r : Bytes) :
    Option Bytes :=
  (readNumber 4 r).bind fun (elemType, r) =>
    (readLength version r).bind fun (count, r) => times (skipValue elemType) count r

/-- `skip_value`; the fuel is how deep arrays may be nested.  A seek may end past the end,
    where nothing more can be read. -/
def skipValue (version : Nat) : Nat → Nat → Bytes → Option Bytes
  | fuel, valType, r =>
      match valType with
      | 0 | 7 => some (r.drop 1)
      | 1 => some (r.drop 1)
      | 2 | 3 => some (r.drop 2)
      | 4 | 5 | 6 => some (r.drop 4)
      | 8 => (readString version r).map Prod.snd
      | 9 =>
          match fuel with
          | 0 => none
          | fuel + 1 => skipArray version (skipValue version fuel) r
      | 10 | 11 | 12 => some (r.drop 8)
      | _ => none

/-- The text of the bytes is the key: a text without a replacement character is read from
    its own bytes only. -/
def keyIs (key : Bytes) (name : String) : Bool := decide (Text.decode key = some name.toList)

/-- The loop over the pairs. -/
def readPairs (version : Nat) : Nat → Bytes → Option UInt32
  | 0, _ => none
  | n + 1, r =>
      (readString version r).bind fun (key, r) =>
        (readNumber 4 r).bind fun (valType, r) =>
          if keyIs key "llama.context_length" && valType == 4 then
            (readNumber 4 r).map fun out => UInt32.ofNat out.1
          else (skipValue version r.length valType r).bind (readPairs version n)

/-- `read_context_length`, of a file that can be opened.  An error is no length. -/
def readContextLength (data : Bytes) : Option UInt32 :=
  (readExact 4 data).bind fun (m, r) =>
    if m = magic then
      (readNumber 4 r).bind fun (version, r) =>
        if version = 0 ∨ version > 3 then none
        else
          (readLength version r).bind fun (_, r) =>
            (readLength version r).bind fun (n, r) => readPairs version n r
    else none

/-! ## Skipping what was written -/

variable {version : Nat}

theorem readLength_append {n : Nat} (h : n < 256 ^ lengthWidth version) (rest : Bytes) :
    readLength version (littleEndian (lengthWidth version) n ++ rest) = some (n, rest) :=
  readNumber_append h rest

theorem readString_append {bytes : Bytes} (h : bytes.length < 256 ^ lengthWidth version)
    (rest : Bytes) :
    readString version (littleEndian (lengthWidth version) bytes.length ++ (bytes ++ rest)) =
      if bytes.length ≤ 4096 then some (bytes, rest) else none := by
  rw [readString, readLength_append h, Option.bind_some]
  dsimp only
  by_cases hlen : bytes.length ≤ 4096
  · rw [if_neg (Nat.not_lt.mpr hlen), if_pos hlen, readExact_append rfl]
  · rw [if_pos (Nat.lt_of_not_le hlen), if_neg hlen]

theorem skipValue_scalar {t : GgufType} {bytes : Bytes} (h : t.width = some bytes.length)
    (fuel : Nat) (rest : Bytes) : skipValue version fuel t.tag (bytes ++ rest) = some rest := by
  have hdrop : ∀ n, some n = some bytes.length → some ((bytes ++ rest).drop n) = some rest := by
    intro n hn
    rw [Option.some.inj hn, List.drop_left]
  cases t with
  | string | array => cases h
  | _ =>
      rw [GgufType.tag, skipValue]
      exact hdrop _ h

/-- **Skipping a value.**  A value is skipped to its end, unless it has a text that is too
    long.  Fuel for what is left is enough, as an array is longer than its elements. -/
theorem skipValue_encode {t : GgufType} (v : GgufValue version t) {fuel : Nat} {rest : Bytes}
    (hfuel : (v.encode ++ rest).length ≤ fuel) :
    skipValue version fuel t.tag (v.encode ++ rest) =
      if v.readable then some rest else none := by
  induction v generalizing fuel rest with
  | scalar t bytes h => exact skipValue_scalar h fuel rest
  | string bytes h =>
      rw [GgufType.tag, skipValue, GgufValue.encode, List.append_assoc, readString_append h,
        GgufValue.readable]
      by_cases hlen : bytes.length ≤ 4096
      · rw [if_pos hlen, if_pos (decide_eq_true hlen), Option.map_some]
      · rw [if_neg hlen, if_neg (by rwa [decide_eq_true_iff]), Option.map_none]
  | array t n h elems ih =>
      rw [GgufValue.encode] at hfuel ⊢
      rw [List.append_assoc, List.append_assoc] at hfuel ⊢
      rw [List.length_append, List.length_append, length_littleEndian] at hfuel
      obtain ⟨fuel, rfl⟩ : ∃ k, fuel = k + 1 := ⟨fuel - 1, by omega⟩
      rw [GgufType.tag, skipValue, skipArray, readNumber_append t.tag_lt, Option.bind_some]
      dsimp only
      rw [readLength_append h, Option.bind_some]
      dsimp only
      have hlen : (List.finRange n).length = n := List.length_finRange
      have hrow := @times_flatMap _ _ _ _ fuel (fun i rest' hle => ih i hle) (List.finRange n)
        rest (by omega)
      rw [hlen] at hrow
      exact hrow

/-! ## Finding the length -/

/-- The length that a pair gives. -/
def GgufPair.contextLength (p : GgufPair version) : Option UInt32 :=
  if keyIs p.key "llama.context_length" then p.value.asUint32 else none

/-- The first length that the pairs give, with no text before it that is too long. -/
def contextLengthOf : List (GgufPair version) → Option UInt32
  | [] => none
  | p :: ps =>
      if p.key.length ≤ 4096 then
        match p.contextLength with
        | some v => some v
        | none => if p.value.readable then contextLengthOf ps else none
      else none

def GgufFile.contextLength (file : GgufFile) : Option UInt32 := contextLengthOf file.pairs

theorem GgufType.tag_eq_four {t : GgufType} : t.tag = 4 ↔ t = .uint32 := by
  cases t <;> decide

theorem asUint32_of_ne {t : GgufType} (h : t ≠ .uint32) (v : GgufValue version t) :
    v.asUint32 = none := by
  cases v with
  | scalar t bytes hw =>
      cases t with
      | uint32 => exact absurd rfl h
      | _ => rfl
  | string | array => rfl

/-- A value of type `uint32` is four bytes. -/
theorem exists_of_uint32 (v : GgufValue version .uint32) :
    ∃ bytes, bytes.length = 4 ∧ v.encode = bytes ∧
      v.asUint32 = some (UInt32.ofNat (number bytes)) := by
  cases v with
  | scalar t bytes hw => exact ⟨bytes, (Option.some.inj hw).symm, rfl, rfl⟩

theorem readPairs_flatMap (ps : List (GgufPair version)) (rest : Bytes) :
    readPairs version ps.length (ps.flatMap GgufPair.encode ++ rest) = contextLengthOf ps := by
  induction ps with
  | nil => rfl
  | cons p ps ih =>
      rw [List.length_cons, readPairs, List.flatMap_cons, GgufPair.encode, List.append_assoc,
        List.append_assoc, List.append_assoc, List.append_assoc, readString_append p.hkey,
        contextLengthOf]
      -- A key over the bound ends both readers.
      by_cases hlen : p.key.length ≤ 4096
      · rw [if_pos hlen, if_pos hlen, Option.bind_some]
        dsimp only
        rw [readNumber_append p.type.tag_lt, Option.bind_some]
        dsimp only
        rw [skipValue_encode p.value (Nat.le_refl _), GgufPair.contextLength]
        -- A pair of another name is skipped, one of this name is read if it is a `uint32`.
        cases hkey : keyIs p.key "llama.context_length" with
        | false =>
            rw [Bool.false_and, if_neg Bool.false_ne_true, if_neg Bool.false_ne_true]
            cases p.value.readable with
            | false => rfl
            | true => exact ih
        | true =>
            rw [if_pos rfl, Bool.true_and]
            by_cases htype : p.type = .uint32
            · obtain ⟨key, hkey, type, value⟩ := p
              cases htype
              obtain ⟨bytes, hbytes, hencode, hvalue⟩ := exists_of_uint32 value
              dsimp only
              rw [hencode, hvalue, readNumber, readExact_append hbytes]
              rfl
            -- The name with another type is skipped like any other pair.
            · rw [if_neg (by rwa [beq_iff_eq, GgufType.tag_eq_four]), asUint32_of_ne htype]
              cases p.value.readable with
              | false => rfl
              | true => exact ih
      · rw [if_neg hlen, if_neg hlen]
        rfl

/-- **Reading a file.**  The length read is the one the pairs give. -/
theorem readContextLength_bytes (file : GgufFile) :
    readContextLength file.bytes = file.contextLength := by
  obtain ⟨hlow, hhigh⟩ := file.hversion
  have hversion : file.version < 256 ^ 4 := by omega
  rw [readContextLength, GgufFile.bytes, readExact_append length_magic, Option.bind_some]
  dsimp only
  rw [if_pos rfl, readNumber_append hversion, Option.bind_some]
  dsimp only
  rw [if_neg (by omega), readLength_append file.htensors, Option.bind_some]
  dsimp only
  rw [readLength_append file.hpairs, Option.bind_some]
  exact readPairs_flatMap file.pairs file.rest

/-! ## Where the length is found -/

def contextLengthKey : Bytes := Text.encode "llama.context_length".toList

theorem length_contextLengthKey : contextLengthKey.length = 20 := by decide +kernel

theorem keyIs_iff {key : Bytes} {name : String} :
    keyIs key name = true ↔ key = Text.encode name.toList := by
  rw [keyIs, decide_eq_true_iff]
  constructor
  · intro h
    exact (Text.encode_eq_of_decode h).symm
  · rintro rfl
    exact Text.decode_encode _

/-- No text of the pair is too long. -/
def GgufPair.skippable (p : GgufPair version) : Bool :=
  decide (p.key.length ≤ 4096) && p.value.readable

theorem contextLength_of_ne {p : GgufPair version} (h : p.key ≠ contextLengthKey) :
    p.contextLength = none := by
  rw [GgufPair.contextLength, if_neg fun hkey => h (keyIs_iff.mp hkey)]

theorem contextLength_of_key {p : GgufPair version} (h : p.key = contextLengthKey) :
    p.contextLength = p.value.asUint32 := by
  rw [GgufPair.contextLength, if_pos (keyIs_iff.mpr h)]

/-- Pairs that give no length are passed, when there is nothing too long in them. -/
theorem contextLengthOf_append {before : List (GgufPair version)}
    (h : ∀ p ∈ before, p.contextLength = none) (ps : List (GgufPair version)) :
    contextLengthOf (before ++ ps) =
      if before.all GgufPair.skippable then contextLengthOf ps else none := by
  induction before with
  | nil => rfl
  | cons p before ih =>
      obtain ⟨hp, hbefore⟩ := List.forall_mem_cons.mp h
      rw [List.cons_append, contextLengthOf, hp, ih hbefore, List.all_cons, GgufPair.skippable]
      dsimp only
      by_cases hlen : p.key.length ≤ 4096
      · rw [if_pos hlen, decide_eq_true hlen, Bool.true_and]
        cases p.value.readable <;> simp
      · rw [if_neg hlen, decide_eq_false hlen, Bool.false_and, Bool.false_and,
          if_neg Bool.false_ne_true]

/-- **The length of a file.**  Of a file whose keys are all different, the length is found
    exactly when no pair before it has a key or a text of more than 4096 bytes; and none is
    found where there is none. -/
theorem readContextLength_iff (file : GgufFile) (hkeys : (file.pairs.map (·.key)).Nodup) :
    (∀ before p after v, file.pairs = before ++ p :: after → p.key = contextLengthKey →
      p.value.asUint32 = some v →
      (readContextLength file.bytes = some v ↔
        ∀ p' ∈ before, p'.key.length ≤ 4096 ∧ p'.value.readable = true)) ∧
    ((∀ p ∈ file.pairs, p.key ≠ contextLengthKey) → readContextLength file.bytes = none) := by
  rw [readContextLength_bytes, GgufFile.contextLength]
  constructor
  · intro before p after v hpairs hkey hvalue
    rw [hpairs, List.map_append, List.map_cons] at hkeys
    -- The keys are distinct, so no pair before this one has the name.
    have hbefore : ∀ p' ∈ before, p'.contextLength = none := by
      intro p' hp'
      apply contextLength_of_ne
      intro heq
      refine (List.nodup_append.mp hkeys).2.2 p'.key (List.mem_map_of_mem hp') p.key
        (List.mem_cons_self ..) ?_
      rw [heq, hkey]
    have hlen : p.key.length ≤ 4096 := by
      rw [hkey, length_contextLengthKey]
      omega
    have hfound : contextLengthOf (p :: after) = some v := by
      rw [contextLengthOf, if_pos hlen, contextLength_of_key hkey, hvalue]
    -- Skipping the pairs before succeeds exactly when each of them can be read.
    have hskip : before.all GgufPair.skippable = true ↔
        ∀ p' ∈ before, p'.key.length ≤ 4096 ∧ p'.value.readable = true := by
      simp only [List.all_eq_true, GgufPair.skippable, Bool.and_eq_true, decide_eq_true_iff]
    rw [hpairs, contextLengthOf_append hbefore, hfound, ← hskip]
    cases before.all GgufPair.skippable <;> simp
  · intro hnone
    have hall : ∀ p ∈ file.pairs, p.contextLength = none :=
      fun p hp => contextLength_of_ne (hnone p hp)
    have hend := contextLengthOf_append hall []
    rw [List.append_nil] at hend
    rw [hend, contextLengthOf]
    exact ite_self _

/-! ## A model with a chat template -/

theorem width_contextLength : GgufType.uint32.width = some ([0, 16, 0, 0] : Bytes).length := rfl

def contextLengthPair : GgufPair 3 where
  key := contextLengthKey
  hkey := by
    rw [length_contextLengthKey]
    decide
  type := .uint32
  value := .scalar .uint32 [0, 16, 0, 0] width_contextLength

/-- A template of as many characters. -/
def templatePair (n : Nat) (h : n < 256 ^ lengthWidth 3) : GgufPair 3 where
  key := Text.encode "tokenizer.chat_template".toList
  hkey := by decide +kernel
  type := .string
  value := .string (List.replicate n 120) (by rwa [List.length_replicate])

theorem version_three : 1 ≤ 3 ∧ 3 ≤ 3 := by omega

theorem no_tensors : 0 < 256 ^ lengthWidth 3 := by decide

/-- The template stands before the length. -/
def templateFile (n : Nat) (h : n < 256 ^ lengthWidth 3) : GgufFile where
  version := 3
  hversion := version_three
  tensors := 0
  htensors := no_tensors
  pairs := [templatePair n h, contextLengthPair]
  hpairs := by
    show 2 < 256 ^ lengthWidth 3
    decide
  rest := []

theorem nodup_templateFile (n : Nat) (h : n < 256 ^ lengthWidth 3) :
    ((templateFile n h).pairs.map (·.key)).Nodup := by
  show [Text.encode "tokenizer.chat_template".toList, contextLengthKey].Nodup
  decide +kernel

theorem readContextLength_template :
    readContextLength (templateFile 4096 (by decide)).bytes = some 4096 := by
  refine ((readContextLength_iff _ (nodup_templateFile _ _)).1 [templatePair 4096 (by decide)]
    contextLengthPair [] 4096 rfl rfl rfl).mpr fun p' hp' => ?_
  obtain rfl := List.mem_singleton.mp hp'
  refine ⟨by decide +kernel, ?_⟩
  show decide ((List.replicate 4096 (120 : UInt8)).length ≤ 4096) = true
  rw [List.length_replicate]
  rfl

/-- One character more, and the length is not found. -/
theorem not_readContextLength :
    ¬ ∀ file : GgufFile, (file.pairs.map (·.key)).Nodup → ∀ p ∈ file.pairs, ∀ v,
      p.key = contextLengthKey → p.value.asUint32 = some v →
        readContextLength file.bytes = some v := by
  intro h
  have hfound := h (templateFile 4097 (by decide)) (nodup_templateFile _ _) contextLengthPair
    (List.mem_cons_of_mem _ (List.mem_cons_self ..)) 4096 rfl rfl
  rw [readContextLength_bytes, GgufFile.contextLength] at hfound
  have hbefore : ∀ p ∈ [templatePair 4097 (by decide)], p.contextLength = none := by
    intro p hp
    obtain rfl := List.mem_singleton.mp hp
    exact contextLength_of_ne (by decide +kernel)
  have hlong : (templatePair 4097 (by decide)).skippable = false := by
    rw [GgufPair.skippable]
    show (_ && decide ((List.replicate 4097 (120 : UInt8)).length ≤ 4096)) = false
    rw [List.length_replicate, Bool.and_comm]
    rfl
  have hnone : contextLengthOf (templateFile 4097 (by decide)).pairs = none := by
    show contextLengthOf ([templatePair 4097 (by decide)] ++ [contextLengthPair]) = none
    rw [contextLengthOf_append hbefore, List.all_cons, hlong]
    rfl
  rw [hnone] at hfound
  cases hfound

end Maranode.Common
