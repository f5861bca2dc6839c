/-
  Maranode.Attestation.Tpm

  `tpm.rs`: the platform configuration registers, read eight at a time.

  A response says in a bit mask which registers it has, and carries their digests in order.
  `parse_pcr_read_response` skips the mask and numbers the digests from the first register
  of the batch on: right as long as the registers that came back are the first ones.
-/
import Maranode.Common.Ed25519
import Maranode.Lib.Checked
import Maranode.Lib.Reader
import Mathlib.Data.List.Perm.Subperm

namespace Maranode.Attestation

open Lib Lib.Checked Lib.Reader

/-! ## Commands -/

/-- `to_be_bytes` and `from_be_bytes`. -/
def bigEndian (w n : Nat) : Bytes := (littleEndian w n).reverse

def bigNumber (bs : Bytes) : Nat := number bs.reverse

/-- `batch_start`, for the three batches. -/
def batchStart (k : Fin 3) : UInt8 := UInt8.ofNat (8 * k)

def pcrSelectMask (start stop : Nat) : Bytes :=
  (List.range' start (min stop 24 - start)).foldl
    (fun mask i =>
      if i / 8 < 3 then mask.modify (i / 8) (· ||| 1 <<< UInt8.ofNat (i % 8)) else mask)
    [0, 0, 0]

def buildPcrReadCmd (pcrSelect : Bytes) : Bytes :=
  bigEndian 2 0x8001 ++ bigEndian 4 20 ++ bigEndian 4 0x17E ++ bigEndian 4 1 ++
    bigEndian 2 0x000B ++ [3] ++ pcrSelect

/-! ## Responses -/

/-- `BTreeMap<u8, String>`. -/
abbrev PcrMap := UInt8 → Option Text

def PcrMap.insert (m : PcrMap) (i : UInt8) (hex : Text) : PcrMap := Function.update m i (some hex)

/-- A number with eight hex digits. -/
def hexText (n : Nat) : String :=
  let digits := (Nat.toDigits 16 n).map Char.toUpper
  String.ofList (List.replicate (8 - digits.length) '0' ++ digits)

variable (checks : Bool) (resp : Bytes) (start : UInt8)

/-- The loop over the entries of `pcrSelectionOut`. -/
def skipSelections : Nat → Nat → Except Stop Nat
  | 0, pos => .ok pos
  | n + 1, pos => do
      let stop ← addUsize checks pos 6
      if stop > resp.length then .error (.bail "truncated pcrSelectionOut")
      else do
        let sizeofSelect ← index resp (← addUsize checks pos 2)
        skipSelections n (← addUsize checks pos (2 + 1 + sizeofSelect.toNat))

/-- The loop over the digests, from the one at place `i` on. -/
def readDigests : Nat → Nat → Nat → PcrMap → Except Stop PcrMap
  | 0, _, _, result => .ok result
  | n + 1, i, pos, result => do
      let head ← addUsize checks pos 2
      if head > resp.length then .error (.bail "truncated at digest size")
      else do
        let digestSize := bigNumber (← slice resp pos head)
        let stop ← addUsize checks head digestSize
        if stop > resp.length then .error (.bail "truncated digest data")
        else if digestSize = 32 then do
          let pcrIndex ← add checks 256 start.toNat (i % 256)
          let digest ← slice resp head (head + 32)
          readDigests n (i + 1) stop (result.insert (UInt8.ofNat pcrIndex) (Hex.encode digest))
        else readDigests n (i + 1) stop result

def parsePcrReadResponse : Except Stop PcrMap :=
  if resp.length < 10 then .error (.bail s!"response too short ({resp.length} bytes)")
  else do
    let rc := bigNumber (← slice resp 6 10)
    if rc ≠ 0 then .error (.bail s!"TPM2_PCR_Read returned error code 0x{hexText rc}")
    else if resp.length < 18 then .error (.bail "response truncated before pcrSelectionOut")
    else do
      let selCount := bigNumber (← slice resp 14 18)
      if selCount = 0 then .ok fun _ => none
      else do
        let pos ← skipSelections checks resp selCount 18
        let stop ← addUsize checks pos 4
        if stop > resp.length then .error (.bail "truncated at digests.count")
        else do
          let digestCount := bigNumber (← slice resp pos stop)
          readDigests checks resp start digestCount 0 stop fun _ => none

/-! ## The layout of a response -/

/-- What follows the entries of `pcrSelectionOut`. -/
def afterSelections : Nat → Bytes → Option Bytes
  | 0, bs => some bs
  | n + 1, bs =>
      if bs.length < 6 then none else afterSelections n (bs.drop (3 + (bs.getD 2 0).toNat))

/-- The digests, each after its size, as far as they are whole. -/
def wholeDigests : Nat → Bytes → List Bytes
  | 0, _ => []
  | n + 1, bs =>
      let size := bigNumber (bs.take 2)
      if bs.length < 2 + size then []
      else (bs.drop 2).take size :: wholeDigests n (bs.drop (2 + size))

/-- The count of digests of a response that reports success, and what follows it. -/
def digestPart (resp : Bytes) : Option (Nat × Bytes) :=
  if bigNumber ((resp.drop 6).take 4) ≠ 0 ∨ bigNumber ((resp.drop 14).take 4) = 0 then none
  else
    (afterSelections (bigNumber ((resp.drop 14).take 4)) (resp.drop 18)).bind fun bs =>
      if bs.length < 4 then none else some (bigNumber (bs.take 4), bs.drop 4)

/-- The digests of a response. -/
def responseDigests (resp : Bytes) : List Bytes :=
  match digestPart resp with
  | none => []
  | some (count, bs) => wholeDigests count bs

/-- The numbers that digests get, from place `i` on. -/
def numberDigests : Nat → List Bytes → PcrMap → Except Stop PcrMap
  | _, [], result => .ok result
  | i, d :: ds, result =>
      if d.length = 32 then
        (add checks 256 start.toNat (i % 256)).bind fun pcrIndex =>
          numberDigests (i + 1) ds (result.insert (UInt8.ofNat pcrIndex) (Hex.encode d))
      else numberDigests (i + 1) ds result

section Layout

variable {checks resp start} {pos : Nat}

variable (checks) in
/-- Skipping the entries ends where the layout says, or before the end of one. -/
theorem skipSelections_eq (hsize : resp.length ≤ isizeMax) (n : Nat)
    (hpos : pos ≤ resp.length + 258) :
    (afterSelections n (resp.drop pos) = none ∧
        skipSelections checks resp n pos = .error (.bail "truncated pcrSelectionOut")) ∨
      ∃ stop, afterSelections n (resp.drop pos) = some (resp.drop stop) ∧
        skipSelections checks resp n pos = .ok stop ∧ stop ≤ resp.length + 258 := by
  have hmax : isizeMax < 2 ^ 63 := by decide
  induction n generalizing pos with
  | zero => exact .inr ⟨pos, rfl, rfl, hpos⟩
  | succ n ih =>
      rw [skipSelections, addUsize_of_lt (by omega), ok_bind, afterSelections, List.length_drop]
      by_cases hfits : resp.length < pos + 6
      · exact .inl ⟨if_pos (by omega), if_pos hfits⟩
      · have hget : (resp.drop pos).getD 2 0 = resp[pos + 2] := by
          rw [List.getD_eq_getElem?_getD, List.getElem?_drop, List.getElem?_eq_getElem (by omega)]
          rfl
        have hbyte := (resp[pos + 2]).toNat_lt
        have hlt : 2 + 1 + (resp[pos + 2]).toNat = 3 + (resp[pos + 2]).toNat := rfl
        rw [if_neg hfits, if_neg (by omega), hget, List.drop_drop, addUsize_of_lt (by omega),
          ok_bind, index_of_lt (by omega), ok_bind, addUsize_of_lt (by omega), ok_bind, hlt]
        exact ih (by omega)

variable (checks start) in
/-- Reading the digests numbers those that are whole, and bails out where one is missing. -/
theorem readDigests_eq (hsize : resp.length ≤ isizeMax) (n i : Nat) (hpos : pos ≤ resp.length)
    (result : PcrMap) :
    ∃ message, readDigests checks resp start n i pos result =
      (numberDigests checks start i (wholeDigests n (resp.drop pos)) result).bind fun m =>
        if (wholeDigests n (resp.drop pos)).length = n then .ok m else .error (.bail message) := by
  have hmax : isizeMax < 2 ^ 63 := by decide
  -- On the digests that are still to be read.
  induction n generalizing i pos result with
  | zero => exact ⟨"", rfl⟩
  | succ n ih =>
      rw [readDigests, addUsize_of_lt (by omega), ok_bind, wholeDigests, List.length_drop]
      by_cases hhead : resp.length < pos + 2
      · refine ⟨"truncated at digest size", ?_⟩
        rw [if_pos hhead, if_pos (by omega)]
        rfl
      · rw [if_neg hhead, slice_add (by omega), ok_bind]
        have hlt : bigNumber ((resp.drop pos).take 2) < 256 ^ 2 := by
          -- Two bytes are a size below 65536, so the position does not overflow.
          have htake : ((resp.drop pos).take 2).length = 2 :=
            List.length_take_of_le (by rw [List.length_drop]; omega)
          have hbound := number_lt ((resp.drop pos).take 2).reverse
          rwa [List.length_reverse, htake] at hbound
        generalize bigNumber ((resp.drop pos).take 2) = size at hlt
        dsimp only
        rw [addUsize_of_lt (by omega), ok_bind]
        -- The digest is there as a whole, or it and all behind it are missing.
        by_cases hstop : resp.length < pos + 2 + size
        · refine ⟨"truncated digest data", ?_⟩
          rw [if_pos hstop, if_pos (by omega)]
          rfl
        · have hlen : ((resp.drop (pos + 2)).take size).length = size :=
            List.length_take_of_le (by rw [List.length_drop]; omega)
          have hwhole : ¬ resp.length - pos < 2 + size := by omega
          rw [if_neg hstop, if_neg hwhole, List.drop_drop, List.drop_drop, numberDigests, hlen,
            List.length_cons, ← Nat.add_assoc]
          simp only [Nat.add_right_cancel_iff]
          have hnext : pos + 2 + size ≤ resp.length := by omega
          have hrest := fun result => ih (i + 1) hnext result
          -- Only a digest of 32 bytes is a register; the others are passed over.
          by_cases h32 : size = 32
          · subst h32
            rw [if_pos rfl, if_pos rfl]
            cases add checks 256 start.toNat (i % 256) with
            | error e => exact ⟨"", rfl⟩
            | ok pcrIndex =>
                rw [ok_bind, slice_add (by omega), ok_bind]
                exact hrest _
          · rw [if_neg h32, if_neg h32]
            exact hrest result

/-- Numbering overflows at a digest of a register whose number does not fit. -/
theorem numberDigests_eq_error_iff {i : Nat} {ds : List Bytes} {result : PcrMap} {e : Stop} :
    numberDigests true start i ds result = .error e ↔
      e = .overflow ∧ ∃ j d, ds[j]? = some d ∧ d.length = 32 ∧
        256 ≤ start.toNat + (i + j) % 256 := by
  induction ds generalizing i result with
  | nil =>
      refine iff_of_false nofun ?_
      rintro ⟨-, j, d, hd, -⟩
      cases hd
  | cons d ds ih =>
      have hsplit : (∃ j d', (d :: ds)[j]? = some d' ∧ d'.length = 32 ∧
            256 ≤ start.toNat + (i + j) % 256) ↔
          (d.length = 32 ∧ 256 ≤ start.toNat + i % 256) ∨
            ∃ j d', ds[j]? = some d' ∧ d'.length = 32 ∧
              256 ≤ start.toNat + (i + 1 + j) % 256 := by
        -- The first digest, or one of the rest counted from the next place.
        constructor
        · rintro ⟨j, d', hd', hlen, hbig⟩
          cases j with
          | zero =>
              obtain rfl := Option.some.inj hd'
              exact .inl ⟨hlen, hbig⟩
          | succ j =>
              have hplace : i + (j + 1) = i + 1 + j := by omega
              exact .inr ⟨j, d', hd', hlen, hplace ▸ hbig⟩
        · rintro (⟨hlen, hbig⟩ | ⟨j, d', hd', hlen, hbig⟩)
          · exact ⟨0, d, rfl, hlen, hbig⟩
          · have hplace : i + 1 + j = i + (j + 1) := by omega
            exact ⟨j + 1, d', hd', hlen, hplace ▸ hbig⟩
      rw [hsplit, numberDigests]
      by_cases hlen : d.length = 32
      · rw [if_pos hlen]
        -- The register number is a u8, and the build checks the sum.
        by_cases hbig : 256 ≤ start.toNat + i % 256
        · rw [add_of_le hbig]
          refine ⟨fun h => ⟨(Except.error.inj h).symm, .inl ⟨hlen, hbig⟩⟩, fun h => ?_⟩
          rw [h.1]
          rfl
        · rw [add_of_lt (by omega)]
          show numberDigests true start (i + 1) ds _ = .error e ↔ _
          rw [ih]
          exact and_congr_right fun _ => (or_iff_right fun h => hbig h.2).symm
      · rw [if_neg hlen, ih]
        exact and_congr_right fun _ => (or_iff_right fun h => hlen h.1).symm

theorem digestPart_of_short (h : resp.length < 18) : digestPart resp = none := by
  rw [digestPart]
  split
  · rfl
  · next hparts =>
      rw [List.drop_of_length_le (i := 18) (by omega)]
      generalize bigNumber ((resp.drop 14).take 4) = n at hparts
      cases n with
      | zero => exact absurd (Or.inr rfl) hparts
      | succ n => rfl

variable (checks start) in
/-- **A whole response.**  Its digests are numbered one after the other, if it has any. -/
theorem parsePcrReadResponse_eq (hsize : resp.length ≤ isizeMax) :
    (digestPart resp = none ∧
      (parsePcrReadResponse checks resp start = .ok (fun _ => none) ∨
        ∃ message, parsePcrReadResponse checks resp start = .error (.bail message))) ∨
    ∃ count bs message, digestPart resp = some (count, bs) ∧
      parsePcrReadResponse checks resp start =
        (numberDigests checks start 0 (wholeDigests count bs) fun _ => none).bind fun m =>
          if (wholeDigests count bs).length = count then .ok m else .error (.bail message) := by
  have hmax : isizeMax < 2 ^ 63 := by decide
  rw [parsePcrReadResponse]
  by_cases hten : resp.length < 10
  · rw [if_pos hten]
    exact .inl ⟨digestPart_of_short (by omega), .inr ⟨_, rfl⟩⟩
  -- The checks of the parser, in its order: code, length, selections, count.
  rw [if_neg hten, slice_add (n := 4) (by omega), ok_bind, digestPart]
  dsimp only
  by_cases hrc : bigNumber ((resp.drop 6).take 4) ≠ 0
  · rw [if_pos hrc, if_pos (.inl hrc)]
    exact .inl ⟨rfl, .inr ⟨_, rfl⟩⟩
  rw [if_neg hrc]
  by_cases hshort : resp.length < 18
  · rw [if_pos hshort]
    exact .inl ⟨digestPart_of_short hshort, .inr ⟨_, rfl⟩⟩
  rw [if_neg hshort, slice_add (n := 4) (by omega), ok_bind]
  generalize bigNumber ((resp.drop 14).take 4) = selCount
  by_cases hsel : selCount = 0
  · rw [if_pos hsel, if_pos (.inr hsel)]
    exact .inl ⟨rfl, .inl rfl⟩
  rw [if_neg hsel, if_neg (not_or.mpr ⟨hrc, hsel⟩)]
  -- A selection that is cut ends the parse.
  rcases skipSelections_eq checks hsize selCount (show 18 ≤ resp.length + 258 by omega) with
    ⟨hnone, hskip⟩ | ⟨pos, hsome, hskip, hpos⟩
  · rw [hskip, hnone]
    exact .inl ⟨rfl, .inr ⟨_, rfl⟩⟩
  rw [hskip, hsome, ok_bind, addUsize_of_lt (by omega), ok_bind, Option.bind_some,
    List.length_drop]
  by_cases hfour : resp.length < pos + 4
  · rw [if_pos hfour, if_pos (by omega)]
    exact .inl ⟨rfl, .inr ⟨_, rfl⟩⟩
  rw [if_neg hfour, if_neg (by omega), slice_add (by omega), ok_bind, List.drop_drop]
  obtain ⟨message, hread⟩ := readDigests_eq checks start hsize
    (bigNumber ((resp.drop pos).take 4)) 0 (show pos + 4 ≤ resp.length by omega) fun _ => none
  exact .inr ⟨_, _, message, rfl, hread⟩

/-- Every digest of a register is given a number that fits a `u8`. -/
def NumbersFit (start : UInt8) (resp : Bytes) : Prop :=
  ∀ i d, (responseDigests resp)[i]? = some d → d.length = 32 → start.toNat + i % 256 < 256

/-- No index is out of range, and a sum overflows only where a number does not fit. -/
theorem panics_parsePcrReadResponse_iff (hsize : resp.length ≤ isizeMax) :
    Panics (parsePcrReadResponse true resp start) ↔ ¬ NumbersFit start resp := by
  have hfit : ¬ NumbersFit start resp ↔ ∃ j d, (responseDigests resp)[j]? = some d ∧
      d.length = 32 ∧ 256 ≤ start.toNat + (0 + j) % 256 := by
    rw [NumbersFit]
    push Not
    simp only [Nat.zero_add]
  rw [hfit, responseDigests]
  rcases parsePcrReadResponse_eq true start hsize with
    ⟨hnone, hout⟩ | ⟨count, bs, message, hsome, hout⟩
  · rw [hnone]
    refine iff_of_false ?_ ?_
    · rcases hout with hout | ⟨message, hout⟩ <;> rw [hout, Panics] <;> simp
    · rintro ⟨j, d, hd, -⟩
      cases hd
  · rw [hsome, hout, Panics]
    dsimp only
    cases hnumber : numberDigests true start 0 (wholeDigests count bs) fun _ => none with
    | error e =>
        obtain ⟨rfl, hbig⟩ := numberDigests_eq_error_iff.mp hnumber
        exact iff_of_true (.inl rfl) hbig
    | ok m =>
        refine iff_of_false ?_ fun hbig => ?_
        · show ¬ ((if _ then _ else _) = _ ∨ (if _ then _ else _) = _)
          split <;> simp
        · have herror : numberDigests true start 0 (wholeDigests count bs) (fun _ => none) =
              .error .overflow := numberDigests_eq_error_iff.mpr ⟨rfl, hbig⟩
          rw [hnumber] at herror
          cases herror

end Layout

/-- `all_pcrs.extend(batch)`. -/
def PcrMap.extend (m batch : PcrMap) : PcrMap := fun i => (batch i).or (m i)

/-- The command for a batch. -/
def batchCmd (k : Fin 3) : Bytes :=
  buildPcrReadCmd (pcrSelectMask (batchStart k).toNat ((batchStart k).toNat + 8))

/-- `try_read_pcrs_linux`: `device` is what the TPM answers to a command. -/
def tryReadPcrs (device : Bytes → Except Stop Bytes) : Except Stop PcrMap :=
  (List.finRange 3).foldlM
    (fun all k => do
      let resp ← device (batchCmd k)
      let batch ← parsePcrReadResponse checks resp (batchStart k)
      .ok (all.extend batch))
    fun _ => none

/-! ## Responses of a TPM -/

/-- The registers of a mask, in ascending order. -/
def selectedBy (mask : Bytes) : List Nat :=
  (List.range (8 * mask.length)).filter fun i => (mask.getD (i / 8) 0).toNat.testBit (i % 8)

/-- A response to the command for a batch: of the registers that were asked for, some are
    selected, and each of these has a digest. -/
structure PcrReadResponse (k : Fin 3) where
  updateCounter : ByteArr 4
  mask : ByteArr 3
  asked : ∀ i ∈ selectedBy mask.1,
    i ∈ selectedBy (pcrSelectMask (batchStart k).toNat ((batchStart k).toNat + 8))
  digests : List (ByteArr 32)
  hdigests : digests.length = (selectedBy mask.1).length

namespace PcrReadResponse

variable {k : Fin 3} (r : PcrReadResponse k)

def selected : List Nat := selectedBy r.mask.1

def bytes : Bytes :=
  bigEndian 2 0x8001 ++ (bigEndian 4 (28 + 34 * r.digests.length) ++ (bigEndian 4 0 ++
    (r.updateCounter.1 ++ (bigEndian 4 1 ++ (bigEndian 2 0x000B ++ [3] ++ r.mask.1 ++
      (bigEndian 4 r.digests.length ++ r.digests.flatMap fun d => bigEndian 2 32 ++ d.1))))))

end PcrReadResponse

theorem selectedBy_pcrSelectMask (k : Fin 3) :
    selectedBy (pcrSelectMask (batchStart k).toNat ((batchStart k).toNat + 8)) =
      List.range' (8 * k) 8 := by
  revert k
  decide +kernel

theorem length_bigEndian (w n : Nat) : (bigEndian w n).length = w := by
  rw [bigEndian, List.length_reverse, length_littleEndian]

theorem bigNumber_bigEndian {w n : Nat} (h : n < 256 ^ w) : bigNumber (bigEndian w n) = n := by
  rw [bigNumber, bigEndian, List.reverse_reverse, number_littleEndian h]

theorem wholeDigests_flatMap (ds : List (ByteArr 32)) (rest : Bytes) :
    wholeDigests ds.length ((ds.flatMap fun d => bigEndian 2 32 ++ d.1) ++ rest) =
      ds.map Subtype.val := by
  induction ds with
  | nil => rfl
  | cons d ds ih =>
      have hhead : ((bigEndian 2 32 ++ d.1) ++ (ds.flatMap fun d => bigEndian 2 32 ++ d.1) ++
          rest).length = 34 + ((ds.flatMap fun d => bigEndian 2 32 ++ d.1) ++ rest).length := by
        simp only [List.length_append, length_bigEndian, d.2]
        omega
      have hsize : bigNumber (bigEndian 2 32) = 32 := bigNumber_bigEndian (by decide)
      rw [List.length_cons, List.flatMap_cons, wholeDigests, List.append_assoc, List.append_assoc,
        List.take_left' (length_bigEndian 2 32), hsize]
      rw [List.append_assoc, List.append_assoc] at hhead
      rw [if_neg (by omega), List.drop_left' (length_bigEndian 2 32), List.take_left' d.2,
        ← List.append_assoc,
        List.drop_left' (by rw [List.length_append, length_bigEndian, d.2]), ih, List.map_cons]

theorem length_flatMap_digests (ds : List (ByteArr 32)) :
    (ds.flatMap fun d => bigEndian 2 32 ++ d.1).length = 34 * ds.length := by
  induction ds with
  | nil => rfl
  | cons d ds ih =>
      rw [List.flatMap_cons, List.length_append, List.length_append, length_bigEndian, d.2, ih,
        List.length_cons]
      omega

/-- Digests of registers get the numbers from the first one on. -/
theorem numberDigests_registers (checks : Bool) {start : UInt8} {i : Nat} {ds : List Bytes}
    (hlen : ∀ d ∈ ds, d.length = 32) (hfit : start.toNat + i + ds.length ≤ 256) (result : PcrMap) :
    ∃ m, numberDigests checks start i ds result = .ok m ∧
      (∀ j d, ds[j]? = some d → m (UInt8.ofNat (start.toNat + i + j)) = some (Hex.encode d)) ∧
      ∀ p : UInt8, p.toNat < start.toNat + i ∨ start.toNat + i + ds.length ≤ p.toNat →
        m p = result p := by
  -- The digests fill the registers in order, and no register twice.
  induction ds generalizing i result with
  | nil => exact ⟨result, rfl, fun j d hd => (by cases hd), fun p _ => rfl⟩
  | cons d ds ih =>
      rw [List.length_cons] at hfit
      have hmod : i % 256 = i := Nat.mod_eq_of_lt (by omega)
      obtain ⟨m, hm, hplaced, hrest⟩ := ih (i := i + 1)
        (fun d' hd' => hlen d' (List.mem_cons_of_mem d hd')) (by omega)
        (result.insert (UInt8.ofNat (start.toNat + i)) (Hex.encode d))
      refine ⟨m, ?_, ?_, ?_⟩
      · rw [numberDigests, if_pos (hlen d List.mem_cons_self), hmod, add_of_lt (by omega)]
        exact hm
      · intro j d' hd'
        cases j with
        | zero =>
            obtain rfl := Option.some.inj hd'
            have hnum : (UInt8.ofNat (start.toNat + i)).toNat = start.toNat + i :=
              UInt8.toNat_ofNat_of_lt' (by show _ < 256; omega)
            -- The registers of the rest are beyond this one.
            rw [Nat.add_zero, hrest _ (.inl (by omega))]
            exact Function.update_self ..
        | succ j =>
            have hplace : start.toNat + i + (j + 1) = start.toNat + (i + 1) + j := by omega
            rw [hplace]
            exact hplaced j d' hd'
      · intro p hp
        rw [List.length_cons] at hp
        rw [hrest p (by omega)]
        refine Function.update_of_ne ?_ ..
        rintro rfl
        have hnum : (UInt8.ofNat (start.toNat + i)).toNat = start.toNat + i :=
          UInt8.toNat_ofNat_of_lt' (by show _ < 256; omega)
        omega

namespace PcrReadResponse

variable {k : Fin 3} (r : PcrReadResponse k)

theorem selected_mem {i : Nat} (h : i ∈ r.selected) : 8 * k ≤ i ∧ i < 8 * k + 8 := by
  have hasked := r.asked i h
  rw [selectedBy_pcrSelectMask, List.mem_range'_1] at hasked
  exact hasked

theorem selected_pairwise : r.selected.Pairwise (· < ·) :=
  List.Pairwise.filter _ List.pairwise_lt_range

theorem length_digests_le : r.digests.length ≤ 24 := by
  have hfilter : (selectedBy r.mask.1).length ≤ (List.range (8 * r.mask.1.length)).length :=
    List.length_filter_le _ _
  rw [List.length_range, r.mask.2] at hfilter
  rw [r.hdigests]
  exact hfilter

theorem digestPart_bytes : digestPart r.bytes =
    some (r.digests.length, r.digests.flatMap fun d => bigEndian 2 32 ++ d.1) := by
  -- The fields have fixed widths, so what is behind some of them is known by the widths.
  have hpass : ∀ {n m : Nat} {front rest : Bytes}, front.length = n →
      (front ++ rest).drop (n + m) = rest.drop m := by
    intro n m front rest h
    rw [← List.drop_drop, List.drop_left' h]
  have hbe := length_bigEndian
  have hcount : r.digests.length < 256 ^ 4 := by
    have hle := r.length_digests_le
    omega
  have hentry : (bigEndian 2 0x000B ++ [3] ++ r.mask.1).length = 6 := by
    rw [List.length_append, List.length_append, hbe, r.mask.2]
    rfl
  generalize hpart : (bigEndian 4 r.digests.length ++
    r.digests.flatMap fun d => bigEndian 2 32 ++ d.1) = part
  have hrc : (r.bytes.drop 6).take 4 = bigEndian 4 0 := by
    rw [bytes, hpass (n := 2) (m := 4) (hbe 2 _), hpass (n := 4) (m := 0) (hbe 4 _), List.drop_zero,
      List.take_left' (hbe 4 0)]
  have hsel : r.bytes.drop 14 =
      bigEndian 4 1 ++ (bigEndian 2 0x000B ++ [3] ++ r.mask.1 ++ part) := by
    rw [bytes, hpart, hpass (n := 2) (m := 12) (hbe 2 _), hpass (n := 4) (m := 8) (hbe 4 _),
      hpass (n := 4) (m := 4) (hbe 4 _), hpass (n := 4) (m := 0) r.updateCounter.2, List.drop_zero]
  have hafter : r.bytes.drop 18 = bigEndian 2 0x000B ++ [3] ++ r.mask.1 ++ part := by
    rw [← List.drop_drop (i := 4) (j := 14), hsel, List.drop_left' (hbe 4 1)]
  have hone : bigNumber (bigEndian 4 1) = 1 := bigNumber_bigEndian (by decide)
  have hzero : bigNumber (bigEndian 4 0) = 0 := bigNumber_bigEndian (by decide)
  -- One selection, of three mask bytes.
  have hskip : afterSelections 1 (bigEndian 2 0x000B ++ [3] ++ r.mask.1 ++ part) = some part := by
    have hwidth : (bigEndian 2 0x000B ++ [3] ++ r.mask.1 ++ part).getD 2 0 = 3 := rfl
    rw [afterSelections, hwidth, if_neg (by rw [List.length_append, hentry]; omega)]
    show some _ = _
    rw [show 3 + (3 : UInt8).toNat = 6 from rfl, List.drop_left' hentry]
  rw [digestPart, hrc, hsel, List.take_left' (hbe 4 1), hone, hzero, hafter, hskip,
    if_neg (by omega), Option.bind_some, ← hpart, List.take_left' (hbe 4 _),
    List.drop_left' (hbe 4 _), bigNumber_bigEndian hcount, if_neg]
  rw [List.length_append, hbe]
  omega

theorem length_selected_le : r.selected.length ≤ 8 := by
  have hsub : r.selected ⊆ List.range' (8 * k) 8 := by
    intro i hi
    rw [List.mem_range'_1]
    exact r.selected_mem hi
  have hnodup : r.selected.Nodup := r.selected_pairwise.imp Nat.ne_of_lt
  have hle := (List.subperm_of_subset hnodup hsub).length_le
  rwa [List.length_range'] at hle

/-- The digests of a response get the numbers from the first of its batch on. -/
theorem parse_bytes (checks : Bool) :
    ∃ m, parsePcrReadResponse checks r.bytes (batchStart k) = .ok m ∧
      (∀ (j : Nat) (d : ByteArr 32), r.digests[j]? = some d →
        m (UInt8.ofNat (8 * k + j)) = some (Hex.encode d.1)) ∧
      ∀ p : UInt8, p.toNat < 8 * k ∨ 8 * k + r.selected.length ≤ p.toNat → m p = none := by
  have hstart : (batchStart k).toNat = 8 * k := UInt8.toNat_ofNat_of_lt' (by show _ < 256; omega)
  have hlen : r.digests.length = r.selected.length := r.hdigests
  have hle := r.length_selected_le
  have hk := k.isLt
  -- The whole response is short, so none of the checked sums overflows.
  have hsize : r.bytes.length ≤ isizeMax := by
    have hflat := length_flatMap_digests r.digests
    have hmax : 1000 ≤ isizeMax := by decide
    rw [bytes]
    simp only [List.length_append, length_bigEndian, hflat, r.updateCounter.2, r.mask.2,
      List.length_singleton]
    omega
  have hregister : ∀ d ∈ r.digests.map Subtype.val, d.length = 32 := by
    intro d hd
    obtain ⟨d, -, rfl⟩ := List.mem_map.mp hd
    exact d.2
  have hwhole := wholeDigests_flatMap r.digests []
  rw [List.append_nil] at hwhole
  have hfit : (batchStart k).toNat + 0 + (r.digests.map Subtype.val).length ≤ 256 := by
    rw [List.length_map]
    omega
  obtain ⟨m, hm, hplaced, hrest⟩ := numberDigests_registers checks hregister hfit fun _ => none
  rw [hstart, List.length_map, Nat.add_zero, hlen] at hrest
  rw [hstart, Nat.add_zero] at hplaced
  refine ⟨m, ?_, fun j d hd => hplaced j d.1 ?_, hrest⟩
  · rcases parsePcrReadResponse_eq checks (batchStart k) hsize with
      ⟨hnone, -⟩ | ⟨count, bs, message, hsome, hout⟩
    · rw [r.digestPart_bytes] at hnone
      cases hnone
    · rw [r.digestPart_bytes] at hsome
      obtain ⟨rfl, rfl⟩ := Prod.mk.inj (Option.some.inj hsome)
      rw [hout, hwhole, hm]
      exact if_pos (List.length_map _)
  · rw [List.getElem?_map, hd]
    rfl

/-- The map gives every register that was selected its digest, and has no number from 24
    on. -/
def Attested (checks : Bool) : Prop :=
  ∃ m, parsePcrReadResponse checks r.bytes (batchStart k) = .ok m ∧
    (∀ (j pcr : Nat) (d : ByteArr 32), r.selected[j]? = some pcr → r.digests[j]? = some d →
      m (UInt8.ofNat pcr) = some (Hex.encode d.1)) ∧
    ∀ p : UInt8, 24 ≤ p.toNat → m p = none

/-- Only the first registers of a batch are numbered right. -/
theorem attested_iff (checks : Bool) :
    r.Attested checks ↔ r.selected = List.range' (8 * k) r.selected.length := by
  have hk := k.isLt
  have hle := r.length_selected_le
  obtain ⟨m, hm, hplaced, hrest⟩ := r.parse_bytes checks
  constructor
  · rintro ⟨m', hm', hassigned, -⟩
    obtain rfl : m = m' := Except.ok.inj (hm.symm.trans hm')
    -- Every register that was selected has a value, so it is one of the first.
    have hsub : r.selected ⊆ List.range' (8 * k) r.selected.length := by
      intro pcr hpcr
      obtain ⟨j, hj, hget⟩ := List.mem_iff_getElem.mp hpcr
      have hdigest : j < r.digests.length := by rw [r.hdigests]; exact hj
      have hvalue := hassigned j pcr r.digests[j] (List.getElem?_eq_some_iff.mpr ⟨hj, hget⟩)
        (List.getElem?_eq_getElem hdigest)
      have hbound := r.selected_mem hpcr
      have hnum : (UInt8.ofNat pcr).toNat = pcr :=
        UInt8.toNat_ofNat_of_lt' (by show _ < 256; omega)
      rw [List.mem_range'_1]
      by_contra hout
      rw [hrest _ (by omega)] at hvalue
      cases hvalue
    have hnodup : r.selected.Nodup := r.selected_pairwise.imp Nat.ne_of_lt
    -- As many numbers as there are places, all different and in order: the places themselves.
    have hperm :=
      (List.subperm_of_subset hnodup hsub).perm_of_length_le (by rw [List.length_range'])
    refine hperm.eq_of_pairwise (fun a b _ _ hab hba => ?_) r.selected_pairwise
      List.pairwise_lt_range'
    omega
  · intro hfirst
    refine ⟨m, hm, fun j pcr d hpcr hd => ?_, fun p hp => hrest p (by omega)⟩
    have hj : j < r.selected.length := (List.getElem?_eq_some_iff.mp hpcr).1
    rw [hfirst, List.getElem?_range' hj, Nat.one_mul] at hpcr
    obtain rfl := Option.some.inj hpcr
    exact hplaced j d hd

end PcrReadResponse

/-! ## What is attested -/

/-- When every batch comes back from its first register on, all registers that came back have
    their digests. -/
theorem tryReadPcrs_of_first {checks : Bool} {device : Bytes → Except Stop Bytes}
    {r : ∀ k, PcrReadResponse k} (hdevice : ∀ k, device (batchCmd k) = .ok (r k).bytes)
    (hfirst : ∀ k, (r k).selected = List.range' (8 * k) (r k).selected.length) :
    ∃ m, tryReadPcrs checks device = .ok m ∧
      ∀ (k : Fin 3) (j pcr : Nat) (d : ByteArr 32), (r k).selected[j]? = some pcr →
        (r k).digests[j]? = some d → m (UInt8.ofNat pcr) = some (Hex.encode d.1) := by
  choose batch hparse hplaced hrest using fun k => (r k).parse_bytes checks
  refine ⟨((PcrMap.extend (fun _ => none) (batch 0)).extend (batch 1)).extend (batch 2), ?_, ?_⟩
  -- Three requests, of eight registers each.
  · show (List.foldlM _ _ [0, 1, 2]) = _
    simp only [List.foldlM_cons, List.foldlM_nil, hdevice, ok_bind, hparse]
    rfl
  · intro k j pcr d hpcr hd
    have hj : j < (r k).selected.length := (List.getElem?_eq_some_iff.mp hpcr).1
    rw [hfirst k, List.getElem?_range' hj, Nat.one_mul] at hpcr
    obtain rfl := Option.some.inj hpcr
    have hk := k.isLt
    have hle := fun k => (r k).length_selected_le
    have hnum : (UInt8.ofNat (8 * k + j)).toNat = 8 * k + j :=
      UInt8.toNat_ofNat_of_lt' (by show _ < 256; have hlek := hle k; omega)
    -- No other batch has a register of this number.
    have hother : ∀ k' : Fin 3, k' ≠ k → batch k' (UInt8.ofNat (8 * k + j)) = none := by
      intro k' hne
      have hle' := hle k'
      have hlek := hle k
      exact hrest k' _ (by rw [hnum]; omega)
    have hvalue := hplaced k j d hd
    rw [PcrMap.extend, PcrMap.extend, PcrMap.extend]
    obtain rfl | rfl | rfl : k = 0 ∨ k = 1 ∨ k = 2 := by omega
    · rw [hother 2 (by decide), hother 1 (by decide), Option.none_or, Option.none_or]
      exact congrArg (Option.or · none) hvalue
    · rw [hother 2 (by decide), Option.none_or]
      exact congrArg (Option.or · _) hvalue
    · exact congrArg (Option.or · _) hvalue

/-- **Which register a digest is of.**  Parsing a response panics where a digest gets a number
    that is no `u8`; and it gives the registers that a TPM selected their digests where these
    are the first ones of the batch. -/
theorem registers_attested_iff (resp : Slice) (start : UInt8) (checks : Bool) (k : Fin 3)
    (r : PcrReadResponse k) :
    (¬ Panics (parsePcrReadResponse true resp.1 start) ↔ NumbersFit start resp.1) ∧
      (r.Attested checks ↔ r.selected = List.range' (8 * k) r.selected.length) := by
  refine ⟨?_, r.attested_iff checks⟩
  rw [panics_parsePcrReadResponse_iff resp.2, not_not]

/-- Of the first batch, only register 1 came back. -/
def secondRegister : PcrReadResponse 0 where
  updateCounter := ⟨[0, 0, 0, 1], rfl⟩
  mask := ⟨[2, 0, 0], rfl⟩
  asked := by decide
  digests := [⟨List.replicate 32 0xAB, rfl⟩]
  hdigests := by decide

/-- Its digest is reported as that of register 0. -/
theorem not_registers_attested :
    ¬ ((∀ (resp : Slice) (start : UInt8),
        ¬ Panics (parsePcrReadResponse true resp.1 start)) ∧
      ∀ (checks : Bool) (k : Fin 3) (r : PcrReadResponse k), r.Attested checks) := by
  rintro ⟨-, h⟩
  have hfirst := (secondRegister.attested_iff false).mp (h false 0 secondRegister)
  revert hfirst
  decide

end Maranode.Attestation
