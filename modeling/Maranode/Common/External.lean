/-
  Maranode.Common.External

  The third-party code the crates call, as a parameter of the model.

  `External` collects the functions with the documented behaviour that the crates
  rely on: chrono, uuid and float texts read back as what was written, a zip
  member reads back as what was stored.  The MAC and the digest carry no law; a
  result that needs one says so.
-/
import Maranode.Lib.Json.Codec
import Maranode.Lib.Sha256

namespace Maranode

open Lib Lib.Json

/-- `chrono::DateTime<Utc>`: nanoseconds since the Unix epoch. -/
abbrev DateTime := Int

/-- The last instant chrono has, and the first. -/
def maxUtc : DateTime := 8210266876799999999999

def minUtc : DateTime := -8334601315200000000000

/-- `chrono::Duration::days`. -/
def days (n : Nat) : Int := n * 86400 * 1000000000

/-- `DateTime::timestamp_millis`. -/
def timestampMillis (t : DateTime) : Int := t.fdiv 1000000

/-- A finite `f32`, by its bits. -/
abbrev F32 := { bits : UInt32 // bits &&& 0x7F800000 ≠ 0x7F800000 }

theorem F32.finite_zero : (0 : UInt32) &&& 0x7F800000 ≠ 0x7F800000 := by decide

/-- `uuid::Uuid`. -/
abbrev Uuid := BitVec 128

theorem isOk_eq_true {ε α : Type} {r : Except ε α} : r.isOk = true ↔ ∃ a, r = .ok a := by
  cases r with
  | error e => exact iff_of_false nofun fun ⟨_, h⟩ => nomatch h
  | ok a => exact iff_of_true rfl ⟨a, rfl⟩

structure External where
  /-- chrono: the text serde carries a `DateTime<Utc>` as, and its reader. -/
  dateTimeText : DateTime → String
  dateTimeOfText : String → Option DateTime
  dateTime_roundTrip : ∀ t, dateTimeOfText (dateTimeText t) = some t
  /-- chrono: `to_rfc3339`. -/
  toRfc3339 : DateTime → String
  /-- chrono: `format("%Y%m%dT%H%M%SZ")`. -/
  formatStamp : DateTime → String
  /-- uuid: the hyphenated text and its reader. -/
  uuidText : Uuid → String
  uuidOfText : String → Option Uuid
  uuid_roundTrip : ∀ u, uuidOfText (uuidText u) = some u
  /-- serde_json: the shortest literal of an `f32`. -/
  f32Lit : F32 → NumLit
  /-- serde_json: the literal of an `f32` that was widened into a `Value`. -/
  f32ValueLit : F32 → NumLit
  readF32 : NumLit → Option F32
  f32_roundTrip : ∀ x, readF32 (f32Lit x) = some x
  f32Value_roundTrip : ∀ x, readF32 (f32ValueLit x) = some x
  /-- serde_json: the message of the error for a line it does not accept. -/
  jsonError : Text → String
  /-- hmac, sha2, hex: HMAC-SHA256 of a message under a key, in hex. -/
  hmacSha256 : Bytes → Bytes → String
  /-- sha2: SHA-256 in hex. -/
  sha256 : Bytes → String
  /-- zip: an archive with one deflated member of the given name, and a member of
      an archive by name. -/
  zipWrite : String → Bytes → Bytes
  zipRead : Bytes → String → Option Bytes
  zip_roundTrip : ∀ name b, zipRead (zipWrite name b) name = some b

namespace External

variable (X : External)

/-- `serde_json::to_string`. -/
def text : Serializer X.readF32 := .text X.readF32 X.f32Lit X.f32_roundTrip

/-- `serde_json::to_value`. -/
def value : Serializer X.readF32 := .value X.readF32 X.f32ValueLit X.f32Value_roundTrip

abbrev str : Codec X.readF32 String := .str

abbrev bool : Codec X.readF32 Bool := .bool

abbrev u8 : Codec X.readF32 UInt8 := .u8

abbrev u16 : Codec X.readF32 UInt16 := .u16

abbrev u32 : Codec X.readF32 UInt32 := .u32

/-- `u64`, and `usize` on the 64-bit targets. -/
abbrev u64 : Codec X.readF32 UInt64 := .u64

abbrev float : Codec X.readF32 F32 := .float

def dateTime : Codec X.readF32 DateTime :=
  .viaStr X.dateTimeText X.dateTimeOfText X.dateTime_roundTrip

def uuid : Codec X.readF32 Uuid :=
  .viaStr X.uuidText X.uuidOfText X.uuid_roundTrip

end External

/-! ## An instance -/

/-- An integer in unary. -/
def unary : Int → String
  | .ofNat n => String.ofList ('+' :: List.replicate n '1')
  | .negSucc n => String.ofList ('-' :: List.replicate n '1')

def ofUnary (s : String) : Option Int :=
  match s.toList with
  | '+' :: ones => some (.ofNat ones.length)
  | '-' :: ones => some (.negSucc ones.length)
  | _ => none

@[simp] theorem ofUnary_unary (n : Int) : ofUnary (unary n) = some n := by
  cases n <;> simp [unary, ofUnary]

/-- A text that starts with a digit is not unary. -/
theorem unary_ne {s : String} (hs : s.toList.head?.any Char.isDigit = true) (n : Int) :
    unary n ≠ s := by
  rintro rfl
  cases n <;> simp [unary] at hs

/-- 2024-01-01, midnight. -/
def newYear : DateTime := 1704067200000000000

/-- The texts chrono has for two instants, and unary for every other one. -/
def sampleDateText (t : DateTime) : String :=
  if t = 0 then "1970-01-01T00:00:00Z"
  else if t = newYear then "2024-01-01T00:00:00Z"
  else unary t

def sampleDateOfText (s : String) : Option DateTime :=
  if s = "1970-01-01T00:00:00Z" then some 0
  else if s = "2024-01-01T00:00:00Z" then some newYear
  else ofUnary s

theorem sampleDate_roundTrip (t : DateTime) : sampleDateOfText (sampleDateText t) = some t := by
  rw [sampleDateText]
  split_ifs with hzero hyear
  · rw [sampleDateOfText, if_pos rfl, hzero]
  · rw [sampleDateOfText, if_neg (by decide), if_pos rfl, hyear]
  · have hne : unary t ≠ "1970-01-01T00:00:00Z" := unary_ne (by decide) t
    have hne' : unary t ≠ "2024-01-01T00:00:00Z" := unary_ne (by decide) t
    rw [sampleDateOfText, if_neg hne, if_neg hne', ofUnary_unary]

/-- `to_rfc3339` writes the offset as numbers. -/
def sampleRfc3339 (t : DateTime) : String :=
  if t = 0 then "1970-01-01T00:00:00+00:00"
  else if t = newYear then "2024-01-01T00:00:00+00:00"
  else unary t

def sampleStamp (t : DateTime) : String :=
  if t = 0 then "19700101T000000Z" else if t = newYear then "20240101T000000Z" else unary t

def sampleReadF32 (l : NumLit) : Option F32 :=
  l.toNat?.bind fun n =>
    if h : UInt32.ofNat n &&& 0x7F800000 ≠ 0x7F800000 then some ⟨UInt32.ofNat n, h⟩ else none

theorem sampleF32_roundTrip (x : F32) :
    sampleReadF32 (NumLit.ofNat x.1.toNat) = some x := by
  simp [sampleReadF32, x.2]

/-- An archive is its member's name and content. -/
def sampleZip (name : String) (content : Bytes) : Bytes :=
  Text.encode name.toList ++ 0 :: content

def sampleUnzip (archive : Bytes) (name : String) : Option Bytes :=
  if (Text.encode name.toList ++ [0]).isPrefixOf archive then
    some (archive.drop ((Text.encode name.toList).length + 1))
  else none

theorem sampleZip_roundTrip (name : String) (content : Bytes) :
    sampleUnzip (sampleZip name content) name = some content := by
  have hsplit : sampleZip name content = (Text.encode name.toList ++ [0]) ++ content := by
    simp [sampleZip]
  have hlen : (Text.encode name.toList).length + 1 = (Text.encode name.toList ++ [0]).length := by
    simp
  rw [sampleUnzip, hsplit, if_pos (by simp), hlen, List.drop_left]

/-- An instance to apply results at: the MAC and the digest are the real ones, dates
    are written as chrono does where a result is applied. -/
def External.sample : External where
  dateTimeText := sampleDateText
  dateTimeOfText := sampleDateOfText
  dateTime_roundTrip := sampleDate_roundTrip
  toRfc3339 := sampleRfc3339
  formatStamp := sampleStamp
  uuidText := fun u => unary u.toNat
  uuidOfText := fun s => (ofUnary s).map fun n => BitVec.ofNat 128 n.toNat
  uuid_roundTrip := by simp
  f32Lit := fun x => NumLit.ofNat x.1.toNat
  f32ValueLit := fun x => NumLit.ofNat x.1.toNat
  readF32 := sampleReadF32
  f32_roundTrip := sampleF32_roundTrip
  f32Value_roundTrip := sampleF32_roundTrip
  jsonError := fun _ => "expected value at line 1 column 1"
  hmacSha256 := fun key msg => Sha256.hex (Sha256.hmac key msg)
  sha256 := fun msg => Sha256.hex (Sha256.digest msg)
  zipWrite := sampleZip
  zipRead := sampleUnzip
  zip_roundTrip := sampleZip_roundTrip

end Maranode
