/-
  Maranode.Store.Blob

  `blob.rs` and `store.rs`: model files by their SHA-256, and the manifests that name them.

  A manifest has a digest and a column `blob_path`.  The path that is verified comes from
  the digest, and only after the bytes there had that digest; the column is not looked at.
-/
import Maranode.Common.Receipt
import Maranode.Lib.Path

namespace Maranode.Store

open Lib Lib.Path Maranode.Common

variable (X : External)

/-! ## Digests -/

/-- `is_sha256_hex`. -/
def isSha256Hex (s : String) : Bool :=
  decide (s.utf8ByteSize = 64) && (Text.encode s.toList).all fun b =>
    decide (0x30 ≤ b ∧ b ≤ 0x39) || decide (0x61 ≤ b ∧ b ≤ 0x66)

def blobsDir (dataDir : Path) : Path := join dataDir "blobs".toList

/-- The file of a digest. -/
def blobFile (dataDir : Path) (sha256 : String) : Path :=
  join (blobsDir dataDir) ("sha256-".toList ++ sha256.toList)

def blobPathChecked (dataDir : Path) (sha256 : String) : Except String Path :=
  if isSha256Hex sha256 then .ok (blobFile dataDir sha256)
  else .error s!"invalid blob digest '{sha256}' (expected 64-char lowercase hex)"

/-- `blob_absolute_path`. -/
def blobAbsolutePath (dataDir : Path) (sha256 : String) : Except String Path :=
  blobPathChecked dataDir sha256

/-! ## The store -/

/-- A row of `models`, as far as a load or a chat reads it. -/
structure ModelManifest where
  sha256 : String
  sizeBytes : Nat
  quantization : Option String
  blobPath : String
  contextLength : Option UInt32
  deriving DecidableEq

/-- The rows by name and tag, and the files as they can be read. -/
structure ModelStore where
  dataDir : Path
  db : ModelId → Option ModelManifest
  files : Path → Option Bytes

/-- `get`, of a database that may fail. -/
def ModelStore.get (s : ModelStore) (fails : Option String) (id : ModelId) :
    Except String (Option ModelManifest) :=
  match fails with
  | some e => .error e
  | none => .ok (s.db id)

/-- The digest of the file at a path is the one expected. -/
def ModelStore.Intact (s : ModelStore) (path : Path) (sha256 : String) : Prop :=
  ∃ content, s.files path = some content ∧ X.sha256 content = sha256

def verifyBlob (s : ModelStore) (expectedSha256 : String) : Except String Unit :=
  match blobPathChecked s.dataDir expectedSha256 with
  | .error e => .error e
  | .ok path =>
      match s.files path with
      | none => .error s!"opening blob {expectedSha256}"
      | some content =>
          let actual := X.sha256 content
          if actual = expectedSha256 then .ok ()
          else .error s!"blob integrity check failed: expected {expectedSha256}, got {actual}"

/-- The path of the digest, after its file had that digest. -/
def ModelStore.blobPathVerified (s : ModelStore) (fails : Option String) (id : ModelId) :
    Except String Path :=
  match s.get fails id with
  | .error e => .error e
  | .ok none => .error s!"model not found: {id.display}"
  | .ok (some manifest) =>
      match verifyBlob X s manifest.sha256 with
      | .error _ => .error "blob integrity check"
      | .ok _ => blobAbsolutePath s.dataDir manifest.sha256

variable {X} {s : ModelStore} {id : ModelId} {path : Path}

theorem get_eq_some {fails : Option String} {manifest : ModelManifest} :
    s.get fails id = .ok (some manifest) ↔ fails = none ∧ s.db id = some manifest := by
  cases fails with
  | some e => exact iff_of_false (fun h => (by cases h)) fun h => (by cases h.1)
  | none =>
      rw [ModelStore.get]
      exact ⟨fun h => ⟨rfl, Except.ok.inj h⟩, fun h => congrArg Except.ok h.2⟩

theorem verifyBlob_eq_ok {sha256 : String} :
    verifyBlob X s sha256 = .ok () ↔
      isSha256Hex sha256 = true ∧ s.Intact X (blobFile s.dataDir sha256) sha256 := by
  rw [verifyBlob, blobPathChecked]
  cases hhex : isSha256Hex sha256 with
  | false =>
      rw [if_neg Bool.false_ne_true]
      exact ⟨fun h => (by cases h), fun h => absurd h.1 Bool.false_ne_true⟩
  | true =>
      rw [if_pos rfl]
      dsimp only
      cases hfile : s.files (blobFile s.dataDir sha256) with
      | none =>
          refine ⟨fun h => (by cases h), ?_⟩
          rintro ⟨-, content, hcontent, -⟩
          rw [hfile] at hcontent
          cases hcontent
      | some content =>
          dsimp only
          by_cases hsame : X.sha256 content = sha256
          · rw [if_pos hsame]
            exact ⟨fun _ => ⟨rfl, content, hfile, hsame⟩, fun _ => rfl⟩
          · rw [if_neg hsame]
            refine ⟨fun h => (by cases h), ?_⟩
            rintro ⟨-, content', hcontent', hsame'⟩
            rw [hfile] at hcontent'
            rw [← Option.some.inj hcontent'] at hsame'
            exact absurd hsame' hsame

/-- What is verified is the path of the digest, whatever the column says. -/
theorem blobPathVerified_eq_ok {fails : Option String} :
    s.blobPathVerified X fails id = .ok path ↔
      fails = none ∧ ∃ manifest, s.db id = some manifest ∧
        isSha256Hex manifest.sha256 = true ∧
        s.Intact X (blobFile s.dataDir manifest.sha256) manifest.sha256 ∧
        path = blobFile s.dataDir manifest.sha256 := by
  rw [ModelStore.blobPathVerified]
  cases fails with
  | some e => exact ⟨fun h => (by cases h), fun h => (by cases h.1)⟩
  | none =>
      rw [ModelStore.get]
      -- The row has to be there, and the digest of its blob has to be its own.
      cases hrow : s.db id with
      | none =>
          refine ⟨fun h => (by cases h), ?_⟩
          rintro ⟨-, manifest, hmanifest, -⟩
          cases hmanifest
      | some manifest =>
          dsimp only
          cases hverify : verifyBlob X s manifest.sha256 with
          | error e =>
              refine ⟨fun h => (by cases h), ?_⟩
              rintro ⟨-, manifest', hmanifest', hhex, hintact, -⟩
              rw [← Option.some.inj hmanifest'] at hhex hintact
              rw [verifyBlob_eq_ok.mpr ⟨hhex, hintact⟩] at hverify
              cases hverify
          -- The path is made from the row's digest, so it is the one that was verified.
          | ok _ =>
              obtain ⟨hhex, hintact⟩ := verifyBlob_eq_ok.mp hverify
              dsimp only
              rw [blobAbsolutePath, blobPathChecked, if_pos hhex]
              constructor
              · intro h
                exact ⟨rfl, manifest, rfl, hhex, hintact, (Except.ok.inj h).symm⟩
              · rintro ⟨-, manifest', hmanifest', -, -, hpath⟩
                rw [hpath, ← Option.some.inj hmanifest']

/-! ## The digests of the sample -/

theorem utf8EncodeChar_digitChar {n : Nat} (h : n < 16) :
    ∃ b, String.utf8EncodeChar (Nat.digitChar n) = [b] ∧
      (decide (0x30 ≤ b ∧ b ≤ 0x39) || decide (0x61 ≤ b ∧ b ≤ 0x66)) = true := by
  interval_cases n <;> exact ⟨_, rfl, by decide⟩

theorem utf8ByteSize_eq (s : String) : s.utf8ByteSize = (Text.encode s.toList).length := by
  rw [← String.size_toByteArray, ← List.size_toByteArray, Text.toByteArray_encode,
    ← String.toByteArray_ofList, String.ofList_toList]

/-- The bytes of a text in hex: two digits for each. -/
theorem encode_hex (bs : Bytes) :
    (Text.encode (Sha256.hex bs).toList).length = 2 * bs.length ∧
      ∀ b ∈ Text.encode (Sha256.hex bs).toList,
        (decide (0x30 ≤ b ∧ b ≤ 0x39) || decide (0x61 ≤ b ∧ b ≤ 0x66)) = true := by
  rw [Sha256.hex, String.toList_ofList]
  induction bs with
  | nil => exact ⟨rfl, fun b hb => absurd hb List.not_mem_nil⟩
  | cons b bs ih =>
      obtain ⟨hlen, hall⟩ := ih
      have hb := b.toNat_lt
      obtain ⟨x, hx, hxDigit⟩ := utf8EncodeChar_digitChar (n := b.toNat / 16) (by omega)
      obtain ⟨y, hy, hyDigit⟩ := utf8EncodeChar_digitChar (n := b.toNat % 16) (by omega)
      rw [List.flatMap_cons, Text.encode_append, Text.encode_cons, Text.encode_cons, hx, hy,
        Text.encode_nil, List.append_nil, List.length_append, hlen, List.length_cons]
      refine ⟨?_, fun c hc => ?_⟩
      · change 2 + 2 * bs.length = 2 * (bs.length + 1)
        omega
      · rcases List.mem_append.mp hc with hpair | hrest
        · rcases List.mem_cons.mp hpair with rfl | hlast
          · exact hxDigit
          · rw [List.mem_singleton.mp hlast]
            exact hyDigit
        · exact hall c hrest

theorem isSha256Hex_sample (content : Bytes) :
    isSha256Hex (External.sample.sha256 content) = true := by
  obtain ⟨hlen, hall⟩ := encode_hex (Sha256.digest content)
  change isSha256Hex (Sha256.hex (Sha256.digest content)) = true
  rw [isSha256Hex, utf8ByteSize_eq, hlen, Sha256.length_digest, Bool.and_eq_true,
    List.all_eq_true]
  exact ⟨rfl, hall⟩

/-! ## A file -/

/-- The file `abc`. -/
def abcBytes : Bytes := [0x61, 0x62, 0x63]

def abcSha256 : String := "ba7816bf8f01cfea414140de5dae2223b00361a396177a9cb410ff61f20015ad"

theorem sha256_abcBytes : External.sample.sha256 abcBytes = abcSha256 := by decide +kernel

theorem isSha256Hex_abcSha256 : isSha256Hex abcSha256 = true := by decide +kernel

end Maranode.Store
