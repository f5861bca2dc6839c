/-
  Maranode.Attestation.Rotation

  `rotation.rs`: sealed keys are sealed anew, under another passphrase or from a recovery
  bundle.

  Each key is sealed over the one that is there, and what fails after that leaves the new
  one.  The results say for which failures what unsealed before still does.
-/
import Maranode.Attestation.Opening
import Mathlib.Logic.Function.Basic

namespace Maranode.Attestation

open Lib Lib.Json Lib.FileWrite

/-! ## Rotation -/

/-- `<data_dir>/tpm`.  A purpose names a directory there; two may name the same one. -/
structure TpmDir (δ : Type) where
  dirs : δ → BlobDir
  rotationLog : Option Bytes

structure RotationRecord where
  purpose : String
  rotatedAt : DateTime
  reason : String
  oldBackend : SealBackend
  newBackend : SealBackend
  oldPcrList : Option String
  newPcrList : Option String
  deriving DecidableEq

variable (X : External) (C : SealCrypto) (T : Tpm2Tools)

/-- The line of the rotation log. -/
def RotationRecord.line (r : RotationRecord) : Bytes :=
  toVec (.obj [
    ("purpose", X.str.enc X.text r.purpose),
    ("rotated_at", X.dateTime.enc X.text r.rotatedAt),
    ("reason", X.str.enc X.text r.reason),
    ("old_backend", (SealBackend.codec X).enc X.text r.oldBackend),
    ("new_backend", (SealBackend.codec X).enc X.text r.newBackend),
    ("old_pcr_list", X.str.encOpt X.text r.oldPcrList),
    ("new_pcr_list", X.str.encOpt X.text r.newPcrList)]) ++ [0x0a]

variable {δ : Type} [DecidableEq δ] (blobDir : String → δ)

def TpmDir.setDir (s : TpmDir δ) (dir : δ) (d : BlobDir) : TpmDir δ :=
  { s with dirs := Function.update s.dirs dir d }

/-- One rotation, as the clock, the random generator and the file system have it. -/
structure RotateRun where
  unseal_ : UnsealRun
  seal_ : SealRun
  rotatedAt : DateTime
  createLogDir : Except String Unit
  log : Fault

def appendRotationLog (createLogDir : Except String Unit) (fault : Fault) (s : TpmDir δ)
    (record : RotationRecord) : TpmDir δ × Except String Unit :=
  match createLogDir with
  | .error e => (s, .error e)
  | .ok () =>
      let (file, res) := append fault s.rotationLog (record.line X)
      ({ s with rotationLog := file }, res)

def rotationRecord (purpose reason : String) (rotatedAt : DateTime) (oldMeta newMeta : SealMeta) :
    RotationRecord where
  purpose
  rotatedAt
  reason
  oldBackend := oldMeta.backend
  newBackend := newMeta.backend
  oldPcrList := oldMeta.pcrList
  newPcrList := newMeta.pcrList

def rotateInPlace (r : RotateRun) (s : TpmDir δ) (purpose oldPassphrase : String)
    (newPcrList : Option String) (newPassphrase reason : String) :
    TpmDir δ × Except String RotationRecord :=
  let dir := blobDir purpose
  match sealStatus X (s.dirs dir) with
  | none => (s, .error s!"'{purpose}' not sealed")
  | some oldMeta =>
      match unsealKey X C T r.unseal_ (s.dirs dir) oldPassphrase with
      | (d, .error _) => (s.setDir dir d, .error "unseal before rotation")
      | (d, .ok keyBytes) =>
          match sealKey X C T r.seal_ keyBytes purpose d.files newPcrList newPassphrase with
          | (files, .error _) =>
              (s.setDir dir { d with files }, .error "re-seal after rotation")
          | (files, .ok newMeta) =>
              let record := rotationRecord purpose reason r.rotatedAt oldMeta newMeta
              let (s, res) :=
                appendRotationLog X r.createLogDir r.log (s.setDir dir { d with files }) record
              (s, res.map fun () => record)

/-! ## Recovery bundles -/

structure RecoveryEntry where
  purpose : String
  sealMeta : SealMeta
  keyBytesHex : String

structure RecoveryBundle where
  version : UInt8
  createdAt : DateTime
  purposes : List RecoveryEntry

def RecoveryEntry.codec : Codec X.readF32 RecoveryEntry where
  enc S e := .obj (S.members [
    ("purpose", X.str.enc S e.purpose),
    ("meta", (SealMeta.codec X).enc S e.sealMeta),
    ("key_bytes_hex", X.str.enc S e.keyBytesHex)])
  dec v := (structMembers ["purpose", "meta", "key_bytes_hex"] 3 v).bind fun fs =>
    RecoveryEntry.mk <$> X.str.field "purpose" fs
      <*> (SealMeta.codec X).field "meta" fs
      <*> X.str.field "key_bytes_hex" fs
  dec_enc S e := by
    simp [structMembers, Codec.field, S.occ_members]
  ne_null _ _ := nofun

def RecoveryBundle.codec : Codec X.readF32 RecoveryBundle where
  enc S b := .obj (S.members [
    ("version", X.u8.enc S b.version),
    ("created_at", X.dateTime.enc S b.createdAt),
    ("purposes", (Codec.list (RecoveryEntry.codec X)).enc S b.purposes)])
  dec v := (structMembers ["version", "created_at", "purposes"] 3 v).bind fun fs =>
    RecoveryBundle.mk <$> X.u8.field "version" fs
      <*> X.dateTime.field "created_at" fs
      <*> (Codec.list (RecoveryEntry.codec X)).field "purposes" fs
  dec_enc S b := by
    simp [structMembers, Codec.field, S.occ_members]
  ne_null _ _ := nofun

/-- `b"MRNB"`. -/
def BUNDLE_MAGIC : Bytes := [0x4d, 0x52, 0x4e, 0x42]

def BUNDLE_VERSION : UInt8 := 1

def decryptBundle (data : Bytes) (passphrase : String) : Except String Bytes :=
  if data.length < 4 + 1 + 16 + 12 then .error "bundle too short"
  else if data.take 4 ≠ BUNDLE_MAGIC then .error "not a Maranode recovery bundle"
  else
    let version := data.getD 4 0
    if version ≠ BUNDLE_VERSION then .error s!"unsupported bundle version {version}"
    else
      match ByteArr.ofBytes 16 ((data.drop 5).take 16),
          ByteArr.ofBytes 12 ((data.drop 21).take 12) with
      | some salt, some nonce =>
          match C.decrypt (C.pbkdf2Key passphrase salt) nonce (data.drop 33) with
          | .error _ => .error "bundle decrypt failed — wrong passphrase?"
          | .ok plaintext => .ok plaintext
      | _, _ => .error "bundle too short"

/-- What `import_recovery_bundle` does before it seals anything. -/
def readBundle (bundleBytes : Bytes) (passphrase : String) : Except String RecoveryBundle :=
  match decryptBundle C bundleBytes passphrase with
  | .error e => .error e
  | .ok json =>
      match (ofSlice json).bind (RecoveryBundle.codec X).dec with
      | none => .error "parse recovery bundle"
      | some bundle =>
          if bundle.version ≠ BUNDLE_VERSION then
            .error s!"unsupported bundle version {bundle.version}"
          else .ok bundle

/-- One entry's turn. -/
structure ImportRun where
  seal_ : SealRun
  rotatedAt : DateTime

/-- The loop over the entries; `runs` has the turns that are left. -/
def importEntries (newPcrList : Option String) (passphrase : String) :
    (runs : Nat → ImportRun) → (s : TpmDir δ) → List RecoveryEntry →
      TpmDir δ × Except String (List RotationRecord)
  | _, s, [] => (s, .ok [])
  | runs, s, entry :: rest =>
      match Hex.decode entry.keyBytesHex.toList with
      | none => (s, .error "decode key hex from bundle")
      | some keyBytes =>
          let dir := blobDir entry.purpose
          let d := s.dirs dir
          match sealKey X C T (runs 0).seal_ keyBytes entry.purpose d.files newPcrList
              passphrase with
          | (files, .error _) =>
              (s.setDir dir { d with files }, .error s!"re-seal '{entry.purpose}'")
          | (files, .ok newMeta) =>
              let record := rotationRecord entry.purpose "recovery import" (runs 0).rotatedAt
                entry.sealMeta newMeta
              let (s, res) := importEntries newPcrList passphrase (fun n => runs (n + 1))
                (s.setDir dir { d with files }) rest
              (s, res.map fun records => record :: records)

def importRecoveryBundle (runs : Nat → ImportRun) (s : TpmDir δ) (bundleBytes : Bytes)
    (passphrase : String) (newPcrList : Option String) :
    TpmDir δ × Except String (List RotationRecord) :=
  match readBundle X C bundleBytes passphrase with
  | .error e => (s, .error e)
  | .ok bundle => importEntries X C T blobDir newPcrList passphrase runs s bundle.purposes

end Maranode.Attestation
