/-
  Maranode.Attestation.Seal

  `seal.rs`: keys that are sealed under a passphrase or a PCR policy.

  A purpose has a directory with the sealed key, a `meta.json` that says which backend
  sealed it, and a counter of failed attempts.  The TPM tools, PBKDF2 and AES-256-GCM are
  parameters; the random generator and the clock come with each call.
-/
import Maranode.Common.Ed25519
import Maranode.Common.Receipt
import Maranode.Lib.FileWrite
import Maranode.Lib.Json.Pretty

namespace Maranode.Attestation

open Lib Lib.Json Lib.FileWrite
open Maranode.Common (unitEnum)

def UNSEAL_FAIL_LOCKOUT : Nat := 5

def LOCKOUT_SECS : Nat := 60

/-! ## What is stored -/

inductive SealBackend where
  | tpm2
  | software
  deriving DecidableEq

structure SealMeta where
  backend : SealBackend
  purpose : String
  sealedAt : String
  /-- PCR list string, `tpm2` only. -/
  pcrList : Option String
  deriving DecidableEq

structure FailCounter where
  count : UInt32
  /-- Seconds since the epoch. -/
  lastFailTs : UInt64
  deriving DecidableEq

def FailCounter.default : FailCounter := ⟨0, 0⟩

variable (X : External)

/-- `rename_all = "lowercase"`. -/
def SealBackend.rename : SealBackend → String
  | .tpm2 => "tpm2"
  | .software => "software"

def SealBackend.ofName : String → Option SealBackend
  | "tpm2" => some .tpm2
  | "software" => some .software
  | _ => none

theorem SealBackend.ofName_rename (b : SealBackend) : ofName b.rename = some b := by
  cases b <;> rfl

def SealBackend.codec : Codec X.readF32 SealBackend := unitEnum X rename ofName ofName_rename

def SealMeta.members (S : Serializer X.readF32) (m : SealMeta) : List (String × Value) :=
  S.members [
    ("backend", (SealBackend.codec X).enc S m.backend),
    ("purpose", X.str.enc S m.purpose),
    ("sealed_at", X.str.enc S m.sealedAt),
    ("pcr_list", X.str.encOpt S m.pcrList)]

def SealMeta.codec : Codec X.readF32 SealMeta where
  enc S m := .obj (m.members X S)
  dec v := (structMembers ["backend", "purpose", "sealed_at", "pcr_list"] 4 v).bind fun fs =>
    SealMeta.mk <$> (SealBackend.codec X).field "backend" fs
      <*> X.str.field "purpose" fs
      <*> X.str.field "sealed_at" fs
      <*> X.str.fieldOpt "pcr_list" fs
  dec_enc S m := by
    simp [structMembers, SealMeta.members, Codec.field, Codec.fieldOpt, S.occ_members]
  ne_null _ _ := nofun

def FailCounter.codec : Codec X.readF32 FailCounter where
  enc S c := .obj (S.members [
    ("count", X.u32.enc S c.count),
    ("last_fail_ts", X.u64.enc S c.lastFailTs)])
  dec v := (structMembers ["count", "last_fail_ts"] 2 v).bind fun fs =>
    FailCounter.mk <$> X.u32.field "count" fs <*> X.u64.field "last_fail_ts" fs
  dec_enc S c := by
    simp [structMembers, Codec.field, S.occ_members]
  ne_null _ _ := nofun

/-- What seals a key, in the directory of a purpose. -/
structure SealedFiles where
  sealedPub : Option Bytes
  sealedPriv : Option Bytes
  sealedBin : Option Bytes
  metaJson : Option Bytes
  deriving DecidableEq

/-- The directory of a purpose. -/
structure BlobDir where
  files : SealedFiles
  failCounter : Option Bytes
  deriving DecidableEq

def BlobDir.empty : BlobDir := ⟨⟨none, none, none, none⟩, none⟩

def loadMeta (files : SealedFiles) : Except String SealMeta :=
  match files.metaJson with
  | none => .error "No such file or directory (os error 2)"
  | some bytes =>
      match (ofSlice bytes).bind (SealMeta.codec X).dec with
      | none => .error "expected value"
      | some m => .ok m

/-- `serde_json::to_vec_pretty`. -/
def metaBytes (m : SealMeta) : Bytes := toVecPretty ((SealMeta.codec X).enc X.text m)

def saveMeta (fault : Fault) (files : SealedFiles) (m : SealMeta) :
    SealedFiles × Except String Unit :=
  let (file, res) := write fault files.metaJson (metaBytes X m)
  ({ files with metaJson := file }, res)

def sealStatus (d : BlobDir) : Option SealMeta := (loadMeta X d.files).toOption

/-! ## Backends -/

/-- PBKDF2-HMAC-SHA256 with 200 000 rounds, and AES-256-GCM. -/
structure SealCrypto where
  Key : Type
  pbkdf2Key : String → ByteArr 16 → Key
  encrypt : Key → ByteArr 12 → Bytes → Except String Bytes
  decrypt : Key → ByteArr 12 → Bytes → Except String Bytes

/-- tpm2-tools: whether they run, what `tpm2_create` leaves in `sealed.pub` and
    `sealed.priv`, and what `tpm2_unseal` releases for these. -/
structure Tpm2Tools where
  available : Bool
  create : Bytes → String → SealedFiles → (Option Bytes × Option Bytes) × Except String Unit
  release : Option Bytes → Option Bytes → Option String → Except String Bytes

variable (C : SealCrypto) (T : Tpm2Tools)

/-- `b"MRN1"`. -/
def sealMagic : Bytes := [0x4d, 0x52, 0x4e, 0x31]

/-- Header and ciphertext. -/
def sealBlob (salt : ByteArr 16) (nonce : ByteArr 12) (ct : Bytes) : Bytes :=
  sealMagic ++ (salt.1 ++ (nonce.1 ++ ct))

/-- What `OsRng` and the clock give one seal, and how its calls of the file system go. -/
structure SealRun where
  salt : ByteArr 16
  nonce : ByteArr 12
  sealedAt : String
  createDir : Except String Unit
  sealedBin : Fault
  tpmMeta : Fault
  metaJson : Fault

def softwareMeta (purpose : String) (r : SealRun) : SealMeta where
  backend := .software
  purpose
  sealedAt := r.sealedAt
  pcrList := none

def softwareSeal (r : SealRun) (data : Bytes) (purpose : String) (files : SealedFiles)
    (passphrase : String) : SealedFiles × Except String SealMeta :=
  match C.encrypt (C.pbkdf2Key passphrase r.salt) r.nonce data with
  | .error e => (files, .error s!"software seal encrypt: {e}")
  | .ok ct =>
      let (file, res) := write r.sealedBin files.sealedBin (sealBlob r.salt r.nonce ct)
      let files := { files with sealedBin := file }
      match res with
      | .error e => (files, .error e)
      | .ok () =>
          let m := softwareMeta purpose r
          let (files, res) := saveMeta X r.metaJson files m
          (files, res.map fun () => m)

def tpm2Seal (r : SealRun) (data : Bytes) (purpose : String) (files : SealedFiles)
    (pcrList : String) : SealedFiles × Except String SealMeta :=
  let ((sealedPub, sealedPriv), res) := T.create data pcrList files
  let files := { files with sealedPub, sealedPriv }
  match res with
  | .error e => (files, .error e)
  | .ok () =>
      let m : SealMeta := ⟨.tpm2, purpose, r.sealedAt, some pcrList⟩
      let (files, res) := saveMeta X r.tpmMeta files m
      (files, res.map fun () => m)

/-- `seal`. -/
def sealKey (r : SealRun) (data : Bytes) (purpose : String) (files : SealedFiles)
    (pcrPolicy : Option String) (softwarePassphrase : String) :
    SealedFiles × Except String SealMeta :=
  match r.createDir with
  | .error e => (files, .error e)
  | .ok () =>
      match pcrPolicy, T.available with
      | some pcrs, true =>
          match tpm2Seal X T r data purpose files pcrs with
          | (files, .ok m) => (files, .ok m)
          -- only a warning
          | (files, .error _) => softwareSeal X C r data purpose files softwarePassphrase
      | _, _ => softwareSeal X C r data purpose files softwarePassphrase

def softwareUnseal (files : SealedFiles) (passphrase : String) : Except String Bytes :=
  match files.sealedBin with
  | none => .error "No such file or directory (os error 2)"
  | some blob =>
      if blob.length < 4 + 16 + 12 then .error "sealed.bin too short"
      else if blob.take 4 ≠ sealMagic then .error "sealed.bin has wrong magic bytes"
      else
        match ByteArr.ofBytes 16 ((blob.drop 4).take 16),
            ByteArr.ofBytes 12 ((blob.drop 20).take 12) with
        | some salt, some nonce =>
            match C.decrypt (C.pbkdf2Key passphrase salt) nonce (blob.drop 32) with
            | .error _ => .error "software unseal failed — wrong passphrase or corrupted blob"
            | .ok key => .ok key
        | _, _ => .error "sealed.bin too short"

/-- The decryption of an attempt, by the backend of the `meta.json`. -/
def decryptSealed (m : SealMeta) (files : SealedFiles) (softwarePassphrase : String) :
    Except String Bytes :=
  match m.backend with
  | .tpm2 => T.release files.sealedPub files.sealedPriv m.pcrList
  | .software => softwareUnseal C files softwarePassphrase

/-! ## The counter -/

def readFailCounter (file : Option Bytes) : FailCounter :=
  ((file.bind ofSlice).bind (FailCounter.codec X).dec).getD .default

def counterBytes (fc : FailCounter) : Bytes := toVec ((FailCounter.codec X).enc X.text fc)

/-- A failure to write is ignored. -/
def writeFailCounter (fault : Fault) (file : Option Bytes) (fc : FailCounter) : Option Bytes :=
  (write fault file (counterBytes X fc)).1

def checkDosLimit (file : Option Bytes) (now : UInt64) : Except String Unit :=
  let fc := readFailCounter X file
  let since := now.toNat - fc.lastFailTs.toNat
  if UNSEAL_FAIL_LOCKOUT ≤ fc.count.toNat ∧ since < LOCKOUT_SECS then
    .error s!"too many failed unseal attempts — locked out for {LOCKOUT_SECS - since} seconds"
  else .ok ()

/-- `u32::saturating_add(1)`. -/
def saturatingSucc (n : UInt32) : UInt32 := if n.toNat + 1 < 2 ^ 32 then n + 1 else n

def incrementFailCounter (fault : Fault) (file : Option Bytes) (now : UInt64) : Option Bytes :=
  let fc := readFailCounter X file
  writeFailCounter X fault file ⟨saturatingSucc fc.count, now⟩

def resetFailCounter (fault : Fault) (file : Option Bytes) : Option Bytes :=
  writeFailCounter X fault file .default

/-! ## Unsealing -/

/-- The clock of one call of `unseal`, when it checks the counter and when it counts a
    failure, and how the write of the counter goes. -/
structure UnsealRun where
  checkedAt : UInt64
  countedAt : UInt64
  counter : Fault

/-- What a call of `unseal` comes to. -/
inductive Attempt where
  | refused (e : String)
  | noMeta (e : String)
  | failed (e : String)
  | unsealed (key : Bytes)
  deriving DecidableEq

def Attempt.result : Attempt → Except String Bytes
  | .refused e => .error e
  | .noMeta e => .error e
  | .failed e => .error e
  | .unsealed key => .ok key

def attempt (r : UnsealRun) (d : BlobDir) (softwarePassphrase : String) : Attempt :=
  match checkDosLimit X d.failCounter r.checkedAt with
  | .error e => .refused e
  | .ok () =>
      match loadMeta X d.files with
      | .error e => .noMeta e
      | .ok m =>
          match decryptSealed C T m d.files softwarePassphrase with
          | .error e => .failed e
          | .ok key => .unsealed key

/-- The counter after an attempt. -/
def Attempt.counterAfter (r : UnsealRun) (file : Option Bytes) : Attempt → Option Bytes
  | .refused _ => file
  | .noMeta _ => file
  | .failed _ => incrementFailCounter X r.counter file r.countedAt
  | .unsealed _ => resetFailCounter X r.counter file

/-- `unseal`. -/
def unsealKey (r : UnsealRun) (d : BlobDir) (softwarePassphrase : String) :
    BlobDir × Except String Bytes :=
  let a := attempt X C T r d softwarePassphrase
  ({ d with failCounter := a.counterAfter X r d.failCounter }, a.result)

variable {X}

/-- Whether the counter lets an attempt through. -/
theorem checkDosLimit_eq_ok {file : Option Bytes} {now : UInt64} :
    checkDosLimit X file now = .ok () ↔
      (UNSEAL_FAIL_LOCKOUT ≤ (readFailCounter X file).count.toNat →
        (readFailCounter X file).lastFailTs.toNat + LOCKOUT_SECS ≤ now.toNat) := by
  rw [checkDosLimit]
  have hpos : 0 < LOCKOUT_SECS := by decide
  split
  · next h =>
      refine iff_of_false (fun heq => by cases heq) fun hall => ?_
      have := hall h.1
      omega
  · next h =>
      refine iff_of_true rfl fun hcount => ?_
      have hsince := Nat.not_lt.mp fun hlt => h ⟨hcount, hlt⟩
      omega

/-! ## An instance -/

/-- Bytes behind their length in unary. -/
def frame (m : Bytes) : Bytes := List.replicate m.length 1 ++ 0 :: m

def unframe (bytes : Bytes) : Option Bytes :=
  let m := bytes.drop ((bytes.takeWhile (· = 1)).length + 1)
  if frame m = bytes then some m else none

theorem takeWhile_frame (m rest : Bytes) :
    (frame m ++ rest).takeWhile (· = 1) = List.replicate m.length 1 := by
  have hones : ∀ n : Nat, (List.replicate n (1 : UInt8) ++ 0 :: (m ++ rest)).takeWhile (· = 1) =
      List.replicate n 1 := by
    intro n
    induction n with
    | zero => rfl
    | succ n ih =>
        rw [List.replicate_succ, List.cons_append, List.takeWhile_cons_of_pos (by decide), ih]
  rw [frame, List.append_assoc, List.cons_append]
  exact hones m.length

theorem unframe_frame (m : Bytes) : unframe (frame m) = some m := by
  have htake := takeWhile_frame m []
  rw [List.append_nil] at htake
  have hdrop : (frame m).drop ((frame m).takeWhile (· = 1)).length.succ = m := by
    have hlen : (List.replicate m.length (1 : UInt8) ++ [0]).length = m.length.succ := by
      rw [List.length_append, List.length_replicate, List.length_singleton]
    rw [htake, List.length_replicate, frame, List.append_cons]
    exact List.drop_left' hlen
  rw [unframe, ← Nat.succ_eq_add_one, hdrop, if_pos rfl]

theorem unframe_eq_some {bytes m : Bytes} : unframe bytes = some m ↔ bytes = frame m := by
  constructor
  · intro h
    rw [unframe] at h
    split at h
    · next heq => rw [← heq, Option.some.inj h]
    · cases h
  · rintro rfl
    exact unframe_frame m

/-- A frame is not the front of another one. -/
theorem frame_append_inj {m m' rest rest' : Bytes} (h : frame m ++ rest = frame m' ++ rest') :
    m = m' ∧ rest = rest' := by
  have hones := takeWhile_frame m rest
  rw [h, takeWhile_frame] at hones
  have hlen : m.length = m'.length := by
    have := congrArg List.length hones
    rw [List.length_replicate, List.length_replicate] at this
    exact this.symm
  have hframe : (frame m).length = (frame m').length := by
    rw [frame, frame, List.length_append, List.length_append, List.length_cons, List.length_cons,
      List.length_replicate, List.length_replicate, hlen]
  obtain ⟨hm, hrest⟩ := List.append_inj h hframe
  have hsome := unframe_frame m
  rw [hm, unframe_frame] at hsome
  exact ⟨(Option.some.inj hsome).symm, hrest⟩

/-- The front of what the sample cipher makes: passphrase, salt and nonce. -/
def sampleHeader (key : String × ByteArr 16) (nonce : ByteArr 12) : Bytes :=
  frame (Text.encode key.1.toList) ++ (frame key.2.1 ++ frame nonce.1)

/-- An instance to apply results at: a key is the passphrase and the salt, and what is
    encrypted names them and the nonce. -/
def SealCrypto.sample : SealCrypto where
  Key := String × ByteArr 16
  pbkdf2Key w salt := (w, salt)
  encrypt key nonce m := .ok (sampleHeader key nonce ++ frame m)
  decrypt key nonce ct :=
    if (sampleHeader key nonce).isPrefixOf ct then
      match unframe (ct.drop (sampleHeader key nonce).length) with
      | some m => .ok m
      | none => .error "aead::Error"
    else .error "aead::Error"

def zeroSalt : ByteArr 16 := ⟨List.replicate 16 0, List.length_replicate⟩

def zeroNonce : ByteArr 12 := ⟨List.replicate 12 0, List.length_replicate⟩

/-- `hold-key`, sealed by software. -/
def holdKeyFiles : SealedFiles where
  sealedPub := none
  sealedPriv := none
  sealedBin := some (sealBlob zeroSalt zeroNonce
    (sampleHeader ("correct", zeroSalt) zeroNonce ++ frame [0x6b]))
  metaJson := some (metaBytes External.sample
    ⟨.software, "hold-key", "1970-01-01T00:00:00+00:00", none⟩)

/-- No TPM. -/
def Tpm2Tools.none : Tpm2Tools where
  available := false
  create _ _ files := ((files.sealedPub, files.sealedPriv), .error "tpm2_createprimary")
  release _ _ _ := .error "tpm2_createprimary"

end Maranode.Attestation
