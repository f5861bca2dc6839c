/-
  Maranode.Common.Baseline

  `baseline.rs`: the outputs a model gave when its baseline was signed.

  Like an approval token, a baseline names its signer's public key and is verified under it,
  and what is signed is written from the fields that were read, not from the file.
-/
import Maranode.Common.Approval

namespace Maranode.Common

open Lib Lib.Json

structure TestVector where
  prompt : String
  temperature : F32
  seed : UInt64
  maxTokens : UInt32
  expectedSha256 : String

structure Baseline where
  schemaVersion : UInt32
  modelSha256 : String
  modelId : String
  createdAt : DateTime
  vectors : List TestVector
  maxMismatches : UInt64
  signerPubkey : String
  signature : String

variable (X : External) (E : Ed25519)

/-- `output_sha256`. -/
def outputSha256 (text : String) : String := X.sha256 (Text.encode text.toList)

def TestVector.codec : Codec X.readF32 TestVector where
  enc S v := .obj (S.members [
    ("prompt", X.str.enc S v.prompt),
    ("temperature", X.float.enc S v.temperature),
    ("seed", X.u64.enc S v.seed),
    ("max_tokens", X.u32.enc S v.maxTokens),
    ("expected_sha256", X.str.enc S v.expectedSha256)])
  dec v :=
    (structMembers ["prompt", "temperature", "seed", "max_tokens", "expected_sha256"] 5 v).bind
      fun fs =>
        TestVector.mk <$> X.str.field "prompt" fs
          <*> X.float.field "temperature" fs
          <*> X.u64.field "seed" fs
          <*> X.u32.field "max_tokens" fs
          <*> X.str.field "expected_sha256" fs
  dec_enc S v := by
    simp [structMembers, Codec.field, S.occ_members]
  ne_null _ _ := nofun

namespace Baseline

/-! ## Signing and verifying -/

/-- The fields of a `SignPayload`. -/
def payloadMembers (S : Serializer X.readF32) (b : Baseline) : List (String × Value) :=
  [("schema_version", X.u32.enc S b.schemaVersion),
    ("model_sha256", X.str.enc S b.modelSha256),
    ("model_id", X.str.enc S b.modelId),
    ("created_at", X.dateTime.enc S b.createdAt),
    ("vectors", (Codec.list (TestVector.codec X)).enc S b.vectors),
    ("max_mismatches", X.u64.enc S b.maxMismatches),
    ("signer_pubkey", X.str.enc S b.signerPubkey)]

/-- `serde_json::to_vec` of a `SignPayload`. -/
def signPayload (b : Baseline) : Bytes := toVec (.obj (payloadMembers X X.text b))

/-- `Baseline::sign`. -/
def sign (b : Baseline) (key : ByteArr 32) : Baseline :=
  let b := { b with signerPubkey := String.ofList (Base64.encode (E.verifyingKey key).1) }
  { b with signature := String.ofList (Base64.encode (E.sign key (b.signPayload X)).1) }

variable (errs : ApprovalToken.Errors)

/-- `Baseline::verify`. -/
def verify (b : Baseline) : Except String Unit :=
  match Base64.decode b.signerPubkey.toList with
  | none => .error (errs.base64 b.signerPubkey)
  | some pubkeyBytes =>
      match ByteArr.ofBytes 32 pubkeyBytes with
      | none => .error "baseline pubkey wrong length"
      | some vk =>
          if !E.isPoint vk then .error (errs.publicKey vk)
          else
            match Base64.decode b.signature.toList with
            | none => .error (errs.base64 b.signature)
            | some sigBytes =>
                match ByteArr.ofBytes 64 sigBytes with
                | none => .error "baseline signature wrong length"
                | some sig =>
                    if E.verify vk (b.signPayload X) sig then .ok ()
                    else .error s!"baseline signature invalid: {errs.signature}"

/-- The baseline passes the check that its own key is made for. -/
def SelfSigned (b : Baseline) : Prop :=
  ∃ (vk : ByteArr 32) (sig : ByteArr 64), Base64.decode b.signerPubkey.toList = some vk.1 ∧
    E.isPoint vk = true ∧ Base64.decode b.signature.toList = some sig.1 ∧
    E.verify vk (b.signPayload X) sig = true

variable {X E errs} {b : Baseline}

theorem verify_eq_ok : b.verify X E errs = .ok () ↔ b.SelfSigned X E := by
  constructor
  · intro h
    rw [verify] at h
    split at h
    · cases h
    · next pubkeyBytes hpubkey =>
        split at h
        · cases h
        · next vk hvk =>
            split at h
            · cases h
            · next hpoint =>
                split at h
                · cases h
                · next sigBytes hsigBytes =>
                    split at h
                    · cases h
                    · next sig hsig =>
                        split at h
                        · next hverify =>
                            rw [Bool.not_eq_true', Bool.not_eq_false] at hpoint
                            refine ⟨vk, sig, ?_, hpoint, ?_, hverify⟩
                            · rw [hpubkey, ByteArr.ofBytes_eq_some hvk]
                            · rw [hsigBytes, ByteArr.ofBytes_eq_some hsig]
                        · cases h
  · rintro ⟨vk, sig, hvk, hpoint, hsig, hverify⟩
    simp only [verify, hvk, ByteArr.ofBytes_val, hpoint, Bool.not_true, hsig, hverify, if_true,
      Bool.false_eq_true, if_false]

/-- What `sign` makes passes the check. -/
theorem selfSigned_sign (b : Baseline) (key : ByteArr 32) : (b.sign X E key).SelfSigned X E := by
  refine ⟨E.verifyingKey key, E.sign key ((b.sign X E key).signPayload X), ?_,
    E.isPoint_verifyingKey key, ?_, E.verify_sign key _⟩
  · rw [sign, String.toList_ofList, Base64.decode_encode]
  · rw [sign, String.toList_ofList, Base64.decode_encode]
    rfl

/-! ## Files -/

variable (X)

def names : List String :=
  ["schema_version", "model_sha256", "model_id", "created_at", "vectors", "max_mismatches",
    "signer_pubkey", "signature"]

def codec : Codec X.readF32 Baseline where
  enc S b := .obj (S.members (payloadMembers X S b ++ [("signature", X.str.enc S b.signature)]))
  dec v := (structMembers names 8 v).bind fun fs =>
    Baseline.mk <$> X.u32.field "schema_version" fs
      <*> X.str.field "model_sha256" fs
      <*> X.str.field "model_id" fs
      <*> X.dateTime.field "created_at" fs
      <*> (Codec.list (TestVector.codec X)).field "vectors" fs
      <*> X.u64.field "max_mismatches" fs
      <*> X.str.field "signer_pubkey" fs
      <*> X.str.field "signature" fs
  dec_enc S b := by
    have hnodup : ((payloadMembers X S b ++ [("signature", X.str.enc S b.signature)]).map
        Prod.fst).Nodup := (by decide : names.Nodup)
    simp only [structMembers, Option.bind_some, Codec.field, S.occ_members _ _ hnodup]
    simp [payloadMembers]
  ne_null _ _ := nofun

/-- `serde_json::from_slice`. -/
def fromSlice (bytes : Bytes) : Option Baseline := (ofSlice bytes).bind (codec X).dec

/-- `serde_json::to_vec_pretty`. -/
def toVecPretty (b : Baseline) : Bytes := Json.toVecPretty ((codec X).enc X.text b)

theorem fromSlice_toVecPretty (b : Baseline) : fromSlice X (b.toVecPretty X) = some b := by
  rw [fromSlice, toVecPretty, ofSlice_toVecPretty, Option.bind_some, (codec X).dec_enc]

/-- The payload has every field but the signature. -/
theorem eq_of_signPayload {b b' : Baseline} (h : b.signPayload X = b'.signPayload X) :
    { b with signature := b'.signature } = b' := by
  have hvalue : Value.obj (payloadMembers X X.text b) = .obj (payloadMembers X X.text b') := by
    have hparse := ofSlice_toVec (.obj (payloadMembers X X.text b))
    rw [← signPayload, h, signPayload, ofSlice_toVec] at hparse
    exact (Option.some.inj hparse).symm
  simp only [payloadMembers, Value.obj.injEq, List.cons.injEq, Prod.mk.injEq, true_and,
    and_true] at hvalue
  obtain ⟨hschema, hsha, hid, hcreated, hvectors, hmax, hpub⟩ := hvalue
  cases b
  cases b'
  simp only [mk.injEq, and_true]
  exact ⟨Codec.enc_injective _ _ hschema, Codec.enc_injective _ _ hsha,
    Codec.enc_injective _ _ hid, Codec.enc_injective _ _ hcreated,
    Codec.enc_injective _ _ hvectors, Codec.enc_injective _ _ hmax, Codec.enc_injective _ _ hpub⟩

end Baseline

end Maranode.Common
