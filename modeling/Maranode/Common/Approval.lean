/-
  Maranode.Common.Approval

  `approval.rs`: the tokens that approve a model.

  A token names its signer's public key, and it is verified under that key.  What it says of
  the model is signed with the rest, and not looked at when it is verified.
-/
import Maranode.Common.Ed25519
import Maranode.Common.Receipt
import Maranode.Lib.Path

namespace Maranode.Common

open Lib Lib.Json

variable (X : External) (E : Ed25519)

structure ApprovalToken where
  tokenId : String
  modelId : String
  modelSha256 : String
  approvedBy : String
  approvedAt : DateTime
  expiresAt : Option DateTime
  note : Option String
  signerPubkey : String
  signature : String

namespace ApprovalToken

/-! ## Signing -/

/-- `serde_json::to_vec` of a `SignPayload`. -/
def signPayload (t : ApprovalToken) : Bytes :=
  Text.encode (render (.obj [
    ("token_id", .str t.tokenId),
    ("model_id", .str t.modelId),
    ("model_sha256", .str t.modelSha256),
    ("approved_by", .str t.approvedBy),
    ("approved_at", .str (X.dateTimeText t.approvedAt)),
    ("expires_at", t.expiresAt.elim .null fun at_ => .str (X.dateTimeText at_)),
    ("note", t.note.elim .null .str),
    ("signer_pubkey", .str t.signerPubkey)]))

/-- `ApprovalToken::sign`. -/
def sign (t : ApprovalToken) (key : ByteArr 32) : ApprovalToken :=
  let t := { t with signerPubkey := String.ofList (Base64.encode (E.verifyingKey key).1) }
  { t with signature := String.ofList (Base64.encode (E.sign key (t.signPayload X)).1) }

/-! ## Verifying -/

/-- What the crates say of what they refuse, and how they show a time. -/
structure Errors where
  json : Bytes → String
  base64 : String → String
  publicKey : ByteArr 32 → String
  signature : String
  time : DateTime → String

variable (errs : Errors)

/-- `ApprovalToken::verify`, at `now`. -/
def verify (t : ApprovalToken) (now : DateTime) : Except String Unit :=
  match Base64.decode t.signerPubkey.toList with
  | none => .error (errs.base64 t.signerPubkey)
  | some pubkeyBytes =>
      match ByteArr.ofBytes 32 pubkeyBytes with
      | none => .error "approval token pubkey wrong length"
      | some vk =>
          if !E.isPoint vk then .error (errs.publicKey vk)
          else
            match Base64.decode t.signature.toList with
            | none => .error (errs.base64 t.signature)
            | some sigBytes =>
                match ByteArr.ofBytes 64 sigBytes with
                | none => .error "approval token signature wrong length"
                | some sig =>
                    if !E.verify vk (t.signPayload X) sig then .error errs.signature
                    else
                      match t.expiresAt with
                      | some exp =>
                          if exp < now then .error s!"approval token expired at {errs.time exp}"
                          else .ok ()
                      | none => .ok ()

/-- The signature is one under the key. -/
def SignedUnder (t : ApprovalToken) (vk : ByteArr 32) : Prop :=
  ∃ sig : ByteArr 64, Base64.decode t.signature.toList = some sig.1 ∧
    E.verify vk (t.signPayload X) sig = true

/-- The time of the token is not over. -/
def Unexpired (t : ApprovalToken) (now : DateTime) : Prop :=
  ∀ exp, t.expiresAt = some exp → now ≤ exp

/-- The token passes the check that its own key is made for. -/
def SelfSigned (t : ApprovalToken) (now : DateTime) : Prop :=
  ∃ vk : ByteArr 32, Base64.decode t.signerPubkey.toList = some vk.1 ∧ E.isPoint vk = true ∧
    t.SignedUnder X E vk ∧ t.Unexpired now

variable {X E errs} {t : ApprovalToken} {now : DateTime}

theorem unexpired_of_ge {exp : DateTime} (hexp : t.expiresAt = some exp) (h : ¬ exp < now) :
    t.Unexpired now := by
  intro exp' hexp'
  rw [hexp] at hexp'
  rw [← Option.some.inj hexp']
  exact Int.not_lt.mp h

theorem selfSigned_of_verify (h : t.verify X E errs now = .ok ()) : t.SelfSigned X E now := by
  rw [verify] at h
  -- Six checks, each of which has passed; the expiry is the last of them.
  split at h
  · cases h
  · next pubkeyBytes hpubkey =>
      split at h
      · cases h
      · next vk hvk =>
          split at h
          · cases h
          · next hpoint =>
              split at h
              · cases h
              · next sigBytes hsigBytes =>
                  split at h
                  · cases h
                  · next sig hsig =>
                      split at h
                      · cases h
                      · next hverify =>
                          have hunexpired : t.Unexpired now := by
                            -- Without an expiry there is nothing to be past.
                            split at h
                            · next exp hexp =>
                                split at h
                                · cases h
                                · next hle => exact unexpired_of_ge hexp hle
                            · next hnone =>
                                intro exp hexp
                                rw [hnone] at hexp
                                cases hexp
                          rw [Bool.not_eq_true', Bool.not_eq_false] at hpoint hverify
                          refine ⟨vk, ?_, hpoint, ⟨sig, ?_, hverify⟩, hunexpired⟩
                          · rw [hpubkey, ByteArr.ofBytes_eq_some hvk]
                          · rw [hsigBytes, ByteArr.ofBytes_eq_some hsig]

/-- A token is verified exactly when it passes the check under the key it names. -/
theorem verify_eq_ok : t.verify X E errs now = .ok () ↔ t.SelfSigned X E now := by
  refine ⟨selfSigned_of_verify, ?_⟩
  rintro ⟨vk, hvk, hpoint, ⟨sig, hsig, hverify⟩, hunexpired⟩
  rw [verify, hvk]
  dsimp only
  rw [ByteArr.ofBytes_val]
  dsimp only
  rw [hpoint, hsig, Bool.not_true, if_neg Bool.false_ne_true]
  dsimp only
  rw [ByteArr.ofBytes_val]
  dsimp only
  rw [hverify, Bool.not_true, if_neg Bool.false_ne_true]
  cases hexp : t.expiresAt with
  | none => rfl
  | some exp =>
      dsimp only
      rw [if_neg (Int.not_lt.mpr (hunexpired exp hexp))]

theorem decode_signature_sign (t : ApprovalToken) (key : ByteArr 32) :
    Base64.decode (t.sign X E key).signature.toList =
      some (E.sign key ((t.sign X E key).signPayload X)).1 := by
  rw [sign, String.toList_ofList, Base64.decode_encode]
  rfl

theorem signedUnder_sign (t : ApprovalToken) (key : ByteArr 32) :
    (t.sign X E key).SignedUnder X E (E.verifyingKey key) :=
  ⟨_, decode_signature_sign t key, E.verify_sign key _⟩

/-- What `sign` makes passes the check. -/
theorem selfSigned_sign (t : ApprovalToken) (key : ByteArr 32) (hunexpired : t.Unexpired now) :
    (t.sign X E key).SelfSigned X E now := by
  refine ⟨E.verifyingKey key, ?_, E.isPoint_verifyingKey key, signedUnder_sign t key,
    hunexpired⟩
  rw [sign, String.toList_ofList, Base64.decode_encode]

/-! ## Files -/

variable (X)

def names : List String :=
  ["token_id", "model_id", "model_sha256", "approved_by", "approved_at", "expires_at", "note",
    "signer_pubkey", "signature"]

def members (S : Serializer X.readF32) (t : ApprovalToken) : List (String × Value) :=
  [("token_id", X.str.enc S t.tokenId),
    ("model_id", X.str.enc S t.modelId),
    ("model_sha256", X.str.enc S t.modelSha256),
    ("approved_by", X.str.enc S t.approvedBy),
    ("approved_at", X.dateTime.enc S t.approvedAt)] ++
  optMember "expires_at" (t.expiresAt.map (X.dateTime.enc S)) ++
  optMember "note" (t.note.map (X.str.enc S)) ++
  [("signer_pubkey", X.str.enc S t.signerPubkey),
    ("signature", X.str.enc S t.signature)]

theorem nodup_members (S : Serializer X.readF32) (t : ApprovalToken) :
    ((members X S t).map Prod.fst).Nodup := by
  refine List.Nodup.sublist ?_ (show names.Nodup by decide)
  simp only [members, List.map_append]
  exact (((List.Sublist.refl _).append (InferenceReceipt.optMember_fst_sublist ..)).append
    (InferenceReceipt.optMember_fst_sublist ..)).append (List.Sublist.refl _)

def codec : Codec X.readF32 ApprovalToken where
  enc S t := .obj (S.members (members X S t))
  dec v := (structMembers names 9 v).bind fun fs =>
    ApprovalToken.mk <$> X.str.field "token_id" fs
      <*> X.str.field "model_id" fs
      <*> X.str.field "model_sha256" fs
      <*> X.str.field "approved_by" fs
      <*> X.dateTime.field "approved_at" fs
      <*> X.dateTime.fieldOpt "expires_at" fs
      <*> X.str.fieldOpt "note" fs
      <*> X.str.field "signer_pubkey" fs
      <*> X.str.field "signature" fs
  dec_enc S t := by
    simp only [structMembers, Option.bind_some, Codec.field, Codec.fieldOpt,
      S.occ_members _ _ (nodup_members X S t)]
    simp [members]
  ne_null _ _ := nofun

/-- `serde_json::from_slice`. -/
def fromSlice (bytes : Bytes) : Option ApprovalToken := (ofSlice bytes).bind (codec X).dec

/-- `serde_json::to_vec_pretty`. -/
def toVecPretty (t : ApprovalToken) : Bytes := Json.toVecPretty ((codec X).enc X.text t)

theorem fromSlice_toVecPretty (t : ApprovalToken) : fromSlice X (t.toVecPretty X) = some t := by
  rw [fromSlice, toVecPretty, ofSlice_toVecPretty, Option.bind_some, (codec X).dec_enc]

def tokenPath (tokensDir : Path) (modelSha256 : String) : Path :=
  Path.join tokensDir (modelSha256.toList ++ ".mrn-token".toList)

end ApprovalToken

end Maranode.Common
