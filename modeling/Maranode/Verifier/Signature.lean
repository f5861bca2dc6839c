/-
  Maranode.Verifier.Signature

  `maranode-verifier`: the offline check of a receipt's signature.

  The verifier parses the receipt and serializes it again without its signature.  As
  serde reads back what it wrote, these are the bytes that were signed; as it writes no
  two receipts alike, they are the bytes of no other receipt.
-/
import Maranode.Api.Chat

namespace Maranode.Verifier

open Lib Lib.Json Maranode.Common

variable (X : External) (E : Ed25519)

/-! ## verify_signature -/

/-- What the crates say of what they refuse: hex, a signature, a public key. -/
structure CrateErrors where
  hex : String → String
  signature : Bytes → String
  publicKey : ByteArr 32 → String

variable (errs : CrateErrors)

def verifySignature (receipt : InferenceReceipt) : Except String Unit :=
  match receipt.signature with
  | none => .error "receipt has no signature field"
  | some sigHex =>
      match Hex.decode sigHex.toList with
      | none => .error ("invalid signature hex: " ++ errs.hex sigHex)
      | some sigBytes =>
          match ByteArr.ofBytes 64 sigBytes with
          | none => .error ("invalid signature: " ++ errs.signature sigBytes)
          | some sig =>
              match Hex.decode receipt.signingKeyId.toList with
              | none => .error ("invalid key hex: " ++ errs.hex receipt.signingKeyId)
              | some keyBytes =>
                  match ByteArr.ofBytes 32 keyBytes with
                  | none => .error "signing_key_id must be 32 bytes (64 hex chars)"
                  | some key =>
                      if E.isPoint key then
                        if E.verify key (receipt.canonicalBytes X) sig then .ok ()
                        else .error "signature mismatch"
                      else .error ("invalid public key: " ++ errs.publicKey key)

variable {X E errs} {receipt r : InferenceReceipt}

/-- What an accepted receipt has. -/
theorem of_verifySignature (h : verifySignature X E errs receipt = .ok ()) :
    ∃ (sigHex : String) (sig : ByteArr 64) (key : ByteArr 32),
      receipt.signature = some sigHex ∧ Hex.decode sigHex.toList = some sig.1 ∧
      Hex.decode receipt.signingKeyId.toList = some key.1 ∧
      E.verify key (receipt.canonicalBytes X) sig = true := by
  rw [verifySignature] at h
  split at h
  · cases h
  · next sigHex hsigHex =>
      split at h
      · cases h
      · next sigBytes hsigBytes =>
          split at h
          · cases h
          · next sig hsig =>
              split at h
              · cases h
              · next keyBytes hkeyBytes =>
                  split at h
                  · cases h
                  · next key hkey =>
                      split at h
                      · split at h
                        · next hverify =>
                            refine ⟨sigHex, sig, key, hsigHex, ?_, ?_, hverify⟩
                            · rw [hsigBytes, ByteArr.ofBytes_eq_some hsig]
                            · rw [hkeyBytes, ByteArr.ofBytes_eq_some hkey]
                        · cases h
                      · cases h

theorem verifySignature_eq_ok {sigHex : String} {sig : ByteArr 64} {key : ByteArr 32}
    (hsignature : receipt.signature = some sigHex) (hsig : Hex.decode sigHex.toList = some sig.1)
    (hkey : Hex.decode receipt.signingKeyId.toList = some key.1) (hpoint : E.isPoint key = true)
    (hverify : E.verify key (receipt.canonicalBytes X) sig = true) :
    verifySignature X E errs receipt = .ok () := by
  rw [verifySignature, hsignature]
  dsimp only
  rw [hsig]
  dsimp only
  rw [ByteArr.ofBytes_val, hkey]
  dsimp only
  rw [ByteArr.ofBytes_val]
  dsimp only
  rw [if_pos hpoint, if_pos hverify]

/-! ## What build_receipt signs -/

variable (X E) in
/-- The receipt with the key's name and its signature. -/
def signedBy (u : InferenceReceipt) (sk : ByteArr 32) : InferenceReceipt :=
  let receipt :=
    { u with signingKeyId := String.ofList (Hex.encode (E.verifyingKey sk).1), signature := none }
  { receipt with
    signature := some (String.ofList (Hex.encode (E.sign sk (receipt.canonicalBytes X)).1)) }

variable {u : InferenceReceipt} {sk : ByteArr 32}

theorem buildReceipt_eq (c : Api.Chat) (env : Api.ChatEnv)
    (resp : Inference.InferenceResponse) :
    c.buildReceipt X E env resp =
      env.signingKey.map fun sk => signedBy X E (c.unsigned X E env sk resp) sk := rfl

/-- The signature is one of the bytes the verifier makes. -/
theorem decode_signature_signedBy : ∃ sigHex,
    (signedBy X E u sk).signature = some sigHex ∧
    Hex.decode sigHex.toList = some (E.sign sk ((signedBy X E u sk).canonicalBytes X)).1 := by
  refine ⟨_, rfl, ?_⟩
  rw [String.toList_ofList, Hex.decode_encode]
  rfl

theorem decode_signingKeyId_signedBy :
    Hex.decode (signedBy X E u sk).signingKeyId.toList = some (E.verifyingKey sk).1 := by
  have hname : (signedBy X E u sk).signingKeyId
      = String.ofList (Hex.encode (E.verifyingKey sk).1) := rfl
  rw [hname, String.toList_ofList, Hex.decode_encode]

theorem verifySignature_signedBy :
    verifySignature X E errs (signedBy X E u sk) = .ok () := by
  obtain ⟨sigHex, hsignature, hsig⟩ := @decode_signature_signedBy X E u sk
  exact verifySignature_eq_ok hsignature hsig decode_signingKeyId_signedBy
    (E.isPoint_verifyingKey sk) (E.verify_sign sk _)

/-- The same signature is accepted with the same receipt only. -/
theorem eq_of_verifySignature
    (hbinds : E.BindsAll sk ((signedBy X E u sk).canonicalBytes X))
    (hsame : r.signature = (signedBy X E u sk).signature)
    (h : verifySignature X E errs r = .ok ()) : r = signedBy X E u sk := by
  obtain ⟨sigHex, sig, key, hsignature, hsig, -, hverify⟩ := of_verifySignature h
  obtain ⟨sigHex', hsignature', hsig'⟩ := @decode_signature_signedBy X E u sk
  have hhex : sigHex = sigHex' := by
    rw [hsame, hsignature'] at hsignature
    exact (Option.some.inj hsignature).symm
  have hbytes : sig = E.sign sk ((signedBy X E u sk).canonicalBytes X) := by
    rw [hhex, hsig'] at hsig
    exact Subtype.ext (Option.some.inj hsig).symm
  rw [hbytes] at hverify
  have hcanonical := (hbinds key _ hverify).2
  rw [InferenceReceipt.canonicalBytes_eq_iff] at hcanonical
  have hrestore : ∀ x : InferenceReceipt,
      { ({ x with signature := none } : InferenceReceipt) with signature := x.signature } = x :=
    fun _ => rfl
  rw [← hrestore r, hcanonical, hsame, hrestore]

/-- **Receipts.**  What `build_receipt` signs is accepted after any way through JSON; no
    two receipts have the same canonical bytes, unless they differ in their signature; and
    the signature is refused with every other receipt. -/
theorem receipt_verifies_alone (errs : CrateErrors) (u : InferenceReceipt) (sk : ByteArr 32)
    (hr : r = signedBy X E u sk) :
    (∀ (c : Api.Chat) env resp, c.buildReceipt X E env resp =
      env.signingKey.map fun sk => signedBy X E (c.unsigned X E env sk resp) sk) ∧
    (∀ (S : Serializer X.readF32) (json : Text),
      json = render ((InferenceReceipt.codec X).enc S r) ∨
        json = pretty 0 ((InferenceReceipt.codec X).enc S r) →
      ∃ r', InferenceReceipt.fromStr X json = some r' ∧
        r'.canonicalBytes X = r.canonicalBytes X ∧ verifySignature X E errs r' = .ok ()) ∧
    (∀ r₁ r₂ : InferenceReceipt, r₁.canonicalBytes X = r₂.canonicalBytes X ↔
      { r₁ with signature := none } = { r₂ with signature := none }) ∧
    (E.BindsAll sk (r.canonicalBytes X) → ∀ r' : InferenceReceipt,
      r'.signature = r.signature → r' ≠ r → ∃ e, verifySignature X E errs r' = .error e) := by
  subst hr
  refine ⟨fun c env resp => buildReceipt_eq c env resp, ?_,
    fun _ _ => InferenceReceipt.canonicalBytes_eq_iff X, ?_⟩
  · rintro S json (rfl | rfl)
    · exact ⟨_, InferenceReceipt.fromStr_render X S _, rfl, verifySignature_signedBy⟩
    · exact ⟨_, InferenceReceipt.fromStr_pretty X S _, rfl, verifySignature_signedBy⟩
  · intro hbinds r' hsame hne
    cases hverify : verifySignature X E errs r' with
    | error e => exact ⟨e, rfl⟩
    | ok _ => exact absurd (eq_of_verifySignature hbinds hsame hverify) hne

/-! ## A receipt -/

def nilUuidText : String := "00000000-0000-0000-0000-000000000000"

/-- The nil UUID as the crate writes it, and unary for every other one. -/
def receiptUuidText (u : Uuid) : String := if u = 0 then nilUuidText else unary u.toNat

def receiptUuidOfText (s : String) : Option Uuid :=
  if s = nilUuidText then some 0 else (ofUnary s).map fun n => BitVec.ofNat 128 n.toNat

theorem receiptUuid_roundTrip (u : Uuid) : receiptUuidOfText (receiptUuidText u) = some u := by
  rw [receiptUuidText]
  split_ifs with hzero
  · rw [receiptUuidOfText, if_pos rfl, hzero]
  · have hne : unary u.toNat ≠ nilUuidText := unary_ne (by decide) _
    rw [receiptUuidOfText, if_neg hne, ofUnary_unary, Option.map_some, Int.toNat_natCast,
      BitVec.ofNat_toNat, BitVec.setWidth_eq]

def zeroLit : NumLit := ⟨['0', '.', '0'], rfl⟩

/-- Zero as serde_json writes it, and the bits of every other number. -/
def receiptF32Lit (x : F32) : NumLit :=
  if x.1 = 0 then zeroLit else NumLit.ofNat x.1.toNat

def receiptReadF32 (l : NumLit) : Option F32 :=
  if l = zeroLit then some ⟨0, F32.finite_zero⟩ else sampleReadF32 l

theorem ofNat_ne_zeroLit (n : Nat) : NumLit.ofNat n ≠ zeroLit := by
  intro h
  have htext : Nat.toDigits 10 n = ['0', '.', '0'] := congrArg NumLit.text h
  have hdot : '.' ∈ Nat.toDigits 10 n := by
    rw [htext]
    decide
  exact absurd (Nat.isDigit_of_mem_toDigits (by decide) (by decide) hdot) (by decide)

theorem receiptF32_roundTrip (x : F32) : receiptReadF32 (receiptF32Lit x) = some x := by
  rw [receiptF32Lit]
  split_ifs with hzero
  · rw [receiptReadF32, if_pos rfl]
    exact congrArg some (Subtype.ext hzero.symm)
  · rw [receiptReadF32, if_neg (ofNat_ne_zeroLit _), sampleF32_roundTrip]

/-- An instance to apply the result at. -/
def receiptExternal : External :=
  { External.sample with
    uuidText := receiptUuidText
    uuidOfText := receiptUuidOfText
    uuid_roundTrip := receiptUuid_roundTrip
    f32Lit := receiptF32Lit
    f32ValueLit := receiptF32Lit
    readF32 := receiptReadF32
    f32_roundTrip := receiptF32_roundTrip
    f32Value_roundTrip := receiptF32_roundTrip }

/-- The receipt of a deterministic answer to `hi`. -/
def helloReceipt : InferenceReceipt where
  version := receiptVersion
  receiptId := 0
  requestId := "7d3e"
  timestamp := newYear
  modelId := "tiny:bytes"
  modelSha256 := "00"
  modelQuant := some "Q4_K_M"
  inputSha256 := "8f43"
  outputSha256 := "2689"
  decodeParams :=
    { temperature := some ⟨0, F32.finite_zero⟩
      topK := some 1
      maxTokens := some 16
      seed := some 0
      deterministic := true }
  tokensIn := 10
  tokensOut := 2
  signingKeyId := String.ofList (Hex.encode officerPub.1)
  tpmPcr := none
  env := { kernelBuildId := "llama-cpp-2", threadCount := 4, deviceClass := "cpu" }
  sources := []
  grounded := false
  signature := none

/-- What Ed25519 makes with the officer's key of its canonical bytes. -/
def helloSig : ByteArr 64 :=
  ⟨[0xa5, 0xd4, 0x7b, 0x45, 0x7d, 0x7f, 0x46, 0x30, 0xf1, 0xff, 0xee, 0xf0, 0x60, 0x36, 0xac, 0x49,
    0xa2, 0x30, 0x9f, 0x82, 0x46, 0xd5, 0xba, 0xc4, 0x63, 0x3e, 0xba, 0xca, 0x86, 0x6c, 0xef, 0x7a,
    0xaf, 0xa6, 0xd2, 0xc8, 0xfe, 0xdf, 0xa7, 0xe0, 0x3e, 0x39, 0x70, 0xf2, 0x18, 0xf5, 0x48, 0xd7,
    0x8e, 0x27, 0xb0, 0xf8, 0xbd, 0xc0, 0x6e, 0xcb, 0xca, 0x7f, 0xbe, 0xd6, 0x97, 0xa2, 0x19, 0x08],
    rfl⟩

theorem helloSig_uncommon : Uncommon helloSig := ⟨by decide, by decide⟩

def helloEd25519 : Ed25519 :=
  .strict (helloReceipt.canonicalBytes receiptExternal) helloSig helloSig_uncommon

def helloSigned : InferenceReceipt := signedBy receiptExternal helloEd25519 helloReceipt officerKey

theorem canonicalBytes_helloSigned :
    helloSigned.canonicalBytes receiptExternal = helloReceipt.canonicalBytes receiptExternal := by
  have hname : helloEd25519.verifyingKey officerKey = officerPub := strictPub_officerKey
  rw [InferenceReceipt.canonicalBytes, helloSigned, signedBy, hname]
  rfl

def sampleErrors : CrateErrors where
  hex _ := "Odd number of digits"
  signature _ := "signature error: expected 64 byte signature"
  publicKey _ := "signature error: Cannot decompress Edwards point"

/-- It is accepted after a way through JSON, and refused when it says that it is grounded. -/
theorem helloReceipt_verifies_alone :
    (∃ r', InferenceReceipt.fromStr receiptExternal
        (render ((InferenceReceipt.codec receiptExternal).enc receiptExternal.text helloSigned))
          = some r' ∧
      r'.canonicalBytes receiptExternal = helloSigned.canonicalBytes receiptExternal ∧
      verifySignature receiptExternal helloEd25519 sampleErrors r' = .ok ()) ∧
    ∃ e, verifySignature receiptExternal helloEd25519 sampleErrors
      { helloSigned with grounded := true } = .error e := by
  obtain ⟨-, hread, -, hrefused⟩ := @receipt_verifies_alone receiptExternal helloEd25519
    helloSigned sampleErrors helloReceipt officerKey rfl
  have hbinds :
      helloEd25519.BindsAll officerKey (helloSigned.canonicalBytes receiptExternal) := by
    rw [canonicalBytes_helloSigned]
    exact Ed25519.strict_bindsAll _ helloSig helloSig_uncommon
  have hne : ({ helloSigned with grounded := true } : InferenceReceipt) ≠ helloSigned := by
    intro heq
    have hgrounded : true = helloReceipt.grounded := congrArg InferenceReceipt.grounded heq
    exact Bool.noConfusion hgrounded
  exact ⟨hread receiptExternal.text _ (.inl rfl), hrefused hbinds _ rfl hne⟩

end Maranode.Verifier
