/-
  Maranode.Api.Attestation

  `routes/attestation.rs`: reports that are signed together with a nonce of the caller's, and
  the check of such a signature.

  What is signed is the hash of the report and the nonce, one after the other, and the
  check signs off on whatever two texts make the same one.  The hash of a report is 64
  characters long, which the check does not ask for.
-/
import Maranode.Api.UserCtx
import Maranode.Attestation.Report

namespace Maranode

/-- `ed25519_dalek` with its strict check, which says why it refuses. -/
structure Ed25519Strict extends Ed25519 where
  /-- `VerifyingKey::verify_strict`. -/
  verifyStrict : ByteArr 32 → Lib.Bytes → ByteArr 64 → Except String Unit
  verifyStrict_sign : ∀ k m, verifyStrict (verifyingKey k) m (sign k m) = .ok ()

/-- The signature passes the strict check for one message only. -/
def Ed25519Strict.BindsStrict (E : Ed25519Strict) (k : ByteArr 32) (m : Lib.Bytes) : Prop :=
  ∀ m', E.verifyStrict (E.verifyingKey k) m' (E.sign k m) = .ok () → m' = m

namespace Api

open Lib Attestation

variable (X : External) (E : Ed25519Strict)

/-! ## Reports -/

/-- `bundle_signing.key`, and what happens when it has to be made. -/
structure BundleKey where
  file : Option (Except String Bytes)
  generated : ByteArr 32
  saveFails : Option String

/-- `sign::load_or_create`. -/
def BundleKey.loadOrCreate (key : BundleKey) : Except String (ByteArr 32) :=
  match key.file with
  | some (.error e) => .error e
  | some (.ok raw) =>
      match ByteArr.ofBytes 32 raw with
      | some bytes => .ok bytes
      | none => .error "bundle signing key has wrong length"
  | none =>
      match key.saveFails with
      | some e => .error e
      | none => .ok key.generated

/-- What is signed, and the HMAC is made of. -/
def withNonce (text nonce : String) : Bytes := Text.encode (text ++ nonce).toList

/-- `hex::encode(sign::sign(..))`. -/
def signHex (sk : ByteArr 32) (text nonce : String) : String :=
  String.ofList (Hex.encode (E.sign sk (withNonce text nonce)).1)

def pubkeyHex (sk : ByteArr 32) : String := String.ofList (Hex.encode (E.verifyingKey sk).1)

/-- What the two endpoints find: the signing key, the audit key, and the measurements. -/
structure AttestEnv where
  signingKey : BundleKey
  auditKey : Option Bytes
  measured : Measured
  tee : TeeType

structure SignedReport where
  report : AttestationReport
  nonce : String
  ed25519Sig : Option String
  ed25519Pubkey : Option String
  hmac : String

def getReport (env : AttestEnv) (nonce : Option String) : ApiResult SignedReport :=
  match AttestationReport.generate X env.measured with
  | .error e => .error (.internal s!"attestation failed: {e}")
  | .ok report =>
      let nonce := nonce.getD ""
      let sk := env.signingKey.loadOrCreate.toOption
      .ok
        { report
          nonce
          ed25519Sig := sk.map fun sk => signHex E sk (report.reportSha256.getD "") nonce
          ed25519Pubkey := sk.map (pubkeyHex E)
          hmac :=
            match env.auditKey with
            | some key => Audit.compute X key (withNonce (String.ofList (report.toText X)) nonce)
            | none => "" }

structure PublicKeyResp where
  algorithm : String
  publicKeyHex : String
  usage : String

def getPublicKey (env : AttestEnv) : ApiResult PublicKeyResp :=
  match env.signingKey.loadOrCreate with
  | .error e => .error (.internal e)
  | .ok sk =>
      .ok
        { algorithm := "ed25519"
          publicKeyHex := pubkeyHex E sk
          usage :=
            "verify ed25519_sig in /v1/attestation/report: sign(report_sha256 || nonce)" }

structure TeeReportResp where
  teeType : String
  reportHash : String
  measurement : String
  isSynthetic : Bool
  nonce : String
  ed25519Sig : Option String

def getTee (env : AttestEnv) (nonce : Option String) : TeeReportResp :=
  let nonce := nonce.getD ""
  let report := getTeeReport env.tee env.measured.binary (Text.encode nonce.toList)
  { teeType := report.teeType.display
    reportHash := report.reportHash
    measurement := report.measurement
    isSynthetic := report.isSynthetic
    nonce
    ed25519Sig := env.signingKey.loadOrCreate.toOption.map fun sk =>
      signHex E sk report.reportHash nonce }

/-! ## Checking a signature -/

structure VerifyTeeReq where
  reportHash : String
  nonce : String
  ed25519Sig : String
  ed25519Pubkey : String

structure VerifyTeeResp where
  valid : Bool
  reason : Option String

def verifyTee (req : VerifyTeeReq) : ApiResult VerifyTeeResp :=
  match Hex.decode req.ed25519Pubkey.toList with
  | none => .error (.badRequest "invalid pubkey hex")
  | some pubkey =>
      match ByteArr.ofBytes 32 pubkey with
      | none => .error (.badRequest "pubkey must be 32 bytes")
      | some vk =>
          if E.isPoint vk then
            match Hex.decode req.ed25519Sig.toList with
            | none => .error (.badRequest "invalid signature hex")
            | some sigBytes =>
                match ByteArr.ofBytes 64 sigBytes with
                | none => .error (.badRequest "signature must be 64 bytes")
                | some sig =>
                    match E.verifyStrict vk (withNonce req.reportHash req.nonce) sig with
                    | .ok _ => .ok ⟨true, none⟩
                    | .error e => .ok ⟨false, some e⟩
          else .error (.badRequest "invalid ed25519 pubkey")

/-- The answer is that the signature is valid. -/
def Valid (req : VerifyTeeReq) : Prop := verifyTee E req = .ok ⟨true, none⟩

/-! ## What a signature is valid for -/

/-- An endpoint returned a report with this hash and nonce, signed with the key of the node. -/
inductive Returned (sk : ByteArr 32) : (hash nonce sig : String) → Prop where
  | report {env : AttestEnv} {query : Option String} {resp : SignedReport} {sig : String}
      (hresp : getReport X E env query = .ok resp)
      (hkey : env.signingKey.loadOrCreate = .ok sk) (hsig : resp.ed25519Sig = some sig) :
      Returned sk (resp.report.reportSha256.getD "") resp.nonce sig
  | tee {env : AttestEnv} {query : Option String} {sig : String}
      (hkey : env.signingKey.loadOrCreate = .ok sk)
      (hsig : (getTee E env query).ed25519Sig = some sig) :
      Returned sk (getTee E env query).reportHash (getTee E env query).nonce sig

variable {X E} {sk : ByteArr 32} {hash nonce sig : String}

/-- A report that was returned is known by 64 characters, and its signature is of these and
    the nonce. -/
theorem Returned.signed (h : Returned X E sk hash nonce sig) :
    hash.length = 64 ∧ sig = signHex E sk hash nonce := by
  cases h with
  | @report env query resp sig hresp hkey hsig =>
      rw [getReport] at hresp
      cases hgenerate : AttestationReport.generate X env.measured with
      | error e =>
          rw [hgenerate] at hresp
          cases hresp
      | ok report =>
          rw [hgenerate] at hresp
          obtain rfl := Except.ok.inj hresp
          obtain ⟨hash, hhash, hlen⟩ := AttestationReport.reportSha256_of_generate X hgenerate
          rw [hkey, hhash] at hsig
          rw [hhash]
          exact ⟨hlen, (Option.some.inj hsig).symm⟩
  | @tee env query sig hkey hsig =>
      rw [getTee, hkey] at hsig
      exact ⟨length_reportHash _ _ _, (Option.some.inj hsig).symm⟩

/-- With the key of the node and the signature of a message, the check comes down to the
    strict one. -/
theorem valid_iff {req : VerifyTeeReq} (hkey : req.ed25519Pubkey = pubkeyHex E sk)
    (hsig : req.ed25519Sig = signHex E sk hash nonce) :
    Valid E req ↔ E.verifyStrict (E.verifyingKey sk) (withNonce req.reportHash req.nonce)
      (E.sign sk (withNonce hash nonce)) = .ok () := by
  rw [Valid, verifyTee, hkey, hsig, pubkeyHex, signHex, String.toList_ofList, String.toList_ofList,
    Hex.decode_encode, Hex.decode_encode]
  dsimp only
  rw [ByteArr.ofBytes_val]
  dsimp only
  rw [if_pos (E.isPoint_verifyingKey sk), ByteArr.ofBytes_val]
  dsimp only
  cases E.verifyStrict (E.verifyingKey sk) (withNonce req.reportHash req.nonce)
      (E.sign sk (withNonce hash nonce)) with
  | error e => simp
  | ok u => simp

theorem withNonce_inj {a b a' b' : String} :
    withNonce a b = withNonce a' b' ↔ a ++ b = a' ++ b' := by
  constructor
  · intro h
    exact String.toList_injective (Text.encode_injective h)
  · intro h
    rw [withNonce, h, withNonce]

/-- A bound signature is valid for the texts that make what was signed. -/
theorem valid_iff_append (hbinds : E.BindsStrict sk (withNonce hash nonce)) {req : VerifyTeeReq}
    (hkey : req.ed25519Pubkey = pubkeyHex E sk) (hsig : req.ed25519Sig = signHex E sk hash nonce) :
    Valid E req ↔ req.reportHash ++ req.nonce = hash ++ nonce := by
  rw [valid_iff hkey hsig, ← withNonce_inj]
  refine ⟨hbinds _, fun hsame => ?_⟩
  rw [hsame]
  exact E.verifyStrict_sign sk _

/-- Two texts that are cut at the same place. -/
theorem eq_of_append_eq {a b a' b' : String} (h : a ++ b = a' ++ b') (hlen : a.length = a'.length) :
    a = a' ∧ b = b' := by
  have hlist := congrArg String.toList h
  rw [String.toList_append, String.toList_append] at hlist
  have hlens : a.toList.length = a'.toList.length := by
    rw [String.length_toList, String.length_toList, hlen]
  obtain ⟨ha, hb⟩ := List.append_inj hlist hlens
  exact ⟨String.toList_injective ha, String.toList_injective hb⟩

/-- **What a signature is valid for.**  A request with the signature of a report can only be
    answered with `valid` for that report and nonce where its hash is as long as the report's,
    or the two texts are not those of the report, cut elsewhere.  As no request has to be so,
    there is none of the reports whose signature is bound to it. -/
theorem signature_binds_iff (h : Returned X E sk hash nonce sig)
    (hbinds : E.BindsStrict sk (withNonce hash nonce)) :
    (∀ req : VerifyTeeReq, req.ed25519Pubkey = pubkeyHex E sk → req.ed25519Sig = sig →
      ((Valid E req → req.reportHash = hash ∧ req.nonce = nonce) ↔
        req.reportHash.length = hash.length ∨ req.reportHash ++ req.nonce ≠ hash ++ nonce)) ∧
    ¬ ∀ req : VerifyTeeReq, req.ed25519Pubkey = pubkeyHex E sk → req.ed25519Sig = sig →
      Valid E req → req.reportHash = hash ∧ req.nonce = nonce := by
  obtain ⟨hlen, rfl⟩ := h.signed
  have hbound : ∀ req : VerifyTeeReq, req.ed25519Pubkey = pubkeyHex E sk →
      req.ed25519Sig = signHex E sk hash nonce →
      ((Valid E req → req.reportHash = hash ∧ req.nonce = nonce) ↔
        req.reportHash.length = hash.length ∨ req.reportHash ++ req.nonce ≠ hash ++ nonce) := by
    intro req hkey hsig
    rw [valid_iff_append hbinds hkey hsig]
    constructor
    · intro himp
      by_cases hsame : req.reportHash ++ req.nonce = hash ++ nonce
      · exact .inl (congrArg String.length (himp hsame).1)
      · exact .inr hsame
    · rintro (hsame | hother) happend
      · exact eq_of_append_eq happend hsame
      · exact absurd happend hother
  refine ⟨hbound, fun hall => ?_⟩
  -- The request that has all of the text as its nonce.
  rcases (hbound ⟨"", hash ++ nonce, signHex E sk hash nonce, pubkeyHex E sk⟩ rfl rfl).mp
    (hall _ rfl rfl) with hmoved | hmoved
  · rw [hlen] at hmoved
    cases hmoved
  · exact hmoved String.empty_append

/-! ## A report -/

/-- A node outside of a trusted environment, whose binary cannot be read. -/
def attestEnv : AttestEnv where
  signingKey := ⟨some (.ok officerKey.1), otherKey, none⟩
  auditKey := none
  measured := ⟨0, .error "No such file or directory (os error 2)", .unavailable, .ok none⟩
  tee := .none

/-- What it reports for the nonce `abcd`. -/
def abcdReport : TeeReport :=
  getTeeReport .none attestEnv.measured.binary (Text.encode "abcd".toList)

/-- What Ed25519 makes of the hash of it and the nonce. -/
def abcdSig : ByteArr 64 :=
  ⟨[0x65, 0xd1, 0xbb, 0xd1, 0x01, 0x7e, 0xaa, 0xc6, 0xbb, 0xbc, 0x67, 0x40, 0xb8, 0xd2, 0x12, 0x3d,
    0x5a, 0xe4, 0x62, 0x60, 0x8f, 0x0a, 0x45, 0x83, 0xe0, 0x77, 0xd6, 0x20, 0x36, 0xc3, 0x60, 0x69,
    0xf5, 0x9d, 0x54, 0xc8, 0xb5, 0xb7, 0x36, 0x34, 0x46, 0xf5, 0x1d, 0xe7, 0x0f, 0xa6, 0x44, 0xfb,
    0xc3, 0xd9, 0x71, 0x0e, 0xaa, 0xaf, 0x6f, 0x0e, 0x97, 0xa9, 0x2c, 0x3a, 0xd7, 0x49, 0xd2, 0x0e],
    rfl⟩

theorem abcdSig_uncommon : Uncommon abcdSig := ⟨by decide, by decide⟩

/-- The strict check over a scheme in which one signature is known. -/
def strictCheck (signed : Bytes) (sig : ByteArr 64) (h : Uncommon sig) : Ed25519Strict :=
  { Ed25519.strict signed sig h with
    verifyStrict := fun vk m found =>
      if (Ed25519.strict signed sig h).verify vk m found then .ok ()
      else .error "signature error: Verification equation was not satisfied"
    verifyStrict_sign := fun k m => if_pos ((Ed25519.strict signed sig h).verify_sign k m) }

theorem strictCheck_binds (signed : Bytes) (sig : ByteArr 64) (h : Uncommon sig) :
    (strictCheck signed sig h).BindsStrict officerKey signed := by
  intro m' hok
  by_cases hverify : (Ed25519.strict signed sig h).verify
      ((Ed25519.strict signed sig h).verifyingKey officerKey) m'
      ((Ed25519.strict signed sig h).sign officerKey signed)
  · exact (Ed25519.strict_bindsAll signed sig h _ _ hverify).2
  · exact nomatch (if_neg hverify).symm.trans hok

def abcdStrict : Ed25519Strict :=
  strictCheck (withNonce abcdReport.reportHash "abcd") abcdSig abcdSig_uncommon

theorem abcdStrict_binds :
    abcdStrict.BindsStrict officerKey (withNonce abcdReport.reportHash "abcd") :=
  strictCheck_binds _ abcdSig abcdSig_uncommon

theorem getTee_abcd (E : Ed25519Strict) : getTee E attestEnv (some "abcd") =
    { teeType := abcdReport.teeType.display
      reportHash := abcdReport.reportHash
      measurement := abcdReport.measurement
      isSynthetic := abcdReport.isSynthetic
      nonce := "abcd"
      ed25519Sig := some (signHex E officerKey abcdReport.reportHash "abcd") } := by
  simp only [getTee, abcdReport, Option.getD_some]
  rw [attestEnv, BundleKey.loadOrCreate]
  dsimp only
  rw [ByteArr.ofBytes_val]
  rfl

theorem returned_abcd : Returned .sample abcdStrict officerKey abcdReport.reportHash "abcd"
    (signHex abcdStrict officerKey abcdReport.reportHash "abcd") := by
  have h := @Returned.tee .sample abcdStrict officerKey attestEnv (some "abcd") _ (by rfl)
    (by rw [getTee_abcd])
  rw [getTee_abcd] at h
  exact h

theorem signature_binds_iff_abcd :
    ¬ ∀ req : VerifyTeeReq, req.ed25519Pubkey = pubkeyHex abcdStrict officerKey →
      req.ed25519Sig = signHex abcdStrict officerKey abcdReport.reportHash "abcd" →
      Valid abcdStrict req → req.reportHash = abcdReport.reportHash ∧ req.nonce = "abcd" :=
  (signature_binds_iff returned_abcd abcdStrict_binds).2

/-- A signature is valid for an empty hash, too. -/
theorem valid_moved {E : Ed25519Strict} {sk : ByteArr 32} (hash nonce : String) :
    Valid E ⟨"", hash ++ nonce, signHex E sk hash nonce, pubkeyHex E sk⟩ := by
  rw [valid_iff rfl rfl, withNonce, String.empty_append]
  exact E.verifyStrict_sign sk _

/-- The signature of the report is valid for an empty hash. -/
theorem not_signature_binds :
    ¬ ∀ (X : External) (E : Ed25519Strict) (sk : ByteArr 32) (hash nonce sig : String),
      Returned X E sk hash nonce sig → E.BindsStrict sk (withNonce hash nonce) →
      ∀ req : VerifyTeeReq, req.ed25519Pubkey = pubkeyHex E sk → req.ed25519Sig = sig →
        Valid E req → req.reportHash = hash ∧ req.nonce = nonce := by
  intro h
  have hhash := (h _ _ _ _ _ _ returned_abcd abcdStrict_binds
    ⟨"", abcdReport.reportHash ++ "abcd",
      signHex abcdStrict officerKey abcdReport.reportHash "abcd", pubkeyHex abcdStrict officerKey⟩
    rfl rfl (valid_moved abcdReport.reportHash "abcd")).1
  have hlen := length_reportHash .none attestEnv.measured.binary (Text.encode "abcd".toList)
  rw [← abcdReport, ← hhash] at hlen
  cases hlen

end Api

end Maranode
