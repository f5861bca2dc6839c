/-
  Maranode.Common.SignedFiles

  Approval tokens and baselines as files: what was signed and saved is loaded and accepted,
  and a file that was changed afterwards is not.

  A signature covers bytes that are written anew from the fields.  As the fields come back
  from the file as they were, these are the bytes that were signed; as they have every field
  but the signature, no other document has them.
-/
import Maranode.Common.Baseline
import Mathlib.Logic.Function.Basic

namespace Maranode

open Lib

/-- The signature verifies one message at most. -/
def Ed25519.Settles (E : Ed25519) (vk : ByteArr 32) (sig : ByteArr 64) : Prop :=
  ∀ m m', E.verify vk m sig = true → E.verify vk m' sig = true → m = m'

theorem Ed25519.settles_strict (signed : Bytes) (sig : ByteArr 64) (h : Uncommon sig)
    (vk : ByteArr 32) : (Ed25519.strict signed sig h).Settles vk sig := by
  have honly : ∀ m, (Ed25519.strict signed sig h).verify vk m sig = true → m = signed := by
    intro m hverify
    rw [Ed25519.strict] at hverify
    dsimp only at hverify
    rw [if_pos rfl] at hverify
    exact (of_decide_eq_true hverify).2
  intro m m' hm hm'
  rw [honly m hm, honly m' hm']

theorem Ed25519.sign_strict (signed : Bytes) (sig : ByteArr 64) (h : Uncommon sig) :
    (Ed25519.strict signed sig h).sign officerKey signed = sig := by
  rw [Ed25519.strict]
  exact if_pos ⟨rfl, rfl⟩

namespace Common

open Lib.Json

/-! ## Saving and loading -/

abbrev Files := Path → Option Bytes

/-- Why a directory is not made, or a file not written. -/
structure SaveEnv where
  dirFails : Option String
  writeFails : Option String

/-- `std::fs::write`. -/
def writeFile (io : SaveEnv) (files : Files) (path : Path) (data : Bytes) : Except String Files :=
  match io.writeFails with
  | some e => .error e
  | none => .ok (Function.update files path (some data))

/-- A file that is read, and parsed as JSON. -/
def loadFile {α : Type} (fromSlice : Bytes → Option α) (jsonError : Bytes → String)
    (files : Files) (path : Path) : Except String α :=
  match files path with
  | none => .error "No such file or directory (os error 2)"
  | some data =>
      match fromSlice data with
      | none => .error (jsonError data)
      | some a => .ok a

variable (X : External) (E : Ed25519) (errs : ApprovalToken.Errors)

def ApprovalToken.save (io : SaveEnv) (files : Files) (path : Path) (t : ApprovalToken) :
    Except String Files :=
  match io.dirFails with
  | some e => .error e
  | none => writeFile io files path (t.toVecPretty X)

def ApprovalToken.load (files : Files) (path : Path) : Except String ApprovalToken :=
  loadFile (ApprovalToken.fromSlice X) errs.json files path

def Baseline.save (io : SaveEnv) (files : Files) (path : Path) (b : Baseline) :
    Except String Files :=
  writeFile io files path (b.toVecPretty X)

def Baseline.load (files : Files) (path : Path) : Except String Baseline :=
  loadFile (Baseline.fromSlice X) errs.json files path

variable {X E errs}

theorem loadFile_of_write {α : Type} {fromSlice : Bytes → Option α} {jsonError : Bytes → String}
    {io : SaveEnv} {files files' : Files} {path : Path} {data : Bytes} {a : α}
    (hwrite : writeFile io files path data = .ok files') (ha : fromSlice data = some a) :
    loadFile fromSlice jsonError files' path = .ok a := by
  rw [writeFile] at hwrite
  cases hfails : io.writeFails with
  | some e =>
      rw [hfails] at hwrite
      cases hwrite
  | none =>
      rw [hfails] at hwrite
      rw [← Except.ok.inj hwrite, loadFile, Function.update_self]
      dsimp only
      rw [ha]

theorem ApprovalToken.load_of_save {io : SaveEnv} {files files' : Files} {path : Path}
    {t : ApprovalToken} (h : t.save X io files path = .ok files') :
    ApprovalToken.load X errs files' path = .ok t := by
  rw [ApprovalToken.save] at h
  cases hfails : io.dirFails with
  | some e =>
      rw [hfails] at h
      cases h
  | none =>
      rw [hfails] at h
      exact loadFile_of_write h (ApprovalToken.fromSlice_toVecPretty X t)

theorem Baseline.load_of_save {io : SaveEnv} {files files' : Files} {path : Path} {b : Baseline}
    (h : b.save X io files path = .ok files') : Baseline.load X errs files' path = .ok b :=
  loadFile_of_write h (Baseline.fromSlice_toVecPretty X b)

/-! ## What a signature is of -/

theorem optText_injective {α : Type} {print : α → String} (hprint : Function.Injective print)
    {a b : Option α}
    (h : (a.elim .null fun x => Value.str (print x)) = b.elim .null fun x => .str (print x)) :
    a = b := by
  cases a with
  | none =>
      cases b with
      | none => rfl
      | some b => cases h
  | some a =>
      cases b with
      | none => cases h
      | some b => rw [hprint (Value.str.inj h)]

theorem dateTimeText_injective : Function.Injective X.dateTimeText := by
  intro t t' h
  have ht := X.dateTime_roundTrip t
  rw [h, X.dateTime_roundTrip] at ht
  exact (Option.some.inj ht).symm

/-- The payload has every field but the signature. -/
theorem ApprovalToken.eq_of_signPayload {t t' : ApprovalToken}
    (h : t.signPayload X = t'.signPayload X) : { t with signature := t'.signature } = t' := by
  have hvalue := render_injective (Text.encode_injective h)
  simp only [Value.obj.injEq, List.cons.injEq, Prod.mk.injEq, true_and, and_true,
    Value.str.injEq] at hvalue
  obtain ⟨hid, hmodel, hsha, hby, hat, hexpires, hnote, hpub⟩ := hvalue
  have hexpires := optText_injective dateTimeText_injective hexpires
  have hnote := @optText_injective String id Function.injective_id _ _ hnote
  cases t
  cases t'
  simp only [mk.injEq, and_true]
  exact ⟨hid, hmodel, hsha, hby, dateTimeText_injective hat, hexpires, hnote, hpub⟩

/-! ## Documents -/

variable (E) in
/-- The key and the signature, as a document has them, are good for one message. -/
def SettlesText (pubkey signature : String) : Prop :=
  ∀ (vk : ByteArr 32) (sig : ByteArr 64), Base64.decode pubkey.toList = some vk.1 →
    Base64.decode signature.toList = some sig.1 → E.Settles vk sig

theorem ApprovalToken.eq_of_verify {t t' : ApprovalToken} {now now' : DateTime}
    (h : t.verify X E errs now = .ok ()) (h' : t'.verify X E errs now' = .ok ())
    (hpub : t.signerPubkey = t'.signerPubkey) (hsig : t.signature = t'.signature)
    (hsettles : SettlesText E t.signerPubkey t.signature) : t = t' := by
  obtain ⟨vk, hvk, -, ⟨sig, hdecoded, hverify⟩, -⟩ := verify_eq_ok.mp h
  obtain ⟨vk', hvk', -, ⟨sig', hdecoded', hverify'⟩, -⟩ := verify_eq_ok.mp h'
  have hsettled := hsettles vk sig hvk hdecoded
  rw [← hpub, hvk] at hvk'
  rw [← hsig, hdecoded] at hdecoded'
  rw [← Subtype.ext (Option.some.inj hvk'), ← Subtype.ext (Option.some.inj hdecoded')] at hverify'
  have heq := eq_of_signPayload (hsettled _ _ hverify hverify')
  rwa [← hsig] at heq

theorem Baseline.eq_of_verify {b b' : Baseline} (h : b.verify X E errs = .ok ())
    (h' : b'.verify X E errs = .ok ()) (hpub : b.signerPubkey = b'.signerPubkey)
    (hsig : b.signature = b'.signature) (hsettles : SettlesText E b.signerPubkey b.signature) :
    b = b' := by
  obtain ⟨vk, sig, hvk, -, hdecoded, hverify⟩ := verify_eq_ok.mp h
  obtain ⟨vk', sig', hvk', -, hdecoded', hverify'⟩ := verify_eq_ok.mp h'
  have hsettled := hsettles vk sig hvk hdecoded
  rw [← hpub, hvk] at hvk'
  rw [← hsig, hdecoded] at hdecoded'
  rw [← Subtype.ext (Option.some.inj hvk'), ← Subtype.ext (Option.some.inj hdecoded')] at hverify'
  have heq := eq_of_signPayload X (hsettled _ _ hverify hverify')
  rwa [← hsig] at heq

variable (X E errs) in
/-- **Signed documents.**  What is signed and saved is loaded and accepted, as long as it has
    not expired; the payload has every field but the signature; and under one key and one
    signature, one document is accepted. -/
theorem signed_documents :
    ((∀ t key now io files path files', t.Unexpired now →
        (ApprovalToken.sign X E t key).save X io files path = .ok files' →
        ∃ t', ApprovalToken.load X errs files' path = .ok t' ∧
          t'.verify X E errs now = .ok ()) ∧
      (∀ t t' : ApprovalToken, t.signPayload X = t'.signPayload X →
        { t with signature := t'.signature } = t') ∧
      ∀ (t t' : ApprovalToken) now now', t.verify X E errs now = .ok () →
        t'.verify X E errs now' = .ok () → t.signerPubkey = t'.signerPubkey →
        t.signature = t'.signature → SettlesText E t.signerPubkey t.signature → t = t') ∧
    (∀ b key io files path files',
        (Baseline.sign X E b key).save X io files path = .ok files' →
        ∃ b', Baseline.load X errs files' path = .ok b' ∧ b'.verify X E errs = .ok ()) ∧
      (∀ b b' : Baseline, b.signPayload X = b'.signPayload X →
        { b with signature := b'.signature } = b') ∧
      ∀ b b' : Baseline, b.verify X E errs = .ok () → b'.verify X E errs = .ok () →
        b.signerPubkey = b'.signerPubkey → b.signature = b'.signature →
        SettlesText E b.signerPubkey b.signature → b = b' := by
  refine ⟨⟨?_, fun _ _ => ApprovalToken.eq_of_signPayload, ?_⟩, ?_,
    fun _ _ => Baseline.eq_of_signPayload X, ?_⟩
  -- What was saved is what is loaded, and a signed token verifies.
  · intro t key now io files path files' hunexpired hsave
    exact ⟨_, ApprovalToken.load_of_save hsave,
      ApprovalToken.verify_eq_ok.mpr (ApprovalToken.selfSigned_sign t key hunexpired)⟩
  -- Two tokens of one signature carry the same signed text.
  · intro t t' now now' h h' hpub hsig hsettles
    exact ApprovalToken.eq_of_verify h h' hpub hsig hsettles
  · intro b key io files path files' hsave
    exact ⟨_, Baseline.load_of_save hsave,
      Baseline.verify_eq_ok.mpr (Baseline.selfSigned_sign b key)⟩
  · intro b b' h h' hpub hsig hsettles
    exact Baseline.eq_of_verify h h' hpub hsig hsettles

/-! ## One token -/

/-- The officer's approval of a model, to be signed. -/
def officerToken : ApprovalToken where
  tokenId := "token-1"
  modelId := "abc:1"
  modelSha256 := "ba7816bf8f01cfea414140de5dae2223b00361a396177a9cb410ff61f20015ad"
  approvedBy := "officer"
  approvedAt := 0
  expiresAt := none
  note := none
  signerPubkey := String.ofList (Base64.encode officerPub.1)
  signature := ""

/-- What Ed25519 makes of it under the officer's key. -/
def officerTokenSig : ByteArr 64 :=
  ⟨[0x8c, 0x33, 0x3e, 0x14, 0x4d, 0x5d, 0x25, 0x0f, 0xfd, 0x11, 0x22, 0x8e, 0xe5, 0x92, 0x5b, 0x4b,
    0xbb, 0x9d, 0x0e, 0xdf, 0x19, 0xa3, 0xd6, 0x3b, 0xe8, 0x02, 0x29, 0x8a, 0x31, 0xca, 0x7f, 0x07,
    0x55, 0x20, 0xb5, 0x71, 0x72, 0x33, 0x8d, 0x76, 0xfb, 0x09, 0xa1, 0x3f, 0x8d, 0x63, 0xb6, 0x0b,
    0xad, 0x03, 0x7e, 0x06, 0x69, 0x20, 0x3d, 0xfa, 0x00, 0xd0, 0x16, 0xf2, 0xd9, 0xaf, 0x4f, 0x09],
    rfl⟩

theorem uncommon_officerTokenSig : Uncommon officerTokenSig := ⟨by decide, by decide⟩

def officerScheme : Ed25519 :=
  .strict (officerToken.signPayload .sample) officerTokenSig uncommon_officerTokenSig

def officerTokenErrors : ApprovalToken.Errors where
  json _ := "expected value at line 1 column 1"
  base64 _ := "Invalid padding"
  publicKey _ := "signature error"
  signature := "signature error"
  time := sampleDateText

/-- The token as it is signed. -/
def signedToken : ApprovalToken := officerToken.sign .sample officerScheme officerKey

/-- The officer's key was in the token before it was signed. -/
theorem signPayload_signedToken :
    signedToken.signPayload .sample = officerToken.signPayload .sample := by
  have hpub : officerScheme.verifyingKey officerKey = officerPub := strictPub_officerKey
  rw [signedToken, ApprovalToken.sign, hpub, ApprovalToken.signPayload]
  dsimp only
  rw [ApprovalToken.signPayload]
  rfl

theorem settlesText_signedToken :
    SettlesText officerScheme signedToken.signerPubkey signedToken.signature := by
  intro vk sig _ hsig
  have hdecoded := @ApprovalToken.decode_signature_sign .sample officerScheme officerToken
    officerKey
  rw [← signedToken, signPayload_signedToken, officerScheme, Ed25519.sign_strict, hsig] at hdecoded
  rw [Subtype.ext (Option.some.inj hdecoded)]
  exact Ed25519.settles_strict _ _ _ _

/-- The officer's token is loaded and accepted; with a note written into its file, it is
    not. -/
theorem edited_token_refused :
    (∃ t', ApprovalToken.load .sample officerTokenErrors
        (Function.update (fun _ => none) "/data/t.mrn-token".toList
          (some (signedToken.toVecPretty .sample))) "/data/t.mrn-token".toList = .ok t' ∧
      t'.verify .sample officerScheme officerTokenErrors newYear = .ok ()) ∧
    ({ signedToken with note := some "for production" } : ApprovalToken).verify .sample
      officerScheme officerTokenErrors newYear ≠ .ok () := by
  obtain ⟨⟨hsaved, -, hsettled⟩, -⟩ :=
    signed_documents .sample officerScheme officerTokenErrors
  have hunexpired : officerToken.Unexpired newYear := by
    intro exp hexp
    cases hexp
  constructor
  · exact hsaved officerToken officerKey newYear ⟨none, none⟩ (fun _ => none) _ _ hunexpired rfl
  · intro haccepted
    have hverify : signedToken.verify .sample officerScheme officerTokenErrors newYear = .ok () :=
      ApprovalToken.verify_eq_ok.mpr (ApprovalToken.selfSigned_sign _ _ hunexpired)
    have heq := hsettled _ _ _ _ hverify haccepted rfl rfl settlesText_signedToken
    have hnote := congrArg ApprovalToken.note heq
    cases hnote

end Common

end Maranode
