/-
  Maranode.Api.HoldStore

  `legal_hold.rs`: the hold key pair, and holds that are placed and released.

  A hold is one file, `<id>.json`, that every save writes anew.  `hold.pub` is what
  the server checks a release with, `hold.key` what it signs a placement with when
  the request brings no key of its own; neither is looked up in the record.  Every
  write may fail.
-/
import Maranode.Api.LegalHold
import Maranode.Common.Ed25519
import Maranode.Lib.Json.RoundTrip
import Maranode.Lib.RecordWrite
import Mathlib.Data.List.AList

namespace Maranode.Api

open Lib Lib.Json

/-! ## The directory -/

/-- The data directory, as far as holds go.  A hold's file is named after it, and may
    not parse. -/
structure HoldDir where
  holdPub : Option Bytes
  holdKey : Option Bytes
  holds : AList fun _ : String => Option HoldRecord
  named : ∀ id r, holds.lookup id = some (some r) → r.id = id

def HoldDir.empty : HoldDir where
  holdPub := none
  holdKey := none
  holds := ∅
  named := by simp

/-- The record of a hold, where its file parses. -/
def HoldDir.lookup (d : HoldDir) (holdId : String) : Option HoldRecord :=
  (d.holds.lookup holdId).join

/-- `list_holds`, on the files of the directory. -/
def HoldDir.list (d : HoldDir) : List HoldRecord := listHolds (d.holds.entries.filterMap Sigma.snd)

/-- `anyhow::Context`: the error a missing value becomes. -/
def context {α : Type} (msg : String) : Option α → Except String α
  | some a => .ok a
  | none => .error msg

theorem context_eq_ok {α : Type} {msg : String} {o : Option α} {a : α} :
    context msg o = .ok a ↔ o = some a := by
  cases o <;> simp [context]

/-- `load_hold`. -/
def loadHold (d : HoldDir) (holdId : String) : Except String HoldRecord := do
  let file ← context s!"hold '{holdId}' not found" (d.holds.lookup holdId)
  context "parse hold record" file

/-- The file of a hold, written anew. -/
def HoldDir.put (d : HoldDir) (holdId : String) (file : Option HoldRecord)
    (h : ∀ r, file = some r → r.id = holdId) : HoldDir where
  holdPub := d.holdPub
  holdKey := d.holdKey
  holds := d.holds.insert holdId file
  named := by
    intro id r hr
    by_cases hid : id = holdId
    · subst hid
      rw [AList.lookup_insert] at hr
      exact h r (Option.some.inj hr)
    · rw [AList.lookup_insert_ne hid] at hr
      exact d.named id r hr

/-- `save_hold`. -/
def saveHold (d : HoldDir) (record : HoldRecord) : RecordWrite → HoldDir
  | .written => d.put record.id (some record) fun _ h => congrArg _ (Option.some.inj h).symm
  | .refused _ => d
  | .cutOff _ => d.put record.id none nofun

/-- The end of `place_hold` and of `release_hold`: a record is saved, and returned if it
    was. -/
def saveRecord (d : HoldDir) (w : RecordWrite) :
    Except String HoldRecord → HoldDir × Except String HoldRecord
  | .error e => (d, .error e)
  | .ok record =>
      (saveHold d record w,
        match w.error with
        | some e => .error e
        | none => .ok record)

theorem bind_eq_ok {ε α β : Type} {x : Except ε α} {f : α → Except ε β} {b : β} :
    x.bind f = .ok b ↔ ∃ a, x = .ok a ∧ f a = .ok b := by
  cases x <;> simp [Except.bind]

theorem loadHold_eq_ok {d : HoldDir} {holdId : String} {r : HoldRecord} :
    loadHold d holdId = .ok r ↔ d.lookup holdId = some r := by
  show Except.bind _ _ = _ ↔ _
  rw [bind_eq_ok, HoldDir.lookup, Option.join_eq_some_iff]
  simp only [context_eq_ok, exists_eq_right]

theorem HoldDir.id_of_lookup {d : HoldDir} {holdId : String} {r : HoldRecord}
    (h : d.lookup holdId = some r) : r.id = holdId :=
  d.named holdId r (Option.join_eq_some_iff.mp h)

theorem HoldDir.lookup_put (d : HoldDir) (holdId : String) (file : Option HoldRecord)
    (h : ∀ r, file = some r → r.id = holdId) :
    (d.put holdId file h).lookup = Function.update d.lookup holdId file := by
  funext id
  show ((d.holds.insert holdId file).lookup id).join = _
  by_cases hid : id = holdId
  · rw [hid, AList.lookup_insert, Function.update_self, Option.join_some]
  · rw [AList.lookup_insert_ne hid, Function.update_of_ne hid]
    rfl

/-- A save changes one record, as its write ends. -/
theorem lookup_saveHold (d : HoldDir) (r : HoldRecord) (w : RecordWrite) :
    (saveHold d r w).lookup = Function.update d.lookup r.id (w.result (d.lookup r.id) r) := by
  cases w with
  | written =>
      rw [saveHold, HoldDir.lookup_put]
      rfl
  | refused e => exact (Function.update_eq_self ..).symm
  | cutOff e =>
      rw [saveHold, HoldDir.lookup_put]
      rfl

theorem lookup_saveHold_written (d : HoldDir) (r : HoldRecord) :
    (saveHold d r .written).lookup r.id = some r := by
  rw [lookup_saveHold, Function.update_self]
  rfl

theorem saveRecord_eq_ok {d d' : HoldDir} {w : RecordWrite} {x : Except String HoldRecord}
    {r : HoldRecord} :
    saveRecord d w x = (d', .ok r) ↔ x = .ok r ∧ w = .written ∧ d' = saveHold d r .written := by
  constructor
  · intro h
    cases x with
    | error e => cases h
    | ok record =>
        cases w with
        | written =>
            cases h
            exact ⟨rfl, rfl, rfl⟩
        | refused e => cases h
        | cutOff e => cases h
  · rintro ⟨rfl, rfl, rfl⟩
    rfl

/-! ## Keys -/

variable (X : External) (E : Ed25519)

/-- `generate_hold_key`, for the key the random generator gives. -/
def generateHoldKey (d : HoldDir) (key : ByteArr 32) (pubFault keyFault : FileWrite.Fault) :
    HoldDir × Except String (String × String) :=
  let pubkeyB64 := Base64.encode (E.verifyingKey key).1
  let privkeyHex := Hex.encode key.1
  match FileWrite.write pubFault d.holdPub (Text.encode pubkeyB64) with
  | (holdPub, .error e) => ({ d with holdPub }, .error e)
  | (holdPub, .ok ()) =>
      match FileWrite.write keyFault d.holdKey (Text.encode privkeyHex) with
      | (holdKey, .error e) => ({ d with holdPub, holdKey }, .error e)
      | (holdKey, .ok ()) =>
          ({ d with holdPub, holdKey }, .ok (String.ofList privkeyHex, String.ofList pubkeyB64))

/-- `load_hold_pubkey`. -/
def loadHoldPubkey (d : HoldDir) : Except String (ByteArr 32) := do
  let b64 ← context "hold public key not found — run `maranode hold generate-key` first"
    (d.holdPub.bind Text.decode)
  let bytes ← context "invalid base64 in hold.pub" (Base64.decode (Text.trim b64))
  let arr ← context "hold pubkey must be 32 bytes" (ByteArr.ofBytes 32 bytes)
  if E.isPoint arr then .ok arr else .error "invalid Ed25519 verifying key"

/-- `resolve_signing_key`. -/
def resolveSigningKey (d : HoldDir) (hexOverride : Option String) :
    Except String (ByteArr 32) := do
  let hex ←
    match hexOverride with
    | some h => .ok h.toList
    | none =>
        context "hold private key not found — pass --key-hex or ensure hold.key exists"
          (d.holdKey.bind Text.decode)
  let bytes ← context "invalid hex in hold key" (Hex.decode (Text.trim hex))
  context "hold signing key must be 32 bytes" (ByteArr.ofBytes 32 bytes)

/-- The directory with a new key pair. -/
def HoldDir.withKey (d : HoldDir) (key : ByteArr 32) : HoldDir :=
  (generateHoldKey E d key .none .none).1

/-- A new key pair is read back. -/
theorem loadHoldPubkey_withKey (d : HoldDir) (key : ByteArr 32) :
    loadHoldPubkey E (d.withKey E key) = .ok (E.verifyingKey key) := by
  have htrim := Text.trim_of_forall (Base64.isWhite_of_mem_encode (E.verifyingKey key).1)
  simp [loadHoldPubkey, HoldDir.withKey, generateHoldKey, FileWrite.write_none, context, htrim,
    Base64.decode_encode, E.isPoint_verifyingKey, bind, Except.bind]

theorem lookup_generateHoldKey (d : HoldDir) (key : ByteArr 32)
    (pubFault keyFault : FileWrite.Fault) :
    (generateHoldKey E d key pubFault keyFault).1.lookup = d.lookup := by
  rw [generateHoldKey]
  rcases FileWrite.write pubFault d.holdPub _ with ⟨holdPub, e | -⟩
  · rfl
  · dsimp only
    rcases FileWrite.write keyFault d.holdKey _ with ⟨holdKey, e | -⟩ <;> rfl

/-- `serde_json::to_vec` of a `PlacementPayload`. -/
def placementPayload (holdId placedBy reason : String) (seqFrom seqTo : Nat) (placedAt : DateTime)
    (holdKeyPubkey : String) : Bytes :=
  Text.encode (render (.obj [
    ("hold_id", .str holdId),
    ("placed_by", .str placedBy),
    ("reason", .str reason),
    ("seq_from", .num (.ofNat seqFrom)),
    ("seq_to", .num (.ofNat seqTo)),
    ("placed_at", .str (X.dateTimeText placedAt)),
    ("hold_key_pubkey", .str holdKeyPubkey)]))

/-- The arguments of `place_hold`. -/
structure PlaceArgs where
  holdId : String
  placedBy : String
  reason : String
  seqFrom : Nat
  seqTo : Nat
  expiresAt : Option DateTime
  signingKeyHex : Option String
  tpmSealed : Bool

/-- The record `place_hold` builds, given the public key it loaded and the key it
    signs with. -/
def PlaceArgs.record (a : PlaceArgs) (placedAt : DateTime) (pubkey key : ByteArr 32) : HoldRecord :=
  let pubkeyB64 := String.ofList (Base64.encode pubkey.1)
  let sig := E.sign key
    (placementPayload X a.holdId a.placedBy a.reason a.seqFrom a.seqTo placedAt pubkeyB64)
  { id := a.holdId
    placedAt
    placedBy := a.placedBy
    reason := a.reason
    seqFrom := a.seqFrom
    seqTo := a.seqTo
    expiresAt := a.expiresAt
    holdKeyPubkey := pubkeyB64
    placementSig := String.ofList (Base64.encode sig.1)
    releasedAt := none
    releasedBy := none
    releaseSig := none
    tpmSealed := a.tpmSealed }

/-- `place_hold`, up to its save. -/
def placeRecord (d : HoldDir) (a : PlaceArgs) (placedAt : DateTime) :
    Except String HoldRecord := do
  let pubkey ← loadHoldPubkey E d
  let signingKey ← resolveSigningKey d a.signingKeyHex
  .ok (a.record X E placedAt pubkey signingKey)

/-- `place_hold`. -/
def placeHold (d : HoldDir) (a : PlaceArgs) (placedAt : DateTime) (w : RecordWrite) :
    HoldDir × Except String HoldRecord :=
  saveRecord d w (placeRecord X E d a placedAt)

variable {X E}

theorem placeRecord_eq_ok {d : HoldDir} {a : PlaceArgs} {placedAt : DateTime} {r : HoldRecord} :
    placeRecord X E d a placedAt = .ok r ↔
      ∃ pubkey key, loadHoldPubkey E d = .ok pubkey ∧
        resolveSigningKey d a.signingKeyHex = .ok key ∧ r = a.record X E placedAt pubkey key := by
  show Except.bind _ _ = _ ↔ _
  rw [bind_eq_ok]
  refine exists_congr fun pubkey => ?_
  show _ ∧ Except.bind _ _ = _ ↔ _
  rw [bind_eq_ok]
  constructor
  · rintro ⟨hpub, key, hkey, heq⟩
    exact ⟨key, hpub, hkey, (Except.ok.inj heq).symm⟩
  · rintro ⟨key, hpub, hkey, rfl⟩
    exact ⟨hpub, key, hkey, rfl⟩

/-! ## Releasing -/

variable (X E)

/-- `serde_json::to_vec` of a `ReleasePayload`. -/
def releasePayload (holdId releasedBy : String) (releasedAt : DateTime) : Bytes :=
  Text.encode (render (.obj [
    ("hold_id", .str holdId),
    ("released_by", .str releasedBy),
    ("released_at", .str (X.dateTimeText releasedAt))]))

/-- The two clock readings of a release: the one of `is_active` and `released_at`. -/
structure ReleaseClock where
  active : DateTime
  releasedAt : DateTime

/-- The record `release_hold` saves. -/
def HoldRecord.release (r : HoldRecord) (releasedAt : DateTime) (releasedBy sig : String) :
    HoldRecord :=
  { r with releasedAt := some releasedAt, releasedBy := some releasedBy, releaseSig := some sig }

/-- The signature a release request carries. -/
def decodeReleaseSig (releaseSigB64 : String) : Except String (ByteArr 64) := do
  let bytes ← context "invalid base64 release signature" (Base64.decode releaseSigB64.toList)
  context "release signature must be 64 bytes" (ByteArr.ofBytes 64 bytes)

/-- `release_hold`, up to its save. -/
def releaseRecord (d : HoldDir) (holdId releasedBy releaseSigB64 : String) (clk : ReleaseClock) :
    Except String HoldRecord := do
  let record ← loadHold d holdId
  if record.isActive clk.active then
    let pubkey ← loadHoldPubkey E d
    let sig ← decodeReleaseSig releaseSigB64
    if E.verify pubkey (releasePayload X holdId releasedBy clk.releasedAt) sig then
      .ok (record.release clk.releasedAt releasedBy releaseSigB64)
    else .error "release signature verification failed — wrong hold key?"
  else .error s!"hold '{holdId}' is not active"

/-- `release_hold`. -/
def releaseHold (d : HoldDir) (holdId releasedBy releaseSigB64 : String) (clk : ReleaseClock)
    (w : RecordWrite) : HoldDir × Except String HoldRecord :=
  saveRecord d w (releaseRecord X E d holdId releasedBy releaseSigB64 clk)

/-- `sign_release_payload`. -/
def signReleasePayload (holdId releasedBy : String) (releasedAt : DateTime) (privkeyHex : String) :
    Except String String := do
  let bytes ← context "invalid hex" (Hex.decode (Text.trim privkeyHex.toList))
  let key ← context "key must be 32 bytes" (ByteArr.ofBytes 32 bytes)
  let sig := E.sign key (releasePayload X holdId releasedBy releasedAt)
  .ok (String.ofList (Base64.encode sig.1))

variable {X E}

theorem releaseRecord_eq_ok {d : HoldDir} {holdId releasedBy releaseSigB64 : String}
    {clk : ReleaseClock} {r : HoldRecord} :
    releaseRecord X E d holdId releasedBy releaseSigB64 clk = .ok r ↔
      ∃ record pubkey sig, d.lookup holdId = some record ∧
        record.isActive clk.active = true ∧ loadHoldPubkey E d = .ok pubkey ∧
        decodeReleaseSig releaseSigB64 = .ok sig ∧
        E.verify pubkey (releasePayload X holdId releasedBy clk.releasedAt) sig = true ∧
        r = record.release clk.releasedAt releasedBy releaseSigB64 := by
  show Except.bind _ _ = _ ↔ _
  rw [bind_eq_ok]
  refine exists_congr fun record => ?_
  rw [loadHold_eq_ok]
  -- An active hold, the key, the form of the signature and the signature, in this order.
  by_cases hactive : record.isActive clk.active = true
  · rw [if_pos hactive]
    show _ ∧ Except.bind _ _ = _ ↔ _
    rw [bind_eq_ok]
    constructor
    · rintro ⟨hrec, pubkey, hpub, hrest⟩
      obtain ⟨sig, hsig, hrest⟩ := bind_eq_ok.mp hrest
      split_ifs at hrest with hverify
      exact ⟨pubkey, sig, hrec, hactive, hpub, hsig, hverify, (Except.ok.inj hrest).symm⟩
    · rintro ⟨pubkey, sig, hrec, -, hpub, hsig, hverify, rfl⟩
      refine ⟨hrec, pubkey, hpub, bind_eq_ok.mpr ⟨sig, hsig, ?_⟩⟩
      rw [if_pos hverify]
  · rw [if_neg hactive]
    constructor
    · rintro ⟨-, h⟩
      cases h
    · rintro ⟨pubkey, sig, -, h, -⟩
      exact absurd h hactive

theorem releasePayload_injective {holdId releasedBy : String} {t t' : DateTime}
    (h : releasePayload X holdId releasedBy t = releasePayload X holdId releasedBy t') :
    t = t' := by
  have hrender := render_injective (Text.encode_injective h)
  have htext : X.dateTimeText t = X.dateTimeText t' := by simpa using hrender
  have hread := X.dateTime_roundTrip t
  rw [htext, X.dateTime_roundTrip] at hread
  exact (Option.some.inj hread).symm

/-- What `sign_release_payload` returns is read back. -/
theorem signReleasePayload_eq_ok (holdId releasedBy : String) (t : DateTime) {privkeyHex : String}
    {key : ByteArr 32} (hkey : Hex.decode (Text.trim privkeyHex.toList) = some key.1) :
    ∃ sigB64, signReleasePayload X E holdId releasedBy t privkeyHex = .ok sigB64 ∧
      decodeReleaseSig sigB64 = .ok (E.sign key (releasePayload X holdId releasedBy t)) := by
  let sig := E.sign key (releasePayload X holdId releasedBy t)
  refine ⟨String.ofList (Base64.encode sig.1), ?_, ?_⟩
  · simp [signReleasePayload, context, hkey, bind, Except.bind, sig]
  · simp [decodeReleaseSig, context, Base64.decode_encode, bind, Except.bind, sig]

theorem HoldRecord.isActive_release (r : HoldRecord) (t : DateTime) (releasedBy sig : String)
    (now : DateTime) : (r.release t releasedBy sig).isActive now = false := by
  rw [HoldRecord.isActive]
  exact if_pos rfl

/-- The release went through: the file of the hold has a release time, and the hold is
    over for good. -/
def ReleaseDone (result : HoldDir × Except String HoldRecord) (holdId : String) : Prop :=
  ∃ r, result.2 = .ok r ∧ result.1.lookup holdId = some r ∧ r.releasedAt.isSome = true ∧
    ∀ now, r.isActive now = false

/-- A release is done when there is one to save and the save goes through. -/
theorem releaseDone_iff {d : HoldDir} {holdId releasedBy sigB64 : String} {clk : ReleaseClock}
    {w : RecordWrite} :
    ReleaseDone (releaseHold X E d holdId releasedBy sigB64 clk w) holdId ↔
      (∃ r, releaseRecord X E d holdId releasedBy sigB64 clk = .ok r) ∧ w = .written := by
  constructor
  · rintro ⟨r, hok, -⟩
    obtain ⟨hr, hw, -⟩ := saveRecord_eq_ok.mp (Prod.ext rfl hok :
      releaseHold X E d holdId releasedBy sigB64 clk w = (_, .ok r))
    exact ⟨⟨r, hr⟩, hw⟩
  · rintro ⟨⟨r, hr⟩, rfl⟩
    obtain ⟨record, -, -, hrecord, -, -, -, -, rfl⟩ := releaseRecord_eq_ok.mp hr
    rw [releaseHold, hr]
    refine ⟨_, rfl, ?_, rfl, HoldRecord.isActive_release record _ _ _⟩
    rw [← HoldDir.id_of_lookup hrecord]
    exact lookup_saveHold_written d (record.release clk.releasedAt releasedBy sigB64)

/-- A signature that binds its payload releases at the time in it, or not at all. -/
theorem releasedAt_eq_of_ok {d : HoldDir} {holdId releasedBy sigB64 : String}
    {releasedAt : DateTime} {clk : ReleaseClock} {key : ByteArr 32} {r : HoldRecord}
    (hpub : loadHoldPubkey E d = .ok (E.verifyingKey key))
    (hsig : decodeReleaseSig sigB64
      = .ok (E.sign key (releasePayload X holdId releasedBy releasedAt)))
    (hideal : E.Binds key (releasePayload X holdId releasedBy releasedAt))
    (hr : releaseRecord X E d holdId releasedBy sigB64 clk = .ok r) :
    clk.releasedAt = releasedAt := by
  obtain ⟨rec, pubkey, sig, -, -, hpub', hsig', hverify, -⟩ := releaseRecord_eq_ok.mp hr
  obtain rfl : E.verifyingKey key = pubkey := Except.ok.inj (hpub.symm.trans hpub')
  obtain rfl := Except.ok.inj (hsig.symm.trans hsig')
  exact releasePayload_injective (hideal _ hverify)

/-- **Offline signatures.**  A release of an active hold, signed with the hold key for
    the time `releasedAt`, goes through exactly when the server's clock reads that very
    time and the record can be saved. -/
theorem release_signed_payload_iff (d : HoldDir) (holdId releasedBy privkeyHex : String)
    (releasedAt : DateTime) (clk : ReleaseClock) (w : RecordWrite) (key : ByteArr 32)
    (record : HoldRecord) (hhex : Hex.decode (Text.trim privkeyHex.toList) = some key.1)
    (hpub : loadHoldPubkey E d = .ok (E.verifyingKey key))
    (hrecord : d.lookup holdId = some record) (hactive : record.isActive clk.active = true)
    (hideal : E.Binds key (releasePayload X holdId releasedBy releasedAt)) :
    ∃ sigB64, signReleasePayload X E holdId releasedBy releasedAt privkeyHex = .ok sigB64 ∧
      (ReleaseDone (releaseHold X E d holdId releasedBy sigB64 clk w) holdId ↔
        clk.releasedAt = releasedAt ∧ w = .written) := by
  obtain ⟨sigB64, hsign, hsig⟩ := signReleasePayload_eq_ok (X := X) (E := E) holdId releasedBy
    releasedAt hhex
  refine ⟨sigB64, hsign, releaseDone_iff.trans (and_congr_left fun _ => ?_)⟩
  constructor
  · rintro ⟨r, hr⟩
    exact releasedAt_eq_of_ok hpub hsig hideal hr
  · intro hnow
    have hverify := E.verify_sign key (releasePayload X holdId releasedBy clk.releasedAt)
    rw [← hnow] at hsig
    exact ⟨_, releaseRecord_eq_ok.mpr
      ⟨record, _, _, hrecord, hactive, hpub, hsig, hverify, rfl⟩⟩

/-! ## A hold to apply results at -/

/-- The scheme, with the officer's signature of the release at the epoch. -/
def officerScheme : Ed25519 :=
  Ed25519.sample (releasePayload External.sample "HOLD-0" "officer" 0)

def officerKeyHex : String := String.ofList (Hex.encode officerKey.1)

/-- A hold without end on the first ten entries. -/
def firstTen : PlaceArgs where
  holdId := "HOLD-0"
  placedBy := "officer"
  reason := "litigation"
  seqFrom := 1
  seqTo := 10
  expiresAt := none
  signingKeyHex := none
  tpmSealed := false

def firstTenRecord : HoldRecord :=
  firstTen.record External.sample officerScheme 0 (officerScheme.verifyingKey officerKey) officerKey

/-- The directory with the officer's key and the hold. -/
def firstTenHeld : HoldDir :=
  saveHold (HoldDir.empty.withKey officerScheme officerKey) firstTenRecord .written

theorem loadHoldPubkey_firstTenHeld :
    loadHoldPubkey officerScheme firstTenHeld = .ok (officerScheme.verifyingKey officerKey) :=
  loadHoldPubkey_withKey officerScheme HoldDir.empty officerKey

theorem lookup_firstTenHeld : firstTenHeld.lookup "HOLD-0" = some firstTenRecord :=
  lookup_saveHold_written _ firstTenRecord

theorem decode_officerKeyHex : Hex.decode (Text.trim officerKeyHex.toList) = some officerKey.1 := by
  rw [officerKeyHex, String.toList_ofList, Text.trim_of_forall (Hex.isWhite_of_mem_encode _),
    Hex.decode_encode]

/-- Signed for the epoch and released then. -/
theorem release_at_signed_time : ∃ sigB64,
    signReleasePayload External.sample officerScheme "HOLD-0" "officer" 0 officerKeyHex
      = .ok sigB64 ∧
    ReleaseDone (releaseHold External.sample officerScheme firstTenHeld "HOLD-0" "officer" sigB64
      ⟨0, 0⟩ .written) "HOLD-0" := by
  obtain ⟨sigB64, hsign, hiff⟩ := release_signed_payload_iff (X := External.sample)
    (E := officerScheme) firstTenHeld "HOLD-0" "officer" officerKeyHex 0 ⟨0, 0⟩ .written officerKey
    firstTenRecord decode_officerKeyHex loadHoldPubkey_firstTenHeld lookup_firstTenHeld rfl
    (Ed25519.sample_binds _)
  exact ⟨sigB64, hsign, hiff.mpr ⟨rfl, rfl⟩⟩

/-- Signed for the epoch and released at new year. -/
theorem release_after_signed_time : ∃ sigB64,
    signReleasePayload External.sample officerScheme "HOLD-0" "officer" 0 officerKeyHex
      = .ok sigB64 ∧
    firstTenHeld.lookup "HOLD-0" = some firstTenRecord ∧
    firstTenRecord.isActive newYear = true ∧
    ¬ ReleaseDone (releaseHold External.sample officerScheme firstTenHeld "HOLD-0" "officer" sigB64
      ⟨newYear, newYear⟩ .written) "HOLD-0" := by
  obtain ⟨sigB64, hsign, hsig⟩ := signReleasePayload_eq_ok (X := External.sample)
    (E := officerScheme) "HOLD-0" "officer" 0 decode_officerKeyHex
  refine ⟨sigB64, hsign, lookup_firstTenHeld, rfl, fun hdone => ?_⟩
  obtain ⟨⟨r, hr⟩, -⟩ := releaseDone_iff.mp hdone
  have heq := releasedAt_eq_of_ok loadHoldPubkey_firstTenHeld hsig (Ed25519.sample_binds _) hr
  revert heq
  decide

end Maranode.Api
