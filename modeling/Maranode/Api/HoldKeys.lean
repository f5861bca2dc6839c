/-
  Maranode.Api.HoldKeys

  Which key a hold answers to when the hold key is generated anew.

  A record keeps the public key that was current when it was placed.  The signature
  over the placement is made with `hold.key` or with the key of the request, and a
  release is checked against the current `hold.pub`; both are the record's key only
  as long as nobody brings in another one.
-/
import Maranode.Api.HoldStore
import Maranode.Lib.Run

namespace Maranode.Api

open Lib

variable (X : External) (E : Ed25519)

/-! ## Calls -/

/-- A call, with how each of its writes ends. -/
inductive HoldOp where
  | generate (key : ByteArr 32) (pubFault keyFault : FileWrite.Fault)
  | place (a : PlaceArgs) (placedAt : DateTime) (w : RecordWrite)
  | release (holdId releasedBy releaseSigB64 : String) (clk : ReleaseClock) (w : RecordWrite)

def HoldDir.next (d : HoldDir) : HoldOp → HoldDir
  | .generate key pubFault keyFault => (generateHoldKey E d key pubFault keyFault).1
  | .place a placedAt w => (placeHold X E d a placedAt w).1
  | .release holdId releasedBy sigB64 clk w =>
      (releaseHold X E d holdId releasedBy sigB64 clk w).1

def HoldDir.step (d : HoldDir) (op : HoldOp) : Option HoldDir := some (d.next X E op)

/-! ## A record and its own key -/

/-- The key a record names. -/
def HoldRecord.ownKey (r : HoldRecord) : Option (ByteArr 32) :=
  (Base64.decode r.holdKeyPubkey.toList).bind (ByteArr.ofBytes 32)

/-- The signature over the placement is good under the record's key. -/
def HoldRecord.PlacementVerifies (r : HoldRecord) : Prop :=
  ∃ pubkey sig, r.ownKey = some pubkey ∧ Base64.decode r.placementSig.toList = some sig.1 ∧
    E.verify pubkey (placementPayload X r.id r.placedBy r.reason r.seqFrom r.seqTo r.placedAt
      r.holdKeyPubkey) sig = true

/-- A signature over a release is good under the record's key. -/
def HoldRecord.ReleasableBy (r : HoldRecord) (releasedBy sigB64 : String) (releasedAt : DateTime) :
    Prop :=
  ∃ pubkey sig, r.ownKey = some pubkey ∧ decodeReleaseSig sigB64 = .ok sig ∧
    E.verify pubkey (releasePayload X r.id releasedBy releasedAt) sig = true

/-- What placed the record, and what released it if it is released, was signed with
    its own key. -/
structure HoldRecord.OwnKeyOnly (r : HoldRecord) : Prop where
  placement : r.PlacementVerifies X E
  released : ∀ releasedAt, r.releasedAt = some releasedAt → ∃ releasedBy sigB64,
    r.releasedBy = some releasedBy ∧ r.releaseSig = some sigB64 ∧
      r.ReleasableBy X E releasedBy sigB64 releasedAt

/-- Every stored record is so. -/
def HoldDir.OwnKeyOnly (d : HoldDir) : Prop :=
  ∀ id r, d.lookup id = some r → r.OwnKeyOnly X E

/-- A placement that is saved is signed with the private half of `hold.pub`, and a hold is
    released while `hold.pub` is still the key it was placed under. -/
def SameKey (d : HoldDir) : HoldOp → Prop
  | .generate _ _ _ => True
  | .place a _ w =>
      w = .written → ∀ pubkey key, loadHoldPubkey E d = .ok pubkey →
        resolveSigningKey d a.signingKeyHex = .ok key → E.verifyingKey key = pubkey
  | .release holdId _ _ clk w =>
      w = .written → ∀ r, d.lookup holdId = some r → r.isActive clk.active = true →
        ∃ pubkey, loadHoldPubkey E d = .ok pubkey ∧ r.ownKey = some pubkey

variable {X E}

/-! ## Every call keeps it -/

theorem PlaceArgs.ownKey_record (a : PlaceArgs) (placedAt : DateTime) (pubkey key : ByteArr 32) :
    (a.record X E placedAt pubkey key).ownKey = some pubkey := by
  simp [HoldRecord.ownKey, PlaceArgs.record, Base64.decode_encode]

theorem PlaceArgs.ownKeyOnly_record (a : PlaceArgs) (placedAt : DateTime) (key : ByteArr 32) :
    (a.record X E placedAt (E.verifyingKey key) key).OwnKeyOnly X E where
  placement := by
    refine ⟨E.verifyingKey key, _, a.ownKey_record placedAt _ key, ?_, E.verify_sign key _⟩
    simp [PlaceArgs.record, Base64.decode_encode]
  released := fun _ h => nomatch h

/-- A record that is saved, or spoiled, or left alone. -/
theorem HoldDir.OwnKeyOnly.save {d : HoldDir} (h : d.OwnKeyOnly X E) {r : HoldRecord}
    {w : RecordWrite} (hr : w = .written → r.OwnKeyOnly X E) :
    (saveHold d r w).OwnKeyOnly X E := by
  intro id r' hr'
  rw [lookup_saveHold] at hr'
  by_cases hid : id = r.id
  · rw [hid, Function.update_self] at hr'
    cases w with
    | written => exact Option.some.inj hr' ▸ hr rfl
    | refused e => exact h _ _ hr'
    | cutOff e => cases hr'
  · rw [Function.update_of_ne hid] at hr'
    exact h id r' hr'

theorem HoldDir.OwnKeyOnly.next {d : HoldDir} (h : d.OwnKeyOnly X E) {op : HoldOp}
    (hsame : SameKey E d op) : (d.next X E op).OwnKeyOnly X E := by
  cases op with
  | generate key pubFault keyFault =>
      intro id r hr
      exact h id r (congrFun (lookup_generateHoldKey E d key pubFault keyFault) id ▸ hr)
  | place a placedAt w =>
      show (saveRecord d w (placeRecord X E d a placedAt)).1.OwnKeyOnly X E
      rcases hres : placeRecord X E d a placedAt with e | r
      · exact h
      · obtain ⟨pubkey, key, hpub, hkey, rfl⟩ := placeRecord_eq_ok.mp hres
        refine h.save fun hw => ?_
        obtain rfl := hsame hw pubkey key hpub hkey
        exact a.ownKeyOnly_record placedAt key
  | release holdId releasedBy sigB64 clk w =>
      show (saveRecord d w (releaseRecord X E d holdId releasedBy sigB64 clk)).1.OwnKeyOnly X E
      rcases hres : releaseRecord X E d holdId releasedBy sigB64 clk with e | r
      · exact h
      · obtain ⟨rec, pubkey, sig, hrec, hactive, hpub, hsig, hverify, rfl⟩ :=
          releaseRecord_eq_ok.mp hres
        refine h.save fun hw => ⟨(h holdId rec hrec).placement, fun t ht => ?_⟩
        obtain ⟨pubkey', hpub', hown⟩ := hsame hw rec hrec hactive
        obtain rfl : pubkey = pubkey' := Except.ok.inj (hpub.symm.trans hpub')
        rw [← HoldDir.id_of_lookup hrec] at hverify
        obtain rfl : clk.releasedAt = t := Option.some.inj ht
        exact ⟨releasedBy, sigB64, rfl, rfl, pubkey, sig, hown, hsig, hverify⟩

end Maranode.Api
