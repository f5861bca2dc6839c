/-
  Maranode.Common.Ed25519

  The signature scheme of `ed25519_dalek`, as a parameter of the model: keys are 32
  bytes, signatures 64, and a signature verifies under the key it was made with.

  Nothing is said about the messages a signature does not belong to; a result that
  needs it says so.
-/
import Maranode.Lib.Encoding

namespace Maranode

open Lib

/-- `[u8; N]`. -/
abbrev ByteArr (n : Nat) := { bs : Bytes // bs.length = n }

/-- `Vec<u8>::try_into`. -/
def ByteArr.ofBytes (n : Nat) (bs : Bytes) : Option (ByteArr n) :=
  if h : bs.length = n then some ⟨bs, h⟩ else none

@[simp] theorem ByteArr.ofBytes_val {n : Nat} (b : ByteArr n) :
    ByteArr.ofBytes n b.1 = some b := by
  rw [ByteArr.ofBytes, dif_pos b.2]

theorem ByteArr.ofBytes_eq_some {n : Nat} {bs : Bytes} {b : ByteArr n}
    (h : ByteArr.ofBytes n bs = some b) : bs = b.1 := by
  rw [ByteArr.ofBytes] at h
  split at h
  · next hlen => rw [← Option.some.inj h]
  · cases h

structure Ed25519 where
  /-- `SigningKey::verifying_key`. -/
  verifyingKey : ByteArr 32 → ByteArr 32
  /-- `VerifyingKey::from_bytes`: the bytes are a point of the curve. -/
  isPoint : ByteArr 32 → Bool
  /-- `Signer::sign`. -/
  sign : ByteArr 32 → Bytes → ByteArr 64
  /-- `Verifier::verify`. -/
  verify : ByteArr 32 → Bytes → ByteArr 64 → Bool
  isPoint_verifyingKey : ∀ k, isPoint (verifyingKey k) = true
  verify_sign : ∀ k m, verify (verifyingKey k) m (sign k m) = true

/-- The signature is good for one message only. -/
def Ed25519.Binds (E : Ed25519) (k : ByteArr 32) (m : Bytes) : Prop :=
  ∀ m', E.verify (E.verifyingKey k) m' (E.sign k m) = true → m' = m

/-- And under one key only. -/
def Ed25519.BindsAll (E : Ed25519) (k : ByteArr 32) (m : Bytes) : Prop :=
  ∀ pk m', E.verify pk m' (E.sign k m) = true → pk = E.verifyingKey k ∧ m' = m

/-! ## An instance -/

/-- The secret key of the first test of RFC 8032. -/
def officerKey : ByteArr 32 :=
  ⟨[0x9d, 0x61, 0xb1, 0x9d, 0xef, 0xfd, 0x5a, 0x60, 0xba, 0x84, 0x4a, 0xf4, 0x92, 0xec, 0x2c, 0xc4,
    0x44, 0x49, 0xc5, 0x69, 0x7b, 0x32, 0x69, 0x19, 0x70, 0x3b, 0xac, 0x03, 0x1c, 0xae, 0x7f, 0x60],
    rfl⟩

def officerPub : ByteArr 32 :=
  ⟨[0xd7, 0x5a, 0x98, 0x01, 0x82, 0xb1, 0x0a, 0xb7, 0xd5, 0x4b, 0xfe, 0xd3, 0xc9, 0x64, 0x07, 0x3a,
    0x0e, 0xe1, 0x72, 0xf3, 0xda, 0xa6, 0x23, 0x25, 0xaf, 0x02, 0x1a, 0x68, 0xf7, 0x07, 0x51, 0x1a],
    rfl⟩

/-- What Ed25519 makes with it of the release of `HOLD-0` by `officer` at the epoch. -/
def officerSig : ByteArr 64 :=
  ⟨[0xae, 0x3f, 0xb6, 0xfc, 0x49, 0xe9, 0x16, 0x08, 0x89, 0x22, 0xde, 0x3b, 0xa9, 0xf0, 0x8e, 0x29,
    0xec, 0xc1, 0x06, 0x52, 0xc6, 0x7e, 0x14, 0x7a, 0xfb, 0xc3, 0xe9, 0xd0, 0xe9, 0xa5, 0x50, 0xd5,
    0xc7, 0x5d, 0xaa, 0x83, 0x61, 0xbc, 0x16, 0x84, 0xdf, 0xc3, 0x1f, 0x95, 0x5b, 0x21, 0x69, 0xe9,
    0x06, 0xc1, 0x38, 0x54, 0x53, 0x62, 0x12, 0xec, 0x49, 0x67, 0xdd, 0x3f, 0x8b, 0x91, 0x73, 0x09],
    rfl⟩

/-- Bytes that stand for a message. -/
def sampleTag (m : Bytes) : ByteArr 32 :=
  ⟨(Sha256.digest m ++ List.replicate 32 0).take 32, by simp⟩

def samplePub (k : ByteArr 32) : ByteArr 32 :=
  if k = officerKey then officerPub else ⟨k.1.map (~~~ ·), by rw [List.length_map, k.2]⟩

/-- The key and the message, side by side. -/
def samplePlain (pk : ByteArr 32) (m : Bytes) : ByteArr 64 :=
  ⟨pk.1 ++ (sampleTag m).1, by rw [List.length_append, pk.2, (sampleTag m).2]⟩

theorem samplePlain_ne (m : Bytes) : samplePlain officerPub m ≠ officerSig := by
  intro h
  have hhead := congrArg (fun s : ByteArr 64 => s.1.head?) h
  revert hhead
  show some (0xd7 : UInt8) = some 0xae → False
  decide

/-- An instance to apply results at: what Ed25519 does with the officer's signature of
    `signed`, and signatures that name their message for everything else. -/
def Ed25519.sample (signed : Bytes) : Ed25519 where
  verifyingKey := samplePub
  isPoint _ := true
  sign k m := if k = officerKey ∧ m = signed then officerSig else samplePlain (samplePub k) m
  verify pk m sig :=
    if pk = officerPub ∧ sig = officerSig then decide (m = signed)
    else decide (sig = samplePlain pk m)
  isPoint_verifyingKey _ := rfl
  verify_sign k m := by
    by_cases h : k = officerKey ∧ m = signed
    · rw [if_pos h, samplePub, if_pos h.1, if_pos ⟨rfl, rfl⟩, h.2, decide_eq_true rfl]
    · have hne : ¬ (samplePub k = officerPub ∧ samplePlain (samplePub k) m = officerSig) := by
        rintro ⟨hpub, hsig⟩
        rw [hpub] at hsig
        exact samplePlain_ne m hsig
      rw [if_neg h, if_neg hne, decide_eq_true rfl]

theorem Ed25519.sample_binds (signed : Bytes) :
    (Ed25519.sample signed).Binds officerKey signed := by
  intro m h
  simp only [Ed25519.sample, samplePub, if_true, and_self] at h
  exact of_decide_eq_true h

/-- Signatures that start like none of `samplePlain`. -/
def Uncommon (sig : ByteArr 64) : Prop :=
  sig.1.head? ≠ some 0xd7 ∧ sig.1.head? ≠ some 0

/-- The officer's public key, and one for all other keys. -/
def strictPub (k : ByteArr 32) : ByteArr 32 :=
  if k = officerKey then officerPub else ⟨List.replicate 32 0, List.length_replicate⟩

theorem strictPub_officerKey : strictPub officerKey = officerPub := by
  rw [strictPub, if_pos rfl]

theorem samplePlain_strictPub_ne {sig : ByteArr 64} (h : Uncommon sig) (k : ByteArr 32)
    (m : Bytes) : samplePlain (strictPub k) m ≠ sig := by
  intro heq
  by_cases hk : k = officerKey
  · refine h.1 ?_
    rw [← heq, strictPub, if_pos hk]
    rfl
  · refine h.2 ?_
    rw [← heq, strictPub, if_neg hk]
    rfl

/-- An instance whose signature `sig` of `signed` by the officer verifies nothing else. -/
def Ed25519.strict (signed : Bytes) (sig : ByteArr 64) (h : Uncommon sig) : Ed25519 where
  verifyingKey := strictPub
  isPoint _ := true
  sign k m := if k = officerKey ∧ m = signed then sig else samplePlain (strictPub k) m
  verify pk m s :=
    if s = sig then decide (pk = officerPub ∧ m = signed) else decide (s = samplePlain pk m)
  isPoint_verifyingKey _ := rfl
  verify_sign k m := by
    by_cases hkm : k = officerKey ∧ m = signed
    · rw [if_pos hkm, if_pos rfl, strictPub, if_pos hkm.1, hkm.2, decide_eq_true ⟨rfl, rfl⟩]
    · rw [if_neg hkm, if_neg (samplePlain_strictPub_ne h k m), decide_eq_true rfl]

theorem Ed25519.strict_bindsAll (signed : Bytes) (sig : ByteArr 64) (h : Uncommon sig) :
    (Ed25519.strict signed sig h).BindsAll officerKey signed := by
  intro pk m hverify
  have hpub : (Ed25519.strict signed sig h).verifyingKey officerKey = officerPub :=
    strictPub_officerKey
  have hsig : (Ed25519.strict signed sig h).sign officerKey signed = sig := by
    rw [Ed25519.strict]
    exact if_pos ⟨rfl, rfl⟩
  rw [hsig, Ed25519.strict] at hverify
  dsimp only at hverify
  rw [if_pos rfl] at hverify
  rw [hpub]
  exact of_decide_eq_true hverify

/-- Another key. -/
def otherKey : ByteArr 32 := ⟨List.replicate 32 0, List.length_replicate⟩

/-- Its signatures are not the officer's. -/
theorem Ed25519.sample_verify_otherKey (signed m m' : Bytes) :
    (Ed25519.sample signed).verify officerPub m ((Ed25519.sample signed).sign otherKey m')
      = false := by
  have hkey : ¬ (otherKey = officerKey ∧ m' = signed) := by
    rintro ⟨h, -⟩
    revert h
    decide
  have hhead : (samplePlain (samplePub otherKey) m').1.head? = some 0xff := rfl
  have hne : samplePlain (samplePub otherKey) m' ≠ officerSig := by
    intro h
    rw [h] at hhead
    exact absurd hhead (by decide)
  have hne' : samplePlain (samplePub otherKey) m' ≠ samplePlain officerPub m := by
    intro h
    rw [h] at hhead
    have hofficer : (samplePlain officerPub m).1.head? = some 0xd7 := rfl
    rw [hofficer] at hhead
    exact absurd hhead (by decide)
  simp only [Ed25519.sample, if_neg hkey, if_neg (fun h : _ ∧ _ => hne h.2), decide_eq_false hne']

end Maranode
