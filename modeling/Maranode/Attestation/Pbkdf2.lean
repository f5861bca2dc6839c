/-
  Maranode.Attestation.Pbkdf2

  `pbkdf2_hmac_sha256` of `seal.rs`: the loop that derives a key from a passphrase.

  HMAC-SHA256 is a parameter.  The loop keeps the last link of the chain and the xor of all
  links so far (`pbkdf2Rounds_eq`), so it leaves the first block of PBKDF2.
-/
import Maranode.Attestation.Seal
import Maranode.Lib.Pbkdf2

namespace Maranode.Attestation

open Lib

/-! ## seal.rs -/

def SOFTWARE_SALT_ITERATIONS : UInt32 := 200000

/-- `u32::to_be_bytes`. -/
def toBeBytes (n : UInt32) : Bytes :=
  [(n >>> 24).toUInt8, (n >>> 16).toUInt8, (n >>> 8).toUInt8, n.toUInt8]

/-- The two arrays the loop writes. -/
structure Pbkdf2State where
  u : ByteArr 32
  out : ByteArr 32

/-- `for (a, b) in out.iter_mut().zip(u.iter()) { *a ^= b; }` -/
def xorInto (out u : ByteArr 32) : ByteArr 32 :=
  ⟨List.zipWith (fun a b => a ^^^ b) out.1 u.1, by
    rw [List.length_zipWith, out.2, u.2, Nat.min_self]⟩

variable (hmac : Bytes → Bytes → ByteArr 32)

/-- The body of the loop. -/
def pbkdf2Round (password : Bytes) (s : Pbkdf2State) : Pbkdf2State :=
  let un := hmac password s.u.1
  ⟨un, xorInto s.out un⟩

/-- As many rounds as are left. -/
def pbkdf2Rounds (password : Bytes) : Nat → Pbkdf2State → Pbkdf2State
  | 0, s => s
  | n + 1, s => pbkdf2Rounds password n (pbkdf2Round hmac password s)

/-- `pbkdf2_hmac_sha256`: what is left in `out`, which is written whatever it was.  The loop is
    over `1..rounds`. -/
def pbkdf2HmacSha256 (password salt : Bytes) (rounds : UInt32) (_out : ByteArr 32) : ByteArr 32 :=
  let u1 := hmac password (salt ++ toBeBytes 1)
  (pbkdf2Rounds hmac password (rounds.toNat - 1) ⟨u1, u1⟩).out

/-- `pbkdf2_key`: the key is zeros before it is written. -/
def pbkdf2Key (passphrase : String) (salt : ByteArr 16) : ByteArr 32 :=
  let key : ByteArr 32 := Pbkdf2.Block.zero
  pbkdf2HmacSha256 hmac (Text.encode passphrase.toList) salt.1 SOFTWARE_SALT_ITERATIONS key

/-- The cryptography of `seal.rs`, from HMAC-SHA256 and AES-256-GCM. -/
def SealCrypto.ofHmac (encrypt decrypt : ByteArr 32 → ByteArr 12 → Bytes → Except String Bytes) :
    SealCrypto where
  Key := ByteArr 32
  pbkdf2Key := Attestation.pbkdf2Key hmac
  encrypt
  decrypt

/-! ## The standard -/

variable {hmac} {password salt : Bytes}

/-- The block index is written as the standard has it. -/
theorem toBeBytes_one : toBeBytes 1 = Pbkdf2.int4 1 := by decide

/-- The arrays after some links: the last one, and the xor of all. -/
def afterLinks (hmac : Bytes → Bytes → ByteArr 32) (password salt : Bytes) (c : Nat) :
    Pbkdf2State :=
  ⟨Pbkdf2.u (hmac password) salt 1 c, Pbkdf2.f (hmac password) salt 1 c⟩

/-- One round adds one link. -/
theorem pbkdf2Round_afterLinks (c : Nat) :
    pbkdf2Round hmac password (afterLinks hmac password salt (c + 1)) =
      afterLinks hmac password salt (c + 2) := by
  show Pbkdf2State.mk _ _ = Pbkdf2State.mk _ _
  rw [Pbkdf2.f_succ _ _ _ (c + 1)]
  rfl

theorem pbkdf2Rounds_afterLinks (n c : Nat) :
    pbkdf2Rounds hmac password n (afterLinks hmac password salt (c + 1)) =
      afterLinks hmac password salt (c + 1 + n) := by
  induction n generalizing c with
  | zero => rfl
  | succ n ih =>
      have hcount : c + 1 + 1 + n = c + 1 + (n + 1) := by omega
      rw [pbkdf2Rounds, pbkdf2Round_afterLinks, ih, hcount]

/-- The first link is taken before the loop, which runs one time less. -/
theorem pbkdf2HmacSha256_of_succ {rounds : UInt32} {n : Nat} (hrounds : rounds.toNat = n + 1)
    (out : ByteArr 32) :
    pbkdf2HmacSha256 hmac password salt rounds out =
      Pbkdf2.f (hmac password) salt 1 (n + 1) := by
  have hstart : (⟨hmac password (salt ++ toBeBytes 1), hmac password (salt ++ toBeBytes 1)⟩ :
      Pbkdf2State) = afterLinks hmac password salt (0 + 1) := by
    rw [afterLinks, Pbkdf2.f_one, toBeBytes_one]
    rfl
  have hcount : 0 + 1 + (rounds.toNat - 1) = n + 1 := by omega
  rw [pbkdf2HmacSha256, hstart, pbkdf2Rounds_afterLinks, hcount]
  rfl

/-- **PBKDF2.**  What is derived is the first block of RFC 8018, for every number of rounds
    from one on. -/
theorem pbkdf2HmacSha256_eq (hmac : Bytes → Bytes → ByteArr 32) (password salt : Bytes)
    {rounds : UInt32} (hrounds : 1 ≤ rounds) (out : ByteArr 32) :
    pbkdf2HmacSha256 hmac password salt rounds out =
      Pbkdf2.f (hmac password) salt 1 rounds.toNat := by
  have hpos : 1 ≤ rounds.toNat := UInt32.le_iff_toNat_le.mp hrounds
  have hsucc : rounds.toNat = rounds.toNat - 1 + 1 := by omega
  rw [pbkdf2HmacSha256_of_succ hsucc out, ← hsucc]

/-- The key of a sealed blob is the block of as many rounds as the constant says. -/
theorem pbkdf2Key_ofHmac (encrypt decrypt : ByteArr 32 → ByteArr 12 → Bytes → Except String Bytes)
    (passphrase : String) (salt : ByteArr 16) :
    (SealCrypto.ofHmac hmac encrypt decrypt).pbkdf2Key passphrase salt =
      Pbkdf2.f (hmac (Text.encode passphrase.toList)) salt.1 1 200000 := by
  have hkey : pbkdf2Key hmac passphrase salt =
      Pbkdf2.f (hmac (Text.encode passphrase.toList)) salt.1 1 200000 :=
    pbkdf2HmacSha256_of_succ (n := 199999) rfl Pbkdf2.Block.zero
  dsimp only [SealCrypto.ofHmac]
  exact hkey

/-- HMAC-SHA256. -/
def hmacSha256 (password msg : Bytes) : ByteArr 32 :=
  ⟨Sha256.hmac password msg, Sha256.length_digest _⟩

/-- Two rounds, over the real function. -/
theorem pbkdf2HmacSha256_two :
    (1 : UInt32) ≤ 2 ∧
      pbkdf2HmacSha256 hmacSha256 (Text.encode "password".toList) (Text.encode "salt".toList) 2
          ⟨List.replicate 32 0, List.length_replicate⟩ =
        Pbkdf2.f (hmacSha256 (Text.encode "password".toList)) (Text.encode "salt".toList) 1
          (2 : UInt32).toNat :=
  ⟨by decide, pbkdf2HmacSha256_eq hmacSha256 _ _ (by decide) _⟩

example : (pbkdf2HmacSha256 hmacSha256 (Text.encode "password".toList)
    (Text.encode "salt".toList) 2 ⟨List.replicate 32 0, List.length_replicate⟩).1.take 8 =
      [0xae, 0x4d, 0x0c, 0x95, 0xaf, 0x6b, 0x46, 0xd3] := by
  decide +kernel

end Maranode.Attestation
