/-
  Maranode.Api.TeeEncrypt

  `tee_encrypt.rs`: model output encrypted under the TEE key, as base64 of the nonce and
  what AES-256-GCM makes of the text.
-/
import Maranode.Common.Ed25519

namespace Maranode.Api

open Lib

/-- `Aes256Gcm`: the ciphertext is as long as the plaintext and its 16-byte tag. -/
structure Aes256Gcm where
  encrypt : ByteArr 32 → ByteArr 12 → Bytes → Except String Bytes
  length_encrypt : ∀ key nonce plaintext ct, encrypt key nonce plaintext = .ok ct →
    ct.length = plaintext.length + 16

variable (G : Aes256Gcm)

/-- The key, and the nonce `OsRng` fills for the text at hand. -/
structure TeeEncryptKey where
  key : ByteArr 32
  nonce : ByteArr 12

/-- Nonce and ciphertext. -/
def TeeEncryptKey.encrypt (k : TeeEncryptKey) (plaintext : Bytes) : Except String Bytes :=
  match G.encrypt k.key k.nonce plaintext with
  | .error e => .error ("encrypt: " ++ e)
  | .ok ct => .ok (k.nonce.1 ++ ct)

def TeeEncryptKey.encryptStr (k : TeeEncryptKey) (s : String) : Except String String :=
  (k.encrypt G (Text.encode s.toList)).map fun raw => String.ofList (Base64.encode raw)

variable {G}

/-- What is sent is longer than the text. -/
theorem TeeEncryptKey.length_lt_of_encryptStr {k : TeeEncryptKey} {s out : String}
    (h : k.encryptStr G s = .ok out) : s.length < out.length := by
  rw [encryptStr, encrypt] at h
  cases hct : G.encrypt k.key k.nonce (Text.encode s.toList) with
  | error e =>
      rw [hct] at h
      cases h
  | ok ct =>
      rw [hct] at h
      obtain rfl := Except.ok.inj h
      have hlength := G.length_encrypt _ _ _ _ hct
      have htext := Text.length_le_length_encode s.toList
      have hraw := Base64.length_le_length_encode (k.nonce.1 ++ ct)
      rw [List.length_append] at hraw
      rw [String.length_ofList, ← String.length_toList]
      omega

/-! ## Decrypting -/

/-- The cipher with its other half: what was encrypted is decrypted. -/
structure TeeCipher extends Aes256Gcm where
  decrypt : ByteArr 32 → ByteArr 12 → Bytes → Except String Bytes
  decrypt_encrypt : ∀ key nonce plaintext ct, encrypt key nonce plaintext = .ok ct →
    decrypt key nonce ct = .ok plaintext

/-- `TeeEncryptKey::from_hex`. -/
def teeKeyFromHex (hexKey : String) : Except String (ByteArr 32) :=
  match Hex.decode hexKey.toList with
  | none => .error "invalid hex"
  | some bytes =>
      match ByteArr.ofBytes 32 bytes with
      | none => .error "tee encrypt key must be 32 bytes"
      | some key => .ok key

variable (C : TeeCipher)

/-- `TeeEncryptKey::decrypt`: the nonce comes first. -/
def teeDecrypt (key : ByteArr 32) (data : Bytes) : Except String Bytes :=
  match ByteArr.ofBytes 12 (data.take 12) with
  | none => .error "ciphertext too short"
  | some nonce =>
      match C.decrypt key nonce (data.drop 12) with
      | .error e => .error ("decrypt: " ++ e)
      | .ok plaintext => .ok plaintext

def decryptStr (key : ByteArr 32) (b64 : String) : Except String String :=
  match Base64.decode b64.toList with
  | none => .error "Invalid padding"
  | some raw =>
      match teeDecrypt C key raw with
      | .error e => .error e
      | .ok plaintext =>
          match Text.decode plaintext with
          | none => .error "invalid utf-8 sequence"
          | some text => .ok (String.ofList text)

variable {C}

theorem decryptStr_of_encryptStr {k : TeeEncryptKey} {s out : String}
    (h : k.encryptStr C.toAes256Gcm s = .ok out) : decryptStr C k.key out = .ok s := by
  rw [TeeEncryptKey.encryptStr, TeeEncryptKey.encrypt] at h
  cases hct : C.encrypt k.key k.nonce (Text.encode s.toList) with
  | error e =>
      rw [hct] at h
      cases h
  | ok ct =>
      rw [hct] at h
      obtain rfl := Except.ok.inj h
      have htake : (k.nonce.1 ++ ct).take 12 = k.nonce.1 := List.take_left' k.nonce.2
      have hdrop : (k.nonce.1 ++ ct).drop 12 = ct := List.drop_left' k.nonce.2
      rw [decryptStr, String.toList_ofList, Base64.decode_encode]
      dsimp only
      rw [teeDecrypt, htake, hdrop, ByteArr.ofBytes_val]
      dsimp only
      rw [C.decrypt_encrypt _ _ _ _ hct]
      dsimp only
      rw [Text.decode_encode]
      dsimp only
      rw [String.ofList_toList]

/-- A text is not its own encryption. -/
theorem ne_of_encryptStr {G : Aes256Gcm} {k : TeeEncryptKey} {s out : String}
    (h : k.encryptStr G s = .ok out) : out ≠ s := by
  rintro rfl
  exact Nat.lt_irrefl _ (TeeEncryptKey.length_lt_of_encryptStr h)

/-! ## An instance -/

theorem length_zeroKey : (List.replicate 32 (0 : UInt8)).length = 32 := List.length_replicate

def zeroKey : ByteArr 32 := ⟨List.replicate 32 0, length_zeroKey⟩

/-- The same byte everywhere. -/
def nonceOf (b : UInt8) : ByteArr 12 := ⟨List.replicate 12 b, List.length_replicate⟩

/-- `hi`, and what AES-256-GCM makes of it under the zero key and nonce. -/
def hiBytes : Bytes := [0x68, 0x69]

def hiSealed : Bytes :=
  [0xa6, 0xce, 0xad, 0x14, 0x5c, 0xef, 0x3e, 0x9e, 0xeb, 0x28, 0xf8, 0xda, 0x02, 0x39, 0xae,
    0xf5, 0x38, 0xe5]

/-- `ok`, and what AES-256-GCM makes of it under the zero key and a nonce of ones. -/
def okBytes : Bytes := [0x6f, 0x6b]

def okSealed : Bytes :=
  [0x1a, 0x2b, 0x7a, 0x11, 0xf7, 0x5f, 0xa9, 0x1f, 0xef, 0x8c, 0x0e, 0xd5, 0x46, 0xff, 0x21,
    0xb7, 0x53, 0xbb]

def noTag : Bytes := List.replicate 16 0

def sampleSeal (key : ByteArr 32) (nonce : ByteArr 12) (m : Bytes) : Bytes :=
  if key = zeroKey ∧ nonce = nonceOf 0 ∧ m = hiBytes then hiSealed
  else if key = zeroKey ∧ nonce = nonceOf 1 ∧ m = okBytes then okSealed
  else m ++ noTag

def sampleOpen (key : ByteArr 32) (nonce : ByteArr 12) (ct : Bytes) : Bytes :=
  if key = zeroKey ∧ nonce = nonceOf 0 ∧ ct = hiSealed then hiBytes
  else if key = zeroKey ∧ nonce = nonceOf 1 ∧ ct = okSealed then okBytes
  else ct.take (ct.length - 16)

/-- The tags of the two are not zero. -/
theorem append_noTag_ne {m sealed : Bytes} (hlen : sealed.length = 18)
    (htag : sealed.drop 2 ≠ noTag) : m ++ noTag ≠ sealed := by
  rintro rfl
  rw [List.length_append, noTag, List.length_replicate] at hlen
  have htwo : m.length = 2 := by omega
  exact htag (List.drop_left' htwo)

theorem length_sampleSeal (key : ByteArr 32) (nonce : ByteArr 12) (m : Bytes) :
    (sampleSeal key nonce m).length = m.length + 16 := by
  rw [sampleSeal]
  split
  · next h =>
      rw [h.2.2]
      rfl
  · split
    · next h =>
        rw [h.2.2]
        rfl
    · rw [List.length_append, noTag, List.length_replicate]

theorem sampleOpen_sampleSeal (key : ByteArr 32) (nonce : ByteArr 12) (m : Bytes) :
    sampleOpen key nonce (sampleSeal key nonce m) = m := by
  rw [sampleSeal]
  split
  · next h => rw [sampleOpen, if_pos ⟨h.1, h.2.1, rfl⟩, h.2.2]
  · split
    · next h =>
        have hne : ¬ (key = zeroKey ∧ nonce = nonceOf 0 ∧ okSealed = hiSealed) := by
          rintro ⟨-, -, hsame⟩
          revert hsame
          decide
        rw [sampleOpen, if_neg hne, if_pos ⟨h.1, h.2.1, rfl⟩, h.2.2]
    · have hhi : m ++ noTag ≠ hiSealed := append_noTag_ne rfl (by decide)
      have hok : m ++ noTag ≠ okSealed := append_noTag_ne rfl (by decide)
      rw [sampleOpen, if_neg fun h => hhi h.2.2, if_neg fun h => hok h.2.2]
      refine List.take_left' ?_
      rw [List.length_append, noTag, List.length_replicate, Nat.add_sub_cancel]

/-- An instance to apply results at: what AES-256-GCM does with the two texts, and a text
    with an empty tag for everything else. -/
def TeeCipher.sample : TeeCipher where
  encrypt key nonce plaintext := .ok (sampleSeal key nonce plaintext)
  length_encrypt := by
    intro key nonce plaintext ct h
    rw [← Except.ok.inj h, length_sampleSeal]
  decrypt key nonce ct := .ok (sampleOpen key nonce ct)
  decrypt_encrypt := by
    intro key nonce plaintext ct h
    rw [← Except.ok.inj h, sampleOpen_sampleSeal]

def hiEncrypted : String := "AAAAAAAAAAAAAAAAps6tFFzvPp7rKPjaAjmu9Tjl"

def okEncrypted : String := "AQEBAQEBAQEBAQEBGit6EfdfqR/vjA7VRv8ht1O7"

theorem encryptStr_hi :
    TeeEncryptKey.encryptStr TeeCipher.sample.toAes256Gcm ⟨zeroKey, nonceOf 0⟩ "hi" =
      .ok hiEncrypted := by
  decide +kernel

theorem encryptStr_ok :
    TeeEncryptKey.encryptStr TeeCipher.sample.toAes256Gcm ⟨zeroKey, nonceOf 1⟩ "ok" =
      .ok okEncrypted := by
  decide +kernel

end Maranode.Api
