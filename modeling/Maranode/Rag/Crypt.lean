/-
  Maranode.Rag.Crypt

  `crypt.rs`: texts of the RAG store at rest.  An encrypted text is `enc:` and the hex of
  a nonce and what AES-256-GCM made of it; a text stored without a key is the text itself.
-/
import Maranode.Store.Kek

namespace Maranode.Rag

open Lib Store

/-- The data-encryption key. -/
abbrev Dek := ByteArr 32

variable (G : Aead)

def PREFIX : Text := "enc:".toList

/-- `value.starts_with(PREFIX)`. -/
def isEncrypted (value : String) : Bool := PREFIX.isPrefixOf value.toList

/-- `nonce` is what `OsRng` fills. -/
def encrypt (nonce : ByteArr 12) (key : Dek) (plaintext : String) : Except String String :=
  match G.encrypt key nonce (Text.encode plaintext.toList) with
  | .error e => .error ("aes-gcm encrypt: " ++ e)
  | .ok ct => .ok (String.ofList (PREFIX ++ Hex.encode (nonce.1 ++ ct)))

def decrypt (key : Dek) (stored : String) : Except String String :=
  if isEncrypted stored then
    match Hex.decode (stored.toList.drop PREFIX.length) with
    | none => .error "decoding ciphertext hex"
    | some blob =>
        match splitNonce blob with
        | none => .error "ciphertext too short"
        | some (nonce, ct) =>
            match G.decrypt key nonce ct with
            | .error _ => .error "aes-gcm decrypt failed (wrong key or corrupted data)"
            | .ok plain =>
                match Text.decode plain with
                | none => .error "decrypted bytes are not utf-8"
                | some cs => .ok (String.ofList cs)
  else .error "value does not have enc: prefix"

/-- Without a key the value is stored as it is. -/
def maybeEncrypt (nonce : ByteArr 12) (key : Option Dek) (value : String) :
    Except String String :=
  match key with
  | some k => encrypt G nonce k value
  | none => .ok value

def maybeDecrypt (key : Option Dek) (value : String) : Except String String :=
  if isEncrypted value then
    match key with
    | none => .error "value is encrypted but no DEK is available"
    | some k => decrypt G k value
  else .ok value

/-- `maybe_decrypt(..).unwrap_or(raw)`. -/
def readCell (key : Option Dek) (raw : String) : String :=
  match maybeDecrypt G key raw with
  | .ok text => text
  | .error _ => raw

/-! ## What comes back -/

variable {G} {nonce : ByteArr 12} {key : Dek} {text stored : String}

theorem maybeDecrypt_of_plain (h : isEncrypted stored = false) (key : Option Dek) :
    maybeDecrypt G key stored = .ok stored := by
  show (if isEncrypted stored then _ else Except.ok stored) = _
  rw [h]
  rfl

theorem readCell_of_plain (h : isEncrypted stored = false) (key : Option Dek) :
    readCell G key stored = stored := by
  rw [readCell, maybeDecrypt_of_plain h]

/-- Decrypting what was encrypted comes down to one decryption. -/
theorem decrypt_of_encrypt (key' : Dek) (h : encrypt G nonce key text = .ok stored) :
    isEncrypted stored = true ∧
      ∃ ct, G.encrypt key nonce (Text.encode text.toList) = .ok ct ∧
        decrypt G key' stored =
          match G.decrypt key' nonce ct with
          | .error _ => .error "aes-gcm decrypt failed (wrong key or corrupted data)"
          | .ok plain =>
              match Text.decode plain with
              | none => .error "decrypted bytes are not utf-8"
              | some cs => .ok (String.ofList cs) := by
  rw [encrypt] at h
  cases hct : G.encrypt key nonce (Text.encode text.toList) with
  | error e =>
      rw [hct] at h
      cases h
  | ok ct =>
      rw [hct] at h
      obtain rfl := Except.ok.inj h
      have hpre : isEncrypted (String.ofList (PREFIX ++ Hex.encode (nonce.1 ++ ct))) = true := by
        rw [isEncrypted, String.toList_ofList]
        exact List.isPrefixOf_iff_prefix.mpr (List.prefix_append _ _)
      refine ⟨hpre, ct, rfl, ?_⟩
      rw [decrypt, if_pos hpre, String.toList_ofList, List.drop_left, Hex.decode_encode]
      simp only [splitNonce_append]

/-- The key that encrypted decrypts. -/
theorem decrypt_encrypt (h : encrypt G nonce key text = .ok stored) :
    decrypt G key stored = .ok text := by
  obtain ⟨-, ct, hct, hdecrypt⟩ := decrypt_of_encrypt key h
  rw [hdecrypt, G.decrypt_encrypt _ _ _ _ hct]
  simp only [Text.decode_encode, String.ofList_toList]

/-- No other key does. -/
theorem eq_of_decrypt_encrypt {key' : Dek} {text' : String}
    (h : encrypt G nonce key text = .ok stored) (hdecrypt : decrypt G key' stored = .ok text') :
    key' = key := by
  obtain ⟨-, ct, hct, heq⟩ := decrypt_of_encrypt key' h
  rw [heq] at hdecrypt
  cases hdec : G.decrypt key' nonce ct with
  | error e =>
      rw [hdec] at hdecrypt
      cases hdecrypt
  | ok m => exact G.key_of_decrypt _ _ _ _ _ _ hct hdec

end Maranode.Rag
