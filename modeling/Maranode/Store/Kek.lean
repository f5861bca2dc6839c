/-
  Maranode.Store.Kek

  `kek.rs`: the master key wraps the data-encryption keys of the workspaces.  A wrapped
  key is the text `wrapped:` and the hex of a nonce and what AES-256-GCM made of the key's
  hex; a legacy key is that hex itself.
-/
import Maranode.Common.Ed25519

namespace Maranode.Store

open Lib

/-- `Aes256Gcm`: what was encrypted is decrypted with the key and the nonce, nothing else
    is, and no other key decrypts it. -/
structure Aead where
  encrypt : ByteArr 32 → ByteArr 12 → Bytes → Except String Bytes
  decrypt : ByteArr 32 → ByteArr 12 → Bytes → Except String Bytes
  decrypt_encrypt : ∀ key nonce m ct, encrypt key nonce m = .ok ct →
    decrypt key nonce ct = .ok m
  encrypt_decrypt : ∀ key nonce m ct, decrypt key nonce ct = .ok m →
    encrypt key nonce m = .ok ct
  key_of_decrypt : ∀ key key' nonce m m' ct, encrypt key nonce m = .ok ct →
    decrypt key' nonce ct = .ok m' → key' = key

/-- The master key. -/
abbrev Kek := ByteArr 32

variable (G : Aead)

/-! ## Wrapping -/

def PREFIX : Text := "wrapped:".toList

/-- `nonce` is what `OsRng` fills. -/
def wrapDek (nonce : ByteArr 12) (kek : Kek) (dekHex : String) : Except String String :=
  match G.encrypt kek nonce (Text.encode dekHex.toList) with
  | .error e => .error ("kek wrap: " ++ e)
  | .ok ct => .ok (String.ofList (PREFIX ++ Hex.encode (nonce.1 ++ ct)))

/-- `blob.split_at(12)`. -/
def splitNonce (blob : Bytes) : Option (ByteArr 12 × Bytes) :=
  if h : 12 ≤ blob.length then
    some (⟨blob.take 12, List.length_take_of_le h⟩, blob.drop 12)
  else none

def unwrapDek (kek : Kek) (wrapped : String) : Except String String :=
  if PREFIX.isPrefixOf wrapped.toList then
    match Hex.decode (wrapped.toList.drop PREFIX.length) with
    | none => .error "decoding wrapped dek hex"
    | some blob =>
        match splitNonce blob with
        | none => .error "wrapped dek too short"
        | some (nonce, ct) =>
            match G.decrypt kek nonce ct with
            | .error _ => .error "kek unwrap failed — wrong key or corrupted data"
            | .ok plain =>
                match Text.decode plain with
                | none => .error "unwrapped dek is not utf-8"
                | some hex => .ok (String.ofList hex)
  else .error "value does not have wrapped: prefix"

def isWrapped (value : String) : Bool := PREFIX.isPrefixOf value.toList

/-- What `rotate_all` makes of one stored key. -/
def rewrapDek (nonce : ByteArr 12) (oldKek newKek : Kek) (stored : String) :
    Except String String :=
  (if isWrapped stored then unwrapDek G oldKek stored else .ok stored).bind
    fun dekHex => wrapDek G nonce newKek dekHex

/-! ## What unwraps -/

variable {G}

theorem splitNonce_append (nonce : ByteArr 12) (ct : Bytes) :
    splitNonce (nonce.1 ++ ct) = some (nonce, ct) := by
  have hlen : 12 ≤ (nonce.1 ++ ct).length := by
    rw [List.length_append, nonce.2]
    omega
  rw [splitNonce, dif_pos hlen]
  exact congrArg some (Prod.ext (Subtype.ext (List.take_left' nonce.2)) (List.drop_left' nonce.2))

/-- Unwrapping what was wrapped comes down to one decryption. -/
theorem unwrapDek_wrapDek {nonce : ByteArr 12} {kek : Kek} {dekHex w : String} (kek' : Kek)
    (h : wrapDek G nonce kek dekHex = .ok w) :
    isWrapped w = true ∧ ∃ ct, G.encrypt kek nonce (Text.encode dekHex.toList) = .ok ct ∧
      unwrapDek G kek' w =
        match G.decrypt kek' nonce ct with
        | .error _ => .error "kek unwrap failed — wrong key or corrupted data"
        | .ok plain =>
            match Text.decode plain with
            | none => .error "unwrapped dek is not utf-8"
            | some hex => .ok (String.ofList hex) := by
  rw [wrapDek] at h
  cases hct : G.encrypt kek nonce (Text.encode dekHex.toList) with
  | error e =>
      rw [hct] at h
      cases h
  | ok ct =>
      rw [hct] at h
      obtain rfl := Except.ok.inj h
      have hprefix : PREFIX.isPrefixOf (PREFIX ++ Hex.encode (nonce.1 ++ ct)) = true :=
        List.isPrefixOf_iff_prefix.mpr (List.prefix_append _ _)
      refine ⟨?_, ct, rfl, ?_⟩
      · rw [isWrapped, String.toList_ofList, hprefix]
      · rw [unwrapDek, String.toList_ofList, if_pos hprefix, List.drop_left, Hex.decode_encode]
        simp only [splitNonce_append]

/-- The key that wrapped unwraps. -/
theorem unwrapDek_same {nonce : ByteArr 12} {kek : Kek} {dekHex w : String}
    (h : wrapDek G nonce kek dekHex = .ok w) : unwrapDek G kek w = .ok dekHex := by
  obtain ⟨-, ct, hct, hunwrap⟩ := unwrapDek_wrapDek kek h
  rw [hunwrap, G.decrypt_encrypt _ _ _ _ hct]
  simp only [Text.decode_encode, String.ofList_toList]

/-- No other key does. -/
theorem eq_of_unwrapDek_wrapDek {nonce : ByteArr 12} {kek kek' : Kek} {dekHex w hex : String}
    (h : wrapDek G nonce kek dekHex = .ok w) (hunwrap : unwrapDek G kek' w = .ok hex) :
    kek' = kek := by
  obtain ⟨-, ct, hct, heq⟩ := unwrapDek_wrapDek kek' h
  rw [heq] at hunwrap
  cases hdec : G.decrypt kek' nonce ct with
  | error e =>
      rw [hdec] at hunwrap
      cases hunwrap
  | ok m => exact G.key_of_decrypt _ _ _ _ _ _ hct hdec

/-- A stored key that unwraps under two keys unwraps under one. -/
theorem eq_of_unwrapDek {kek kek' : Kek} {stored hex hex' : String}
    (h : unwrapDek G kek stored = .ok hex) (h' : unwrapDek G kek' stored = .ok hex') :
    kek' = kek := by
  rw [unwrapDek] at h h'
  split at h
  -- Both keys open the same text, whose nonce and ciphertext are read off once.
  · next hprefix =>
      rw [if_pos hprefix] at h'
      cases hdecode : Hex.decode (stored.toList.drop PREFIX.length) with
      | none =>
          rw [hdecode] at h
          cases h
      | some blob =>
          cases hsplit : splitNonce blob with
          | none =>
              simp only [hdecode, hsplit] at h
              cases h
          | some parts =>
              obtain ⟨nonce, ct⟩ := parts
              simp only [hdecode, hsplit] at h h'
              cases hdec : G.decrypt kek nonce ct with
              | error e =>
                  simp only [hdec] at h
                  cases h
              | ok m =>
                  cases hdec' : G.decrypt kek' nonce ct with
                  | error e =>
                      simp only [hdec'] at h'
                      cases h'
                  -- The text opens with both, so they are one key.
                  | ok m' =>
                      exact G.key_of_decrypt _ _ _ _ _ _ (G.encrypt_decrypt _ _ _ _ hdec) hdec'
  · cases h

/-! ## An instance -/

/-- The same byte everywhere. -/
def filled (n : Nat) (b : UInt8) : ByteArr n := ⟨List.replicate n b, List.length_replicate⟩

/-- What a sealed message starts with. -/
def sealHeader (key : ByteArr 32) (nonce : ByteArr 12) : Bytes := key.1 ++ nonce.1

theorem sealHeader_inj {key key' : ByteArr 32} {nonce nonce' : ByteArr 12} {m m' : Bytes}
    (h : sealHeader key nonce ++ m = sealHeader key' nonce' ++ m') : key = key' ∧ m = m' := by
  rw [sealHeader, sealHeader, List.append_assoc, List.append_assoc] at h
  obtain ⟨hkey, hrest⟩ := List.append_inj h (key.2.trans key'.2.symm)
  exact ⟨Subtype.ext hkey, (List.append_inj hrest (nonce.2.trans nonce'.2.symm)).2⟩

def sampleDecrypt (key : ByteArr 32) (nonce : ByteArr 12) (ct : Bytes) : Except String Bytes :=
  if (sealHeader key nonce).isPrefixOf ct then .ok (ct.drop (sealHeader key nonce).length)
  else .error "aead::Error"

theorem sampleDecrypt_eq_ok {key : ByteArr 32} {nonce : ByteArr 12} {m ct : Bytes} :
    sampleDecrypt key nonce ct = .ok m ↔ ct = sealHeader key nonce ++ m := by
  rw [sampleDecrypt]
  constructor
  · intro h
    split at h
    · next hprefix =>
        obtain ⟨rest, rfl⟩ := List.isPrefixOf_iff_prefix.mp hprefix
        rw [List.drop_left] at h
        rw [Except.ok.inj h]
    · cases h
  · rintro rfl
    rw [if_pos (List.isPrefixOf_iff_prefix.mpr (List.prefix_append _ _)), List.drop_left]

/-- An instance to apply results at: a sealed message names its key and nonce, and opens
    for these only. -/
def Aead.sample : Aead where
  encrypt := fun key nonce m => .ok (sealHeader key nonce ++ m)
  decrypt := sampleDecrypt
  decrypt_encrypt := by
    intro key nonce m ct h
    exact sampleDecrypt_eq_ok.mpr (Except.ok.inj h).symm
  encrypt_decrypt := by
    intro key nonce m ct h
    exact congrArg Except.ok (sampleDecrypt_eq_ok.mp h).symm
  key_of_decrypt := by
    intro key key' nonce m m' ct h h'
    have heq := (Except.ok.inj h).trans (sampleDecrypt_eq_ok.mp h')
    exact (sealHeader_inj heq).1.symm

end Maranode.Store
