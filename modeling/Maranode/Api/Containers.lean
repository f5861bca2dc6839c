/-
  Maranode.Api.Containers

  Everything the crates encrypt under a key: sealed keys, recovery bundles, wrapped DEKs and
  model output.

  A wrapped DEK and model output are texts, of a nonce and a ciphertext.  Every decoder undoes
  its encoder (`containers_undo`), but that a wrapped DEK may be in either case.
-/
import Maranode.Api.TeeEncrypt
import Maranode.Attestation.Containers
import Maranode.Store.Kek

namespace Maranode

open Lib Lib.Checked
open Attestation (fromSlice fromSlice_val)

/-! ## Wrapped DEKs -/

namespace Store

variable (G : Aead)

/-- `unwrap_dek`, with its slices. -/
def unwrapDekText (kek : Kek) (wrapped : String) : Except Stop String :=
  if PREFIX.isPrefixOf wrapped.toList then
    match Hex.decode (wrapped.toList.drop PREFIX.length) with
    | none => .error (.bail "decoding wrapped dek hex")
    | some blob =>
        if blob.length < 12 then .error (.bail "wrapped dek too short")
        else do
          let (nonceBytes, ct) ← splitAt blob 12
          let nonce ← fromSlice 12 nonceBytes
          match G.decrypt kek nonce ct with
          | .error _ => .error (.bail "kek unwrap failed — wrong key or corrupted data")
          | .ok plain =>
              match Text.decode plain with
              | none => .error (.bail "unwrapped dek is not utf-8")
              | some hex => .ok (String.ofList hex)
  else .error (.bail "value does not have wrapped: prefix")

/-- The same wrapped text, but for the case of its hex digits. -/
def SameHex (w wrapped : String) : Prop :=
  PREFIX.isPrefixOf wrapped.toList = true ∧
    w.toList = PREFIX ++ (wrapped.toList.drop PREFIX.length).map Char.toLower

variable {G} {kek : Kek}

theorem wrapDek_eq_ok {nonce : ByteArr 12} {dekHex w : String} :
    wrapDek G nonce kek dekHex = .ok w ↔
      ∃ ct, G.encrypt kek nonce (Text.encode dekHex.toList) = .ok ct ∧
        w = String.ofList (PREFIX ++ Hex.encode (nonce.1 ++ ct)) := by
  rw [wrapDek]
  cases G.encrypt kek nonce (Text.encode dekHex.toList) with
  | error e => simp only [reduceCtorEq, false_and, exists_false]
  | ok ct => simp only [Except.ok.injEq, exists_eq_left', eq_comm]

theorem splitNonce_cases (blob : Bytes) :
    blob.length < 12 ∧ splitNonce blob = none ∨ ∃ (nonce : ByteArr 12) (ct : Bytes),
      blob = nonce.1 ++ ct := by
  by_cases hlen : 12 ≤ blob.length
  · refine .inr ⟨⟨blob.take 12, List.length_take_of_le hlen⟩, blob.drop 12, ?_⟩
    exact (List.take_append_drop 12 blob).symm
  · exact .inl ⟨Nat.not_le.mp hlen, dif_neg hlen⟩

theorem splitAt_nonce (nonce : ByteArr 12) (ct : Bytes) :
    splitAt (nonce.1 ++ ct) 12 = .ok (nonce.1, ct) := by
  have h := splitAt_append nonce.1 ct
  rwa [nonce.2] at h

/-- **No slice is out of range.** -/
theorem unwrapDekText_eq (wrapped : String) :
    unwrapDekText G kek wrapped = bails (unwrapDek G kek wrapped) := by
  rw [unwrapDekText, unwrapDek]
  split
  · cases Hex.decode (wrapped.toList.drop PREFIX.length) with
    | none => rfl
    | some blob =>
        dsimp only
        rcases splitNonce_cases blob with ⟨hlen, hnone⟩ | ⟨nonce, ct, rfl⟩
        · rw [if_pos hlen, hnone]
          rfl
        · have hlen : ¬ (nonce.1 ++ ct).length < 12 := by
            rw [List.length_append, nonce.2]
            omega
          rw [if_neg hlen, splitAt_nonce, ok_bind, splitNonce_append]
          dsimp only
          rw [fromSlice_val, ok_bind]
          cases G.decrypt kek nonce ct with
          | error e => rfl
          | ok plain =>
              dsimp only
              cases Text.decode plain with
              | none => rfl
              | some hex => rfl
  · rfl

/-- A text unwraps when its digits are those of a nonce and a ciphertext that decrypts. -/
theorem unwrapDek_eq_ok_iff_parts {wrapped dekHex : String} :
    unwrapDek G kek wrapped = .ok dekHex ↔
      PREFIX.isPrefixOf wrapped.toList = true ∧ ∃ (nonce : ByteArr 12) (ct : Bytes),
        Hex.decode (wrapped.toList.drop PREFIX.length) = some (nonce.1 ++ ct) ∧
          G.decrypt kek nonce ct = .ok (Text.encode dekHex.toList) := by
  constructor
  · intro h
    rw [unwrapDek] at h
    -- Each step of the reader may fail; where none does, the parts are those it has read.
    split at h
    · next hstarts =>
        refine ⟨hstarts, ?_⟩
        cases hdecode : Hex.decode (wrapped.toList.drop PREFIX.length) with
        | none =>
            rw [hdecode] at h
            cases h
        | some blob =>
            rw [hdecode] at h
            dsimp only at h
            rcases splitNonce_cases blob with ⟨-, hnone⟩ | ⟨nonce, ct, rfl⟩
            · rw [hnone] at h
              cases h
            · rw [splitNonce_append] at h
              dsimp only at h
              cases hdec : G.decrypt kek nonce ct with
              | error e =>
                  rw [hdec] at h
                  cases h
              | ok plain =>
                  rw [hdec] at h
                  dsimp only at h
                  cases htext : Text.decode plain with
                  | none =>
                      rw [htext] at h
                      cases h
                  | some hex =>
                      rw [htext] at h
                      obtain rfl := Except.ok.inj h
                      refine ⟨nonce, ct, rfl, ?_⟩
                      -- The text was decoded from the plaintext, so it encodes to it.
                      rw [hdec, String.toList_ofList, Text.encode_eq_of_decode htext]
    · cases h
  · rintro ⟨hstarts, nonce, ct, hdecode, hdec⟩
    rw [unwrapDek, if_pos hstarts, hdecode]
    dsimp only
    rw [splitNonce_append]
    dsimp only
    rw [hdec]
    dsimp only
    rw [Text.decode_encode]
    dsimp only
    rw [String.ofList_toList]

/-- What unwraps is what was wrapped with the key, in either case. -/
theorem unwrapDek_eq_ok {wrapped dekHex : String} :
    unwrapDek G kek wrapped = .ok dekHex ↔
      ∃ nonce w, wrapDek G nonce kek dekHex = .ok w ∧ SameHex w wrapped := by
  rw [unwrapDek_eq_ok_iff_parts]
  constructor
  · rintro ⟨hstarts, nonce, ct, hdecode, hdec⟩
    have henc := G.encrypt_decrypt _ _ _ _ hdec
    refine ⟨nonce, _, wrapDek_eq_ok.mpr ⟨ct, henc, rfl⟩, hstarts, ?_⟩
    rw [String.toList_ofList, Hex.decode_eq_some_iff.mp hdecode]
  · rintro ⟨nonce, w, hwrap, hstarts, hsame⟩
    obtain ⟨ct, hct, rfl⟩ := wrapDek_eq_ok.mp hwrap
    rw [String.toList_ofList] at hsame
    have hdecode := Hex.decode_eq_some_iff.mpr (List.append_cancel_left hsame).symm
    exact ⟨hstarts, nonce, ct, hdecode, G.decrypt_encrypt _ _ _ _ hct⟩

/-- **`unwrap_dek` undoes `wrap_dek`**, in either case. -/
theorem undoes_wrapDek :
    Undoes SameHex (fun nonce dekHex => wrapDek G nonce kek dekHex) (unwrapDekText G kek) :=
  .of_bails unwrapDekText_eq fun _ _ => unwrapDek_eq_ok

/-- No digit that `wrap_dek` writes is in upper case. -/
theorem map_toLower_wrapDek {nonce : ByteArr 12} {dekHex w : String}
    (h : wrapDek G nonce kek dekHex = .ok w) : w.toList.map Char.toLower = w.toList := by
  have hprefix : PREFIX.map Char.toLower = PREFIX := by decide
  obtain ⟨ct, -, rfl⟩ := wrapDek_eq_ok.mp h
  have hlower := Hex.decode_eq_some_iff.mp (Hex.decode_encode (nonce.1 ++ ct))
  rw [String.toList_ofList, List.map_append, hprefix, hlower]

/-- A wrapped DEK whose digits were put in upper case. -/
def upperWrapped : String :=
  String.ofList (PREFIX ++ (Hex.encode ((filled 12 0).1 ++
    (sealHeader (filled 32 0xab) (filled 12 0) ++ [0x6b]))).map Char.toUpper)

theorem unwrapDekText_upperWrapped :
    unwrapDekText .sample (filled 32 0xab) upperWrapped = .ok "k" := by decide +kernel

theorem not_undoes_wrapDek :
    ¬ Undoes Eq (fun nonce dekHex => wrapDek .sample nonce (filled 32 0xab) dekHex)
      (unwrapDekText .sample (filled 32 0xab)) := by
  intro h
  have hupper : upperWrapped.toList.map Char.toLower ≠ upperWrapped.toList := by decide +kernel
  obtain ⟨message, hbail⟩ := h.refuses upperWrapped fun nonce dekHex w hwrap heq => by
    rw [← heq] at hupper
    exact hupper (map_toLower_wrapDek hwrap)
  rw [unwrapDekText_upperWrapped] at hbail
  cases hbail

end Store

/-! ## Model output -/

namespace Api

/-- AES-256-GCM idealised: with a key and a nonce it decrypts exactly what it encrypted. -/
def TeeCipher.Exact (C : TeeCipher) : Prop :=
  ∀ key nonce m ct, C.decrypt key nonce ct = .ok m ↔ C.encrypt key nonce m = .ok ct

variable (C : TeeCipher)

/-- `TeeEncryptKey::decrypt`, with its slices. -/
def teeDecryptBytes (key : ByteArr 32) (data : Bytes) : Except Stop Bytes :=
  if data.length < 12 then .error (.bail "ciphertext too short")
  else do
    let (nonceBytes, ct) ← splitAt data 12
    let nonce ← fromSlice 12 nonceBytes
    match C.decrypt key nonce ct with
    | .error e => .error (.bail ("decrypt: " ++ e))
    | .ok plaintext => .ok plaintext

/-- `TeeEncryptKey::decrypt_str`. -/
def decryptStrText (key : ByteArr 32) (b64 : String) : Except Stop String :=
  match Base64.decode b64.toList with
  | none => .error (.bail "Invalid padding")
  | some raw => do
      let plaintext ← teeDecryptBytes C key raw
      match Text.decode plaintext with
      | none => .error (.bail "invalid utf-8 sequence")
      | some text => .ok (String.ofList text)

variable {C} {key : ByteArr 32}

theorem teeDecrypt_append (nonce : ByteArr 12) (ct : Bytes) :
    teeDecrypt C key (nonce.1 ++ ct) =
      match C.decrypt key nonce ct with
      | .error e => .error ("decrypt: " ++ e)
      | .ok plaintext => .ok plaintext := by
  rewrite [teeDecrypt, List.take_left' nonce.2, List.drop_left' nonce.2, ByteArr.ofBytes_val]
  rfl

theorem teeDecrypt_of_short {data : Bytes} (h : data.length < 12) :
    teeDecrypt C key data = .error "ciphertext too short" := by
  have hnone : ByteArr.ofBytes 12 (data.take 12) = none := by
    rw [ByteArr.ofBytes, dif_neg]
    rw [List.length_take]
    omega
  rw [teeDecrypt, hnone]

/-- **No slice is out of range.** -/
theorem teeDecryptBytes_eq (data : Bytes) :
    teeDecryptBytes C key data = bails (teeDecrypt C key data) := by
  rcases Store.splitNonce_cases data with ⟨hlen, -⟩ | ⟨nonce, ct, rfl⟩
  · rw [teeDecryptBytes, if_pos hlen, teeDecrypt_of_short hlen]
    rfl
  · have hlen : ¬ (nonce.1 ++ ct).length < 12 := by
      rw [List.length_append, nonce.2]
      omega
    rw [teeDecryptBytes, if_neg hlen, Store.splitAt_nonce, ok_bind]
    dsimp only
    rw [fromSlice_val, ok_bind, teeDecrypt_append]
    cases C.decrypt key nonce ct with
    | error e => rfl
    | ok plaintext => rfl

theorem decryptStrText_eq (b64 : String) :
    decryptStrText C key b64 = bails (decryptStr C key b64) := by
  rw [decryptStrText, decryptStr]
  cases Base64.decode b64.toList with
  | none => rfl
  | some raw =>
      dsimp only
      rw [teeDecryptBytes_eq]
      cases teeDecrypt C key raw with
      | error e => rfl
      | ok plaintext =>
          dsimp only
          rw [bails, Except.mapError, ok_bind]
          cases Text.decode plaintext with
          | none => rfl
          | some text => rfl

/-- What decrypts is what was encrypted with the key. -/
theorem decryptStr_eq_ok (hC : C.Exact) {b64 s : String} :
    decryptStr C key b64 = .ok s ↔
      ∃ nonce, (TeeEncryptKey.mk key nonce).encryptStr C.toAes256Gcm s = .ok b64 := by
  constructor
  · intro h
    -- As for the key: base64, the nonce, the cipher, the text.
    rw [decryptStr] at h
    cases hdecode : Base64.decode b64.toList with
    | none =>
        rw [hdecode] at h
        cases h
    | some raw =>
        rw [hdecode] at h
        dsimp only at h
        rcases Store.splitNonce_cases raw with ⟨hlen, -⟩ | ⟨nonce, ct, rfl⟩
        · rw [teeDecrypt_of_short hlen] at h
          cases h
        · rw [teeDecrypt_append] at h
          cases hdec : C.decrypt key nonce ct with
          | error e =>
              rw [hdec] at h
              cases h
          | ok plaintext =>
              rw [hdec] at h
              dsimp only at h
              cases htext : Text.decode plaintext with
              | none =>
                  rw [htext] at h
                  cases h
              | some text =>
                  rw [htext] at h
                  obtain rfl := Except.ok.inj h
                  -- By exactness of the cipher, what decrypts was encrypted with that nonce.
                  have henc := (hC _ _ _ _).mp hdec
                  rw [← Text.encode_eq_of_decode htext] at henc
                  refine ⟨nonce, ?_⟩
                  rw [TeeEncryptKey.encryptStr, TeeEncryptKey.encrypt, String.toList_ofList, henc]
                  exact congrArg Except.ok
                    (String.toList_inj.mp (String.toList_ofList.trans
                      (Base64.encode_of_decode hdecode)))
  · rintro ⟨nonce, h⟩
    exact decryptStr_of_encryptStr h

/-- **`decrypt_str` undoes `encrypt_str`.** -/
theorem undoes_encryptStr (hC : C.Exact) :
    Undoes Eq (fun nonce s => (TeeEncryptKey.mk key nonce).encryptStr C.toAes256Gcm s)
      (decryptStrText C key) :=
  .eq_of_bails decryptStrText_eq fun _ _ => decryptStr_eq_ok hC

end Api

/-! ## All four -/

/-- **Containers.**  Each decoder undoes its encoder, and bails out of what it did not write;
    no slice is out of range.  A wrapped DEK may also have its digits in upper case. -/
theorem containers_undo {C : Attestation.SealCrypto} {T : Api.TeeCipher} (hC : C.Exact)
    (hT : T.Exact) :
    (∀ passphrase, Undoes Eq (Attestation.softwareSealBlob C passphrase)
      (Attestation.softwareUnsealBlob C passphrase)) ∧
    (∀ X r data purpose passphrase files files' m,
      Attestation.softwareSeal X C r data purpose files passphrase = (files', .ok m) →
        Attestation.softwareUnsealFile C files' passphrase = .ok data) ∧
    (∀ passphrase, Undoes Eq (Attestation.encryptBundle C passphrase)
      (Attestation.decryptBundleBytes C passphrase)) ∧
    (∀ (G : Store.Aead) kek, Undoes Store.SameHex
      (fun nonce dekHex => Store.wrapDek G nonce kek dekHex) (Store.unwrapDekText G kek)) ∧
    ∀ key, Undoes Eq
      (fun nonce s => (Api.TeeEncryptKey.mk key nonce).encryptStr T.toAes256Gcm s)
      (Api.decryptStrText T key) := by
  refine ⟨fun _ => Attestation.undoes_softwareSealBlob hC, ?_,
    fun _ => Attestation.undoes_encryptBundle hC, fun _ _ => Store.undoes_wrapDek,
    fun _ => Api.undoes_encryptStr hT⟩
  intro X r data purpose passphrase files files' m h
  obtain ⟨blob, hblob, hbin⟩ := Attestation.sealedBin_of_softwareSeal h
  rw [Attestation.softwareUnsealFile_eq,
    (Attestation.softwareUnseal_eq_ok hC hbin).mpr ⟨_, hblob⟩]
  rfl

/-- The sample cipher, which decrypts only what it makes. -/
def exactTee : Api.TeeCipher where
  toAes256Gcm := Api.TeeCipher.sample.toAes256Gcm
  decrypt key nonce ct :=
    if Api.sampleSeal key nonce (Api.sampleOpen key nonce ct) = ct then
      .ok (Api.sampleOpen key nonce ct)
    else .error "aead::Error"
  decrypt_encrypt := by
    intro key nonce plaintext ct h
    have hct : Api.sampleSeal key nonce plaintext = ct := Except.ok.inj h
    rw [← hct, Api.sampleOpen_sampleSeal, if_pos rfl]

theorem exactTee_exact : exactTee.Exact := by
  refine fun key nonce m ct => ⟨fun h => ?_, exactTee.decrypt_encrypt key nonce m ct⟩
  change (if _ then _ else _) = _ at h
  split at h
  · next hseal =>
      obtain rfl := Except.ok.inj h
      exact congrArg Except.ok hseal
  · cases h

theorem sample_exact : Attestation.SealCrypto.sample.Exact := fun key nonce m ct =>
  ⟨Attestation.SealCrypto.ideal_sample.encrypt_decrypt key nonce m ct,
    Attestation.SealCrypto.ideal_sample.decrypt_encrypt key nonce m ct⟩

theorem containers_undo_sample :
    Attestation.softwareUnsealBlob .sample "correct"
        (Attestation.sealBlob Attestation.zeroSalt Attestation.zeroNonce
          (Attestation.sampleHeader ("correct", Attestation.zeroSalt) Attestation.zeroNonce ++
            Attestation.frame [0x6b])) = .ok [0x6b] ∧
      Attestation.decryptBundleBytes .sample "correct"
        (Attestation.bundleBytes Attestation.BUNDLE_VERSION Attestation.zeroSalt
          Attestation.zeroNonce
          (Attestation.sampleHeader ("correct", Attestation.zeroSalt) Attestation.zeroNonce ++
            Attestation.frame [0x6b])) = .ok [0x6b] ∧
      Api.decryptStrText exactTee Api.zeroKey Api.hiEncrypted = .ok "hi" := by
  obtain ⟨hseal, -, hbundle, -, htee⟩ := containers_undo sample_exact exactTee_exact
  refine ⟨(hseal "correct").reads (Attestation.zeroSalt, Attestation.zeroNonce) [0x6b] _ _ rfl rfl,
    (hbundle "correct").reads (Attestation.zeroSalt, Attestation.zeroNonce) [0x6b] _ _ rfl rfl, ?_⟩
  exact (htee Api.zeroKey).reads (Api.nonceOf 0) "hi" _ _ Api.encryptStr_hi rfl

end Maranode
