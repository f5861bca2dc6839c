/-
  Maranode.Attestation.Containers

  `sealed.bin` and the recovery bundle, byte by byte.

  Both put a header, a salt and a nonce in front of a ciphertext.  The decoders are written
  here with the slices of the source, which would panic out of range: they come to what
  `softwareUnseal` and `decryptBundle` return, and read what was written and nothing else.
-/
import Maranode.Attestation.Rotation
import Maranode.Lib.Checked

namespace Maranode.Attestation

open Lib Lib.Checked Lib.FileWrite

/-- `GenericArray::from_slice`, which panics for bytes of any other length. -/
def fromSlice (n : Nat) (bs : Bytes) : Except Stop (ByteArr n) :=
  match ByteArr.ofBytes n bs with
  | some b => .ok b
  | none => .error .outOfRange

@[simp] theorem fromSlice_val {n : Nat} (b : ByteArr n) : fromSlice n b.1 = .ok b := by
  rw [fromSlice, ByteArr.ofBytes_val]

/-- A field of the length that is sliced, behind what is in front of it. -/
theorem slice_field (front field rest : Bytes) {start stop : Nat} (hstart : front.length = start)
    (hstop : start + field.length = stop) :
    slice (front ++ (field ++ rest)) start stop = .ok field := by
  rw [← hstop, ← hstart]
  exact slice_append front field rest

theorem slice_front {data : Bytes} {n : Nat} (h : n ≤ data.length) :
    slice data 0 n = .ok (data.take n) := by
  rw [slice, if_pos ⟨Nat.zero_le n, h⟩, List.drop_zero, Nat.sub_zero]

/-- `data` ends in a salt, a nonce and a ciphertext. -/
theorem exists_salt_nonce {data : Bytes} (h : 28 ≤ data.length) :
    ∃ (salt : ByteArr 16) (nonce : ByteArr 12) (ct : Bytes),
      data = salt.1 ++ (nonce.1 ++ ct) := by
  have hsalt : (data.take 16).length = 16 := List.length_take_of_le (by omega)
  have hnonce : ((data.drop 16).take 12).length = 12 := by
    rw [List.length_take, List.length_drop]
    omega
  refine ⟨⟨_, hsalt⟩, ⟨_, hnonce⟩, (data.drop 16).drop 12, ?_⟩
  rw [List.take_append_drop, List.take_append_drop]

variable (X : External) (C : SealCrypto)

/-- AES-256-GCM idealised: with a key and a nonce it decrypts exactly what it encrypted. -/
def SealCrypto.Exact : Prop :=
  ∀ key nonce m ct, C.decrypt key nonce ct = .ok m ↔ C.encrypt key nonce m = .ok ct

/-- The key of the passphrase and the salt, and one decryption. -/
def openParts (passphrase : String) (salt nonceBytes ct : Bytes) (failed : String) :
    Except Stop Bytes := do
  let salt ← fromSlice 16 salt
  let nonce ← fromSlice 12 nonceBytes
  match C.decrypt (C.pbkdf2Key passphrase salt) nonce ct with
  | .error _ => .error (.bail failed)
  | .ok plaintext => .ok plaintext

theorem openParts_val (passphrase : String) (salt : ByteArr 16) (nonce : ByteArr 12) (ct : Bytes)
    (failed : String) :
    openParts C passphrase salt.1 nonce.1 ct failed =
      match C.decrypt (C.pbkdf2Key passphrase salt) nonce ct with
      | .error _ => .error (.bail failed)
      | .ok plaintext => .ok plaintext := by
  rw [openParts, fromSlice_val, ok_bind, fromSlice_val, ok_bind]

/-! ## sealed.bin -/

/-- What `software_seal` writes to `sealed.bin`. -/
def softwareSealBlob (passphrase : String) (drawn : ByteArr 16 × ByteArr 12) (data : Bytes) :
    Except String Bytes :=
  match C.encrypt (C.pbkdf2Key passphrase drawn.1) drawn.2 data with
  | .error e => .error s!"software seal encrypt: {e}"
  | .ok ct => .ok (sealBlob drawn.1 drawn.2 ct)

/-- `software_unseal`, of the bytes that `sealed.bin` has. -/
def softwareUnsealBlob (passphrase : String) (blob : Bytes) : Except Stop Bytes :=
  if blob.length < 4 + 16 + 12 then .error (.bail "sealed.bin too short")
  else do
    let magic ← slice blob 0 4
    if magic ≠ sealMagic then .error (.bail "sealed.bin has wrong magic bytes")
    else do
      let salt ← slice blob 4 20
      let nonceBytes ← slice blob 20 32
      let ct ← slice blob 32 blob.length
      openParts C passphrase salt nonceBytes ct
        "software unseal failed — wrong passphrase or corrupted blob"

/-- `software_unseal`. -/
def softwareUnsealFile (files : SealedFiles) (passphrase : String) : Except Stop Bytes :=
  match files.sealedBin with
  | none => .error (.bail "No such file or directory (os error 2)")
  | some blob => softwareUnsealBlob C passphrase blob

theorem sealBlob_cases (blob : Bytes) :
    blob.length < 4 + 16 + 12 ∨ 4 + 16 + 12 ≤ blob.length ∧ blob.take 4 ≠ sealMagic ∨
      ∃ salt nonce ct, blob = sealBlob salt nonce ct := by
  by_cases hlen : blob.length < 4 + 16 + 12
  · exact .inl hlen
  · by_cases hmagic : blob.take 4 = sealMagic
    · have hrest : 28 ≤ (blob.drop 4).length := by
        rw [List.length_drop]
        omega
      obtain ⟨salt, nonce, ct, hparts⟩ := exists_salt_nonce hrest
      refine .inr (.inr ⟨salt, nonce, ct, ?_⟩)
      rw [sealBlob, ← hmagic, ← hparts, List.take_append_drop]
    · exact .inr (.inl ⟨Nat.not_lt.mp hlen, hmagic⟩)

variable {X C} {passphrase : String}

theorem softwareSealBlob_eq_ok {drawn : ByteArr 16 × ByteArr 12} {data blob : Bytes} :
    softwareSealBlob C passphrase drawn data = .ok blob ↔
      ∃ ct, C.encrypt (C.pbkdf2Key passphrase drawn.1) drawn.2 data = .ok ct ∧
        blob = sealBlob drawn.1 drawn.2 ct := by
  rw [softwareSealBlob]
  cases C.encrypt (C.pbkdf2Key passphrase drawn.1) drawn.2 data with
  | error e => simp only [reduceCtorEq, false_and, exists_false]
  | ok ct => simp only [Except.ok.injEq, exists_eq_left', eq_comm]

/-- The slices of a blob are its parts. -/
theorem softwareUnsealBlob_sealBlob (salt : ByteArr 16) (nonce : ByteArr 12) (ct : Bytes) :
    softwareUnsealBlob C passphrase (sealBlob salt nonce ct) =
      match C.decrypt (C.pbkdf2Key passphrase salt) nonce ct with
      | .error _ =>
          .error (.bail "software unseal failed — wrong passphrase or corrupted blob")
      | .ok plaintext => .ok plaintext := by
  have hlen := length_sealBlob salt nonce ct
  have hmagic : slice (sealBlob salt nonce ct) 0 4 = .ok sealMagic :=
    slice_field [] sealMagic _ rfl rfl
  have hsalt : slice (sealBlob salt nonce ct) 4 20 = .ok salt.1 :=
    slice_field sealMagic salt.1 _ rfl (by rw [salt.2])
  have hfront : (sealMagic ++ salt.1).length = 20 := by
    rw [List.length_append, salt.2]
    rfl
  have hnonce : slice (sealBlob salt nonce ct) 20 32 = .ok nonce.1 := by
    rw [sealBlob, ← List.append_assoc]
    exact slice_field (sealMagic ++ salt.1) nonce.1 ct hfront (by rw [nonce.2])
  have hct : slice (sealBlob salt nonce ct) 32 (sealBlob salt nonce ct).length = .ok ct := by
    have hheader : (sealMagic ++ salt.1 ++ nonce.1).length = 32 := by
      rw [List.length_append, hfront, nonce.2]
    rw [sealBlob, ← List.append_assoc, ← List.append_assoc, ← hheader]
    exact slice_rest _ ct
  rw [softwareUnsealBlob, if_neg (by omega), hmagic, ok_bind, if_neg (not_not_intro rfl), hsalt,
    ok_bind, hnonce, ok_bind, hct, ok_bind, openParts_val]

/-- **No slice is out of range.** -/
theorem softwareUnsealFile_eq (files : SealedFiles) :
    softwareUnsealFile C files passphrase = bails (softwareUnseal C files passphrase) := by
  rw [softwareUnsealFile]
  cases hbin : files.sealedBin with
  | none =>
      rw [softwareUnseal, hbin]
      rfl
  | some blob =>
      dsimp only
      rcases sealBlob_cases blob with hlen | ⟨hlen, hmagic⟩ | ⟨salt, nonce, ct, rfl⟩
      · rw [softwareUnsealBlob, if_pos hlen, softwareUnseal, hbin]
        dsimp only
        rw [if_pos hlen]
        rfl
      · have hslice : slice blob 0 4 = .ok (blob.take 4) := slice_front (by omega)
        have hshort : ¬ blob.length < 4 + 16 + 12 := Nat.not_lt.mpr hlen
        rw [softwareUnsealBlob, if_neg hshort, hslice, ok_bind, if_pos hmagic, softwareUnseal,
          hbin]
        dsimp only
        rw [if_neg hshort, if_pos hmagic]
        rfl
      · rw [softwareUnsealBlob_sealBlob, softwareUnseal_eq_decrypt hbin]
        cases C.decrypt (C.pbkdf2Key passphrase salt) nonce ct with
        | error e => rfl
        | ok key => rfl

/-- What unseals is what a seal wrote under the passphrase. -/
theorem softwareUnseal_eq_ok (hC : C.Exact) {files : SealedFiles} {blob data : Bytes}
    (hbin : files.sealedBin = some blob) :
    softwareUnseal C files passphrase = .ok data ↔
      ∃ drawn, softwareSealBlob C passphrase drawn data = .ok blob := by
  constructor
  · intro h
    rcases sealBlob_cases blob with hlen | ⟨hlen, hmagic⟩ | ⟨salt, nonce, ct, rfl⟩
    · rw [softwareUnseal, hbin] at h
      dsimp only at h
      rw [if_pos hlen] at h
      cases h
    · rw [softwareUnseal, hbin] at h
      dsimp only at h
      rw [if_neg (Nat.not_lt.mpr hlen), if_pos hmagic] at h
      cases h
    · refine ⟨(salt, nonce), ?_⟩
      rw [softwareUnseal_eq_decrypt hbin] at h
      cases hdec : C.decrypt (C.pbkdf2Key passphrase salt) nonce ct with
      | error e =>
          rw [hdec] at h
          cases h
      | ok m =>
          rw [hdec] at h
          obtain rfl := Except.ok.inj h
          exact softwareSealBlob_eq_ok.mpr ⟨ct, (hC _ _ _ _).mp hdec, rfl⟩
  · rintro ⟨⟨salt, nonce⟩, h⟩
    obtain ⟨ct, henc, rfl⟩ := softwareSealBlob_eq_ok.mp h
    rw [softwareUnseal_eq_decrypt hbin, (hC _ _ _ _).mpr henc]

/-- **`software_unseal` undoes `software_seal`**, as far as `sealed.bin` goes. -/
theorem undoes_softwareSealBlob (hC : C.Exact) :
    Undoes Eq (softwareSealBlob C passphrase) (softwareUnsealBlob C passphrase) := by
  let files (blob : Bytes) : SealedFiles := ⟨none, none, some blob, none⟩
  have hfile (blob : Bytes) : (files blob).sealedBin = some blob := rfl
  exact .eq_of_bails (fun blob => softwareUnsealFile_eq (files blob)) fun blob data =>
    softwareUnseal_eq_ok hC (hfile blob)

/-- A seal by software that succeeds has written its blob. -/
theorem sealedBin_of_softwareSeal {r : SealRun} {data : Bytes} {purpose : String}
    {files files' : SealedFiles} {m : SealMeta}
    (h : softwareSeal X C r data purpose files passphrase = (files', .ok m)) :
    ∃ blob, softwareSealBlob C passphrase (r.salt, r.nonce) data = .ok blob ∧
      files'.sealedBin = some blob := by
  cases hct : C.encrypt (C.pbkdf2Key passphrase r.salt) r.nonce data with
  | error e =>
      rw [softwareSeal, hct] at h
      cases (Prod.mk.inj h).2
  | ok ct =>
      refine ⟨sealBlob r.salt r.nonce ct, softwareSealBlob_eq_ok.mpr ⟨ct, hct, rfl⟩, ?_⟩
      rcases Fault.passes_or r.sealedBin (sealBlob r.salt r.nonce ct) with
        hpasses | ⟨e, hopening⟩ | ⟨n, e, hafter, hn⟩
      · rw [softwareSeal_written hct hpasses] at h
        rw [← (Prod.mk.inj h).1, saveMeta]
      · rw [softwareSeal, hct, hopening] at h
        cases (Prod.mk.inj h).2
      · rw [softwareSeal, hct, hafter] at h
        dsimp only at h
        rw [write_of_torn e hn] at h
        cases (Prod.mk.inj h).2

/-! ## Recovery bundles -/

/-- Magic, version, salt, nonce and ciphertext. -/
def bundleBytes (version : UInt8) (salt : ByteArr 16) (nonce : ByteArr 12) (ct : Bytes) : Bytes :=
  BUNDLE_MAGIC ++ ([version] ++ (salt.1 ++ (nonce.1 ++ ct)))

variable (C) in
def encryptBundle (passphrase : String) (drawn : ByteArr 16 × ByteArr 12) (plaintext : Bytes) :
    Except String Bytes :=
  match C.encrypt (C.pbkdf2Key passphrase drawn.1) drawn.2 plaintext with
  | .error e => .error s!"bundle encrypt: {e}"
  | .ok ct => .ok (bundleBytes BUNDLE_VERSION drawn.1 drawn.2 ct)

variable (C) in
/-- `decrypt_bundle`, with its slices. -/
def decryptBundleBytes (passphrase : String) (data : Bytes) : Except Stop Bytes :=
  if data.length < 4 + 1 + 16 + 12 then .error (.bail "bundle too short")
  else do
    let magic ← slice data 0 4
    if magic ≠ BUNDLE_MAGIC then .error (.bail "not a Maranode recovery bundle")
    else do
      let version ← index data 4
      if version ≠ BUNDLE_VERSION then
        .error (.bail s!"unsupported bundle version {version}")
      else do
        let salt ← slice data 5 21
        let nonceBytes ← slice data 21 33
        let ciphertext ← slice data 33 data.length
        openParts C passphrase salt nonceBytes ciphertext
          "bundle decrypt failed — wrong passphrase?"

variable {version : UInt8} {salt : ByteArr 16} {nonce : ByteArr 12} {ct : Bytes}

theorem length_bundleBytes : (bundleBytes version salt nonce ct).length = 33 + ct.length := by
  simp only [bundleBytes, List.length_append, salt.2, nonce.2, BUNDLE_MAGIC, List.length_cons,
    List.length_nil]
  omega

theorem encryptBundle_eq_ok {drawn : ByteArr 16 × ByteArr 12} {plaintext data : Bytes} :
    encryptBundle C passphrase drawn plaintext = .ok data ↔
      ∃ ct, C.encrypt (C.pbkdf2Key passphrase drawn.1) drawn.2 plaintext = .ok ct ∧
        data = bundleBytes BUNDLE_VERSION drawn.1 drawn.2 ct := by
  rw [encryptBundle]
  cases C.encrypt (C.pbkdf2Key passphrase drawn.1) drawn.2 plaintext with
  | error e => simp only [reduceCtorEq, false_and, exists_false]
  | ok ct => simp only [Except.ok.injEq, exists_eq_left', eq_comm]

theorem bundleBytes_cases (data : Bytes) :
    data.length < 4 + 1 + 16 + 12 ∨ 4 + 1 + 16 + 12 ≤ data.length ∧ data.take 4 ≠ BUNDLE_MAGIC ∨
      ∃ version salt nonce ct, data = bundleBytes version salt nonce ct := by
  by_cases hlen : data.length < 4 + 1 + 16 + 12
  · exact .inl hlen
  · by_cases hmagic : data.take 4 = BUNDLE_MAGIC
    · cases hrest : data.drop 4 with
      | nil =>
          have hshort := congrArg List.length hrest
          rw [List.length_drop, List.length_nil] at hshort
          omega
      | cons version rest =>
          have hlong : 28 ≤ rest.length := by
            have := congrArg List.length hrest
            rw [List.length_drop, List.length_cons] at this
            omega
          obtain ⟨salt, nonce, ct, hparts⟩ := exists_salt_nonce hlong
          refine .inr (.inr ⟨version, salt, nonce, ct, ?_⟩)
          rw [bundleBytes, ← hmagic, ← hparts, List.singleton_append, ← hrest,
            List.take_append_drop]
    · exact .inr (.inl ⟨Nat.not_lt.mp hlen, hmagic⟩)

/-- The version, and with the right one a decryption. -/
def openBundle (C : SealCrypto) (passphrase : String) (version : UInt8) (salt : ByteArr 16)
    (nonce : ByteArr 12) (ct : Bytes) : Except String Bytes :=
  if version ≠ BUNDLE_VERSION then .error s!"unsupported bundle version {version}"
  else
    match C.decrypt (C.pbkdf2Key passphrase salt) nonce ct with
    | .error _ => .error "bundle decrypt failed — wrong passphrase?"
    | .ok plaintext => .ok plaintext

/-- The slices of a bundle are its parts. -/
theorem decryptBundleBytes_bundleBytes :
    decryptBundleBytes C passphrase (bundleBytes version salt nonce ct) =
      bails (openBundle C passphrase version salt nonce ct) := by
  have hlen := @length_bundleBytes version salt nonce ct
  -- The fields one after the other, each where the reader slices it.
  have hmagic : slice (bundleBytes version salt nonce ct) 0 4 = .ok BUNDLE_MAGIC :=
    slice_field [] BUNDLE_MAGIC _ rfl rfl
  have hversion : index (bundleBytes version salt nonce ct) 4 = .ok version :=
    index_of_getElem? rfl
  have hfront : (BUNDLE_MAGIC ++ [version]).length = 5 := rfl
  have hsalt : slice (bundleBytes version salt nonce ct) 5 21 = .ok salt.1 := by
    rw [bundleBytes, ← List.append_assoc]
    exact slice_field _ salt.1 _ hfront (by rw [salt.2])
  have hsalted : (BUNDLE_MAGIC ++ [version] ++ salt.1).length = 21 := by
    rw [List.length_append, hfront, salt.2]
  have hnonce : slice (bundleBytes version salt nonce ct) 21 33 = .ok nonce.1 := by
    rw [bundleBytes, ← List.append_assoc, ← List.append_assoc]
    exact slice_field _ nonce.1 ct hsalted (by rw [nonce.2])
  have hct : slice (bundleBytes version salt nonce ct) 33
      (bundleBytes version salt nonce ct).length = .ok ct := by
    have hheader : (BUNDLE_MAGIC ++ [version] ++ salt.1 ++ nonce.1).length = 33 := by
      rw [List.length_append, hsalted, nonce.2]
    rw [bundleBytes, ← List.append_assoc, ← List.append_assoc, ← List.append_assoc, ← hheader]
    exact slice_rest _ ct
  -- The length and the magic are right; the version decides how the rest is read.
  rw [decryptBundleBytes, if_neg (by omega), hmagic, ok_bind, if_neg (not_not_intro rfl),
    hversion, ok_bind, openBundle]
  split
  · rfl
  · rw [hsalt, ok_bind, hnonce, ok_bind, hct, ok_bind, openParts_val]
    cases C.decrypt (C.pbkdf2Key passphrase salt) nonce ct with
    | error e => rfl
    | ok plaintext => rfl

theorem decryptBundle_bundleBytes :
    decryptBundle C (bundleBytes version salt nonce ct) passphrase =
      openBundle C passphrase version salt nonce ct := by
  have hlen := @length_bundleBytes version salt nonce ct
  have hmagic : (bundleBytes version salt nonce ct).take 4 = BUNDLE_MAGIC := rfl
  have hversion : (bundleBytes version salt nonce ct).getD 4 0 = version := rfl
  have hrest : (bundleBytes version salt nonce ct).drop 5 = salt.1 ++ (nonce.1 ++ ct) := rfl
  have hafter : (bundleBytes version salt nonce ct).drop 21 = nonce.1 ++ ct := by
    rw [show 21 = 5 + 16 from rfl, ← List.drop_drop, hrest, List.drop_left' salt.2]
  have hct : (bundleBytes version salt nonce ct).drop 33 = ct := by
    rw [show 33 = 21 + 12 from rfl, ← List.drop_drop, hafter, List.drop_left' nonce.2]
  rw [decryptBundle, if_neg (by omega), if_neg (not_not_intro hmagic)]
  dsimp only
  rewrite [hversion, hrest, List.take_left' salt.2, hafter, List.take_left' nonce.2, hct,
    ByteArr.ofBytes_val, ByteArr.ofBytes_val, openBundle]
  rfl

/-- **No slice is out of range.** -/
theorem decryptBundleBytes_eq (data : Bytes) :
    decryptBundleBytes C passphrase data = bails (decryptBundle C data passphrase) := by
  rcases bundleBytes_cases data with hlen | ⟨hlen, hmagic⟩ | ⟨version, salt, nonce, ct, rfl⟩
  · rw [decryptBundleBytes, if_pos hlen, decryptBundle, if_pos hlen]
    rfl
  · have hslice : slice data 0 4 = .ok (data.take 4) := slice_front (by omega)
    have hshort : ¬ data.length < 4 + 1 + 16 + 12 := Nat.not_lt.mpr hlen
    rw [decryptBundleBytes, if_neg hshort, hslice, ok_bind, if_pos hmagic, decryptBundle,
      if_neg hshort, if_pos hmagic]
    rfl
  · rw [decryptBundleBytes_bundleBytes, decryptBundle_bundleBytes]

/-- What decrypts is what was encrypted under the passphrase. -/
theorem decryptBundle_eq_ok (hC : C.Exact) {data plaintext : Bytes} :
    decryptBundle C data passphrase = .ok plaintext ↔
      ∃ drawn, encryptBundle C passphrase drawn plaintext = .ok data := by
  constructor
  · intro h
    rcases bundleBytes_cases data with hlen | ⟨hlen, hmagic⟩ | ⟨version, salt, nonce, ct, rfl⟩
    · rw [decryptBundle, if_pos hlen] at h
      cases h
    · rw [decryptBundle, if_neg (Nat.not_lt.mpr hlen), if_pos hmagic] at h
      cases h
    · refine ⟨(salt, nonce), ?_⟩
      rw [decryptBundle_bundleBytes, openBundle] at h
      by_cases hversion : version = BUNDLE_VERSION
      · rw [if_neg (not_not_intro hversion)] at h
        cases hdec : C.decrypt (C.pbkdf2Key passphrase salt) nonce ct with
        | error e =>
            rw [hdec] at h
            cases h
        | ok m =>
            rw [hdec] at h
            obtain rfl := Except.ok.inj h
            exact encryptBundle_eq_ok.mpr ⟨ct, (hC _ _ _ _).mp hdec, by rw [hversion]⟩
      · rw [if_pos hversion] at h
        cases h
  · rintro ⟨⟨salt, nonce⟩, h⟩
    obtain ⟨ct, henc, rfl⟩ := encryptBundle_eq_ok.mp h
    rw [decryptBundle_bundleBytes, openBundle, if_neg (not_not_intro rfl),
      (hC _ _ _ _).mpr henc]

/-- **`decrypt_bundle` undoes `encrypt_bundle`.** -/
theorem undoes_encryptBundle (hC : C.Exact) :
    Undoes Eq (encryptBundle C passphrase) (decryptBundleBytes C passphrase) :=
  .eq_of_bails decryptBundleBytes_eq fun _ _ => decryptBundle_eq_ok hC

end Maranode.Attestation
