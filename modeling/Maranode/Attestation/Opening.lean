/-
  Maranode.Attestation.Opening

  What opens sealed files, and what a seal leaves of that wherever it stops.

  With the cipher and the key derivation idealised, the files a seal by software has
  finished open to its passphrase alone, and files it left short open to nothing.
-/
import Maranode.Attestation.Seal

namespace Maranode.Attestation

open Lib Lib.Json Lib.FileWrite

/-! ## Ideal ciphers -/

/-- AES-256-GCM and PBKDF2 idealised: nothing decrypts but what was encrypted, a ciphertext
    belongs to one key and one message and is not the front of another one, and no two
    passphrases have the same key. -/
structure SealCrypto.Ideal (C : SealCrypto) : Prop where
  decrypt_encrypt : ∀ key nonce m ct, C.encrypt key nonce m = .ok ct →
    C.decrypt key nonce ct = .ok m
  encrypt_decrypt : ∀ key nonce m ct, C.decrypt key nonce ct = .ok m →
    C.encrypt key nonce m = .ok ct
  eq_of_front : ∀ key key' nonce m m' ct ct', C.encrypt key nonce m = .ok ct →
    C.encrypt key' nonce m' = .ok ct' → ct <+: ct' → key = key' ∧ m = m'
  pbkdf2Key_inj : ∀ w w' salt, C.pbkdf2Key w salt = C.pbkdf2Key w' salt → w = w'

variable {X : External} {C : SealCrypto} {T : Tpm2Tools}

theorem frame_prefix {m m' rest rest' : Bytes} (h : frame m ++ rest <+: frame m' ++ rest') :
    m = m' ∧ rest <+: rest' := by
  obtain ⟨more, hmore⟩ := h
  rw [List.append_assoc] at hmore
  obtain ⟨hm, hrest⟩ := frame_append_inj hmore
  exact ⟨hm, more, hrest⟩

theorem sampleDecrypt_iff {key : String × ByteArr 16} {nonce : ByteArr 12} {m ct : Bytes} :
    SealCrypto.sample.decrypt key nonce ct = .ok m ↔ ct = sampleHeader key nonce ++ frame m := by
  simp only [SealCrypto.sample]
  constructor
  · intro h
    split at h
    · next hprefix =>
        obtain ⟨rest, rfl⟩ := List.isPrefixOf_iff_prefix.mp hprefix
        rw [List.drop_left] at h
        cases hframe : unframe rest with
        | none =>
            rw [hframe] at h
            cases h
        | some m' =>
            rw [hframe] at h
            rw [unframe_eq_some.mp hframe, Except.ok.inj h]
    · cases h
  · rintro rfl
    rw [if_pos (List.isPrefixOf_iff_prefix.mpr (List.prefix_append _ _)), List.drop_left,
      unframe_frame]

theorem SealCrypto.ideal_sample : SealCrypto.sample.Ideal where
  decrypt_encrypt := by
    intro key nonce m ct h
    exact sampleDecrypt_iff.mpr (Except.ok.inj h).symm
  encrypt_decrypt := by
    intro key nonce m ct h
    exact congrArg Except.ok (sampleDecrypt_iff.mp h).symm
  eq_of_front := by
    intro key key' nonce m m' ct ct' h h' hfront
    have hct : sampleHeader key nonce ++ frame m = ct := Except.ok.inj h
    have hct' : sampleHeader key' nonce ++ frame m' = ct' := Except.ok.inj h'
    rw [← hct, ← hct'] at hfront
    simp only [sampleHeader, List.append_assoc] at hfront
    obtain ⟨hw, hfront⟩ := frame_prefix hfront
    obtain ⟨hsalt, hfront⟩ := frame_prefix hfront
    obtain ⟨-, hfront⟩ := frame_prefix hfront
    rw [← List.append_nil (frame m), ← List.append_nil (frame m')] at hfront
    obtain ⟨hm, -⟩ := frame_prefix hfront
    have hpass : key.1 = key'.1 := String.toList_inj.mp (Text.encode_injective hw)
    exact ⟨Prod.ext hpass (Subtype.ext hsalt), hm⟩
  pbkdf2Key_inj := by
    intro w w' salt h
    exact congrArg Prod.fst h

/-! ## Opening -/

variable (X C T)

/-- The key that the files open to under a passphrase, whatever the counter says. -/
def SealedFiles.opens (files : SealedFiles) (w : String) : Option Bytes :=
  match loadMeta X files with
  | .error _ => none
  | .ok m => (decryptSealed C T m files w).toOption

/-- There is a `meta.json` that reads. -/
def SealedFiles.readable (files : SealedFiles) : Bool := (loadMeta X files).toOption.isSome

/-- No `meta.json` that says the TPM sealed the key. -/
def SealedFiles.BySoftware (files : SealedFiles) : Prop :=
  ∀ m, loadMeta X files = .ok m → m.backend = .software

/-- The passphrase unseals these bytes at every time from one on. -/
def Unseals (d : BlobDir) (since : UInt64) (w : String) (key : Bytes) : Prop :=
  ∀ r : UnsealRun, since ≤ r.checkedAt → (unsealKey X C T r d w).2 = .ok key

variable {X C T} {files : SealedFiles} {d : BlobDir} {r : UnsealRun} {w : String} {key : Bytes}

/-- An attempt succeeds when the counter lets it through and the files open. -/
theorem unsealKey_eq_ok :
    (unsealKey X C T r d w).2 = .ok key ↔
      checkDosLimit X d.failCounter r.checkedAt = .ok () ∧
        d.files.opens X C T w = some key := by
  rw [unsealKey, attempt, SealedFiles.opens]
  cases checkDosLimit X d.failCounter r.checkedAt with
  | error e =>
      refine iff_of_false (fun h => ?_) fun h => ?_
      · cases h
      · cases h.1
  | ok =>
      rw [eq_self, true_and]
      cases loadMeta X d.files with
      | error e =>
          refine iff_of_false (fun h => ?_) fun h => ?_
          · cases h
          · cases h
      | ok m =>
          cases hkey : decryptSealed C T m d.files w with
          | error e =>
              simp only [hkey]
              refine iff_of_false (fun h => ?_) fun h => ?_
              · cases h
              · cases h
          | ok key' =>
              simp only [hkey]
              exact ⟨fun h => congrArg some (Except.ok.inj h),
                fun h => congrArg Except.ok (Option.some.inj h)⟩

/-- What the counter lets through it lets through later. -/
theorem checkDosLimit_mono {file : Option Bytes} {now now' : UInt64} (hle : now ≤ now')
    (h : checkDosLimit X file now = .ok ()) : checkDosLimit X file now' = .ok () := by
  rw [checkDosLimit_eq_ok] at h ⊢
  intro hcount
  have hnow := UInt64.le_iff_toNat_le.mp hle
  exact Nat.le_trans (h hcount) hnow

theorem unseals_iff {since : UInt64} :
    Unseals X C T d since w key ↔
      checkDosLimit X d.failCounter since = .ok () ∧ d.files.opens X C T w = some key := by
  constructor
  · intro h
    exact unsealKey_eq_ok.mp (h ⟨since, since, .none⟩ (UInt64.le_refl since))
  · rintro ⟨hcheck, hopens⟩ r hle
    exact unsealKey_eq_ok.mpr ⟨checkDosLimit_mono hle hcheck, hopens⟩

theorem opens_of_not_readable (h : files.readable X = false) (w : String) :
    files.opens X C T w = none := by
  rw [SealedFiles.readable] at h
  rw [SealedFiles.opens]
  cases hload : loadMeta X files with
  | error e => rfl
  | ok m =>
      rw [hload] at h
      cases h

/-- Files sealed by software open by what is in `sealed.bin`. -/
theorem opens_eq (hsoft : files.BySoftware X) (hread : files.readable X = true) (w : String) :
    files.opens X C T w = (softwareUnseal C files w).toOption := by
  rw [SealedFiles.readable] at hread
  rw [SealedFiles.opens]
  cases hload : loadMeta X files with
  | error e =>
      rw [hload] at hread
      cases hread
  | ok m =>
      dsimp only
      rw [decryptSealed, hsoft m hload]

/-! ## Blobs -/

theorem length_sealBlob (salt : ByteArr 16) (nonce : ByteArr 12) (ct : Bytes) :
    (sealBlob salt nonce ct).length = 32 + ct.length := by
  simp only [sealBlob, List.length_append, salt.2, nonce.2, sealMagic, List.length_cons,
    List.length_nil]
  omega

/-- A blob falls into its parts. -/
theorem softwareUnseal_eq_decrypt {salt : ByteArr 16} {nonce : ByteArr 12} {ct : Bytes}
    (hbin : files.sealedBin = some (sealBlob salt nonce ct)) (w : String) :
    softwareUnseal C files w =
      match C.decrypt (C.pbkdf2Key w salt) nonce ct with
      | .error _ => .error "software unseal failed — wrong passphrase or corrupted blob"
      | .ok key => .ok key := by
  have hlen := length_sealBlob salt nonce ct
  have hmagic : (sealBlob salt nonce ct).take 4 = sealMagic := List.take_left' rfl
  have hrest : (sealBlob salt nonce ct).drop 4 = salt.1 ++ (nonce.1 ++ ct) := List.drop_left' rfl
  have hsalt : ((sealBlob salt nonce ct).drop 4).take 16 = salt.1 := by
    rw [hrest, List.take_left' salt.2]
  have hafter : (sealBlob salt nonce ct).drop 20 = nonce.1 ++ ct := by
    rw [show 20 = 4 + 16 from rfl, ← List.drop_drop, hrest, List.drop_left' salt.2]
  have hnonce : ((sealBlob salt nonce ct).drop 20).take 12 = nonce.1 := by
    rw [hafter, List.take_left' nonce.2]
  have hct : (sealBlob salt nonce ct).drop 32 = ct := by
    rw [show 32 = 20 + 12 from rfl, ← List.drop_drop, hafter, List.drop_left' nonce.2]
  rw [softwareUnseal, hbin]
  dsimp only
  rewrite [if_neg (by omega), if_neg (not_not_intro hmagic), hsalt, hnonce, hct,
    ByteArr.ofBytes_val, ByteArr.ofBytes_val]
  rfl

theorem softwareUnseal_sealBlob {salt : ByteArr 16} {nonce : ByteArr 12} {ct : Bytes}
    (hbin : files.sealedBin = some (sealBlob salt nonce ct)) (w : String) :
    (softwareUnseal C files w).toOption =
      (C.decrypt (C.pbkdf2Key w salt) nonce ct).toOption := by
  rw [softwareUnseal_eq_decrypt hbin]
  cases C.decrypt (C.pbkdf2Key w salt) nonce ct <;> rfl

/-- **Whole blobs.**  A blob opens to the passphrase it was sealed under and to no other. -/
theorem softwareUnseal_whole (hI : C.Ideal) {salt : ByteArr 16} {nonce : ByteArr 12}
    {w : String} {data ct : Bytes} (hct : C.encrypt (C.pbkdf2Key w salt) nonce data = .ok ct)
    (hbin : files.sealedBin = some (sealBlob salt nonce ct)) (w' : String) :
    (softwareUnseal C files w').toOption = if w' = w then some data else none := by
  rw [softwareUnseal_sealBlob hbin]
  by_cases hw : w' = w
  · rw [hw, hI.decrypt_encrypt _ _ _ _ hct, if_pos rfl]
    rfl
  · rw [if_neg hw]
    cases hdec : C.decrypt (C.pbkdf2Key w' salt) nonce ct with
    | error e => rfl
    | ok m =>
        have henc := hI.encrypt_decrypt _ _ _ _ hdec
        have hkey := (hI.eq_of_front _ _ _ _ _ _ _ henc hct (List.prefix_refl ct)).1
        exact absurd (hI.pbkdf2Key_inj _ _ _ hkey) hw

/-- **Short blobs.**  A blob with its end missing opens to nothing. -/
theorem softwareUnseal_short (hI : C.Ideal) {salt : ByteArr 16} {nonce : ByteArr 12}
    {w : String} {data ct : Bytes} (hct : C.encrypt (C.pbkdf2Key w salt) nonce data = .ok ct)
    {n : Nat} (hn : n < (sealBlob salt nonce ct).length)
    (hbin : files.sealedBin = some ((sealBlob salt nonce ct).take n)) (w' : String) :
    (softwareUnseal C files w').toOption = none := by
  rw [length_sealBlob] at hn
  -- Even the header is cut: too short to be read.
  by_cases hheader : n < 32
  · have hlen : ((sealBlob salt nonce ct).take n).length < 4 + 16 + 12 := by
      rw [List.length_take]
      omega
    rw [softwareUnseal, hbin]
    dsimp only
    rw [if_pos hlen]
    rfl
  · -- The header is there, the ciphertext is not all there.
    have hcut : (sealBlob salt nonce ct).take n = sealBlob salt nonce (ct.take (n - 32)) := by
      have hfour : sealMagic.length ≤ n := by
        change 4 ≤ n
        omega
      have hsalt : salt.1.length ≤ n - sealMagic.length := by
        rw [salt.2]
        change 16 ≤ n - 4
        omega
      have hnonce : nonce.1.length ≤ n - sealMagic.length - salt.1.length := by
        rw [salt.2, nonce.2]
        change 12 ≤ n - 4 - 16
        omega
      rw [sealBlob, sealBlob, List.take_append, List.take_of_length_le hfour, List.take_append,
        List.take_of_length_le hsalt, List.take_append, List.take_of_length_le hnonce, salt.2,
        nonce.2]
      have hrest : n - sealMagic.length - 16 - 12 = n - 32 := by
        change n - 4 - 16 - 12 = n - 32
        omega
      rw [hrest]
    rw [hcut] at hbin
    rw [softwareUnseal_sealBlob hbin]
    cases hdec : C.decrypt (C.pbkdf2Key w' salt) nonce (ct.take (n - 32)) with
    | error e => rfl
    | ok m =>
        have henc := hI.encrypt_decrypt _ _ _ _ hdec
        -- A ciphertext that is the front of another decrypts only if it is the other.
        obtain ⟨hkey, rfl⟩ := hI.eq_of_front _ _ _ _ _ _ _ henc hct (List.take_prefix _ ct)
        rw [hkey] at henc
        have hsame := Except.ok.inj (henc.symm.trans hct)
        have hlen := congrArg List.length hsame
        rw [List.length_take] at hlen
        omega

/-! ## Where a seal stops -/

/-- Where a seal by software stops: before `sealed.bin` is opened, with a part of
    `sealed.bin` written, before `meta.json` is opened, with a part of `meta.json`
    written, or nowhere. -/
inductive SealStop where
  | unopened
  | binShort
  | metaUnopened
  | metaShort
  | finished
  deriving DecidableEq

/-- Where writing `meta.json` stops. -/
def metaStop (fault : Fault) (bytes : Bytes) : SealStop :=
  match fault with
  | .none => .finished
  | .opening _ => .metaUnopened
  | .after n _ => if n < bytes.length then .metaShort else .finished

variable (X C) in
def SealRun.stop (r : SealRun) (data : Bytes) (purpose w : String) : SealStop :=
  match r.createDir with
  | .error _ => .unopened
  | .ok () =>
      match C.encrypt (C.pbkdf2Key w r.salt) r.nonce data with
      | .error _ => .unopened
      | .ok ct =>
          let written := metaStop r.metaJson (metaBytes X (softwareMeta purpose r))
          match r.sealedBin with
          | .none => written
          | .opening _ => .unopened
          | .after n _ => if n < (sealBlob r.salt r.nonce ct).length then .binShort else written

/-- Opened by one passphrase alone. -/
def onlyBy (w : String) (data : Bytes) : String → Option Bytes :=
  fun w' => if w' = w then some data else none

/-- What opens the files after a seal that stopped there, given whether a `meta.json` read
    before and what opened them then. -/
def SealStop.opens (readable : Bool) (before : String → Option Bytes) (w : String)
    (data : Bytes) : SealStop → String → Option Bytes
  | .unopened => before
  | .binShort => fun _ => none
  | .metaUnopened => if readable then onlyBy w data else before
  | .metaShort => fun _ => none
  | .finished => onlyBy w data

def SealStop.readable (before : Bool) : SealStop → Bool
  | .metaShort => false
  | .finished => true
  | _ => before

/-- A seal that has finished returns a value, and any other one an error. -/
def EndsBy {α : Type} (stop : SealStop) (a : α) (res : Except String α) : Prop :=
  match stop with
  | .finished => res = .ok a
  | _ => ∃ e, res = .error e

theorem EndsBy.map {α β : Type} {stop : SealStop} {a : α} {res : Except String α}
    (h : EndsBy stop a res) (f : α → β) : EndsBy stop (f a) (res.map f) := by
  cases stop with
  | finished =>
      have hok : res = .ok a := h
      rw [hok]
      exact rfl
  | _ =>
      obtain ⟨e, he⟩ := h
      exact ⟨e, by rw [he]; rfl⟩

/-- The bytes of a `meta.json` read back. -/
theorem loadMeta_metaBytes {m : SealMeta} (h : files.metaJson = some (metaBytes X m)) :
    loadMeta X files = .ok m := by
  rw [loadMeta, h]
  dsimp only
  rw [metaBytes, ofSlice_toVecPretty, Option.bind_some, Codec.dec_enc]

theorem loadMeta_short {m : SealMeta} {n : Nat} (hn : n < (metaBytes X m).length)
    (h : files.metaJson = some ((metaBytes X m).take n)) :
    loadMeta X files = .error "expected value" := by
  have hnone : ofSlice ((metaBytes X m).take n) = none :=
    @ofSlice_take (m.members X X.text) n hn
  rw [loadMeta, h]
  dsimp only
  rw [hnone, Option.bind_none]

variable (X C T) in
/-- Files as a seal that stopped there leaves them. -/
structure LeftBy (stop : SealStop) (w : String) (data : Bytes) (files after : SealedFiles) :
    Prop where
  opens : ∀ w', after.opens X C T w' =
    stop.opens (files.readable X) (files.opens X C T) w data w'
  readable : after.readable X = stop.readable (files.readable X)
  bySoftware : after.BySoftware X

theorem leftBy_unopened (hsoft : files.BySoftware X) (w : String) (data : Bytes) :
    LeftBy X C T .unopened w data files files where
  opens _ := rfl
  readable := rfl
  bySoftware := hsoft

/-- Files with the same `meta.json` read alike. -/
theorem loadMeta_congr {after : SealedFiles} (h : after.metaJson = files.metaJson) :
    loadMeta X after = loadMeta X files := by
  rw [loadMeta, loadMeta, h]

theorem readable_congr {after : SealedFiles} (h : after.metaJson = files.metaJson) :
    after.readable X = files.readable X := by
  rw [SealedFiles.readable, SealedFiles.readable, loadMeta_congr h]

theorem SealedFiles.BySoftware.congr {after : SealedFiles} (hsoft : files.BySoftware X)
    (h : after.metaJson = files.metaJson) : after.BySoftware X := by
  intro m hm
  exact hsoft m ((loadMeta_congr h).symm.trans hm)

section Blob

variable {after : SealedFiles} {salt : ByteArr 16} {nonce : ByteArr 12} {data ct : Bytes}

/-- A `sealed.bin` that was left short. -/
theorem leftBy_binShort (hI : C.Ideal) (hsoft : files.BySoftware X)
    (hct : C.encrypt (C.pbkdf2Key w salt) nonce data = .ok ct) {n : Nat}
    (hn : n < (sealBlob salt nonce ct).length) (hmeta : after.metaJson = files.metaJson)
    (hbin : after.sealedBin = some ((sealBlob salt nonce ct).take n)) :
    LeftBy X C T .binShort w data files after where
  opens := by
    intro w'
    rw [SealStop.opens]
    cases hread : after.readable X with
    | false => exact opens_of_not_readable hread w'
    | true =>
        rw [opens_eq (hsoft.congr hmeta) hread]
        exact softwareUnseal_short hI hct hn hbin w'
  readable := readable_congr hmeta
  bySoftware := hsoft.congr hmeta

/-- A whole `sealed.bin` under the `meta.json` that was there. -/
theorem leftBy_metaUnopened (hI : C.Ideal) (hsoft : files.BySoftware X)
    (hct : C.encrypt (C.pbkdf2Key w salt) nonce data = .ok ct)
    (hmeta : after.metaJson = files.metaJson)
    (hbin : after.sealedBin = some (sealBlob salt nonce ct)) :
    LeftBy X C T .metaUnopened w data files after where
  opens := by
    intro w'
    rw [SealStop.opens]
    cases hread : files.readable X with
    | false =>
        rw [if_neg Bool.false_ne_true, opens_of_not_readable hread]
        exact opens_of_not_readable ((readable_congr hmeta).trans hread) w'
    | true =>
        rw [if_pos rfl, opens_eq (hsoft.congr hmeta) ((readable_congr hmeta).trans hread)]
        exact softwareUnseal_whole hI hct hbin w'
  readable := readable_congr hmeta
  bySoftware := hsoft.congr hmeta

/-- A `meta.json` that was left short. -/
theorem leftBy_metaShort {m : SealMeta} {n : Nat} (hn : n < (metaBytes X m).length)
    (hmeta : after.metaJson = some ((metaBytes X m).take n)) (w : String) (data : Bytes) :
    LeftBy X C T .metaShort w data files after := by
  have hload := loadMeta_short hn hmeta
  have hread : after.readable X = false := by
    rw [SealedFiles.readable, hload]
    rfl
  constructor
  · exact opens_of_not_readable hread
  · exact hread
  · intro m' hm'
    rw [hload] at hm'
    cases hm'

/-- Both files whole. -/
theorem leftBy_finished (hI : C.Ideal)
    (hct : C.encrypt (C.pbkdf2Key w salt) nonce data = .ok ct) {m : SealMeta}
    (hm : m.backend = .software) (hmeta : after.metaJson = some (metaBytes X m))
    (hbin : after.sealedBin = some (sealBlob salt nonce ct)) :
    LeftBy X C T .finished w data files after := by
  have hload := loadMeta_metaBytes hmeta
  have hread : after.readable X = true := by
    rw [SealedFiles.readable, hload]
    rfl
  have hsoft : after.BySoftware X := by
    intro m' hm'
    rw [← Except.ok.inj (hload.symm.trans hm'), hm]
  constructor
  · intro w'
    rw [opens_eq hsoft hread]
    exact softwareUnseal_whole hI hct hbin w'
  · exact hread
  · exact hsoft

/-- Writing `meta.json` next to a whole `sealed.bin`. -/
theorem saveMeta_spec (hI : C.Ideal) (hsoft : files.BySoftware X)
    (hct : C.encrypt (C.pbkdf2Key w salt) nonce data = .ok ct)
    (hmeta : after.metaJson = files.metaJson)
    (hbin : after.sealedBin = some (sealBlob salt nonce ct)) (fault : Fault) {m : SealMeta}
    (hm : m.backend = .software) :
    LeftBy X C T (metaStop fault (metaBytes X m)) w data files (saveMeta X fault after m).1 ∧
      EndsBy (metaStop fault (metaBytes X m)) () (saveMeta X fault after m).2 := by
  rw [saveMeta]
  rcases fault with - | e | ⟨n, e⟩
  · exact ⟨leftBy_finished hI hct hm rfl hbin, rfl⟩
  · exact ⟨leftBy_metaUnopened hI hsoft hct hmeta hbin, e, rfl⟩
  · rw [metaStop]
    rcases Nat.lt_or_ge n (metaBytes X m).length with hn | hn
    · rw [write_of_torn e hn, if_pos hn]
      exact ⟨leftBy_metaShort hn rfl w data, e, rfl⟩
    · have hpasses : (Fault.after n e).Passes (metaBytes X m) := hn
      rw [write_of_passes hpasses, if_neg (Nat.not_lt.mpr hn)]
      exact ⟨leftBy_finished hI hct hm rfl hbin, rfl⟩

end Blob

/-- Once `sealed.bin` is whole, it is up to `meta.json`. -/
theorem softwareSeal_written {r : SealRun} {data ct : Bytes} {purpose : String}
    (hct : C.encrypt (C.pbkdf2Key w r.salt) r.nonce data = .ok ct)
    (hpasses : r.sealedBin.Passes (sealBlob r.salt r.nonce ct)) :
    softwareSeal X C r data purpose files w =
      let saved := saveMeta X r.metaJson
        { files with sealedBin := some (sealBlob r.salt r.nonce ct) } (softwareMeta purpose r)
      (saved.1, saved.2.map fun () => softwareMeta purpose r) := by
  rw [softwareSeal, hct]
  dsimp only
  rw [write_of_passes hpasses]

theorem stop_of_passes {r : SealRun} {data ct : Bytes} {purpose : String}
    (hdir : r.createDir = .ok ()) (hct : C.encrypt (C.pbkdf2Key w r.salt) r.nonce data = .ok ct)
    (hpasses : r.sealedBin.Passes (sealBlob r.salt r.nonce ct)) :
    r.stop X C data purpose w = metaStop r.metaJson (metaBytes X (softwareMeta purpose r)) := by
  rw [SealRun.stop, hdir]
  dsimp only
  rw [hct]
  dsimp only
  cases hbin : r.sealedBin with
  | none => rfl
  | opening e =>
      rw [hbin] at hpasses
      exact hpasses.elim
  | after n e =>
      rw [hbin] at hpasses
      exact if_neg (Nat.not_lt.mpr hpasses)

/-- **Where a seal stops.**  What a seal by software leaves, and when it succeeds. -/
theorem softwareSeal_spec (hI : C.Ideal) (hsoft : files.BySoftware X) {r : SealRun}
    (hdir : r.createDir = .ok ()) (data : Bytes) (purpose w : String) :
    LeftBy X C T (r.stop X C data purpose w) w data files
        (softwareSeal X C r data purpose files w).1 ∧
      EndsBy (r.stop X C data purpose w) (softwareMeta purpose r)
        (softwareSeal X C r data purpose files w).2 := by
  -- The seal ends in one of five places, each with its own files and answer.
  cases hct : C.encrypt (C.pbkdf2Key w r.salt) r.nonce data with
  | error e =>
      have hstop : r.stop X C data purpose w = .unopened := by
        rw [SealRun.stop, hdir]
        dsimp only
        rw [hct]
      rw [hstop, softwareSeal, hct]
      exact ⟨leftBy_unopened hsoft w data, _, rfl⟩
  | ok ct =>
      rcases Fault.passes_or r.sealedBin (sealBlob r.salt r.nonce ct) with
        hpasses | ⟨e, hopening⟩ | ⟨n, e, hafter, hn⟩
      -- The blob is written whole; what is left depends on the metadata.
      · rw [stop_of_passes hdir hct hpasses, softwareSeal_written hct hpasses]
        obtain ⟨hleft, hends⟩ := @saveMeta_spec X C T files w
          { files with sealedBin := some (sealBlob r.salt r.nonce ct) } r.salt r.nonce data ct
          hI hsoft hct rfl rfl r.metaJson (softwareMeta purpose r) rfl
        exact ⟨hleft, hends.map _⟩
      · have hstop : r.stop X C data purpose w = .unopened := by
          rw [SealRun.stop, hdir]
          dsimp only
          rw [hct, hopening]
        rw [hstop, softwareSeal, hct, hopening]
        exact ⟨leftBy_unopened hsoft w data, e, rfl⟩
      -- The blob is cut: nothing opens it any more.
      · have hstop : r.stop X C data purpose w = .binShort := by
          rw [SealRun.stop, hdir]
          dsimp only
          rw [hct, hafter]
          exact if_pos hn
        rw [hstop, softwareSeal, hct, hafter]
        dsimp only
        rw [write_of_torn e hn]
        exact ⟨leftBy_binShort hI hsoft hct hn rfl rfl, e, rfl⟩

/-- Without a TPM, `seal` is the seal by software. -/
theorem sealKey_spec (hI : C.Ideal) (hT : T.available = false) (hsoft : files.BySoftware X)
    (r : SealRun) (data : Bytes) (purpose : String) (pcrPolicy : Option String) (w : String) :
    LeftBy X C T (r.stop X C data purpose w) w data files
        (sealKey X C T r data purpose files pcrPolicy w).1 ∧
      EndsBy (r.stop X C data purpose w) (softwareMeta purpose r)
        (sealKey X C T r data purpose files pcrPolicy w).2 := by
  cases hdir : r.createDir with
  | error e =>
      have hstop : r.stop X C data purpose w = .unopened := by
        rw [SealRun.stop, hdir]
      have heq : sealKey X C T r data purpose files pcrPolicy w = (files, .error e) := by
        unfold sealKey
        rw [hdir]
      rw [hstop, heq]
      exact ⟨leftBy_unopened hsoft w data, e, rfl⟩
  | ok =>
      have heq : sealKey X C T r data purpose files pcrPolicy w =
          softwareSeal X C r data purpose files w := by
        unfold sealKey
        rw [hdir, hT]
        cases pcrPolicy <;> rfl
      rw [heq]
      exact softwareSeal_spec hI hsoft hdir data purpose w

end Maranode.Attestation
