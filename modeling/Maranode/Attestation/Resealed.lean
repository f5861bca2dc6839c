/-
  Maranode.Attestation.Resealed

  `rotation.rs`: what unseals after a rotation or an import, wherever it fails.

  A rotation keeps its promise unless it fails once `sealed.bin` has been opened; an import
  leaves everything as it was unless something it has sealed, or begun to, was sealed
  otherwise before.
-/
import Maranode.Attestation.Rotation

namespace Maranode.Attestation

open Lib Lib.Json Lib.FileWrite

variable (X : External) (C : SealCrypto) (T : Tpm2Tools)
variable {δ : Type} [DecidableEq δ] (blobDir : String → δ)

/-! ## Rotations -/

/-- **The promise of a rotation.**  If the old passphrase unseals a key, then after a rotation
    that succeeds the new one unseals it, and after one that fails the old one still does. -/
def RotationKeeps (r : RotateRun) (s : TpmDir δ) (purpose oldPassphrase : String)
    (newPcrList : Option String) (newPassphrase reason : String) : Prop :=
  ∀ key, Unseals X C T (s.dirs (blobDir purpose)) r.unseal_.checkedAt oldPassphrase key →
    match rotateInPlace X C T blobDir r s purpose oldPassphrase newPcrList newPassphrase reason with
    | (s', .ok _) => Unseals X C T (s'.dirs (blobDir purpose)) r.unseal_.checkedAt newPassphrase key
    | (s', .error _) =>
        Unseals X C T (s'.dirs (blobDir purpose)) r.unseal_.checkedAt oldPassphrase key

/-- The line of the rotation log is written. -/
def RotateRun.Logs (r : RotateRun) (s : TpmDir δ) (purpose reason : String) : Prop :=
  r.createLogDir = .ok () ∧ ∀ oldMeta, sealStatus X (s.dirs (blobDir purpose)) = some oldMeta →
    r.log.Passes ((rotationRecord purpose reason r.rotatedAt oldMeta
      (softwareMeta purpose r.seal_)).line X)

/-- The seal stops before it opens `sealed.bin`, or goes through and is logged; or the
    passphrases are the same and both files are whole. -/
def RotationSafe (r : RotateRun) (s : TpmDir δ) (purpose oldPassphrase newPassphrase
    reason : String) : Prop :=
  ∀ key, Unseals X C T (s.dirs (blobDir purpose)) r.unseal_.checkedAt oldPassphrase key →
    match r.seal_.stop X C key purpose newPassphrase with
    | .unopened => True
    | .finished => r.Logs X blobDir s purpose reason ∨ oldPassphrase = newPassphrase
    | .metaUnopened => oldPassphrase = newPassphrase
    | _ => False

variable {X C T blobDir} {s : TpmDir δ}

@[simp] theorem setDir_dirs_self (s : TpmDir δ) (dir : δ) (d : BlobDir) :
    (s.setDir dir d).dirs dir = d := Function.update_self ..

theorem setDir_dirs_of_ne (s : TpmDir δ) {dir dir' : δ} (h : dir' ≠ dir) (d : BlobDir) :
    (s.setDir dir d).dirs dir' = s.dirs dir' := Function.update_of_ne h ..

theorem readFailCounter_bytes (fc : FailCounter) :
    readFailCounter X (some (counterBytes X fc)) = fc := by
  rw [readFailCounter, Option.bind_some, counterBytes, ofSlice_toVec, Option.bind_some,
    Codec.dec_enc, Option.getD_some]

/-- A counter file that was left short counts nothing. -/
theorem readFailCounter_short {fc : FailCounter} {n : Nat} (h : n < (counterBytes X fc).length) :
    readFailCounter X (some ((counterBytes X fc).take n)) = .default := by
  have hnone : ofSlice ((counterBytes X fc).take n) = none :=
    @ofSlice_take_toVec _ n h
  rw [readFailCounter, Option.bind_some, hnone, Option.bind_none, Option.getD_none]

/-- A counter that let an attempt through lets the next ones through once it is reset, or
    its file could not be opened. -/
theorem checkDosLimit_reset {file : Option Bytes} {now : UInt64} (fault : Fault)
    (h : checkDosLimit X file now = .ok ()) :
    checkDosLimit X (resetFailCounter X fault file) now = .ok () := by
  have hdefault : ∀ file', readFailCounter X file' = .default →
      checkDosLimit X file' now = .ok () := by
    intro file' hfile'
    rw [checkDosLimit_eq_ok, hfile']
    intro hcount
    exact absurd hcount (by decide)
  rw [resetFailCounter, writeFailCounter]
  rcases Fault.passes_or fault (counterBytes X .default) with hpasses | ⟨e, rfl⟩ | ⟨n, e, rfl, hn⟩
  · rw [write_of_passes hpasses]
    exact hdefault _ (readFailCounter_bytes _)
  · exact h
  · rw [write_of_torn e hn]
    exact hdefault _ (readFailCounter_short hn)

/-- The attempt of a rotation whose passphrase unseals. -/
theorem unsealKey_of_unseals {d : BlobDir} {r : UnsealRun} {w : String} {key : Bytes}
    (h : Unseals X C T d r.checkedAt w key) :
    unsealKey X C T r d w = (⟨d.files, resetFailCounter X r.counter d.failCounter⟩, .ok key) := by
  have hkey := h r (UInt64.le_refl _)
  rw [unsealKey] at hkey ⊢
  have hattempt : attempt X C T r d w = .unsealed key := by
    cases hcall : attempt X C T r d w with
    | unsealed key' =>
        rw [hcall] at hkey
        rw [Except.ok.inj hkey]
    | refused e | noMeta e | failed e =>
        rw [hcall] at hkey
        cases hkey
  rw [hattempt]
  rfl

theorem readable_of_opens {files : SealedFiles} {w : String} {key : Bytes}
    (h : files.opens X C T w = some key) : files.readable X = true := by
  cases hread : files.readable X with
  | true => rfl
  | false =>
      rw [opens_of_not_readable hread] at h
      cases h

theorem sealStatus_of_readable {d : BlobDir} (h : d.files.readable X = true) :
    ∃ m, sealStatus X d = some m := Option.isSome_iff_exists.mp h

omit [DecidableEq δ] in
/-- The log changes no directory. -/
theorem appendRotationLog_dirs (createLogDir : Except String Unit) (fault : Fault)
    (s : TpmDir δ) (record : RotationRecord) :
    (appendRotationLog X createLogDir fault s record).1.dirs = s.dirs := by
  cases createLogDir <;> rfl

omit [DecidableEq δ] in
theorem appendRotationLog_eq_ok {createLogDir : Except String Unit} {fault : Fault}
    {record : RotationRecord} :
    (appendRotationLog X createLogDir fault s record).2 = .ok () ↔
      createLogDir = .ok () ∧ fault.Passes (record.line X) := by
  cases createLogDir with
  | error e =>
      refine iff_of_false (fun h => ?_) fun h => ?_
      · cases h
      · cases h.1
  | ok =>
      rw [appendRotationLog, append]
      rcases Fault.passes_or fault (record.line X) with hpasses | ⟨e, rfl⟩ | ⟨n, e, rfl, hn⟩
      · rw [put_of_passes hpasses]
        exact iff_of_true rfl ⟨rfl, hpasses⟩
      · refine iff_of_false (fun h => ?_) fun h => h.2
        cases h
      · rw [put_of_torn e hn]
        refine iff_of_false (fun h => ?_) fun h => ?_
        · cases h
        · exact absurd h.2 (Nat.not_le.mpr hn)

section Rotate

variable {r : RotateRun} {purpose old new reason : String} {pcrs : Option String} {key : Bytes}

/-- The directory of a purpose after its counter was reset and its files sealed anew. -/
def resealedDir (r : RotateRun) (d : BlobDir) (files : SealedFiles) : BlobDir :=
  ⟨files, resetFailCounter X r.unseal_.counter d.failCounter⟩

/-- A rotation whose old passphrase unseals comes to sealing the key. -/
theorem rotateInPlace_of_unseals
    (h : Unseals X C T (s.dirs (blobDir purpose)) r.unseal_.checkedAt old key) :
    ∃ oldMeta, sealStatus X (s.dirs (blobDir purpose)) = some oldMeta ∧
      rotateInPlace X C T blobDir r s purpose old pcrs new reason =
        match sealKey X C T r.seal_ key purpose (s.dirs (blobDir purpose)).files pcrs new with
        | (files, .error _) =>
            (s.setDir (blobDir purpose) (resealedDir (X := X) r (s.dirs (blobDir purpose)) files),
              .error "re-seal after rotation")
        | (files, .ok newMeta) =>
            let record := rotationRecord purpose reason r.rotatedAt oldMeta newMeta
            let (s, res) := appendRotationLog X r.createLogDir r.log
              (s.setDir (blobDir purpose) (resealedDir (X := X) r (s.dirs (blobDir purpose)) files))
              record
            (s, res.map fun () => record) := by
  have hopens := (unseals_iff.mp h).2
  obtain ⟨oldMeta, hmeta⟩ := sealStatus_of_readable (readable_of_opens hopens)
  refine ⟨oldMeta, hmeta, ?_⟩
  rw [rotateInPlace, hmeta]
  dsimp only
  rw [unsealKey_of_unseals h]
  rfl

/-- What unseals the purpose once its files are sealed anew. -/
theorem unseals_resealedDir {d : BlobDir} {files : SealedFiles} {w : String}
    (h : Unseals X C T d r.unseal_.checkedAt old key) {key' : Bytes} :
    Unseals X C T (resealedDir (X := X) r d files) r.unseal_.checkedAt w key' ↔
      files.opens X C T w = some key' := by
  rw [unseals_iff]
  exact and_iff_right (checkDosLimit_reset _ (unseals_iff.mp h).1)

theorem onlyBy_eq_some {w w' : String} {data : Bytes} :
    onlyBy w data w' = some data ↔ w' = w := by
  rw [onlyBy]
  split
  · next h => exact iff_of_true rfl h
  · next h =>
      refine iff_of_false (fun hnone => ?_) h
      cases hnone

omit [DecidableEq δ] in
/-- The log line goes through when the append does. -/
theorem logs_iff {oldMeta : SealMeta}
    (hmeta : sealStatus X (s.dirs (blobDir purpose)) = some oldMeta) (s' : TpmDir δ) :
    r.Logs X blobDir s purpose reason ↔
      (appendRotationLog X r.createLogDir r.log s'
        (rotationRecord purpose reason r.rotatedAt oldMeta (softwareMeta purpose r.seal_))).2 =
          .ok () := by
  rw [appendRotationLog_eq_ok]
  refine and_congr_right fun _ => ⟨fun hall => hall oldMeta hmeta, fun hpasses m hm => ?_⟩
  rw [Option.some.inj (hm.symm.trans hmeta)]
  exact hpasses

/-- **Rotations.**  A rotation keeps its promise exactly when it is safe. -/
theorem rotationKeeps_iff (hI : C.Ideal) (hT : T.available = false)
    (hsoft : (s.dirs (blobDir purpose)).files.BySoftware X) :
    RotationKeeps X C T blobDir r s purpose old pcrs new reason ↔
      RotationSafe X C T blobDir r s purpose old new reason := by
  refine forall_congr' fun key => forall_congr' fun h => ?_
  obtain ⟨hcheck, hopens⟩ := unseals_iff.mp h
  obtain ⟨oldMeta, hmeta, hrotate⟩ :=
    @rotateInPlace_of_unseals X C T δ _ blobDir s r purpose old new reason pcrs key h
  obtain ⟨hleft, hends⟩ := sealKey_spec hI hT hsoft r.seal_ key purpose pcrs new
  rw [hrotate]
  -- What opened before stays the measure in each of the five ends.
  have hread := readable_of_opens hopens
  generalize sealKey X C T r.seal_ key purpose (s.dirs (blobDir purpose)).files pcrs new = sealed
    at hleft hends ⊢
  obtain ⟨files, res⟩ := sealed
  -- Nothing was opened, so the old password still opens the old key.
  cases hstop : r.seal_.stop X C key purpose new with
  | unopened =>
      rw [hstop] at hleft hends
      obtain ⟨e, rfl⟩ := hends
      dsimp only
      rw [setDir_dirs_self, unseals_resealedDir h, hleft.opens, SealStop.opens, hopens]
      exact iff_of_true rfl trivial
  -- A blob or metadata that is cut short opens with no password.
  | binShort =>
      rw [hstop] at hleft hends
      obtain ⟨e, rfl⟩ := hends
      dsimp only
      rw [setDir_dirs_self, unseals_resealedDir h, hleft.opens, SealStop.opens]
      exact iff_of_false (fun hnone => by cases hnone) not_false
  -- The new blob beside the old metadata: the new password opens it if anything does.
  | metaUnopened =>
      rw [hstop] at hleft hends
      obtain ⟨e, rfl⟩ := hends
      dsimp only
      rw [setDir_dirs_self, unseals_resealedDir h, hleft.opens, SealStop.opens, hread, if_pos rfl,
        onlyBy_eq_some]
  | metaShort =>
      rw [hstop] at hleft hends
      obtain ⟨e, rfl⟩ := hends
      dsimp only
      rw [setDir_dirs_self, unseals_resealedDir h, hleft.opens, SealStop.opens]
      exact iff_of_false (fun hnone => by cases hnone) not_false
  -- Sealed anew: only the new password opens it, whatever becomes of the log.
  | finished =>
      rw [hstop] at hleft hends
      obtain rfl : res = .ok (softwareMeta purpose r.seal_) := hends
      have hnew : ∀ w, Unseals X C T (resealedDir (X := X) r (s.dirs (blobDir purpose)) files)
          r.unseal_.checkedAt w key ↔ w = new := by
        intro w
        rw [unseals_resealedDir h, hleft.opens, SealStop.opens, onlyBy_eq_some]
      have hlog : r.Logs X blobDir s purpose reason ↔ _ := logs_iff hmeta
        (s.setDir (blobDir purpose) (resealedDir (X := X) r (s.dirs (blobDir purpose)) files))
      have hdirs := @appendRotationLog_dirs X δ r.createLogDir r.log
        (s.setDir (blobDir purpose) (resealedDir (X := X) r (s.dirs (blobDir purpose)) files))
        (rotationRecord purpose reason r.rotatedAt oldMeta (softwareMeta purpose r.seal_))
      dsimp only at hdirs ⊢
      generalize appendRotationLog X r.createLogDir r.log _ _ = logged at hlog hdirs ⊢
      obtain ⟨s', logRes⟩ := logged
      dsimp only at hlog hdirs ⊢
      rw [hlog]
      cases logRes with
      | ok =>
          refine iff_of_true ?_ (.inl rfl)
          change Unseals X C T (s'.dirs (blobDir purpose)) _ new key
          rw [hdirs, setDir_dirs_self]
          exact (hnew new).mpr rfl
      -- The rotation answers an error because of its log, with the key under the new password.
      | error e =>
          change Unseals X C T (s'.dirs (blobDir purpose)) _ old key ↔ _
          rw [hdirs, setDir_dirs_self, hnew]
          exact (or_iff_right fun hok => by cases hok).symm

end Rotate

/-! ## Imports -/

section Import

variable (X C T blobDir)

/-- **The promise of an import.**  If it fails, every purpose unseals as before, under any
    passphrase at any time. -/
def ImportKeeps (runs : Nat → ImportRun) (s : TpmDir δ) (bundleBytes : Bytes)
    (passphrase : String) (newPcrList : Option String) : Prop :=
  match importRecoveryBundle X C T blobDir runs s bundleBytes passphrase newPcrList with
  | (_, .ok _) => True
  | (s', .error _) => ∀ purpose r w key,
      (unsealKey X C T r (s'.dirs (blobDir purpose)) w).2 = .ok key ↔
        (unsealKey X C T r (s.dirs (blobDir purpose)) w).2 = .ok key

/-- The key of an entry. -/
def RecoveryEntry.key (entry : RecoveryEntry) : Bytes :=
  (Hex.decode entry.keyBytesHex.toList).getD []

/-- Where an entry stops. -/
def ImportRun.stop (run : ImportRun) (passphrase : String) (entry : RecoveryEntry) : SealStop :=
  match Hex.decode entry.keyBytesHex.toList with
  | none => .unopened
  | some keyBytes => run.seal_.stop X C keyBytes entry.purpose passphrase

/-- The key that the last of these entries for a directory brings. -/
def resealedAs (dir : δ) : List RecoveryEntry → Option Bytes
  | [] => none
  | entry :: done =>
      (resealedAs dir done).or (if blobDir entry.purpose = dir then some entry.key else none)

/-- What opens a directory once `done` are sealed and `entry` has stopped. -/
def opensAfter (s : TpmDir δ) (passphrase : String) (done : List RecoveryEntry)
    (entry : RecoveryEntry) (stop : SealStop) (dir : δ) : String → Option Bytes :=
  let files := (s.dirs dir).files
  let resealed := resealedAs blobDir dir done
  let opens := (resealed.map (onlyBy passphrase)).getD (files.opens X C T)
  if blobDir entry.purpose = dir then
    stop.opens (resealed.isSome || files.readable X) opens passphrase entry.key
  else opens

/-- The counter lets nothing through, at any time. -/
def LockedOut (d : BlobDir) : Prop := ∀ now, checkDosLimit X d.failCounter now ≠ .ok ()

/-- At the first entry that does not go through, every directory opens to what it did at the
    start: those sealed by then had that key under that passphrase, and one left short did
    not open. -/
def ImportSafe (runs : Nat → ImportRun) (s : TpmDir δ) (bundleBytes : Bytes)
    (passphrase : String) : Prop :=
  ∀ bundle done entry rest, readBundle X C bundleBytes passphrase = .ok bundle →
    bundle.purposes = done ++ entry :: rest →
    (∀ i d, done[i]? = some d → (runs i).stop X C passphrase d = .finished) →
    (runs done.length).stop X C passphrase entry ≠ .finished →
    ∀ purpose, LockedOut X (s.dirs (blobDir purpose)) ∨
      ∀ w, opensAfter X C T blobDir s passphrase done entry
          ((runs done.length).stop X C passphrase entry) (blobDir purpose) w =
        (s.dirs (blobDir purpose)).files.opens X C T w

variable {X C T blobDir}

/-- Two directories with one counter unseal alike when they open alike, or never at all. -/
theorem unseal_iff_opens {d d' : BlobDir} (hcounter : d'.failCounter = d.failCounter) :
    (∀ r w key, (unsealKey X C T r d' w).2 = .ok key ↔ (unsealKey X C T r d w).2 = .ok key) ↔
      LockedOut X d ∨ ∀ w, d'.files.opens X C T w = d.files.opens X C T w := by
  constructor
  · intro h
    by_cases hlocked : LockedOut X d
    · exact .inl hlocked
    · right
      intro w
      obtain ⟨now, hnow⟩ := not_forall.mp hlocked
      have hcheck := not_not.mp hnow
      apply Option.ext
      intro key
      have hkey := h ⟨now, now, .none⟩ w key
      rw [unsealKey_eq_ok, unsealKey_eq_ok, hcounter] at hkey
      dsimp only at hkey
      rwa [and_iff_right hcheck, and_iff_right hcheck] at hkey
  · rintro (hlocked | hopens) r w key
    · rw [unsealKey_eq_ok, unsealKey_eq_ok, hcounter]
      refine iff_of_false (fun hkey => ?_) fun hkey => ?_
      · exact hlocked _ hkey.1
      · exact hlocked _ hkey.1
    · rw [unsealKey_eq_ok, unsealKey_eq_ok, hcounter, hopens]

section Entries

variable {runs : Nat → ImportRun} {pcrs : Option String} {passphrase : String}

/-- No purpose is sealed by a TPM. -/
def TpmDir.BySoftware (X : External) (s : TpmDir δ) : Prop :=
  ∀ dir, (s.dirs dir).files.BySoftware X

/-- The state with the files of one directory sealed anew. -/
def TpmDir.setFiles (s : TpmDir δ) (dir : δ) (files : SealedFiles) : TpmDir δ :=
  s.setDir dir { s.dirs dir with files }

theorem setFiles_self (s : TpmDir δ) (dir : δ) : s.setFiles dir (s.dirs dir).files = s := by
  rw [TpmDir.setFiles, TpmDir.setDir, Function.update_eq_self]

theorem files_setFiles (s : TpmDir δ) (dir : δ) (files : SealedFiles) :
    ((s.setFiles dir files).dirs dir).files = files := by
  rw [TpmDir.setFiles, setDir_dirs_self]

theorem files_setFiles_of_ne (s : TpmDir δ) {dir dir' : δ} (h : dir' ≠ dir)
    (files : SealedFiles) : ((s.setFiles dir files).dirs dir').files = (s.dirs dir').files := by
  rw [TpmDir.setFiles, setDir_dirs_of_ne s h]

theorem failCounter_setFiles (s : TpmDir δ) (dir dir' : δ) (files : SealedFiles) :
    ((s.setFiles dir files).dirs dir').failCounter = (s.dirs dir').failCounter := by
  rw [TpmDir.setFiles]
  by_cases h : dir' = dir
  · rw [h, setDir_dirs_self]
  · rw [setDir_dirs_of_ne s h]

theorem TpmDir.BySoftware.setFiles (hsoft : s.BySoftware X) (dir : δ) {files : SealedFiles}
    (h : files.BySoftware X) : (s.setFiles dir files).BySoftware X := by
  intro dir'
  by_cases hdir : dir' = dir
  · rw [hdir, files_setFiles]
    exact h
  · rw [files_setFiles_of_ne s hdir]
    exact hsoft dir'

/-- **One entry.**  It is sealed and the loop goes on, or the loop ends where it stops. -/
theorem importEntries_cons (hI : C.Ideal) (hT : T.available = false) (hsoft : s.BySoftware X)
    (entry : RecoveryEntry) (rest : List RecoveryEntry) :
    ∃ files, LeftBy X C T ((runs 0).stop X C passphrase entry) passphrase entry.key
        (s.dirs (blobDir entry.purpose)).files files ∧
      ((runs 0).stop X C passphrase entry = .finished → ∃ record : RotationRecord,
        importEntries X C T blobDir pcrs passphrase runs s (entry :: rest) =
          let out := importEntries X C T blobDir pcrs passphrase (fun n => runs (n + 1))
            (s.setFiles (blobDir entry.purpose) files) rest
          (out.1, out.2.map fun records => record :: records)) ∧
      ((runs 0).stop X C passphrase entry ≠ .finished → ∃ e,
        importEntries X C T blobDir pcrs passphrase runs s (entry :: rest) =
          (s.setFiles (blobDir entry.purpose) files, .error e)) := by
  rw [importEntries, ImportRun.stop, RecoveryEntry.key]
  -- A key that is no hex is found before anything is written.
  cases hhex : Hex.decode entry.keyBytesHex.toList with
  | none =>
      refine ⟨(s.dirs (blobDir entry.purpose)).files, leftBy_unopened (hsoft _) _ _, ?_, ?_⟩
      · intro h
        cases h
      · intro _
        exact ⟨_, by rw [setFiles_self]⟩
  | some keyBytes =>
      -- The seal of this entry decides how the import goes on.
      obtain ⟨hleft, hends⟩ := sealKey_spec hI hT (hsoft (blobDir entry.purpose)) (runs 0).seal_
        keyBytes entry.purpose pcrs passphrase
      dsimp only
      generalize sealKey X C T (runs 0).seal_ keyBytes entry.purpose
        (s.dirs (blobDir entry.purpose)).files pcrs passphrase = sealed at hleft hends ⊢
      obtain ⟨files, res⟩ := sealed
      refine ⟨files, hleft, ?_, ?_⟩
      · intro hfinished
        rw [hfinished] at hends
        obtain rfl : res = .ok (softwareMeta entry.purpose (runs 0).seal_) := hends
        exact ⟨_, rfl⟩
      · intro hstop
        cases hcase : (runs 0).seal_.stop X C keyBytes entry.purpose passphrase with
        | finished => exact absurd hcase hstop
        | _ =>
            rw [hcase] at hends
            obtain ⟨e, rfl⟩ := hends
            exact ⟨_, rfl⟩

/-- What opens a directory in the end does not change when an entry is sealed on the way. -/
theorem opensAfter_cons {d : RecoveryEntry} {files : SealedFiles}
    (hleft : LeftBy X C T .finished passphrase d.key (s.dirs (blobDir d.purpose)).files files)
    (done : List RecoveryEntry) (entry : RecoveryEntry) (stop : SealStop) (dir : δ) :
    opensAfter X C T blobDir (s.setFiles (blobDir d.purpose) files) passphrase done entry stop dir =
      opensAfter X C T blobDir s passphrase (d :: done) entry stop dir := by
  rw [opensAfter, opensAfter, resealedAs]
  by_cases hdir : blobDir d.purpose = dir
  · have hopens : files.opens X C T = onlyBy passphrase d.key := funext hleft.opens
    have hread : files.readable X = true := hleft.readable
    rw [← hdir, files_setFiles, if_pos rfl, hopens, hread]
    cases resealedAs blobDir (blobDir d.purpose) done <;> rfl
  · rw [files_setFiles_of_ne s (Ne.symm hdir), if_neg hdir, Option.or_none]

/-- **Where an import stops.**  Up to the first entry that does not go through, all are
    sealed. -/
theorem importEntries_stops (hI : C.Ideal) (hT : T.available = false)
    {done : List RecoveryEntry} {entry : RecoveryEntry} (rest : List RecoveryEntry)
    (hsoft : s.BySoftware X)
    (hdone : ∀ i d, done[i]? = some d → (runs i).stop X C passphrase d = .finished)
    (hstop : (runs done.length).stop X C passphrase entry ≠ .finished) :
    ∃ s' e, importEntries X C T blobDir pcrs passphrase runs s (done ++ entry :: rest) =
        (s', .error e) ∧
      ∀ dir, (s'.dirs dir).failCounter = (s.dirs dir).failCounter ∧
        ∀ w, (s'.dirs dir).files.opens X C T w =
          opensAfter X C T blobDir s passphrase done entry
            ((runs done.length).stop X C passphrase entry) dir w := by
  -- On the entries before the stop; each leaves its directory sealed anew.
  induction done generalizing runs s with
  | nil =>
      obtain ⟨files, hleft, -, herror⟩ := @importEntries_cons X C T δ _ blobDir s runs pcrs
        passphrase hI hT hsoft entry rest
      obtain ⟨e, he⟩ := herror hstop
      refine ⟨_, e, he, fun dir => ⟨failCounter_setFiles .., fun w => ?_⟩⟩
      rw [opensAfter, resealedAs]
      -- Only the directory of the entry that stops is touched now.
      by_cases hdir : blobDir entry.purpose = dir
      · rw [← hdir, files_setFiles, if_pos rfl]
        exact hleft.opens w
      · rw [files_setFiles_of_ne s (Ne.symm hdir), if_neg hdir]
        rfl
  | cons d done ih =>
      obtain ⟨files, hleft, hsealed, -⟩ := @importEntries_cons X C T δ _ blobDir s runs pcrs
        passphrase hI hT hsoft d (done ++ entry :: rest)
      have hfinished := hdone 0 d rfl
      obtain ⟨record, hrecord⟩ := hsealed hfinished
      rw [hfinished] at hleft
      obtain ⟨s', e, hrun, hafter⟩ := @ih _ (fun n => runs (n + 1)) (hsoft.setFiles _ hleft.bySoftware)
        (fun i d' hd' => hdone (i + 1) d' hd') hstop
      refine ⟨s', e, ?_, fun dir => ?_⟩
      · rw [List.cons_append, hrecord, hrun]
        rfl
      · obtain ⟨hcounter, hopens⟩ := hafter dir
        refine ⟨hcounter.trans (failCounter_setFiles ..), fun w => ?_⟩
        -- What an entry before left is overwritten by a later one of the same directory.
        rw [hopens, opensAfter_cons hleft]
        rfl

theorem error_of_map {α β : Type} {f : α → β} {res : Except String α} {e : String}
    (h : res.map f = .error e) : res = .error e := by
  cases res with
  | error e' => exact congrArg Except.error (Except.error.inj h)
  | ok a => cases h

/-- An import that fails has a first entry that does not go through. -/
theorem exists_stop (hI : C.Ideal) (hT : T.available = false) {entries : List RecoveryEntry}
    (hsoft : s.BySoftware X) {e : String}
    (h : (importEntries X C T blobDir pcrs passphrase runs s entries).2 = .error e) :
    ∃ done entry rest, entries = done ++ entry :: rest ∧
      (∀ i d, done[i]? = some d → (runs i).stop X C passphrase d = .finished) ∧
      (runs done.length).stop X C passphrase entry ≠ .finished := by
  induction entries generalizing runs s with
  | nil => cases h
  | cons d entries ih =>
      obtain ⟨files, hleft, hsealed, -⟩ := @importEntries_cons X C T δ _ blobDir s runs pcrs
        passphrase hI hT hsoft d entries
      by_cases hfinished : (runs 0).stop X C passphrase d = .finished
      · obtain ⟨record, hrecord⟩ := hsealed hfinished
        have hrest : (importEntries X C T blobDir pcrs passphrase (fun n => runs (n + 1))
            (s.setFiles (blobDir d.purpose) files) entries).2 = .error e := by
          rw [hrecord] at h
          exact error_of_map h
        obtain ⟨done, entry, rest, rfl, hdone, hstop⟩ := ih (hsoft.setFiles _ hleft.bySoftware) hrest
        refine ⟨d :: done, entry, rest, rfl, fun i d' hd' => ?_, hstop⟩
        cases i with
        | zero => rwa [← Option.some.inj hd']
        | succ i => exact hdone i d' hd'
      · refine ⟨[], d, entries, rfl, fun i d' hd' => ?_, hfinished⟩
        rw [List.getElem?_nil] at hd'
        cases hd'

end Entries

/-- **Imports.**  An import keeps its promise exactly when it is safe. -/
theorem importKeeps_iff (hI : C.Ideal) (hT : T.available = false) (hsoft : s.BySoftware X)
    (runs : Nat → ImportRun) (bundleBytes : Bytes) (passphrase : String) (pcrs : Option String) :
    ImportKeeps X C T blobDir runs s bundleBytes passphrase pcrs ↔
      ImportSafe X C T blobDir runs s bundleBytes passphrase := by
  rw [ImportKeeps, importRecoveryBundle]
  -- A bundle that cannot be read leaves everything alone.
  cases hbundle : readBundle X C bundleBytes passphrase with
  | error e =>
      refine iff_of_true (fun _ _ _ _ => Iff.rfl) ?_
      intro bundle done entry rest hread
      rw [hbundle] at hread
      cases hread
  | ok bundle =>
      dsimp only
      -- A run that stops has a first entry that did not finish.
      constructor
      · intro hkeeps bundle' done entry rest hread hsplit hdone hstop
        obtain rfl := Except.ok.inj (hbundle.symm.trans hread)
        obtain ⟨s', e, hrun, hafter⟩ := @importEntries_stops X C T δ _ blobDir s runs pcrs
          passphrase hI hT done entry rest hsoft hdone hstop
        rw [hsplit, hrun] at hkeeps
        intro purpose
        obtain ⟨hcounter, hopens⟩ := hafter (blobDir purpose)
        rcases (unseal_iff_opens hcounter).mp (hkeeps purpose) with hlocked | hsame
        · exact .inl hlocked
        · right
          intro w
          rw [← hopens, hsame]
      · intro hsafe
        cases hrun : importEntries X C T blobDir pcrs passphrase runs s bundle.purposes with
        | mk s' res =>
            cases res with
            | ok => trivial
            -- It went wrong somewhere, and the entries up to there are all that was written.
            | error e =>
                obtain ⟨done, entry, rest, hsplit, hdone, hstop⟩ :=
                  exists_stop hI hT hsoft (congrArg Prod.snd hrun)
                obtain ⟨t, e', hrun', hafter⟩ := @importEntries_stops X C T δ _ blobDir s runs pcrs
                  passphrase hI hT done entry rest hsoft hdone hstop
                rw [← hsplit, hrun] at hrun'
                obtain rfl := congrArg Prod.fst hrun'
                intro purpose
                obtain ⟨hcounter, hopens⟩ := hafter (blobDir purpose)
                refine (unseal_iff_opens hcounter).mpr ?_
                rcases hsafe bundle done entry rest hbundle hsplit hdone hstop purpose with
                  hlocked | hsame
                · exact .inl hlocked
                · right
                  intro w
                  rw [hopens, hsame]

/-- **Rotations and imports.**  Each keeps its promise exactly when it is safe. -/
theorem reseal_keeps_iff (hI : C.Ideal) (hT : T.available = false) (hsoft : s.BySoftware X)
    (r : RotateRun) (purpose old new reason : String) (runs : Nat → ImportRun)
    (bundleBytes : Bytes) (passphrase : String) (pcrs : Option String) :
    (RotationKeeps X C T blobDir r s purpose old pcrs new reason ↔
        RotationSafe X C T blobDir r s purpose old new reason) ∧
      (ImportKeeps X C T blobDir runs s bundleBytes passphrase pcrs ↔
        ImportSafe X C T blobDir runs s bundleBytes passphrase) :=
  ⟨rotationKeeps_iff hI hT (hsoft _), importKeeps_iff hI hT hsoft runs bundleBytes passphrase pcrs⟩

end Import

/-! ## Two rotations and an import -/

/-- `hold-key` is sealed under `correct`. -/
def heldState : TpmDir String where
  dirs dir := if dir = "hold-key" then ⟨holdKeyFiles, none⟩ else .empty
  rotationLog := none

def heldRotation (log : Fault) : RotateRun where
  unseal_ := ⟨100, 100, .none⟩
  seal_ := ⟨zeroSalt, zeroNonce, "1970-01-01T00:00:00+00:00", .ok (), .none, .none, .none⟩
  rotatedAt := 0
  createLogDir := .ok ()
  log := log

theorem files_heldState : (heldState.dirs "hold-key").files = holdKeyFiles := by
  rw [heldState]
  dsimp only
  rw [if_pos rfl]

theorem bySoftware_heldState : heldState.BySoftware External.sample := by
  intro dir
  by_cases hdir : dir = "hold-key"
  · intro m hm
    rw [hdir, files_heldState, loadMeta_metaBytes rfl] at hm
    rw [← Except.ok.inj hm]
  · have hfiles : (heldState.dirs dir).files = BlobDir.empty.files := by
      rw [heldState]
      dsimp only
      rw [if_neg hdir]
    intro m hm
    rw [hfiles] at hm
    cases hm

/-- A bundle falls into its parts. -/
theorem decryptBundle_eq_decrypt {salt : ByteArr 16} {nonce : ByteArr 12} {ct : Bytes}
    (w : String) :
    decryptBundle C (BUNDLE_MAGIC ++ (BUNDLE_VERSION :: (salt.1 ++ (nonce.1 ++ ct)))) w =
      match C.decrypt (C.pbkdf2Key w salt) nonce ct with
      | .error _ => .error "bundle decrypt failed — wrong passphrase?"
      | .ok plaintext => .ok plaintext := by
  generalize hdata : BUNDLE_MAGIC ++ (BUNDLE_VERSION :: (salt.1 ++ (nonce.1 ++ ct))) = data
  have hlen : data.length = 33 + ct.length := by
    rw [← hdata]
    simp only [BUNDLE_MAGIC, List.length_append, List.length_cons, List.length_nil, salt.2, nonce.2]
    omega
  have hmagic : data.take 4 = BUNDLE_MAGIC := hdata ▸ List.take_left' rfl
  have hversion : data.getD 4 0 = BUNDLE_VERSION := hdata ▸ rfl
  have hsalt : (data.drop 5).take 16 = salt.1 := hdata ▸ List.take_left' salt.2
  have hafter : data.drop 21 = nonce.1 ++ ct := by
    rw [show 21 = 5 + 16 from rfl, ← List.drop_drop, ← hdata]
    exact List.drop_left' salt.2
  have hnonce : (data.drop 21).take 12 = nonce.1 := by rw [hafter, List.take_left' nonce.2]
  have hct : data.drop 33 = ct := by
    rw [show 33 = 21 + 12 from rfl, ← List.drop_drop, hafter, List.drop_left' nonce.2]
  rw [decryptBundle, hversion]
  rewrite [if_neg (by omega), if_neg (not_not_intro hmagic), if_neg (not_not_intro rfl), hsalt,
    hnonce, hct, ByteArr.ofBytes_val, ByteArr.ofBytes_val]
  rfl

/-- The key of `hold-key` again, and a key that is no hex. -/
def heldBundle : RecoveryBundle where
  version := BUNDLE_VERSION
  createdAt := 0
  purposes :=
    [⟨"hold-key", ⟨.software, "hold-key", "1970-01-01T00:00:00+00:00", none⟩, "6b"⟩,
      ⟨"audit-key", ⟨.software, "audit-key", "1970-01-01T00:00:00+00:00", none⟩, "6"⟩]

def heldBundleBytes : Bytes :=
  BUNDLE_MAGIC ++ (BUNDLE_VERSION :: (zeroSalt.1 ++ (zeroNonce.1 ++
    (sampleHeader ("correct", zeroSalt) zeroNonce ++
      frame (toVec ((RecoveryBundle.codec External.sample).enc External.sample.text heldBundle))))))

/-- A bundle that was written by this version reads as what was written. -/
theorem readBundle_of_decrypt {bytes json : Bytes} {w : String} {bundle : RecoveryBundle}
    (hjson : decryptBundle C bytes w = .ok json)
    (hdec : (ofSlice json).bind (RecoveryBundle.codec X).dec = some bundle)
    (hversion : bundle.version = BUNDLE_VERSION) : readBundle X C bytes w = .ok bundle := by
  rw [readBundle, hjson]
  dsimp only
  rw [hdec]
  exact if_neg (not_not_intro hversion)

theorem readBundle_heldBundleBytes :
    readBundle External.sample SealCrypto.sample heldBundleBytes "correct" = .ok heldBundle := by
  have hjson : decryptBundle SealCrypto.sample heldBundleBytes "correct" = .ok (toVec
      ((RecoveryBundle.codec External.sample).enc External.sample.text heldBundle)) := by
    rw [heldBundleBytes, decryptBundle_eq_decrypt,
      show SealCrypto.sample.pbkdf2Key "correct" zeroSalt = ("correct", zeroSalt) from rfl,
      show SealCrypto.sample.decrypt _ zeroNonce _ = _ from sampleDecrypt_iff.mpr rfl]
  refine readBundle_of_decrypt hjson ?_ rfl
  rw [ofSlice_toVec, Option.bind_some, Codec.dec_enc]

/-- The import stops at `audit-key`, and `hold-key` is sealed by then. -/
theorem stop_heldBundle {done rest : List RecoveryEntry} {entry : RecoveryEntry}
    (hsplit : heldBundle.purposes = done ++ entry :: rest)
    (hstop : (ImportRun.mk (heldRotation .none).seal_ 0).stop External.sample SealCrypto.sample
      "correct" entry ≠ .finished) :
    done = heldBundle.purposes.take 1 ∧
      (ImportRun.mk (heldRotation .none).seal_ 0).stop External.sample SealCrypto.sample "correct"
        entry = .unopened ∧ entry.purpose = "audit-key" := by
  match done, hsplit with
  | [], hsplit =>
      obtain ⟨rfl, -⟩ := List.cons.inj hsplit
      exact absurd rfl hstop
  | [d], hsplit =>
      obtain ⟨rfl, hrest⟩ := List.cons.inj hsplit
      obtain ⟨rfl, -⟩ := List.cons.inj hrest
      exact ⟨rfl, rfl, rfl⟩
  | d :: d' :: done, hsplit =>
      have hlen := congrArg List.length hsplit
      simp [heldBundle] at hlen

theorem opens_holdKeyFiles (w : String) :
    holdKeyFiles.opens External.sample SealCrypto.sample .none w = onlyBy "correct" [0x6b] w := by
  have hleft : LeftBy External.sample SealCrypto.sample .none .finished "correct" [0x6b]
      holdKeyFiles holdKeyFiles :=
    leftBy_finished SealCrypto.ideal_sample rfl rfl rfl rfl
  exact hleft.opens w

/-- A rotation that goes through, and an import that seals `hold-key` as it was and fails at
    the next purpose. -/
theorem reseal_keeps_held :
    RotationKeeps External.sample SealCrypto.sample .none id (heldRotation .none) heldState
        "hold-key" "correct" none "fresh" "yearly" ∧
      ImportKeeps External.sample SealCrypto.sample .none id
        (fun _ => ⟨(heldRotation .none).seal_, 0⟩) heldState heldBundleBytes "correct" none := by
  have hiff := @reseal_keeps_iff External.sample SealCrypto.sample Tpm2Tools.none String _ id
    heldState SealCrypto.ideal_sample rfl bySoftware_heldState (heldRotation .none) "hold-key"
    "correct" "fresh" "yearly" (fun _ => ⟨(heldRotation .none).seal_, 0⟩) heldBundleBytes
    "correct" none
  constructor
  -- The rotation finishes, log and all.
  · rw [hiff.1, RotationSafe]
    intro key _
    have hstop : (heldRotation .none).seal_.stop External.sample SealCrypto.sample key "hold-key"
        "fresh" = .finished := rfl
    rw [hstop]
    exact .inl ⟨rfl, fun _ _ => trivial⟩
  · rw [hiff.2]
    intro bundle done entry rest hread hsplit hdone hstop purpose
    -- The second entry stops before it opens its blob; the first is sealed with the same key.
    obtain rfl := Except.ok.inj (readBundle_heldBundleBytes.symm.trans hread)
    right
    intro w
    obtain ⟨rfl, hunopened, hentry⟩ := stop_heldBundle hsplit hstop
    rw [hunopened, opensAfter, hentry]
    by_cases hpurpose : purpose = "hold-key"
    · obtain rfl := hpurpose
      have hresealed : resealedAs id (id "hold-key") (heldBundle.purposes.take 1) = some [0x6b] :=
        by decide
      rw [if_neg (by decide), hresealed, id_eq, files_heldState, opens_holdKeyFiles]
      rfl
    · have hresealed : resealedAs id (id purpose) (heldBundle.purposes.take 1) = none :=
        if_neg (Ne.symm hpurpose)
      rw [hresealed]
      dsimp only [Option.map_none, Option.getD_none, SealStop.opens]
      rw [ite_self]

/-- The disk is full when the line of the log is written. -/
def fullDisk : RotateRun := heldRotation (.opening "No space left on device (os error 28)")

/-- The rotation that fails then. -/
def rotateHeld : TpmDir String × Except String RotationRecord :=
  rotateInPlace External.sample SealCrypto.sample .none id fullDisk heldState "hold-key" "correct"
    none "fresh" "yearly"

theorem rotateHeld_error : rotateHeld.2 = .error "No space left on device (os error 28)" := by
  decide +kernel

theorem rotateHeld_opens :
    (rotateHeld.1.dirs (id "hold-key")).files.opens External.sample SealCrypto.sample .none
      "correct" = none := by
  decide +kernel

/-- The log line cannot be written: the rotation fails, and the old passphrase is gone. -/
theorem not_rotationKeeps_logFails :
    ¬ RotationKeeps External.sample SealCrypto.sample .none id fullDisk heldState "hold-key"
      "correct" none "fresh" "yearly" := by
  intro hkeeps
  rw [RotationKeeps, ← rotateHeld] at hkeeps
  have hcheck : checkDosLimit External.sample (heldState.dirs (id "hold-key")).failCounter
      fullDisk.unseal_.checkedAt = .ok () := by
    decide +kernel
  have hopens : (heldState.dirs (id "hold-key")).files.opens External.sample SealCrypto.sample .none
      "correct" = some [0x6b] := by
    decide +kernel
  have hbefore : Unseals External.sample SealCrypto.sample .none (heldState.dirs (id "hold-key"))
      fullDisk.unseal_.checkedAt "correct" [0x6b] := by
    rw [unseals_iff]
    exact ⟨hcheck, hopens⟩
  have herror := rotateHeld_error
  have hnone := rotateHeld_opens
  generalize rotateHeld = out at hkeeps herror hnone
  obtain ⟨s', res⟩ := out
  obtain rfl : res = _ := herror
  have hafter := hkeeps [0x6b] hbefore
  rw [(unseals_iff.mp hafter).2] at hnone
  cases hnone

end Maranode.Attestation
