/-
  Maranode.Api.Recovery

  The four records the daemon keeps in files of their own, and what it makes of them
  when it starts again: `ClassificationPolicy::load` with the default `main` takes on an
  error, `list_holds`, `load_incident_on_start` and `load_submission`.

  Their writers, `ClassificationPolicy::save`, `save_hold`, `persist_incident` and
  `save_submission`, overwrite the file in place.
-/
import Maranode.Api.Classification
import Maranode.Api.HoldStore
import Maranode.Api.Incident
import Maranode.Api.Registry

namespace Maranode.Api

open Lib Lib.Json Common

/-! ## Records as JSON -/

section Codecs

variable (X : External)

/-- A record whose sequence numbers are `u64`s. -/
def HoldRecord.Fits (r : HoldRecord) : Prop := r.seqFrom < 2 ^ 64 ∧ r.seqTo < 2 ^ 64

abbrev StoredHold := { r : HoldRecord // r.Fits }

/-- The record with the sequence numbers it was read with. -/
def StoredHold.of (id : String) (placedAt : DateTime) (placedBy reason : String)
    (seqFrom seqTo : UInt64) (expiresAt : Option DateTime)
    (holdKeyPubkey placementSig : String) (releasedAt : Option DateTime)
    (releasedBy releaseSig : Option String) (tpmSealed : Bool) : StoredHold where
  val :=
    { id, placedAt, placedBy, reason, seqFrom := seqFrom.toNat, seqTo := seqTo.toNat
      expiresAt, holdKeyPubkey, placementSig, releasedAt, releasedBy, releaseSig, tpmSealed }
  property := ⟨seqFrom.toNat_lt, seqTo.toNat_lt⟩

theorem StoredHold.of_val (r : StoredHold) :
    of r.1.id r.1.placedAt r.1.placedBy r.1.reason (.ofNat r.1.seqFrom) (.ofNat r.1.seqTo)
      r.1.expiresAt r.1.holdKeyPubkey r.1.placementSig r.1.releasedAt r.1.releasedBy
      r.1.releaseSig r.1.tpmSealed = r := by
  obtain ⟨r, hfrom, hto⟩ := r
  apply Subtype.ext
  show { r with seqFrom := (UInt64.ofNat r.seqFrom).toNat
                seqTo := (UInt64.ofNat r.seqTo).toNat } = r
  rw [UInt64.toNat_ofNat_of_lt' hfrom, UInt64.toNat_ofNat_of_lt' hto]

def HoldRecord.names : List String :=
  ["id", "placed_at", "placed_by", "reason", "seq_from", "seq_to", "expires_at",
    "hold_key_pubkey", "placement_sig", "released_at", "released_by", "release_sig",
    "tpm_sealed"]

def HoldRecord.codec : Codec X.readF32 StoredHold where
  enc S r := .obj (S.members [
    ("id", X.str.enc S r.1.id),
    ("placed_at", X.dateTime.enc S r.1.placedAt),
    ("placed_by", X.str.enc S r.1.placedBy),
    ("reason", X.str.enc S r.1.reason),
    ("seq_from", X.u64.enc S (.ofNat r.1.seqFrom)),
    ("seq_to", X.u64.enc S (.ofNat r.1.seqTo)),
    ("expires_at", X.dateTime.encOpt S r.1.expiresAt),
    ("hold_key_pubkey", X.str.enc S r.1.holdKeyPubkey),
    ("placement_sig", X.str.enc S r.1.placementSig),
    ("released_at", X.dateTime.encOpt S r.1.releasedAt),
    ("released_by", X.str.encOpt S r.1.releasedBy),
    ("release_sig", X.str.encOpt S r.1.releaseSig),
    ("tpm_sealed", X.bool.enc S r.1.tpmSealed)])
  dec v := (structMembers names 13 v).bind fun fs =>
    StoredHold.of <$> X.str.field "id" fs
      <*> X.dateTime.field "placed_at" fs
      <*> X.str.field "placed_by" fs
      <*> X.str.field "reason" fs
      <*> X.u64.field "seq_from" fs
      <*> X.u64.field "seq_to" fs
      <*> X.dateTime.fieldOpt "expires_at" fs
      <*> X.str.field "hold_key_pubkey" fs
      <*> X.str.field "placement_sig" fs
      <*> X.dateTime.fieldOpt "released_at" fs
      <*> X.str.fieldOpt "released_by" fs
      <*> X.str.fieldOpt "release_sig" fs
      <*> X.bool.field "tpm_sealed" fs
  dec_enc S r := by
    simp [structMembers, Codec.field, Codec.fieldOpt, S.occ_members, StoredHold.of_val]
  ne_null _ _ := nofun

def IncidentPhase.rename : IncidentPhase → String
  | .declared => "declared"
  | .investigating => "investigating"
  | .resolved => "resolved"

def IncidentPhase.ofName : String → Option IncidentPhase
  | "declared" => some .declared
  | "investigating" => some .investigating
  | "resolved" => some .resolved
  | _ => none

theorem IncidentPhase.ofName_rename (p : IncidentPhase) : ofName p.rename = some p := by
  cases p <;> rfl

def IncidentPhase.codec : Codec X.readF32 IncidentPhase :=
  unitEnum X rename ofName ofName_rename

def PhaseEntry.codec : Codec X.readF32 PhaseEntry where
  enc S e := .obj (S.members [
    ("phase", (IncidentPhase.codec X).enc S e.phase),
    ("at", X.dateTime.enc S e.at_),
    ("by", X.str.enc S e.by_),
    ("note", X.str.encOpt S e.note)])
  dec v := (structMembers ["phase", "at", "by", "note"] 4 v).bind fun fs =>
    PhaseEntry.mk <$> (IncidentPhase.codec X).field "phase" fs
      <*> X.dateTime.field "at" fs
      <*> X.str.field "by" fs
      <*> X.str.fieldOpt "note" fs
  dec_enc S e := by
    simp [structMembers, Codec.field, Codec.fieldOpt, S.occ_members]
  ne_null _ _ := nofun

def IncidentState.names : List String :=
  ["id", "declared_at", "declared_by", "reason", "phase", "audit_frozen", "resolved_at",
    "resolution_summary", "phase_log", "webhook_urls"]

def IncidentState.codec : Codec X.readF32 IncidentState where
  enc S i := .obj (S.members [
    ("id", X.str.enc S i.id),
    ("declared_at", X.dateTime.enc S i.declaredAt),
    ("declared_by", X.str.enc S i.declaredBy),
    ("reason", X.str.enc S i.reason),
    ("phase", (IncidentPhase.codec X).enc S i.phase),
    ("audit_frozen", X.bool.enc S i.auditFrozen),
    ("resolved_at", X.dateTime.encOpt S i.resolvedAt),
    ("resolution_summary", X.str.encOpt S i.resolutionSummary),
    ("phase_log", (Codec.list (PhaseEntry.codec X)).enc S i.phaseLog),
    ("webhook_urls", (Codec.list X.str).enc S i.webhookUrls)])
  dec v := (structMembers names 10 v).bind fun fs =>
    IncidentState.mk <$> X.str.field "id" fs
      <*> X.dateTime.field "declared_at" fs
      <*> X.str.field "declared_by" fs
      <*> X.str.field "reason" fs
      <*> (IncidentPhase.codec X).field "phase" fs
      <*> X.bool.field "audit_frozen" fs
      <*> X.dateTime.fieldOpt "resolved_at" fs
      <*> X.str.fieldOpt "resolution_summary" fs
      <*> (Codec.list (PhaseEntry.codec X)).field "phase_log" fs
      <*> (Codec.list X.str).field "webhook_urls" fs
  dec_enc S i := by
    simp [structMembers, Codec.field, Codec.fieldOpt, S.occ_members]
  ne_null _ _ := nofun

/-- `rename_all = "lowercase"`. -/
def SubmissionStatus.rename : SubmissionStatus → String
  | .pending => "pending"
  | .approved => "approved"
  | .revoked => "revoked"

def SubmissionStatus.ofName : String → Option SubmissionStatus
  | "pending" => some .pending
  | "approved" => some .approved
  | "revoked" => some .revoked
  | _ => none

theorem SubmissionStatus.ofName_rename (s : SubmissionStatus) : ofName s.rename = some s := by
  cases s <;> rfl

def SubmissionStatus.codec : Codec X.readF32 SubmissionStatus :=
  unitEnum X rename ofName ofName_rename

def SubmissionRecord.names : List String :=
  ["submission_id", "model_id", "model_sha256", "submitted_by", "submitted_at", "note",
    "status", "cm_ticket_id", "cm_system"]

/-- The two members of a ticket are left out while there is none. -/
def SubmissionRecord.members (S : Serializer X.readF32) (r : SubmissionRecord) :
    List (String × Value) :=
  [("submission_id", X.str.enc S r.submissionId),
    ("model_id", X.str.enc S r.modelId),
    ("model_sha256", X.str.enc S r.modelSha256),
    ("submitted_by", X.str.enc S r.submittedBy),
    ("submitted_at", X.dateTime.enc S r.submittedAt),
    ("note", X.str.encOpt S r.note),
    ("status", (SubmissionStatus.codec X).enc S r.status)] ++
  optMember "cm_ticket_id" (r.cmTicketId.map (X.str.enc S)) ++
  optMember "cm_system" (r.cmSystem.map (X.str.enc S))

theorem SubmissionRecord.nodup_members (S : Serializer X.readF32) (r : SubmissionRecord) :
    ((members X S r).map Prod.fst).Nodup := by
  refine List.Nodup.sublist ?_ (show names.Nodup by decide)
  simp only [members, List.map_append]
  exact ((List.Sublist.refl _).append (InferenceReceipt.optMember_fst_sublist ..)).append
    (InferenceReceipt.optMember_fst_sublist ..)

def SubmissionRecord.codec : Codec X.readF32 SubmissionRecord where
  enc S r := .obj (S.members (members X S r))
  dec v := (structMembers names 9 v).bind fun fs =>
    SubmissionRecord.mk <$> X.str.field "submission_id" fs
      <*> X.str.field "model_id" fs
      <*> X.str.field "model_sha256" fs
      <*> X.str.field "submitted_by" fs
      <*> X.dateTime.field "submitted_at" fs
      <*> X.str.fieldOpt "note" fs
      <*> (SubmissionStatus.codec X).field "status" fs
      <*> X.str.fieldOpt "cm_ticket_id" fs
      <*> X.str.fieldOpt "cm_system" fs
  dec_enc S r := by
    simp only [structMembers, Option.bind_some, Codec.field, Codec.fieldOpt,
      S.occ_members _ _ (nodup_members X S r)]
    simp [members]
  ne_null _ _ := nofun

end Codecs

/-! ## Files -/

section Files

variable (X : External)

theorem ClassificationPolicy.enc_eq_obj (p : ClassificationPolicy) :
    ∃ fs, (ClassificationPolicy.codec X).enc X.text p = .obj fs := ⟨_, rfl⟩

theorem HoldRecord.enc_eq_obj (r : StoredHold) :
    ∃ fs, (HoldRecord.codec X).enc X.text r = .obj fs := ⟨_, rfl⟩

theorem IncidentState.enc_eq_obj (i : IncidentState) :
    ∃ fs, (IncidentState.codec X).enc X.text i = .obj fs := ⟨_, rfl⟩

theorem SubmissionRecord.enc_eq_obj (r : SubmissionRecord) :
    ∃ fs, (SubmissionRecord.codec X).enc X.text r = .obj fs := ⟨_, rfl⟩

/-- `classification/policy.json`. -/
def policyFile : RecordFile ClassificationPolicy :=
  (ClassificationPolicy.codec X).recordFile X.text (ClassificationPolicy.enc_eq_obj X)

/-- `legal-holds/<id>.json`. -/
def holdFile : RecordFile StoredHold :=
  (HoldRecord.codec X).recordFile X.text (HoldRecord.enc_eq_obj X)

/-- `incident-state.json`. -/
def incidentFile : RecordFile IncidentState :=
  (IncidentState.codec X).recordFile X.text (IncidentState.enc_eq_obj X)

/-- `registry/pending/<sha256>.json`. -/
def submissionFile : RecordFile SubmissionRecord :=
  (SubmissionRecord.codec X).recordFile X.text (SubmissionRecord.enc_eq_obj X)

/-- `ClassificationPolicy::load(..).unwrap_or_default()`. -/
def loadPolicy (file : Option Bytes) : ClassificationPolicy :=
  ((policyFile X).load file).getD .empty

/-- `load_incident_on_start`. -/
def loadIncidentOnStart (file : Option Bytes) : Option IncidentState := (incidentFile X).load file

/-- `load_submission`; whatever the error, the callers say that there is none. -/
def loadSubmission (file : Option Bytes) : Option SubmissionRecord := (submissionFile X).load file

/-- The hold files by id, in the order the directory is read. -/
abbrev HoldFiles := AList fun _ : String => Bytes

/-- The records of the files that parse. -/
def HoldFiles.records (files : HoldFiles) : List HoldRecord :=
  files.entries.filterMap fun f => ((holdFile X).read f.2).map Subtype.val

/-- `list_holds`. -/
def HoldFiles.list (files : HoldFiles) : List HoldRecord := listHolds (files.records X)

/-- `save_hold`, up to the crash. -/
def HoldFiles.save (files : HoldFiles) (record : StoredHold) (c : CrashPoint) : HoldFiles :=
  match c with
  | .notOpened => files
  | .after written => files.insert record.1.id (((holdFile X).write record).take written)

/-- `save_hold` to its end. -/
def HoldFiles.saved (files : HoldFiles) (record : StoredHold) : HoldFiles :=
  files.insert record.1.id ((holdFile X).write record)

end Files

/-! ## Writes that fail -/

section Writes

variable {X : External} {file : Option Bytes} (fault : FileWrite.Fault)

/-- What the model of a save leaves is what is read of the file, wherever `fs::write` fails. -/
theorem load_savedPolicy {s : ClassificationSys} (h : (policyFile X).load file = s.written)
    (policy : ClassificationPolicy) :
    (policyFile X).load (FileWrite.write fault file ((policyFile X).write policy)).1 =
      (s.save policy (.ofFault fault ((policyFile X).write policy))).written := by
  rw [RecordWrite.load_write, h, ClassificationSys.save]

theorem load_savedSubmission {f : RegistryFiles} (rec : SubmissionRecord)
    (h : loadSubmission X file = f.submission rec.modelSha256) :
    loadSubmission X (FileWrite.write fault file ((submissionFile X).write rec)).1 =
      (f.saveSubmission rec (.ofFault fault ((submissionFile X).write rec))).submission
        rec.modelSha256 := by
  rw [loadSubmission] at h ⊢
  rw [RecordWrite.load_write, h, RegistryFiles.saveSubmission]
  dsimp only
  rw [Function.update_self]

theorem load_savedHold {d : HoldDir} (record : StoredHold)
    (h : ((holdFile X).load file).map Subtype.val = d.lookup record.1.id) :
    ((holdFile X).load (FileWrite.write fault file ((holdFile X).write record)).1).map
        Subtype.val =
      (saveHold d record.1 (.ofFault fault ((holdFile X).write record))).lookup record.1.id := by
  rw [RecordWrite.load_write, RecordWrite.map_result, h, lookup_saveHold, Function.update_self]

end Writes

/-! ## Records of a directory -/

section Directory

variable {β : Type} {read : Bytes → Option β} {id : String}

/-- Without a file that does not parse, the records are the same. -/
theorem filterMap_kerase_of_none {l : List (Σ _ : String, Bytes)}
    (h : (l.dlookup id).bind read = none) :
    (l.kerase id).filterMap (fun f => read f.2) = l.filterMap fun f => read f.2 := by
  induction l with
  | nil => rfl
  | cons f l ih =>
      obtain ⟨k, bytes⟩ := f
      by_cases hk : id = k
      · subst hk
        rw [List.dlookup_cons_eq, Option.bind_some] at h
        have hkerase : List.kerase id (⟨id, bytes⟩ :: l) = l := List.kerase_cons_eq rfl
        simp only [hkerase, List.filterMap_cons, h]
      · rw [List.dlookup_cons_ne _ _ hk] at h
        rw [List.kerase_cons_ne hk, List.filterMap_cons, List.filterMap_cons, ih h]

/-- Without a file that parses, there is one record less. -/
theorem length_filterMap_kerase_of_some {l : List (Σ _ : String, Bytes)} {b : β}
    (h : (l.dlookup id).bind read = some b) :
    (l.filterMap fun f => read f.2).length
      = ((l.kerase id).filterMap fun f => read f.2).length + 1 := by
  induction l with
  | nil => exact nomatch h
  | cons f l ih =>
      obtain ⟨k, bytes⟩ := f
      by_cases hk : id = k
      · subst hk
        rw [List.dlookup_cons_eq, Option.bind_some] at h
        have hkerase : List.kerase id (⟨id, bytes⟩ :: l) = l := List.kerase_cons_eq rfl
        simp only [hkerase, List.filterMap_cons, h, List.length_cons]
      · rw [List.dlookup_cons_ne _ _ hk] at h
        rw [List.kerase_cons_ne hk, List.filterMap_cons, List.filterMap_cons]
        cases read bytes with
        | none => exact ih h
        | some b' =>
            show (List.filterMap _ l).length + 1 = (List.filterMap _ (l.kerase id)).length + 1 + 1
            rw [ih h]

end Directory

/-! ## After a crash -/

variable (X : External)

/-- **The policy.** -/
theorem loadPolicy_overwrite_iff (file : Option Bytes) (new : ClassificationPolicy)
    (c : CrashPoint) :
    ((loadPolicy X (c.overwrite file ((policyFile X).write new))).Same (loadPolicy X file) ∨
        (loadPolicy X (c.overwrite file ((policyFile X).write new))).Same new) ↔
      c.Clean ((policyFile X).write new) ∨ (loadPolicy X file).Same .empty ∨ new.Same .empty := by
  by_cases h : c.Clean ((policyFile X).write new)
  · refine iff_of_true ?_ (.inl h)
    apply ((policyFile X).load_overwrite_of_clean h file).imp
    · intro hload
      exact .of_eq (by rw [loadPolicy, hload, loadPolicy])
    · intro hload
      exact .of_eq (by rw [loadPolicy, hload, Option.getD_some])
  · have hload : loadPolicy X (c.overwrite file ((policyFile X).write new)) = .empty := by
      rw [loadPolicy, (policyFile X).load_overwrite_of_not_clean h file, Option.getD_none]
    rw [hload]
    constructor
    · rintro (hold | hnew)
      · exact .inr (.inl hold.symm)
      · exact .inr (.inr hnew.symm)
    · rintro (hclean | hold | hnew)
      · exact absurd hclean h
      · exact .inl hold.symm
      · exact .inr hnew.symm

/-- The records once the file of one is gone. -/
theorem HoldFiles.records_insert (files : HoldFiles) (id : String) (bytes : Bytes) :
    HoldFiles.records X (files.insert id bytes)
      = (((holdFile X).read bytes).map Subtype.val).toList ++
          HoldFiles.records X (files.erase id) := by
  show List.filterMap _ (List.kinsert id bytes files.entries) = _
  rw [List.kinsert_def, List.filterMap_cons]
  cases (holdFile X).read bytes <;> rfl

theorem HoldFiles.bind_map_eq (files : HoldFiles) (id : String) :
    ((files.lookup id).bind fun bytes => ((holdFile X).read bytes).map Subtype.val)
      = ((holdFile X).load (files.lookup id)).map Subtype.val := by
  cases files.lookup id <;> rfl

/-- **Holds.** -/
theorem HoldFiles.list_save_iff (files : HoldFiles) (record : StoredHold) (c : CrashPoint) :
    ((files.save X record c).list X = files.list X ∨
        (files.save X record c).list X = (files.saved X record).list X) ↔
      c.Clean ((holdFile X).write record) ∨
        (holdFile X).load (files.lookup record.1.id) = none := by
  -- A front of the record is not read, so the list loses the hold that was there.
  cases c with
  | notOpened => exact iff_of_true (.inl rfl) (.inl trivial)
  | after written =>
      by_cases h : ((holdFile X).write record).length ≤ written
      · refine iff_of_true (.inr ?_) (.inl h)
        rw [save, List.take_of_length_le h, saved]
      · have hread : (holdFile X).read (((holdFile X).write record).take written) = none :=
          (holdFile X).read_take record written (Nat.lt_of_not_le h)
        have hcut : (files.save X record (.after written)).records X
            = HoldFiles.records X (files.erase record.1.id) := by
          rw [save, records_insert, hread]
          rfl
        have hnew : ((files.saved X record).records X).length
            = (HoldFiles.records X (files.erase record.1.id)).length + 1 := by
          rw [saved, records_insert, (holdFile X).read_write]
          rfl
        have hlookup := files.bind_map_eq X record.1.id
        cases hload : (holdFile X).load (files.lookup record.1.id) with
        -- Nothing was read of it before: a list without it is the list of before.
        | none =>
            rw [hload] at hlookup
            refine iff_of_true (.inl ?_) (.inr rfl)
            rw [list, list, hcut]
            exact congrArg listHolds (filterMap_kerase_of_none hlookup)
        | some old =>
            rw [hload] at hlookup
            -- The list is one record shorter than either.
            have hold : (files.records X).length
                = (HoldFiles.records X (files.erase record.1.id)).length + 1 :=
              length_filterMap_kerase_of_some hlookup
            refine iff_of_false ?_ (not_or.mpr ⟨h, Option.some_ne_none old⟩)
            rintro (heq | heq)
            · have hlen := congrArg List.length heq
              rw [list, list, hcut, listHolds, listHolds, List.length_mergeSort,
                List.length_mergeSort] at hlen
              omega
            · have hlen := congrArg List.length heq
              rw [list, list, hcut, listHolds, listHolds, List.length_mergeSort,
                List.length_mergeSort] at hlen
              omega

/-- **Restart after a crash.**  What the daemon uses after a crash in one of the four
    writers is what it used before or what was being written, exactly when the write was
    not cut off, or there was no record before: no policy but the default, no hold, no
    incident, no submission. -/
theorem restart_iff :
    (∀ file new (c : CrashPoint),
      ((loadPolicy X (c.overwrite file ((policyFile X).write new))).Same (loadPolicy X file) ∨
          (loadPolicy X (c.overwrite file ((policyFile X).write new))).Same new) ↔
        c.Clean ((policyFile X).write new) ∨ (loadPolicy X file).Same .empty ∨
          new.Same .empty) ∧
    (∀ (files : HoldFiles) record (c : CrashPoint),
      ((files.save X record c).list X = files.list X ∨
          (files.save X record c).list X = (files.saved X record).list X) ↔
        c.Clean ((holdFile X).write record) ∨
          (holdFile X).load (files.lookup record.1.id) = none) ∧
    (∀ file new (c : CrashPoint),
      (loadIncidentOnStart X (c.overwrite file ((incidentFile X).write new))
            = loadIncidentOnStart X file ∨
          loadIncidentOnStart X (c.overwrite file ((incidentFile X).write new)) = some new) ↔
        c.Clean ((incidentFile X).write new) ∨ loadIncidentOnStart X file = none) ∧
    ∀ file new (c : CrashPoint),
      (loadSubmission X (c.overwrite file ((submissionFile X).write new))
            = loadSubmission X file ∨
          loadSubmission X (c.overwrite file ((submissionFile X).write new)) = some new) ↔
        c.Clean ((submissionFile X).write new) ∨ loadSubmission X file = none :=
  ⟨loadPolicy_overwrite_iff X, HoldFiles.list_save_iff X,
    fun file new c => (incidentFile X).load_overwrite_iff c file new,
    fun file new c => (submissionFile X).load_overwrite_iff c file new⟩

/-- A policy that protects the patients' collection, and one that adds the laboratory's. -/
def patientsPolicy : ClassificationPolicy :=
  ClassificationPolicy.empty.setCollectionLabel "patients" .phi true

def labsPolicy : ClassificationPolicy := patientsPolicy.setCollectionLabel "labs" .phi true

/-- A crash when the file has been emptied: the daemon starts without a policy, and the
    patients' collection has no label. -/
theorem patients_unlabelled :
    let file := some ((policyFile .sample).write patientsPolicy)
    let torn := CrashPoint.overwrite (.after 0) file ((policyFile .sample).write labsPolicy)
    (loadPolicy .sample file).collections.lookup "patients" = some ⟨.phi, true⟩ ∧
      (loadPolicy .sample torn).collections.lookup "patients" = none ∧
      ¬ ((loadPolicy .sample torn).Same (loadPolicy .sample file) ∨
        (loadPolicy .sample torn).Same labsPolicy) := by
  intro file torn
  have hfile : loadPolicy .sample file = patientsPolicy := by
    show ((policyFile .sample).read _).getD .empty = _
    rw [(policyFile .sample).read_write, Option.getD_some]
  have htorn : loadPolicy .sample torn = .empty := rfl
  rw [hfile, htorn]
  refine ⟨rfl, rfl, ?_⟩
  rintro (hold | hnew)
  · exact nomatch hold.collections "patients"
  · exact nomatch hnew.collections "patients"

end Maranode.Api
