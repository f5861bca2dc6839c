/-
  Maranode.Common.Events

  `events.rs`: the audit event and the audit entry with their serde
  representations.

  An event is an internally tagged enum (`tag = "event"`) and an entry flattens
  it into its own object, so the fields of every variant share one namespace with
  `ts`, `seq`, `actor`, `prev_hmac` and `hmac`.  The reader of the entry takes
  those five names for itself, refuses to see one of them twice, and hands the
  rest to the variant the tag names.

  `AuditEntry.ofValue_toValue` is the resulting law: the entry comes back unless
  its event is `workspace_shredded`, the one variant with a field of an envelope
  name.
-/
import Maranode.Common.Receipt

namespace Maranode.Common

open Lib Lib.Json

/-! ## Payload types -/

inductive IsolationMode where
  | airGap
  | whitelist
  | disabled
  deriving DecidableEq

def IsolationMode.rename : IsolationMode → String
  | .airGap => "airgap"
  | .whitelist => "whitelist"
  | .disabled => "disabled"

def IsolationMode.ofName : String → Option IsolationMode
  | "airgap" => some .airGap
  | "whitelist" => some .whitelist
  | "disabled" => some .disabled
  | _ => none

inductive ImportSource where
  | remote (url : String)
  | local (path : String)
  deriving DecidableEq

structure ProbeResult where
  host : String
  port : UInt16
  reachable : Bool
  deriving DecidableEq

section Codecs

variable (X : External)

def IsolationMode.codec : Codec X.readF32 IsolationMode :=
  unitEnum X IsolationMode.rename IsolationMode.ofName (by intro a; cases a <;> rfl)

def ImportSource.codec : Codec X.readF32 ImportSource where
  enc S
    | .remote url => .obj [("remote", .obj (S.members [("url", X.str.enc S url)]))]
    | .local path => .obj [("local", .obj (S.members [("path", X.str.enc S path)]))]
  dec v := (variantOf v).bind fun
    | ("remote", w) =>
        (structMembers ["url"] 1 w).bind fun fs => .remote <$> X.str.field "url" fs
    | ("local", w) =>
        (structMembers ["path"] 1 w).bind fun fs => .local <$> X.str.field "path" fs
    | _ => none
  dec_enc S s := by
    cases s <;> simp [variantOf, structMembers, Codec.field, S.occ_members]
  ne_null _ s := by cases s <;> nofun

def ProbeResult.codec : Codec X.readF32 ProbeResult where
  enc S p := .obj (S.members [
    ("host", X.str.enc S p.host),
    ("port", X.u16.enc S p.port),
    ("reachable", X.bool.enc S p.reachable)])
  dec v := (structMembers ["host", "port", "reachable"] 3 v).bind fun fs =>
    ProbeResult.mk <$> X.str.field "host" fs <*> X.u16.field "port" fs
      <*> X.bool.field "reachable" fs
  dec_enc S p := by
    simp [structMembers, Codec.field, S.occ_members]
  ne_null _ _ := nofun

end Codecs

/-! ## AuditEvent -/

/-- The variants of `AuditEvent`, in declaration order. -/
inductive EventKind where
  | daemonStart
  | daemonStop
  | isolationApplied
  | modelImported
  | modelRemoved
  | inferenceStart
  | inferenceComplete
  | inferenceFailed
  | inferenceReceipt
  | ragDocumentIngested
  | ragRetrieval
  | isolationProbe
  | workspaceShredded
  | configReloaded
  | auditVerified
  | binaryAttested
  | modelBaselineChecked
  | modelDriftDetected
  | modelApprovalGranted
  | modelApprovalRevoked
  | modelLoadBlocked
  | dataClassificationViolation
  | dataLabelAssigned
  | dlpSyncCompleted
  | tpmKeySealed
  | tpmUnsealFailed
  | tpmKeyRotated
  | incidentDeclared
  | auditFrozen
  | auditUnfrozen
  | forensicSnapshot
  | breakGlassUsed
  | incidentPhaseChanged
  | incidentResolved
  | legalHoldPlaced
  | legalHoldReleased
  | legalHoldKeyGenerated
  | teeAttested
  deriving DecidableEq, Repr

namespace EventKind

def all : List EventKind :=
  [.daemonStart, .daemonStop, .isolationApplied, .modelImported, .modelRemoved, .inferenceStart,
    .inferenceComplete, .inferenceFailed, .inferenceReceipt, .ragDocumentIngested,
    .ragRetrieval, .isolationProbe, .workspaceShredded, .configReloaded, .auditVerified,
    .binaryAttested, .modelBaselineChecked, .modelDriftDetected, .modelApprovalGranted,
    .modelApprovalRevoked, .modelLoadBlocked, .dataClassificationViolation, .dataLabelAssigned,
    .dlpSyncCompleted, .tpmKeySealed, .tpmUnsealFailed, .tpmKeyRotated, .incidentDeclared,
    .auditFrozen, .auditUnfrozen, .forensicSnapshot, .breakGlassUsed, .incidentPhaseChanged,
    .incidentResolved, .legalHoldPlaced, .legalHoldReleased, .legalHoldKeyGenerated,
    .teeAttested]

/-- The tag of a variant (`rename_all = "snake_case"`). -/
def tag : EventKind → String
  | .daemonStart => "daemon_start"
  | .daemonStop => "daemon_stop"
  | .isolationApplied => "isolation_applied"
  | .modelImported => "model_imported"
  | .modelRemoved => "model_removed"
  | .inferenceStart => "inference_start"
  | .inferenceComplete => "inference_complete"
  | .inferenceFailed => "inference_failed"
  | .inferenceReceipt => "inference_receipt"
  | .ragDocumentIngested => "rag_document_ingested"
  | .ragRetrieval => "rag_retrieval"
  | .isolationProbe => "isolation_probe"
  | .workspaceShredded => "workspace_shredded"
  | .configReloaded => "config_reloaded"
  | .auditVerified => "audit_verified"
  | .binaryAttested => "binary_attested"
  | .modelBaselineChecked => "model_baseline_checked"
  | .modelDriftDetected => "model_drift_detected"
  | .modelApprovalGranted => "model_approval_granted"
  | .modelApprovalRevoked => "model_approval_revoked"
  | .modelLoadBlocked => "model_load_blocked"
  | .dataClassificationViolation => "data_classification_violation"
  | .dataLabelAssigned => "data_label_assigned"
  | .dlpSyncCompleted => "dlp_sync_completed"
  | .tpmKeySealed => "tpm_key_sealed"
  | .tpmUnsealFailed => "tpm_unseal_failed"
  | .tpmKeyRotated => "tpm_key_rotated"
  | .incidentDeclared => "incident_declared"
  | .auditFrozen => "audit_frozen"
  | .auditUnfrozen => "audit_unfrozen"
  | .forensicSnapshot => "forensic_snapshot"
  | .breakGlassUsed => "break_glass_used"
  | .incidentPhaseChanged => "incident_phase_changed"
  | .incidentResolved => "incident_resolved"
  | .legalHoldPlaced => "legal_hold_placed"
  | .legalHoldReleased => "legal_hold_released"
  | .legalHoldKeyGenerated => "legal_hold_key_generated"
  | .teeAttested => "tee_attested"

/-- The fields of a variant. -/
def fields : EventKind → List String
  | .daemonStart => ["version", "air_gap"]
  | .daemonStop => ["reason"]
  | .isolationApplied => ["mode"]
  | .modelImported => ["model", "sha256", "size_bytes", "source"]
  | .modelRemoved => ["model"]
  | .inferenceStart => ["request_id", "model", "prompt_sha256", "device", "prompt"]
  | .inferenceComplete => ["request_id", "model", "tokens_in", "tokens_out", "duration_ms",
    "device", "response"]
  | .inferenceFailed => ["request_id", "model", "reason"]
  | .inferenceReceipt => ["receipt"]
  | .ragDocumentIngested => ["collection", "source", "chunks"]
  | .ragRetrieval => ["collection", "query_sha256", "hits"]
  | .isolationProbe => ["isolated", "probe_results", "iptables_hash"]
  | .workspaceShredded => ["slug", "actor", "statement"]
  | .configReloaded => ["path"]
  | .auditVerified => ["entries", "ok"]
  | .binaryAttested => ["binary_sha256", "binary_path", "tpm_available"]
  | .modelBaselineChecked => ["model_id", "model_sha256", "vectors_run", "vectors_passed",
    "vectors_failed", "baseline_signer"]
  | .modelDriftDetected => ["model_id", "model_sha256", "vectors_failed", "action_taken"]
  | .modelApprovalGranted => ["model_id", "model_sha256", "approved_by", "token_id",
    "signer_pubkey"]
  | .modelApprovalRevoked => ["model_id", "model_sha256", "revoked_by", "token_id"]
  | .modelLoadBlocked => ["model_id", "model_sha256", "reason"]
  | .dataClassificationViolation => ["workspace", "collection", "required_label",
    "workspace_clearance", "blocked"]
  | .dataLabelAssigned => ["collection", "label", "assigned_by"]
  | .dlpSyncCompleted => ["provider", "labels_imported"]
  | .tpmKeySealed => ["purpose", "backend", "pcr_list"]
  | .tpmUnsealFailed => ["purpose", "reason", "fail_count"]
  | .tpmKeyRotated => ["purpose", "reason", "new_backend", "new_pcr_list"]
  | .incidentDeclared => ["incident_id", "declared_by", "reason", "sessions_terminated"]
  | .auditFrozen => ["incident_id", "frozen_by"]
  | .auditUnfrozen => ["incident_id", "unfrozen_by"]
  | .forensicSnapshot => ["incident_id", "snapshot_path", "snapshot_sha256"]
  | .breakGlassUsed => ["cred_id", "used_by", "purpose"]
  | .incidentPhaseChanged => ["incident_id", "old_phase", "new_phase", "changed_by", "note"]
  | .incidentResolved => ["incident_id", "resolved_by", "summary"]
  | .legalHoldPlaced => ["hold_id", "placed_by", "seq_from", "seq_to", "reason", "tpm_sealed"]
  | .legalHoldReleased => ["hold_id", "released_by"]
  | .legalHoldKeyGenerated => ["pubkey_hex", "generated_by", "tpm_sealed"]
  | .teeAttested => ["tee_type", "report_hash", "binary_sha256"]

/-- The variant a tag names.  A derived identifier reader also takes the variant's
    position. -/
def ofTag : Value → Option EventKind
  | .str s => all.find? (·.tag = s)
  | .num l => l.toNat?.bind (all[·]?)
  | _ => none

theorem ofTag_tag (k : EventKind) : ofTag (.str k.tag) = some k := by
  cases k <;> decide

/-- No variant has a field that is called like the tag. -/
theorem event_notMem_fields (k : EventKind) : "event" ∉ k.fields := by
  cases k <;> decide

end EventKind

inductive AuditEvent where
  | daemonStart (version : String) (airGap : Bool)
  | daemonStop (reason : String)
  | isolationApplied (mode : IsolationMode)
  | modelImported (model : ModelId) (sha256 : String) (sizeBytes : UInt64) (source : ImportSource)
  | modelRemoved (model : ModelId)
  | inferenceStart (requestId : String) (model : ModelId) (promptSha256 : String)
    (device : InferenceDevice) (prompt : Option String)
  | inferenceComplete (requestId : String) (model : ModelId) (tokensIn tokensOut : UInt32)
    (durationMs : UInt64) (device : InferenceDevice) (response : Option String)
  | inferenceFailed (requestId : String) (model : ModelId) (reason : String)
  | inferenceReceipt (receipt : InferenceReceipt)
  | ragDocumentIngested (collection source : String) (chunks : UInt64)
  | ragRetrieval (collection querySha256 : String) (hits : UInt64)
  | isolationProbe (isolated : Bool) (probeResults : List ProbeResult) (iptablesHash : String)
  | workspaceShredded (slug actor statement : String)
  | configReloaded (path : String)
  | auditVerified (entries : UInt64) (ok : Bool)
  | binaryAttested (binarySha256 binaryPath : String) (tpmAvailable : Bool)
  | modelBaselineChecked (modelId modelSha256 : String)
    (vectorsRun vectorsPassed vectorsFailed : UInt64) (baselineSigner : String)
  | modelDriftDetected (modelId modelSha256 : String) (vectorsFailed : UInt64)
    (actionTaken : String)
  | modelApprovalGranted (modelId modelSha256 approvedBy tokenId signerPubkey : String)
  | modelApprovalRevoked (modelId modelSha256 revokedBy tokenId : String)
  | modelLoadBlocked (modelId modelSha256 reason : String)
  | dataClassificationViolation (workspace collection requiredLabel workspaceClearance : String)
    (blocked : Bool)
  | dataLabelAssigned (collection label assignedBy : String)
  | dlpSyncCompleted (provider : String) (labelsImported : UInt64)
  | tpmKeySealed (purpose backend : String) (pcrList : Option String)
  | tpmUnsealFailed (purpose reason : String) (failCount : UInt32)
  | tpmKeyRotated (purpose reason newBackend : String) (newPcrList : Option String)
  | incidentDeclared (incidentId declaredBy reason : String) (sessionsTerminated : UInt32)
  | auditFrozen (incidentId frozenBy : String)
  | auditUnfrozen (incidentId unfrozenBy : String)
  | forensicSnapshot (incidentId snapshotPath snapshotSha256 : String)
  | breakGlassUsed (credId usedBy purpose : String)
  | incidentPhaseChanged (incidentId oldPhase newPhase changedBy : String) (note : Option String)
  | incidentResolved (incidentId resolvedBy summary : String)
  | legalHoldPlaced (holdId placedBy : String) (seqFrom seqTo : UInt64) (reason : String)
    (tpmSealed : Bool)
  | legalHoldReleased (holdId releasedBy : String)
  | legalHoldKeyGenerated (pubkeyHex generatedBy : String) (tpmSealed : Bool)
  | teeAttested (teeType reportHash binarySha256 : String)

namespace AuditEvent

def kind : AuditEvent → EventKind
  | .daemonStart .. => .daemonStart
  | .daemonStop .. => .daemonStop
  | .isolationApplied .. => .isolationApplied
  | .modelImported .. => .modelImported
  | .modelRemoved .. => .modelRemoved
  | .inferenceStart .. => .inferenceStart
  | .inferenceComplete .. => .inferenceComplete
  | .inferenceFailed .. => .inferenceFailed
  | .inferenceReceipt .. => .inferenceReceipt
  | .ragDocumentIngested .. => .ragDocumentIngested
  | .ragRetrieval .. => .ragRetrieval
  | .isolationProbe .. => .isolationProbe
  | .workspaceShredded .. => .workspaceShredded
  | .configReloaded .. => .configReloaded
  | .auditVerified .. => .auditVerified
  | .binaryAttested .. => .binaryAttested
  | .modelBaselineChecked .. => .modelBaselineChecked
  | .modelDriftDetected .. => .modelDriftDetected
  | .modelApprovalGranted .. => .modelApprovalGranted
  | .modelApprovalRevoked .. => .modelApprovalRevoked
  | .modelLoadBlocked .. => .modelLoadBlocked
  | .dataClassificationViolation .. => .dataClassificationViolation
  | .dataLabelAssigned .. => .dataLabelAssigned
  | .dlpSyncCompleted .. => .dlpSyncCompleted
  | .tpmKeySealed .. => .tpmKeySealed
  | .tpmUnsealFailed .. => .tpmUnsealFailed
  | .tpmKeyRotated .. => .tpmKeyRotated
  | .incidentDeclared .. => .incidentDeclared
  | .auditFrozen .. => .auditFrozen
  | .auditUnfrozen .. => .auditUnfrozen
  | .forensicSnapshot .. => .forensicSnapshot
  | .breakGlassUsed .. => .breakGlassUsed
  | .incidentPhaseChanged .. => .incidentPhaseChanged
  | .incidentResolved .. => .incidentResolved
  | .legalHoldPlaced .. => .legalHoldPlaced
  | .legalHoldReleased .. => .legalHoldReleased
  | .legalHoldKeyGenerated .. => .legalHoldKeyGenerated
  | .teeAttested .. => .teeAttested

variable (X : External)

/-- What a variant's fields are written as, without the tag. -/
def members (S : Serializer X.readF32) : AuditEvent → List (String × Value)
  | .daemonStart version airGap =>
      [("version", X.str.enc S version), ("air_gap", X.bool.enc S airGap)]
  | .daemonStop reason =>
      [("reason", X.str.enc S reason)]
  | .isolationApplied mode =>
      [("mode", (IsolationMode.codec X).enc S mode)]
  | .modelImported model sha256 sizeBytes source =>
      [("model", (ModelId.codec X).enc S model), ("sha256", X.str.enc S sha256),
        ("size_bytes", X.u64.enc S sizeBytes), ("source", (ImportSource.codec X).enc S source)]
  | .modelRemoved model =>
      [("model", (ModelId.codec X).enc S model)]
  | .inferenceStart requestId model promptSha256 device prompt =>
      [("request_id", X.str.enc S requestId), ("model", (ModelId.codec X).enc S model),
        ("prompt_sha256", X.str.enc S promptSha256), ("device",
        (InferenceDevice.codec X).enc S device)] ++
      optMember "prompt" (prompt.map (X.str.enc S))
  | .inferenceComplete requestId model tokensIn tokensOut durationMs device response =>
      [("request_id", X.str.enc S requestId), ("model", (ModelId.codec X).enc S model),
        ("tokens_in", X.u32.enc S tokensIn), ("tokens_out", X.u32.enc S tokensOut),
        ("duration_ms", X.u64.enc S durationMs), ("device",
        (InferenceDevice.codec X).enc S device)] ++
      optMember "response" (response.map (X.str.enc S))
  | .inferenceFailed requestId model reason =>
      [("request_id", X.str.enc S requestId), ("model", (ModelId.codec X).enc S model),
        ("reason", X.str.enc S reason)]
  | .inferenceReceipt receipt =>
      [("receipt", (InferenceReceipt.codec X).enc S receipt)]
  | .ragDocumentIngested collection source chunks =>
      [("collection", X.str.enc S collection), ("source", X.str.enc S source),
        ("chunks", X.u64.enc S chunks)]
  | .ragRetrieval collection querySha256 hits =>
      [("collection", X.str.enc S collection), ("query_sha256", X.str.enc S querySha256),
        ("hits", X.u64.enc S hits)]
  | .isolationProbe isolated probeResults iptablesHash =>
      [("isolated", X.bool.enc S isolated), ("probe_results",
        (Codec.list (ProbeResult.codec X)).enc S probeResults),
        ("iptables_hash", X.str.enc S iptablesHash)]
  | .workspaceShredded slug actor statement =>
      [("slug", X.str.enc S slug), ("actor", X.str.enc S actor),
        ("statement", X.str.enc S statement)]
  | .configReloaded path =>
      [("path", X.str.enc S path)]
  | .auditVerified entries ok =>
      [("entries", X.u64.enc S entries), ("ok", X.bool.enc S ok)]
  | .binaryAttested binarySha256 binaryPath tpmAvailable =>
      [("binary_sha256", X.str.enc S binarySha256), ("binary_path", X.str.enc S binaryPath),
        ("tpm_available", X.bool.enc S tpmAvailable)]
  | .modelBaselineChecked modelId modelSha256 vectorsRun vectorsPassed vectorsFailed
      baselineSigner =>
      [("model_id", X.str.enc S modelId), ("model_sha256", X.str.enc S modelSha256),
        ("vectors_run", X.u64.enc S vectorsRun), ("vectors_passed", X.u64.enc S vectorsPassed),
        ("vectors_failed", X.u64.enc S vectorsFailed),
        ("baseline_signer", X.str.enc S baselineSigner)]
  | .modelDriftDetected modelId modelSha256 vectorsFailed actionTaken =>
      [("model_id", X.str.enc S modelId), ("model_sha256", X.str.enc S modelSha256),
        ("vectors_failed", X.u64.enc S vectorsFailed),
        ("action_taken", X.str.enc S actionTaken)]
  | .modelApprovalGranted modelId modelSha256 approvedBy tokenId signerPubkey =>
      [("model_id", X.str.enc S modelId), ("model_sha256", X.str.enc S modelSha256),
        ("approved_by", X.str.enc S approvedBy), ("token_id", X.str.enc S tokenId),
        ("signer_pubkey", X.str.enc S signerPubkey)]
  | .modelApprovalRevoked modelId modelSha256 revokedBy tokenId =>
      [("model_id", X.str.enc S modelId), ("model_sha256", X.str.enc S modelSha256),
        ("revoked_by", X.str.enc S revokedBy), ("token_id", X.str.enc S tokenId)]
  | .modelLoadBlocked modelId modelSha256 reason =>
      [("model_id", X.str.enc S modelId), ("model_sha256", X.str.enc S modelSha256),
        ("reason", X.str.enc S reason)]
  | .dataClassificationViolation workspace collection requiredLabel workspaceClearance blocked =>
      [("workspace", X.str.enc S workspace), ("collection", X.str.enc S collection),
        ("required_label", X.str.enc S requiredLabel),
        ("workspace_clearance", X.str.enc S workspaceClearance),
        ("blocked", X.bool.enc S blocked)]
  | .dataLabelAssigned collection label assignedBy =>
      [("collection", X.str.enc S collection), ("label", X.str.enc S label),
        ("assigned_by", X.str.enc S assignedBy)]
  | .dlpSyncCompleted provider labelsImported =>
      [("provider", X.str.enc S provider), ("labels_imported", X.u64.enc S labelsImported)]
  | .tpmKeySealed purpose backend pcrList =>
      [("purpose", X.str.enc S purpose), ("backend", X.str.enc S backend),
        ("pcr_list", X.str.encOpt S pcrList)]
  | .tpmUnsealFailed purpose reason failCount =>
      [("purpose", X.str.enc S purpose), ("reason", X.str.enc S reason),
        ("fail_count", X.u32.enc S failCount)]
  | .tpmKeyRotated purpose reason newBackend newPcrList =>
      [("purpose", X.str.enc S purpose), ("reason", X.str.enc S reason),
        ("new_backend", X.str.enc S newBackend), ("new_pcr_list", X.str.encOpt S newPcrList)]
  | .incidentDeclared incidentId declaredBy reason sessionsTerminated =>
      [("incident_id", X.str.enc S incidentId), ("declared_by", X.str.enc S declaredBy),
        ("reason", X.str.enc S reason), ("sessions_terminated", X.u32.enc S sessionsTerminated)]
  | .auditFrozen incidentId frozenBy =>
      [("incident_id", X.str.enc S incidentId), ("frozen_by", X.str.enc S frozenBy)]
  | .auditUnfrozen incidentId unfrozenBy =>
      [("incident_id", X.str.enc S incidentId), ("unfrozen_by", X.str.enc S unfrozenBy)]
  | .forensicSnapshot incidentId snapshotPath snapshotSha256 =>
      [("incident_id", X.str.enc S incidentId), ("snapshot_path", X.str.enc S snapshotPath),
        ("snapshot_sha256", X.str.enc S snapshotSha256)]
  | .breakGlassUsed credId usedBy purpose =>
      [("cred_id", X.str.enc S credId), ("used_by", X.str.enc S usedBy),
        ("purpose", X.str.enc S purpose)]
  | .incidentPhaseChanged incidentId oldPhase newPhase changedBy note =>
      [("incident_id", X.str.enc S incidentId), ("old_phase", X.str.enc S oldPhase),
        ("new_phase", X.str.enc S newPhase), ("changed_by", X.str.enc S changedBy),
        ("note", X.str.encOpt S note)]
  | .incidentResolved incidentId resolvedBy summary =>
      [("incident_id", X.str.enc S incidentId), ("resolved_by", X.str.enc S resolvedBy),
        ("summary", X.str.enc S summary)]
  | .legalHoldPlaced holdId placedBy seqFrom seqTo reason tpmSealed =>
      [("hold_id", X.str.enc S holdId), ("placed_by", X.str.enc S placedBy),
        ("seq_from", X.u64.enc S seqFrom), ("seq_to", X.u64.enc S seqTo),
        ("reason", X.str.enc S reason), ("tpm_sealed", X.bool.enc S tpmSealed)]
  | .legalHoldReleased holdId releasedBy =>
      [("hold_id", X.str.enc S holdId), ("released_by", X.str.enc S releasedBy)]
  | .legalHoldKeyGenerated pubkeyHex generatedBy tpmSealed =>
      [("pubkey_hex", X.str.enc S pubkeyHex), ("generated_by", X.str.enc S generatedBy),
        ("tpm_sealed", X.bool.enc S tpmSealed)]
  | .teeAttested teeType reportHash binarySha256 =>
      [("tee_type", X.str.enc S teeType), ("report_hash", X.str.enc S reportHash),
        ("binary_sha256", X.str.enc S binarySha256)]

/-- The variant's reader. -/
def ofMembers (fs : List (String × Value)) : EventKind → Option AuditEvent
  | .daemonStart =>
      .daemonStart <$> X.str.field "version" fs <*> X.bool.field "air_gap" fs
  | .daemonStop =>
      .daemonStop <$> X.str.field "reason" fs
  | .isolationApplied =>
      .isolationApplied <$> (IsolationMode.codec X).field "mode" fs
  | .modelImported =>
      .modelImported <$> (ModelId.codec X).field "model" fs <*> X.str.field "sha256" fs
        <*> X.u64.field "size_bytes" fs <*> (ImportSource.codec X).field "source" fs
  | .modelRemoved =>
      .modelRemoved <$> (ModelId.codec X).field "model" fs
  | .inferenceStart =>
      .inferenceStart <$> X.str.field "request_id" fs <*> (ModelId.codec X).field "model" fs
        <*> X.str.field "prompt_sha256" fs <*> (InferenceDevice.codec X).field "device" fs
        <*> X.str.fieldOpt "prompt" fs
  | .inferenceComplete =>
      .inferenceComplete <$> X.str.field "request_id" fs <*> (ModelId.codec X).field "model" fs
        <*> X.u32.field "tokens_in" fs <*> X.u32.field "tokens_out" fs
        <*> X.u64.field "duration_ms" fs <*> (InferenceDevice.codec X).field "device" fs
        <*> X.str.fieldOpt "response" fs
  | .inferenceFailed =>
      .inferenceFailed <$> X.str.field "request_id" fs <*> (ModelId.codec X).field "model" fs
        <*> X.str.field "reason" fs
  | .inferenceReceipt =>
      .inferenceReceipt <$> (InferenceReceipt.codec X).field "receipt" fs
  | .ragDocumentIngested =>
      .ragDocumentIngested <$> X.str.field "collection" fs <*> X.str.field "source" fs
        <*> X.u64.field "chunks" fs
  | .ragRetrieval =>
      .ragRetrieval <$> X.str.field "collection" fs <*> X.str.field "query_sha256" fs
        <*> X.u64.field "hits" fs
  | .isolationProbe =>
      .isolationProbe <$> X.bool.field "isolated" fs
        <*> (Codec.list (ProbeResult.codec X)).field "probe_results" fs
        <*> X.str.field "iptables_hash" fs
  | .workspaceShredded =>
      .workspaceShredded <$> X.str.field "slug" fs <*> X.str.field "actor" fs
        <*> X.str.field "statement" fs
  | .configReloaded =>
      .configReloaded <$> X.str.field "path" fs
  | .auditVerified =>
      .auditVerified <$> X.u64.field "entries" fs <*> X.bool.field "ok" fs
  | .binaryAttested =>
      .binaryAttested <$> X.str.field "binary_sha256" fs <*> X.str.field "binary_path" fs
        <*> X.bool.field "tpm_available" fs
  | .modelBaselineChecked =>
      .modelBaselineChecked <$> X.str.field "model_id" fs <*> X.str.field "model_sha256" fs
        <*> X.u64.field "vectors_run" fs <*> X.u64.field "vectors_passed" fs
        <*> X.u64.field "vectors_failed" fs <*> X.str.field "baseline_signer" fs
  | .modelDriftDetected =>
      .modelDriftDetected <$> X.str.field "model_id" fs <*> X.str.field "model_sha256" fs
        <*> X.u64.field "vectors_failed" fs <*> X.str.field "action_taken" fs
  | .modelApprovalGranted =>
      .modelApprovalGranted <$> X.str.field "model_id" fs <*> X.str.field "model_sha256" fs
        <*> X.str.field "approved_by" fs <*> X.str.field "token_id" fs
        <*> X.str.field "signer_pubkey" fs
  | .modelApprovalRevoked =>
      .modelApprovalRevoked <$> X.str.field "model_id" fs <*> X.str.field "model_sha256" fs
        <*> X.str.field "revoked_by" fs <*> X.str.field "token_id" fs
  | .modelLoadBlocked =>
      .modelLoadBlocked <$> X.str.field "model_id" fs <*> X.str.field "model_sha256" fs
        <*> X.str.field "reason" fs
  | .dataClassificationViolation =>
      .dataClassificationViolation <$> X.str.field "workspace" fs
        <*> X.str.field "collection" fs <*> X.str.field "required_label" fs
        <*> X.str.field "workspace_clearance" fs <*> X.bool.field "blocked" fs
  | .dataLabelAssigned =>
      .dataLabelAssigned <$> X.str.field "collection" fs <*> X.str.field "label" fs
        <*> X.str.field "assigned_by" fs
  | .dlpSyncCompleted =>
      .dlpSyncCompleted <$> X.str.field "provider" fs <*> X.u64.field "labels_imported" fs
  | .tpmKeySealed =>
      .tpmKeySealed <$> X.str.field "purpose" fs <*> X.str.field "backend" fs
        <*> X.str.fieldOpt "pcr_list" fs
  | .tpmUnsealFailed =>
      .tpmUnsealFailed <$> X.str.field "purpose" fs <*> X.str.field "reason" fs
        <*> X.u32.field "fail_count" fs
  | .tpmKeyRotated =>
      .tpmKeyRotated <$> X.str.field "purpose" fs <*> X.str.field "reason" fs
        <*> X.str.field "new_backend" fs <*> X.str.fieldOpt "new_pcr_list" fs
  | .incidentDeclared =>
      .incidentDeclared <$> X.str.field "incident_id" fs <*> X.str.field "declared_by" fs
        <*> X.str.field "reason" fs <*> X.u32.field "sessions_terminated" fs
  | .auditFrozen =>
      .auditFrozen <$> X.str.field "incident_id" fs <*> X.str.field "frozen_by" fs
  | .auditUnfrozen =>
      .auditUnfrozen <$> X.str.field "incident_id" fs <*> X.str.field "unfrozen_by" fs
  | .forensicSnapshot =>
      .forensicSnapshot <$> X.str.field "incident_id" fs <*> X.str.field "snapshot_path" fs
        <*> X.str.field "snapshot_sha256" fs
  | .breakGlassUsed =>
      .breakGlassUsed <$> X.str.field "cred_id" fs <*> X.str.field "used_by" fs
        <*> X.str.field "purpose" fs
  | .incidentPhaseChanged =>
      .incidentPhaseChanged <$> X.str.field "incident_id" fs <*> X.str.field "old_phase" fs
        <*> X.str.field "new_phase" fs <*> X.str.field "changed_by" fs
        <*> X.str.fieldOpt "note" fs
  | .incidentResolved =>
      .incidentResolved <$> X.str.field "incident_id" fs <*> X.str.field "resolved_by" fs
        <*> X.str.field "summary" fs
  | .legalHoldPlaced =>
      .legalHoldPlaced <$> X.str.field "hold_id" fs <*> X.str.field "placed_by" fs
        <*> X.u64.field "seq_from" fs <*> X.u64.field "seq_to" fs <*> X.str.field "reason" fs
        <*> X.bool.field "tpm_sealed" fs
  | .legalHoldReleased =>
      .legalHoldReleased <$> X.str.field "hold_id" fs <*> X.str.field "released_by" fs
  | .legalHoldKeyGenerated =>
      .legalHoldKeyGenerated <$> X.str.field "pubkey_hex" fs <*> X.str.field "generated_by" fs
        <*> X.bool.field "tpm_sealed" fs
  | .teeAttested =>
      .teeAttested <$> X.str.field "tee_type" fs <*> X.str.field "report_hash" fs
        <*> X.str.field "binary_sha256" fs

/-- Reading a variant from members that answer for its fields as the written ones do. -/
theorem ofMembers_of_occ (S : Serializer X.readF32) (e : AuditEvent)
    {fs : List (String × Value)}
    (h : ∀ name ∈ e.kind.fields, occ name fs = occ name (e.members X S)) :
    ofMembers X fs e.kind = some e := by
  cases e <;>
    simp only [kind, EventKind.fields, List.forall_mem_cons, List.not_mem_nil, false_imp_iff,
      implies_true, and_true] at h <;>
    simp [kind, ofMembers, members, Codec.field, Codec.fieldOpt, h]

/-- The tag and the fields, as an internally tagged enum is written. -/
def tagged (S : Serializer X.readF32) (e : AuditEvent) : List (String × Value) :=
  ("event", .str e.kind.tag) :: e.members X S

/-- The reader of an internally tagged enum. -/
def ofTagged (fs : List (String × Value)) : Option AuditEvent :=
  match occ "event" fs with
  | [t] => (EventKind.ofTag t).bind (ofMembers X fs)
  | _ => none

theorem ofTagged_of_occ (S : Serializer X.readF32) (e : AuditEvent)
    {fs : List (String × Value)} (htag : occ "event" fs = [.str e.kind.tag])
    (h : ∀ name ∈ e.kind.fields, occ name fs = occ name (e.members X S)) :
    ofTagged X fs = some e := by
  rw [ofTagged, htag]
  simp only [EventKind.ofTag_tag, Option.bind_some]
  exact ofMembers_of_occ X S e h

/-- The written names are the variant's fields, some of them left out. -/
theorem members_fst_sublist (S : Serializer X.readF32) (e : AuditEvent) :
    ((e.members X S).map Prod.fst).Sublist e.kind.fields := by
  cases e
  case inferenceStart prompt =>
    cases prompt <;> simp [members, kind, EventKind.fields, optMember]
  case inferenceComplete response =>
    cases response <;> simp [members, kind, EventKind.fields, optMember]
  all_goals exact List.Sublist.refl _

end AuditEvent

/-! ## AuditEntry -/

/-- `seq` is a counter; that it is a `u64` shows where it is read. -/
structure AuditEntry where
  ts : DateTime
  seq : Nat
  actor : String
  event : AuditEvent
  prevHmac : String
  hmac : String

namespace AuditEntry

variable (X : External)

/-- The names the entry keeps for itself. -/
def envelope : List String := ["ts", "seq", "actor", "prev_hmac", "hmac"]

/-- `Serialize`, with the event flattened between `actor` and `prev_hmac`. -/
def toMembers (e : AuditEntry) : List (String × Value) :=
  [("ts", X.dateTime.enc X.text e.ts),
    ("seq", .num (NumLit.ofNat e.seq)),
    ("actor", X.str.enc X.text e.actor)] ++
  e.event.tagged X X.text ++
  [("prev_hmac", X.str.enc X.text e.prevHmac),
    ("hmac", X.str.enc X.text e.hmac)]

def readSeq : List Value → Option Nat
  | [v] => Codec.natBelow (2 ^ 64) v
  | _ => none

/-- `Deserialize`: an entry name that occurs twice is refused, every other name
    goes to the event. -/
def ofValue : Value → Option AuditEntry
  | .obj fs =>
      AuditEntry.mk <$> X.dateTime.field "ts" fs
        <*> readSeq (occ "seq" fs)
        <*> X.str.field "actor" fs
        <*> AuditEvent.ofTagged X (fs.filter (·.1 ∉ envelope))
        <*> X.str.field "prev_hmac" fs
        <*> X.str.field "hmac" fs
  | _ => none

/-- `serde_json::to_string(&entry)`. -/
def toText (e : AuditEntry) : Text := render (.obj (e.toMembers X))

/-- `serde_json::from_str::<AuditEntry>`. -/
def fromStr (l : Text) : Option AuditEntry := (parse l).bind (ofValue X)

/-- The entry's own line reads back: no name of its event is one of the
    envelope's, and its `seq` is a `u64`. -/
def readable (e : AuditEntry) : Bool :=
  e.event.kind != .workspaceShredded && decide (e.seq < 2 ^ 64)

theorem readable_iff {e : AuditEntry} :
    e.readable = true ↔ e.event.kind ≠ .workspaceShredded ∧ e.seq < 2 ^ 64 := by
  simp [readable]

/-- **No collisions but one.**  The fields of every variant other than
    `workspace_shredded` avoid the envelope's names. -/
theorem fields_disjoint_envelope {k : EventKind} (hk : k ≠ .workspaceShredded) :
    ∀ name ∈ k.fields, name ∉ envelope := by
  cases k <;> first | exact absurd rfl hk | decide

theorem occ_filter_notMem (names : List String) (name : String) (fs : List (String × Value)) :
    occ name (fs.filter (·.1 ∉ names)) = if name ∈ names then [] else occ name fs := by
  induction fs with
  | nil => simp
  | cons f fs ih =>
      obtain ⟨k, v⟩ := f
      by_cases hk : k ∈ names <;> by_cases hn : k = name <;> by_cases hm : name ∈ names <;>
        simp_all

/-- The event's members leave the envelope's names alone. -/
theorem occ_tagged_of_mem_envelope {e : AuditEvent} (hk : e.kind ≠ .workspaceShredded)
    {name : String} (hname : name ∈ envelope) : occ name (e.tagged X X.text) = [] := by
  have hevent : "event" ∉ envelope := by decide
  apply occ_eq_nil
  rw [AuditEvent.tagged, List.map_cons, List.mem_cons, not_or]
  refine ⟨?_, fun hmem => ?_⟩
  · rintro rfl
    exact hevent hname
  · exact fields_disjoint_envelope hk name ((e.members_fst_sublist X X.text).subset hmem) hname

/-- What the event's reader is handed answers for the event's fields. -/
theorem occ_rest {e : AuditEntry} {name : String} (hname : name ∉ envelope) :
    occ name ((e.toMembers X).filter (·.1 ∉ envelope)) = occ name (e.event.tagged X X.text) := by
  rw [occ_filter_notMem, if_neg hname]
  simp only [envelope, List.mem_cons, List.not_mem_nil, or_false, not_or] at hname
  obtain ⟨hts, hseq, hactor, hprev, hhmac⟩ := hname
  simp [toMembers, Ne.symm hts, Ne.symm hseq, Ne.symm hactor, Ne.symm hprev, Ne.symm hhmac]

theorem ofTagged_rest {e : AuditEntry} (hk : e.event.kind ≠ .workspaceShredded) :
    AuditEvent.ofTagged X ((e.toMembers X).filter (·.1 ∉ envelope)) = some e.event := by
  apply AuditEvent.ofTagged_of_occ X X.text
  · have hfields : "event" ∉ (e.event.members X X.text).map Prod.fst := fun hmem =>
      EventKind.event_notMem_fields _ ((e.event.members_fst_sublist X X.text).subset hmem)
    rw [occ_rest X (by decide)]
    simp [AuditEvent.tagged, occ_eq_nil hfields]
  · intro name hname
    rw [occ_rest X (fields_disjoint_envelope hk name hname)]
    have hne : "event" ≠ name := fun h => EventKind.event_notMem_fields _ (h ▸ hname)
    simp [AuditEvent.tagged, hne]

theorem ofValue_of_seq_none {fs : List (String × Value)} (h : readSeq (occ "seq" fs) = none) :
    ofValue X (.obj fs) = none := by
  simp only [ofValue, h]
  cases X.dateTime.field "ts" fs <;> rfl

theorem ofValue_of_actor_none {fs : List (String × Value)} (h : X.str.field "actor" fs = none) :
    ofValue X (.obj fs) = none := by
  simp only [ofValue, h]
  cases X.dateTime.field "ts" fs <;> cases readSeq (occ "seq" fs) <;> rfl

/-- A `workspace_shredded` entry is written with two members called `actor`. -/
theorem actor_field_of_shredded {e : AuditEntry} (hk : e.event.kind = .workspaceShredded) :
    X.str.field "actor" (e.toMembers X) = none := by
  obtain ⟨ts, seq, actor, event, prevHmac, hmac⟩ := e
  cases event <;> simp only [AuditEvent.kind, reduceCtorEq] at hk
  simp [Codec.field, toMembers, AuditEvent.tagged, AuditEvent.members]

/-- **What comes back.**  An entry that is written and read comes back as itself, or
    not at all. -/
theorem ofValue_toValue (e : AuditEntry) :
    ofValue X (.obj (e.toMembers X)) = if e.readable then some e else none := by
  by_cases hk : e.event.kind = .workspaceShredded
  · rw [ofValue_of_actor_none X (actor_field_of_shredded X hk)]
    simp [readable, hk]
  · have hocc := fun name => @occ_tagged_of_mem_envelope X e.event hk name
    have hts := hocc "ts" (by decide)
    have hseq := hocc "seq" (by decide)
    have hactor := hocc "actor" (by decide)
    have hprev := hocc "prev_hmac" (by decide)
    have hhmac := hocc "hmac" (by decide)
    have hread : readSeq (occ "seq" (e.toMembers X))
        = Codec.natBelow (2 ^ 64) (.num (NumLit.ofNat e.seq)) := by
      simp [toMembers, hseq, readSeq]
    by_cases hlt : e.seq < 2 ^ 64
    · have hr : e.readable = true := by simpa [readable, hk] using hlt
      rw [Codec.natBelow_ofNat hlt] at hread
      simp only [ofValue, ofTagged_rest X hk, hread, Codec.field, hr, if_true]
      simp [toMembers, hts, hactor, hprev, hhmac]
    · have hr : e.readable = false := by simpa [readable, hk] using hlt
      have hnone : Codec.natBelow (2 ^ 64) (.num (NumLit.ofNat e.seq)) = none := by
        simp only [Codec.natBelow, NumLit.toNat?_ofNat, Option.bind_some, if_neg hlt]
      rw [ofValue_of_seq_none X (hread.trans hnone), hr]
      rfl

@[simp] theorem fromStr_toText (e : AuditEntry) :
    fromStr X (e.toText X) = if e.readable then some e else none := by
  rw [fromStr, toText, parse_render, Option.bind_some, ofValue_toValue]

/-- **Which lines read back.**  The line of an entry parses to that entry exactly when
    its event is not `workspace_shredded`. -/
theorem line_roundTrips_iff (ts : DateTime) (seq : UInt64) (actor : String) (event : AuditEvent)
    (prevHmac hmac : String) :
    fromStr X (toText X { ts, seq := seq.toNat, actor, event, prevHmac, hmac })
        = some { ts, seq := seq.toNat, actor, event, prevHmac, hmac } ↔
      event.kind ≠ .workspaceShredded := by
  rw [fromStr_toText]
  have hlt : seq.toNat < 2 ^ 64 := seq.toNat_lt
  by_cases hk : event.kind = .workspaceShredded
  · simp [readable, hk]
  · simpa [readable, hk] using hlt

/-- The first entry of a log, written when the workspace `acme` is shredded. -/
def shreddedEntry : AuditEntry where
  ts := newYear
  seq := 1
  actor := "daemon"
  event := .workspaceShredded "acme" "admin" "keys destroyed"
  prevHmac := "0000000000000000000000000000000000000000000000000000000000000000"
  hmac := "6a1e5d3c0b9f48271e6d5c4b3a29180f7e6d5c4b3a29180f7e6d5c4b3a291807"

/-- Its line is refused: `actor` stands in it twice. -/
theorem shreddedEntry_line_refused :
    fromStr External.sample (shreddedEntry.toText External.sample) ≠ some shreddedEntry := by
  rw [fromStr_toText]
  nofun

end AuditEntry

end Maranode.Common
