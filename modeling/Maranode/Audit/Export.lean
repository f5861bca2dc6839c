/-
  Maranode.Audit.Export

  `export.rs`: the log in six formats for auditors and SIEMs.

  All six read the log through `load_entries`, which reads the active file and
  passes over what does not parse.  A report is therefore complete exactly when
  nothing it asks for was rotated away or is unreadable.
-/
import Maranode.Audit.System

namespace Maranode.Audit

open Lib Lib.Json Common

variable (X : External)

/-! ## Loading -/

structure ExportFilter where
  workspace : Option String
  tsFrom : Option DateTime
  tsTo : Option DateTime

/-- The test of `load_entries`. -/
def ExportFilter.passes (f : ExportFilter) (e : AuditEntry) : Bool :=
  f.workspace.all (fun ws => e.actor == ws) &&
    f.tsFrom.all (fun t => !decide (e.ts < t)) && f.tsTo.all (fun t => !decide (t < e.ts))

/-- `usize::MAX` on the 64-bit targets. -/
def usizeMax : Nat := 2 ^ 64 - 1

def loadEntries (d : Disk) (f : ExportFilter) : Option (List AuditEntry) :=
  (readRecent X d usizeMax).map (·.filter f.passes)

/-! ## Reading an event's value -/

/-- `serde_json::to_value(&e.event)`. -/
def eventValue (e : AuditEntry) : Value := .obj (X.value.members (e.event.tagged X X.value))

/-- `value[name]`. -/
def index (v : Value) (name : String) : Value :=
  match v with
  | .obj fs => (occ name fs).head?.getD .null
  | _ => .null

def asStr : Value → Option String
  | .str s => some s
  | _ => none

def asU64 : Value → Option Nat := Codec.natBelow (2 ^ 64)

def asBool : Value → Option Bool
  | .bool b => some b
  | _ => none

def eventKind (ev : Value) : String := (asStr (index ev "event")).getD "unknown"

/-- The members other than the tag, as `name=value`. -/
def eventDetail : Value → Text
  | .obj fs =>
      [';', ' '].intercalate ((fs.filter (·.1 ≠ "event")).map fun (k, v) =>
        k.toList ++ '=' :: render v)
  | _ => []

def natText (n : Nat) : Text := Nat.toDigits 10 n

/-- `str::replace` of one character. -/
def replaceChar (c : Char) (t s : Text) : Text := s.flatMap fun d => if d = c then t else [d]

/-! ## CSV -/

def csvEscape (s : Text) : Text :=
  if ',' ∈ s ∨ quote ∈ s ∨ '\n' ∈ s then
    quote :: (replaceChar quote [quote, quote] s ++ [quote])
  else s

def csvRow (cols : List Text) : Text := [','].intercalate cols ++ ['\n']

def gdprRecord (e : AuditEntry) : Text :=
  let ev := eventValue X e
  csvRow [(X.toRfc3339 e.ts).toList, natText e.seq, csvEscape e.actor.toList,
    csvEscape (eventKind ev).toList, csvEscape (eventDetail ev)]

def hipaaPhi (kind : String) : Bool :=
  kind == "inference_start" || kind == "inference_complete" || kind == "rag_retrieval" ||
    kind == "rag_document_ingested"

def hipaaDetail (ev : Value) (kind : String) : Text :=
  match kind with
  | "inference_start" =>
      ((asStr (index ev "prompt_sha256")).map fun s =>
        "prompt_sha256=".toList ++ s.toList).getD []
  | "inference_complete" =>
      "tokens_in=".toList ++ natText ((asU64 (index ev "tokens_in")).getD 0) ++
        " tokens_out=".toList ++ natText ((asU64 (index ev "tokens_out")).getD 0)
  | "rag_retrieval" =>
      ((asStr (index ev "query_sha256")).map fun s =>
        "query_sha256=".toList ++ s.toList).getD []
  | _ => []

def hipaaRecord (e : AuditEntry) : Text :=
  let ev := eventValue X e
  let kind := eventKind ev
  csvRow [(X.toRfc3339 e.ts).toList, natText e.seq, csvEscape e.actor.toList,
    csvEscape kind.toList, csvEscape (hipaaDetail ev kind),
    if hipaaPhi kind then "yes".toList else "no".toList]

def soc2Category (kind : String) : String :=
  match kind with
  | "daemon_start" | "daemon_stop" => "availability"
  | "isolation_applied" | "config_reloaded" => "change_management"
  | "model_imported" | "model_removed" => "change_management"
  | "inference_start" | "inference_complete" | "inference_failed" => "logical_access"
  | "rag_document_ingested" | "rag_retrieval" => "logical_access"
  | "audit_verified" => "monitoring"
  | _ => "other"

def soc2Record (e : AuditEntry) : Text :=
  let ev := eventValue X e
  let kind := eventKind ev
  csvRow [(X.toRfc3339 e.ts).toList, natText e.seq, csvEscape e.actor.toList,
    (soc2Category kind).toList, csvEscape kind.toList, csvEscape (eventDetail ev)]

/-- The control and the outcome. -/
def iso27001Control (kind : String) : String × String :=
  match kind with
  | "daemon_start" | "daemon_stop" => ("A.12.1", "operational")
  | "isolation_applied" => ("A.13.1", "network_control")
  | "model_imported" => ("A.12.5", "change")
  | "model_removed" => ("A.12.5", "change")
  | "inference_start" | "inference_complete" => ("A.9.4", "access")
  | "inference_failed" => ("A.9.4", "failure")
  | "rag_document_ingested" | "rag_retrieval" => ("A.9.4", "access")
  | "config_reloaded" => ("A.12.1", "change")
  | "audit_verified" => ("A.12.4", "monitoring")
  | _ => ("A.12.4", "other")

def iso27001Record (e : AuditEntry) : Text :=
  let ev := eventValue X e
  let kind := eventKind ev
  csvRow [(X.toRfc3339 e.ts).toList, natText e.seq, csvEscape e.actor.toList,
    (iso27001Control kind).1.toList, csvEscape kind.toList, (iso27001Control kind).2.toList,
    csvEscape (eventDetail ev)]

/-! ## CEF -/

/-- `cef_meta`: severity, name and signature. -/
def cefMeta (kind : String) : Nat × String × String :=
  match kind with
  | "daemon_start" => (2, "Daemon Started", "MRN-001")
  | "daemon_stop" => (2, "Daemon Stopped", "MRN-002")
  | "isolation_applied" => (5, "Isolation Mode Applied", "MRN-010")
  | "isolation_probe" => (5, "Isolation Probe Result", "MRN-011")
  | "model_imported" => (3, "Model Imported", "MRN-020")
  | "model_removed" => (3, "Model Removed", "MRN-021")
  | "inference_start" => (2, "Inference Started", "MRN-030")
  | "inference_complete" => (2, "Inference Completed", "MRN-031")
  | "inference_failed" => (7, "Inference Failed", "MRN-032")
  | "inference_receipt" => (3, "Inference Receipt Issued", "MRN-033")
  | "rag_document_ingested" => (3, "RAG Document Ingested", "MRN-040")
  | "rag_retrieval" => (2, "RAG Retrieval Performed", "MRN-041")
  | "workspace_shredded" => (8, "Workspace Crypto-Shredded", "MRN-050")
  | "config_reloaded" => (3, "Config Reloaded", "MRN-060")
  | "audit_verified" => (2, "Audit Chain Verified", "MRN-070")
  | "binary_attested" => (4, "Binary Attested", "MRN-080")
  | _ => (2, "Audit Event", "MRN-000")

/-- `cef_val`. -/
def cefVal (s : Text) : Text :=
  replaceChar '\n' ['\\', 'n'] (replaceChar '=' ['\\', '='] (replaceChar '\\' ['\\', '\\'] s))

/-- The parts `cef_extension` adds for some kinds of event. -/
def cefExtra (ev : Value) (kind : String) : List Text :=
  match kind with
  | "inference_start" | "inference_complete" | "inference_failed" =>
      (match asStr (index ev "request_id") with
        | some id => ["externalId=".toList ++ cefVal id.toList]
        | none => []) ++
      (match asStr (index (index ev "model") "name") with
        | some m => ["cs1=".toList ++ cefVal m.toList, "cs1Label=modelName".toList]
        | none => []) ++
      (match asStr (index ev "prompt_sha256") with
        | some h => ["cs2=".toList ++ cefVal h.toList, "cs2Label=promptSha256".toList]
        | none => [])
  | "isolation_probe" =>
      let isolated := (asBool (index ev "isolated")).getD true
      ["outcome=".toList ++ (if isolated then "success".toList else "failure".toList),
        "cs3=".toList ++ cefVal ((asStr (index ev "iptables_hash")).getD "").toList,
        "cs3Label=iptablesHash".toList]
  | "workspace_shredded" =>
      match asStr (index ev "slug") with
      | some slug => ["fname=".toList ++ cefVal slug.toList]
      | none => []
  | "model_imported" | "model_removed" =>
      match asStr (index ev "sha256") with
      | some sha => ["fileHash=".toList ++ cefVal sha.toList]
      | none => []
  | _ => []

/-- `cef_extension`. -/
def cefExtension (ev : Value) (actor : String) (seq : Nat) : Text :=
  let kind := eventKind ev
  [' '].intercalate
    (["act=".toList ++ cefVal kind.toList, "src=".toList ++ cefVal actor.toList,
        "cn1=".toList ++ natText seq, "cn1Label=auditSeq".toList] ++
      cefExtra ev kind)

/-- A record ends with a backslash and an `n`, not with a line break. -/
def cefRecord (e : AuditEntry) : Text :=
  let ev := eventValue X e
  let (severity, name, sigId) := cefMeta (eventKind ev)
  "CEF:0|Maranode|maranode-daemon|1.0|".toList ++ sigId.toList ++ '|' :: name.toList ++
    '|' :: natText severity ++ "|rt=".toList ++ (toString (timestampMillis e.ts)).toList ++
    ' ' :: cefExtension ev e.actor e.seq ++ ['\\', 'n']

/-! ## LEEF -/

/-- `leef_event_id`. -/
def leefEventId (kind : String) : String :=
  match kind with
  | "daemon_start" => "DaemonStarted"
  | "daemon_stop" => "DaemonStopped"
  | "isolation_applied" => "IsolationApplied"
  | "isolation_probe" => "IsolationProbe"
  | "model_imported" => "ModelImported"
  | "model_removed" => "ModelRemoved"
  | "inference_start" => "InferenceStarted"
  | "inference_complete" => "InferenceCompleted"
  | "inference_failed" => "InferenceFailed"
  | "inference_receipt" => "InferenceReceipt"
  | "rag_document_ingested" => "RagDocIngested"
  | "rag_retrieval" => "RagRetrieval"
  | "workspace_shredded" => "WorkspaceShredded"
  | "config_reloaded" => "ConfigReloaded"
  | "audit_verified" => "AuditVerified"
  | "binary_attested" => "BinaryAttested"
  | _ => "AuditEvent"

/-- `leef_val`. -/
def leefVal (s : Text) : Text := replaceChar '\n' [' '] (replaceChar '\t' [' '] s)

/-- The parts `leef_attributes` adds for some kinds of event. -/
def leefExtra (ev : Value) (kind : String) : List Text :=
  match kind with
  | "inference_start" | "inference_complete" | "inference_failed" =>
      ((asStr (index ev "request_id")).map fun id =>
        "requestId=".toList ++ leefVal id.toList).toList ++
      ((asStr (index ev "prompt_sha256")).map fun sha =>
        "promptSha256=".toList ++ leefVal sha.toList).toList ++
      ((asU64 (index ev "tokens_in")).map fun n => "tokensIn=".toList ++ natText n).toList ++
      ((asU64 (index ev "tokens_out")).map fun n => "tokensOut=".toList ++ natText n).toList
  | "isolation_probe" =>
      let isolated := (asBool (index ev "isolated")).getD true
      ["isolated=".toList ++ (if isolated then "true".toList else "false".toList),
        "outcome=".toList ++ (if isolated then "success".toList else "failure".toList)]
  | "workspace_shredded" =>
      ((asStr (index ev "slug")).map fun slug =>
        "resourceId=".toList ++ leefVal slug.toList).toList
  | _ => []

/-- `leef_attributes`. -/
def leefAttributes (ev : Value) (actor : String) (seq : Nat) (ts : DateTime) : Text :=
  let kind := (asStr (index ev "event")).getD ""
  ['\t'].intercalate
    (["devTime=".toList ++ (X.toRfc3339 ts).toList, "usrName=".toList ++ leefVal actor.toList,
        "src=maranode".toList, "auditSeq=".toList ++ natText seq,
        "eventType=".toList ++ leefVal kind.toList] ++
      leefExtra ev kind)

def leefRecord (e : AuditEntry) : Text :=
  let ev := eventValue X e
  "LEEF:2.0|Maranode|maranode-daemon|1.0|".toList ++ (leefEventId (eventKind ev)).toList ++
    ['|', '\t'] ++ leefAttributes X ev e.actor e.seq e.ts ++ ['\n']

/-! ## The exporters -/

/-- A header and one record for each entry. -/
structure Format where
  header : Text
  record : AuditEntry → Text

def Format.report (fmt : Format) (es : List AuditEntry) : Text :=
  fmt.header ++ es.flatMap fmt.record

/-- The loop all exporters are. -/
def exportAs (fmt : Format) (d : Disk) (f : ExportFilter) : Option Text :=
  (loadEntries X d f).map fmt.report

def gdpr : Format where
  header := "timestamp,seq,actor,activity,detail\n".toList
  record := gdprRecord X

def hipaa : Format where
  header := "timestamp,seq,actor,event_type,access_detail,phi_indicator\n".toList
  record := hipaaRecord X

def soc2 : Format where
  header := "timestamp,seq,actor,category,event_type,detail\n".toList
  record := soc2Record X

def iso27001 : Format where
  header := "timestamp,seq,actor,control,event_type,outcome,detail\n".toList
  record := iso27001Record X

def cef : Format where
  header := []
  record := cefRecord X

def leef : Format where
  header := []
  record := leefRecord X

def exportGdpr : Disk → ExportFilter → Option Text := exportAs X (gdpr X)

def exportHipaa : Disk → ExportFilter → Option Text := exportAs X (hipaa X)

def exportSoc2 : Disk → ExportFilter → Option Text := exportAs X (soc2 X)

def exportIso27001 : Disk → ExportFilter → Option Text := exportAs X (iso27001 X)

def exportCef : Disk → ExportFilter → Option Text := exportAs X (cef X)

def exportLeef : Disk → ExportFilter → Option Text := exportAs X (leef X)

/-- The six, each with the format it writes. -/
def exporters : List (Format × (Disk → ExportFilter → Option Text)) :=
  [(gdpr X, exportGdpr X), (hipaa X, exportHipaa X), (soc2 X, exportSoc2 X),
    (iso27001 X, exportIso27001 X), (cef X, exportCef X), (leef X, exportLeef X)]

/-! ## What a report holds -/

theorem csvRow_ne_nil (cols : List Text) : csvRow cols ≠ [] :=
  List.append_ne_nil_of_right_ne_nil _ (List.cons_ne_nil _ _)

/-- Every exporter is the one loop, and no record is empty. -/
theorem exporters_spec : ∀ p ∈ exporters X, p.2 = exportAs X p.1 ∧ ∀ e, p.1.record e ≠ [] := by
  simp only [exporters, List.forall_mem_cons, List.not_mem_nil, false_imp_iff, implies_true,
    and_true]
  refine ⟨⟨rfl, fun e => csvRow_ne_nil _⟩, ⟨rfl, fun e => csvRow_ne_nil _⟩,
    ⟨rfl, fun e => csvRow_ne_nil _⟩, ⟨rfl, fun e => csvRow_ne_nil _⟩, ⟨rfl, fun e => ?_⟩,
    ⟨rfl, fun e => ?_⟩⟩
  · exact List.append_ne_nil_of_right_ne_nil _ (List.cons_ne_nil _ _)
  · exact List.append_ne_nil_of_right_ne_nil _ (List.cons_ne_nil _ _)

/-- A report tells how many records it has, so a part with the same report is the
    whole. -/
theorem eq_of_flatMap_eq {record : AuditEntry → Text} (hne : ∀ e, record e ≠ [])
    {es fs : List AuditEntry} (hsub : es.Sublist fs)
    (h : es.flatMap record = fs.flatMap record) : es = fs := by
  induction hsub with
  | slnil => rfl
  | @cons es fs f hsub ih =>
      have hle : (es.flatMap record).length ≤ (fs.flatMap record).length :=
        (hsub.flatMap record).length_le
      have hpos : 0 < (record f).length := List.length_pos_of_ne_nil (hne f)
      have hlen := congrArg List.length h
      rw [List.flatMap_cons, List.length_append] at hlen
      omega
  | @cons_cons es fs f hsub ih =>
      rw [List.flatMap_cons, List.flatMap_cons] at h
      rw [ih (List.append_cancel_left h)]

variable {X}

/-- As many readable entries as there are numbers. -/
theorem length_readable_le {L : Layout} (hs : L.Sorted) (hpos : ∀ e ∈ L.entries, 0 < e.seq) :
    (L.active.filter (·.readable)).length ≤ usizeMax := by
  have hsub : (L.active.filter (·.readable)).Sublist (L.entries.filter (·.readable)) :=
    (List.sublist_append_right _ _).filter _
  have hnodup : ((L.active.filter (·.readable)).map (·.seq)).Nodup :=
    List.pairwise_map.mpr ((List.Pairwise.sublist hsub hs).imp Nat.ne_of_lt)
  have hrange : (L.active.filter (·.readable)).map (·.seq) ⊆ List.range' 1 usizeMax := by
    intro n hn
    obtain ⟨e, he, rfl⟩ := List.mem_map.mp hn
    obtain ⟨he, hread⟩ := List.mem_filter.mp he
    have hlt := (AuditEntry.readable_iff.mp hread).2
    have hge := hpos e (List.mem_append_right _ he)
    rw [List.mem_range'_1, usizeMax]
    omega
  have hle := (List.subperm_of_subset hnodup hrange).length_le
  rwa [List.length_map, List.length_range'] at hle

/-- What `load_entries` reaches: the readable entries of the active file. -/
theorem Complete.loadEntries_eq {s : Sys} {L : Layout} (h : Complete X s L) (f : ExportFilter) :
    loadEntries X s.disk f = some ((L.active.filter (·.readable)).filter f.passes) := by
  obtain ⟨i, hi, -⟩ := h.holds.log
  have hpos : ∀ e ∈ L.entries, 0 < e.seq := fun e he => h.seq_pos (h.sublist.subset he)
  have hdrop : (L.active.filter (·.readable)).length - usizeMax = 0 :=
    Nat.sub_eq_zero_of_le (length_readable_le h.sorted hpos)
  rw [loadEntries, readRecent, hi]
  simp only [h.holds.readLog, Option.map_some, entriesIn_logText, hdrop, List.drop_zero]

/-- Everything that passes was loaded exactly when it is in the active file and reads
    back. -/
theorem Complete.loaded_eq_iff {s : Sys} {L : Layout} (h : Complete X s L) (f : ExportFilter) :
    (L.active.filter (·.readable)).filter f.passes = s.written.filter f.passes ↔
      ∀ e ∈ s.written, f.passes e = true →
        e.readable = true ∧ e.toText X ∈ contentLines (s.disk.readLog.getD []) := by
  have hlines : contentLines (s.disk.readLog.getD []) = L.active.map (·.toText X) := by
    rw [h.holds.readLog, Option.getD_some, contentLines_logText]
  rw [hlines]
  constructor
  · intro heq e he hpass
    -- An entry that the report has is in the active file, on a line that reads back.
    have hmem : e ∈ (L.active.filter (·.readable)).filter f.passes := by
      rw [heq]
      exact List.mem_filter.mpr ⟨he, hpass⟩
    obtain ⟨hmem, -⟩ := List.mem_filter.mp hmem
    obtain ⟨hmem, hread⟩ := List.mem_filter.mp hmem
    exact ⟨hread, List.mem_map_of_mem hmem⟩
  · intro hall
    -- An entry of a segment has no line in the active file.
    have harch : L.archived.filter f.passes = [] := by
      rw [List.filter_eq_nil_iff]
      intro e he hpass
      have hwritten : e ∈ s.written := h.sublist.subset (List.mem_append_left _ he)
      obtain ⟨g, hg, htext⟩ := List.mem_map.mp (hall e hwritten hpass).2
      have hlt := (List.pairwise_append.mp h.ordered).2.2 e he g hg
      have hseq := seq_eq_of_toText_eq htext
      omega
    -- All that pass are readable, so nothing is left out of the active file.
    have hact : (L.active.filter (·.readable)).filter f.passes = L.active.filter f.passes := by
      rw [List.filter_filter]
      refine List.filter_congr fun e he => ?_
      have hwritten : e ∈ s.written := h.sublist.subset (List.mem_append_right _ he)
      rcases hpass : f.passes e with - | -
      · rfl
      · rw [(hall e hwritten hpass).1]
        rfl
    rw [hact, ← h.entries_eq, Layout.entries, List.filter_append, harch, List.nil_append]

/-- **Completeness of reports.**  Over everything that was appended, a report has one
    record for each entry that passes the filter, in order, exactly when each of them
    reads back and is in the active file. -/
theorem export_complete_iff (rand : RandomKey) (ops : List Op)
    (hops : Run.Along (Sys.step X) Recording (freshSys rand) ops) :
    ∃ s, Sys.run X (freshSys rand) ops = some s ∧
      stored X s.disk = s.written.map (·.toText X) ∧ s.written.Pairwise (·.seq < ·.seq) ∧
      ∀ p ∈ exporters X, ∀ f : ExportFilter,
        (p.2 s.disk f = some (p.1.report (s.written.filter f.passes)) ↔
          ∀ e ∈ s.written, f.passes e = true →
            e.readable = true ∧ e.toText X ∈ contentLines (s.disk.readLog.getD [])) := by
  obtain ⟨s, hs, L, h⟩ := complete_run (X := X) rand hops
  refine ⟨s, hs, ?_, h.chained.pairwise, ?_⟩
  · rw [h.holds.stored_eq, h.entries_eq]
  · intro p hp f
    obtain ⟨hexport, hne⟩ := exporters_spec X p hp
    rw [hexport, exportAs, h.loadEntries_eq, Option.map_some, Option.some.injEq, Format.report,
      Format.report, List.append_cancel_left_eq, ← h.loaded_eq_iff]
    constructor
    · intro heq
      refine eq_of_flatMap_eq hne ?_ heq
      refine List.Sublist.filter _ (List.filter_sublist.trans ?_)
      rw [← h.entries_eq]
      exact List.sublist_append_right _ _
    · intro heq
      rw [heq]

theorem export_complete_restart :
    ∃ s, Sys.run External.sample (freshSys zeroKey) restartOnce = some s ∧
      stored External.sample s.disk = s.written.map (·.toText External.sample) ∧
      s.written.Pairwise (·.seq < ·.seq) ∧
      ∀ p ∈ exporters External.sample, ∀ f : ExportFilter,
        (p.2 s.disk f = some (p.1.report (s.written.filter f.passes)) ↔
          ∀ e ∈ s.written, f.passes e = true → e.readable = true ∧
            e.toText External.sample ∈ contentLines (s.disk.readLog.getD [])) :=
  export_complete_iff zeroKey restartOnce recording_restartOnce

/-- After a rotation that had something to seal the active file is empty. -/
theorem Complete.step_rotate_due {s : Sys} {L : Layout} (h : Complete X s L)
    {cfg : RotateConfig} {clk : RotateClock} {due : Text × Summary} (hcfg : cfg.enabled = true)
    (hdue : rotateDue X s.disk s.log cfg clk.age = some (some due)) :
    ∃ s' L', Sys.step X s (.maybeRotate cfg clk) = some s' ∧ Complete X s' L' ∧
      s'.written = s.written ∧ L'.active = [] := by
  obtain ⟨r, disk, log, L', hrot, hinv, hentries, hatt, hnil⟩ := h.rotateLocked cfg clk
  have hr : r.isSome = true := by
    rw [rotateLocked, hdue, Option.map_some] at hrot
    obtain ⟨rfl, -⟩ := Prod.mk.inj (Option.some.inj hrot)
    rfl
  refine ⟨{ s with disk, log }, L', ?_, ⟨hinv, hatt h.attached, ?_⟩, rfl, hnil hr⟩
  · rw [Sys.step, maybeRotate, hcfg]
    simp [hrot]
  · rw [hentries, h.entries_eq]

def everything : ExportFilter where
  workspace := none
  tsFrom := none
  tsTo := none

/-- One entry that was rotated away: it is stored, and no report has a record. -/
theorem export_misses_sealed_entry :
    ∃ s e, Sys.run External.sample (freshSys zeroKey)
        [.append (stopAt 0) newYearClock, .maybeRotate anySize newYearClock] = some s ∧
      stored External.sample s.disk = [e.toText External.sample] ∧ everything.passes e = true ∧
      ∀ p ∈ exporters External.sample,
        p.2 s.disk everything = some p.1.header ∧ p.1.record e ≠ [] := by
  have h := complete_firstLayout (X := External.sample) zeroKey (stopAt 0)
  obtain ⟨due, hdue⟩ :=
    rotateDue_firstLayout (X := External.sample) zeroKey 0 newYearClock.age
  obtain ⟨s, L, hs, hcomplete, hwritten, hnil⟩ :=
    h.step_rotate_due rfl hdue
  refine ⟨s, nextEntry External.sample (freshLog zeroKey) (stopAt 0), ?_, ?_, rfl, ?_⟩
  · rw [Sys.run, Run.run_cons (step_append_freshSys ..), Run.run_cons hs]
    rfl
  · rw [hcomplete.holds.stored_eq, hcomplete.entries_eq, hwritten]
    rfl
  · intro p hp
    obtain ⟨hexport, hne⟩ := exporters_spec External.sample p hp
    refine ⟨?_, hne _⟩
    rw [hexport, exportAs, hcomplete.loadEntries_eq, hnil, List.filter_nil, List.filter_nil,
      Option.map_some, Format.report, List.flatMap_nil, List.append_nil]

end Maranode.Audit
