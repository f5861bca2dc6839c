/-
  Maranode.Audit.CsvReports

  What an auditor reads in the four CSV reports.

  `csv_escape` quotes a field for a comma, a quote or a line feed, but not for a
  carriage return.  A report has one record for each entry, with the entry's actor,
  kind and detail, exactly when no carriage return stands alone in an actor, nor, in
  the HIPAA report, in the hash it copies from the event (`csv_readsBack_iff`).  A detail of
  the other three is JSON, which has none.
-/
import Maranode.Audit.EventValues
import Maranode.Lib.Csv

namespace Maranode.Audit

open Lib Lib.Json Common

/-! ## Escaping -/

theorem replaceChar_quote (s : Text) :
    replaceChar quote [quote, quote] s =
      s.flatMap fun c => if c = Csv.quoteMark then [c, c] else [c] := by
  refine congrArg (fun f => s.flatMap f) (funext fun c => ?_)
  by_cases hc : c = quote
  · rw [hc]
    rfl
  · exact (if_neg hc).trans (if_neg hc).symm

theorem csvEscape_of_special {s : Text} (h : ',' ∈ s ∨ quote ∈ s ∨ '\n' ∈ s) :
    csvEscape s = Csv.quoted s := by
  rw [csvEscape, if_pos h, replaceChar_quote, Csv.quoted]
  rfl

theorem csvEscape_of_bare {s : Text} (h : Csv.Bare s) : csvEscape s = s := by
  rw [csvEscape, if_neg]
  rintro (hc | hc | hc)
  · exact h.1 hc
  · exact h.2.1 hc
  · exact h.2.2 hc

theorem isEscape_csvEscape : Csv.IsEscape csvEscape := by
  intro s
  by_cases h : ',' ∈ s ∨ quote ∈ s ∨ '\n' ∈ s
  · exact Or.inl (csvEscape_of_special h)
  · have hbare : Csv.Bare s :=
      ⟨fun hc => h (Or.inl hc), fun hc => h (Or.inr (Or.inl hc)),
        fun hc => h (Or.inr (Or.inr hc))⟩
    exact Or.inr ⟨csvEscape_of_bare hbare, hbare⟩

/-- A carriage return in it comes with something `csv_escape` looks for. -/
def NoLoneReturn (s : Text) : Prop := '\r' ∈ s → ',' ∈ s ∨ quote ∈ s ∨ '\n' ∈ s

instance (s : Text) : Decidable (NoLoneReturn s) := inferInstanceAs (Decidable (_ → _))

theorem unbroken_iff {s : Text} : Csv.Unbroken csvEscape s ↔ NoLoneReturn s := by
  constructor
  · intro h hcr
    by_contra hno
    have hself : csvEscape s = s := by rw [csvEscape, if_neg hno]
    exact Csv.quoted_ne s ((h hcr).symm.trans hself)
  · intro h hcr
    exact csvEscape_of_special (h hcr)

theorem noLoneReturn_of_notMem {s : Text} (h : '\r' ∉ s) : NoLoneReturn s :=
  fun hcr => absurd hcr h

theorem noLoneReturn_of_printable {s : Text} (h : Printable s) : NoLoneReturn s :=
  noLoneReturn_of_notMem fun hcr => absurd (h _ hcr) (by decide)

/-- Something in front that `csv_escape` does not look for. -/
theorem noLoneReturn_append {s t : Text} (hs : Csv.Bare s) (hcr : '\r' ∉ s) :
    NoLoneReturn (s ++ t) ↔ NoLoneReturn t := by
  have hmem : ∀ c, c ∉ s → (c ∈ s ++ t ↔ c ∈ t) := fun c hc => by
    rw [List.mem_append, or_iff_right hc]
  rw [NoLoneReturn, NoLoneReturn, hmem _ hcr, hmem _ hs.1, hmem quote hs.2.1, hmem _ hs.2.2]

/-- Written without escaping and read as it stands. -/
def Plain (s : Text) : Prop := Csv.Bare s ∧ '\r' ∉ s

instance (s : Text) : Decidable (Plain s) := inferInstanceAs (Decidable (_ ∧ _))

theorem Plain.csvEscape {s : Text} (h : Plain s) : csvEscape s = s := csvEscape_of_bare h.1

theorem Plain.noLoneReturn {s : Text} (h : Plain s) : NoLoneReturn s :=
  noLoneReturn_of_notMem h.2

theorem plain_of_isTimeChar {s : Text} (h : ∀ c ∈ s, isTimeChar c = true) : Plain s :=
  ⟨⟨notMem_of_isTimeChar h (by decide), notMem_of_isTimeChar h (by decide),
    notMem_of_isTimeChar h (by decide)⟩, notMem_of_isTimeChar h (by decide)⟩

theorem plain_natText (n : Nat) : Plain (natText n) :=
  plain_of_isTimeChar fun _ => isTimeChar_of_mem_natText

theorem plain_soc2Category (k : EventKind) : Plain (soc2Category k.tag).toList := by
  cases k <;> decide

theorem plain_iso27001Control (k : EventKind) :
    Plain (iso27001Control k.tag).1.toList ∧ Plain (iso27001Control k.tag).2.toList := by
  cases k <;> decide

/-! ## Reading a report -/

/-- A report by its columns: what they are called and what its detail is. -/
structure CsvReport where
  format : Format
  columns : List String
  kindColumn : String
  detailColumn : String
  detail : AuditEntry → Text
  /-- The string of the event that the detail has as it is, without JSON's escapes. -/
  copied : AuditEvent → Option String

namespace CsvReport

/-- The field of a record in the column of a name. -/
def cell (t : CsvReport) (name : String) (record : List Text) : Option Text :=
  (t.columns.zip record).lookup name

/-- The record of an entry: a field for each column, and the three that matter as they
    were before they were escaped. -/
structure IsRecordOf (t : CsvReport) (e : AuditEntry) (record : List Text) : Prop where
  width : record.length = t.columns.length
  actor : t.cell "actor" record = some e.actor.toList
  kind : t.cell t.kindColumn record = some e.event.kind.tag.toList
  detail : t.cell t.detailColumn record = some (t.detail e)

/-- A reader finds the header and then the record of each entry. -/
def ReadsBack (t : CsvReport) (es : List AuditEntry) : Prop :=
  ∃ records, Csv.read (t.format.report es) = t.columns.map String.toList :: records ∧
    List.Forall₂ t.IsRecordOf es records

/-- How a report is written: `cols` are an entry's fields before they are escaped. -/
structure Writes (t : CsvReport) (cols : AuditEntry → List Text) : Prop where
  header : t.format.header = csvRow ((t.columns.map String.toList).map csvEscape)
  columns : t.columns ≠ [] ∧ ∀ name ∈ t.columns, Plain name.toList
  record : ∀ e, t.format.record e = csvRow ((cols e).map csvEscape)
  isRecord : ∀ e, t.IsRecordOf e (cols e)
  ends : ∀ e, Csv.EndsUnbroken csvEscape (cols e)

variable {t : CsvReport} {cols : AuditEntry → List Text}

theorem Writes.report_eq (h : t.Writes cols) (es : List AuditEntry) :
    t.format.report es = Csv.write csvEscape (t.columns.map String.toList :: es.map cols) := by
  have hrecords : es.flatMap t.format.record = Csv.write csvEscape (es.map cols) := by
    rw [Csv.write, List.flatMap_map]
    exact congrArg (fun f => es.flatMap f) (funext fun e => h.record e)
  rw [Format.report, h.header, hrecords, Csv.write, Csv.write, List.flatMap_cons]
  rfl

theorem Writes.columns_unbroken (h : t.Writes cols) :
    ∀ f ∈ t.columns.map String.toList, Csv.Unbroken csvEscape f := by
  intro f hf
  obtain ⟨name, hname, rfl⟩ := List.mem_map.mp hf
  exact unbroken_iff.mpr (h.columns.2 name hname).noLoneReturn

theorem Writes.columns_ends (h : t.Writes cols) :
    Csv.EndsUnbroken csvEscape (t.columns.map String.toList) := by
  have hne : t.columns.map String.toList ≠ [] := List.map_eq_nil_iff.not.mpr h.columns.1
  exact ⟨_, _, (List.dropLast_concat_getLast hne).symm,
    h.columns_unbroken _ (List.getLast_mem hne)⟩

/-- **Reading a report back.**  It works exactly when no field of a record has a lone
    carriage return: with one there would be too many records. -/
theorem Writes.readsBack_iff (h : t.Writes cols) (es : List AuditEntry) :
    t.ReadsBack es ↔ ∀ e ∈ es, ∀ f ∈ cols e, NoLoneReturn f := by
  have hends : ∀ r ∈ t.columns.map String.toList :: es.map cols, Csv.EndsUnbroken csvEscape r := by
    exact List.forall_mem_cons.mpr ⟨h.columns_ends, List.forall_mem_map.mpr fun e _ => h.ends e⟩
  constructor
  · rintro ⟨records, hread, hrecords⟩
    have hlen : (Csv.read (t.format.report es)).length =
        (t.columns.map String.toList :: es.map cols).length := by
      rw [hread, List.length_cons, List.length_cons, ← hrecords.length_eq, List.length_map]
    rw [h.report_eq] at hlen
    have hall := (Csv.length_read_write_iff isEscape_csvEscape hends).mp hlen
    intro e he f hf
    exact unbroken_iff.mp (hall (cols e) (List.mem_cons_of_mem _ (List.mem_map_of_mem he)) f hf)
  · intro hall
    refine ⟨es.map cols, ?_, ?_⟩
    · rw [h.report_eq]
      refine Csv.read_write isEscape_csvEscape ?_
      refine List.forall_mem_cons.mpr ⟨⟨List.map_eq_nil_iff.not.mpr h.columns.1,
        h.columns_unbroken⟩, List.forall_mem_map.mpr fun e he => ?_⟩
      obtain ⟨before, last, heq, -⟩ := h.ends e
      refine ⟨?_, fun f hf => unbroken_iff.mpr (hall e he f hf)⟩
      rw [heq]
      exact List.append_ne_nil_of_right_ne_nil _ (List.cons_ne_nil _ _)
    · exact List.forall₂_map_right_iff.mpr (List.forall₂_same.mpr fun e _ => h.isRecord e)

end CsvReport

/-! ## The four reports -/

def gdprColumns : List String :=
  ["timestamp", "seq", "actor", "activity", "detail"]

def hipaaColumns : List String :=
  ["timestamp", "seq", "actor", "event_type", "access_detail", "phi_indicator"]

def soc2Columns : List String :=
  ["timestamp", "seq", "actor", "category", "event_type", "detail"]

def iso27001Columns : List String :=
  ["timestamp", "seq", "actor", "control", "event_type", "outcome", "detail"]

variable (X : External)

def gdprReport : CsvReport where
  format := gdpr X
  columns := gdprColumns
  kindColumn := "activity"
  detailColumn := "detail"
  detail e := eventDetail (eventValue X e)
  copied _ := none

def hipaaReport : CsvReport where
  format := hipaa X
  columns := hipaaColumns
  kindColumn := "event_type"
  detailColumn := "access_detail"
  detail e := hipaaDetail (eventValue X e) e.event.kind.tag
  copied
    | .inferenceStart _ _ promptSha256 _ _ => some promptSha256
    | .ragRetrieval _ querySha256 _ => some querySha256
    | _ => none

def soc2Report : CsvReport where
  format := soc2 X
  columns := soc2Columns
  kindColumn := "event_type"
  detailColumn := "detail"
  detail e := eventDetail (eventValue X e)
  copied _ := none

def iso27001Report : CsvReport where
  format := iso27001 X
  columns := iso27001Columns
  kindColumn := "event_type"
  detailColumn := "detail"
  detail e := eventDetail (eventValue X e)
  copied _ := none

def csvReports : List CsvReport := [gdprReport X, hipaaReport X, soc2Report X, iso27001Report X]

/-- The fields every record begins with. -/
def leading (e : AuditEntry) : List Text :=
  [(X.toRfc3339 e.ts).toList, natText e.seq, e.actor.toList]

def gdprFields (e : AuditEntry) : List Text :=
  leading X e ++ [e.event.kind.tag.toList, eventDetail (eventValue X e)]

def hipaaFields (e : AuditEntry) : List Text :=
  leading X e ++ [e.event.kind.tag.toList, hipaaDetail (eventValue X e) e.event.kind.tag,
    if hipaaPhi e.event.kind.tag then "yes".toList else "no".toList]

def soc2Fields (e : AuditEntry) : List Text :=
  leading X e ++ [(soc2Category e.event.kind.tag).toList, e.event.kind.tag.toList,
    eventDetail (eventValue X e)]

def iso27001Fields (e : AuditEntry) : List Text :=
  leading X e ++ [(iso27001Control e.event.kind.tag).1.toList, e.event.kind.tag.toList,
    (iso27001Control e.event.kind.tag).2.toList, eventDetail (eventValue X e)]

theorem plain_phi (k : EventKind) :
    Plain (if hipaaPhi k.tag then "yes".toList else "no".toList) := by
  split_ifs <;> decide

variable {X}

theorem plain_timestamp (h : X.WritesRfc3339) (t : DateTime) : Plain (X.toRfc3339 t).toList :=
  plain_of_isTimeChar (h t)

theorem noLoneReturn_tag (k : EventKind) : NoLoneReturn k.tag.toList :=
  noLoneReturn_of_printable (printable_tag k)

theorem noLoneReturn_eventDetail (e : AuditEntry) :
    NoLoneReturn (eventDetail (eventValue X e)) :=
  noLoneReturn_of_printable (printable_eventDetail X e)

theorem endsUnbroken (before : List Text) {last : Text} (h : NoLoneReturn last) :
    Csv.EndsUnbroken csvEscape (before ++ [last]) := ⟨before, last, rfl, unbroken_iff.mpr h⟩

theorem hipaaDetail_inferenceStart (ev : Value) :
    hipaaDetail ev "inference_start" = ((asStr (index ev "prompt_sha256")).map fun s =>
      "prompt_sha256=".toList ++ s.toList).getD [] := rfl

theorem hipaaDetail_ragRetrieval (ev : Value) :
    hipaaDetail ev "rag_retrieval" = ((asStr (index ev "query_sha256")).map fun s =>
      "query_sha256=".toList ++ s.toList).getD [] := rfl

/-- Numbers only, or nothing. -/
theorem return_notMem_hipaaDetail (ev : Value) {kind : String}
    (hstart : kind ≠ EventKind.inferenceStart.tag) (hrag : kind ≠ EventKind.ragRetrieval.tag) :
    '\r' ∉ hipaaDetail ev kind := by
  unfold hipaaDetail
  split
  · exact absurd rfl hstart
  · simp only [List.mem_append, not_or]
    exact ⟨⟨⟨by decide, (plain_natText _).2⟩, by decide⟩, (plain_natText _).2⟩
  · exact absurd rfl hrag
  · exact List.not_mem_nil

theorem tag_injective : Function.Injective EventKind.tag := by
  intro k k' h
  have htag := EventKind.ofTag_tag k
  rw [h, EventKind.ofTag_tag] at htag
  exact (Option.some.inj htag).symm

/-- What the HIPAA report says of the access is a hash of the event, or has no control
    character. -/
theorem noLoneReturn_hipaaDetail_iff (e : AuditEntry) :
    NoLoneReturn (hipaaDetail (eventValue X e) e.event.kind.tag) ↔
      ∀ s ∈ (hipaaReport X).copied e.event, NoLoneReturn s.toList := by
  rcases hevent : e.event with - | - | - | - | - | ⟨requestId, model, promptSha256⟩ |
    - | - | - | - | ⟨collection, querySha256⟩
  case inferenceStart =>
    have hindex : asStr (index (eventValue X e) "prompt_sha256") = some promptSha256 := by
      rw [index_eventValue_of_ne X e (by decide), hevent]
      rfl
    change NoLoneReturn (hipaaDetail (eventValue X e) "inference_start") ↔
      ∀ s ∈ some promptSha256, NoLoneReturn s.toList
    rw [hipaaDetail_inferenceStart, hindex, Option.map_some, Option.getD_some,
      noLoneReturn_append (by decide) (by decide)]
    simp only [Option.mem_some_iff, forall_eq']
  case ragRetrieval =>
    have hindex : asStr (index (eventValue X e) "query_sha256") = some querySha256 := by
      rw [index_eventValue_of_ne X e (by decide), hevent]
      rfl
    change NoLoneReturn (hipaaDetail (eventValue X e) "rag_retrieval") ↔
      ∀ s ∈ some querySha256, NoLoneReturn s.toList
    rw [hipaaDetail_ragRetrieval, hindex, Option.map_some, Option.getD_some,
      noLoneReturn_append (by decide) (by decide)]
    simp only [Option.mem_some_iff, forall_eq']
  all_goals
    refine iff_of_true (noLoneReturn_of_notMem ?_) fun s hs => absurd hs (Option.not_mem_none s)
    refine return_notMem_hipaaDetail _ (tag_injective.ne ?_) (tag_injective.ne ?_) <;>
      simp only [AuditEvent.kind] <;> decide

theorem writes_gdpr (h : X.WritesRfc3339) : (gdprReport X).Writes (gdprFields X) where
  header := by
    change "timestamp,seq,actor,activity,detail\n".toList =
      csvRow ((gdprColumns.map String.toList).map csvEscape)
    decide
  columns := by
    change gdprColumns ≠ [] ∧ ∀ name ∈ gdprColumns, Plain name.toList
    decide
  record e := by
    change gdprRecord X e = _
    rw [gdprRecord, eventKind_eventValue, gdprFields, leading]
    simp only [List.cons_append, List.nil_append, List.map_cons, List.map_nil,
      (plain_timestamp h e.ts).csvEscape, (plain_natText e.seq).csvEscape]
  isRecord e := ⟨rfl, rfl, rfl, rfl⟩
  ends e := endsUnbroken (leading X e ++ [_]) (noLoneReturn_eventDetail e)

theorem writes_hipaa (h : X.WritesRfc3339) : (hipaaReport X).Writes (hipaaFields X) where
  header := by
    change "timestamp,seq,actor,event_type,access_detail,phi_indicator\n".toList =
      csvRow ((hipaaColumns.map String.toList).map csvEscape)
    decide
  columns := by
    change hipaaColumns ≠ [] ∧ ∀ name ∈ hipaaColumns, Plain name.toList
    decide
  record e := by
    change hipaaRecord X e = _
    rw [hipaaRecord, eventKind_eventValue, hipaaFields, leading]
    simp only [List.cons_append, List.nil_append, List.map_cons, List.map_nil,
      (plain_timestamp h e.ts).csvEscape, (plain_natText e.seq).csvEscape,
      (plain_phi e.event.kind).csvEscape]
  isRecord e := ⟨rfl, rfl, rfl, rfl⟩
  ends e := endsUnbroken (leading X e ++ [_, _]) (plain_phi e.event.kind).noLoneReturn

theorem writes_soc2 (h : X.WritesRfc3339) : (soc2Report X).Writes (soc2Fields X) where
  header := by
    change "timestamp,seq,actor,category,event_type,detail\n".toList =
      csvRow ((soc2Columns.map String.toList).map csvEscape)
    decide
  columns := by
    change soc2Columns ≠ [] ∧ ∀ name ∈ soc2Columns, Plain name.toList
    decide
  record e := by
    change soc2Record X e = _
    rw [soc2Record, eventKind_eventValue, soc2Fields, leading]
    simp only [List.cons_append, List.nil_append, List.map_cons, List.map_nil,
      (plain_timestamp h e.ts).csvEscape, (plain_natText e.seq).csvEscape,
      (plain_soc2Category e.event.kind).csvEscape]
  isRecord e := ⟨rfl, rfl, rfl, rfl⟩
  ends e := endsUnbroken (leading X e ++ [_, _]) (noLoneReturn_eventDetail e)

theorem writes_iso27001 (h : X.WritesRfc3339) :
    (iso27001Report X).Writes (iso27001Fields X) where
  header := by
    change "timestamp,seq,actor,control,event_type,outcome,detail\n".toList =
      csvRow ((iso27001Columns.map String.toList).map csvEscape)
    decide
  columns := by
    change iso27001Columns ≠ [] ∧ ∀ name ∈ iso27001Columns, Plain name.toList
    decide
  record e := by
    change iso27001Record X e = _
    rw [iso27001Record, eventKind_eventValue, iso27001Fields, leading]
    simp only [List.cons_append, List.nil_append, List.map_cons, List.map_nil,
      (plain_timestamp h e.ts).csvEscape, (plain_natText e.seq).csvEscape,
      (plain_iso27001Control e.event.kind).1.csvEscape,
      (plain_iso27001Control e.event.kind).2.csvEscape]
  isRecord e := ⟨rfl, rfl, rfl, rfl⟩
  ends e := endsUnbroken (leading X e ++ [_, _, _]) (noLoneReturn_eventDetail e)

/-! ## What can be read back -/

/-- Of the fields every record begins with, only the actor can break it. -/
theorem forall_mem_leading (h : X.WritesRfc3339) (e : AuditEntry) (fs : List Text) :
    (∀ f ∈ leading X e ++ fs, NoLoneReturn f) ↔
      NoLoneReturn e.actor.toList ∧ ∀ f ∈ fs, NoLoneReturn f := by
  rw [leading, List.cons_append, List.cons_append, List.cons_append, List.nil_append,
    List.forall_mem_cons, List.forall_mem_cons, List.forall_mem_cons]
  exact ⟨fun hall => hall.2.2, fun hall =>
    ⟨(plain_timestamp h e.ts).noLoneReturn, (plain_natText e.seq).noLoneReturn, hall⟩⟩

/-- **Reports that read back.**  A report is the header and a record for each entry, to
    a reader, exactly when every carriage return in an actor, and in the hash that the
    HIPAA report copies, comes with something that is quoted. -/
theorem csv_readsBack_iff (h : X.WritesRfc3339) (es : List AuditEntry) :
    ∀ t ∈ csvReports X, (t.ReadsBack es ↔
      ∀ e ∈ es, NoLoneReturn e.actor.toList ∧ ∀ s ∈ t.copied e.event, NoLoneReturn s.toList) := by
  have hnone : ∀ s ∈ (none : Option String), NoLoneReturn s.toList :=
    fun s hs => absurd hs (Option.not_mem_none s)
  -- Report by report: of the columns only the actor and what is copied can break a line.
  simp only [csvReports, List.forall_mem_cons, List.not_mem_nil, false_imp_iff, implies_true,
    and_true]
  refine ⟨?_, ?_, ?_, ?_⟩
  · rw [(writes_gdpr h).readsBack_iff]
    refine forall₂_congr fun e _ => (forall_mem_leading h e _).trans (and_congr_right' ?_)
    refine iff_of_true (List.forall_mem_cons.mpr ⟨noLoneReturn_tag e.event.kind, ?_⟩) hnone
    exact List.forall_mem_singleton.mpr (noLoneReturn_eventDetail e)
  · rw [(writes_hipaa h).readsBack_iff]
    refine forall₂_congr fun e _ => (forall_mem_leading h e _).trans (and_congr_right' ?_)
    rw [← noLoneReturn_hipaaDetail_iff]
    simp only [List.forall_mem_cons, noLoneReturn_tag, (plain_phi e.event.kind).noLoneReturn,
      List.not_mem_nil, false_imp_iff, implies_true, and_true, true_and]
  · rw [(writes_soc2 h).readsBack_iff]
    refine forall₂_congr fun e _ => (forall_mem_leading h e _).trans (and_congr_right' ?_)
    refine iff_of_true ?_ hnone
    simp only [List.forall_mem_cons, noLoneReturn_tag, noLoneReturn_eventDetail,
      (plain_soc2Category e.event.kind).noLoneReturn,
      List.not_mem_nil, false_imp_iff, implies_true, and_true]
  · rw [(writes_iso27001 h).readsBack_iff]
    refine forall₂_congr fun e _ => (forall_mem_leading h e _).trans (and_congr_right' ?_)
    refine iff_of_true ?_ hnone
    simp only [List.forall_mem_cons, noLoneReturn_tag, noLoneReturn_eventDetail,
      (plain_iso27001Control e.event.kind).1.noLoneReturn,
      (plain_iso27001Control e.event.kind).2.noLoneReturn,
      List.not_mem_nil, false_imp_iff, implies_true, and_true]

/-- An entry whose actor is the given text. -/
def stopOf (actor : String) : AuditEntry where
  ts := newYear
  seq := 1
  actor := actor
  event := .daemonStop "shutdown"
  prevHmac := ""
  hmac := ""

theorem readsBack_comma :
    (hipaaReport External.sample).ReadsBack [stopOf "a,\r"] ↔
      ∀ e ∈ [stopOf "a,\r"], NoLoneReturn e.actor.toList ∧
        ∀ s ∈ (hipaaReport External.sample).copied e.event, NoLoneReturn s.toList :=
  csv_readsBack_iff writesRfc3339_sample [stopOf "a,\r"] _
    (List.mem_cons_of_mem _ List.mem_cons_self)

/-- A carriage return in an actor breaks all four. -/
theorem not_readsBack_return :
    ¬ (gdprReport External.sample).ReadsBack [stopOf "a\rb"] ∧
      ¬ (hipaaReport External.sample).ReadsBack [stopOf "a\rb"] ∧
      ¬ (soc2Report External.sample).ReadsBack [stopOf "a\rb"] ∧
      ¬ (iso27001Report External.sample).ReadsBack [stopOf "a\rb"] := by
  have hlone : ¬ NoLoneReturn (stopOf "a\rb").actor.toList := by decide
  have hactor : (stopOf "a\rb").actor.toList ∈ leading External.sample (stopOf "a\rb") :=
    List.mem_cons_of_mem _ (List.mem_cons_of_mem _ List.mem_cons_self)
  refine ⟨fun hread => hlone ?_, fun hread => hlone ?_, fun hread => hlone ?_,
    fun hread => hlone ?_⟩
  · exact ((writes_gdpr writesRfc3339_sample).readsBack_iff _).mp hread _ List.mem_cons_self _
      (List.mem_append_left _ hactor)
  · exact ((writes_hipaa writesRfc3339_sample).readsBack_iff _).mp hread _ List.mem_cons_self _
      (List.mem_append_left _ hactor)
  · exact ((writes_soc2 writesRfc3339_sample).readsBack_iff _).mp hread _ List.mem_cons_self _
      (List.mem_append_left _ hactor)
  · exact ((writes_iso27001 writesRfc3339_sample).readsBack_iff _).mp hread _ List.mem_cons_self _
      (List.mem_append_left _ hactor)

end Maranode.Audit
