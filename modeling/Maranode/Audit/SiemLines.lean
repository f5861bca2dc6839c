/-
  Maranode.Audit.SiemLines

  What a SIEM reads in the CEF and the LEEF report.

  The values are escaped well enough: a reader finds the keys that were written and no
  other, whatever stands in an actor or an event.  But a CEF record ends with a backslash
  and an `n` where its line feed should be, so all of them are one line
  (`siem_readsBack_iff`), and `audit forward` sends them as one message.
-/
import Maranode.Audit.EventValues
import Maranode.Lib.Attributes

namespace Maranode.Audit

open Lib Lib.Json Lib.Attributes Common

/-! ## Reading -/

/-- The extension of a CEF line follows seven fields. -/
def cefKeys (line : Text) : List Text := keysOf ((dropField '|')^[7] line)

/-- The attributes of a LEEF line follow five. -/
def leefKeys (line : Text) : List Text := tabKeysOf ((dropField '|')^[5] line)

/-- `forward_syslog`: a message for each line that is not blank, `stamps` being what the
    clock says then. -/
def forwardSyslog (stamps : Nat → Text) (hostname : Text) (body : Text) : List Text :=
  ((Text.lines body).filter fun l => !Text.isBlank l).mapIdx fun n l =>
    "<14>1 ".toList ++ stamps n ++ ' ' :: hostname ++ " maranode - - - ".toList ++ l ++ ['\n']

/-! ## Values -/

/-- `cef_val`, a character at a time. -/
def cefChar (c : Char) : Text :=
  if c = '\\' then ['\\', '\\']
  else if c = '=' then ['\\', '=']
  else if c = '\n' then ['\\', 'n']
  else [c]

theorem cefVal_eq (s : Text) : cefVal s = s.flatMap cefChar := by
  rw [cefVal, replaceChar, replaceChar, replaceChar, List.flatMap_assoc, List.flatMap_assoc]
  refine congrArg (fun f => s.flatMap f) (funext fun c => ?_)
  rw [cefChar]
  split_ifs with hback heq hnewline
  · rfl
  · subst heq
    rfl
  · subst hnewline
    rfl
  · rw [List.flatMap_singleton, if_neg heq, List.flatMap_singleton, if_neg hnewline]

theorem escaped_cefVal (s : Text) : Escaped '=' (cefVal s) := by
  rw [cefVal_eq]
  refine escaped_flatMap fun c _ => ?_
  rw [cefChar]
  split_ifs with hback heq hnewline
  · exact escaped_escape '\\'
  · exact escaped_escape '='
  · exact escaped_escape 'n'
  · exact escaped_singleton heq hback

theorem newline_notMem_cefVal (s : Text) : '\n' ∉ cefVal s := by
  rw [cefVal_eq]
  intro h
  obtain ⟨c, -, hc⟩ := List.mem_flatMap.mp h
  rw [cefChar] at hc
  split_ifs at hc with hback heq hnewline
  · revert hc
    decide
  · revert hc
    decide
  · revert hc
    decide
  · exact hnewline (List.mem_singleton.mp hc).symm

/-- Digits and signs need no escape. -/
theorem escaped_of_isTimeChar {s : Text} (h : ∀ c ∈ s, isTimeChar c = true) :
    Escaped '=' s ∧ '\n' ∉ s :=
  ⟨escaped_of_notMem (notMem_of_isTimeChar h (by decide)) (notMem_of_isTimeChar h (by decide)),
    notMem_of_isTimeChar h (by decide)⟩

theorem isTimeChar_of_mem_toString {i : Int} :
    ∀ c ∈ (toString i).toList, isTimeChar c = true := by
  have hnat : ∀ (n : Nat), ∀ c ∈ n.repr.toList, isTimeChar c = true := by
    intro n c hc
    rw [Nat.repr_eq_ofList_toDigits, String.toList_ofList] at hc
    exact isTimeChar_of_mem_natText hc
  intro c hc
  rw [Int.toString_eq_repr, Int.repr_eq_if] at hc
  split_ifs at hc
  · exact hnat _ c hc
  · rw [String.toList_append] at hc
    rcases List.mem_append.mp hc with hc | hc
    · rw [List.mem_singleton.mp hc]
      decide
    · exact hnat _ c hc

/-- Neither tabs nor line feeds are left in it. -/
theorem notMem_leefVal (s : Text) : '\t' ∉ leefVal s ∧ '\n' ∉ leefVal s := by
  have hreplace : ∀ (c d : Char) (t : Text), d ∈ replaceChar c [' '] t → d = ' ' ∨ d ∈ t := by
    intro c d t hd
    obtain ⟨x, hx, hd⟩ := List.mem_flatMap.mp hd
    split_ifs at hd with hxc
    · exact Or.inl (List.mem_singleton.mp hd)
    · exact Or.inr (List.mem_singleton.mp hd ▸ hx)
  have hself : ∀ (c : Char) (t : Text), c ≠ ' ' → c ∉ replaceChar c [' '] t := by
    intro c t hne hc
    obtain ⟨x, hx, hc⟩ := List.mem_flatMap.mp hc
    split_ifs at hc with hxc
    · exact hne (List.mem_singleton.mp hc)
    · exact hxc (List.mem_singleton.mp hc).symm
  refine ⟨fun h => ?_, hself _ _ (by decide)⟩
  rcases hreplace _ _ _ h with h | h
  · exact absurd h (by decide)
  · exact hself _ _ (by decide) h

/-! ## CEF -/

variable (X : External)

/-- What `cef_extension` joins. -/
def cefExtensionParts (ev : Value) (actor : String) (seq : Nat) : List Text :=
  ["act=".toList ++ cefVal (eventKind ev).toList, "src=".toList ++ cefVal actor.toList,
    "cn1=".toList ++ natText seq, "cn1Label=auditSeq".toList] ++ cefExtra ev (eventKind ev)

theorem cefExtension_eq (ev : Value) (actor : String) (seq : Nat) :
    cefExtension ev actor seq = [' '].intercalate (cefExtensionParts ev actor seq) := rfl

theorem cefExtensionParts_ne_nil (ev : Value) (actor : String) (seq : Nat) :
    cefExtensionParts ev actor seq ≠ [] := List.cons_ne_nil _ _

/-- The attributes of a record, the time first. -/
def cefParts (e : AuditEntry) : List Text :=
  ("rt=".toList ++ (toString (timestampMillis e.ts)).toList) ::
    cefExtensionParts (eventValue X e) e.actor e.seq

/-- A part of a CEF extension. -/
def IsCefPart (p : Text) : Prop := IsAttribute p ∧ '\n' ∉ p

theorem isCefPart_append {t v : Text} (ht : IsKeyPrefix t ∧ '\n' ∉ t)
    (hv : Escaped '=' v ∧ '\n' ∉ v) : IsCefPart (t ++ v) := by
  refine ⟨ht.1.isAttribute hv.1, fun h => ?_⟩
  rcases List.mem_append.mp h with h | h
  · exact ht.2 h
  · exact hv.2 h

theorem isCefPart_cefVal {t : Text} (ht : IsKeyPrefix t ∧ '\n' ∉ t) (s : Text) :
    IsCefPart (t ++ cefVal s) :=
  isCefPart_append ht ⟨escaped_cefVal s, newline_notMem_cefVal s⟩

/-- A label, which is written as it stands. -/
theorem isCefPart_label {t v : Text} (ht : IsKeyPrefix t ∧ '\n' ∉ t)
    (hv : '=' ∉ v ∧ '\\' ∉ v ∧ '\n' ∉ v) : IsCefPart (t ++ v) :=
  isCefPart_append ht ⟨escaped_of_notMem hv.1 hv.2.1, hv.2.2⟩

theorem isCefPart_cefExtra (ev : Value) (kind : String) :
    ∀ p ∈ cefExtra ev kind, IsCefPart p := by
  have hnil : ∀ p ∈ ([] : List Text), IsCefPart p := fun p hp => absurd hp List.not_mem_nil
  unfold cefExtra
  -- Events with up to three labelled fields share their form; the others have one or none.
  split
  case h_1 | h_2 | h_3 =>
    refine List.forall_mem_append.mpr ⟨List.forall_mem_append.mpr ⟨?_, ?_⟩, ?_⟩
    · split
      · exact List.forall_mem_singleton.mpr (isCefPart_cefVal (by decide) _)
      · exact hnil
    · split
      · exact List.forall_mem_cons.mpr ⟨isCefPart_cefVal (by decide) _,
          List.forall_mem_singleton.mpr
            (isCefPart_label (t := "cs1Label=".toList) (by decide) (by decide))⟩
      · exact hnil
    · split
      · exact List.forall_mem_cons.mpr ⟨isCefPart_cefVal (by decide) _,
          List.forall_mem_singleton.mpr
            (isCefPart_label (t := "cs2Label=".toList) (by decide) (by decide))⟩
      · exact hnil
  case h_4 =>
    refine List.forall_mem_cons.mpr ⟨isCefPart_label (by decide) ?_, List.forall_mem_cons.mpr
      ⟨isCefPart_cefVal (by decide) _, List.forall_mem_singleton.mpr
        (isCefPart_label (t := "cs3Label=".toList) (by decide) (by decide))⟩⟩
    split_ifs <;> decide
  case h_5 =>
    split
    · exact List.forall_mem_singleton.mpr (isCefPart_cefVal (by decide) _)
    · exact hnil
  case h_6 | h_7 =>
    split
    · exact List.forall_mem_singleton.mpr (isCefPart_cefVal (by decide) _)
    · exact hnil
  case h_8 => exact hnil

theorem isCefPart_cefParts (e : AuditEntry) : ∀ p ∈ cefParts X e, IsCefPart p := by
  have hseq := escaped_of_isTimeChar fun c => @isTimeChar_of_mem_natText e.seq c
  refine List.forall_mem_cons.mpr ⟨isCefPart_append (by decide)
    (escaped_of_isTimeChar isTimeChar_of_mem_toString), ?_⟩
  refine List.forall_mem_append.mpr ⟨?_, isCefPart_cefExtra _ _⟩
  refine List.forall_mem_cons.mpr ⟨isCefPart_cefVal (by decide) _, ?_⟩
  refine List.forall_mem_cons.mpr ⟨isCefPart_cefVal (by decide) _, ?_⟩
  refine List.forall_mem_cons.mpr ⟨isCefPart_append (by decide) hseq, ?_⟩
  exact List.forall_mem_singleton.mpr
    (isCefPart_label (t := "cn1Label=".toList) (by decide) (by decide))

/-- The parts, between blanks, after the fields of the header. -/
theorem cefRecord_eq (e : AuditEntry) :
    cefRecord X e =
      "CEF:0|Maranode|maranode-daemon|1.0|".toList ++
        ((cefMeta e.event.kind.tag).2.2.toList ++ '|' ::
          ((cefMeta e.event.kind.tag).2.1.toList ++ '|' ::
            (natText (cefMeta e.event.kind.tag).1 ++ '|' ::
              ([' '].intercalate (cefParts X e) ++ ['\\', 'n'])))) := by
  obtain ⟨p, ps, hparts⟩ := List.exists_cons_of_ne_nil
    (cefExtensionParts_ne_nil (eventValue X e) e.actor e.seq)
  unfold cefRecord
  simp only [eventKind_eventValue]
  generalize cefMeta e.event.kind.tag = m
  obtain ⟨severity, name, sigId⟩ := m
  simp only [cefParts, cefExtension_eq, hparts, List.intercalate_cons_cons, List.append_assoc,
    List.cons_append, List.nil_append]
  rfl

/-- Fields of a header end where they should. -/
def IsField (t : Text) : Prop := '|' ∉ t ∧ '\\' ∉ t ∧ '\n' ∉ t

instance (t : Text) : Decidable (IsField t) := inferInstanceAs (Decidable (_ ∧ _))

theorem IsField.dropField {t : Text} (h : IsField t) (rest : Text) :
    dropField '|' (t ++ '|' :: rest) = rest := dropField_append h.1 h.2.1 (by decide) rest

theorem isField_natText (n : Nat) : IsField (natText n) := by
  have hall : ∀ c ∈ natText n, isTimeChar c = true := fun _ => isTimeChar_of_mem_natText
  exact ⟨notMem_of_isTimeChar hall (by decide), notMem_of_isTimeChar hall (by decide),
    notMem_of_isTimeChar hall (by decide)⟩

theorem isField_cefMeta (k : EventKind) :
    IsField (cefMeta k.tag).2.2.toList ∧ IsField (cefMeta k.tag).2.1.toList := by
  cases k <;> decide +kernel

/-- What comes before the extension is passed over. -/
theorem dropFields_cefRecord (e : AuditEntry) :
    (dropField '|')^[7] (cefRecord X e) = [' '].intercalate (cefParts X e) ++ ['\\', 'n'] := by
  obtain ⟨hsig, hname⟩ := isField_cefMeta e.event.kind
  have hhead : ∀ rest : Text,
      (dropField '|')^[4] ("CEF:0|Maranode|maranode-daemon|1.0|".toList ++ rest) = rest :=
    fun _ => rfl
  have hsplit : ∀ t : Text, (dropField '|')^[7] t = (dropField '|')^[3] ((dropField '|')^[4] t) :=
    fun _ => rfl
  have hthree : ∀ t : Text, (dropField '|')^[3] t =
      dropField '|' (dropField '|' (dropField '|' t)) := fun _ => rfl
  rw [cefRecord_eq, hsplit, hhead, hthree, hsig.dropField, hname.dropField,
    (isField_natText _).dropField]

/-- The keys of a record are those that were written. -/
theorem cefKeys_cefRecord (e : AuditEntry) :
    cefKeys (cefRecord X e) = (cefParts X e).map keyOf := by
  rw [cefKeys, dropFields_cefRecord]
  exact keysOf_intercalate (fun p hp => (isCefPart_cefParts X e p hp).1) (List.cons_ne_nil _ _)
    (escaped_escape 'n')

/-- No record has a line feed, not even at its end. -/
theorem newline_notMem_cefRecord (e : AuditEntry) : '\n' ∉ cefRecord X e := by
  obtain ⟨hsig, hname⟩ := isField_cefMeta e.event.kind
  have hparts : '\n' ∉ [' '].intercalate (cefParts X e) := by
    intro h
    rcases mem_intercalate h with h | ⟨p, hp, h⟩
    · revert h
      decide
    · exact (isCefPart_cefParts X e p hp).2 h
  rw [cefRecord_eq]
  simp only [List.mem_append, List.mem_cons, not_or]
  refine ⟨by decide, hsig.2.2, by decide, hname.2.2, by decide, (isField_natText _).2.2,
    by decide, hparts, by decide, by decide, List.not_mem_nil⟩

theorem head?_cefRecord (e : AuditEntry) : (cefRecord X e).head? = some 'C' := by
  rw [cefRecord_eq]
  rfl

theorem cefRecord_ne_nil (e : AuditEntry) : cefRecord X e ≠ [] := by
  intro h
  have hhead := head?_cefRecord X e
  rw [h] at hhead
  cases hhead

/-! ## LEEF -/

/-- What `leef_attributes` joins. -/
def leefParts (e : AuditEntry) : List Text :=
  let ev := eventValue X e
  ["devTime=".toList ++ (X.toRfc3339 e.ts).toList, "usrName=".toList ++ leefVal e.actor.toList,
    "src=maranode".toList, "auditSeq=".toList ++ natText e.seq,
    "eventType=".toList ++ leefVal ((asStr (index ev "event")).getD "").toList] ++
    leefExtra ev ((asStr (index ev "event")).getD "")

/-- A part of the attributes. -/
def IsLeefPart (p : Text) : Prop := '\t' ∉ p ∧ '\n' ∉ p ∧ p ≠ []

instance (p : Text) : Decidable (IsLeefPart p) := inferInstanceAs (Decidable (_ ∧ _))

theorem isLeefPart_append {t v : Text} (ht : IsLeefPart t) (hv : '\t' ∉ v ∧ '\n' ∉ v) :
    IsLeefPart (t ++ v) := by
  obtain ⟨htab, hnewline, hne⟩ := ht
  refine ⟨?_, ?_, List.append_ne_nil_of_left_ne_nil hne v⟩
  · rw [List.mem_append, not_or]
    exact ⟨htab, hv.1⟩
  · rw [List.mem_append, not_or]
    exact ⟨hnewline, hv.2⟩

theorem unbroken_of_isTimeChar {s : Text} (h : ∀ c ∈ s, isTimeChar c = true) :
    '\t' ∉ s ∧ '\n' ∉ s :=
  ⟨notMem_of_isTimeChar h (by decide), notMem_of_isTimeChar h (by decide)⟩

theorem isLeefPart_leefVal {t : Text} (ht : IsLeefPart t) (s : Text) :
    IsLeefPart (t ++ leefVal s) := isLeefPart_append ht (notMem_leefVal s)

theorem isLeefPart_natText {t : Text} (ht : IsLeefPart t) (n : Nat) :
    IsLeefPart (t ++ natText n) :=
  isLeefPart_append ht (unbroken_of_isTimeChar fun _ => isTimeChar_of_mem_natText)

/-- An attribute that is left out when there is nothing to say. -/
theorem forall_mem_toList_map {α : Type} {f : α → Text} (h : ∀ a, IsLeefPart (f a))
    (o : Option α) : ∀ p ∈ (o.map f).toList, IsLeefPart p := by
  cases o with
  | none => exact fun p hp => absurd hp List.not_mem_nil
  | some a => exact List.forall_mem_singleton.mpr (h a)

theorem isLeefPart_leefExtra (ev : Value) (kind : String) :
    ∀ p ∈ leefExtra ev kind, IsLeefPart p := by
  unfold leefExtra
  split
  case h_1 | h_2 | h_3 =>
    refine List.forall_mem_append.mpr ⟨List.forall_mem_append.mpr
      ⟨List.forall_mem_append.mpr ⟨?_, ?_⟩, ?_⟩, ?_⟩
    · exact forall_mem_toList_map (fun id => isLeefPart_leefVal (by decide) _) _
    · exact forall_mem_toList_map (fun sha => isLeefPart_leefVal (by decide) _) _
    · exact forall_mem_toList_map (fun n => isLeefPart_natText (by decide) n) _
    · exact forall_mem_toList_map (fun n => isLeefPart_natText (by decide) n) _
  case h_4 =>
    refine List.forall_mem_cons.mpr ⟨isLeefPart_append (by decide) ?_,
      List.forall_mem_singleton.mpr (isLeefPart_append (by decide) ?_)⟩
    · split_ifs <;> decide
    · split_ifs <;> decide
  case h_5 => exact forall_mem_toList_map (fun slug => isLeefPart_leefVal (by decide) _) _
  case h_6 => exact fun p hp => absurd hp List.not_mem_nil

variable {X}

theorem isLeefPart_leefParts (h : X.WritesRfc3339) (e : AuditEntry) :
    ∀ p ∈ leefParts X e, IsLeefPart p := by
  refine List.forall_mem_append.mpr ⟨?_, isLeefPart_leefExtra _ _⟩
  refine List.forall_mem_cons.mpr
    ⟨isLeefPart_append (by decide) (unbroken_of_isTimeChar (h e.ts)), ?_⟩
  refine List.forall_mem_cons.mpr ⟨isLeefPart_leefVal (by decide) _, ?_⟩
  refine List.forall_mem_cons.mpr ⟨by decide, ?_⟩
  refine List.forall_mem_cons.mpr ⟨isLeefPart_natText (by decide) _, ?_⟩
  exact List.forall_mem_singleton.mpr (isLeefPart_leefVal (by decide) _)

/-- A LEEF record without its line feed. -/
def leefLine (X : External) (e : AuditEntry) : Text :=
  "LEEF:2.0|Maranode|maranode-daemon|1.0|".toList ++ ((leefEventId e.event.kind.tag).toList ++
    '|' :: '\t' :: ['\t'].intercalate (leefParts X e))

theorem leefRecord_eq (X : External) (e : AuditEntry) : leefRecord X e = leefLine X e ++ ['\n'] := by
  have hattr : leefAttributes X (eventValue X e) e.actor e.seq e.ts =
      ['\t'].intercalate (leefParts X e) := rfl
  unfold leefRecord leefLine
  simp only [eventKind_eventValue, hattr, List.append_assoc, List.cons_append, List.nil_append]

theorem isField_leefEventId (k : EventKind) : IsField (leefEventId k.tag).toList := by
  cases k <;> decide +kernel

/-- The keys of a record are those that were written. -/
theorem leefKeys_leefLine (h : X.WritesRfc3339) (e : AuditEntry) :
    leefKeys (leefLine X e) = (leefParts X e).map keyOf := by
  have hhead : ∀ rest : Text,
      (dropField '|')^[4] ("LEEF:2.0|Maranode|maranode-daemon|1.0|".toList ++ rest) = rest :=
    fun _ => rfl
  have hsplit : ∀ t : Text, (dropField '|')^[5] t = dropField '|' ((dropField '|')^[4] t) :=
    fun _ => rfl
  unfold leefKeys leefLine
  rw [hsplit, hhead, (isField_leefEventId _).dropField]
  refine tabKeysOf_intercalate fun p hp => ?_
  obtain ⟨htab, -, hne⟩ := isLeefPart_leefParts h e p hp
  exact ⟨htab, hne⟩

theorem newline_notMem_leefLine (h : X.WritesRfc3339) (e : AuditEntry) :
    '\n' ∉ leefLine X e ∧ leefLine X e ≠ [] := by
  have hparts : '\n' ∉ ['\t'].intercalate (leefParts X e) := by
    intro hmem
    rcases mem_intercalate hmem with hmem | ⟨p, hp, hmem⟩
    · revert hmem
      decide
    · exact (isLeefPart_leefParts h e p hp).2.1 hmem
  refine ⟨?_, List.append_ne_nil_of_left_ne_nil (by decide) _⟩
  unfold leefLine
  simp only [List.mem_append, List.mem_cons, not_or]
  exact ⟨by decide, (isField_leefEventId _).2.2, by decide, by decide, hparts⟩

/-! ## What a SIEM finds -/

/-- A line for each entry with the keys that were written for it, and a message for each
    that is forwarded. -/
structure SiemReadsBack (X : External) (es : List AuditEntry) : Prop where
  cefLines : (records ((cef X).report es)).map cefKeys =
    es.map fun e => (cefParts X e).map keyOf
  messages : ∀ stamps hostname,
    (forwardSyslog stamps hostname ((cef X).report es)).length = es.length
  leefLines : (records ((leef X).report es)).map leefKeys =
    es.map fun e => (leefParts X e).map keyOf

/-- **LEEF.**  The lines and their keys are those of the entries. -/
theorem leef_readsBack (h : X.WritesRfc3339) (es : List AuditEntry) :
    (records ((leef X).report es)).map leefKeys = es.map fun e => (leefParts X e).map keyOf := by
  have hreport : (leef X).report es = es.flatMap fun e => leefLine X e ++ ['\n'] :=
    congrArg (fun f => es.flatMap f) (funext (leefRecord_eq X))
  rw [hreport, records_flatMap (newline_notMem_leefLine h), List.map_map]
  exact List.map_congr_left fun e _ => leefKeys_leefLine h e

/-- All of a CEF report is one line. -/
theorem newline_notMem_cef (es : List AuditEntry) : '\n' ∉ (cef X).report es := by
  rw [Format.report]
  intro h
  obtain ⟨e, -, he⟩ := List.mem_flatMap.mp h
  exact newline_notMem_cefRecord X e he

theorem records_cef {es : List AuditEntry} (h : es ≠ []) :
    records ((cef X).report es) = [(cef X).report es] := by
  refine records_of_notMem (newline_notMem_cef es) ?_
  obtain ⟨e, rest, rfl⟩ := List.exists_cons_of_ne_nil h
  exact List.append_ne_nil_of_left_ne_nil (cefRecord_ne_nil X e) _

theorem report_singleton (e : AuditEntry) : (cef X).report [e] = cefRecord X e := by
  rw [Format.report, List.flatMap_singleton]
  rfl

/-- One message for one entry. -/
theorem length_forwardSyslog (e : AuditEntry) (stamps : Nat → Text) (hostname : Text) :
    (forwardSyslog stamps hostname (cefRecord X e)).length = 1 := by
  have hlines : Text.lines (cefRecord X e) = [cefRecord X e] :=
    Text.lines_of_notMem (newline_notMem_cefRecord X e) (cefRecord_ne_nil X e)
  obtain ⟨rest, hrest⟩ := List.head?_eq_some_iff.mp (head?_cefRecord X e)
  have hblank : Text.isBlank (cefRecord X e) = false := by
    rw [hrest, Text.isBlank, List.all_cons]
    rfl
  rw [forwardSyslog, List.length_mapIdx, hlines, List.filter_cons, hblank]
  rfl

/-- **SIEM reports.**  They read back as the entries exactly when there is at most one. -/
theorem siem_readsBack_iff (h : X.WritesRfc3339) (es : List AuditEntry) :
    SiemReadsBack X es ↔ es.length ≤ 1 := by
  constructor
  · intro hread
    by_contra hlong
    have hne : es ≠ [] := by
      rintro rfl
      exact hlong (Nat.zero_le 1)
    have hlen := congrArg List.length hread.cefLines
    rw [records_cef hne, List.length_map, List.length_map, List.length_singleton] at hlen
    omega
  · intro hshort
    refine ⟨?_, fun stamps hostname => ?_, leef_readsBack h es⟩
    · rcases es with - | ⟨e, - | ⟨e', es⟩⟩
      · rfl
      · rw [records_cef (List.cons_ne_nil e []), report_singleton, List.map_singleton,
          List.map_singleton, cefKeys_cefRecord]
      · exact absurd hshort (by simp)
    · rcases es with - | ⟨e, - | ⟨e', es⟩⟩
      · rfl
      · rw [report_singleton, length_forwardSyslog]
        rfl
      · exact absurd hshort (by simp)

/-- An entry of a run. -/
def shutdown (seq : Nat) : AuditEntry where
  ts := newYear
  seq := seq
  actor := "api"
  event := .daemonStop "shutdown"
  prevHmac := ""
  hmac := ""

theorem siem_readsBack_shutdown :
    SiemReadsBack External.sample [shutdown 1] ↔ [shutdown 1].length ≤ 1 :=
  siem_readsBack_iff writesRfc3339_sample [shutdown 1]

/-- Two entries are one line. -/
theorem not_siem_readsBack_two : ¬ SiemReadsBack External.sample [shutdown 1, shutdown 2] := by
  intro h
  have hlen := congrArg List.length h.cefLines
  rw [records_cef (List.cons_ne_nil _ _), List.length_map, List.length_map] at hlen
  cases hlen

end Maranode.Audit
