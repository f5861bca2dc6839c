/-
  Maranode.Audit.Content

  What the readers make of a log that `append` wrote.

  `logText es` is the content `append` leaves after writing `es`.  Every reader of
  the crate (`scan_tail`, `summarize`, `walk`, `prune_log`, `read_recent`) is
  described on it once, in terms of `es`; nothing later unfolds a reader.
-/
import Maranode.Audit.Retention
import Maranode.Audit.Verify
import Maranode.Lib.Json.Torn

namespace Maranode.Audit

open Lib Lib.Json Common

variable (X : External)

/-- The content of a log to which the entries were appended. -/
def logText (es : List AuditEntry) : Text := Text.joinLines (es.map (·.toText X))

@[simp] theorem logText_nil : logText X [] = [] := rfl

theorem logText_append (es fs : List AuditEntry) :
    logText X (es ++ fs) = logText X es ++ logText X fs := by
  rw [logText, List.map_append, Text.joinLines_append, logText, logText]

theorem logText_singleton (e : AuditEntry) : logText X [e] = e.toText X ++ ['\n'] := by
  simp [logText]

theorem encode_logText_concat (es : List AuditEntry) (e : AuditEntry) :
    Text.encode (logText X (es ++ [e])) = Text.encode (logText X es) ++ lineBytes X e := by
  rw [logText_append, Text.encode_append, logText_singleton, lineBytes]

theorem toText_ne_nil (e : AuditEntry) : e.toText X ≠ [] := by
  obtain ⟨cs, hcs⟩ := render_obj_eq (e.toMembers X)
  rw [AuditEntry.toText, hcs]
  exact List.cons_ne_nil _ _

theorem isBlank_toText (e : AuditEntry) : Text.isBlank (e.toText X) = false := by
  obtain ⟨cs, hcs⟩ := render_obj_eq (e.toMembers X)
  rw [AuditEntry.toText, hcs]
  rfl

theorem newline_notMem_toText (e : AuditEntry) : '\n' ∉ e.toText X :=
  newline_notMem_render _

theorem isLine_toText (e : AuditEntry) : Text.IsLine (e.toText X) := by
  refine ⟨newline_notMem_toText X e, ?_⟩
  obtain ⟨cs, hcs⟩ := render_obj_eq (e.toMembers X)
  rw [AuditEntry.toText, hcs, ← List.cons_append, List.getLast?_concat]
  decide

@[simp] theorem logText_eq_nil {es : List AuditEntry} : logText X es = [] ↔ es = [] := by
  cases es with
  | nil => simp
  | cons e es => simp [logText]

/-! ## Lines and entries -/

/-- A log and whatever stands after its last line break. -/
theorem lines_logText_append (es : List AuditEntry) (rest : Text) :
    Text.lines (logText X es ++ rest) = es.map (·.toText X) ++ Text.lines rest := by
  apply Text.lines_joinLines_append
  intro l hl
  obtain ⟨e, -, rfl⟩ := List.mem_map.mp hl
  exact isLine_toText X e

theorem contentLines_logText_append (es : List AuditEntry) (rest : Text) :
    contentLines (logText X es ++ rest) = es.map (·.toText X) ++ contentLines rest := by
  have hkeep : ∀ l ∈ es.map (·.toText X), (!Text.isBlank l) = true := by
    intro l hl
    obtain ⟨e, -, rfl⟩ := List.mem_map.mp hl
    rw [isBlank_toText]
    rfl
  rw [contentLines, lines_logText_append, List.filter_append, List.filter_eq_self.mpr hkeep,
    contentLines]

@[simp] theorem contentLines_nil : contentLines [] = [] := rfl

@[simp] theorem contentLines_logText (es : List AuditEntry) :
    contentLines (logText X es) = es.map (·.toText X) := by
  have h := contentLines_logText_append X es []
  simpa using h

/-- The readers that pass over unreadable lines see the readable entries. -/
@[simp] theorem entriesIn_logText (es : List AuditEntry) :
    entriesIn X (logText X es) = es.filter (·.readable) := by
  rw [entriesIn, contentLines_logText, List.filterMap_map]
  induction es with
  | nil => rfl
  | cons e es ih =>
      rw [List.filterMap_cons, ih, List.filter_cons, Function.comp_apply,
        AuditEntry.fromStr_toText]
      cases e.readable <;> simp

/-! ## summarize -/

/-- The summary of a log whose readable entries are `first`, ..., `last`. -/
def summaryOf (first last : AuditEntry) (entries : Nat) : Summary where
  seqStart := first.seq
  seqEnd := last.seq
  entries := entries
  firstPrevHmac := first.prevHmac
  lastHmac := last.hmac
  tsFirst := first.ts
  tsLast := last.ts

theorem foldl_add (first last : AuditEntry) (n : Nat) (es : List AuditEntry) :
    es.foldl SummaryAcc.add
        { seqStart := some first.seq, firstPrevHmac := first.prevHmac, tsFirst := some first.ts,
          seqEnd := last.seq, lastHmac := last.hmac, tsLast := some last.ts, entries := n } =
      { seqStart := some first.seq, firstPrevHmac := first.prevHmac, tsFirst := some first.ts,
        seqEnd := (es.getLastD last).seq, lastHmac := (es.getLastD last).hmac,
        tsLast := some (es.getLastD last).ts, entries := n + es.length } := by
  induction es generalizing last n with
  | nil => rfl
  | cons e es ih =>
      rw [List.foldl_cons]
      have hadd := ih e (n + 1)
      simp only [SummaryAcc.add, Option.isNone_some, Bool.false_eq_true, if_false]
      rw [hadd, List.getLastD_cons, List.length_cons]
      have hlen : n + 1 + es.length = n + (es.length + 1) := by omega
      rw [hlen]

theorem summarize_eq (content : Text) :
    summarize X content =
      (entriesIn X content).head?.map fun first =>
        summaryOf first ((entriesIn X content).getLastD first) (entriesIn X content).length := by
  rw [summarize]
  rcases entriesIn X content with - | ⟨e, es⟩
  · rfl
  · have h := foldl_add e e 1 es
    rw [List.foldl_cons]
    simp only [SummaryAcc.add, Option.isNone_none, if_true, Nat.zero_add]
    rw [h]
    simp only [SummaryAcc.finish, Option.bind_some, Option.map_some, List.head?_cons,
      List.getLastD_cons, List.length_cons, Nat.add_comm, summaryOf]

/-! ## walk -/

theorem checkEntry_eq_none {key : Bytes} {cur : Cursor} {e : AuditEntry} :
    checkEntry X key cur e = none ↔
      e.seq = cur.expectedSeq ∧ e.prevHmac = cur.prevHmac ∧ MacOk X key e := by
  unfold checkEntry MacOk
  split_ifs with h1 h2 h3
  · simp [h1]
  · simp [h2]
  · simp only [false_iff, not_and]
    intro _ _
    simpa using h3
  · simp only [true_iff]
    refine ⟨by simpa using h1, by simpa using h2, by simpa using h3⟩

/-- Where `walk` stands after a chain of entries. -/
def Cursor.after (cur : Cursor) (es : List AuditEntry) : Cursor where
  expectedSeq := cur.expectedSeq + es.length
  prevHmac := HashChain.lastTag AuditEntry.hmac cur.prevHmac es
  checked := cur.checked + es.length

@[simp] theorem Cursor.after_nil (cur : Cursor) : cur.after [] = cur := rfl

theorem Cursor.after_cons {cur : Cursor} {e : AuditEntry} (hseq : e.seq = cur.expectedSeq)
    (es : List AuditEntry) : (cur.advance e).after es = cur.after (e :: es) := by
  simp only [Cursor.after, Cursor.advance, HashChain.lastTag_cons, List.length_cons, hseq,
    Cursor.mk.injEq, true_and]
  omega

/-- Every line parses, and these are the entries. -/
def Reads (ls : List Text) (es : List AuditEntry) : Prop :=
  (ls.filter fun l => !Text.isBlank l).map (AuditEntry.fromStr X) = es.map some

theorem reads_nil : Reads X [] [] := rfl

theorem reads_cons_blank {l : Text} (hl : Text.isBlank l = true) {ls : List Text}
    {es : List AuditEntry} : Reads X (l :: ls) es ↔ Reads X ls es := by
  simp [Reads, hl]

theorem reads_cons {l : Text} (hl : Text.isBlank l = false) {ls : List Text}
    {es : List AuditEntry} :
    Reads X (l :: ls) es ↔
      ∃ e fs, es = e :: fs ∧ AuditEntry.fromStr X l = some e ∧ Reads X ls fs := by
  simp only [Reads, List.filter_cons, hl, Bool.not_false, if_true, List.map_cons]
  constructor
  · intro h
    rcases es with - | ⟨e, fs⟩
    · simp at h
    · obtain ⟨he, hfs⟩ := List.cons.inj h
      exact ⟨e, fs, rfl, he, hfs⟩
  · rintro ⟨e, fs, rfl, he, hfs⟩
    rw [he, hfs, List.map_cons]

/-- `walk` goes through a chain and stops after it. -/
theorem walkFrom_of_chained {key : Bytes} {ls : List Text} {es : List AuditEntry} (n : Nat)
    {cur : Cursor} (hreads : Reads X ls es)
    (hchain : Chained X key cur.expectedSeq cur.prevHmac es) :
    walkFrom X key n ls cur = (cur.after es, none) := by
  induction ls generalizing n cur es with
  | nil =>
      obtain rfl : es = [] := by simpa [Reads] using hreads
      rfl
  | cons l ls ih =>
      rw [walkFrom]
      rcases hb : Text.isBlank l with - | -
      · obtain ⟨e, fs, rfl, he, hfs⟩ := (reads_cons X hb).mp hreads
        obtain ⟨hseq, hprev, hmac, hrest⟩ := hchain
        simp only [he, (checkEntry_eq_none X).mpr ⟨hseq, hprev, hmac⟩, Bool.false_eq_true, if_false]
        rw [← hseq] at hrest
        have hwalk := @ih fs (n + 1) (cur.advance e) hfs hrest
        rw [hwalk, Cursor.after_cons hseq]
      · simp only [if_true]
        exact ih (n + 1) ((reads_cons_blank X hb).mp hreads) hchain

/-- What `walk` accepts is a chain. -/
theorem chained_of_walkFrom {key : Bytes} {ls : List Text} {n : Nat} {cur : Cursor}
    (h : (walkFrom X key n ls cur).2 = none) :
    ∃ es, Reads X ls es ∧ Chained X key cur.expectedSeq cur.prevHmac es := by
  induction ls generalizing n cur with
  | nil => exact ⟨[], reads_nil X, trivial⟩
  | cons l ls ih =>
      rw [walkFrom] at h
      rcases hb : Text.isBlank l with - | -
      · simp only [hb, Bool.false_eq_true, if_false] at h
        rcases hparse : AuditEntry.fromStr X l with - | e
        · simp [hparse] at h
        · rcases hcheck : checkEntry X key cur e with - | v
          · simp only [hparse, hcheck] at h
            obtain ⟨hseq, hprev, hmac⟩ := (checkEntry_eq_none X).mp hcheck
            obtain ⟨es, hes, hchain⟩ := ih h
            refine ⟨e :: es, (reads_cons X hb).mpr ⟨e, es, rfl, hparse, hes⟩, hseq, hprev, hmac, ?_⟩
            rw [← hseq]
            exact hchain
          · simp [hparse, hcheck] at h
      · simp only [hb, if_true] at h
        obtain ⟨es, hes, hchain⟩ := ih h
        exact ⟨es, (reads_cons_blank X hb).mpr hes, hchain⟩

/-- **`walk` accepts exactly the chains.** -/
theorem walk_eq_none {content : Text} {key : Bytes} {cur : Cursor} :
    (walk X content key cur).2 = none ↔
      ∃ es, Reads X (Text.lines content) es ∧
        Chained X key cur.expectedSeq cur.prevHmac es := by
  constructor
  · exact chained_of_walkFrom X
  · rintro ⟨es, hreads, hchain⟩
    rw [walk, walkFrom_of_chained X 0 hreads hchain]

theorem reads_map_toText {es fs : List AuditEntry} :
    Reads X (es.map (·.toText X)) fs ↔ fs = es ∧ ∀ e ∈ es, e.readable = true := by
  induction es generalizing fs with
  | nil =>
      constructor
      · intro h
        exact ⟨by simpa [Reads] using h, by simp⟩
      · rintro ⟨rfl, -⟩
        exact reads_nil X
  | cons e es ih =>
      rw [List.map_cons, reads_cons X (isBlank_toText X e), AuditEntry.fromStr_toText]
      constructor
      · rintro ⟨e', gs, rfl, he, hgs⟩
        obtain ⟨rfl, hall⟩ := ih.mp hgs
        rcases hr : e.readable with - | -
        · simp [hr] at he
        · obtain rfl : e = e' := by simpa [hr] using he
          exact ⟨rfl, List.forall_mem_cons.mpr ⟨hr, hall⟩⟩
      · rintro ⟨rfl, hall⟩
        obtain ⟨hr, hall⟩ := List.forall_mem_cons.mp hall
        exact ⟨e, es, rfl, by rw [if_pos hr], ih.mpr ⟨rfl, hall⟩⟩

theorem reads_logText {es fs : List AuditEntry} :
    Reads X (Text.lines (logText X es)) fs ↔ fs = es ∧ ∀ e ∈ es, e.readable = true := by
  have h := lines_logText_append X es []
  simp only [List.append_nil, Text.lines_nil] at h
  rw [h, reads_map_toText]

/-- `walk` over what `append` wrote. -/
theorem walk_logText_eq_none (es : List AuditEntry) (key : Bytes) (cur : Cursor) :
    (walk X (logText X es) key cur).2 = none ↔
      (∀ e ∈ es, e.readable = true) ∧ Chained X key cur.expectedSeq cur.prevHmac es := by
  rw [walk_eq_none]
  constructor
  · rintro ⟨fs, hreads, hchain⟩
    obtain ⟨rfl, hall⟩ := (reads_logText X).mp hreads
    exact ⟨hall, hchain⟩
  · rintro ⟨hall, hchain⟩
    exact ⟨es, (reads_logText X).mpr ⟨rfl, hall⟩, hchain⟩

theorem walk_logText {es : List AuditEntry} {key : Bytes} {cur : Cursor}
    (hall : ∀ e ∈ es, e.readable = true)
    (hchain : Chained X key cur.expectedSeq cur.prevHmac es) :
    walk X (logText X es) key cur = (cur.after es, none) :=
  walkFrom_of_chained X 0 ((reads_logText X).mpr ⟨rfl, hall⟩) hchain

/-! ## prune_log -/

/-- `prune_log` drops the entry: an entry that does not read back is kept. -/
def expired (cutoff : DateTime) (e : AuditEntry) : Bool := e.readable && decide (e.ts < cutoff)

theorem isPruned_toText (cutoff : DateTime) (e : AuditEntry) :
    isPruned X cutoff (e.toText X) = expired cutoff e := by
  rw [isPruned, AuditEntry.fromStr_toText, expired]
  cases e.readable <;> simp

theorem keptLines_logText (cutoff : DateTime) (es : List AuditEntry) :
    keptLines X cutoff (logText X es) =
      (es.filter fun e => !expired cutoff e).map (·.toText X) := by
  rw [keptLines, contentLines_logText, List.filter_map]
  congr 2
  funext e
  simp [isPruned_toText]

theorem prunedCount_logText (cutoff : DateTime) (es : List AuditEntry) :
    prunedCount X cutoff (logText X es) = (es.filter (expired cutoff)).length := by
  rw [prunedCount, contentLines_logText, List.filter_map, List.length_map]
  congr 2
  funext e
  simp [isPruned_toText]

end Maranode.Audit
