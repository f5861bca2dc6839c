/-
  Maranode.Audit.Layout

  An audit directory as what it is for: the entries it holds, some of them in
  sealed segments and the rest in the active file.

  `Holds d L` says that the directory `d` stores the layout `L`.  The primitive
  effects of the crate are described once as what they do to a layout; the rest
  of the development reasons about layouts.
-/
import Maranode.Audit.Content

namespace Maranode.Audit

open Lib Common

variable (X : External)

/-- Entries in sealed segments, each with its manifest record, and in the active
    file. -/
structure Layout where
  sealed : List (Segment × List AuditEntry)
  active : List AuditEntry

/-- The entries of the sealed segments. -/
def Layout.archived (L : Layout) : List AuditEntry := L.sealed.flatMap Prod.snd

/-- All entries, in the order `verify_all` reads them. -/
def Layout.entries (L : Layout) : List AuditEntry := L.archived ++ L.active

def Layout.empty : Layout where
  sealed := []
  active := []

/-- The active entries move into a segment. -/
def Layout.seal (L : Layout) (seg : Segment) : Layout where
  sealed := L.sealed ++ [(seg, L.active)]
  active := []

@[simp] theorem Layout.entries_seal (L : Layout) (seg : Segment) :
    (L.seal seg).entries = L.entries := by
  simp [Layout.entries, Layout.archived, Layout.seal]

theorem Layout.seal_sublist (L : Layout) (seg : Segment) :
    (L.seal seg).entries.Sublist L.entries := by
  rw [L.entries_seal]

/-- The part of a manifest record that comes from the segment's content. -/
def Segment.summary (seg : Segment) : Summary where
  seqStart := seg.seqStart
  seqEnd := seg.seqEnd
  entries := seg.entries
  firstPrevHmac := seg.firstPrevHmac
  lastHmac := seg.lastHmac
  tsFirst := seg.tsFirst
  tsLast := seg.tsLast

/-- The manifest record describes a segment file with these entries. -/
structure Sealed (d : Disk) (seg : Segment) (es : List AuditEntry) : Prop where
  content : readSegment X d seg = some (logText X es)
  summary : summarize X (logText X es) = some seg.summary
  named : ∃ stamp, seg.file = segmentFile seg.seqStart seg.seqEnd stamp

/-- The directory stores the layout. -/
structure Holds (d : Disk) (L : Layout) : Prop where
  manifest : (loadManifest d).segments = L.sealed.map Prod.fst
  sealed : ∀ p ∈ L.sealed, Sealed X d p.1 p.2
  log : ∃ i, d.log = some i ∧ d.data i = Text.encode (logText X L.active)

/-! ## Segment names -/

/-- What stands before the first dash of two equal texts is equal. -/
theorem append_dash_inj {p q r s : Text} (hp : '-' ∉ p) (hq : '-' ∉ q)
    (h : p ++ '-' :: r = q ++ '-' :: s) : p = q := by
  induction p generalizing q with
  | nil =>
      cases q with
      | nil => rfl
      | cons c q =>
          obtain ⟨rfl, -⟩ := List.cons.inj h
          simp at hq
  | cons c p ih =>
      cases q with
      | nil =>
          obtain ⟨rfl, -⟩ := List.cons.inj h
          simp at hp
      | cons d q =>
          obtain ⟨rfl, htl⟩ := List.cons.inj h
          rw [ih (fun hmem => hp (List.mem_cons_of_mem _ hmem))
            (fun hmem => hq (List.mem_cons_of_mem _ hmem)) htl]

theorem dash_notMem_toDigits (n : Nat) : '-' ∉ Nat.toDigits 10 n := by
  intro hmem
  have hdigit := Nat.isDigit_of_mem_toDigits (by decide) (by decide) hmem
  exact absurd hdigit (by decide)

theorem toDigits_injective {m n : Nat} (h : Nat.toDigits 10 m = Nat.toDigits 10 n) : m = n := by
  rw [← Nat.ofDigitChars_ten_toDigits (n := m), h, Nat.ofDigitChars_ten_toDigits]

/-- Segments that start at different entries have different files. -/
theorem seqStart_eq_of_segmentFile_eq {a b a' b' : Nat} {s s' : String}
    (h : segmentFile a b s = segmentFile a' b' s') : a = a' := by
  have hl := congrArg String.toList h
  simp only [segmentFile, String.toList_append, List.append_assoc] at hl
  have hdash : "-".toList = ['-'] := by decide
  have hstr : ∀ n : Nat, (toString n).toList = Nat.toDigits 10 n := by
    intro n
    exact Nat.toList_repr
  rw [List.append_cancel_left_eq] at hl
  simp only [hdash, hstr, List.singleton_append] at hl
  exact toDigits_injective
    (append_dash_inj (dash_notMem_toDigits a) (dash_notMem_toDigits a') hl)

/-! ## Segments and their entries -/

theorem summarize_logText_eq_some {es : List AuditEntry} {sum : Summary}
    (h : summarize X (logText X es) = some sum) :
    ∃ first last n, (es.filter (·.readable)).head? = some first ∧
      (es.filter (·.readable)).getLast? = some last ∧ sum = summaryOf first last n := by
  rw [summarize_eq, entriesIn_logText] at h
  generalize es.filter (·.readable) = rs at h
  rcases rs with - | ⟨first, rest⟩
  · simp at h
  · refine ⟨first, rest.getLastD first, rest.length + 1, rfl, ?_, ?_⟩
    · rw [List.getLast?_cons, List.getLastD_eq_getLast?]
    · simp only [List.head?_cons, Option.map_some, Option.some.injEq, List.getLastD_cons,
        List.length_cons] at h
      exact h.symm

variable {X}

/-- A sealed segment has a readable entry; its record tells the first and the last. -/
theorem Sealed.exists_ends {d : Disk} {seg : Segment} {es : List AuditEntry}
    (h : Sealed X d seg es) :
    ∃ first last, (es.filter (·.readable)).head? = some first ∧
      (es.filter (·.readable)).getLast? = some last ∧
      seg.seqStart = first.seq ∧ seg.firstPrevHmac = first.prevHmac ∧
      seg.seqEnd = last.seq ∧ seg.lastHmac = last.hmac ∧ seg.tsLast = last.ts := by
  obtain ⟨first, last, n, hfirst, hlast, hsum⟩ := summarize_logText_eq_some X h.summary
  refine ⟨first, last, hfirst, hlast, ?_⟩
  simp only [Segment.summary, summaryOf, Summary.mk.injEq] at hsum
  obtain ⟨h1, h2, -, h4, h5, -, h7⟩ := hsum
  exact ⟨h1, h4, h2, h5, h7⟩

theorem Sealed.exists_seqStart {d : Disk} {seg : Segment} {es : List AuditEntry}
    (h : Sealed X d seg es) : ∃ e ∈ es.filter (·.readable), seg.seqStart = e.seq := by
  obtain ⟨first, last, hfirst, -, hseq, -⟩ := h.exists_ends
  exact ⟨first, List.mem_of_head? hfirst, hseq⟩

theorem Sealed.exists_seqEnd {d : Disk} {seg : Segment} {es : List AuditEntry}
    (h : Sealed X d seg es) : ∃ e ∈ es.filter (·.readable), seg.seqEnd = e.seq := by
  obtain ⟨first, last, -, hlast, -, -, hseq, -⟩ := h.exists_ends
  exact ⟨last, List.mem_of_getLast? hlast, hseq⟩

/-- A segment whose last entry reads back ends there. -/
theorem Sealed.tail_eq {d : Disk} {seg : Segment} {es : List AuditEntry} {e : AuditEntry}
    (h : Sealed X d seg (es ++ [e])) (hread : e.readable = true) :
    seg.seqEnd = e.seq ∧ seg.lastHmac = e.hmac := by
  obtain ⟨first, last, -, hlast, -, -, hseq, hhmac, -⟩ := h.exists_ends
  rw [List.filter_append, List.filter_singleton, hread] at hlast
  obtain rfl : e = last := by simpa using hlast
  exact ⟨hseq, hhmac⟩

/-- Whether a segment is sealed as it was depends on its file alone. -/
theorem Sealed.congr {d d' : Disk} {seg : Segment} {es : List AuditEntry}
    (h : Sealed X d seg es) (hfile : d'.segments seg.file = d.segments seg.file) :
    Sealed X d' seg es where
  content := by
    rw [readSegment, hfile]
    exact h.content
  summary := h.summary
  named := h.named

/-- The numbers of the entries increase. -/
def Layout.Ordered (L : Layout) : Prop := L.entries.Pairwise (·.seq < ·.seq)

/-- The numbers of the entries that read back increase. -/
def Layout.Sorted (L : Layout) : Prop :=
  (L.entries.filter (·.readable)).Pairwise (·.seq < ·.seq)

theorem Layout.Ordered.sublist {L L' : Layout} (h : L.Ordered)
    (hsub : L'.entries.Sublist L.entries) : L'.Ordered := List.Pairwise.sublist hsub h

theorem Layout.Ordered.sorted {L : Layout} (h : L.Ordered) : L.Sorted :=
  List.Pairwise.sublist List.filter_sublist h

theorem Layout.Sorted.sublist {L L' : Layout} (h : L.Sorted)
    (hsub : L'.entries.Sublist L.entries) : L'.Sorted :=
  List.Pairwise.sublist (hsub.filter _) h

theorem Layout.mem_archived {L : Layout} {p : Segment × List AuditEntry} {e : AuditEntry}
    (hp : p ∈ L.sealed) (he : e ∈ p.2) : e ∈ L.archived :=
  List.mem_flatMap.mpr ⟨p, hp, he⟩

/-- A readable entry of a segment stands before one of the active file. -/
theorem Layout.Sorted.sealed_lt_active {L : Layout} (h : L.Sorted)
    {p : Segment × List AuditEntry} (hp : p ∈ L.sealed) {e f : AuditEntry}
    (he : e ∈ p.2.filter (·.readable)) (hf : f ∈ L.active.filter (·.readable)) :
    e.seq < f.seq := by
  rw [Layout.Sorted, Layout.entries, List.filter_append] at h
  refine (List.pairwise_append.mp h).2.2 e ?_ f hf
  obtain ⟨he, hread⟩ := List.mem_filter.mp he
  exact List.mem_filter.mpr ⟨Layout.mem_archived hp he, hread⟩

/-- The readable entries of a segment stand before those of the next ones. -/
theorem Layout.Sorted.pairwise_sealed {L : Layout} (h : L.Sorted) :
    L.sealed.Pairwise fun p q =>
      ∀ e ∈ p.2.filter (·.readable), ∀ f ∈ q.2.filter (·.readable), e.seq < f.seq := by
  rw [Layout.Sorted, Layout.entries, List.filter_append, Layout.archived,
    List.filter_flatMap] at h
  exact (List.pairwise_flatMap.mp (List.pairwise_append.mp h).1).2

/-- The segments of a sorted layout start one after the other. -/
theorem Holds.pairwise_seqStart {d : Disk} {L : Layout} (h : Holds X d L) (ho : L.Sorted) :
    L.sealed.Pairwise (·.1.seqStart < ·.1.seqStart) := by
  refine ho.pairwise_sealed.imp_of_mem ?_
  intro p q hp hq hlt
  obtain ⟨e, he, hpe⟩ := (h.sealed p hp).exists_seqStart
  obtain ⟨f, hf, hqf⟩ := (h.sealed q hq).exists_seqStart
  rw [hpe, hqf]
  exact hlt e he f hf

theorem Holds.file_ne {d : Disk} {L : Layout} (h : Holds X d L)
    {p q : Segment × List AuditEntry} (hp : p ∈ L.sealed) (hq : q ∈ L.sealed)
    (hne : p.1.seqStart ≠ q.1.seqStart) : p.1.file ≠ q.1.file := by
  intro hfile
  obtain ⟨s, hs⟩ := (h.sealed p hp).named
  obtain ⟨t, ht⟩ := (h.sealed q hq).named
  rw [hs, ht] at hfile
  exact hne (seqStart_eq_of_segmentFile_eq hfile)

/-! ## Stored lines -/

variable (X) in
/-- The lines the directory stores: those of the segments the manifest records, and
    those of the active file. -/
def stored (d : Disk) : List Text :=
  ((loadManifest d).segments.flatMap fun seg => contentLines ((readSegment X d seg).getD [])) ++
    contentLines (d.readLog.getD [])

theorem Holds.readLog {d : Disk} {L : Layout} (h : Holds X d L) :
    d.readLog = some (logText X L.active) := by
  obtain ⟨i, hi, hdata⟩ := h.log
  rw [Disk.readLog, hi, Option.bind_some, hdata, Text.decode_encode]

theorem Holds.stored_eq {d : Disk} {L : Layout} (h : Holds X d L) :
    stored X d = L.entries.map (·.toText X) := by
  have hsegs : ∀ ps : List (Segment × List AuditEntry), (∀ p ∈ ps, Sealed X d p.1 p.2) →
      (ps.map Prod.fst).flatMap (fun seg => contentLines ((readSegment X d seg).getD []))
        = (ps.flatMap Prod.snd).map (·.toText X) := by
    intro ps hps
    induction ps with
    | nil => rfl
    | cons p ps ih =>
        obtain ⟨hp, hps⟩ := List.forall_mem_cons.mp hps
        rw [List.map_cons, List.flatMap_cons, ih hps, hp.content, Option.getD_some,
          contentLines_logText, List.flatMap_cons, List.map_append]
  rw [stored, h.manifest, hsegs _ h.sealed, h.readLog, Option.getD_some, contentLines_logText,
    Layout.entries, List.map_append, Layout.archived]

/-- Two entries with one line have one number. -/
theorem seq_eq_of_toText_eq {e f : AuditEntry} (h : e.toText X = f.toText X) :
    e.seq = f.seq := by
  have hobj := Json.Value.obj.inj (Json.render_injective h)
  simp only [AuditEntry.toMembers, List.cons_append, List.nil_append] at hobj
  obtain ⟨-, htl⟩ := List.cons.inj hobj
  obtain ⟨hseq, -⟩ := List.cons.inj htl
  have hlit := Json.Value.num.inj (Prod.mk.inj hseq).2
  have hnat := congrArg Json.NumLit.toNat? hlit
  simpa using hnat

/-- The lines of an ordered layout are different. -/
theorem Layout.Ordered.nodup_lines {L : Layout} (ho : L.Ordered) :
    (L.entries.map (·.toText X)).Nodup := by
  refine List.pairwise_map.mpr (List.Pairwise.imp ?_ ho)
  intro e f hlt heq
  have := seq_eq_of_toText_eq heq
  omega

/-- An entry of an ordered layout is stored once. -/
theorem Holds.count_stored {d : Disk} {L : Layout} (h : Holds X d L) (ho : L.Ordered)
    {e : AuditEntry} (he : e ∈ L.entries) : (stored X d).count (e.toText X) = 1 := by
  rw [h.stored_eq]
  exact List.count_eq_one_of_mem ho.nodup_lines (List.mem_map_of_mem he)

/-! ## What the effects do to a layout -/

/-- Replacing what the active file holds. -/
theorem Holds.of_log {d d' : Disk} {L : Layout} (h : Holds X d L) (es : List AuditEntry)
    (hmanifest : d'.manifest = d.manifest) (hsegments : d'.segments = d.segments)
    (hlog : ∃ i, d'.log = some i ∧ d'.data i = Text.encode (logText X es)) :
    Holds X d' { L with active := es } where
  manifest := by
    rw [loadManifest, hmanifest]
    exact h.manifest
  sealed := fun p hp => (h.sealed p hp).congr (by rw [hsegments])
  log := hlog

/-- An append through a handle on the active file. -/
theorem Holds.write {d : Disk} {L : Layout} {i : Nat} (h : Holds X d L) (hi : d.log = some i)
    (e : AuditEntry) :
    Holds X (d.write i (lineBytes X e)) { L with active := L.active ++ [e] } := by
  obtain ⟨j, hj, hdata⟩ := h.log
  obtain rfl : i = j := Option.some.inj (hi.symm.trans hj)
  refine h.of_log _ rfl rfl ⟨i, hi, ?_⟩
  simp [Disk.write, hdata, encode_logText_concat]

/-- A write through a handle whose file is no longer the active one. -/
theorem Holds.write_detached {d : Disk} {L : Layout} {i j : Nat} (h : Holds X d L)
    (hi : d.log = some i) (hj : j ≠ i) (bs : Bytes) : Holds X (d.write j bs) L := by
  obtain ⟨k, hk, hdata⟩ := h.log
  obtain rfl : i = k := Option.some.inj (hi.symm.trans hk)
  refine h.of_log L.active rfl rfl ⟨i, hi, ?_⟩
  simp [Disk.write, Function.update_of_ne hj.symm, hdata]

theorem Holds.truncateLog {d : Disk} {L : Layout} (h : Holds X d L) :
    Holds X d.truncateLog { L with active := [] } := by
  obtain ⟨i, hi, -⟩ := h.log
  refine h.of_log [] ?_ ?_ ⟨i, ?_, ?_⟩ <;> simp [Disk.truncateLog, hi]

theorem Holds.openAppend {d : Disk} {L : Layout} {i : Nat} (_ : Holds X d L)
    (hi : d.log = some i) : d.openAppend = (d, i) := by
  simp [Disk.openAppend, hi]

/-- Writing a segment file under a name no recorded segment has. -/
theorem Holds.writeSegment {d : Disk} {L : Layout} (h : Holds X d L) {file : String}
    (hfile : ∀ p ∈ L.sealed, p.1.file ≠ file) (bs : Bytes) :
    Holds X (d.writeSegment file bs) L where
  manifest := h.manifest
  sealed := by
    intro p hp
    refine (h.sealed p hp).congr ?_
    simp [Disk.writeSegment, Function.update_of_ne (hfile p hp)]
  log := h.log

/-- Recording a segment in the manifest. -/
theorem Holds.pushSegment {d : Disk} {L : Layout} (h : Holds X d L) {seg : Segment}
    {es : List AuditEntry} (hseg : Sealed X d seg es) :
    Holds X (pushSegment d seg) { L with sealed := L.sealed ++ [(seg, es)] } where
  manifest := by
    simp [Audit.pushSegment, saveManifest, loadManifest, ← h.manifest]
  sealed := by
    intro p hp
    rcases List.mem_append.mp hp with hp | hp
    · exact (h.sealed p hp).congr rfl
    · obtain rfl := List.mem_singleton.mp hp
      exact hseg.congr rfl
  log := h.log

end Maranode.Audit
