/-
  Maranode.Audit.Operations

  What the operations of the crate do to the layout a directory holds.

  One statement for each function: rotation seals the active entries, retention
  drops segments or entries, opening finds the newest entry, and `verify_all`
  accepts exactly the chains.
-/
import Maranode.Audit.Layout
import Mathlib.Data.List.Flatten

namespace Maranode.Audit

open Lib Common

variable {X : External}

/-! ## rotate_locked -/

/-- The directory after a rotation: zip, manifest, truncation. -/
def rotated (X : External) (d : Disk) (logBytes : Bytes) (seg : Segment) : Disk :=
  (pushSegment (writeSegmentZip X d logBytes seg) seg).truncateLog

/-- A rotation that reads a layout's active file either does nothing or has all of
    it to seal. -/
theorem Holds.rotateDue_cases {d : Disk} {L : Layout} (h : Holds X d L) (inner : LogInner)
    (cfg : RotateConfig) (now : DateTime) :
    rotateDue X d inner cfg now = some none ∨
      ∃ sum, summarize X (logText X L.active) = some sum ∧
        rotateDue X d inner cfg now = some (some (logText X L.active, sum)) := by
  rw [rotateDue]
  dsimp only
  split_ifs with h1 h2 h3
  · exact .inl rfl
  · exact .inl rfl
  · exact .inl rfl
  · rw [h.readLog, Option.map_some]
    rcases hsum : summarize X (logText X L.active) with - | sum
    · left
      simp
    · split_ifs with h4
      · exact .inr ⟨sum, rfl, rfl⟩
      · exact .inl rfl

/-- The size trigger fires on a file with that many bytes and a readable entry. -/
theorem Holds.rotateDue_of_size {d : Disk} {L : Layout} (h : Holds X d L) {inner : LogInner}
    (hi : d.log = some inner.file) {cfg : RotateConfig} (hmax : 0 < cfg.maxBytes)
    (hsize : cfg.maxBytes ≤ (Text.encode (logText X L.active)).length) {e : AuditEntry}
    (he : e ∈ L.active) (hread : e.readable = true) (now : DateTime) :
    ∃ due, rotateDue X d inner cfg now = some (some due) := by
  obtain ⟨j, hj, hdata⟩ := h.log
  obtain rfl : inner.file = j := Option.some.inj (hi.symm.trans hj)
  have hsum : ∃ sum, summarize X (logText X L.active) = some sum := by
    rw [summarize_eq, entriesIn_logText]
    rcases hl : L.active.filter (·.readable) with - | ⟨first, rest⟩
    · have hmem : e ∈ L.active.filter (·.readable) := List.mem_filter.mpr ⟨he, hread⟩
      rw [hl] at hmem
      cases hmem
    · rw [hl]
      exact ⟨_, rfl⟩
  obtain ⟨sum, hsum⟩ := hsum
  have hlen : (Text.encode (logText X L.active)).length ≠ 0 := by omega
  refine ⟨(logText X L.active, sum), ?_⟩
  rw [rotateDue]
  simp [hdata, RotateConfig.enabled, hmax, hlen, hsize, h.readLog, hsum]

section Seal

variable {d : Disk} {L : Layout} {sum : Summary}

theorem sealed_segmentOf (d : Disk) (hsum : summarize X (logText X L.active) = some sum)
    (clk : RotateClock) :
    Sealed X
      (writeSegmentZip X d (Text.encode (logText X L.active))
        (segmentOf X (Text.encode (logText X L.active)) sum clk))
      (segmentOf X (Text.encode (logText X L.active)) sum clk) L.active where
  content := by
    simp [readSegment, writeSegmentZip, Disk.writeSegment, segmentOf, X.zip_roundTrip]
  summary := by
    rw [hsum]
    rfl
  named := ⟨_, rfl⟩

/-- The new segment starts after every recorded one, so its file is new. -/
theorem Holds.file_ne_segmentOf (h : Holds X d L) (ho : L.Sorted)
    (hsum : summarize X (logText X L.active) = some sum)
    (clk : RotateClock) :
    ∀ p ∈ L.sealed,
      p.1.file ≠ (segmentOf X (Text.encode (logText X L.active)) sum clk).file := by
  intro p hp hfile
  obtain ⟨stamp, hstamp⟩ := (h.sealed p hp).named
  rw [hstamp] at hfile
  have hstart := seqStart_eq_of_segmentFile_eq hfile
  obtain ⟨e, he, hpe⟩ := (h.sealed p hp).exists_seqStart
  obtain ⟨f, hf, hnew⟩ :=
    (sealed_segmentOf d hsum clk).exists_seqStart
  have hlt := ho.sealed_lt_active hp he hf
  have hnew' : sum.seqStart = f.seq := hnew
  omega

/-- After the zip file is written. -/
theorem Holds.after_zip (h : Holds X d L) (ho : L.Sorted)
    (hsum : summarize X (logText X L.active) = some sum)
    (clk : RotateClock) :
    Holds X
      (writeSegmentZip X d (Text.encode (logText X L.active))
        (segmentOf X (Text.encode (logText X L.active)) sum clk)) L :=
  h.writeSegment (h.file_ne_segmentOf ho hsum clk) _

/-- After the manifest is renamed: the active entries are in both places. -/
theorem Holds.after_manifest (h : Holds X d L) (ho : L.Sorted)
    (hsum : summarize X (logText X L.active) = some sum)
    (clk : RotateClock) :
    Holds X (sealSegment X d (Text.encode (logText X L.active)) sum clk).2
      { L with
        sealed := L.sealed ++
          [(segmentOf X (Text.encode (logText X L.active)) sum clk, L.active)] } :=
  (h.after_zip ho hsum clk).pushSegment (sealed_segmentOf d hsum clk)

/-- After the active file is truncated. -/
theorem Holds.after_truncate (h : Holds X d L) (ho : L.Sorted)
    (hsum : summarize X (logText X L.active) = some sum)
    (clk : RotateClock) :
    Holds X
      (rotated X d (Text.encode (logText X L.active))
        (segmentOf X (Text.encode (logText X L.active)) sum clk))
      (L.seal (segmentOf X (Text.encode (logText X L.active)) sum clk)) :=
  (h.after_manifest ho hsum clk).truncateLog

end Seal

/-- A rotation leaves the key and the open files alone. -/
theorem rotated_frame {d : Disk} {i : Nat} (hi : d.log = some i) (bs : Bytes) (seg : Segment) :
    (rotated X d bs seg).key = d.key ∧ (rotated X d bs seg).log = d.log ∧
      (rotated X d bs seg).next = d.next := by
  simp [rotated, Disk.truncateLog, pushSegment, saveManifest, writeSegmentZip,
    Disk.writeSegment, hi]

theorem rotated_log {d : Disk} {i : Nat} (hi : d.log = some i) (bs : Bytes)
    (seg : Segment) : (rotated X d bs seg).log = some i :=
  (rotated_frame hi bs seg).2.1.trans hi

/-- **Rotation.**  On a directory that holds a sorted layout, `rotate_locked` does
    not fail; it leaves everything as it is, or seals the active entries and points
    the handle at the active file. -/
theorem Holds.rotateLocked_cases {d : Disk} {L : Layout} {i : Nat} (h : Holds X d L)
    (ho : L.Sorted) (hi : d.log = some i) (inner : LogInner) (cfg : RotateConfig)
    (clk : RotateClock) :
    rotateLocked X d inner cfg clk = some (none, d, inner) ∨
      ∃ seg bs, rotateLocked X d inner cfg clk
          = some (some seg, rotated X d bs seg, { inner with file := i }) ∧
        Holds X (rotated X d bs seg) (L.seal seg) := by
  rcases h.rotateDue_cases inner cfg clk.age with hdue | ⟨sum, hsum, hdue⟩
  · left
    rw [rotateLocked, hdue]
    rfl
  · right
    refine ⟨_, _, ?_, h.after_truncate ho hsum clk⟩
    have hlog := rotated_log (X := X) hi (Text.encode (logText X L.active))
      (segmentOf X (Text.encode (logText X L.active)) sum clk)
    have hopen := (h.after_truncate ho hsum clk).openAppend hlog
    rw [rotateLocked, hdue, Option.map_some]
    simp only [rotated, sealSegment] at hopen ⊢
    rw [hopen]

/-! ## enforce_segment_retention -/

/-- Segments whose last entry is older than the cutoff are dropped. -/
def Layout.expireSegments (L : Layout) (cutoff : DateTime) : Layout :=
  { L with sealed := L.sealed.filter fun p => !decide (p.1.tsLast < cutoff) }

theorem Layout.expireSegments_sublist (L : Layout) (cutoff : DateTime) :
    (L.expireSegments cutoff).entries.Sublist L.entries :=
  List.Sublist.append (List.filter_sublist.flatMap _) (List.Sublist.refl _)

theorem removeSegments_segments (segs : List Segment) (d : Disk) {file : String}
    (hfile : ∀ s ∈ segs, s.file ≠ file) :
    (segs.foldl (fun d seg => d.removeSegment seg.file) d).segments file = d.segments file := by
  induction segs generalizing d with
  | nil => rfl
  | cons s segs ih =>
      obtain ⟨hs, hsegs⟩ := List.forall_mem_cons.mp hfile
      rw [List.foldl_cons, ih _ hsegs]
      simp [Disk.removeSegment, Function.update_of_ne hs.symm]

/-- Removing segment files touches nothing else. -/
theorem removeSegments_frame (segs : List Segment) (d : Disk) :
    ∃ f, segs.foldl (fun d seg => d.removeSegment seg.file) d = { d with segments := f } := by
  induction segs generalizing d with
  | nil => exact ⟨d.segments, rfl⟩
  | cons s segs ih =>
      obtain ⟨f, hf⟩ := ih (d.removeSegment s.file)
      exact ⟨f, by rw [List.foldl_cons, hf]; rfl⟩

/-- The segments a test picks go: their files, and their manifest records. -/
def dropSegments (d : Disk) (drop : Segment → Bool) : Disk :=
  saveManifest
    (((loadManifest d).segments.filter drop).foldl (fun d seg => d.removeSegment seg.file) d)
    { loadManifest d with segments := (loadManifest d).segments.filter fun seg => !drop seg }

theorem dropSegments_frame (d : Disk) (drop : Segment → Bool) :
    ∃ f m, dropSegments d drop = { d with segments := f, manifest := m } := by
  obtain ⟨f, hf⟩ := removeSegments_frame ((loadManifest d).segments.filter drop) d
  exact ⟨f, _, by rw [dropSegments, hf]; rfl⟩

/-- Dropping segments of a sorted layout leaves the other segments readable. -/
theorem Holds.dropSegments {d : Disk} {L : Layout} (h : Holds X d L) (ho : L.Sorted)
    (drop : Segment → Bool) :
    Holds X (dropSegments d drop) { L with sealed := L.sealed.filter fun p => !drop p.1 } := by
  -- Segments are told apart by their first number, and so are their files.
  have hnodup : (L.sealed.map (·.1.seqStart)).Nodup :=
    List.pairwise_map.mpr ((h.pairwise_seqStart ho).imp Nat.ne_of_lt)
  -- A segment that stays shares its file with none that goes.
  have hkeep : ∀ p ∈ L.sealed.filter (fun p => !drop p.1), p ∈ L.sealed ∧
      ∀ s ∈ (loadManifest d).segments.filter drop, s.file ≠ p.1.file := by
    intro p hp
    obtain ⟨hp, hstay⟩ := List.mem_filter.mp hp
    refine ⟨hp, ?_⟩
    intro s hs
    obtain ⟨hs, hgo⟩ := List.mem_filter.mp hs
    rw [h.manifest] at hs
    obtain ⟨q, hq, rfl⟩ := List.mem_map.mp hs
    refine h.file_ne hq hp fun heq => ?_
    obtain rfl := List.inj_on_of_nodup_map hnodup hq hp heq
    simp [hgo] at hstay
  obtain ⟨f, hf⟩ := removeSegments_frame ((loadManifest d).segments.filter drop) d
  have hfiles : ∀ p ∈ L.sealed.filter (fun p => !drop p.1), f p.1.file = d.segments p.1.file := by
    intro p hp
    have hseg := removeSegments_segments _ d (hkeep p hp).2
    rw [hf] at hseg
    exact hseg
  rw [Audit.dropSegments, hf]
  -- What stays in the manifest is what stays of the layout.
  refine ⟨?_, fun p hp => ?_, h.log⟩
  · have hmap : (L.sealed.map Prod.fst).filter (fun seg => !drop seg)
        = (L.sealed.filter fun p => !drop p.1).map Prod.fst := by
      rw [List.filter_map]
      rfl
    rw [← hmap, ← h.manifest]
    rfl
  · exact (h.sealed p (hkeep p hp).1).congr (hfiles p hp)

theorem enforceSegmentRetention_eq (d : Disk) {retainDays : Nat} (hdays : retainDays ≠ 0)
    (now : DateTime) :
    (enforceSegmentRetention d retainDays now).1 =
      if (loadManifest d).segments.filter (·.tsLast < now - days retainDays) = [] then d
      else dropSegments d fun seg => decide (seg.tsLast < now - days retainDays) := by
  rw [enforceSegmentRetention, if_neg hdays]
  dsimp only
  by_cases hempty : (loadManifest d).segments = []
  · simp [hempty]
  · rw [if_neg (by simpa using hempty)]
    by_cases hexp : (loadManifest d).segments.filter (·.tsLast < now - days retainDays) = []
    · rw [if_pos hexp, hexp]
      rfl
    · rw [if_neg hexp, if_pos (List.length_pos_of_ne_nil hexp)]
      rfl

theorem enforceSegmentRetention_frame (d : Disk) (retainDays : Nat) (now : DateTime) :
    ∃ f m, (enforceSegmentRetention d retainDays now).1
      = { d with segments := f, manifest := m } := by
  by_cases hdays : retainDays = 0
  · exact ⟨d.segments, d.manifest, by rw [enforceSegmentRetention, if_pos hdays]⟩
  · rw [enforceSegmentRetention_eq d hdays]
    split_ifs
    · exact ⟨d.segments, d.manifest, rfl⟩
    · exact dropSegments_frame d _

/-- **Segment retention.** -/
theorem Holds.enforceSegmentRetention {d : Disk} {L : Layout} (h : Holds X d L) (ho : L.Sorted)
    {retainDays : Nat} (hdays : retainDays ≠ 0) (now : DateTime) :
    Holds X (enforceSegmentRetention d retainDays now).1
      (L.expireSegments (now - days retainDays)) := by
  rw [enforceSegmentRetention_eq d hdays]
  split_ifs with hnone
  · -- Nothing expired.
    have hall : L.sealed.filter (fun p => !decide (p.1.tsLast < now - days retainDays))
        = L.sealed := by
      refine List.filter_eq_self.mpr fun p hp => ?_
      rw [h.manifest, List.filter_eq_nil_iff] at hnone
      simpa using hnone p.1 (List.mem_map_of_mem hp)
    rw [Layout.expireSegments, hall]
    exact h
  · exact h.dropSegments ho _

/-! ## prune_log -/

/-- Active entries older than the cutoff are dropped. -/
def Layout.expireActive (L : Layout) (cutoff : DateTime) : Layout :=
  { L with active := L.active.filter fun e => !expired cutoff e }

theorem Layout.expireActive_sublist (L : Layout) (cutoff : DateTime) :
    (L.expireActive cutoff).entries.Sublist L.entries :=
  List.Sublist.append (List.Sublist.refl _) List.filter_sublist

/-- What a pass finds when it reads. -/
theorem Holds.pruneRead {d : Disk} {L : Layout} (h : Holds X d L) {retainDays : Nat}
    (hdays : retainDays ≠ 0) (now : DateTime) :
    pruneRead X d retainDays now = some
      { kept := (L.expireActive (now - days retainDays)).active.map (·.toText X)
        pruned := (L.active.filter (expired (now - days retainDays))).length } := by
  obtain ⟨i, hi, -⟩ := h.log
  rw [Audit.pruneRead, if_neg hdays, hi]
  simp only [h.readLog, Option.map_some, keptLines_logText, prunedCount_logText,
    Layout.expireActive]

/-- The directory's open files are apart: the temporary file is not the log. -/
structure Disk.Apart (d : Disk) : Prop where
  log_lt : ∀ i, d.log = some i → i < d.next
  tmp_ne : ∀ i, d.log = some i → d.tmp ≠ some i

/-- Writing the temporary file leaves the layout alone. -/
theorem Holds.writeTmp {d : Disk} {L : Layout} (h : Holds X d L) (ha : d.Apart) (bs : Bytes) :
    Holds X (d.writeTmp bs) L := by
  obtain ⟨i, hi, hdata⟩ := h.log
  have hlt := ha.log_lt i hi
  have hne := ha.tmp_ne i hi
  rcases htmp : d.tmp with - | t
  · refine h.of_log L.active ?_ ?_ ⟨i, ?_, ?_⟩ <;>
      simp [Disk.writeTmp, htmp, hi, hdata, Function.update_of_ne (Nat.ne_of_lt hlt)]
  · have hit : i ≠ t := fun heq => hne (heq ▸ htmp)
    refine h.of_log L.active ?_ ?_ ⟨i, ?_, ?_⟩ <;>
      simp [Disk.writeTmp, htmp, hi, hdata, Function.update_of_ne hit]

/-- The temporary file takes the log's place. -/
theorem Holds.renameTmp {d : Disk} {L : Layout} (h : Holds X d L) {t : Nat}
    {es : List AuditEntry} (hdata : d.data t = Text.encode (logText X es)) :
    Holds X { d with log := some t, tmp := none } { L with active := es } :=
  h.of_log es rfl rfl ⟨t, rfl, hdata⟩

/-- The directory after a pass: the log path names a new file. -/
def pruned (d : Disk) (bs : Bytes) : Disk :=
  { d with data := Function.update d.data d.next bs, next := d.next + 1, log := some d.next }

/-- **Pruning.**  A pass that nothing runs into drops the expired active entries; if
    there are any, the log path then names another file. -/
theorem Holds.pruneLog_cases {d : Disk} {L : Layout} (h : Holds X d L) (htmp : d.tmp = none)
    {retainDays : Nat} (hdays : retainDays ≠ 0) (now : DateTime) :
    (L.expireActive (now - days retainDays) = L ∧ pruneLog X d retainDays now = some (d, 0)) ∨
      ∃ n bs, pruneLog X d retainDays now = some (pruned d bs, n) ∧
        Holds X (pruned d bs) (L.expireActive (now - days retainDays)) := by
  rw [pruneLog, h.pruneRead hdays, Option.bind_some]
  dsimp only
  generalize now - days retainDays = cutoff
  split_ifs with hpos
  · right
    refine ⟨(L.active.filter (expired cutoff)).length,
      Text.encode (logText X (L.expireActive cutoff).active), ?_, ?_⟩
    · simp only [pruneRename, pruneWrite, Disk.writeTmp, htmp, Disk.renameTmp, Option.map_some,
        keptBytes, pruned, logText]
    · refine h.of_log _ rfl rfl ⟨d.next, rfl, ?_⟩
      simp [pruned, Layout.expireActive]
  · left
    have hnil : L.active.filter (expired cutoff) = [] :=
      List.eq_nil_of_length_eq_zero (by omega)
    rw [hnil, List.length_nil]
    refine ⟨?_, rfl⟩
    have hall : L.active.filter (fun e => !expired cutoff e) = L.active := by
      rw [List.filter_eq_nil_iff] at hnil
      exact List.filter_eq_self.mpr fun e he => by simpa using hnil e he
    rw [Layout.expireActive, hall]

/-! ## open -/

theorem maxBySeqEnd_append_singleton (segs : List Segment) (s : Segment) :
    maxBySeqEnd (segs ++ [s]) =
      some ((maxBySeqEnd segs).elim s fun b => if b.seqEnd ≤ s.seqEnd then s else b) := by
  rw [maxBySeqEnd, List.foldl_append, ← maxBySeqEnd, List.foldl_cons, List.foldl_nil]
  cases maxBySeqEnd segs with
  | none => rfl
  | some b => exact (apply_ite some _ _ _).symm

/-- Every segment ends before the newest one does. -/
theorem exists_maxBySeqEnd (segs : List Segment) :
    (segs = [] ∧ maxBySeqEnd segs = none) ∨
      ∃ b ∈ segs, maxBySeqEnd segs = some b ∧ ∀ s ∈ segs, s.seqEnd ≤ b.seqEnd := by
  induction segs using List.reverseRecOn with
  | nil => exact .inl ⟨rfl, rfl⟩
  | append_singleton segs s ih =>
      right
      rw [maxBySeqEnd_append_singleton]
      rcases ih with ⟨rfl, hnone⟩ | ⟨b, hmem, hb, hle⟩
      · rw [hnone]
        exact ⟨s, List.mem_singleton_self s, rfl, by simp⟩
      · rw [hb, Option.elim_some]
        split_ifs with hlt
        · refine ⟨s, by simp, rfl, fun t ht => ?_⟩
          rcases List.mem_append.mp ht with ht | ht
          · exact (hle t ht).trans hlt
          · rw [List.mem_singleton.mp ht]
        · refine ⟨b, List.mem_append_left _ hmem, rfl, fun t ht => ?_⟩
          rcases List.mem_append.mp ht with ht | ht
          · exact hle t ht
          · rw [List.mem_singleton.mp ht]
            omega

/-- The segment recorded last is the newest when the others end before it. -/
theorem maxBySeqEnd_concat {segs : List Segment} {s : Segment}
    (h : ∀ t ∈ segs, t.seqEnd ≤ s.seqEnd) : maxBySeqEnd (segs ++ [s]) = some s := by
  rw [maxBySeqEnd_append_singleton]
  rcases exists_maxBySeqEnd segs with ⟨-, hnone⟩ | ⟨b, hmem, hb, -⟩
  · rw [hnone, Option.elim_none]
  · rw [hb, Option.elim_some, if_pos (h b hmem)]

theorem foldl_tail (es : List AuditEntry) (a : Nat × String) :
    es.foldl (fun _ e => (e.seq, e.hmac)) a
      = (es.getLast?.map fun e => (e.seq, e.hmac)).getD a := by
  induction es generalizing a with
  | nil => rfl
  | cons e es ih =>
      rw [List.foldl_cons, ih, List.getLast?_cons]
      cases es.getLast? <;> rfl

theorem Holds.scanTail_eq {d : Disk} {L : Layout} (h : Holds X d L) :
    scanTail X d =
      let tail := ((L.active.filter (·.readable)).getLast?.map fun e => (e.seq, e.hmac)).getD
        (0, genesisHmac)
      some (if tail.1 = 0 then (recoverTail d).getD tail else tail) := by
  obtain ⟨i, hi, -⟩ := h.log
  rw [scanTail, hi]
  simp only [h.readLog, Option.map_some, entriesIn_logText, foldl_tail]

/-- Nothing recorded: the chain starts. -/
theorem Holds.scanTail_empty {d : Disk} {L : Layout} (h : Holds X d L) (hnil : L.entries = []) :
    scanTail X d = some (0, genesisHmac) := by
  obtain ⟨harch, hactive⟩ := List.append_eq_nil_iff.mp hnil
  have hsealed : L.sealed = [] := by
    rcases hs : L.sealed with - | ⟨p, ps⟩
    · rfl
    · have hp : p ∈ L.sealed := hs ▸ List.mem_cons_self ..
      obtain ⟨e, he, -⟩ := (h.sealed p hp).exists_seqStart
      have hmem := Layout.mem_archived hp (List.mem_of_mem_filter he)
      rw [harch] at hmem
      cases hmem
  rw [h.scanTail_eq, hactive]
  simp [recoverTail, h.manifest, hsealed, maxBySeqEnd]

/-- With an empty active file the newest entry is found through the manifest. -/
theorem Holds.recoverTail_newest {d : Disk} {L : Layout} (h : Holds X d L) (ho : L.Sorted)
    {e : AuditEntry} (hactive : L.active = []) (hlast : L.entries.getLast? = some e)
    (hread : e.readable = true) : recoverTail d = some (e.seq, e.hmac) := by
  rw [Layout.entries, hactive, List.append_nil] at hlast
  rcases List.eq_nil_or_concat L.sealed with hsealed | ⟨ps, p, hsealed⟩
  · simp [Layout.archived, hsealed] at hlast
  rw [List.concat_eq_append] at hsealed
  have hp : p ∈ L.sealed := by simp [hsealed]
  have hps : ∀ q ∈ ps, q ∈ L.sealed := fun q hq => by simp [hsealed, hq]
  obtain ⟨f, hf, hend⟩ := (h.sealed p hp).exists_seqEnd
  have hne : p.2 ≠ [] := List.ne_nil_of_mem (List.mem_of_mem_filter hf)
  obtain ⟨es, g, hg⟩ := (List.eq_nil_or_concat p.2).resolve_left hne
  rw [List.concat_eq_append] at hg
  obtain rfl : g = e := by
    simpa [Layout.archived, hsealed, hg] using hlast
  have htail := (hg ▸ h.sealed p hp).tail_eq hread
  have hmax : maxBySeqEnd (L.sealed.map Prod.fst) = some p.1 := by
    rw [hsealed, List.map_append, List.map_singleton]
    refine maxBySeqEnd_concat fun s hs => ?_
    obtain ⟨q, hq, rfl⟩ := List.mem_map.mp hs
    obtain ⟨k, hk, hqend⟩ := (h.sealed q (hps q hq)).exists_seqEnd
    rw [hqend, hend]
    have hblocks := ho.pairwise_sealed
    rw [hsealed] at hblocks
    have hlt := (List.pairwise_append.mp hblocks).2.2 q hq p (List.mem_singleton_self p)
    exact Nat.le_of_lt (hlt k hk f hf)
  rw [recoverTail, h.manifest, hmax, Option.map_some, htail.1, htail.2]

/-- **Opening.**  When the newest recorded entry reads back, `scan_tail` finds it,
    whether it is in the active file or in the last segment. -/
theorem Holds.scanTail_newest {d : Disk} {L : Layout} (h : Holds X d L) (ho : L.Sorted)
    {e : AuditEntry} (hlast : L.entries.getLast? = some e) (hread : e.readable = true)
    (hpos : 0 < e.seq) : scanTail X d = some (e.seq, e.hmac) := by
  rw [h.scanTail_eq]
  rcases List.eq_nil_or_concat L.active with hactive | ⟨es, f, hactive⟩
  · -- The active file is empty: the newest entry ends the last segment.
    rw [hactive, List.filter_nil]
    simp only [List.getLast?_nil, Option.map_none, Option.getD_none, if_true]
    rw [h.recoverTail_newest ho hactive hlast hread, Option.getD_some]
  · have hf : f = e := by
      rw [Layout.entries, hactive, List.concat_eq_append, ← List.append_assoc,
        List.getLast?_concat] at hlast
      exact Option.some.inj hlast
    subst hf
    have htail : (L.active.filter (·.readable)).getLast? = some f := by
      rw [hactive, List.concat_eq_append, List.filter_append, List.filter_singleton, hread]
      simp
    simp only [htail, Option.map_some, Option.getD_some]
    rw [if_neg (by omega)]

/-! ## verify_all -/

/-- A chain from where the verifier starts: at genesis when the first entry is
    number one, and else at whatever the first entry says. -/
def Anchored (X : External) (key : Bytes) (es : List AuditEntry) : Prop :=
  ∀ e, es.head? = some e →
    Chained X key e.seq (if e.seq = 1 then genesisHmac else e.prevHmac) es

theorem anchored_nil (key : Bytes) : Anchored X key [] := by
  intro e he
  cases he

theorem walkSegments_spec (key : Bytes) {d : Disk} {ps : List (Segment × List AuditEntry)}
    (hps : ∀ p ∈ ps, Sealed X d p.1 p.2) (cur : Cursor) :
    ∃ r, walkSegments X d key (ps.map Prod.fst) cur = some r ∧
      (r.2 = none ↔ (∀ e ∈ ps.flatMap Prod.snd, e.readable = true) ∧
        Chained X key cur.expectedSeq cur.prevHmac (ps.flatMap Prod.snd)) ∧
      (r.2 = none → r.1 = cur.after (ps.flatMap Prod.snd)) := by
  -- On the segments; the cursor goes from the end of one to the start of the next.
  induction ps generalizing cur with
  | nil => exact ⟨(cur, none), rfl, by simp [HashChain.Linked], fun _ => rfl⟩
  | cons p ps ih =>
      obtain ⟨hp, hps⟩ := List.forall_mem_cons.mp hps
      rw [List.map_cons, walkSegments, hp.content, Option.bind_some, List.flatMap_cons]
      have hwalk := walk_logText_eq_none X p.2 key cur
      simp only [List.forall_mem_append, HashChain.linked_append]
      rcases hw : walk X (logText X p.2) key cur with ⟨cur', - | v⟩
      · rw [hw] at hwalk
        obtain ⟨hread, hchain⟩ := hwalk.mp rfl
        have hcur : cur' = cur.after p.2 := by
          have := walk_logText X hread hchain
          rw [hw] at this
          exact (Prod.mk.inj this).1
        -- The tag that the manifest names is that of the last entry, when all are readable.
        have hlast : cur'.prevHmac = p.1.lastHmac := by
          obtain ⟨first, last, -, hlast, -, -, -, hhmac, -⟩ := hp.exists_ends
          rw [List.filter_eq_self.mpr hread] at hlast
          rw [hhmac, hcur, Cursor.after, HashChain.lastTag, hlast]
          rfl
        simp only [hlast, ne_eq, not_true_eq_false, if_false]
        obtain ⟨r, hr, hiff, hafter⟩ := ih hps cur'
        rw [hcur] at hiff hafter
        refine ⟨r, hr, ?_, ?_⟩
        · rw [hiff]
          simp only [Cursor.after]
          tauto
        · intro hnone
          rw [hafter hnone]
          simp [Cursor.after, HashChain.lastTag_append, Nat.add_assoc]
      -- Rejected inside this segment, so the chain is broken here.
      · rw [hw] at hwalk
        refine ⟨(cur', some v), rfl, ?_, by simp⟩
        simp only [reduceCtorEq, false_iff] at hwalk ⊢
        tauto

theorem anchor_logText {e : AuditEntry} (hread : e.readable = true) (hpos : 0 < e.seq)
    (es : List AuditEntry) :
    anchor X (logText X (e :: es)) =
      { expectedSeq := e.seq, prevHmac := if e.seq = 1 then genesisHmac else e.prevHmac,
        checked := 0 } := by
  rw [anchor, contentLines_logText, List.map_cons, List.head?_cons, Option.bind_some,
    AuditEntry.fromStr_toText, if_pos hread]
  by_cases hone : e.seq = 1
  · simp [hone]
  · have hlt : 1 < e.seq := by omega
    simp [hone, hlt]

/-- `verify_log` on what `append` wrote. -/
theorem verifyContent_logText (key : Bytes) {es : List AuditEntry}
    (hpos : ∀ e ∈ es, 0 < e.seq) :
    ((verifyContent X (logText X es) key).ok = true ↔
        (∀ e ∈ es, e.readable = true) ∧ Anchored X key es) ∧
      ((verifyContent X (logText X es) key).ok = true →
        (verifyContent X (logText X es) key).entriesChecked = es.length) := by
  -- The anchor is the first entry, so the chain is asked of the entries behind it.
  rcases es with - | ⟨e, es⟩
  · exact ⟨by simp [anchored_nil]; rfl, fun _ => rfl⟩
  have hwalk := walk_logText_eq_none X (e :: es) key (anchor X (logText X (e :: es)))
  have hok : (verifyContent X (logText X (e :: es)) key).ok = true ↔
      (walk X (logText X (e :: es)) key (anchor X (logText X (e :: es)))).2 = none := by
    simp [verifyContent, VerifyResult.of]
  rw [hok, hwalk]
  constructor
  · constructor
    · rintro ⟨hread, hchain⟩
      refine ⟨hread, ?_⟩
      rw [anchor_logText (hread e (List.mem_cons_self ..)) (hpos e (List.mem_cons_self ..))]
        at hchain
      intro f hf
      obtain rfl : e = f := Option.some.inj hf
      exact hchain
    · rintro ⟨hread, hanch⟩
      refine ⟨hread, ?_⟩
      rw [anchor_logText (hread e (List.mem_cons_self ..)) (hpos e (List.mem_cons_self ..))]
      exact hanch e rfl
  -- Accepted: every line was counted.
  · rintro ⟨hread, hchain⟩
    rw [verifyContent, walk_logText X hread hchain]
    rw [anchor_logText (hread e (List.mem_cons_self ..)) (hpos e (List.mem_cons_self ..))]
    simp [VerifyResult.of, Cursor.after]

/-- A readable segment is where its first entry says. -/
theorem Sealed.segmentAnchor_eq {d : Disk} {seg : Segment} {es : List AuditEntry}
    (h : Sealed X d seg es) (hread : ∀ e ∈ es, e.readable = true) :
    ∃ e, es.head? = some e ∧ segmentAnchor seg =
      { expectedSeq := e.seq, prevHmac := if e.seq = 1 then genesisHmac else e.prevHmac,
        checked := 0 } := by
  obtain ⟨first, last, hfirst, -, hstart, hprev, -⟩ := h.exists_ends
  rw [List.filter_eq_self.mpr hread] at hfirst
  exact ⟨first, hfirst, by rw [segmentAnchor, hstart, hprev]⟩

/-- `verify_all` over at least one segment is one walk over all entries. -/
theorem Holds.verifyAll_sealed {d : Disk} {L : Layout} (h : Holds X d L) (key : Bytes)
    (cur : Cursor) :
    ∃ r, ((walkSegments X d key (L.sealed.map Prod.fst) cur).bind fun
        | (cur, some v) => some (VerifyResult.of (cur, some v))
        | (cur, none) =>
            match d.log with
            | none => some (.of (cur, none))
            | some _ => d.readLog.map fun content => .of (walk X content key cur)) = some r ∧
      (r.ok = true ↔ (∀ e ∈ L.entries, e.readable = true) ∧
        Chained X key cur.expectedSeq cur.prevHmac L.entries) ∧
      (r.ok = true → r.entriesChecked = cur.checked + L.entries.length) := by
  obtain ⟨i, hi, -⟩ := h.log
  obtain ⟨⟨cur', o⟩, hr, hiff, hafter⟩ := walkSegments_spec key h.sealed cur
  rw [hr, Option.bind_some]
  have hentries : L.entries = L.sealed.flatMap Prod.snd ++ L.active := rfl
  simp only [hentries, List.forall_mem_append, HashChain.linked_append]
  -- The segments first, and then the active file with the cursor they leave.
  rcases o with - | v
  · obtain rfl := hafter rfl
    obtain ⟨hread, hchain⟩ := hiff.mp rfl
    have hwalk := walk_logText_eq_none X L.active key
      (cur.after (L.sealed.flatMap Prod.snd))
    simp only [hi, h.readLog, Option.map_some]
    refine ⟨_, rfl, ?_, ?_⟩
    · simp only [VerifyResult.of, Option.isNone_iff_eq_none]
      rw [hwalk]
      simp only [Cursor.after]
      tauto
    · intro hok
      simp only [VerifyResult.of, Option.isNone_iff_eq_none] at hok ⊢
      obtain ⟨hread', hchain'⟩ := hwalk.mp hok
      rw [walk_logText X hread' hchain']
      simp [Cursor.after, Nat.add_assoc]
  -- A violation in a segment is the result.
  · refine ⟨_, rfl, ?_, by simp [VerifyResult.of]⟩
    simp only [VerifyResult.of, Option.isNone_some, Bool.false_eq_true, false_iff]
    simp only [reduceCtorEq, false_iff] at hiff
    tauto

theorem Holds.mergeSort_segments {d : Disk} {L : Layout} (h : Holds X d L)
    (hstart : L.sealed.Pairwise (·.1.seqStart ≤ ·.1.seqStart)) :
    (loadManifest d).segments.mergeSort (fun s t => decide (s.seqStart ≤ t.seqStart))
      = L.sealed.map Prod.fst := by
  rw [h.manifest]
  refine List.mergeSort_of_pairwise (List.pairwise_map.mpr ?_)
  exact hstart.imp fun hle => by simpa using hle

/-- **Verification.**  On a directory that holds a layout, `verify_all` answers, and it
    accepts exactly when every entry reads back and all of them are one chain. -/
theorem Holds.verifyAll_spec {d : Disk} {L : Layout} (h : Holds X d L)
    (hstart : L.sealed.Pairwise (·.1.seqStart ≤ ·.1.seqStart))
    (hpos : ∀ e ∈ L.entries, 0 < e.seq) (key : Bytes) :
    ∃ r, verifyAll X d key = some r ∧
      (r.ok = true ↔ (∀ e ∈ L.entries, e.readable = true) ∧ Anchored X key L.entries) ∧
      (r.ok = true → r.entriesChecked = L.entries.length) := by
  rw [verifyAll, h.mergeSort_segments hstart]
  rcases hsealed : L.sealed with - | ⟨p, ps⟩
  · -- No segment: the active file on its own.
    obtain ⟨i, hi, -⟩ := h.log
    have hentries : L.entries = L.active := by simp [Layout.entries, Layout.archived, hsealed]
    rw [hentries] at hpos ⊢
    have hspec := verifyContent_logText (X := X) key hpos
    simp only [List.map_nil, verifyLog, hi, h.readLog, Option.map_some]
    exact ⟨_, rfl, hspec⟩
  · have hp : Sealed X d p.1 p.2 := h.sealed p (hsealed ▸ List.mem_cons_self ..)
    obtain ⟨r, hr, hiff, hcount⟩ := h.verifyAll_sealed key (segmentAnchor p.1)
    rw [hsealed, List.map_cons] at hr
    refine ⟨r, hr, ?_, fun hok => by simpa [segmentAnchor] using hcount hok⟩
    rw [hiff]
    -- All are readable, so the anchor of the first segment is that of the first entry.
    refine and_congr_right fun hread => ?_
    have hreadp : ∀ e ∈ p.2, e.readable = true := fun e he =>
      hread e (List.mem_append_left _ (Layout.mem_archived (hsealed ▸ List.mem_cons_self ..) he))
    obtain ⟨e, he, hanchor⟩ := hp.segmentAnchor_eq hreadp
    have hhead : L.entries.head? = some e := by
      rw [Layout.entries, Layout.archived, hsealed, List.flatMap_cons, List.append_assoc,
        List.head?_append, he]
      rfl
    rw [hanchor]
    constructor
    · intro hchain f hf
      obtain rfl : e = f := Option.some.inj (hhead.symm.trans hf)
      exact hchain
    · intro hanch
      exact hanch e hhead

end Maranode.Audit
