/-
  Maranode.Audit.Seals

  What a sealed segment says of the log it was made of.

  The archive always has the log, and the manifest keeps the earlier records.  The record
  of the segment is made from the lines that parse, so it tells the log's first and last
  entry and their number exactly when all of them parse (`seal_faithful_iff`).  Names come
  from the first number, and those increase over any run.
-/
import Maranode.Audit.Handles
import Maranode.Audit.Protection

namespace Maranode.Audit

open Lib Common

/-- A manifest record against the entries of its segment. -/
structure Describes (seg : Segment) (es : List AuditEntry) : Prop where
  first : ∃ e, es.head? = some e ∧
    seg.seqStart = e.seq ∧ seg.firstPrevHmac = e.prevHmac ∧ seg.tsFirst = e.ts
  last : ∃ e, es.getLast? = some e ∧
    seg.seqEnd = e.seq ∧ seg.lastHmac = e.hmac ∧ seg.tsLast = e.ts
  entries : seg.entries = es.length

variable (X : External)

/-- Sealing a log of these entries, when there is a summary to seal it with. -/
def SealsFaithfully (d : Disk) (es : List AuditEntry) (clk : RotateClock) : Prop :=
  ∀ sum, summarize X (logText X es) = some sum →
    let sealed := sealSegment X d (Text.encode (logText X es)) sum clk
    readSegment X sealed.2 sealed.1 = some (logText X es) ∧ Describes sealed.1 es ∧
      (loadManifest sealed.2).segments = (loadManifest d).segments ++ [sealed.1]

variable {X}

theorem readSegment_sealSegment (d : Disk) (content : Text) (sum : Summary) (clk : RotateClock) :
    readSegment X (sealSegment X d (Text.encode content) sum clk).2
      (sealSegment X d (Text.encode content) sum clk).1 = some content := by
  simp [readSegment, sealSegment, pushSegment, saveManifest, writeSegmentZip, Disk.writeSegment,
    segmentOf, X.zip_roundTrip]

theorem segments_sealSegment (d : Disk) (bs : Bytes) (sum : Summary) (clk : RotateClock) :
    (loadManifest (sealSegment X d bs sum clk).2).segments =
      (loadManifest d).segments ++ [(sealSegment X d bs sum clk).1] := rfl

/-- The record is about the entries that read back. -/
theorem summarize_logText {es : List AuditEntry} {sum : Summary}
    (h : summarize X (logText X es) = some sum) :
    ∃ first rest, es.filter (·.readable) = first :: rest ∧
      sum = summaryOf first (rest.getLastD first) (rest.length + 1) := by
  rw [summarize_eq, entriesIn_logText] at h
  cases hrs : es.filter (·.readable) with
  | nil =>
      rw [hrs] at h
      cases h
  | cons first rest =>
      rw [hrs, List.head?_cons, Option.map_some, List.getLastD_cons, List.length_cons] at h
      exact ⟨first, rest, rfl, (Option.some.inj h).symm⟩

theorem describes_iff {es : List AuditEntry} {sum : Summary}
    (h : summarize X (logText X es) = some sum) (bs : Bytes) (clk : RotateClock) :
    Describes (segmentOf X bs sum clk) es ↔ ∀ e ∈ es, e.readable = true := by
  obtain ⟨first, rest, hrs, rfl⟩ := summarize_logText h
  have hlen : (es.filter (·.readable)).length = rest.length + 1 := by
    rw [hrs, List.length_cons]
  constructor
  · intro hdesc
    have hentries : rest.length + 1 = es.length := hdesc.entries
    exact List.length_filter_eq_length_iff.mp (hlen.trans hentries)
  · intro hall
    have hes : es = first :: rest := by rw [← hrs, List.filter_eq_self.mpr hall]
    subst hes
    refine ⟨⟨first, rfl, rfl, rfl, rfl⟩, ⟨rest.getLastD first, ?_, rfl, rfl, rfl⟩, rfl⟩
    rw [List.getLast?_cons, List.getLastD_eq_getLast?]

theorem sealsFaithfully_iff (d : Disk) (es : List AuditEntry) (clk : RotateClock) :
    SealsFaithfully X d es clk ↔
      (∀ e ∈ es, e.readable = true) ∨ ∀ e ∈ es, e.readable = false := by
  constructor
  · intro hseal
    by_cases hnone : ∀ e ∈ es, e.readable = false
    · exact Or.inr hnone
    · obtain ⟨e, he, hread⟩ : ∃ e ∈ es, e.readable = true := by simpa using hnone
      obtain ⟨first, rest, hrs⟩ := List.exists_cons_of_ne_nil
        (List.ne_nil_of_mem (List.mem_filter.mpr ⟨he, hread⟩))
      have hsum : ∃ sum, summarize X (logText X es) = some sum := by
        rw [summarize_eq, entriesIn_logText, hrs]
        exact ⟨_, rfl⟩
      obtain ⟨sum, hsum⟩ := hsum
      exact Or.inl ((describes_iff hsum _ clk).mp (hseal sum hsum).2.1)
  · rintro (hall | hnone) sum hsum
    · exact ⟨readSegment_sealSegment .., (describes_iff hsum _ clk).mpr hall,
        segments_sealSegment ..⟩
    · -- Nothing reads back, so there is no summary.
      obtain ⟨first, rest, hrs, -⟩ := summarize_logText hsum
      have hmem : first ∈ es.filter (·.readable) := hrs ▸ List.mem_cons_self
      obtain ⟨hmem, hread⟩ := List.mem_filter.mp hmem
      rw [hnone first hmem] at hread
      cases hread

/-! ## Over a run -/

/-- The files of a sorted layout have different names. -/
theorem Holds.nodup_files {d : Disk} {L : Layout} (h : Holds X d L) (hs : L.Sorted) :
    ((loadManifest d).segments.map (·.file)).Nodup := by
  rw [h.manifest, List.map_map]
  refine List.pairwise_map.mpr ((h.pairwise_seqStart hs).imp_of_mem fun hp hq hlt => ?_)
  exact h.file_ne hp hq (Nat.ne_of_lt hlt)

/-- The new segment's name is new as well. -/
theorem Tidy.nodup_files_seal {s : Sys} {L : Layout} (h : Tidy X s L) {sum : Summary}
    (hsum : summarize X (logText X L.active) = some sum) (clk : RotateClock) :
    ((loadManifest (sealSegment X s.disk (Text.encode (logText X L.active)) sum clk).2).segments.map
      (·.file)).Nodup := by
  have hnew := h.holds.file_ne_segmentOf h.sorted hsum clk
  rw [segments_sealSegment, List.map_append, List.nodup_append]
  refine ⟨h.holds.nodup_files h.sorted, List.pairwise_singleton .., ?_⟩
  intro file hfile file' hfile'
  rw [h.holds.manifest, List.map_map] at hfile
  obtain ⟨p, hp, rfl⟩ := List.mem_map.mp hfile
  obtain rfl := List.mem_singleton.mp hfile'
  exact hnew p hp

/-- A run of any operations leaves a tidy state. -/
theorem tidy_run (rand : RandomKey) (ops : List Op) :
    ∃ s, Sys.run X (freshSys rand) ops = some s ∧ ∃ L, Tidy X s L := by
  have hsteps : Run.Along (Sys.step X) (fun _ _ => True) (freshSys rand) ops :=
    Run.along_of_forall (fun _ _ _ => trivial) _
  exact Run.run_invariant (I := fun s => ∃ L, Tidy X s L) (fun s o ⟨L, htidy⟩ _ => htidy.step o)
    ⟨_, tidy_freshSys rand⟩ hsteps

variable (X) in
/-- **Sealing.**  A segment has the log it was made of and is recorded after the earlier
    ones; its record describes the log exactly when every entry reads back (when none
    does, nothing is sealed).  In whatever run the seals occur, their files have different
    names. -/
theorem seal_faithful_iff :
    (∀ d es clk, SealsFaithfully X d es clk ↔
      (∀ e ∈ es, e.readable = true) ∨ ∀ e ∈ es, e.readable = false) ∧
    ∀ rand ops, ∃ s es, Sys.run X (freshSys rand) ops = some s ∧
      s.disk.readLog = some (logText X es) ∧
      ((loadManifest s.disk).segments.map (·.file)).Nodup ∧
      ∀ sum clk, summarize X (logText X es) = some sum →
        ((loadManifest
          (sealSegment X s.disk (Text.encode (logText X es)) sum clk).2).segments.map
            (·.file)).Nodup := by
  refine ⟨sealsFaithfully_iff, fun rand ops => ?_⟩
  obtain ⟨s, hs, L, htidy⟩ := tidy_run (X := X) rand ops
  exact ⟨s, L.active, hs, htidy.holds.readLog, htidy.holds.nodup_files htidy.sorted,
    fun sum clk hsum => htidy.nodup_files_seal hsum clk⟩

/-- A shutdown and then a deletion certificate. -/
def withCertificate : List AuditEntry :=
  [nextEntry External.sample (freshLog zeroKey) (stopAt 0),
    nextEntry External.sample
      (appendEntry External.sample (freshDisk zeroKey) (freshLog zeroKey) (stopAt 0)).2
      (shredAt newYear)]

/-- The record of the segment passes over the certificate. -/
theorem not_sealsFaithfully_certificate :
    ¬ SealsFaithfully External.sample Disk.empty withCertificate newYearClock := by
  rw [sealsFaithfully_iff]
  rintro (hall | hnone)
  · exact absurd (hall _ (List.mem_cons_of_mem _ List.mem_cons_self)) Bool.false_ne_true
  · exact absurd (hnone _ List.mem_cons_self).symm Bool.false_ne_true

end Maranode.Audit
