/-
  Maranode.Audit.LogAlone

  The active log of a directory without its segments.

  Where `verify_all` accepts the directory, `verify_log` accepts the log alone and counts as
  many entries exactly when the segments hold none (`verifyLog_agrees_iff`).
-/
import Maranode.Audit.Content

namespace Maranode.Audit

open Lib Common

variable (X : External)

/-- No segment holds an entry, and the log does not start with an entry number zero. -/
def LogIsAll (d : Disk) : Prop :=
  (loadManifest d).segments = [] ∨
    (∀ seg ∈ (loadManifest d).segments, ∀ content, readSegment X d seg = some content →
      contentLines content = []) ∧
    ∀ content e, d.readLog = some content →
      (contentLines content).head?.bind (AuditEntry.fromStr X) = some e → e.seq ≠ 0

variable {X} {d : Disk} {key : Bytes} {cur cur' : Cursor} {content : Text}

/-! ## What a walk counts -/

/-- An accepted walk counts the lines. -/
theorem walk_ok (h : walk X content key cur = (cur', none)) :
    ∃ es, Reads X (Text.lines content) es ∧ Chained X key cur.expectedSeq cur.prevHmac es ∧
      cur' = cur.after es := by
  obtain ⟨es, hreads, hchain⟩ := (walk_eq_none X).mp (congrArg Prod.snd h)
  have hafter : walk X content key cur = (cur.after es, none) :=
    walkFrom_of_chained X 0 hreads hchain
  exact ⟨es, hreads, hchain, (Prod.mk.inj (h.symm.trans hafter)).1⟩

theorem Reads.contentLines_eq_nil_iff {es : List AuditEntry}
    (h : Reads X (Text.lines content) es) : contentLines content = [] ↔ es = [] := by
  have hlength := congrArg List.length h
  rw [List.length_map, List.length_map] at hlength
  rw [← List.length_eq_zero_iff, ← List.length_eq_zero_iff]
  exact ⟨fun hnil => hlength.symm.trans hnil, fun hnil => hlength.trans hnil⟩

theorem Reads.unique {es fs : List AuditEntry} {ls : List Text} (h : Reads X ls es)
    (h' : Reads X ls fs) : es = fs :=
  List.map_injective_iff.mpr (Option.some_injective _) (h.symm.trans h')

/-- The first entry. -/
theorem Reads.head {es : List AuditEntry} (h : Reads X (Text.lines content) es) :
    (contentLines content).head?.bind (AuditEntry.fromStr X) = es.head? := by
  have hhead := congrArg List.head? h
  rw [List.head?_map, List.head?_map] at hhead
  show ((Text.lines content).filter _).head?.bind _ = _
  cases hlines : ((Text.lines content).filter fun l => !Text.isBlank l).head? with
  | none =>
      rw [hlines] at hhead
      cases hes : es.head? with
      | none => rfl
      | some e =>
          rw [hes] at hhead
          cases hhead
  | some l =>
      rw [hlines] at hhead
      cases hes : es.head? with
      | none =>
          rw [hes] at hhead
          cases hhead
      | some e =>
          rw [hes] at hhead
          exact Option.some.inj hhead

/-- What the segments add to the count; nothing moves when that is nothing. -/
theorem walkSegments_ok {segs : List Segment}
    (h : walkSegments X d key segs cur = some (cur', none)) :
    ∃ n, cur'.checked = cur.checked + n ∧ (n = 0 → cur' = cur) ∧
      (n = 0 ↔ ∀ seg ∈ segs, ∀ content, readSegment X d seg = some content →
        contentLines content = []) := by
  -- On the segments that are still to be walked.
  induction segs generalizing cur with
  | nil =>
      obtain rfl : cur = cur' := (Prod.mk.inj (Option.some.inj h)).1
      refine ⟨0, rfl, fun _ => rfl, iff_of_true rfl fun seg hseg => ?_⟩
      cases hseg
  | cons seg segs ih =>
      obtain ⟨content, hread, h⟩ := Option.bind_eq_some_iff.mp h
      rcases hwalk : walk X content key cur with ⟨between, - | v⟩
      · rw [hwalk] at h
        dsimp only at h
        split at h
        · cases h
        -- The segment is accepted, so its lines are the entries that were read.
        · obtain ⟨es, hreads, -, rfl⟩ := walk_ok hwalk
          obtain ⟨n, hcount, hsame, hblank⟩ := ih h
          have hfirst : (∀ c, readSegment X d seg = some c → contentLines c = []) ↔ es = [] := by
            rw [← hreads.contentLines_eq_nil_iff]
            refine ⟨fun hall => hall content hread, fun hnil c hc => ?_⟩
            rwa [← Option.some.inj (hread.symm.trans hc)]
          refine ⟨es.length + n, ?_, fun hzero => ?_, ?_⟩
          · rw [hcount, Cursor.after, Nat.add_assoc]
          · obtain ⟨hes, hn⟩ := Nat.add_eq_zero_iff.mp hzero
            rw [hsame hn, List.length_eq_zero_iff.mp hes, Cursor.after_nil]
          -- Nothing was counted exactly when no segment has a line.
          · rw [Nat.add_eq_zero_iff, List.length_eq_zero_iff, List.forall_mem_cons, hblank, hfirst]
      · rw [hwalk] at h
        cases h

/-! ## The log alone -/

/-- From the anchor of a log, a chain that starts where the first segment says. -/
theorem walk_anchor_iff {es : List AuditEntry} {first : Segment}
    (hreads : Reads X (Text.lines content) es)
    (hchain : Chained X key (segmentAnchor first).expectedSeq (segmentAnchor first).prevHmac es) :
    (walk X content key (anchor X content)).2 = none ↔ ∀ e, es.head? = some e → e.seq ≠ 0 := by
  -- Nothing to read is nothing to reject.
  cases es with
  | nil =>
      have hwalk : walk X content key (anchor X content) = ((anchor X content).after [], none) :=
        walkFrom_of_chained X 0 hreads trivial
      refine iff_of_true (congrArg Prod.snd hwalk) fun e he => ?_
      cases he
  | cons e es =>
      obtain ⟨hseq, hprev, hmac, hrest⟩ := hchain
      have hhead : (contentLines content).head?.bind (AuditEntry.fromStr X) = some e :=
        hreads.head
      -- The anchor is taken from the first line itself, unless its number is at most one.
      have hanchor : anchor X content =
          if 1 < e.seq then { expectedSeq := e.seq, prevHmac := e.prevHmac, checked := 0 }
          else { expectedSeq := 1, prevHmac := genesisHmac, checked := 0 } := by
        rw [anchor, hhead]
      constructor
      · intro hnone e' he' hzero
        obtain rfl := Option.some.inj he'
        obtain ⟨es', hreads', hchain'⟩ := (walk_eq_none X).mp hnone
        obtain rfl := hreads.unique hreads'
        -- Number zero is read from genesis on as number one.
        rw [hanchor, if_neg (by omega)] at hchain'
        have hone : e.seq = 1 := hchain'.1
        omega
      · intro hpos
        have hne := hpos e rfl
        refine (walk_eq_none X).mpr ⟨e :: es, hreads, ?_⟩
        rw [hanchor]
        -- The chain starts where the segment before it ended, and that is what its first line says.
        by_cases hlt : 1 < e.seq
        · rw [if_pos hlt]
          refine ⟨rfl, rfl, hmac, ?_⟩
          rwa [← hseq] at hrest
        · -- Number one comes after genesis, for the first segment too.
          have hone : e.seq = 1 := by omega
          have hgenesis : (segmentAnchor first).prevHmac = genesisHmac := by
            have hstart : first.seqStart = 1 := hseq.symm.trans hone
            rw [segmentAnchor, if_pos hstart]
          rw [if_neg hlt]
          refine ⟨hone, hprev.trans hgenesis, hmac, ?_⟩
          rw [← hseq, hone] at hrest
          exact hrest

theorem anchor_checked : (anchor X content).checked = 0 := by
  unfold anchor
  dsimp only
  split
  · split
    · rfl
    · rfl
  · rfl

/-- A log that is accepted is counted from nothing. -/
theorem entriesChecked_of_ok {es : List AuditEntry} (hreads : Reads X (Text.lines content) es)
    (hok : (verifyContent X content key).ok = true) :
    (verifyContent X content key).entriesChecked = es.length := by
  have hnone : (walk X content key (anchor X content)).2 = none :=
    Option.isNone_iff_eq_none.mp hok
  obtain ⟨es', hreads', -, hafter⟩ := walk_ok (Prod.ext rfl hnone)
  obtain rfl := hreads.unique hreads'
  have hchecked := congrArg Cursor.checked hafter
  rwa [Cursor.after, anchor_checked, Nat.zero_add] at hchecked

/-- The active log after segments with `n` entries. -/
theorem verifyContent_agrees_iff {es : List AuditEntry} {first : Segment} {n : Nat}
    (hreads : Reads X (Text.lines content) es)
    (hchain : Chained X key cur.expectedSeq cur.prevHmac es)
    (hsame : n = 0 → cur = segmentAnchor first) :
    (verifyContent X content key).ok = true ∧
        (verifyContent X content key).entriesChecked = n + es.length ↔
      n = 0 ∧ ∀ e, es.head? = some e → e.seq ≠ 0 := by
  constructor
  · rintro ⟨hok, hchecked⟩
    rw [entriesChecked_of_ok hreads hok] at hchecked
    have hn : n = 0 := by omega
    rw [hsame hn] at hchain
    exact ⟨hn, (walk_anchor_iff hreads hchain).mp (Option.isNone_iff_eq_none.mp hok)⟩
  · rintro ⟨hn, hfirst⟩
    rw [hsame hn] at hchain
    have hok : (verifyContent X content key).ok = true :=
      Option.isNone_iff_eq_none.mpr ((walk_anchor_iff hreads hchain).mpr hfirst)
    refine ⟨hok, ?_⟩
    rw [entriesChecked_of_ok hreads hok, hn, Nat.zero_add]

/-- Without a manifest the log is all there is. -/
theorem verifyAll_of_noManifest (h : d.manifest = none) :
    verifyAll X d key = verifyLog X d key := by
  have hsegments : (loadManifest d).segments = [] := by
    rw [loadManifest, h]
    rfl
  unfold verifyAll
  rw [hsegments, List.mergeSort_nil]

/-- The log alone, when it can be read, after segments with `n` entries. -/
theorem verifyLog_counts_iff {es : List AuditEntry} {first : Segment} {n : Nat}
    (hread : d.readLog = some content) (hreads : Reads X (Text.lines content) es)
    (hchain : Chained X key cur.expectedSeq cur.prevHmac es)
    (hsame : n = 0 → cur = segmentAnchor first) :
    (∃ r', d.readLog.map (fun content => verifyContent X content key) = some r' ∧ r'.ok = true ∧
        r'.entriesChecked = n + es.length) ↔
      n = 0 ∧ ∀ content e, d.readLog = some content →
        (contentLines content).head?.bind (AuditEntry.fromStr X) = some e → e.seq ≠ 0 := by
  have hagrees := verifyContent_agrees_iff hreads hchain hsame
  rw [hread, Option.map_some]
  constructor
  · rintro ⟨r', hr', hverified⟩
    obtain rfl := Option.some.inj hr'
    obtain ⟨hn, hfirst⟩ := hagrees.mp hverified
    refine ⟨hn, fun content' e hcontent he => ?_⟩
    obtain rfl := Option.some.inj hcontent
    exact hfirst e (hreads.head.symm.trans he)
  · rintro ⟨hn, hfirst⟩
    have hverified := hagrees.mpr ⟨hn, fun e he =>
      hfirst content e rfl (hreads.head.trans he)⟩
    exact ⟨_, rfl, hverified⟩

/-- **The log without its segments.**  Where the whole directory is accepted, the log alone
    is accepted with as many entries exactly when it is all there is. -/
theorem verifyLog_agrees_iff {r : VerifyResult} (h : verifyAll X d key = some r)
    (hok : r.ok = true) :
    (∃ r', verifyLog X d key = some r' ∧ r'.ok = true ∧ r'.entriesChecked = r.entriesChecked) ↔
      LogIsAll X d := by
  unfold verifyAll at h
  dsimp only at h
  -- Without segments both commands read the active file alone.
  split at h
  · next hnil =>
      have hsegments : (loadManifest d).segments = [] := by
        have hperm := List.mergeSort_perm (loadManifest d).segments
          fun s t => decide (s.seqStart ≤ t.seqStart)
        rw [hnil] at hperm
        exact hperm.nil_eq.symm
      exact iff_of_true ⟨r, h, hok, rfl⟩ (.inl hsegments)
  · next first rest hsorted =>
      have hperm := List.mergeSort_perm (loadManifest d).segments
        fun s t => decide (s.seqStart ≤ t.seqStart)
      have hsegments : (loadManifest d).segments ≠ [] := by
        intro hnil
        rw [hnil] at hsorted
        simp at hsorted
      rw [LogIsAll, or_iff_right hsegments]
      obtain ⟨⟨cur, violation⟩, hwalk, h⟩ := Option.bind_eq_some_iff.mp h
      cases violation with
      | some v =>
          obtain rfl := Option.some.inj h
          cases hok
      | none =>
          -- The segments are accepted, so what is left to compare are the counts.
          obtain ⟨n, hcount, hsame, hblank⟩ := walkSegments_ok hwalk
          have hzero : (segmentAnchor first).checked + n = n := Nat.zero_add n
          rw [hzero] at hcount
          have hall : (∀ seg ∈ (loadManifest d).segments, ∀ content,
              readSegment X d seg = some content → contentLines content = []) ↔ n = 0 := by
            rw [hblank]
            exact ⟨fun hforall seg hseg => hforall seg (hperm.mem_iff.mp hseg),
              fun hforall seg hseg => hforall seg (hperm.mem_iff.mpr hseg)⟩
          rw [hall, verifyLog]
          dsimp only at h
          cases hlog : d.log with
          -- No active file: the log alone has nothing, so the segments must not have anything
          -- either.
          | none =>
              rw [hlog] at h
              obtain rfl := Option.some.inj h
              have hread : d.readLog = none := by rw [Disk.readLog, hlog, Option.bind_none]
              constructor
              · rintro ⟨r', hr', -, hchecked⟩
                obtain rfl := Option.some.inj hr'
                refine ⟨hcount.symm.trans hchecked.symm, fun content e hcontent => ?_⟩
                cases hread.symm.trans hcontent
              · rintro ⟨hn, -⟩
                exact ⟨_, rfl, rfl, (hcount.trans hn).symm⟩
          | some i =>
              rw [hlog] at h
              obtain ⟨content, hread, rfl⟩ := Option.map_eq_some_iff.mp h
              -- The active file is accepted by both or by neither; the counts differ by the
              -- segments.
              rcases hactive : walk X content key cur with ⟨last, - | v⟩
              · obtain ⟨es, hreads, hchain, rfl⟩ := walk_ok hactive
                have htotal : (VerifyResult.of (cur.after es, none)).entriesChecked
                    = n + es.length := by
                  show cur.checked + es.length = _
                  rw [hcount]
                dsimp only
                rw [htotal]
                exact verifyLog_counts_iff hread hreads hchain hsame
              · rw [hactive] at hok
                cases hok

end Maranode.Audit
