/-
  Maranode.Audit.Integrity

  What `verify_all` and `verify_log` say about a log that was written by `append`.

  Without a retention pass everything that was appended is there and verifies.
  What a verifier accepts is a block of what was appended: it starts wherever the
  first entry says it starts and it does not know where the log ends, so a removed
  head or tail leaves a block, and anything else does not.
-/
import Maranode.Audit.System

namespace Maranode.Audit

open Lib Common

variable {X : External}

/-! ## Everything appended is recorded and verifies -/

variable (X) in
/-- The entries of the directory: the segments in the order of `seq_start`, then the
    active file. -/
def recorded (d : Disk) : List AuditEntry :=
  ((loadManifest d).segments.mergeSort fun s t => decide (s.seqStart ≤ t.seqStart)).flatMap
      (fun seg => entriesIn X ((readSegment X d seg).getD [])) ++
    entriesIn X (d.readLog.getD [])

theorem Holds.recorded_eq {d : Disk} {L : Layout} (h : Holds X d L) (ho : L.Sorted) :
    recorded X d = L.entries.filter (·.readable) := by
  have hsegs : ∀ ps : List (Segment × List AuditEntry), (∀ p ∈ ps, Sealed X d p.1 p.2) →
      (ps.map Prod.fst).flatMap (fun seg => entriesIn X ((readSegment X d seg).getD []))
        = (ps.flatMap Prod.snd).filter (·.readable) := by
    intro ps hps
    induction ps with
    | nil => rfl
    | cons p ps ih =>
        obtain ⟨hp, hps⟩ := List.forall_mem_cons.mp hps
        rw [List.map_cons, List.flatMap_cons, ih hps, hp.content, Option.getD_some,
          entriesIn_logText, List.flatMap_cons, List.filter_append]
  have hsort := h.mergeSort_segments ((h.pairwise_seqStart ho).imp Nat.le_of_lt)
  rw [recorded, hsort, hsegs _ h.sealed, h.readLog, Option.getD_some, entriesIn_logText,
    Layout.entries, List.filter_append, Layout.archived]

variable (X) in
/-- The line of an appended entry parses back to the entry. -/
def ParsesBack (s : Sys) : Op → Prop
  | .append a _ =>
      AuditEntry.fromStr X ((nextEntry X s.log a).toText X) = some (nextEntry X s.log a)
  | _ => True

theorem readable_of_fromStr {e : AuditEntry} (h : AuditEntry.fromStr X (e.toText X) = some e) :
    e.readable = true := by
  rw [AuditEntry.fromStr_toText] at h
  by_contra hr
  rw [if_neg hr] at h
  cases h

/-- One step: nothing is lost, and every line reads back. -/
theorem Complete.step_readable {s : Sys} {L : Layout} (h : Complete X s L)
    (hread : ∀ e ∈ s.written, e.readable = true) {op : Op} (hkeeps : op.keeps = true)
    (hparse : ParsesBack X s op) :
    ∃ s', Sys.step X s op = some s' ∧
      ∃ L', Complete X s' L' ∧ ∀ e ∈ s'.written, e.readable = true := by
  have hrec : Recording s op :=
    ⟨hkeeps, fun _ _ e he => hread e (List.mem_of_getLast? he)⟩
  obtain ⟨s', hs', L', hcomplete⟩ := h.step hrec
  refine ⟨s', hs', L', hcomplete, ?_⟩
  rw [Sys.step_written hs', List.forall_mem_append]
  refine ⟨hread, ?_⟩
  cases op with
  | append a clk =>
      intro e he
      obtain rfl : e = nextEntry X s.log a := by simpa [Op.entry?] using he
      exact readable_of_fromStr hparse
  | _ => simp [Op.entry?]

/-- Every run without retention whose lines read back keeps everything. -/
theorem complete_readable_run (rand : RandomKey) {ops : List Op}
    (hkeeps : ∀ op ∈ ops, op.keeps = true)
    (hparse : Run.Along (Sys.step X) (ParsesBack X) (freshSys rand) ops) :
    ∃ s, Sys.run X (freshSys rand) ops = some s ∧
      ∃ L, Complete X s L ∧ ∀ e ∈ s.written, e.readable = true := by
  have halong : Run.Along (Sys.step X) (fun _ op => op.keeps = true) (freshSys rand) ops :=
    Run.along_of_forall (fun op hop _ => hkeeps op hop) _
  refine Run.run_invariant ?_ ⟨_, complete_freshSys rand, by simp [freshSys]⟩
    (halong.and hparse)
  rintro s op ⟨L, hcomplete, hread⟩ ⟨hk, hp⟩
  exact hcomplete.step_readable hread hk hp

/-- A part of a genuine log is accepted exactly when it is a block of it. -/
theorem anchored_iff_block {key : Bytes} {ws rest : List AuditEntry}
    (hws : Chained X key 1 genesisHmac ws) (hsub : ∀ e ∈ rest, e ∈ ws) :
    Anchored X key rest ↔ rest <:+: ws := by
  constructor
  · intro hanch
    rcases rest with - | ⟨e, rest⟩
    · exact List.nil_infix
    · exact hws.infix_of_subset (hanch e rfl) hsub
  · intro hinf e he
    obtain ⟨m, g, hlinked, hhead⟩ := hws.of_infix hinf
    obtain ⟨rfl, rfl, hone⟩ := hhead e he
    split_ifs with h1
    · rw [← hone h1]
      exact hlinked
    · exact hlinked

/-- A log that was never cut back, and whose lines parse, is accepted as a whole. -/
theorem Complete.verifyAll_ok {s : Sys} {L : Layout} (h : Complete X s L)
    (hread : ∀ e ∈ s.written, e.readable = true) :
    ∃ r, verifyAll X s.disk s.log.key = some r ∧ r.ok = true ∧
      r.entriesChecked = s.written.length := by
  have hpos : ∀ e ∈ L.entries, 0 < e.seq := by
    intro e he
    exact h.seq_pos (h.entries_eq ▸ he)
  obtain ⟨r, hr, hok, hcount⟩ := h.holds.verifyAll_spec
    ((h.holds.pairwise_seqStart h.sorted).imp Nat.le_of_lt) hpos s.log.key
  rw [h.entries_eq] at hok hcount
  have haccept : r.ok = true :=
    hok.mpr ⟨hread, (anchored_iff_block h.chained fun _ he => he).mpr List.infix_rfl⟩
  exact ⟨r, hr, haccept, hcount haccept⟩

/-- **Verification of an intact log.**  However appends, rotations and restarts are
    interleaved, `verify_all` accepts, having checked as many entries as were
    appended, and the entries are numbered from one and linked from genesis. -/
theorem verifyAll_accepts_run (rand : RandomKey) (ops : List Op)
    (hkeeps : ∀ op ∈ ops, op.keeps = true)
    (hparse : Run.Along (Sys.step X) (ParsesBack X) (freshSys rand) ops) :
    ∃ s, ((Sys.fresh X rand).bind fun s₀ => Sys.run X s₀ ops) = some s ∧
      loadKey s.disk = some s.log.key ∧
      (∃ r, verifyAll X s.disk s.log.key = some r ∧ r.ok = true ∧
        r.entriesChecked = ops.countP Op.isAppend) ∧
      recorded X s.disk = s.written ∧
      (recorded X s.disk).map (·.seq) = List.range' 1 (ops.countP Op.isAppend) ∧
      (recorded X s.disk).IsChain (fun e f => f.prevHmac = e.hmac) ∧
      ∀ e, (recorded X s.disk).head? = some e → e.prevHmac = genesisHmac := by
  -- The run leaves a whole log whose entries all parse.
  obtain ⟨s, hs, L, hcomplete, hread⟩ := complete_readable_run rand hkeeps hparse
  have hlen : s.written.length = ops.countP Op.isAppend := by
    simpa [freshSys] using Sys.length_written_of_run hs
  have hrecorded : recorded X s.disk = s.written := by
    rw [hcomplete.holds.recorded_eq hcomplete.sorted, hcomplete.entries_eq]
    exact List.filter_eq_self.mpr hread
  obtain ⟨r, hr, haccept, hcount⟩ := hcomplete.verifyAll_ok hread
  refine ⟨s, ?_, ?_, ⟨r, hr, haccept, hcount.trans hlen⟩, hrecorded, ?_, ?_, ?_⟩
  · rw [fresh_eq, Option.bind_some, hs]
  · simp [loadKey, hcomplete.key, hcomplete.keyLen]
  · rw [hrecorded, hcomplete.chained.map_seq, hlen]
  · rw [hrecorded]
    exact hcomplete.chained.isChain
  · rw [hrecorded]
    intro e he
    -- The head of the chain is linked to the genesis tag.
    have hchain := hcomplete.chained
    rcases hw : s.written with - | ⟨f, fs⟩
    · simp [hw] at he
    · rw [hw] at he hchain
      obtain rfl : f = e := Option.some.inj he
      exact hchain.2.1

theorem parsesBack_appendTwice :
    Run.Along (Sys.step X) (ParsesBack X) (freshSys zeroKey)
      (appendTwice ++ [.restart zeroKey]) := by
  refine ⟨?_, fun s hs => ⟨?_, fun _ _ => ⟨trivial, fun _ _ => trivial⟩⟩⟩
  · rw [ParsesBack, AuditEntry.fromStr_toText]
    exact if_pos rfl
  · obtain rfl := Option.some.inj ((step_append_freshSys ..).symm.trans hs)
    rw [ParsesBack, AuditEntry.fromStr_toText]
    exact if_pos rfl

theorem verifyAll_accepts_run_twice :
    ∃ s, ((Sys.fresh External.sample zeroKey).bind fun s₀ =>
        Sys.run External.sample s₀ (appendTwice ++ [.restart zeroKey])) = some s ∧
      loadKey s.disk = some s.log.key ∧
      (∃ r, verifyAll External.sample s.disk s.log.key = some r ∧ r.ok = true ∧
        r.entriesChecked = 2) ∧
      recorded External.sample s.disk = s.written ∧
      (recorded External.sample s.disk).map (·.seq) = [1, 2] ∧
      (recorded External.sample s.disk).IsChain (fun e f => f.prevHmac = e.hmac) ∧
      ∀ e, (recorded External.sample s.disk).head? = some e → e.prevHmac = genesisHmac := by
  have hkeeps : ∀ op ∈ appendTwice ++ [.restart zeroKey], op.keeps = true := by
    simp [appendTwice, Op.keeps]
  have hcount : (appendTwice ++ [Op.restart zeroKey]).countP Op.isAppend = 2 := rfl
  have hrun := verifyAll_accepts_run (X := External.sample) zeroKey _ hkeeps parsesBack_appendTwice
  rw [hcount] at hrun
  exact hrun

/-! ## Any other content of the log file -/

/-- The log file's content is replaced. -/
def replaceLog (d : Disk) (bs : Bytes) : Disk :=
  match d.log with
  | some i => { d with data := Function.update d.data i bs }
  | none => d

variable (X) in
/-- No pair of a body and a MAC among the entries of the content verifies under the
    key, except those that `append` computed. -/
def NoForgery (key : Bytes) (genuine : List AuditEntry) (content : Text) : Prop :=
  ∀ e ∈ entriesIn X content, verify X key (entryBody X e) e.hmac = true →
    ∃ g ∈ genuine, entryBody X g = entryBody X e ∧ g.hmac = e.hmac

theorem mem_entriesIn_of_reads {content : Text} {es : List AuditEntry}
    (h : Reads X (Text.lines content) es) : ∀ e ∈ es, e ∈ entriesIn X content := by
  intro e he
  have hmem : some e ∈ (contentLines content).map (AuditEntry.fromStr X) := by
    rw [contentLines, h]
    exact List.mem_map_of_mem he
  obtain ⟨l, hl, hparse⟩ := List.mem_map.mp hmem
  exact List.mem_filterMap.mpr ⟨l, hl, hparse⟩

/-- What `verify_log` accepts is a block of the genuine log. -/
theorem infix_of_verifyContent {key : Bytes} {genuine : List AuditEntry} {content : Text}
    (hgenuine : Chained X key 1 genesisHmac genuine) (hideal : NoForgery X key genuine content)
    (hok : (verifyContent X content key).ok = true) :
    ∃ es, Reads X (Text.lines content) es ∧ es <:+: genuine := by
  have hnone : (walk X content key (anchor X content)).2 = none := by
    simpa [verifyContent, VerifyResult.of] using hok
  obtain ⟨es, hreads, hchain⟩ := (walk_eq_none X).mp hnone
  refine ⟨es, hreads, hgenuine.infix_of_subset hchain ?_⟩
  -- Each accepted entry has the body and the MAC of a genuine one, so it is that one.
  intro e he
  obtain ⟨g, hg, hbody, hmac⟩ :=
    hideal e (mem_entriesIn_of_reads hreads e he) (hchain.ok_of_mem e he)
  exact eq_of_entryBody_eq X hbody hmac ▸ hg

/-- **Tamper evidence.**  Whatever the log file is replaced with, if `verify_log`
    accepts it then every line parses and the entries are consecutive entries of
    those that were appended. -/
theorem verifyLog_tamper_evident (rand : RandomKey) (ops : List Op) {s : Sys}
    (hrestart : Run.Along (Sys.step X) (RestartOk X) (freshSys rand) ops)
    (hrun : Sys.run X (freshSys rand) ops = some s) (bs : Bytes)
    (hideal : ∀ content, Text.decode bs = some content →
      NoForgery X s.log.key s.written content)
    {r : VerifyResult} (hr : verifyLog X (replaceLog s.disk bs) s.log.key = some r)
    (hok : r.ok = true) :
    ∃ content es, Text.decode bs = some content ∧
      (contentLines content).map (AuditEntry.fromStr X) = es.map some ∧ es <:+: s.written := by
  obtain ⟨s', hs', -, L, hinv⟩ := inv_run (X := X) rand hrestart
  obtain rfl : s = s' := Option.some.inj (hrun.symm.trans hs')
  obtain ⟨i, hi, -⟩ := hinv.holds.log
  have hread : (replaceLog s.disk bs).readLog = Text.decode bs := by
    simp [replaceLog, hi, Disk.readLog]
  have hlog : (replaceLog s.disk bs).log = some i := by simp [replaceLog, hi]
  rw [verifyLog, hlog] at hr
  obtain ⟨content, hcontent, rfl⟩ := Option.map_eq_some_iff.mp hr
  rw [hread] at hcontent
  obtain ⟨es, hreads, hinf⟩ := infix_of_verifyContent hinv.chained (hideal content hcontent) hok
  exact ⟨content, es, hcontent, hreads, hinf⟩

/-- The file's own content is accepted. -/
theorem verifyLog_twoEntries :
    verifyLog X (replaceLog (twoEntries X).disk (Text.encode (logText X (twoEntries X).written)))
        (twoEntries X).log.key
      = some (verifyContent X (logText X (twoEntries X).written) (twoEntries X).log.key) ∧
    (verifyContent X (logText X (twoEntries X).written) (twoEntries X).log.key).ok = true := by
  have h := complete_twoEntries (X := X)
  obtain ⟨i, hi, -⟩ := h.holds.log
  constructor
  · have hlog : (replaceLog (twoEntries X).disk
        (Text.encode (logText X (twoEntries X).written))).log = some i := by
      simp [replaceLog, hi]
    have hread : (replaceLog (twoEntries X).disk
        (Text.encode (logText X (twoEntries X).written))).readLog
          = some (logText X (twoEntries X).written) := by
      simp [replaceLog, hi, Disk.readLog]
    rw [verifyLog, hlog]
    simp only [hread, Option.map_some]
  · rw [(verifyContent_logText _ fun e he => h.seq_pos he).1]
    refine ⟨?_, (anchored_iff_block h.chained fun _ he => he).mpr List.infix_rfl⟩
    intro e he
    rcases List.mem_pair.mp he with rfl | rfl <;> rfl

theorem verifyLog_tamper_evident_twice :
    ∃ content es,
      Text.decode (Text.encode (logText External.sample (twoEntries External.sample).written))
          = some content ∧
        (contentLines content).map (AuditEntry.fromStr External.sample) = es.map some ∧
        es <:+: (twoEntries External.sample).written := by
  refine verifyLog_tamper_evident zeroKey appendTwice ⟨trivial, fun _ _ => ⟨trivial, fun _ _ =>
    trivial⟩⟩ run_appendTwice _ ?_ verifyLog_twoEntries.1 verifyLog_twoEntries.2
  intro content hcontent e he _
  rw [Text.decode_encode] at hcontent
  obtain rfl := Option.some.inj hcontent
  rw [entriesIn_logText] at he
  exact ⟨e, List.mem_of_mem_filter he, rfl, rfl⟩

/-! ## Deletions -/

/-- Segments are removed together with their manifest records, and lines from the
    active file. -/
def deleteFrom (d : Disk) (dropSegment : Segment → Bool) (dropLine : Text → Bool) : Disk :=
  replaceLog (dropSegments d dropSegment)
    (keptBytes ((contentLines (d.readLog.getD [])).filter fun l => !dropLine l))

variable (X) in
/-- The layout that is left. -/
def Layout.deleteFrom (L : Layout) (dropSegment : Segment → Bool) (dropLine : Text → Bool) :
    Layout where
  sealed := L.sealed.filter fun p => !dropSegment p.1
  active := L.active.filter fun e => !dropLine (e.toText X)

theorem Layout.deleteFrom_sublist (L : Layout) (dropSegment : Segment → Bool)
    (dropLine : Text → Bool) : (L.deleteFrom X dropSegment dropLine).entries.Sublist L.entries :=
  List.Sublist.append (List.filter_sublist.flatMap _) List.filter_sublist

theorem Holds.deleteFrom {d : Disk} {L : Layout} (h : Holds X d L) (ho : L.Sorted)
    (dropSegment : Segment → Bool) (dropLine : Text → Bool) :
    Holds X (deleteFrom d dropSegment dropLine) (L.deleteFrom X dropSegment dropLine) := by
  obtain ⟨i, hi, -⟩ := h.log
  obtain ⟨f, m, hframe⟩ := dropSegments_frame d dropSegment
  have hdrop := h.dropSegments ho dropSegment
  rw [Audit.deleteFrom]
  refine hdrop.of_log (L.deleteFrom X dropSegment dropLine).active ?_ ?_ ⟨i, ?_, ?_⟩
  · simp [replaceLog, hframe, hi]
  · simp [replaceLog, hframe, hi]
  · simp [replaceLog, hframe, hi]
  · have hlines : (L.active.map (·.toText X)).filter (fun l => !dropLine l)
        = (L.deleteFrom X dropSegment dropLine).active.map (·.toText X) := by
      rw [List.filter_map]
      rfl
    simp only [replaceLog, hframe, hi, Function.update_self, h.readLog, Option.getD_some,
      contentLines_logText, hlines, keptBytes]
    rfl

/-- `verify_all` on what a deletion leaves of a complete log. -/
theorem Complete.verifyAll_deleteFrom {s : Sys} {L : Layout} (h : Complete X s L)
    (dropSegment : Segment → Bool) (dropLine : Text → Bool) :
    ∃ r, verifyAll X (deleteFrom s.disk dropSegment dropLine) s.log.key = some r ∧
      (r.ok = true ↔
        (∀ e ∈ (L.deleteFrom X dropSegment dropLine).entries, e.readable = true) ∧
          (L.deleteFrom X dropSegment dropLine).entries <:+: s.written) := by
  have hholds := h.holds.deleteFrom h.sorted dropSegment dropLine
  have hsub := L.deleteFrom_sublist (X := X) dropSegment dropLine
  have hmem : ∀ e ∈ (L.deleteFrom X dropSegment dropLine).entries, e ∈ s.written :=
    fun e he => h.entries_eq ▸ hsub.subset he
  obtain ⟨r, hr, hok, -⟩ := hholds.verifyAll_spec
    ((hholds.pairwise_seqStart (h.sorted.sublist hsub)).imp Nat.le_of_lt)
    (fun e he => h.seq_pos (hmem e he)) s.log.key
  refine ⟨r, hr, ?_⟩
  rw [hok, anchored_iff_block h.chained hmem]

/-- **Deletion evidence.**  What is left after any deletion verifies exactly when it
    is a block of what was appended, and reads back. -/
theorem verifyAll_after_deletion (rand : RandomKey) (ops : List Op)
    (hops : Run.Along (Sys.step X) Recording (freshSys rand) ops)
    (dropSegment : Segment → Bool) (dropLine : Text → Bool) :
    ∃ s rest, Sys.run X (freshSys rand) ops = some s ∧ rest.Sublist s.written ∧
      stored X (deleteFrom s.disk dropSegment dropLine) = rest.map (·.toText X) ∧
      ∃ r, verifyAll X (deleteFrom s.disk dropSegment dropLine) s.log.key = some r ∧
        (r.ok = true ↔
          (∀ e ∈ rest, AuditEntry.fromStr X (e.toText X) = some e) ∧ rest <:+: s.written) := by
  obtain ⟨s, hs, L, hcomplete⟩ := complete_run (X := X) rand hops
  have hholds := hcomplete.holds.deleteFrom hcomplete.sorted dropSegment dropLine
  obtain ⟨r, hr, hok⟩ := hcomplete.verifyAll_deleteFrom dropSegment dropLine
  refine ⟨s, _, hs, ?_, hholds.stored_eq, r, hr, ?_⟩
  · rw [← hcomplete.entries_eq]
    exact L.deleteFrom_sublist dropSegment dropLine
  · rw [hok]
    simp only [AuditEntry.fromStr_toText, ite_eq_left_iff, reduceCtorEq, imp_false, not_not]

/-- The line of the second entry. -/
def isSecondLine (l : Text) : Bool :=
  (AuditEntry.fromStr External.sample l).any fun e => e.seq == 2

theorem verifyAll_after_deletion_tail :
    ∃ s rest, Sys.run External.sample (freshSys zeroKey) restartOnce = some s ∧
      rest.Sublist s.written ∧
      stored External.sample (deleteFrom s.disk (fun _ => false) isSecondLine)
        = rest.map (·.toText External.sample) ∧
      ∃ r, verifyAll External.sample (deleteFrom s.disk (fun _ => false) isSecondLine) s.log.key
          = some r ∧
        (r.ok = true ↔
          (∀ e ∈ rest, AuditEntry.fromStr External.sample (e.toText External.sample) = some e) ∧
            rest <:+: s.written) :=
  verifyAll_after_deletion zeroKey restartOnce recording_restartOnce (fun _ => false) isSecondLine

/-- The first line stays. -/
theorem filter_isSecondLine :
    (twoEntries External.sample).written.filter
        (fun e => !isSecondLine (e.toText External.sample))
      = [nextEntry External.sample (freshLog zeroKey) (stopAt 0)] := by
  have hline : ∀ e : AuditEntry, e.readable = true →
      isSecondLine (e.toText External.sample) = (e.seq == 2) := by
    intro e he
    rw [isSecondLine, AuditEntry.fromStr_toText, if_pos he, Option.any_some]
  have hwritten : (twoEntries External.sample).written
      = [nextEntry External.sample (freshLog zeroKey) (stopAt 0),
          nextEntry External.sample ((freshSys zeroKey).wrote External.sample (stopAt 0)).log
            (stopAt newYear)] := rfl
  rw [hwritten, List.filter_cons, List.filter_cons, hline _ rfl, hline _ rfl]
  rfl

/-- Two entries are appended and the newest one is removed: `verify_all` accepts. -/
theorem verifyAll_accepts_removed_tail :
    ∃ s r, Sys.run External.sample (freshSys zeroKey) appendTwice = some s ∧
      (stored External.sample s.disk).length = 2 ∧
      (stored External.sample (deleteFrom s.disk (fun _ => false) isSecondLine)).length = 1 ∧
      verifyAll External.sample (deleteFrom s.disk (fun _ => false) isSecondLine) s.log.key
        = some r ∧ r.ok = true := by
  have h := complete_twoEntries (X := External.sample)
  have hholds := h.holds.deleteFrom h.sorted (fun _ => false) isSecondLine
  have hrest : (Layout.deleteFrom External.sample
      { sealed := [], active := (twoEntries External.sample).written }
      (fun _ => false) isSecondLine).entries
        = [nextEntry External.sample (freshLog zeroKey) (stopAt 0)] := by
    rw [Layout.entries, Layout.deleteFrom, Layout.archived, List.filter_nil, List.flatMap_nil,
      List.nil_append, filter_isSecondLine]
  obtain ⟨r, hr, hok⟩ := h.verifyAll_deleteFrom (fun _ => false) isSecondLine
  refine ⟨twoEntries External.sample, r, run_appendTwice, ?_, ?_, hr, hok.mpr ?_⟩
  · rw [h.holds.stored_eq, List.length_map]
    rfl
  · rw [hholds.stored_eq, List.length_map, hrest]
    rfl
  · rw [hrest]
    refine ⟨fun e he => ?_, [], _, rfl⟩
    obtain rfl := List.mem_singleton.mp he
    rfl

end Maranode.Audit
