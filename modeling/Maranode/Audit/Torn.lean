/-
  Maranode.Audit.Torn

  An append that fails in `write_all` or `sync_all`, or a daemon that dies there.

  Any number of the line's bytes may have reached the file, down to the middle of a
  UTF-8 sequence.  The handle's chain state is as before, so a later append writes
  right behind those bytes, with the number the failed append had.
-/
import Maranode.Audit.Crash

namespace Maranode.Audit

open Lib Lib.Json Common

variable (X : External)

/-- Who appends after the failed append: the handle it failed on, or a new one. -/
inductive Resume where
  | sameHandle
  | reopened (rand : RandomKey)

/-- The log of a new directory after some appends. -/
def appended (rand : RandomKey) (before : List (AppendInput × RotateClock)) : Sys :=
  let (disk, log, written) := appendAll X (freshDisk rand) (freshLog rand) before
  { disk, log, written }

/-- Appends, an append cut after some of its bytes, and later appends; with the
    entries whose append returned `Ok`.  `none` when the log does not open again. -/
def tornRun (rand : RandomKey) (before : List (AppendInput × RotateClock)) (torn : AppendInput)
    (cut : Nat) (resume : Resume) (later : List (AppendInput × RotateClock)) :
    Option (Disk × List AuditEntry) :=
  let s := appended X rand before
  let d := appendTorn X s.disk s.log torn cut
  match resume with
  | .sameHandle =>
      let (d, _, es) := appendAll X d s.log later
      some (d, s.written ++ es)
  | .reopened rand' =>
      (reopenAndAppend X d rand' later).map fun (d, _, es) => (d, s.written ++ es)

/-- The log file is accepted, has the lines of the entries, and no number twice. -/
def Survives (d : Disk) (key : Bytes) (acked : List AuditEntry) : Prop :=
  (∃ r, verifyLog X d key = some r ∧ r.ok = true) ∧
    ∃ content, d.readLog = some content ∧ (∀ e ∈ acked, e.toText X ∈ contentLines content) ∧
      ((entriesIn X content).map (·.seq)).Nodup

variable {X}

/-! ## Files that read -/

theorem verifyLog_of_readLog {d : Disk} {content : Text} (h : d.readLog = some content)
    (key : Bytes) : verifyLog X d key = some (verifyContent X content key) := by
  obtain ⟨i, hi, -⟩ := Option.bind_eq_some_iff.mp h
  rw [verifyLog, hi]
  simp only [h, Option.map_some]

/-- A file that is not text is not accepted. -/
theorem not_survives_of_readLog_none {d : Disk} {i : Nat} (hi : d.log = some i)
    (h : d.readLog = none) (key : Bytes) (acked : List AuditEntry) :
    ¬ Survives X d key acked := by
  rintro ⟨⟨r, hr, -⟩, -⟩
  rw [verifyLog, hi] at hr
  simp [h] at hr

/-- `verify_log` sees a file through its lines. -/
theorem verifyContent_congr {content content' : Text}
    (h : Text.lines content = Text.lines content') (key : Bytes) :
    verifyContent X content key = verifyContent X content' key := by
  simp only [verifyContent, walk, anchor, contentLines, h]

theorem nodup_seq_of_anchored {key : Bytes} {ws : List AuditEntry} (h : Anchored X key ws) :
    (ws.map (·.seq)).Nodup := by
  rcases ws with - | ⟨w, ws⟩
  · exact List.nodup_nil
  · exact List.pairwise_map.mpr ((h w rfl).pairwise.imp Nat.ne_of_lt)

/-- A file with the lines of a log survives when the log is a readable chain. -/
theorem survives_iff {d : Disk} {content : Text} {key : Bytes} {ws acked : List AuditEntry}
    (hread : d.readLog = some content)
    (hlines : Text.lines content = Text.lines (logText X ws))
    (hpos : ∀ e ∈ ws, 0 < e.seq) (hacked : ∀ e ∈ acked, e ∈ ws) :
    Survives X d key acked ↔ (∀ e ∈ ws, e.readable = true) ∧ Anchored X key ws := by
  have hspec := (verifyContent_logText (X := X) key hpos).1
  rw [← verifyContent_congr hlines] at hspec
  have hcontent : contentLines content = ws.map (·.toText X) := by
    rw [contentLines, hlines]
    exact contentLines_logText X ws
  constructor
  · rintro ⟨⟨r, hr, hok⟩, -⟩
    rw [verifyLog_of_readLog hread] at hr
    obtain rfl := Option.some.inj hr
    exact hspec.mp hok
  · rintro ⟨hall, hanch⟩
    refine ⟨⟨_, verifyLog_of_readLog hread key, hspec.mpr ⟨hall, hanch⟩⟩, content, hread, ?_, ?_⟩
    · intro e he
      rw [hcontent]
      exact List.mem_map_of_mem (hacked e he)
    · have hentries : entriesIn X content = ws := by
        rw [entriesIn, hcontent, ← contentLines_logText X ws, ← entriesIn, entriesIn_logText]
        exact List.filter_eq_self.mpr hall
      rw [hentries]
      exact nodup_seq_of_anchored hanch

/-- A file with a line that does not parse does not survive. -/
theorem not_survives_of_unreadable {d : Disk} {content : Text} (hread : d.readLog = some content)
    {l : Text} (hl : l ∈ contentLines content) (hnone : AuditEntry.fromStr X l = none)
    (key : Bytes) (acked : List AuditEntry) : ¬ Survives X d key acked := by
  rintro ⟨⟨r, hr, hok⟩, -⟩
  rw [verifyLog_of_readLog hread] at hr
  obtain rfl := Option.some.inj hr
  have hwalk : (walk X content key (anchor X content)).2 = none := by
    simpa [verifyContent, VerifyResult.of] using hok
  obtain ⟨es, hreads, -⟩ := (walk_eq_none X).mp hwalk
  have hmem : AuditEntry.fromStr X l ∈ es.map some := by
    rw [← hreads]
    exact List.mem_map_of_mem hl
  rw [hnone] at hmem
  simp at hmem

/-! ## Cut lines -/

/-- An entry's line opens with the member `ts`. -/
theorem toText_eq_render (e : AuditEntry) :
    ∃ v fs, e.toText X = render (.obj (("ts", v) :: fs)) := ⟨_, _, rfl⟩

/-- A proper prefix of a line does not parse. -/
theorem fromStr_of_prefix {e : AuditEntry} {p u : Text} (h : e.toText X = p ++ u) (hu : u ≠ []) :
    AuditEntry.fromStr X p = none := by
  rw [AuditEntry.fromStr, parse_eq_none_of_prefix h hu]
  rfl

/-- A prefix of a line with another line behind it does not parse. -/
theorem fromStr_prefix_append {e f : AuditEntry} {p u : Text} (h : e.toText X = p ++ u)
    (hp : p ≠ []) : AuditEntry.fromStr X (p ++ f.toText X) = none := by
  obtain ⟨v, fs, hf⟩ := toText_eq_render (X := X) f
  have hkey : "ts".toList = 't' :: ['s'] := by decide
  have hword : isWordChar 't' = true := by decide
  rw [AuditEntry.fromStr, hf, parse_prefix_append h hp hkey hword]
  rfl

theorem isBlank_prefix_append {e : AuditEntry} {p u : Text} (h : e.toText X = p ++ u)
    (hp : p ≠ []) (rest : Text) : Text.isBlank (p ++ rest) = false := by
  obtain ⟨cs, hcs⟩ := render_obj_eq (e.toMembers X)
  rcases p with - | ⟨c, p⟩
  · exact absurd rfl hp
  · rw [AuditEntry.toText, hcs] at h
    obtain ⟨rfl, -⟩ := List.cons.inj h
    rfl

/-- What stands behind a cut line: the end of the file or another line. -/
theorem contentLines_cut (pre es : List AuditEntry) {e : AuditEntry} {p u : Text}
    (h : e.toText X = p ++ u) (hp : p ≠ []) :
    ∃ l ∈ contentLines (logText X pre ++ (p ++ logText X es)),
      (es = [] ∧ l = p) ∨ ∃ f fs, es = f :: fs ∧ l = p ++ f.toText X := by
  have hnl : '\n' ∉ p := fun hmem =>
    newline_notMem_toText X e (h ▸ List.mem_append_left _ hmem)
  rw [contentLines_logText_append]
  rcases es with - | ⟨f, fs⟩
  · refine ⟨p, List.mem_append_right _ ?_, .inl ⟨rfl, rfl⟩⟩
    have hblank := isBlank_prefix_append h hp []
    rw [List.append_nil] at hblank
    rw [logText_nil, List.append_nil, contentLines, Text.lines_of_notMem hnl hp]
    simp [hblank]
  · refine ⟨p ++ f.toText X, List.mem_append_right _ ?_, .inr ⟨f, fs, rfl, rfl⟩⟩
    have hline : Text.IsLine (p ++ f.toText X) := by
      refine ⟨?_, ?_⟩
      · rw [List.mem_append, not_or]
        exact ⟨hnl, newline_notMem_toText X f⟩
      · rw [List.getLast?_append_of_ne_nil _ (toText_ne_nil X f)]
        exact (isLine_toText X f).2
    have hsplit : p ++ logText X (f :: fs) = (p ++ f.toText X) ++ '\n' :: logText X fs := by
      simp [logText]
    rw [hsplit, contentLines, Text.lines_cons_line hline]
    simp [isBlank_prefix_append h hp]

theorem lineBytes_eq (e : AuditEntry) :
    lineBytes X e = Text.encode (e.toText X) ++ Text.encode ['\n'] := by
  rw [lineBytes, Text.encode_append]

theorem length_lineBytes (e : AuditEntry) :
    (lineBytes X e).length = (Text.encode (e.toText X)).length + 1 := by
  have hnl : (Text.encode ['\n']).length = 1 := by decide
  rw [lineBytes_eq, List.length_append, hnl]

/-- A line has a byte before its line break. -/
theorem two_le_length_lineBytes (e : AuditEntry) : 2 ≤ (lineBytes X e).length := by
  rw [length_lineBytes]
  refine Nat.succ_le_succ (Nat.one_le_iff_ne_zero.mpr fun hzero => toText_ne_nil X e ?_)
  exact Text.encode_eq_nil.mp (List.eq_nil_of_length_eq_zero hzero)

/-- What `append` writes opens with an ASCII byte. -/
theorem head_encode_logText (es : List AuditEntry) (b : UInt8) (r : Bytes)
    (h : Text.encode (logText X es) = b :: r) : b.toNat < 128 := by
  rcases es with - | ⟨f, fs⟩
  · simp at h
  · obtain ⟨cs, hcs⟩ := render_obj_eq (f.toMembers X)
    have hbrace : String.utf8EncodeChar '{' = [123] := by decide
    rw [logText, List.map_cons, Text.joinLines_cons, AuditEntry.toText, hcs, List.cons_append,
      Text.encode_cons, hbrace] at h
    obtain ⟨rfl, -⟩ := List.cons.inj h
    decide

/-- **Cut lines.**  If a file in which a line was cut is text at all, the cut is
    between two characters of that line. -/
theorem exists_cut_of_decode {pre es : List AuditEntry} {e : AuditEntry} {cut : Nat}
    {content : Text} (hpos : 0 < cut) (hle : cut ≤ (Text.encode (e.toText X)).length)
    (h : Text.decode (Text.encode (logText X pre) ++
      ((lineBytes X e).take cut ++ Text.encode (logText X es))) = some content) :
    ∃ p u, e.toText X = p ++ u ∧ p ≠ [] ∧ content = logText X pre ++ (p ++ logText X es) ∧
      (u = [] ↔ cut = (Text.encode (e.toText X)).length) := by
  have htake : (lineBytes X e).take cut = (Text.encode (e.toText X)).take cut := by
    rw [lineBytes_eq, List.take_append_of_le_length hle]
  rw [htake] at h
  have hpre : Text.encode (logText X pre) ++ (Text.encode (e.toText X)).take cut
      <+: Text.encode (logText X pre ++ e.toText X) := by
    rw [Text.encode_append]
    exact (List.prefix_append_right_inj _).mpr (List.take_prefix _ _)
  have hbytes := (Text.encode_eq_of_decode h).symm
  rw [← List.append_assoc] at hbytes
  -- The bytes decode, so the cut is at the end of a character.
  obtain ⟨n, ds, hp, hds, rfl⟩ :=
    Text.exists_take_of_decode hpre (head_encode_logText es) hbytes
  obtain rfl := Text.encode_injective hds
  -- The cut is behind the earlier lines.
  have hn : (logText X pre).length ≤ n := by
    by_contra hlt
    have hlen := congrArg List.length hp
    have hsplit : Text.encode (logText X pre)
        = Text.encode ((logText X pre).take n) ++ Text.encode ((logText X pre).drop n) := by
      rw [← Text.encode_append, List.take_append_drop]
    rw [List.take_append_of_le_length (by omega), hsplit] at hlen
    simp only [List.length_append, List.length_take] at hlen
    omega
  have hsplit : (logText X pre ++ e.toText X).take n
      = logText X pre ++ (e.toText X).take (n - (logText X pre).length) := by
    rw [List.take_append, List.take_of_length_le hn]
  generalize n - (logText X pre).length = m at hsplit
  rw [hsplit, Text.encode_append, List.append_cancel_left_eq] at hp
  have hlen : (Text.encode ((e.toText X).take m)).length = cut := by
    rw [← hp, List.length_take, Nat.min_eq_left hle]
  have htotal : (Text.encode (e.toText X)).length
      = cut + (Text.encode ((e.toText X).drop m)).length := by
    rw [← hlen, ← List.length_append, ← Text.encode_append, List.take_append_drop]
  refine ⟨(e.toText X).take m, (e.toText X).drop m, (List.take_append_drop m _).symm, ?_, ?_, ?_⟩
  · intro hnil
    rw [hnil] at hlen
    simp at hlen
    omega
  · rw [hsplit, List.append_assoc]
  -- Nothing is missing exactly when all bytes of the line are there.
  · rw [htotal]
    constructor
    · intro hu
      simp [hu]
    · intro heq
      exact Text.encode_eq_nil.mp (List.eq_nil_of_length_eq_zero (by omega))

/-! ## The log before and after the torn append -/

/-- Appending to a new directory leaves a complete log in one file. -/
theorem complete_appended (rand : RandomKey) (before : List (AppendInput × RotateClock)) :
    Complete X (appended X rand before)
        { sealed := [], active := (appended X rand before).written } ∧
      (appended X rand before).written.map (·.event) = before.map (·.1.event) ∧
      (appended X rand before).log.file = 0 ∧
      (appended X rand before).log.key = rand.1 ∧
      (appended X rand before).log.rotate = rotateOff := by
  -- Rotation is off, so all entries are in the one file.
  obtain ⟨inner, es, hall, hchain, hevents, hfile, hkey, hrot, hseq, hlast⟩ :=
    @appendAll_spec X (freshDisk rand) (freshLog rand) rfl before
  have happ : appended X rand before
      = { disk := (freshDisk rand).write 0 (Text.encode (logText X es)), log := inner,
          written := es } := by
    rw [appended, hall]
    rfl
  have hfresh := inv_freshSys (X := X) rand
  have hholds : Holds X ((freshDisk rand).write 0 (Text.encode (logText X es)))
      { sealed := [], active := es } := by
    refine hfresh.holds.of_log es rfl rfl ⟨0, rfl, ?_⟩
    simp [Disk.write, freshDisk]
  rw [happ]
  refine ⟨⟨⟨hholds, ?_, ?_, hlast, List.Sublist.refl _, ?_, ?_, hfresh.log_lt, ?_⟩, ?_, rfl⟩,
    hevents, hfile, hkey, hrot⟩
  · rw [hkey]
    exact hchain
  · simpa [freshLog] using hseq
  · rw [hkey]
    rfl
  · rw [hkey]
    exact rand.2
  · rw [hfile]
    exact Nat.one_pos
  · rw [Sys.Attached, hfile]
    rfl

variable (X) in
/-- The number and MAC from which the later appends continue. -/
def Resume.tail (resume : Resume) (s : Sys) (d : Disk) : Option (Nat × String) :=
  match resume with
  | .sameHandle => some (s.log.seq, s.log.lastHmac)
  | .reopened _ => scanTail X d

/-- Whoever appends later, the lines stand right behind the torn bytes. -/
theorem tornRun_eq (rand : RandomKey) (before : List (AppendInput × RotateClock))
    (torn : AppendInput) (cut : Nat) (resume : Resume)
    (later : List (AppendInput × RotateClock)) :
    let s := appended X rand before
    let d := appendTorn X s.disk s.log torn cut
    (resume.tail X s d = none ∧ tornRun X rand before torn cut resume later = none) ∨
      ∃ q tag es, resume.tail X s d = some (q, tag) ∧
        tornRun X rand before torn cut resume later
          = some (d.write 0 (Text.encode (logText X es)), s.written ++ es) ∧
        Chained X rand.1 (q + 1) tag es ∧ es.map (·.event) = later.map (·.1.event) := by
  intro s d
  obtain ⟨hcomplete, -, hfile, hkey, hrot⟩ := complete_appended (X := X) rand before
  have hlog : d.log = some 0 := hfile ▸ hcomplete.attached
  -- The same handle goes on from what it has in memory; a new one scans the tail.
  cases resume with
  | sameHandle =>
      right
      have hoff : s.log.rotate.maxBytes = 0 := congrArg RotateConfig.maxBytes hrot
      obtain ⟨inner, es, hall, hchain, hevents, -⟩ := appendAll_spec X d hoff later
      refine ⟨_, _, es, rfl, ?_, hkey ▸ hchain, hevents⟩
      have hall' : appendAll X (appendTorn X (appended X rand before).disk
          (appended X rand before).log torn cut) (appended X rand before).log later
          = (d.write 0 (Text.encode (logText X es)), inner, es) := hfile ▸ hall
      rw [tornRun]
      simp only [hall']
      rfl
  | reopened rand' =>
      have hdkey : d.key = some rand.1 := hkey ▸ hcomplete.key
      -- A tail that cannot be read fails the opening, and with it the run.
      rcases htail : scanTail X d with - | ⟨q, tag⟩
      · left
        refine ⟨htail, ?_⟩
        have hopen : openLog X d rand' = none := by
          rw [openLog]
          simp [loadOrGenerate, loadKey, hdkey, rand.2, htail]
        rw [tornRun]
        simp only [reopenAndAppend]
        have hopen' : openLog X (appendTorn X (appended X rand before).disk
          (appended X rand before).log torn cut) rand' = none := hopen
        rw [hopen']
        rfl
      · right
        obtain ⟨inner, es, hre, hchain, hevents, -⟩ :=
          reopenAndAppend_eq hlog hdkey rand.2 htail rand' later
        refine ⟨q, tag, es, htail, ?_, hchain, hevents⟩
        have hre' : reopenAndAppend X (appendTorn X (appended X rand before).disk
          (appended X rand before).log torn cut) rand' later
          = some (d.write 0 (Text.encode (logText X es)), inner, es) := hre
        rw [tornRun]
        simp only [hre', Option.map_some]
        rfl

/-! ## Which cuts are survived -/

section Cuts

variable {s : Sys} (torn : AppendInput) {es acked : List AuditEntry}

theorem readLog_torn (h : Complete X s { sealed := [], active := s.written })
    (hfile : s.log.file = 0) (cut : Nat) (bs : Bytes) :
    ((appendTorn X s.disk s.log torn cut).write 0 bs).log = some 0 ∧
      ((appendTorn X s.disk s.log torn cut).write 0 bs).readLog =
        Text.decode (Text.encode (logText X s.written) ++
          ((lineBytes X (nextEntry X s.log torn)).take cut ++ bs)) := by
  obtain ⟨i, hi, hdata⟩ := h.holds.log
  obtain rfl : 0 = i := by simpa [hfile] using h.attached.symm.trans hi
  refine ⟨hi, ?_⟩
  simp [Disk.readLog, appendTorn, Disk.write, hi, hfile, hdata]

/-- A line cut inside, or with another line behind it and no line break between. -/
theorem not_survives_cut (h : Complete X s { sealed := [], active := s.written })
    (hfile : s.log.file = 0) {cut : Nat} (hpos : 0 < cut)
    (hle : cut ≤ (Text.encode ((nextEntry X s.log torn).toText X)).length)
    (hbad : es = [] → cut ≠ (Text.encode ((nextEntry X s.log torn).toText X)).length)
    (key : Bytes) :
    ¬ Survives X
      ((appendTorn X s.disk s.log torn cut).write 0 (Text.encode (logText X es))) key acked := by
  obtain ⟨hlog, hread⟩ := readLog_torn torn h hfile cut (Text.encode (logText X es))
  rcases hdec : Text.decode (Text.encode (logText X s.written) ++
      ((lineBytes X (nextEntry X s.log torn)).take cut ++ Text.encode (logText X es))) with
    - | content
  · exact not_survives_of_readLog_none hlog (hread.trans hdec) key acked
  · obtain ⟨p, u, htext, hp, rfl, hu⟩ := exists_cut_of_decode hpos hle hdec
    obtain ⟨l, hl, hcases⟩ := contentLines_cut s.written es htext hp
    refine not_survives_of_unreadable (hread.trans hdec) hl ?_ key acked
    rcases hcases with ⟨hnil, rfl⟩ | ⟨f, fs, -, rfl⟩
    · exact fromStr_of_prefix htext fun hunil => hbad hnil (hu.mp hunil)
    · exact fromStr_prefix_append htext hp

/-- The whole line without its line break, at the end of the file. -/
theorem readLog_unterminated (h : Complete X s { sealed := [], active := s.written })
    (hfile : s.log.file = 0) :
    ((appendTorn X s.disk s.log torn
        (Text.encode ((nextEntry X s.log torn).toText X)).length).write 0 []).readLog
      = some (logText X s.written ++ (nextEntry X s.log torn).toText X) := by
  have htake : (lineBytes X (nextEntry X s.log torn)).take
      (Text.encode ((nextEntry X s.log torn).toText X)).length
      = Text.encode ((nextEntry X s.log torn).toText X) := by
    rw [lineBytes_eq, List.take_left']
    rfl
  rw [(readLog_torn torn h hfile _ []).2, htake, List.append_nil, ← Text.encode_append,
    Text.decode_encode]

theorem survives_unterminated (h : Complete X s { sealed := [], active := s.written })
    (hfile : s.log.file = 0) :
    Survives X
        ((appendTorn X s.disk s.log torn
          (Text.encode ((nextEntry X s.log torn).toText X)).length).write 0 [])
        s.log.key s.written ↔
      ∀ e ∈ s.written ++ [nextEntry X s.log torn], e.readable = true := by
  have hchain := h.chained_concat torn
  have hread := readLog_unterminated torn h hfile
  have hlines : Text.lines (logText X s.written ++ (nextEntry X s.log torn).toText X)
      = Text.lines (logText X (s.written ++ [nextEntry X s.log torn])) := by
    have hline := isLine_toText X (nextEntry X s.log torn)
    rw [logText_append, lines_logText_append, lines_logText_append, logText_singleton,
      Text.lines_of_notMem hline.1 (toText_ne_nil X _), Text.lines_cons_line hline]
    rfl
  rw [survives_iff hread hlines (fun e he => (hchain.seq_bounds he).1)
    fun e he => List.mem_append_left _ he]
  exact and_iff_left ((anchored_iff_block hchain fun _ he => he).mpr List.infix_rfl)

/-- Complete lines: the log as it was, or with the whole torn line. -/
theorem survives_lines {ws : List AuditEntry} {d : Disk} (key : Bytes)
    (hread : d.readLog = some (logText X (ws ++ es))) (hpos : ∀ e ∈ ws ++ es, 0 < e.seq)
    (hacked : ∀ e ∈ acked, e ∈ ws ++ es) :
    Survives X d key acked ↔
      (∀ e ∈ ws ++ es, e.readable = true) ∧ Anchored X key (ws ++ es) :=
  survives_iff hread rfl hpos hacked

end Cuts

/-! ## Which inputs read back -/

variable (X) in
/-- The line of the append that fails. -/
def tornLine (rand : RandomKey) (before : List (AppendInput × RotateClock))
    (torn : AppendInput) : Bytes := lineBytes X (nextEntry X (appended X rand before).log torn)

/-- When a torn append does no harm: nothing of the line was written; or the line is
    there but for its line break at most, and nothing is appended after it or the
    line is whole and the log was opened again. -/
def Harmless (torn : AppendInput) (cut len : Nat) (resume : Resume)
    (later : List (AppendInput × RotateClock)) : Prop :=
  cut = 0 ∨
    torn.event.kind ≠ .workspaceShredded ∧
      (later = [] ∧ len ≤ cut + 1 ∨ (∃ rand, resume = .reopened rand) ∧ len ≤ cut)

section Regions

variable (rand : RandomKey) (before later : List (AppendInput × RotateClock))
  (torn : AppendInput) (resume : Resume)

/-- What is appended after an intact log continues its chain. -/
theorem Complete.chained_resumed {s : Sys} {L : Layout} {es : List AuditEntry} {q : Nat}
    {tag : String} (h : Complete X s L) (htail : resume.tail X s s.disk = some (q, tag))
    (hread : ∀ e ∈ s.written, e.readable = true)
    (hchain : Chained X s.log.key (q + 1) tag es) :
    Chained X s.log.key 1 genesisHmac (s.written ++ es) := by
  cases resume with
  | sameHandle =>
      obtain ⟨rfl, rfl⟩ : s.log.seq = q ∧ s.log.lastHmac = tag := by
        simpa [Resume.tail] using htail
      refine HashChain.linked_append.mpr ⟨h.chained, ?_⟩
      rw [h.seq, h.last] at hchain
      rw [Nat.add_comm]
      exact hchain
  | reopened rand' => exact h.chained_reopened htail hread hchain

/-- Nothing of the line was written. -/
theorem torn_nothing_iff :
    (∃ d acked, tornRun X rand before torn 0 resume later = some (d, acked) ∧
        Survives X d rand.1 acked) ↔
      (∀ a ∈ before ++ later, a.1.event.kind ≠ .workspaceShredded) ∧
        before.length + later.length < 2 ^ 64 := by
  obtain ⟨h, hevents, hfile, hkey, -⟩ := complete_appended (X := X) rand before
  have hrun := tornRun_eq (X := X) rand before torn 0 resume later
  have hlen : (appended X rand before).written.length = before.length := by
    simpa using congrArg List.length hevents
  have hread := fun bs => (readLog_torn torn h hfile 0 bs).2
  generalize appended X rand before = s at *
  have hdisk : appendTorn X s.disk s.log torn 0 = s.disk := Disk.write_nil _ _
  dsimp only at hrun
  simp only [hdisk, List.take_zero, List.nil_append] at hrun hread
  rcases hrun with ⟨hnone, -⟩ | ⟨q, tag, es, htail, hrun, hchain, hlater⟩
  -- With nothing written there is always a tail.
  · exfalso
    cases resume with
    | sameHandle => cases hnone
    | reopened rand' =>
        rw [Resume.tail, h.holds.scanTail_eq] at hnone
        cases hnone
  rw [hrun]
  have hcontent := hread (Text.encode (logText X es))
  rw [← Text.encode_append, Text.decode_encode, ← logText_append] at hcontent
  have hsurvives := survives_lines rand.1 hcontent ?_ fun _ he => he
  · rw [← hkey] at hchain hsurvives ⊢
    -- The later entries follow the earlier ones as if nothing had been tried.
    have hreadable := readable_append_iff h.chained
      (fun hr => h.chained_resumed resume htail hr hchain) hlater
    rw [kind_ne_iff hevents, hlen] at hreadable
    rw [List.forall_mem_append, and_assoc, ← hreadable]
    constructor
    · rintro ⟨d, acked, heq, hs⟩
      obtain ⟨rfl, rfl⟩ : _ = d ∧ _ = acked := by simpa using heq
      exact (hsurvives.mp hs).1
    · intro hr
      have hall := h.chained_resumed resume htail (List.forall_mem_append.mp hr).1 hchain
      exact ⟨_, _, rfl,
        hsurvives.mpr ⟨hr, (anchored_iff_block hall fun _ he => he).mpr List.infix_rfl⟩⟩
  · intro e he
    rcases List.mem_append.mp he with he | he
    · exact h.seq_pos he
    · exact Nat.lt_of_lt_of_le (Nat.succ_pos q) (hchain.seq_bounds he).1

theorem kind_ne_concat_iff {s : Sys} (hevents : s.written.map (·.event) = before.map (·.1.event)) :
    (∀ e ∈ s.written ++ [nextEntry X s.log torn], e.event.kind ≠ .workspaceShredded) ↔
      (∀ a ∈ before, a.1.event.kind ≠ .workspaceShredded) ∧
        torn.event.kind ≠ .workspaceShredded := by
  rw [List.forall_mem_append, List.forall_mem_singleton, kind_ne_iff hevents]
  rfl

variable {later} in
/-- What is appended after a whole line continues the chain, once the log was opened again. -/
theorem Complete.chained_later {s w : Sys} {L : Layout} {es : List AuditEntry} {q : Nat}
    {tag : String} (h : Complete X w L) (hres : later = [] ∨ ∃ rand', resume = .reopened rand')
    (htail : resume.tail X s w.disk = some (q, tag))
    (hchain : Chained X w.log.key (q + 1) tag es)
    (hlater : es.map (·.event) = later.map (·.1.event))
    (hread : ∀ e ∈ w.written, e.readable = true) :
    Chained X w.log.key 1 genesisHmac (w.written ++ es) := by
  rcases hres with rfl | ⟨rand', rfl⟩
  · obtain rfl : es = [] := List.map_eq_nil_iff.mp hlater
    rw [List.append_nil]
    exact h.chained
  · exact h.chained_reopened htail hread hchain

variable {later} in
/-- On the same handle the next entry has the torn entry's number. -/
theorem reopened_of_anchored {s : Sys} {d : Disk} {es : List AuditEntry} {q : Nat} {tag : String}
    {key key' : Bytes} (htail : resume.tail X s d = some (q, tag))
    (hchain : Chained X key (q + 1) tag es)
    (hlater : es.map (·.event) = later.map (·.1.event))
    (hanch : Anchored X key' (s.written ++ [nextEntry X s.log torn] ++ es)) :
    later = [] ∨ ∃ rand', resume = .reopened rand' := by
  cases resume with
  | reopened rand' => exact .inr ⟨rand', rfl⟩
  | sameHandle =>
      left
      obtain ⟨rfl, rfl⟩ : s.log.seq = q ∧ s.log.lastHmac = tag := by
        simpa [Resume.tail] using htail
      rcases es with - | ⟨f, fs⟩
      · exact List.map_eq_nil_iff.mp hlater.symm
      · exfalso
        have hnodup := nodup_seq_of_anchored hanch
        rw [List.map_append, List.nodup_append] at hnodup
        have hne := hnodup.2.2 (nextEntry X s.log torn).seq (by simp) f.seq (by simp)
        exact hne hchain.1.symm

/-- The whole line was written. -/
theorem torn_whole_iff :
    (∃ d acked, tornRun X rand before torn (tornLine X rand before torn).length resume later
          = some (d, acked) ∧ Survives X d rand.1 acked) ↔
      (∀ a ∈ before ++ later, a.1.event.kind ≠ .workspaceShredded) ∧
        torn.event.kind ≠ .workspaceShredded ∧
        (later = [] ∨ ∃ rand', resume = .reopened rand') ∧
        before.length + later.length + 1 < 2 ^ 64 := by
  obtain ⟨h, hevents, hfile, hkey, -⟩ := complete_appended (X := X) rand before
  have hrun := tornRun_eq (X := X) rand before torn (tornLine X rand before torn).length resume
    later
  have hlen : (appended X rand before).written.length = before.length := by
    simpa using congrArg List.length hevents
  have hread := fun bs =>
    (readLog_torn torn h hfile (tornLine X rand before torn).length bs).2
  rw [tornLine] at *
  generalize appended X rand before = s at *
  -- The whole line is there: the log is that of one entry more, which nobody acknowledged.
  have hdisk : appendTorn X s.disk s.log torn (lineBytes X (nextEntry X s.log torn)).length
      = (s.wrote X torn).disk := by
    rw [appendTorn, List.take_length]
    rfl
  dsimp only at hrun
  simp only [hdisk, List.take_length] at hrun hread
  have hw : Complete X (s.wrote X torn)
      { sealed := [], active := s.written ++ [nextEntry X s.log torn] } :=
    ⟨h.wrote_attached h.attached torn, h.attached, rfl⟩
  have hkinds : (∀ e ∈ (s.wrote X torn).written, e.event.kind ≠ .workspaceShredded) ↔ _ :=
    kind_ne_concat_iff before torn hevents
  have hwlen : (s.wrote X torn).written.length = before.length + 1 := by
    rw [Sys.wrote, List.length_append, hlen]
    rfl
  rcases hrun with ⟨hnone, -⟩ | ⟨q, tag, es, htail, hrun, hchain, hlater⟩
  · exfalso
    cases resume with
    | sameHandle => cases hnone
    | reopened rand' =>
        rw [Resume.tail, hw.holds.scanTail_eq] at hnone
        cases hnone
  rw [hrun]
  have hcontent := hread (Text.encode (logText X es))
  rw [← List.append_assoc, ← encode_logText_concat, ← Text.encode_append, Text.decode_encode,
    ← logText_append] at hcontent
  have hall := fun hres => hw.chained_later resume hres htail (hkey.symm ▸ hchain) hlater
  have hreadable := fun hres => readable_append_iff hw.chained (hall hres) hlater
  rw [hkinds, hwlen] at hreadable
  -- What was acknowledged may leave out the torn entry, the chain may not.
  have hsurvives : Survives X _ rand.1 (s.written ++ es) ↔ _ := survives_lines rand.1 hcontent ?_ ?_
  · rw [List.forall_mem_append]
    constructor
    · rintro ⟨d, acked, heq, hs⟩
      obtain ⟨rfl, rfl⟩ : _ = d ∧ _ = acked := by simpa using heq
      obtain ⟨hr, hanch⟩ := hsurvives.mp hs
      -- The old handle would give its number once more.
      have hres := reopened_of_anchored torn resume htail hchain hlater hanch
      obtain ⟨⟨hbefore, htorn⟩, hkind, hcount⟩ := (hreadable hres).mp hr
      exact ⟨⟨hbefore, hkind⟩, htorn, hres, by omega⟩
    · rintro ⟨⟨hbefore, hkind⟩, htorn, hres, hcount⟩
      have hr := (hreadable hres).mpr ⟨⟨hbefore, htorn⟩, hkind, by omega⟩
      have hchained := hall hres (List.forall_mem_append.mp hr).1
      refine ⟨_, _, rfl, hsurvives.mpr ⟨hr, ?_⟩⟩
      rw [← hkey]
      exact (anchored_iff_block hchained fun _ he => he).mpr List.infix_rfl
  · intro e he
    rcases List.mem_append.mp he with he | he
    · exact hw.seq_pos he
    · exact Nat.lt_of_lt_of_le (Nat.succ_pos q) (hchain.seq_bounds he).1
  · intro e he
    rw [List.append_assoc]
    rcases List.mem_append.mp he with he | he
    · exact List.mem_append_left _ he
    · exact List.mem_append_right _ (List.mem_append_right _ he)

/-- The line was written but for its line break, and nothing is appended after it. -/
theorem torn_unterminated_iff {cut : Nat}
    (hcut : cut + 1 = (tornLine X rand before torn).length) :
    (∃ d acked, tornRun X rand before torn cut resume [] = some (d, acked) ∧
        Survives X d rand.1 acked) ↔
      (∀ a ∈ before, a.1.event.kind ≠ .workspaceShredded) ∧
        torn.event.kind ≠ .workspaceShredded ∧ before.length + 1 < 2 ^ 64 := by
  obtain ⟨h, hevents, hfile, hkey, -⟩ := complete_appended (X := X) rand before
  have hrun := tornRun_eq (X := X) rand before torn cut resume []
  have hlen : (appended X rand before).written.length = before.length := by
    simpa using congrArg List.length hevents
  rw [tornLine, length_lineBytes] at hcut
  obtain rfl : cut = _ := Nat.succ.inj hcut
  have hsurvives := survives_unterminated torn h hfile
  have hread := readLog_unterminated torn h hfile
  generalize appended X rand before = s at *
  dsimp only at hrun
  -- All but the line break is there, and nothing comes behind it.
  rcases hrun with ⟨hnone, -⟩ | ⟨q, tag, es, -, hrun, -, hlater⟩
  -- The tail is a line without its end, which reads all the same.
  · exfalso
    cases resume with
    | sameHandle => cases hnone
    | reopened rand' =>
        rw [Disk.write_nil] at hread
        have hlog : (appendTorn X s.disk s.log torn
            (Text.encode ((nextEntry X s.log torn).toText X)).length).log = some s.log.file :=
          h.attached
        simp [Resume.tail, scanTail, hlog, hread] at hnone
  obtain rfl : es = [] := List.map_eq_nil_iff.mp hlater
  rw [hrun, logText_nil, Text.encode_nil, List.append_nil, ← hkey]
  have hreadable := readable_chain_iff (h.chained_concat torn)
  rw [← hsurvives, kind_ne_concat_iff before torn hevents, List.length_append, hlen,
    and_assoc] at hreadable
  constructor
  · rintro ⟨d, acked, heq, hs⟩
    obtain ⟨rfl, rfl⟩ := Prod.mk.inj (Option.some.inj heq)
    exact hreadable.mp hs
  · exact fun hcond => ⟨_, _, rfl, hreadable.mpr hcond⟩

/-- The line was cut inside, or its line break is missing where the next line begins. -/
theorem not_survives_torn {cut : Nat} (hpos : 0 < cut)
    (hle : cut + 1 ≤ (tornLine X rand before torn).length)
    (hbad : later = [] → cut + 1 ≠ (tornLine X rand before torn).length) {d : Disk}
    {acked : List AuditEntry}
    (hrun : tornRun X rand before torn cut resume later = some (d, acked)) :
    ¬ Survives X d rand.1 acked := by
  obtain ⟨h, -, hfile, -, -⟩ := complete_appended (X := X) rand before
  have hcases := tornRun_eq (X := X) rand before torn cut resume later
  dsimp only at hcases
  rw [tornLine, length_lineBytes] at hle hbad
  rcases hcases with ⟨-, hnone⟩ | ⟨q, tag, es, -, heq, -, hlater⟩
  · rw [hrun] at hnone
    cases hnone
  · rw [hrun] at heq
    obtain ⟨rfl, rfl⟩ := Prod.mk.inj (Option.some.inj heq)
    refine not_survives_cut torn h hfile hpos (by omega) ?_ _
    rintro rfl hlen
    exact hbad (List.map_eq_nil_iff.mp hlater.symm) (by omega)

end Regions

/-- More bytes than the line has do not reach the file. -/
theorem tornRun_of_length_le (rand : RandomKey) (before : List (AppendInput × RotateClock))
    (torn : AppendInput) {cut : Nat} (resume : Resume)
    (later : List (AppendInput × RotateClock))
    (h : (tornLine X rand before torn).length ≤ cut) :
    tornRun X rand before torn cut resume later
      = tornRun X rand before torn (tornLine X rand before torn).length resume later := by
  have htorn : appendTorn X (appended X rand before).disk (appended X rand before).log torn cut
      = appendTorn X (appended X rand before).disk (appended X rand before).log torn
        (tornLine X rand before torn).length := by
    rw [appendTorn, appendTorn, ← tornLine, List.take_length, List.take_of_length_le h]
  unfold tornRun
  dsimp only
  rw [htorn]

/-- **Torn appends.**  After an append of which `cut` bytes were written, and any
    later appends, the file is accepted with every acknowledged entry in it and no
    number twice exactly when no event is `workspace_shredded`, the cut is harmless
    and the numbers fit a `u64`. -/
theorem torn_append_survives_iff (rand : RandomKey) (before : List (AppendInput × RotateClock))
    (torn : AppendInput) (cut : Nat) (resume : Resume)
    (later : List (AppendInput × RotateClock)) :
    (∃ d acked, tornRun X rand before torn cut resume later = some (d, acked) ∧
        Survives X d rand.1 acked) ↔
      (∀ a ∈ before ++ later, a.1.event.kind ≠ .workspaceShredded) ∧
        Harmless torn cut (tornLine X rand before torn).length resume later ∧
        before.length + later.length + (if cut = 0 then 0 else 1) < 2 ^ 64 := by
  have hline := length_lineBytes (X := X) (nextEntry X (appended X rand before).log torn)
  rw [← tornLine] at hline
  -- Nothing, all but the line break, part of it, or all of the line.
  rcases Nat.eq_zero_or_pos cut with rfl | hpos
  · rw [torn_nothing_iff rand before later torn resume]
    exact and_congr_right fun _ => (and_iff_right (.inl rfl)).symm
  rw [if_neg (by omega)]
  rcases Nat.lt_or_ge cut (tornLine X rand before torn).length with hlt | hge
  · by_cases hend : later = [] ∧ cut + 1 = (tornLine X rand before torn).length
    · obtain ⟨rfl, hcut⟩ := hend
      rw [torn_unterminated_iff rand before torn resume hcut, List.append_nil, Harmless]
      refine and_congr_right fun _ => and_congr_left fun _ => ?_
      constructor
      · exact fun htorn => .inr ⟨htorn, .inl ⟨rfl, by omega⟩⟩
      · rintro (hzero | ⟨htorn, -⟩)
        · omega
        · exact htorn
    -- A line that is cut inside spoils its own line and the one behind it.
    · refine iff_of_false ?_ ?_
      · rintro ⟨d, acked, hrun, hs⟩
        exact not_survives_torn rand before later torn resume hpos hlt
          (fun hnil hcut => hend ⟨hnil, hcut⟩) hrun hs
      · rintro ⟨-, hzero | ⟨-, ⟨hnil, hle⟩ | ⟨-, hwhole⟩⟩, -⟩
        · omega
        · exact hend ⟨hnil, by omega⟩
        · omega
  · rw [tornRun_of_length_le rand before torn resume later hge,
      torn_whole_iff rand before later torn resume, Harmless, ← and_assoc (c := _ < 2 ^ 64)]
    refine and_congr_right fun _ => and_congr_left fun _ => ?_
    constructor
    · rintro ⟨htorn, hnil | hre⟩
      · exact .inr ⟨htorn, .inl ⟨hnil, by omega⟩⟩
      · exact .inr ⟨htorn, .inr ⟨hre, hge⟩⟩
    · rintro (hzero | ⟨htorn, ⟨hnil, -⟩ | ⟨hre, -⟩⟩)
      · omega
      · exact ⟨htorn, .inl hnil⟩
      · exact ⟨htorn, .inr hre⟩

/-- One byte of the first line is written and the append fails; the next one on the
    same handle returns `Ok`, and `verify_log` rejects the file. -/
theorem torn_byte_breaks_log :
    ∃ d acked, tornRun External.sample zeroKey [] (stopAt 0) 1 .sameHandle
        [(stopAt newYear, newYearClock)] = some (d, acked) ∧
      ¬ Survives External.sample d zeroKey.1 acked := by
  have hcases := tornRun_eq (X := External.sample) zeroKey [] (stopAt 0) 1 .sameHandle
    [(stopAt newYear, newYearClock)]
  rcases hcases with ⟨hnone, -⟩ | ⟨q, tag, es, -, hrun, -, -⟩
  · cases hnone
  · exact ⟨_, _, hrun, not_survives_torn zeroKey [] [(stopAt newYear, newYearClock)] (stopAt 0)
      .sameHandle Nat.one_pos (two_le_length_lineBytes _) (fun h => nomatch h) hrun⟩

end Maranode.Audit
