/-
  Maranode.Audit.Crash

  A daemon that dies inside a rotation, and an append that fails or dies halfway.

  Rotation is three durable effects with no journal; recovery looks at the manifest
  only when the active file has no readable entry.  A torn append leaves any prefix
  of its line, and the next append continues right after it.
-/
import Maranode.Audit.Integrity

namespace Maranode.Audit

open Lib Lib.Json Common

variable (X : External)

/-! ## Appends through one handle -/

/-- Appends one after the other, with the entries whose append returned `Ok`. -/
def appendAll (d : Disk) (inner : LogInner) :
    List (AppendInput × RotateClock) → Disk × LogInner × List AuditEntry
  | [] => (d, inner, [])
  | (a, clk) :: rest =>
      let (d', inner') := append X d inner a clk
      let (d'', inner'', es) := appendAll d' inner' rest
      (d'', inner'', nextEntry X inner a :: es)

theorem Disk.write_nil (d : Disk) (i : Nat) : d.write i [] = d := by
  simp [Disk.write]

theorem Disk.write_write (d : Disk) (i : Nat) (bs cs : Bytes) :
    (d.write i bs).write i cs = d.write i (bs ++ cs) := by
  simp [Disk.write, List.append_assoc]

/-- With rotation off the lines follow each other at the end of the file, and they
    continue the handle's chain. -/
theorem appendAll_spec (d : Disk) {inner : LogInner} (hoff : inner.rotate.maxBytes = 0)
    (as : List (AppendInput × RotateClock)) :
    ∃ inner' es, appendAll X d inner as
        = (d.write inner.file (Text.encode (logText X es)), inner', es) ∧
      Chained X inner.key (inner.seq + 1) inner.lastHmac es ∧
      es.map (·.event) = as.map (·.1.event) ∧ inner'.file = inner.file ∧
      inner'.key = inner.key ∧ inner'.rotate = inner.rotate ∧
      inner'.seq = inner.seq + es.length ∧
      inner'.lastHmac = HashChain.lastTag AuditEntry.hmac inner.lastHmac es := by
  -- On the appends; each writes one line behind the ones before.
  induction as generalizing d inner with
  | nil =>
      refine ⟨inner, [], ?_, trivial, rfl, rfl, rfl, rfl, rfl, rfl⟩
      rw [appendAll, logText_nil, Text.encode_nil, Disk.write_nil]
  | cons a as ih =>
      obtain ⟨a, clk⟩ := a
      have happend : append X d inner a clk = appendEntry X d inner a :=
        append_of_maxBytes_eq_zero X a clk (by omega)
      obtain ⟨inner', es, hall, hchain, hevents, hfile, hkey, hrot, hseq, hlast⟩ :=
        @ih (appendEntry X d inner a).1 (appendEntry X d inner a).2 hoff
      refine ⟨inner', nextEntry X inner a :: es, ?_, ?_, ?_, hfile, hkey, hrot, ?_, ?_⟩
      · rw [appendAll, happend]
        simp only [hall]
        have hline : lineBytes X (nextEntry X inner a) ++ Text.encode (logText X es)
            = Text.encode (logText X (nextEntry X inner a :: es)) := by
          rw [← List.singleton_append, logText_append, Text.encode_append, logText_singleton,
            lineBytes]
        rw [← hline, ← Disk.write_write]
        rfl
      · exact ⟨rfl, rfl, macOk_chainEntry X .., hchain⟩
      · rw [List.map_cons, List.map_cons, hevents]
        rfl
      · rw [hseq, List.length_cons]
        simp only [appendEntry, nextEntry, chainEntry]
        omega
      · rw [hlast, HashChain.lastTag_cons]
        rfl

section Readable

variable {X}

/-- The entries of appends have the events that were appended. -/
theorem kind_ne_iff {es : List AuditEntry} {as : List (AppendInput × RotateClock)}
    (hevents : es.map (·.event) = as.map (·.1.event)) :
    (∀ e ∈ es, e.event.kind ≠ .workspaceShredded) ↔
      ∀ a ∈ as, a.1.event.kind ≠ .workspaceShredded := by
  rw [← List.forall_mem_map (f := fun e : AuditEntry => e.event)
    (P := fun v => v.kind ≠ .workspaceShredded), hevents, List.forall_mem_map]

/-- When every line of a chain reads back. -/
theorem readable_chain_iff {key : Bytes} {ws : List AuditEntry}
    (h : Chained X key 1 genesisHmac ws) :
    (∀ e ∈ ws, e.readable = true) ↔
      (∀ e ∈ ws, e.event.kind ≠ .workspaceShredded) ∧ ws.length < 2 ^ 64 := by
  constructor
  · intro hread
    refine ⟨fun e he => (AuditEntry.readable_iff.mp (hread e he)).1, ?_⟩
    -- The last entry has the greatest number.
    rcases List.eq_nil_or_concat ws with rfl | ⟨ys, e, rfl⟩
    · exact Nat.two_pow_pos 64
    · rw [List.concat_eq_append] at h hread ⊢
      have hseq : e.seq = 1 + ys.length := h.seq_getElem? (by simp)
      have hlt := (AuditEntry.readable_iff.mp (hread e (by simp))).2
      rw [List.length_append, List.length_singleton]
      omega
  · rintro ⟨hkind, hcount⟩ e he
    have hlt := (h.seq_bounds he).2
    exact AuditEntry.readable_iff.mpr ⟨hkind e he, by omega⟩

/-- The same for a log and what is appended to it. -/
theorem readable_append_iff {key : Bytes} {ws es : List AuditEntry}
    {later : List (AppendInput × RotateClock)} (hws : Chained X key 1 genesisHmac ws)
    (hall : (∀ e ∈ ws, e.readable = true) → Chained X key 1 genesisHmac (ws ++ es))
    (hevents : es.map (·.event) = later.map (·.1.event)) :
    (∀ e ∈ ws ++ es, e.readable = true) ↔
      (∀ e ∈ ws, e.event.kind ≠ .workspaceShredded) ∧
        (∀ a ∈ later, a.1.event.kind ≠ .workspaceShredded) ∧
        ws.length + later.length < 2 ^ 64 := by
  have hlen : (ws ++ es).length = ws.length + later.length := by
    have hes : es.length = later.length := by simpa using congrArg List.length hevents
    rw [List.length_append, hes]
  rw [← kind_ne_iff hevents, ← hlen]
  constructor
  · intro hread
    obtain ⟨hkind, hcount⟩ :=
      (readable_chain_iff (hall (List.forall_mem_append.mp hread).1)).mp hread
    obtain ⟨hw, hes⟩ := List.forall_mem_append.mp hkind
    exact ⟨hw, hes, hcount⟩
  · rintro ⟨hw, hes, hcount⟩
    have hread := (readable_chain_iff hws).mpr ⟨hw, by omega⟩
    exact (readable_chain_iff (hall hread)).mpr ⟨List.forall_mem_append.mpr ⟨hw, hes⟩, hcount⟩

end Readable

/-! ## A crash inside rotate_locked -/

/-- How far a rotation got. -/
inductive CrashPoint where
  /-- Nothing written yet. -/
  | start
  /-- The zip file holds this many of its bytes. -/
  | zip (cut : Nat)
  /-- The manifest was renamed, the active file not yet truncated. -/
  | manifest
  | truncate
  | reopen
  deriving DecidableEq

/-- The directory when `rotate_locked` gets only that far. -/
def rotateCrash (d : Disk) (inner : LogInner) (cfg : RotateConfig) (clk : RotateClock)
    (point : CrashPoint) : Disk :=
  match rotateDue X d inner cfg clk.age with
  | some (some (content, sum)) =>
      let logBytes := Text.encode content
      let seg := segmentOf X logBytes sum clk
      match point with
      | .start => d
      | .zip cut => d.writeSegment seg.file ((X.zipWrite innerName logBytes).take cut)
      | .manifest => (sealSegment X d logBytes sum clk).2
      | .truncate => (sealSegment X d logBytes sum clk).2.truncateLog
      | .reopen => (sealSegment X d logBytes sum clk).2.truncateLog.openAppend.1
  | _ => d

/-- Where the rotation runs: from the sweep, or inline in an append whose line is
    already written. -/
inductive RotationSite where
  | sweep (cfg : RotateConfig)
  | inline (a : AppendInput)

/-- The state in which the rotation starts. -/
def RotationSite.entered (site : RotationSite) (s : Sys) : Sys :=
  match site with
  | .sweep _ => s
  | .inline a => s.wrote X a

def RotationSite.cfg (site : RotationSite) (s : Sys) : RotateConfig :=
  match site with
  | .sweep cfg => cfg
  | .inline _ => { maxBytes := s.log.rotate.maxBytes, maxAgeDays := 0 }

/-- The rotation has something to seal. -/
def RotationSite.due (site : RotationSite) (s : Sys) (clk : RotateClock) : Bool :=
  let u := site.entered X s
  (rotateDue X u.disk u.log (site.cfg s) clk.age).any Option.isSome

/-- The directory the crash leaves. -/
def RotationSite.crashed (site : RotationSite) (s : Sys) (clk : RotateClock)
    (point : CrashPoint) : Disk :=
  let u := site.entered X s
  rotateCrash X u.disk u.log (site.cfg s) clk point

/-- The log is opened again and more entries are appended. -/
def reopenAndAppend (d : Disk) (rand : RandomKey) (later : List (AppendInput × RotateClock)) :
    Option (Disk × LogInner × List AuditEntry) :=
  (openLog X d rand).map fun (d, inner) => appendAll X d inner later

variable {X}

/-- Opening a directory and appending to it: the lines go to the end of the log. -/
theorem reopenAndAppend_eq {d : Disk} {i q : Nat} {key : Bytes} {tag : String}
    (hi : d.log = some i) (hkey : d.key = some key) (hlen : key.length = keyLen)
    (htail : scanTail X d = some (q, tag)) (rand : RandomKey)
    (later : List (AppendInput × RotateClock)) :
    ∃ inner es, reopenAndAppend X d rand later
        = some (d.write i (Text.encode (logText X es)), inner, es) ∧
      Chained X key (q + 1) tag es ∧ es.map (·.event) = later.map (·.1.event) ∧
      inner.key = key := by
  have hload : loadOrGenerate d rand = some (key, d) := by
    simp [loadOrGenerate, loadKey, hkey, hlen]
  have hopen : d.openAppend = (d, i) := by simp [Disk.openAppend, hi]
  let opened : LogInner :=
    { file := i, seq := q, lastHmac := tag, key := key, rotate := rotateOff }
  have hoff : opened.rotate.maxBytes = 0 := rfl
  obtain ⟨inner, es, hall, hchain, hevents, -, hkey', -⟩ := appendAll_spec X d hoff later
  refine ⟨inner, es, ?_, hchain, hevents, hkey'⟩
  rw [reopenAndAppend, openLog, hload, Option.bind_some]
  simp only [htail, Option.map_some, hopen]
  exact congrArg some hall

/-- On a directory that holds a layout they go to the end of the active entries. -/
theorem Holds.reopenAndAppend {d : Disk} {L : Layout} {key : Bytes} (h : Holds X d L)
    (hkey : d.key = some key) (hlen : key.length = keyLen) (rand : RandomKey)
    (later : List (AppendInput × RotateClock)) :
    ∃ q tag d' inner es, scanTail X d = some (q, tag) ∧
      reopenAndAppend X d rand later = some (d', inner, es) ∧
      Holds X d' { L with active := L.active ++ es } ∧
      Chained X key (q + 1) tag es ∧ es.map (·.event) = later.map (·.1.event) ∧
      inner.key = key := by
  obtain ⟨i, hi, hdata⟩ := h.log
  obtain ⟨⟨q, tag⟩, htail⟩ : ∃ r, scanTail X d = some r := ⟨_, h.scanTail_eq⟩
  obtain ⟨inner, es, hre, hchain, hevents, hkey'⟩ :=
    reopenAndAppend_eq hi hkey hlen htail rand later
  refine ⟨q, tag, _, inner, es, htail, hre, ?_, hchain, hevents, hkey'⟩
  refine h.of_log _ rfl rfl ⟨i, hi, ?_⟩
  simp [Disk.write, hdata, logText_append]

/-- The state in which a rotation starts is complete. -/
theorem Complete.entered {s : Sys} {L : Layout} (h : Complete X s L) (site : RotationSite) :
    ∃ L', Complete X (site.entered X s) L' := by
  cases site with
  | sweep cfg => exact ⟨L, h⟩
  | inline a =>
      refine ⟨_, h.wrote_attached h.attached a, h.attached, ?_⟩
      rw [Layout.entries, ← List.append_assoc]
      exact congrArg (· ++ [nextEntry X s.log a]) h.entries_eq

theorem rotateCrash_key (d : Disk) (inner : LogInner) (cfg : RotateConfig) (clk : RotateClock)
    (point : CrashPoint) : (rotateCrash X d inner cfg clk point).key = d.key := by
  unfold rotateCrash
  split
  · cases point <;> simp only [Disk.openAppend_frame, Disk.truncateLog_frame] <;> rfl
  · rfl

/-- At every point but one the crash leaves all entries where they were, or sealed. -/
theorem Complete.rotateCrash {s : Sys} {L : Layout} (h : Complete X s L) (cfg : RotateConfig)
    (clk : RotateClock) {point : CrashPoint}
    (hpoint : point = .manifest →
      (rotateDue X s.disk s.log cfg clk.age).any Option.isSome = false) :
    ∃ L', Complete X { s with disk := rotateCrash X s.disk s.log cfg clk point } L' := by
  obtain ⟨i, hi, -⟩ := h.holds.log
  -- Nothing is due, so there is nothing to crash in.
  rcases h.holds.rotateDue_cases s.log cfg clk.age with hdue | ⟨sum, hsum, hdue⟩
  · refine ⟨L, ?_⟩
    rw [Audit.rotateCrash, hdue]
    exact h
  · have hfile := h.holds.file_ne_segmentOf h.sorted hsum clk
    -- From the truncation on the disk is that of a rotation that was finished.
    have hseal : ∃ L', Complete X
        { s with
          disk := (sealSegment X s.disk (Text.encode (logText X L.active)) sum clk).2.truncateLog }
        L' := by
      refine ⟨L.seal (segmentOf X (Text.encode (logText X L.active)) sum clk), ?_, ?_, ?_⟩
      · exact h.with_disk (h.holds.after_truncate h.sorted hsum clk)
          (L.seal_sublist _) (rotated_frame hi _ _)
      · exact (rotated_frame hi _ _).2.1.trans h.attached
      · exact (L.entries_seal _).trans h.entries_eq
    rw [Audit.rotateCrash, hdue]
    cases point with
    | start => exact ⟨L, h⟩
    -- The segment is written, and no manifest names it.
    | zip cut =>
        exact ⟨L, h.with_disk (h.holds.writeSegment hfile _) (List.Sublist.refl _)
          ⟨rfl, rfl, rfl⟩, h.attached, h.entries_eq⟩
    -- Between manifest and truncation the entries are in both, which the condition excludes.
    | manifest =>
        have := hpoint rfl
        simp [hdue] at this
    | truncate => exact hseal
    | reopen =>
        obtain ⟨L', hL'⟩ := hseal
        refine ⟨L', ?_⟩
        have hopen := hL'.holds.openAppend hL'.attached
        dsimp only at hopen ⊢
        rw [hopen]
        exact hL'

/-- Between the manifest and the truncation every active entry is there twice. -/
theorem Complete.rotateCrash_manifest {s : Sys} {L : Layout} (h : Complete X s L)
    (cfg : RotateConfig) (clk : RotateClock)
    (hdue : (rotateDue X s.disk s.log cfg clk.age).any Option.isSome = true) :
    ∃ seg, L.active ≠ [] ∧
      (L.sealed ++ [(seg, L.active)]).Pairwise (·.1.seqStart ≤ ·.1.seqStart) ∧
      Holds X (Audit.rotateCrash X s.disk s.log cfg clk .manifest)
        { L with sealed := L.sealed ++ [(seg, L.active)] } := by
  rcases h.holds.rotateDue_cases s.log cfg clk.age with hnone | ⟨sum, hsum, hsome⟩
  · simp [hnone] at hdue
  · refine ⟨segmentOf X (Text.encode (logText X L.active)) sum clk, ?_, ?_, ?_⟩
    · intro hnil
      have hempty : summarize X (logText X []) = none := rfl
      rw [hnil, hempty] at hsum
      cases hsum
    · have hord := h.sorted.sublist
        (L.seal_sublist (segmentOf X (Text.encode (logText X L.active)) sum clk))
      exact ((h.holds.after_truncate h.sorted hsum clk).pairwise_seqStart hord).imp Nat.le_of_lt
    · rw [Audit.rotateCrash, hsome]
      exact h.holds.after_manifest h.sorted hsum clk

variable (X) in
/-- What a recovered directory should be: `verify_all` accepts it, and each of the
    entries is in it once. -/
def Recovered (d : Disk) (key : Bytes) (acked : List AuditEntry) : Prop :=
  (∃ r, verifyAll X d key = some r ∧ r.ok = true) ∧
    ∀ e ∈ acked, (stored X d).count (e.toText X) = 1

/-- What `verify_all` accepts of a layout reads back and is ordered. -/
theorem Holds.of_verifyAll_ok {d : Disk} {L : Layout} {key : Bytes} (h : Holds X d L)
    (hstart : L.sealed.Pairwise (·.1.seqStart ≤ ·.1.seqStart))
    (hpos : ∀ e ∈ L.entries, 0 < e.seq)
    (hok : ∃ r, verifyAll X d key = some r ∧ r.ok = true) :
    (∀ e ∈ L.entries, e.readable = true) ∧ L.Ordered := by
  obtain ⟨r, hr, hrok⟩ := hok
  obtain ⟨r', hr', hiff, -⟩ := h.verifyAll_spec hstart hpos key
  obtain rfl : r = r' := Option.some.inj (hr.symm.trans hr')
  obtain ⟨hread, hanch⟩ := hiff.mp hrok
  refine ⟨hread, ?_⟩
  rw [Layout.Ordered]
  rcases hl : L.entries with - | ⟨e, es⟩
  · exact List.Pairwise.nil
  · exact (hl ▸ hanch e (by rw [hl]; rfl)).pairwise

/-- A reopened log continues where the last readable line stopped. -/
theorem Complete.chained_reopened {s : Sys} {L : Layout} {es : List AuditEntry}
    (h : Complete X s L) {q : Nat} {tag : String}
    (htail : scanTail X s.disk = some (q, tag))
    (hread : ∀ e ∈ s.written, e.readable = true)
    (hchain : Chained X s.log.key (q + 1) tag es) :
    Chained X s.log.key 1 genesisHmac (s.written ++ es) := by
  have hscan := h.scanTail_eq (h.tailRecorded fun e he => hread e (List.mem_of_getLast? he))
  obtain ⟨rfl, rfl⟩ : s.log.seq = q ∧ s.log.lastHmac = tag := by simpa [hscan] using htail
  refine HashChain.linked_append.mpr ⟨h.chained, ?_⟩
  rw [h.seq, h.last] at hchain
  rw [Nat.add_comm]
  exact hchain

/-- A complete state that is opened again and appended to stays complete. -/
theorem Complete.recovered {s : Sys} {L : Layout} (h : Complete X s L)
    {d' : Disk} {inner : LogInner} {rand : RandomKey}
    {later : List (AppendInput × RotateClock)} {es : List AuditEntry}
    (hre : Audit.reopenAndAppend X s.disk rand later = some (d', inner, es))
    (hread : ∀ e ∈ s.written ++ es, e.readable = true) :
    Recovered X d' inner.key (s.written ++ es) := by
  obtain ⟨q, tag, d'', inner', es', htail, hre', hholds, hchain, -, hkey⟩ :=
    h.holds.reopenAndAppend h.key h.keyLen rand later
  rw [hre] at hre'
  obtain ⟨rfl, rfl, rfl⟩ : d' = d'' ∧ inner = inner' ∧ es = es' := by simpa using hre'
  have hentries : Layout.entries { L with active := L.active ++ es } = s.written ++ es := by
    rw [← h.entries_eq, Layout.entries, Layout.entries, List.append_assoc]
    rfl
  have hall := h.chained_reopened htail
    (fun e he => hread e (List.mem_append_left _ he)) hchain
  have hord : Layout.Ordered { L with active := L.active ++ es } := by
    rw [Layout.Ordered, hentries]
    exact hall.pairwise
  obtain ⟨r, hr, hok, -⟩ := hholds.verifyAll_spec
    ((hholds.pairwise_seqStart hord.sorted).imp Nat.le_of_lt)
    (fun e he => (hall.seq_bounds (hentries ▸ he)).1) inner.key
  refine ⟨⟨r, hr, hok.mpr ?_⟩, fun e he => hholds.count_stored hord (hentries ▸ he)⟩
  rw [hentries, hkey]
  exact ⟨hread, (anchored_iff_block hall fun _ he => he).mpr List.infix_rfl⟩

/-- Nothing that is done after a crash between the manifest and the truncation
    recovers the log: an active entry would come before itself. -/
theorem Complete.not_recovered_manifest {s : Sys} {L : Layout} (h : Complete X s L)
    (cfg : RotateConfig) (clk : RotateClock)
    (hdue : (rotateDue X s.disk s.log cfg clk.age).any Option.isSome = true)
    (rand : RandomKey) (later : List (AppendInput × RotateClock)) :
    ∃ d inner es,
      Audit.reopenAndAppend X (Audit.rotateCrash X s.disk s.log cfg clk .manifest) rand later
        = some (d, inner, es) ∧
      ∀ key acked, ¬ Recovered X d key acked := by
  obtain ⟨seg, hne, hstart, hholds⟩ := h.rotateCrash_manifest cfg clk hdue
  obtain ⟨q, tag, d, inner, es, -, hre, hholds', hchain, -, -⟩ :=
    hholds.reopenAndAppend ((rotateCrash_key ..).trans h.key) h.keyLen rand later
  refine ⟨d, inner, es, hre, ?_⟩
  rintro key acked ⟨hok, -⟩
  obtain ⟨e, he⟩ := List.exists_mem_of_ne_nil _ hne
  have hpos : ∀ f ∈ Layout.entries
      { sealed := L.sealed ++ [(seg, L.active)], active := L.active ++ es }, 0 < f.seq := by
    intro f hf
    have hf' : f ∈ L.entries ∨ f ∈ es := by
      simp only [Layout.entries, Layout.archived, List.flatMap_append, List.flatMap_cons,
        List.flatMap_nil, List.append_nil, List.mem_append] at hf ⊢
      tauto
    rcases hf' with hf | hf
    · exact h.seq_pos (h.sublist.subset hf)
    · exact Nat.lt_of_lt_of_le (Nat.succ_pos q) (hchain.seq_bounds hf).1
  have hord := (hholds'.of_verifyAll_ok hstart hpos hok).2
  have hlt := (List.pairwise_append.mp hord).2.2 e
    (Layout.mem_archived (List.mem_append_right _ (List.mem_singleton_self _)) he) e
    (List.mem_append_left _ he)
  omega

/-- **Recovery from a crash inside a rotation.**  From any state reached without
    retention, a crash inside `rotate_locked`, a restart and further appends leave a
    directory that verifies and has every entry once, exactly when no event is
    `workspace_shredded`, the numbers fit a `u64` and the crash was not between the
    manifest and the truncation of a rotation that was due. -/
theorem rotation_crash_recovers_iff (rand : RandomKey) (ops : List Op)
    (hops : Run.Along (Sys.step X) Recording (freshSys rand) ops) (site : RotationSite)
    (clk : RotateClock) (point : CrashPoint) (rand' : RandomKey)
    (later : List (AppendInput × RotateClock)) :
    ∃ s d inner es, Sys.run X (freshSys rand) ops = some s ∧
      reopenAndAppend X (site.crashed X s clk point) rand' later = some (d, inner, es) ∧
      (Recovered X d inner.key (s.written ++ es) ↔
        ((∀ e ∈ (site.entered X s).written, e.event.kind ≠ .workspaceShredded) ∧
          (∀ a ∈ later, a.1.event.kind ≠ .workspaceShredded) ∧
          (site.entered X s).written.length + later.length < 2 ^ 64) ∧
          ¬ (point = .manifest ∧ site.due X s clk = true)) := by
  obtain ⟨s, hs, L₀, hcomplete⟩ := complete_run (X := X) rand hops
  obtain ⟨L, hu⟩ := hcomplete.entered site
  have hkey : (site.crashed X s clk point).key = some (site.entered X s).log.key :=
    (rotateCrash_key ..).trans hu.key
  -- The entry that triggered the rotation may be written, and was not acknowledged.
  have hacked : s.written.Sublist (site.entered X s).written := by
    cases site with
    | sweep cfg => exact List.Sublist.refl _
    | inline a => exact List.sublist_append_left _ _
  -- The crash that recovery does not survive.
  by_cases hbad : point = .manifest ∧ site.due X s clk = true
  · obtain ⟨rfl, hdue⟩ := hbad
    obtain ⟨d, inner, es, hre, hnot⟩ :=
      hu.not_recovered_manifest (site.cfg s) clk hdue rand' later
    exact ⟨s, d, inner, es, hs, hre, iff_of_false (hnot _ _) fun h => h.2 ⟨rfl, hdue⟩⟩
  · have hpoint : point = .manifest → (rotateDue X (site.entered X s).disk
        (site.entered X s).log (site.cfg s) clk.age).any Option.isSome = false := by
      intro hp
      exact Bool.eq_false_iff.mpr fun h => hbad ⟨hp, h⟩
    obtain ⟨L', hc⟩ := hu.rotateCrash (site.cfg s) clk hpoint
    -- After a restart the chain goes on where the tail of the log is.
    obtain ⟨q, tag, d, inner, es, htail, hre, hholds, hchain, hevents, -⟩ :=
      hc.holds.reopenAndAppend hkey hu.keyLen rand' later
    refine ⟨s, d, inner, es, hs, hre, ?_⟩
    have hreadable := readable_append_iff hc.chained
      (fun hread => hc.chained_reopened htail hread hchain) hevents
    dsimp only at hreadable
    rw [and_iff_left hbad, ← hreadable]
    constructor
    -- An accepted log names every entry once, in the order of the numbers.
    · rintro ⟨hok, -⟩
      have hentries : Layout.entries { L' with active := L'.active ++ es }
          = (site.entered X s).written ++ es := by
        rw [← hc.entries_eq, Layout.entries, Layout.entries, List.append_assoc]
        rfl
      have hpos : ∀ f ∈ Layout.entries { L' with active := L'.active ++ es }, 0 < f.seq := by
        intro f hf
        rw [hentries] at hf
        rcases List.mem_append.mp hf with hf | hf
        · exact hu.seq_pos hf
        · exact Nat.lt_of_lt_of_le (Nat.succ_pos q) (hchain.seq_bounds hf).1
      rw [← hentries]
      exact (hholds.of_verifyAll_ok
        ((hc.holds.pairwise_seqStart hc.sorted).imp Nat.le_of_lt) hpos hok).1
    · intro hread
      obtain ⟨hok, honce⟩ := hc.recovered hre hread
      exact ⟨hok, fun e he => honce e ((hacked.append (List.Sublist.refl es)).subset he)⟩

/-- A rotation that dies once the active file is truncated, a restart and another entry. -/
theorem rotation_crash_recovers_truncated :
    ∃ s d inner es, Sys.run External.sample (freshSys zeroKey) restartOnce = some s ∧
      reopenAndAppend External.sample
          ((RotationSite.sweep anySize).crashed External.sample s newYearClock .truncate) zeroKey
          [(stopAt newYear, newYearClock)]
        = some (d, inner, es) ∧
      (Recovered External.sample d inner.key (s.written ++ es) ↔
        ((∀ e ∈ s.written, e.event.kind ≠ .workspaceShredded) ∧
          (∀ a ∈ [(stopAt newYear, newYearClock)], a.1.event.kind ≠ .workspaceShredded) ∧
          s.written.length + 1 < 2 ^ 64) ∧
          ¬ (CrashPoint.truncate = .manifest ∧
            (RotationSite.sweep anySize).due External.sample s newYearClock = true)) :=
  rotation_crash_recovers_iff zeroKey restartOnce recording_restartOnce (.sweep anySize)
    newYearClock .truncate zeroKey [(stopAt newYear, newYearClock)]

/-- One entry, a rotation that dies before it truncates, and a restart: the entry is
    sealed and still active, and `verify_all` rejects the directory. -/
theorem manifest_crash_not_recovered :
    ∃ s d inner es,
      Sys.run External.sample (freshSys zeroKey) [.append (stopAt 0) newYearClock] = some s ∧
      reopenAndAppend External.sample
          ((RotationSite.sweep anySize).crashed External.sample s newYearClock .manifest)
          zeroKey [(stopAt newYear, newYearClock)]
        = some (d, inner, es) ∧
      ¬ Recovered External.sample d inner.key (s.written ++ es) := by
  obtain ⟨due, hdue⟩ := rotateDue_firstLayout (X := External.sample) zeroKey 0 newYear
  have hany : (rotateDue External.sample ((freshSys zeroKey).wrote External.sample (stopAt 0)).disk
      ((freshSys zeroKey).wrote External.sample (stopAt 0)).log anySize
      newYearClock.age).any Option.isSome = true :=
    congrArg (·.any Option.isSome) hdue
  obtain ⟨d, inner, es, hre, hnot⟩ :=
    (complete_firstLayout zeroKey (stopAt 0)).not_recovered_manifest anySize newYearClock hany
      zeroKey [(stopAt newYear, newYearClock)]
  exact ⟨_, d, inner, es, run_append_freshSys .., hre, hnot _ _⟩

end Maranode.Audit
