/-
  Maranode.Audit.Handles

  Two processes that append to one log: the daemon, and `maranode workspace shred`,
  which opens the log itself to write its deletion certificate.

  A handle takes the number and the MAC of the last entry from the file when it is
  opened and never reads the file again, so a handle is stale as soon as the other
  process appends: its next entry repeats a number.
-/
import Maranode.Audit.Torn

namespace Maranode.Audit

open Lib Common

variable (X : External)

/-! ## Two handles on one file -/

inductive Process where
  | daemon
  | cli
  deriving DecidableEq

/-- The directory, the handle of each process, and the entries whose append returned
    `Ok`. -/
structure Shared where
  disk : Disk
  handle : Process → Option LogInner
  written : List AuditEntry

inductive HandleOp where
  | openLog (p : Process) (rand : RandomKey)
  | append (p : Process) (a : AppendInput) (clk : RotateClock)

/-- One call.  `none` when the process has not opened the log, or it does not open. -/
def Shared.step (s : Shared) : HandleOp → Option Shared
  | .openLog p rand =>
      (openLog X s.disk rand).map fun (disk, log) =>
        { s with disk, handle := Function.update s.handle p (some log) }
  | .append p a clk =>
      (s.handle p).map fun log =>
        let (disk, log') := append X s.disk log a clk
        { disk, handle := Function.update s.handle p (some log'),
          written := s.written ++ [nextEntry X log a] }

/-- A directory nobody has opened. -/
def Shared.empty : Shared where
  disk := Disk.empty
  handle := fun _ => none
  written := []

/-- `verify_log` accepts the file, and no number stands in it twice. -/
def Accepted (d : Disk) : Prop :=
  (∃ r, verifyLog X d ((loadKey d).getD []) = some r ∧ r.ok = true) ∧
    ((entriesIn X (d.readLog.getD [])).map (·.seq)).Nodup

/-- Every append is made by a process that opened the log, or appended to it, after
    the last append of the other one. -/
def inTurn (current : Process → Bool) : List HandleOp → Bool
  | [] => true
  | .openLog p _ :: ops => inTurn (Function.update current p true) ops
  | .append p _ _ :: ops => current p && inTurn (fun q => decide (q = p)) ops

/-- The events appended. -/
def appendedEvents : List HandleOp → List AuditEvent
  | [] => []
  | .openLog _ _ :: ops => appendedEvents ops
  | .append _ a _ :: ops => a.event :: appendedEvents ops

variable {X}

/-! ## What every order of calls keeps -/

variable (X) in
/-- The file has the line of every entry, and every handle is on it. -/
structure OneFile (s : Shared) : Prop where
  holds : Holds X s.disk { sealed := [], active := s.written }
  key : ∃ key, s.disk.key = some key ∧ key.length = keyLen
  log_lt : ∀ i, s.disk.log = some i → i < s.disk.next
  handle : ∀ p log, s.handle p = some log →
    s.disk.log = some log.file ∧ s.disk.key = some log.key ∧ log.rotate = rotateOff ∧
      (s.written = [] → log.seq = 0)
  pos : ∀ e ∈ s.written, 0 < e.seq
  first : ∀ e, s.written.head? = some e → e.seq = 1

/-- Opening a log that is there. -/
theorem OneFile.openLog_eq {s : Shared} (h : OneFile X s) (rand : RandomKey) :
    ∃ q tag log, openLog X s.disk rand = some (s.disk, log) ∧
      scanTail X s.disk = some (q, tag) ∧ s.disk.log = some log.file ∧
      s.disk.key = some log.key ∧ log.rotate = rotateOff ∧ log.seq = q ∧ log.lastHmac = tag := by
  obtain ⟨key, hkey, hlen⟩ := h.key
  obtain ⟨i, hi, -⟩ := h.holds.log
  obtain ⟨⟨q, tag⟩, htail⟩ : ∃ r, scanTail X s.disk = some r := ⟨_, h.holds.scanTail_eq⟩
  have hload : loadOrGenerate s.disk rand = some (key, s.disk) := by
    simp [loadOrGenerate, loadKey, hkey, hlen]
  refine ⟨q, tag, { file := i, seq := q, lastHmac := tag, key, rotate := rotateOff }, ?_, htail,
    hi, hkey, rfl, rfl, rfl⟩
  rw [openLog, hload, Option.bind_some]
  simp only [htail, Option.map_some, h.holds.openAppend hi]

theorem Shared.handle_update {s : Shared} {p : Process} {log : LogInner}
    {P : LogInner → Prop} (hlog : P log) (hs : ∀ q l, s.handle q = some l → P l) :
    ∀ q l, Function.update s.handle p (some log) q = some l → P l := by
  intro q l hl
  by_cases hq : q = p
  · subst hq
    rw [Function.update_self] at hl
    exact Option.some.inj hl ▸ hlog
  · rw [Function.update_of_ne hq] at hl
    exact hs q l hl

/-- The state after an append of a process whose handle is `log`. -/
def Shared.wrote (s : Shared) (p : Process) (log : LogInner) (a : AppendInput) : Shared where
  disk := (appendEntry X s.disk log a).1
  handle := Function.update s.handle p (some (appendEntry X s.disk log a).2)
  written := s.written ++ [nextEntry X log a]

theorem OneFile.step_append {s : Shared} (h : OneFile X s) {p : Process} {log : LogInner}
    (hp : s.handle p = some log) (a : AppendInput) (clk : RotateClock) :
    Shared.step X s (.append p a clk) = some (s.wrote (X := X) p log a) := by
  obtain ⟨-, -, hoff, -⟩ := h.handle p log hp
  have hzero : ¬ 0 < log.rotate.maxBytes := by
    rw [hoff]
    exact Nat.lt_irrefl 0
  rw [Shared.step, hp, Option.map_some, append_of_maxBytes_eq_zero X a clk hzero]
  rfl

theorem OneFile.wrote {s : Shared} (h : OneFile X s) {p : Process} {log : LogInner}
    (hp : s.handle p = some log) (a : AppendInput) :
    OneFile X (s.wrote (X := X) p log a) where
  holds := h.holds.write (h.handle p log hp).1 _
  key := h.key
  log_lt := h.log_lt
  handle := by
    obtain ⟨hfile, hkey, hoff, -⟩ := h.handle p log hp
    refine Shared.handle_update ⟨hfile, hkey, hoff, fun hnil => ?_⟩ fun q l hl => ?_
    · exact absurd hnil (List.append_ne_nil_of_right_ne_nil _ (List.cons_ne_nil _ _))
    · obtain ⟨hf, hk, ho, -⟩ := h.handle q l hl
      exact ⟨hf, hk, ho, fun hnil =>
        absurd hnil (List.append_ne_nil_of_right_ne_nil _ (List.cons_ne_nil _ _))⟩
  pos := by
    intro e he
    rcases List.mem_append.mp he with he | he
    · exact h.pos e he
    · obtain rfl := List.mem_singleton.mp he
      exact Nat.succ_pos _
  first := by
    intro e he
    rcases hw : s.written with - | ⟨f, fs⟩
    · -- The first append of all is made by a handle that found nothing.
      have hzero := (h.handle p log hp).2.2.2 hw
      have he' : some (nextEntry X log a) = some e := by simpa [Shared.wrote, hw] using he
      obtain rfl := Option.some.inj he'
      show log.seq + 1 = 1
      omega
    · exact h.first e (by simpa [Shared.wrote, hw] using he)

theorem OneFile.step {s s' : Shared} (h : OneFile X s) {op : HandleOp}
    (hs' : Shared.step X s op = some s') :
    OneFile X s' ∧ s.written <+: s'.written ∧ s'.disk.key = s.disk.key := by
  cases op with
  | openLog p rand =>
      obtain ⟨q, tag, log, hopen, htail, hfile, hkey, hoff, hseq, -⟩ := h.openLog_eq rand
      rw [Shared.step, hopen, Option.map_some] at hs'
      obtain rfl := Option.some.inj hs'
      refine ⟨⟨h.holds, h.key, h.log_lt, ?_, h.pos, h.first⟩, List.prefix_rfl, rfl⟩
      refine Shared.handle_update ⟨hfile, hkey, hoff, fun hnil => ?_⟩ h.handle
      have hempty := h.holds.scanTail_empty (by rw [hnil]; rfl)
      rw [hempty] at htail
      rw [hseq]
      exact (congrArg Prod.fst (Option.some.inj htail)).symm
  | append p a clk =>
      rcases hp : s.handle p with - | log
      · rw [Shared.step, hp] at hs'
        cases hs'
      · rw [h.step_append hp a clk] at hs'
        obtain rfl := Option.some.inj hs'
        exact ⟨h.wrote hp a, List.prefix_append _ _, rfl⟩

theorem OneFile.run {s t : Shared} {ops : List HandleOp} (h : OneFile X s)
    (ht : Run.run (Shared.step X) s ops = some t) :
    OneFile X t ∧ s.written <+: t.written ∧ t.disk.key = s.disk.key ∧
      t.written.map (·.event) = s.written.map (·.event) ++ appendedEvents ops := by
  induction ops generalizing s with
  | nil =>
      obtain rfl := Option.some.inj ht
      exact ⟨h, List.prefix_rfl, rfl, by simp [appendedEvents]⟩
  | cons op ops ih =>
      obtain ⟨s', hs', hrest⟩ := Option.bind_eq_some_iff.mp ht
      obtain ⟨h', hpre, hkey⟩ := h.step hs'
      obtain ⟨hone, hpre', hkey', hevents⟩ := ih h' hrest
      refine ⟨hone, hpre.trans hpre', hkey'.trans hkey, ?_⟩
      rw [hevents]
      cases op with
      | openLog p rand =>
          obtain ⟨r, -, rfl⟩ := Option.map_eq_some_iff.mp hs'
          rfl
      | append p a clk =>
          obtain ⟨log, hp, -⟩ := Option.map_eq_some_iff.mp hs'
          rw [h.step_append hp a clk] at hs'
          obtain rfl := Option.some.inj hs'
          simp [Shared.wrote, appendedEvents, nextEntry, chainEntry]

/-- The file is accepted exactly when the entries are one readable chain. -/
theorem OneFile.accepted_iff {s : Shared} (h : OneFile X s) {key : Bytes}
    (hkey : s.disk.key = some key) :
    Accepted X s.disk ↔
      (∀ e ∈ s.written, e.readable = true) ∧ Chained X key 1 genesisHmac s.written := by
  obtain ⟨key', hkey', hlen⟩ := h.key
  obtain rfl : key = key' := Option.some.inj (hkey.symm.trans hkey')
  have hload : (loadKey s.disk).getD [] = key := by simp [loadKey, hkey, hlen]
  have hread := h.holds.readLog
  have hchain : Anchored X key s.written ↔ Chained X key 1 genesisHmac s.written := by
    rcases hw : s.written with - | ⟨e, es⟩
    · exact iff_of_true (anchored_nil key) trivial
    · have hone := h.first e (by rw [hw]; rfl)
      constructor
      · intro hanch
        have hlinked := hanch e rfl
        rwa [if_pos hone, hone] at hlinked
      · rintro hlinked f hf
        obtain rfl := Option.some.inj hf
        rwa [if_pos hone, hone]
  rw [← hchain, ← survives_iff hread rfl h.pos (fun _ he => he), Accepted, hload, hread,
    Option.getD_some]
  constructor
  · rintro ⟨hok, hnodup⟩
    refine ⟨hok, _, hread, fun e he => ?_, hnodup⟩
    rw [contentLines_logText]
    exact List.mem_map_of_mem he
  · rintro ⟨hok, content, hcontent, -, hnodup⟩
    obtain rfl := Option.some.inj (hread.symm.trans hcontent)
    exact ⟨hok, hnodup⟩

/-! ## In turn -/

variable (X) in
/-- All handles that are current are one and the same, and stand at the end of the
    chain; the others stand before it. -/
structure Synced (s : Shared) (current : Process → Bool) (log : LogInner) : Prop where
  one : OneFile X s
  complete : Complete X { disk := s.disk, log, written := s.written }
    { sealed := [], active := s.written }
  agree : ∀ p, current p = true → s.handle p = some log
  stale : ∀ p l, s.handle p = some l → current p = false → l.seq < s.written.length

theorem Synced.seq_le {s : Shared} {current : Process → Bool} {log : LogInner}
    (h : Synced X s current log) {p : Process} {l : LogInner} (hp : s.handle p = some l) :
    l.seq ≤ s.written.length := by
  rcases hcur : current p with - | -
  · exact Nat.le_of_lt (h.stale p l hp hcur)
  · obtain rfl : log = l := Option.some.inj ((h.agree p hcur).symm.trans hp)
    exact Nat.le_of_eq h.complete.seq

/-- Whoever opens an intact log gets the handle the others have. -/
theorem Synced.openLog {s : Shared} {current : Process → Bool} {log : LogInner}
    (h : Synced X s current log) (hoff : log.rotate = rotateOff)
    (hread : ∀ e ∈ s.written, e.readable = true) (p : Process) (rand : RandomKey) :
    Shared.step X s (.openLog p rand)
        = some { s with handle := Function.update s.handle p (some log) } ∧
      Synced X { s with handle := Function.update s.handle p (some log) }
        (Function.update current p true) log := by
  -- What the scan of the tail finds is what the live handle has cached.
  obtain ⟨q, tag, log', hopen, htail, hfile, hkey, hoff', hseq, hlast⟩ := h.one.openLog_eq rand
  have hscan := h.complete.scanTail_eq
    (h.complete.tailRecorded fun e he => hread e (List.mem_of_getLast? he))
  obtain ⟨rfl, rfl⟩ : log.seq = q ∧ log.lastHmac = tag := by simpa [hscan] using htail
  -- The handle is the same in every field.
  obtain rfl : log' = log := by
    have hatt : s.disk.log = some log.file := h.complete.attached
    have hdkey : s.disk.key = some log.key := h.complete.key
    rw [hfile, Option.some.injEq] at hatt
    rw [hkey, Option.some.injEq] at hdkey
    cases log'
    cases log
    simp_all
  have hstep : Shared.step X s (.openLog p rand)
      = some { s with handle := Function.update s.handle p (some log') } := by
    rw [Shared.step, hopen, Option.map_some]
  -- Whoever was behind before is so still, but for the one that opened.
  refine ⟨hstep, (h.one.step hstep).1, h.complete, fun q hq => ?_, fun q l hl hq => ?_⟩
  · show Function.update s.handle p (some log') q = some log'
    by_cases hqp : q = p
    · rw [hqp, Function.update_self]
    · rw [Function.update_of_ne hqp] at hq ⊢
      exact h.agree q hq
  · have hqp : q ≠ p := by
      rintro rfl
      rw [Function.update_self] at hq
      cases hq
    rw [Function.update_of_ne hqp] at hq
    have hl' : s.handle q = some l := by
      rw [← Function.update_of_ne hqp (some log') s.handle]
      exact hl
    exact h.stale q l hl' hq

/-- An append of a current handle makes the other one stale. -/
theorem Synced.wrote {s : Shared} {current : Process → Bool} {log : LogInner}
    (h : Synced X s current log) {p : Process} (hp : s.handle p = some log) (a : AppendInput) :
    Synced X (s.wrote (X := X) p log a) (fun q => decide (q = p))
      (appendEntry X s.disk log a).2 where
  one := h.one.wrote hp a
  complete := ⟨h.complete.wrote_attached h.complete.attached a, h.complete.attached, rfl⟩
  agree := by
    intro q hq
    obtain rfl := of_decide_eq_true hq
    exact Function.update_self ..
  stale := by
    intro q l hl hq
    have hqp : q ≠ p := of_decide_eq_false hq
    have hl' : s.handle q = some l := by
      rw [← Function.update_of_ne hqp (some (appendEntry X s.disk log a).2) s.handle]
      exact hl
    have hle := h.seq_le hl'
    show l.seq < (s.written ++ [nextEntry X log a]).length
    rw [List.length_append, List.length_singleton]
    omega

/-- An append of a stale handle breaks the chain for good. -/
theorem not_chained_of_stale {s : Shared} {l : LogInner} {a : AppendInput} {key : Bytes}
    {ws : List AuditEntry} (hstale : l.seq < s.written.length)
    (hpre : s.written ++ [nextEntry X l a] <+: ws) : ¬ Chained X key 1 genesisHmac ws := by
  intro hchain
  obtain ⟨rest, rfl⟩ := hpre
  have hget : (s.written ++ [nextEntry X l a] ++ rest)[s.written.length]?
      = some (nextEntry X l a) := by simp
  have hseq : l.seq + 1 = 1 + s.written.length := hchain.seq_getElem? hget
  omega

/-- **A run of calls** that start in step keeps one chain exactly when they are made
    in turn. -/
theorem Synced.run_iff {s t : Shared} {current : Process → Bool} {log : LogInner}
    {ops : List HandleOp} (h : Synced X s current log) (hoff : log.rotate = rotateOff)
    (hread : ∀ e ∈ s.written, e.readable = true)
    (hkinds : ∀ v ∈ appendedEvents ops, v.kind ≠ .workspaceShredded)
    (hcount : s.written.length + (appendedEvents ops).length < 2 ^ 64)
    (ht : Run.run (Shared.step X) s ops = some t) :
    Chained X log.key 1 genesisHmac t.written ↔ inTurn current ops = true := by
  -- On the operations; as long as they are in turn all current handles are one.
  induction ops generalizing s current log with
  | nil =>
      obtain rfl := Option.some.inj ht
      exact iff_of_true h.complete.chained rfl
  | cons op ops ih =>
      obtain ⟨s', hs', hrest⟩ := Option.bind_eq_some_iff.mp ht
      cases op with
      | openLog p rand =>
          obtain ⟨hstep, hsync⟩ := h.openLog hoff hread p rand
          rw [hstep] at hs'
          obtain rfl := Option.some.inj hs'
          exact ih hsync hoff hread hkinds hcount hrest
      | append p a clk =>
          obtain ⟨l, hp, -⟩ := Option.map_eq_some_iff.mp hs'
          rw [h.one.step_append hp a clk] at hs'
          obtain rfl := Option.some.inj hs'
          rw [inTurn]
          -- A handle that is behind takes a number that was given already.
          rcases hcur : current p with - | -
          · have hpre := ((h.one.wrote hp a).run hrest).2.1
            exact iff_of_false (not_chained_of_stale (h.stale p l hp hcur) hpre) (by simp)
          · obtain rfl : log = l := Option.some.inj ((h.agree p hcur).symm.trans hp)
            rw [appendedEvents, List.forall_mem_cons] at hkinds
            rw [appendedEvents, List.length_cons] at hcount
            -- The new entry is readable too, which the next opening relies on.
            have hnew : (nextEntry X log a).readable = true := by
              refine AuditEntry.readable_iff.mpr ⟨hkinds.1, ?_⟩
              have hseq := h.complete.seq
              show log.seq + 1 < 2 ^ 64
              dsimp only at hseq
              omega
            have hread' : ∀ e ∈ (s.wrote (X := X) p log a).written, e.readable = true :=
              List.forall_mem_append.mpr ⟨hread, List.forall_mem_singleton.mpr hnew⟩
            have hcount' : (s.wrote (X := X) p log a).written.length
                + (appendedEvents ops).length < 2 ^ 64 := by
              rw [Shared.wrote, List.length_append, List.length_singleton]
              omega
            have hih := ih (h.wrote hp a) hoff hread' hkinds.2 hcount' hrest
            exact hih

/-- The state after the first open. -/
def Shared.start (p : Process) (rand : RandomKey) : Shared where
  disk := freshDisk rand
  handle := Function.update (fun _ => none) p (some (freshLog rand))
  written := []

theorem step_openLog_empty (p : Process) (rand : RandomKey) :
    Shared.step X Shared.empty (.openLog p rand) = some (Shared.start p rand) := rfl

theorem synced_start (p : Process) (rand : RandomKey) :
    Synced X (Shared.start p rand) (Function.update (fun _ => false) p true) (freshLog rand) where
  one :=
    { holds := (inv_freshSys rand).holds
      key := ⟨rand.1, rfl, rand.2⟩
      log_lt := (inv_freshSys (X := X) rand).log_lt
      handle := Shared.handle_update (s := Shared.empty) ⟨rfl, rfl, rfl, fun _ => rfl⟩
        fun _ _ hl => nomatch hl
      pos := fun _ he => nomatch he
      first := fun _ he => nomatch he }
  complete := complete_freshSys rand
  agree := by
    intro q hq
    by_cases hqp : q = p
    · show Function.update (fun _ => none) p (some (freshLog rand)) q = some (freshLog rand)
      rw [hqp, Function.update_self]
    · rw [Function.update_of_ne hqp] at hq
      cases hq
  stale := by
    intro q l hl hq
    by_cases hqp : q = p
    · rw [hqp, Function.update_self] at hq
      cases hq
    · have hl' : Function.update (fun _ => none) p (some (freshLog rand)) q = some l := hl
      rw [Function.update_of_ne hqp] at hl'
      cases hl'

/-- **Two handles on one log.**  However two processes open the log and append to it,
    the file is accepted and has no number twice exactly when they append in turn, no
    event is `workspace_shredded` and the numbers fit a `u64`. -/
theorem shared_log_accepted_iff (p : Process) (rand : RandomKey) (ops : List HandleOp)
    {s : Shared}
    (hrun : Run.run (Shared.step X) Shared.empty (.openLog p rand :: ops) = some s) :
    Accepted X s.disk ↔
      inTurn (fun _ => false) (.openLog p rand :: ops) = true ∧
        (∀ v ∈ appendedEvents ops, v.kind ≠ .workspaceShredded) ∧
        (appendedEvents ops).length < 2 ^ 64 := by
  rw [Run.run_cons (step_openLog_empty p rand)] at hrun
  have hsync := synced_start (X := X) p rand
  obtain ⟨hone, -, hkey, hevents⟩ := hsync.one.run hrun
  have hevents : s.written.map (·.event) = appendedEvents ops := hevents
  have hlen : s.written.length = (appendedEvents ops).length := by
    rw [← hevents, List.length_map]
  have hkinds : (∀ e ∈ s.written, e.event.kind ≠ .workspaceShredded) ↔
      ∀ v ∈ appendedEvents ops, v.kind ≠ .workspaceShredded := by
    rw [← hevents, List.forall_mem_map]
  rw [hone.accepted_iff hkey]
  have hnone : ∀ e ∈ (Shared.start p rand).written, e.readable = true := fun _ he => nomatch he
  have hchain := fun hk hc => hsync.run_iff rfl hnone hk hc hrun
  constructor
  · rintro ⟨hread, hlinked⟩
    obtain ⟨hk, hc⟩ := (readable_chain_iff hlinked).mp hread
    rw [hlen] at hc
    exact ⟨(hchain (hkinds.mp hk) (by simpa [Shared.start] using hc)).mp hlinked, hkinds.mp hk, hc⟩
  · rintro ⟨hturn, hk, hc⟩
    have hlinked := (hchain hk (by simpa [Shared.start] using hc)).mpr hturn
    exact ⟨(readable_chain_iff hlinked).mpr ⟨hkinds.mpr hk, by omega⟩, hlinked⟩

/-- `workspace shred` writes its deletion certificate. -/
def shredAt (ts : DateTime) : AppendInput where
  actor := "cli"
  event := .workspaceShredded "legal" "cli" "the encryption key has been permanently destroyed"
  ts := ts

/-- Both handles are open on the fresh log. -/
theorem synced_bothOpen : ∃ s : Shared,
    Shared.step X (Shared.start .daemon zeroKey) (.openLog .cli zeroKey) = some s ∧
      s.handle .daemon = some (freshLog zeroKey) ∧ s.handle .cli = some (freshLog zeroKey) ∧
      s.written = [] ∧ OneFile X s := by
  obtain ⟨hstep, hsync⟩ := (synced_start (X := X) .daemon zeroKey).openLog rfl
    (fun _ he => nomatch he) .cli zeroKey
  exact ⟨_, hstep, rfl, rfl, rfl, hsync.one⟩

/-- The daemon writes, and only then the other process opens the log and writes. -/
theorem shared_log_accepted_in_turn : ∃ s : Shared,
    Run.run (Shared.step External.sample) Shared.empty
        [.openLog .daemon zeroKey, .append .daemon (stopAt 0) newYearClock,
          .openLog .cli zeroKey, .append .cli (stopAt newYear) newYearClock] = some s ∧
      Accepted External.sample s.disk := by
  have hsync := synced_start (X := External.sample) .daemon zeroKey
  have hfirst := hsync.one.step_append (p := .daemon) rfl (stopAt 0) newYearClock
  obtain ⟨hopen, hsync'⟩ := (hsync.wrote (p := .daemon) rfl (stopAt 0)).openLog rfl
    (List.forall_mem_singleton.mpr rfl) .cli zeroKey
  have hsecond := hsync'.one.step_append (p := .cli) rfl (stopAt newYear) newYearClock
  have hrun := (Run.run_cons (step_openLog_empty .daemon zeroKey) _).trans
    ((Run.run_cons hfirst _).trans ((Run.run_cons hopen _).trans (Run.run_cons hsecond [])))
  refine ⟨_, hrun, (shared_log_accepted_iff .daemon zeroKey _ hrun).mpr ⟨rfl, ?_, by decide⟩⟩
  decide

/-- Both open the log, the daemon writes, and the certificate gets the same number. -/
theorem shared_log_stale_handle : ∃ s : Shared,
    Run.run (Shared.step External.sample) Shared.empty
        [.openLog .daemon zeroKey, .openLog .cli zeroKey,
          .append .daemon (stopAt 0) newYearClock, .append .cli (shredAt newYear) newYearClock]
          = some s ∧
      s.written.map (·.seq) = [1, 1] ∧ ¬ Accepted External.sample s.disk := by
  obtain ⟨b, hboth, hdaemon, hcli, hempty, hone⟩ := synced_bothOpen (X := External.sample)
  have hfirst := hone.step_append hdaemon (stopAt 0) newYearClock
  have hcli' : (b.wrote (X := External.sample) .daemon (freshLog zeroKey) (stopAt 0)).handle .cli
      = some (freshLog zeroKey) := hcli
  have hone' := hone.wrote hdaemon (stopAt 0)
  have hsecond := hone'.step_append hcli' (shredAt newYear) newYearClock
  have hrun := (Run.run_cons (step_openLog_empty .daemon zeroKey) _).trans
    ((Run.run_cons hboth _).trans ((Run.run_cons hfirst _).trans (Run.run_cons hsecond [])))
  have hlast := hone'.wrote hcli' (shredAt newYear)
  obtain ⟨key, hkey, -⟩ := hlast.key
  refine ⟨_, hrun, ?_, fun hacc => ?_⟩
  · show List.map _ ((b.written ++ _) ++ _) = _
    rw [hempty]
    rfl
  · refine not_chained_of_stale ?_ List.prefix_rfl ((hlast.accepted_iff hkey).mp hacc).2
    show 0 < (b.written ++ _).length
    rw [hempty]
    exact Nat.one_pos

end Maranode.Audit
