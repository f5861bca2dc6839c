/-
  Maranode.Audit.System

  One audit directory and the daemon's handle on it, over whole runs.

  `Sys` is the directory, the handle and the list of all entries whose append
  returned `Ok`.  `Inv s L` ties a state to the layout its directory holds: what
  was written is one chain from genesis, the handle is at its end, and what is
  recorded is a part of it in the same order.  Every operation is described by
  what it does to that layout.
-/
import Maranode.Audit.Operations
import Maranode.Lib.Run

namespace Maranode.Audit

open Lib Common

variable (X : External)

structure Sys where
  disk : Disk
  log : LogInner
  /-- The entries whose append returned `Ok`, oldest first. -/
  written : List AuditEntry

/-- The operations on one audit directory.  The periodic sweep, the prune route and
    the prune command are sequences of these. -/
inductive Op where
  | append (a : AppendInput) (clk : RotateClock)
  | setRotation (cfg : RotateConfig)
  | maybeRotate (cfg : RotateConfig) (clk : RotateClock)
  | enforceSegmentRetention (retainDays : Nat) (now : DateTime)
  | pruneLog (retainDays : Nat) (now : DateTime)
  | restart (rand : RandomKey)

/-- One operation.  A pruning pass that fails leaves everything as it was. -/
def Sys.step (s : Sys) : Op → Option Sys
  | .append a clk =>
      let (disk, log) := append X s.disk s.log a clk
      some { disk, log, written := s.written ++ [nextEntry X s.log a] }
  | .setRotation cfg => some { s with log := setRotation s.log cfg }
  | .maybeRotate cfg clk =>
      (maybeRotate X s.disk s.log cfg clk).map fun (_, disk, log) => { s with disk, log }
  | .enforceSegmentRetention retainDays now =>
      some { s with disk := (enforceSegmentRetention s.disk retainDays now).1 }
  | .pruneLog retainDays now =>
      match pruneLog X s.disk retainDays now with
      | some (disk, _) => some { s with disk }
      | none => some s
  | .restart rand =>
      (openLog X s.disk rand).map fun (disk, log) => { s with disk, log }

/-- `sweep_audit_dir`. -/
def sweepAuditDir (cfg : RotateConfig) (retainDays : Nat) (clk : RotateClock)
    (enforceNow pruneNow : DateTime) : List Op :=
  [.setRotation cfg, .maybeRotate cfg clk, .enforceSegmentRetention retainDays enforceNow] ++
    if 0 < retainDays then [.pruneLog retainDays pruneNow] else []

abbrev Sys.run (s : Sys) (ops : List Op) : Option Sys := Run.run (Sys.step X) s ops

/-- The state after `AuditLog::open` on an empty directory. -/
def Sys.fresh (rand : RandomKey) : Option Sys :=
  (openLog X Disk.empty rand).map fun (disk, log) => { disk, log, written := [] }

/-! ## The invariant -/

/-- The handle is on the file at the log path. -/
def Sys.Attached (s : Sys) : Prop := s.disk.log = some s.log.file

structure Inv (s : Sys) (L : Layout) : Prop where
  holds : Holds X s.disk L
  chained : Chained X s.log.key 1 genesisHmac s.written
  seq : s.log.seq = s.written.length
  last : s.log.lastHmac = HashChain.lastTag AuditEntry.hmac genesisHmac s.written
  sublist : L.entries.Sublist s.written
  key : s.disk.key = some s.log.key
  keyLen : s.log.key.length = keyLen
  log_lt : ∀ i, s.disk.log = some i → i < s.disk.next
  file_lt : s.log.file < s.disk.next

variable {X}

theorem Inv.ordered {s : Sys} {L : Layout} (h : Inv X s L) : L.Ordered :=
  List.Pairwise.sublist h.sublist h.chained.pairwise

theorem Inv.sorted {s : Sys} {L : Layout} (h : Inv X s L) : L.Sorted := h.ordered.sorted

theorem Inv.seq_pos {s : Sys} {L : Layout} (h : Inv X s L) {e : AuditEntry}
    (he : e ∈ s.written) : 0 < e.seq := (h.chained.seq_bounds he).1

/-- Another directory with the same open files and no other entries. -/
theorem Inv.with_disk {s : Sys} {L L' : Layout} (h : Inv X s L) {d : Disk} (hholds : Holds X d L')
    (hsub : L'.entries.Sublist L.entries)
    (hframe : d.key = s.disk.key ∧ d.log = s.disk.log ∧ d.next = s.disk.next) :
    Inv X { s with disk := d } L' := by
  obtain ⟨hkey, hlog, hnext⟩ := hframe
  refine ⟨hholds, h.chained, h.seq, h.last, hsub.trans h.sublist, hkey.trans h.key, h.keyLen,
    ?_, ?_⟩
  · intro i hi
    rw [hnext]
    exact h.log_lt i (hlog.symm.trans hi)
  · exact h.file_lt.trans_eq hnext.symm

/-- The directory after opening an empty one. -/
def freshDisk (rand : RandomKey) : Disk :=
  { Disk.empty with data := Function.update Disk.empty.data 0 [], next := 1, log := some 0,
                    key := some rand.1 }

def freshLog (rand : RandomKey) : LogInner where
  file := 0
  seq := 0
  lastHmac := genesisHmac
  key := rand.1
  rotate := rotateOff

def freshSys (rand : RandomKey) : Sys where
  disk := freshDisk rand
  log := freshLog rand
  written := []

theorem fresh_eq (rand : RandomKey) : Sys.fresh X rand = some (freshSys rand) := rfl

theorem inv_freshSys (rand : RandomKey) : Inv X (freshSys rand) Layout.empty where
  holds :=
    { manifest := rfl
      sealed := by simp [Layout.empty]
      log := ⟨0, rfl, by simp [freshSys, freshDisk, Layout.empty]⟩ }
  chained := trivial
  seq := rfl
  last := rfl
  sublist := List.Sublist.refl _
  key := rfl
  keyLen := rand.2
  log_lt := by
    intro i hi
    obtain rfl : 0 = i := Option.some.inj hi
    exact Nat.one_pos
  file_lt := Nat.one_pos

/-! ## Appending -/

section Append

variable {s : Sys} {L : Layout}

/-- The next entry continues the chain. -/
theorem Inv.chained_concat (h : Inv X s L) (a : AppendInput) :
    Chained X s.log.key 1 genesisHmac (s.written ++ [nextEntry X s.log a]) := by
  refine h.chained.concat ?_ ?_ ?_
  · simp only [nextEntry, chainEntry, h.seq]
    omega
  · exact h.last
  · exact macOk_chainEntry X ..

variable (X) in
/-- The state once the line is written and the chain state advanced. -/
def Sys.wrote (s : Sys) (a : AppendInput) : Sys where
  disk := (appendEntry X s.disk s.log a).1
  log := (appendEntry X s.disk s.log a).2
  written := s.written ++ [nextEntry X s.log a]

theorem Inv.wrote_of_holds (h : Inv X s L) (a : AppendInput) {L' : Layout}
    (hholds : Holds X (s.wrote X a).disk L')
    (hsub : L'.entries.Sublist (s.written ++ [nextEntry X s.log a])) :
    Inv X (s.wrote X a) L' where
  holds := hholds
  chained := h.chained_concat a
  seq := by
    simp [Sys.wrote, appendEntry, nextEntry, chainEntry, h.seq]
  last := by
    rw [Sys.wrote, HashChain.lastTag_concat]
    rfl
  sublist := hsub
  key := h.key
  keyLen := h.keyLen
  log_lt := h.log_lt
  file_lt := h.file_lt

/-- Through an attached handle the entry ends the active file. -/
theorem Inv.wrote_attached (h : Inv X s L) (hatt : s.Attached) (a : AppendInput) :
    Inv X (s.wrote X a) { L with active := L.active ++ [nextEntry X s.log a] } := by
  refine h.wrote_of_holds a (h.holds.write hatt _) ?_
  rw [Layout.entries, ← List.append_assoc]
  exact h.sublist.append (List.Sublist.refl _)

/-- Through a detached one it goes where no reader looks. -/
theorem Inv.wrote_detached (h : Inv X s L) (hatt : ¬ s.Attached) (a : AppendInput) :
    Inv X (s.wrote X a) L := by
  obtain ⟨i, hi, -⟩ := h.holds.log
  have hne : s.log.file ≠ i := by
    rintro rfl
    exact hatt hi
  exact h.wrote_of_holds a (h.holds.write_detached hi hne _)
    (h.sublist.trans (List.sublist_append_left _ _))

end Append

/-! ## Rotation -/

section Rotation

variable {s : Sys} {L : Layout}

/-- A rotation moves entries and loses none; afterwards the handle is on the active
    file if it was before. -/
theorem Inv.rotateLocked (h : Inv X s L) (cfg : RotateConfig) (clk : RotateClock) :
    ∃ r disk log L', rotateLocked X s.disk s.log cfg clk = some (r, disk, log) ∧
      Inv X { s with disk, log } L' ∧ L'.entries = L.entries ∧
      (s.Attached → Sys.Attached { s with disk, log }) ∧ (r.isSome = true → L'.active = []) := by
  obtain ⟨i, hi, -⟩ := h.holds.log
  rcases h.holds.rotateLocked_cases h.sorted hi s.log cfg clk with hr | ⟨seg, bs, hr, hholds⟩
  · exact ⟨none, s.disk, s.log, L, hr, h, rfl, id, nofun⟩
  · refine ⟨_, _, _, L.seal seg, hr, ?_, L.entries_seal seg, fun _ => rotated_log hi bs seg,
      fun _ => rfl⟩
    have hinv := h.with_disk hholds (L.seal_sublist seg) (rotated_frame hi bs seg)
    exact ⟨hinv.holds, hinv.chained, hinv.seq, hinv.last, hinv.sublist, hinv.key, hinv.keyLen,
      hinv.log_lt, hinv.log_lt i (rotated_log hi bs seg)⟩

end Rotation

/-! ## One operation -/

section Step

variable {s : Sys} {L : Layout}

theorem Inv.step_append (h : Inv X s L) (a : AppendInput) (clk : RotateClock) :
    ∃ s' L', Sys.step X s (.append a clk) = some s' ∧ Inv X s' L' ∧
      s'.written = s.written ++ [nextEntry X s.log a] ∧
      (s.Attached → s'.Attached ∧ L'.entries = L.entries ++ [nextEntry X s.log a]) ∧
      (¬ s.Attached → L'.entries = L.entries) := by
  -- What is recorded once the line is written, and that inline rotation keeps it.
  have hwrote : ∃ L₁, Inv X (s.wrote X a) L₁ ∧
      (s.Attached → (s.wrote X a).Attached ∧ L₁.entries = L.entries ++ [nextEntry X s.log a]) ∧
      (¬ s.Attached → L₁.entries = L.entries) := by
    by_cases hatt : s.Attached
    · refine ⟨_, h.wrote_attached hatt a, fun _ => ⟨hatt, ?_⟩, fun hn => absurd hatt hn⟩
      simp [Layout.entries, Layout.archived]
    · exact ⟨L, h.wrote_detached hatt a, fun hy => absurd hy hatt, fun _ => rfl⟩
  obtain ⟨L₁, hinv, hatt, hdet⟩ := hwrote
  obtain ⟨r, disk, log, L₂, hrot, hinv₂, hentries, hatt₂, -⟩ :=
    hinv.rotateLocked { maxBytes := s.log.rotate.maxBytes, maxAgeDays := 0 } clk
  by_cases hmax : 0 < s.log.rotate.maxBytes
  · refine ⟨_, L₂, ?_, hinv₂, rfl, fun hy => ?_, fun hn => ?_⟩
    · rw [Sys.step, append_of_rotateLocked X hmax hrot]
      rfl
    · exact ⟨hatt₂ (hatt hy).1, hentries.trans (hatt hy).2⟩
    · exact hentries.trans (hdet hn)
  · refine ⟨s.wrote X a, L₁, ?_, hinv, rfl, hatt, hdet⟩
    rw [Sys.step, append_of_maxBytes_eq_zero X a clk hmax]
    rfl

theorem Inv.step_setRotation (h : Inv X s L) (cfg : RotateConfig) :
    Inv X { s with log := setRotation s.log cfg } L where
  holds := h.holds
  chained := h.chained
  seq := h.seq
  last := h.last
  sublist := h.sublist
  key := h.key
  keyLen := h.keyLen
  log_lt := h.log_lt
  file_lt := h.file_lt

theorem Inv.step_maybeRotate (h : Inv X s L) (cfg : RotateConfig) (clk : RotateClock) :
    ∃ s' L', Sys.step X s (.maybeRotate cfg clk) = some s' ∧ Inv X s' L' ∧
      s'.written = s.written ∧ L'.entries = L.entries ∧ (s.Attached → s'.Attached) := by
  rw [Sys.step, maybeRotate]
  split_ifs with hcfg
  · exact ⟨s, L, rfl, h, rfl, rfl, id⟩
  · obtain ⟨r, disk, log, L', hrot, hinv, hentries, hatt, -⟩ := h.rotateLocked cfg clk
    exact ⟨_, L', by rw [hrot]; rfl, hinv, rfl, hentries, hatt⟩

/-- What segment retention leaves. -/
def Layout.afterEnforce (L : Layout) (retainDays : Nat) (now : DateTime) : Layout :=
  if retainDays = 0 then L else L.expireSegments (now - days retainDays)

/-- What a pruning pass leaves. -/
def Layout.afterPrune (L : Layout) (retainDays : Nat) (now : DateTime) : Layout :=
  if retainDays = 0 then L else L.expireActive (now - days retainDays)

theorem Inv.step_enforce (h : Inv X s L) (retainDays : Nat) (now : DateTime) :
    Inv X { s with disk := (enforceSegmentRetention s.disk retainDays now).1 }
      (L.afterEnforce retainDays now) := by
  rw [Layout.afterEnforce]
  split_ifs with hdays
  · rw [enforceSegmentRetention, if_pos hdays]
    exact h
  · have hholds := h.holds.enforceSegmentRetention h.sorted hdays now
    obtain ⟨f, m, hframe⟩ := enforceSegmentRetention_frame s.disk retainDays now
    rw [hframe] at hholds ⊢
    exact h.with_disk hholds (L.expireSegments_sublist _) ⟨rfl, rfl, rfl⟩

theorem Inv.step_prune (h : Inv X s L) (htmp : s.disk.tmp = none) (retainDays : Nat)
    (now : DateTime) :
    ∃ s', Sys.step X s (.pruneLog retainDays now) = some s' ∧
      Inv X s' (L.afterPrune retainDays now) ∧ s'.disk.tmp = none := by
  rw [Sys.step, Layout.afterPrune]
  split_ifs with hdays
  · have hnone : pruneLog X s.disk retainDays now = none := by
      simp [pruneLog, pruneRead, hdays]
    rw [hnone]
    exact ⟨s, rfl, h, htmp⟩
  · rcases h.holds.pruneLog_cases htmp hdays now with ⟨hL, hp⟩ | ⟨n, bs, hp, hholds⟩
    · rw [hp, hL]
      exact ⟨_, rfl, h, htmp⟩
    · rw [hp]
      refine ⟨_, rfl, ?_, htmp⟩
      refine ⟨hholds, h.chained, h.seq, h.last, (L.expireActive_sublist _).trans h.sublist, h.key,
        h.keyLen, ?_, ?_⟩
      · intro i hi
        obtain rfl : s.disk.next = i := Option.some.inj hi
        exact Nat.lt_succ_self _
      · exact Nat.lt_succ_of_lt h.file_lt

variable (X) in
/-- The newest entry written is still recorded, and its line reads back. -/
def Sys.TailRecorded (s : Sys) : Prop :=
  ∀ e, s.written.getLast? = some e → e.readable = true ∧ e.toText X ∈ stored X s.disk

/-- A line of the directory is the line of the entry with that number. -/
theorem Inv.mem_of_stored (h : Inv X s L) {e : AuditEntry} (he : e ∈ s.written)
    (hline : e.toText X ∈ stored X s.disk) : e ∈ L.entries := by
  rw [h.holds.stored_eq] at hline
  obtain ⟨f, hf, hfe⟩ := List.mem_map.mp hline
  have hseq := seq_eq_of_toText_eq hfe
  exact h.chained.eq_of_seq_eq (h.sublist.subset hf) he hseq ▸ hf

/-- If the newest entry is recorded, it is the last one. -/
theorem Inv.getLast?_entries (h : Inv X s L) {e : AuditEntry}
    (hlast : s.written.getLast? = some e) (he : e ∈ L.entries) :
    L.entries.getLast? = some e := by
  obtain ⟨es, g, hes⟩ := (List.eq_nil_or_concat L.entries).resolve_left (List.ne_nil_of_mem he)
  rw [List.concat_eq_append] at hes
  obtain ⟨ws, hws⟩ := List.getLast?_eq_some_iff.mp hlast
  have hle : g.seq ≤ e.seq := by
    have hg : g ∈ ws ++ [e] := hws ▸ h.sublist.subset (by simp [hes])
    have hpair := h.chained.pairwise
    rw [hws, List.pairwise_append] at hpair
    rcases List.mem_append.mp hg with hg | hg
    · exact Nat.le_of_lt (hpair.2.2 g hg e (List.mem_singleton_self e))
    · exact Nat.le_of_eq (by rw [List.mem_singleton.mp hg])
  have hord := h.ordered
  rw [Layout.Ordered, hes, List.pairwise_append] at hord
  rw [hes] at he ⊢
  rcases List.mem_append.mp he with he | he
  · have hlt := hord.2.2 e he g (List.mem_singleton_self g)
    omega
  · rw [List.mem_singleton.mp he, List.getLast?_concat]

/-- What `scan_tail` recovers is where the handle was. -/
theorem Inv.scanTail_eq (h : Inv X s L) (htail : s.TailRecorded X) :
    scanTail X s.disk = some (s.log.seq, s.log.lastHmac) := by
  rcases List.eq_nil_or_concat s.written with hw | ⟨ws, e, hw⟩
  · have hnil : L.entries = [] := by
      have hsub := h.sublist
      rw [hw] at hsub
      exact List.sublist_nil.mp hsub
    rw [h.holds.scanTail_empty hnil, h.seq, h.last, hw]
    rfl
  · rw [List.concat_eq_append] at hw
    have hlast : s.written.getLast? = some e := by rw [hw, List.getLast?_concat]
    have hmem : e ∈ s.written := List.mem_of_getLast? hlast
    obtain ⟨hread, hline⟩ := htail e hlast
    have hentries := h.getLast?_entries hlast (h.mem_of_stored hmem hline)
    rw [h.holds.scanTail_newest h.sorted hentries hread (h.seq_pos hmem), h.seq, h.last]
    have hseq : e.seq = 1 + ws.length := h.chained.seq_getElem? (by simp [hw])
    simp only [hw, List.length_append, List.length_singleton, HashChain.lastTag_concat, hseq,
      Nat.add_comm]

theorem Inv.step_restart (h : Inv X s L) (htail : s.TailRecorded X) (rand : RandomKey) :
    ∃ s', Sys.step X s (.restart rand) = some s' ∧ Inv X s' L ∧ s'.written = s.written ∧
      s'.Attached := by
  obtain ⟨i, hi, -⟩ := h.holds.log
  have hload : loadOrGenerate s.disk rand = some (s.log.key, s.disk) := by
    simp [loadOrGenerate, loadKey, h.key, h.keyLen]
  rw [Sys.step, openLog, hload, Option.bind_some]
  simp only [h.scanTail_eq htail, Option.map_some, h.holds.openAppend hi]
  refine ⟨_, rfl, ?_, rfl, hi⟩
  exact ⟨h.holds, h.chained, h.seq, h.last, h.sublist, h.key, h.keyLen, h.log_lt, h.log_lt i hi⟩

end Step

/-! ## Runs -/

variable (X) in
/-- A restart finds the newest entry. -/
def RestartOk (s : Sys) : Op → Prop
  | .restart _ => s.TailRecorded X
  | _ => True

/-- Only a pruning pass touches the temporary file. -/
theorem Sys.step_tmp {s s' : Sys} {op : Op} (hop : ∀ r now, op ≠ .pruneLog r now)
    (h : Sys.step X s op = some s') : s'.disk.tmp = s.disk.tmp := by
  cases op with
  | append a clk =>
      obtain rfl := Option.some.inj h
      exact (append_frame X ..).1
  | setRotation cfg =>
      obtain rfl := Option.some.inj h
      rfl
  | maybeRotate cfg clk =>
      obtain ⟨⟨r, d, inner⟩, hr, rfl⟩ := Option.map_eq_some_iff.mp h
      exact (maybeRotate_frame X hr).1
  | enforceSegmentRetention retainDays now =>
      obtain rfl := Option.some.inj h
      obtain ⟨f, m, hframe⟩ := enforceSegmentRetention_frame s.disk retainDays now
      simp only [hframe]
  | pruneLog retainDays now => exact absurd rfl (hop retainDays now)
  | restart rand =>
      obtain ⟨⟨d, inner⟩, hr, rfl⟩ := Option.map_eq_some_iff.mp h
      exact openLog_tmp X hr

/-- **One step.**  Every operation keeps the invariant, restarts that find the newest
    entry included. -/
theorem Inv.step {s : Sys} {L : Layout} (h : Inv X s L) (htmp : s.disk.tmp = none) {op : Op}
    (hop : RestartOk X s op) :
    ∃ s', Sys.step X s op = some s' ∧ s'.disk.tmp = none ∧ ∃ L', Inv X s' L' := by
  cases op with
  | append a clk =>
      obtain ⟨s', L', hs', hinv, -⟩ := h.step_append a clk
      exact ⟨s', hs', (Sys.step_tmp (by simp) hs').trans htmp, L', hinv⟩
  | setRotation cfg => exact ⟨_, rfl, htmp, L, h.step_setRotation cfg⟩
  | maybeRotate cfg clk =>
      obtain ⟨s', L', hs', hinv, -⟩ := h.step_maybeRotate cfg clk
      exact ⟨s', hs', (Sys.step_tmp (by simp) hs').trans htmp, L', hinv⟩
  | enforceSegmentRetention retainDays now =>
      have hs' : Sys.step X s (.enforceSegmentRetention retainDays now) = some _ := rfl
      exact ⟨_, hs', (Sys.step_tmp (by simp) hs').trans htmp, _, h.step_enforce retainDays now⟩
  | pruneLog retainDays now =>
      obtain ⟨s', hs', hinv, htmp'⟩ := h.step_prune htmp retainDays now
      exact ⟨s', hs', htmp', _, hinv⟩
  | restart rand =>
      obtain ⟨s', hs', hinv, -⟩ := h.step_restart hop rand
      exact ⟨s', hs', (Sys.step_tmp (by simp) hs').trans htmp, L, hinv⟩

/-- **Every run.** -/
theorem inv_run (rand : RandomKey) {ops : List Op}
    (hops : Run.Along (Sys.step X) (RestartOk X) (freshSys rand) ops) :
    ∃ s, Sys.run X (freshSys rand) ops = some s ∧ s.disk.tmp = none ∧ ∃ L, Inv X s L :=
  Run.run_invariant (fun _ _ ⟨htmp, _, hinv⟩ hop => hinv.step htmp hop)
    ⟨rfl, _, inv_freshSys rand⟩ hops

/-- Not a retention operation. -/
def Op.keeps : Op → Bool
  | .enforceSegmentRetention .. => false
  | .pruneLog .. => false
  | _ => true

/-- No retention pass, and restarts only when the newest entry's line reads back. -/
def Recording (s : Sys) (op : Op) : Prop :=
  op.keeps = true ∧
    ∀ rand, op = .restart rand → ∀ e, s.written.getLast? = some e → e.readable = true

variable (X) in
/-- Everything written is recorded, and the handle is on the active file. -/
structure Complete (s : Sys) (L : Layout) : Prop extends Inv X s L where
  attached : s.Attached
  entries_eq : L.entries = s.written

theorem complete_freshSys (rand : RandomKey) : Complete X (freshSys rand) Layout.empty where
  toInv := inv_freshSys rand
  attached := rfl
  entries_eq := rfl

theorem Complete.tailRecorded {s : Sys} {L : Layout} (h : Complete X s L)
    (hread : ∀ e, s.written.getLast? = some e → e.readable = true) : s.TailRecorded X := by
  intro e he
  refine ⟨hread e he, ?_⟩
  rw [h.holds.stored_eq, h.entries_eq]
  exact List.mem_map_of_mem (List.mem_of_getLast? he)

/-- **One step without retention** loses nothing. -/
theorem Complete.step {s : Sys} {L : Layout} (h : Complete X s L) {op : Op}
    (hop : Recording s op) :
    ∃ s', Sys.step X s op = some s' ∧ ∃ L', Complete X s' L' := by
  obtain ⟨hkeeps, hrestart⟩ := hop
  cases op with
  | append a clk =>
      obtain ⟨s', L', hs', hinv, hw, hatt, -⟩ := h.step_append a clk
      obtain ⟨hatt', hentries⟩ := hatt h.attached
      exact ⟨s', hs', L', hinv, hatt', by rw [hentries, hw, h.entries_eq]⟩
  | setRotation cfg =>
      exact ⟨_, rfl, L, h.step_setRotation cfg, h.attached, h.entries_eq⟩
  | maybeRotate cfg clk =>
      obtain ⟨s', L', hs', hinv, hw, hentries, hatt⟩ := h.step_maybeRotate cfg clk
      exact ⟨s', hs', L', hinv, hatt h.attached, by rw [hentries, hw, h.entries_eq]⟩
  | enforceSegmentRetention retainDays now => cases hkeeps
  | pruneLog retainDays now => cases hkeeps
  | restart rand =>
      obtain ⟨s', hs', hinv, hw, hatt⟩ :=
        h.step_restart (h.tailRecorded (hrestart rand rfl)) rand
      exact ⟨s', hs', L, hinv, hatt, by rw [hw, h.entries_eq]⟩

/-- **Every run without retention.** -/
theorem complete_run (rand : RandomKey) {ops : List Op}
    (hops : Run.Along (Sys.step X) Recording (freshSys rand) ops) :
    ∃ s, Sys.run X (freshSys rand) ops = some s ∧ ∃ L, Complete X s L :=
  Run.run_invariant (fun _ _ ⟨_, hinv⟩ hop => hinv.step hop) ⟨_, complete_freshSys rand⟩ hops

/-! ## What a run writes -/

variable (X) in
/-- The entry an operation writes. -/
def Op.entry? (s : Sys) : Op → Option AuditEntry
  | .append a _ => some (nextEntry X s.log a)
  | _ => none

def Op.isAppend : Op → Bool
  | .append .. => true
  | _ => false

theorem Sys.step_written {s s' : Sys} {op : Op} (h : Sys.step X s op = some s') :
    s'.written = s.written ++ (op.entry? X s).toList := by
  cases op with
  | append a clk =>
      obtain rfl := Option.some.inj h
      rfl
  | setRotation cfg =>
      obtain rfl := Option.some.inj h
      simp [Op.entry?]
  | maybeRotate cfg clk =>
      obtain ⟨r, -, rfl⟩ := Option.map_eq_some_iff.mp h
      simp [Op.entry?]
  | enforceSegmentRetention retainDays now =>
      obtain rfl := Option.some.inj h
      simp [Op.entry?]
  | pruneLog retainDays now =>
      rw [Sys.step] at h
      split at h <;> obtain rfl := Option.some.inj h <;> simp [Op.entry?]
  | restart rand =>
      obtain ⟨r, -, rfl⟩ := Option.map_eq_some_iff.mp h
      simp [Op.entry?]

/-- A run writes as many entries as it appends. -/
theorem Sys.length_written_of_run {s s' : Sys} {ops : List Op} (h : Sys.run X s ops = some s') :
    s'.written.length = s.written.length + ops.countP Op.isAppend := by
  induction ops generalizing s with
  | nil =>
      obtain rfl := Option.some.inj h
      rfl
  | cons op ops ih =>
      obtain ⟨t, ht, hrest⟩ := Option.bind_eq_some_iff.mp h
      rw [ih hrest, Sys.step_written ht, List.length_append, List.countP_cons]
      cases op <;> simp [Op.entry?, Op.isAppend, Nat.add_comm, Nat.add_left_comm]

/-- A run without retention finds the newest entry at every restart. -/
theorem restartOk_of_recording (rand : RandomKey) {ops : List Op}
    (hops : Run.Along (Sys.step X) Recording (freshSys rand) ops) :
    Run.Along (Sys.step X) (RestartOk X) (freshSys rand) ops := by
  refine hops.imp_of_invariant (I := fun s => ∃ L, Complete X s L) ?_ ?_
    ⟨_, complete_freshSys rand⟩
  · rintro s op s' ⟨L, hcomplete⟩ hop hs'
    obtain ⟨t, ht, hcomplete'⟩ := hcomplete.step hop
    obtain rfl : s' = t := Option.some.inj (hs'.symm.trans ht)
    exact hcomplete'
  · rintro s op ⟨L, hcomplete⟩ ⟨-, hrestart⟩
    cases op with
    | restart rand' => exact hcomplete.tailRecorded (hrestart rand' rfl)
    | _ => trivial

/-! ## Inputs to apply results at -/

def zeroKey : RandomKey := ⟨List.replicate keyLen 0, List.length_replicate⟩

/-- The daemon stops. -/
def stopAt (ts : DateTime) : AppendInput where
  actor := "daemon"
  event := .daemonStop "maintenance"
  ts := ts

def newYearClock : RotateClock where
  age := newYear
  stamp := newYear
  rotatedAt := newYear

/-- The first append of a fresh log. -/
theorem step_append_freshSys (rand : RandomKey) (a : AppendInput) (clk : RotateClock) :
    Sys.step X (freshSys rand) (.append a clk) = some ((freshSys rand).wrote X a) := rfl

theorem run_append_freshSys (rand : RandomKey) (a : AppendInput) (clk : RotateClock) :
    Sys.run X (freshSys rand) [.append a clk] = some ((freshSys rand).wrote X a) := rfl

variable (X) in
/-- The layout after it. -/
def firstLayout (rand : RandomKey) (a : AppendInput) : Layout where
  sealed := []
  active := [nextEntry X (freshLog rand) a]

theorem inv_firstLayout (rand : RandomKey) (a : AppendInput) :
    Inv X ((freshSys rand).wrote X a) (firstLayout X rand a) :=
  (inv_freshSys rand).wrote_attached rfl a

theorem complete_firstLayout (rand : RandomKey) (a : AppendInput) :
    Complete X ((freshSys rand).wrote X a) (firstLayout X rand a) :=
  ⟨inv_firstLayout rand a, rfl, rfl⟩

/-- Rotate whatever the file holds. -/
def anySize : RotateConfig where
  maxBytes := 1
  maxAgeDays := 0

/-- The first entry alone is enough to rotate. -/
theorem rotateDue_firstLayout (rand : RandomKey) (ts now : DateTime) :
    ∃ due, rotateDue X ((freshSys rand).wrote X (stopAt ts)).disk
      ((freshSys rand).wrote X (stopAt ts)).log anySize now = some (some due) := by
  have h := complete_firstLayout (X := X) rand (stopAt ts)
  refine h.holds.rotateDue_of_size h.attached Nat.one_pos ?_ (List.mem_singleton_self _) rfl now
  -- The line break alone is a byte.
  show 1 ≤ (Text.encode (logText X [_])).length
  rw [logText_singleton, Text.encode_append, List.length_append]
  exact Nat.le_add_left 1 _

/-- Two entries, one file. -/
def appendTwice : List Op :=
  [.append (stopAt 0) newYearClock, .append (stopAt newYear) newYearClock]

variable (X) in
def twoEntries : Sys := ((freshSys zeroKey).wrote X (stopAt 0)).wrote X (stopAt newYear)

theorem run_appendTwice : Sys.run X (freshSys zeroKey) appendTwice = some (twoEntries X) := rfl

theorem complete_twoEntries :
    Complete X (twoEntries X) { sealed := [], active := (twoEntries X).written } :=
  ⟨(inv_firstLayout zeroKey (stopAt 0)).wrote_attached rfl (stopAt newYear), rfl, rfl⟩

/-- Start, stop, start, stop. -/
def restartOnce : List Op :=
  [.append (stopAt 0) newYearClock, .restart zeroKey, .append (stopAt newYear) newYearClock]

theorem recording_restartOnce :
    Run.Along (Sys.step X) Recording (freshSys zeroKey) restartOnce := by
  refine ⟨⟨rfl, nofun⟩, fun s hs => ⟨⟨rfl, fun _ _ e he => ?_⟩, fun _ _ =>
    ⟨⟨rfl, nofun⟩, fun _ _ => trivial⟩⟩⟩
  rw [Sys.step_written hs] at he
  obtain rfl := Option.some.inj he
  rfl

end Maranode.Audit
