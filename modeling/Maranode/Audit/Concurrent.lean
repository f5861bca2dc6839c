/-
  Maranode.Audit.Concurrent

  The append handle and retention passes that run beside it.

  `append`, rotation and segment retention hold the handle's lock; `prune_log` does
  not, and it is not one step: it reads the log, writes a temporary file and renames
  it over the log.  What it read is put back at the end, so an entry appended in
  between is dropped, and the handle keeps the file that was renamed away, so every
  later append goes there.
-/
import Maranode.Audit.System

namespace Maranode.Audit

open Lib Common

variable {X : External}

/-- Where a pass stands: it has read the log, or also written the temporary file. -/
inductive Pass where
  | read (plan : PrunePlan)
  | written

/-- The directory, the handle, the passes in progress and the cutoffs used so far. -/
structure Conc where
  sys : Sys
  passes : List Pass
  cutoffs : List DateTime

/-- The handle's operations, and the steps of the passes. -/
inductive Action where
  | append (a : AppendInput) (clk : RotateClock)
  | setRotation (cfg : RotateConfig)
  | maybeRotate (cfg : RotateConfig) (clk : RotateClock)
  | enforceSegmentRetention (retainDays : Nat) (now : DateTime)
  | pruneRead (retainDays : Nat) (now : DateTime)
  | pruneWrite (i : Nat)
  | pruneRename (i : Nat)

def addCutoff (cutoffs : List DateTime) (retainDays : Nat) (now : DateTime) : List DateTime :=
  if retainDays = 0 then cutoffs else (now - days retainDays) :: cutoffs

variable (X) in
/-- One action.  A pass with nothing to drop ends after it has read; a rename that
    finds no temporary file fails and ends the pass. -/
def Conc.step (c : Conc) : Action → Option Conc
  | .append a clk => (Sys.step X c.sys (.append a clk)).map fun sys => { c with sys }
  | .setRotation cfg => (Sys.step X c.sys (.setRotation cfg)).map fun sys => { c with sys }
  | .maybeRotate cfg clk =>
      (Sys.step X c.sys (.maybeRotate cfg clk)).map fun sys => { c with sys }
  | .enforceSegmentRetention retainDays now =>
      (Sys.step X c.sys (.enforceSegmentRetention retainDays now)).map fun sys =>
        { c with sys, cutoffs := addCutoff c.cutoffs retainDays now }
  | .pruneRead retainDays now =>
      match pruneRead X c.sys.disk retainDays now with
      | some plan =>
          some { c with
            passes := if 0 < plan.pruned then c.passes ++ [.read plan] else c.passes
            cutoffs := addCutoff c.cutoffs retainDays now }
      | none => some c
  | .pruneWrite i =>
      match c.passes[i]? with
      | some (.read plan) =>
          some { c with
            sys := { c.sys with disk := pruneWrite c.sys.disk plan }
            passes := c.passes.set i .written }
      | _ => some c
  | .pruneRename i =>
      match c.passes[i]? with
      | some .written =>
          some { c with
            sys := { c.sys with disk := (pruneRename c.sys.disk).getD c.sys.disk }
            passes := c.passes.eraseIdx i }
      | _ => some c

def Conc.fresh (rand : RandomKey) : Conc where
  sys := freshSys rand
  passes := []
  cutoffs := []

/-- Not older than any cutoff a retention pass used. -/
def Young (cutoffs : List DateTime) (e : AuditEntry) : Prop := ∀ cutoff ∈ cutoffs, cutoff ≤ e.ts

theorem Young.of_addCutoff {cutoffs : List DateTime} {retainDays : Nat} {now : DateTime}
    {e : AuditEntry} (h : Young (addCutoff cutoffs retainDays now) e) : Young cutoffs e := by
  rw [addCutoff] at h
  split_ifs at h
  · exact h
  · exact (List.forall_mem_cons.mp h).2

theorem Young.cutoff_le {cutoffs : List DateTime} {retainDays : Nat} {now : DateTime}
    {e : AuditEntry} (h : Young (addCutoff cutoffs retainDays now) e) (hdays : retainDays ≠ 0) :
    now - days retainDays ≤ e.ts := by
  rw [addCutoff, if_neg hdays] at h
  exact (List.forall_mem_cons.mp h).1

/-! ## Layouts that have all that has to be there -/

/-- A part of what was written, with every entry that is young. -/
structure Covers (written : List AuditEntry) (cutoffs : List DateTime) (L : Layout) : Prop where
  sublist : L.entries.Sublist written
  young : ∀ e ∈ written, Young cutoffs e → e ∈ L.entries

section Covers

variable {ws : List AuditEntry} {cs : List DateTime} {L : Layout} {retainDays : Nat}
  {now : DateTime}

theorem Covers.addCutoff (h : Covers ws cs L) : Covers ws (addCutoff cs retainDays now) L where
  sublist := h.sublist
  young := fun e he hy => h.young e he hy.of_addCutoff

/-- Dropping what is older than the cutoff. -/
theorem Covers.expireActive (h : Covers ws cs L) (hdays : retainDays ≠ 0) :
    Covers ws (Audit.addCutoff cs retainDays now) (L.expireActive (now - days retainDays)) where
  sublist := (L.expireActive_sublist _).trans h.sublist
  young := by
    intro e he hy
    have hts := hy.cutoff_le hdays
    rcases List.mem_append.mp (h.young e he hy.of_addCutoff) with harch | hact
    · exact List.mem_append_left _ harch
    · refine List.mem_append_right _ (List.mem_filter.mpr ⟨hact, ?_⟩)
      simp only [expired, Bool.not_and, Bool.or_eq_true, Bool.not_eq_true', decide_eq_false_iff_not]
      exact .inr (Int.not_lt.mpr hts)

/-- Dropping segments that are older than the cutoff as a whole. -/
theorem Covers.afterEnforce (h : Covers ws cs L)
    (hold : retainDays ≠ 0 → ∀ p ∈ L.sealed, p.1.tsLast < now - days retainDays →
      ∀ e ∈ p.2, e.ts < now - days retainDays) :
    Covers ws (Audit.addCutoff cs retainDays now) (L.afterEnforce retainDays now) := by
  rw [Layout.afterEnforce]
  split_ifs with hdays
  · exact h.addCutoff
  · refine ⟨(L.expireSegments_sublist _).trans h.sublist, fun e he hy => ?_⟩
    have hts := hy.cutoff_le hdays
    rcases List.mem_append.mp (h.young e he hy.of_addCutoff) with harch | hact
    · refine List.mem_append_left _ ?_
      obtain ⟨p, hp, hep⟩ := List.mem_flatMap.mp harch
      refine List.mem_flatMap.mpr ⟨p, List.mem_filter.mpr ⟨hp, ?_⟩, hep⟩
      -- A segment that goes has only older entries.
      have hkeep : ¬ p.1.tsLast < now - days retainDays := fun hlt =>
        Int.not_lt.mpr hts (hold hdays p hp hlt e hep)
      simpa using hkeep
    · exact List.mem_append_right _ hact

end Covers

/-! ## The invariant -/

variable (X) in
/-- The directory, the plans of the passes and the temporary file each have all that
    has to be there, and there is a temporary file only while a pass is about to
    rename it. -/
structure CInv (c : Conc) (L : Layout) : Prop where
  inv : Inv X c.sys L
  young : ∀ e ∈ c.sys.written, Young c.cutoffs e → e ∈ L.entries
  plans : ∀ plan, .read plan ∈ c.passes → ∃ es, plan.kept = es.map (·.toText X) ∧
    Covers c.sys.written c.cutoffs { L with active := es }
  tmp : ∀ t, c.sys.disk.tmp = some t → .written ∈ c.passes ∧ t < c.sys.disk.next ∧
    c.sys.disk.log ≠ some t ∧ ∃ es, c.sys.disk.data t = Text.encode (logText X es) ∧
      Covers c.sys.written c.cutoffs { L with active := es }

variable {c : Conc} {L : Layout}

theorem CInv.covers (h : CInv X c L) : Covers c.sys.written c.cutoffs L := ⟨h.inv.sublist, h.young⟩

theorem cinv_fresh (rand : RandomKey) : CInv X (Conc.fresh rand) Layout.empty where
  inv := inv_freshSys rand
  young := by simp [Conc.fresh, freshSys]
  plans := by simp [Conc.fresh]
  tmp := by simp [Conc.fresh, freshSys, freshDisk, Disk.empty]

theorem CInv.tmp_eq_none (h : CInv X c L) (hidle : c.passes = []) : c.sys.disk.tmp = none := by
  rcases htmp : c.sys.disk.tmp with - | t
  · rfl
  · have hmem := (h.tmp t htmp).1
    rw [hidle] at hmem
    cases hmem

/-- A step of the handle while no pass is in progress. -/
theorem CInv.of_idle (h : CInv X c L) (hidle : c.passes = []) {op : Op}
    (hop : ∀ r now, op ≠ .pruneLog r now) {sys : Sys} (hs : Sys.step X c.sys op = some sys)
    {L' : Layout} (hinv : Inv X sys L')
    (hyoung : ∀ e ∈ sys.written, Young c.cutoffs e → e ∈ L'.entries) :
    CInv X { c with sys } L' where
  inv := hinv
  young := hyoung
  plans := by simp [hidle]
  tmp := by
    intro t ht
    rw [Sys.step_tmp hop hs, h.tmp_eq_none hidle] at ht
    cases ht

/-! ## The handle's operations -/

variable (X) in
/-- A rotation would seal something. -/
def Sys.rotationDue (s : Sys) (cfg : RotateConfig) (clk : RotateClock) : Prop :=
  ∃ due, rotateDue X s.disk s.log cfg clk.age = some (some due)

theorem CInv.step_append (h : CInv X c L) (hidle : c.passes = []) (hatt : c.sys.Attached)
    (a : AppendInput) (clk : RotateClock) :
    ∃ c' L', Conc.step X c (.append a clk) = some c' ∧ CInv X c' L' := by
  obtain ⟨s, L', hs, hinv, hwritten, hkept, -⟩ := h.inv.step_append a clk
  obtain ⟨-, hentries⟩ := hkept hatt
  refine ⟨_, L', by rw [Conc.step, hs, Option.map_some],
    h.of_idle hidle (by simp) hs hinv fun e he hy => ?_⟩
  rw [hwritten] at he
  rw [hentries]
  rcases List.mem_append.mp he with he | he
  · exact List.mem_append_left _ (h.young e he hy)
  · exact List.mem_append_right _ he

theorem CInv.step_maybeRotate (h : CInv X c L) {cfg : RotateConfig} {clk : RotateClock}
    (hidle : c.passes = [] ∨ ¬ c.sys.rotationDue X cfg clk) :
    ∃ c' L', Conc.step X c (.maybeRotate cfg clk) = some c' ∧ CInv X c' L' := by
  rcases hidle with hidle | hdue
  · obtain ⟨s, L', hs, hinv, hwritten, hentries, -⟩ := h.inv.step_maybeRotate cfg clk
    refine ⟨_, L', by rw [Conc.step, hs, Option.map_some],
      h.of_idle hidle (by simp) hs hinv fun e he hy => ?_⟩
    rw [hwritten] at he
    rw [hentries]
    exact h.young e he hy
  · -- Nothing to seal: nothing changes.
    have hnone : rotateLocked X c.sys.disk c.sys.log cfg clk
        = some (none, c.sys.disk, c.sys.log) := by
      rcases h.inv.holds.rotateDue_cases c.sys.log cfg clk.age with hd | ⟨sum, -, hd⟩
      · rw [rotateLocked, hd]
        rfl
      · exact absurd ⟨_, hd⟩ hdue
    have hs : Sys.step X c.sys (.maybeRotate cfg clk) = some c.sys := by
      rw [Sys.step, maybeRotate, hnone, ite_self]
      rfl
    exact ⟨c, L, by rw [Conc.step, hs, Option.map_some], h⟩

theorem CInv.step_setRotation (h : CInv X c L) (cfg : RotateConfig) :
    ∃ c' L', Conc.step X c (.setRotation cfg) = some c' ∧ CInv X c' L' :=
  ⟨_, L, rfl, h.inv.step_setRotation cfg, h.young, h.plans, h.tmp⟩

variable (X) in
/-- Every segment that is past retention has only entries that are. -/
def Sys.SegmentsOld (s : Sys) (retainDays : Nat) (now : DateTime) : Prop :=
  retainDays ≠ 0 → ∀ seg ∈ (loadManifest s.disk).segments, seg.tsLast < now - days retainDays →
    ∀ e ∈ s.written, e.toText X ∈ contentLines ((readSegment X s.disk seg).getD []) →
      e.ts < now - days retainDays

theorem CInv.step_enforce (h : CInv X c L) {retainDays : Nat} {now : DateTime}
    (hcond : c.sys.SegmentsOld X retainDays now) :
    ∃ c' L', Conc.step X c (.enforceSegmentRetention retainDays now) = some c' ∧ CInv X c' L' := by
  -- A segment that expires ends before the cutoff; by the condition all of it is older.
  have hold : retainDays ≠ 0 → ∀ p ∈ L.sealed, p.1.tsLast < now - days retainDays →
      ∀ e ∈ p.2, e.ts < now - days retainDays := by
    intro hdays p hp hlt e he
    have hseg : p.1 ∈ (loadManifest c.sys.disk).segments := by
      rw [h.inv.holds.manifest]
      exact List.mem_map_of_mem hp
    refine hcond hdays p.1 hseg hlt e
      (h.inv.sublist.subset (List.mem_append_left _ (Layout.mem_archived hp he))) ?_
    rw [(h.inv.holds.sealed p hp).content, Option.getD_some, contentLines_logText]
    exact List.mem_map_of_mem he
  -- Dropping segments and dropping entries of the active log do not interfere.
  have hactive : ∀ es, Layout.afterEnforce { L with active := es } retainDays now
      = { L.afterEnforce retainDays now with active := es } := by
    intro es
    rw [Layout.afterEnforce, Layout.afterEnforce]
    split_ifs <;> rfl
  have hstands : ∀ es, Covers c.sys.written c.cutoffs { L with active := es } →
      Covers c.sys.written (addCutoff c.cutoffs retainDays now)
        { L.afterEnforce retainDays now with active := es } :=
    fun es hes => hactive es ▸ hes.afterEnforce hold
  obtain ⟨f, m, hframe⟩ := enforceSegmentRetention_frame c.sys.disk retainDays now
  refine ⟨_, _, rfl, h.inv.step_enforce retainDays now, (h.covers.afterEnforce hold).young, ?_, ?_⟩
  -- What a pass has planned to keep is still enough, for the cutoff is on the list now.
  · intro plan hplan
    obtain ⟨es, hkept, hes⟩ := h.plans plan hplan
    exact ⟨es, hkept, hstands es hes⟩
  · simp only [hframe]
    intro t ht
    obtain ⟨hpass, hlt, hne, es, hdata, hes⟩ := h.tmp t ht
    exact ⟨hpass, hlt, hne, es, hdata, hstands es hes⟩

/-! ## The steps of a pass -/

theorem CInv.step_pruneRead (h : CInv X c L) (retainDays : Nat) (now : DateTime) :
    ∃ c' L', Conc.step X c (.pruneRead retainDays now) = some c' ∧ CInv X c' L' := by
  rw [Conc.step]
  -- With no days to retain the pass ends at once.
  by_cases hdays : retainDays = 0
  · have hnone : pruneRead X c.sys.disk retainDays now = none := by simp [pruneRead, hdays]
    rw [hnone]
    exact ⟨c, L, rfl, h⟩
  · rw [h.inv.holds.pruneRead hdays now]
    refine ⟨_, L, rfl, h.inv, h.covers.addCutoff.young, ?_, ?_⟩
    · intro plan hplan
      have hcases : .read plan ∈ c.passes ∨ plan.kept =
          (L.expireActive (now - days retainDays)).active.map (·.toText X) := by
        dsimp only at hplan
        split_ifs at hplan
        · rcases List.mem_append.mp hplan with hplan | hplan
          · exact .inl hplan
          · obtain rfl := Pass.read.inj (List.mem_singleton.mp hplan)
            exact .inr rfl
        · exact .inl hplan
      -- The plan that has just been made keeps the young entries.
      rcases hcases with hplan | hkept
      · obtain ⟨es, hkept, hes⟩ := h.plans plan hplan
        exact ⟨es, hkept, hes.addCutoff⟩
      · exact ⟨_, hkept, h.covers.expireActive hdays⟩
    · intro t ht
      obtain ⟨hpass, hlt, hne, es, hdata, hes⟩ := h.tmp t ht
      refine ⟨?_, hlt, hne, es, hdata, hes.addCutoff⟩
      dsimp only
      split_ifs
      · exact List.mem_append_left _ hpass
      · exact hpass

/-- The temporary file is the one that is there, or a new one. -/
theorem Disk.writeTmp_cases (d : Disk) (bs : Bytes) :
    ∃ t n, d.writeTmp bs
        = { d with data := Function.update d.data t bs, next := n, tmp := some t } ∧
      (d.tmp = some t ∧ n = d.next ∨ d.tmp = none ∧ t = d.next ∧ n = d.next + 1) := by
  rw [Disk.writeTmp]
  rcases htmp : d.tmp with - | t
  · exact ⟨d.next, d.next + 1, rfl, .inr ⟨rfl, rfl, rfl⟩⟩
  · exact ⟨t, d.next, rfl, .inl ⟨rfl, rfl⟩⟩

theorem CInv.step_pruneWrite (h : CInv X c L) (i : Nat) :
    ∃ c' L', Conc.step X c (.pruneWrite i) = some c' ∧ CInv X c' L' := by
  rw [Conc.step]
  split
  · next plan hi =>
      obtain ⟨es, hkept, hes⟩ := h.plans plan (List.mem_of_getElem? hi)
      have hlt : i < c.passes.length := (List.getElem?_eq_some_iff.mp hi).1
      obtain ⟨t, n, hwrite, hcases⟩ := c.sys.disk.writeTmp_cases (keptBytes plan.kept)
      -- The file written is not the log's, and all files stay below `next`.
      have hfacts : c.sys.disk.next ≤ n ∧ t < n ∧ c.sys.disk.log ≠ some t := by
        rcases hcases with ⟨htmp, rfl⟩ | ⟨-, rfl, rfl⟩
        · obtain ⟨-, hlt, hne, -⟩ := h.tmp t htmp
          exact ⟨Nat.le_refl _, hlt, hne⟩
        · exact ⟨Nat.le_succ _, Nat.lt_succ_self _,
            fun hlog => Nat.lt_irrefl _ (h.inv.log_lt _ hlog)⟩
      obtain ⟨hnext, htn, hne⟩ := hfacts
      have hholds : Holds X (pruneWrite c.sys.disk plan) L :=
        h.inv.holds.writeTmp ⟨h.inv.log_lt, fun k hk htmp => (h.tmp k htmp).2.2.1 hk⟩ _
      refine ⟨_, L, rfl, ?_, h.young, ?_, ?_⟩
      · refine ⟨hholds, h.inv.chained, h.inv.seq, h.inv.last, h.inv.sublist, ?_, h.inv.keyLen,
          ?_, ?_⟩ <;> simp only [pruneWrite, hwrite]
        · exact h.inv.key
        · exact fun k hk => (h.inv.log_lt k hk).trans_le hnext
        · exact h.inv.file_lt.trans_le hnext
      -- Every other pass still has its plan.
      · intro plan' hplan'
        rcases List.mem_or_eq_of_mem_set hplan' with hmem | heq
        · exact h.plans plan' hmem
        · cases heq
      · simp only [pruneWrite, hwrite]
        -- And the temporary file is what this pass keeps.
        intro t' ht'
        obtain rfl : t = t' := Option.some.inj ht'
        refine ⟨List.mem_set hlt .written, htn, hne, es, ?_, hes⟩
        rw [Function.update_self, hkept, keptBytes]
        rfl
  · exact ⟨c, L, rfl, h⟩

theorem CInv.step_pruneRename (h : CInv X c L) (i : Nat) :
    ∃ c' L', Conc.step X c (.pruneRename i) = some c' ∧ CInv X c' L' := by
  rw [Conc.step]
  split
  · have hplans : ∀ plan, .read plan ∈ c.passes.eraseIdx i → .read plan ∈ c.passes :=
      fun plan hplan => List.mem_of_mem_eraseIdx hplan
    rcases htmp : c.sys.disk.tmp with - | t
    · -- Another pass renamed the file away.
      have hnone : pruneRename c.sys.disk = none := by simp [pruneRename, Disk.renameTmp, htmp]
      refine ⟨_, L, rfl, ?_, ?_, ?_, ?_⟩
      · simpa only [hnone, Option.getD_none] using h.inv
      · exact h.young
      · exact fun plan hplan => h.plans plan (hplans plan hplan)
      · simp [hnone, htmp]
    · obtain ⟨-, hlt, -, es, hdata, hes⟩ := h.tmp t htmp
      have hsome : pruneRename c.sys.disk
          = some { c.sys.disk with log := some t, tmp := none } := by
        simp [pruneRename, Disk.renameTmp, htmp]
      refine ⟨_, { L with active := es }, rfl, ?_, hes.young, ?_, ?_⟩
      · simp only [hsome, Option.getD_some]
        refine ⟨h.inv.holds.renameTmp hdata, h.inv.chained, h.inv.seq, h.inv.last, hes.sublist,
          h.inv.key, h.inv.keyLen, ?_, h.inv.file_lt⟩
        intro k hk
        obtain rfl : t = k := Option.some.inj hk
        exact hlt
      · exact fun plan hplan => h.plans plan (hplans plan hplan)
      · simp [hsome]
  · exact ⟨c, L, rfl, h⟩

/-! ## Every interleaving -/

variable (X) in
/-- An append is made while no pass is in progress, and through a handle on the log's
    file; a rotation that seals something, while no pass is in progress; a segment
    that goes has only old entries. -/
def Undisturbed (c : Conc) : Action → Prop
  | .append _ _ => c.passes = [] ∧ c.sys.Attached
  | .maybeRotate cfg clk => c.passes = [] ∨ ¬ c.sys.rotationDue X cfg clk
  | .enforceSegmentRetention retainDays now => c.sys.SegmentsOld X retainDays now
  | _ => True

/-- **One action.** -/
theorem CInv.step (h : CInv X c L) {act : Action} (hact : Undisturbed X c act) :
    ∃ c', Conc.step X c act = some c' ∧ ∃ L', CInv X c' L' := by
  have hstep : ∃ c' L', Conc.step X c act = some c' ∧ CInv X c' L' := by
    cases act with
    | append a clk => exact h.step_append hact.1 hact.2 a clk
    | setRotation cfg => exact h.step_setRotation cfg
    | maybeRotate cfg clk => exact h.step_maybeRotate hact
    | enforceSegmentRetention retainDays now => exact h.step_enforce hact
    | pruneRead retainDays now => exact h.step_pruneRead retainDays now
    | pruneWrite i => exact h.step_pruneWrite i
    | pruneRename i => exact h.step_pruneRename i
  obtain ⟨c', L', hc', hinv⟩ := hstep
  exact ⟨c', hc', L', hinv⟩

/-- **Nothing is lost or doubled.**  In every interleaving whose actions are not
    disturbed by a pass, each young entry is stored once. -/
theorem concurrent_retention_keeps_young (rand : RandomKey) (acts : List Action)
    (hacts : Run.Along (Conc.step X) (Undisturbed X) (Conc.fresh rand) acts) :
    ∃ c, Run.run (Conc.step X) (Conc.fresh rand) acts = some c ∧
      ∀ e ∈ c.sys.written, Young c.cutoffs e →
        (stored X c.sys.disk).count (e.toText X) = 1 := by
  obtain ⟨c, hc, L, hinv⟩ := Run.run_invariant (I := fun c => ∃ L, CInv X c L)
    (fun _ _ ⟨_, hinv⟩ hact => hinv.step hact) ⟨_, cinv_fresh rand⟩ hacts
  exact ⟨c, hc, fun e he hy =>
    hinv.inv.holds.count_stored hinv.inv.ordered (hinv.young e he hy)⟩

/-- Two entries are written, and a pass drops the older one. -/
def appendsThenPass : List Action :=
  [.append (stopAt 0) newYearClock, .append (stopAt newYear) newYearClock, .pruneRead 30 newYear,
    .pruneWrite 0, .pruneRename 0]

theorem step_append_concFresh (rand : RandomKey) (a : AppendInput) (clk : RotateClock) :
    Conc.step X (Conc.fresh rand) (.append a clk)
      = some { Conc.fresh rand with sys := (freshSys rand).wrote X a } := rfl

theorem undisturbed_appendsThenPass :
    Run.Along (Conc.step X) (Undisturbed X) (Conc.fresh zeroKey) appendsThenPass := by
  refine ⟨⟨rfl, rfl⟩, fun c hc => ⟨?_, fun _ _ => ⟨trivial, fun _ _ => ⟨trivial, fun _ _ =>
    ⟨trivial, fun _ _ => trivial⟩⟩⟩⟩⟩
  obtain rfl := Option.some.inj ((step_append_concFresh ..).symm.trans hc)
  exact ⟨rfl, rfl⟩

theorem concurrent_retention_keeps_young_pass :
    ∃ c, Run.run (Conc.step External.sample) (Conc.fresh zeroKey) appendsThenPass = some c ∧
      ∀ e ∈ c.sys.written, Young c.cutoffs e →
        (stored External.sample c.sys.disk).count (e.toText External.sample) = 1 :=
  concurrent_retention_keeps_young zeroKey appendsThenPass undisturbed_appendsThenPass

/-! ## What a pass does to the handle -/

/-- A pass that nothing runs into is `prune_log`. -/
theorem Conc.run_pass {c : Conc} (hidle : c.passes = []) {retainDays : Nat} {now : DateTime}
    {plan : PrunePlan} (hread : pruneRead X c.sys.disk retainDays now = some plan) :
    ∃ s, Sys.step X c.sys (.pruneLog retainDays now) = some s ∧
      Run.run (Conc.step X) c [.pruneRead retainDays now, .pruneWrite 0, .pruneRename 0]
        = some { sys := s, passes := [], cutoffs := addCutoff c.cutoffs retainDays now } := by
  obtain ⟨sys, passes, cutoffs⟩ := c
  obtain rfl : passes = [] := hidle
  by_cases hpos : 0 < plan.pruned
  · obtain ⟨t, n, hwrite, -⟩ := sys.disk.writeTmp_cases (keptBytes plan.kept)
    obtain ⟨d, hd⟩ : ∃ d, pruneRename (pruneWrite sys.disk plan) = some d := by
      rw [pruneWrite, hwrite]
      exact ⟨_, rfl⟩
    have hstep : Sys.step X sys (.pruneLog retainDays now) = some { sys with disk := d } := by
      simp only [Sys.step, pruneLog, hread, Option.bind_some, if_pos hpos, hd, Option.map_some]
    refine ⟨_, hstep, ?_⟩
    simp [Run.run, Conc.step, hread, hpos, hd]
  · have hstep : Sys.step X sys (.pruneLog retainDays now) = some sys := by
      simp only [Sys.step, pruneLog, hread, Option.bind_some, if_neg hpos]
    refine ⟨_, hstep, ?_⟩
    simp [Run.run, Conc.step, hread, hpos]

/-- A pass that drops something leaves the handle on a file that is no longer the log. -/
theorem Inv.prune_detaches {s : Sys} {L : Layout} (h : Inv X s L) (htmp : s.disk.tmp = none)
    {retainDays : Nat} (hdays : retainDays ≠ 0) {now : DateTime} {e : AuditEntry}
    (he : e ∈ L.active) (hexp : expired (now - days retainDays) e = true) {s' : Sys}
    (hs' : Sys.step X s (.pruneLog retainDays now) = some s') : ¬ s'.Attached := by
  rcases h.holds.pruneLog_cases htmp hdays now with ⟨hL, -⟩ | ⟨n, bs, hp, -⟩
  · have hkept : e ∈ (L.expireActive (now - days retainDays)).active := by
      rw [hL]
      exact he
    simp [Layout.expireActive, hexp] at hkept
  · rw [Sys.step, hp] at hs'
    obtain rfl := Option.some.inj hs'
    intro hatt
    have hfile : s.disk.next = s.log.file := Option.some.inj hatt
    have hlt := h.file_lt
    omega

/-- An entry is written after a pass replaced the file. -/
def passThenAppend : List Action :=
  [.append (stopAt 0) newYearClock, .pruneRead 30 newYear, .pruneWrite 0, .pruneRename 0,
    .append (stopAt newYear) newYearClock]

/-- It is stored nowhere. -/
theorem passThenAppend_loses_entry :
    ∃ c e, Run.run (Conc.step External.sample) (Conc.fresh zeroKey) passThenAppend = some c ∧
      e ∈ c.sys.written ∧ Young c.cutoffs e ∧
      (stored External.sample c.sys.disk).count (e.toText External.sample) = 0 := by
  have hfirst := inv_firstLayout (X := External.sample) zeroKey (stopAt 0)
  -- The pass drops the first entry.
  obtain ⟨s, hs, hpass⟩ := Conc.run_pass
    (c := { Conc.fresh zeroKey with sys := (freshSys zeroKey).wrote External.sample (stopAt 0) })
    rfl (hfirst.holds.pruneRead (Nat.succ_ne_zero 29) newYear)
  obtain ⟨t, ht, hinv, -⟩ := hfirst.step_prune rfl 30 newYear
  obtain rfl : s = t := Option.some.inj (hs.symm.trans ht)
  have hdetached : ¬ s.Attached :=
    hfirst.prune_detaches rfl (by decide) (List.mem_singleton_self _) rfl hs
  -- The second one goes to the file that was renamed away.
  obtain ⟨s', L', hs', hinv', hwritten, -, hlost⟩ :=
    hinv.step_append (stopAt newYear) newYearClock
  have hnil : L'.entries = [] := (hlost hdetached).trans rfl
  refine ⟨{ sys := s', passes := [], cutoffs := addCutoff [] 30 newYear },
    nextEntry External.sample s.log (stopAt newYear), ?_, ?_, ?_, ?_⟩
  · have hrun := @Run.run_append _ _ (Conc.step External.sample)
      { Conc.fresh zeroKey with sys := (freshSys zeroKey).wrote External.sample (stopAt 0) }
      [.pruneRead 30 newYear, .pruneWrite 0, .pruneRename 0] [.append (stopAt newYear) newYearClock]
    rw [hpass, Option.bind_some] at hrun
    rw [passThenAppend, Run.run_cons (step_append_concFresh ..)]
    refine hrun.trans (Run.run_cons ?_ [])
    rw [Conc.step, hs', Option.map_some]
    rfl
  · rw [hwritten]
    exact List.mem_append_right _ (List.mem_singleton_self _)
  · intro cutoff hcutoff
    obtain rfl := List.mem_singleton.mp hcutoff
    show newYear - days 30 ≤ newYear
    decide
  · rw [hinv'.holds.stored_eq, hnil]
    rfl

end Maranode.Audit
