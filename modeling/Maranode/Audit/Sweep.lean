/-
  Maranode.Audit.Sweep

  `sweep_audit_dir` on any directory that verifies: a rotation, then the segments,
  then the active file.

  A sweep reads the clock once for the segments and once more for the active file.
  When a segment stays and the later cutoff reaches into the active file, what goes
  stands after what stays.
-/
import Maranode.Audit.Concurrent
import Maranode.Audit.Crash

namespace Maranode.Audit

open Lib Common

variable {X : External}

/-! ## Down-closed tests -/

/-- What a test picks comes first when it picks all that stands before. -/
theorem filter_append_filter_not {α : Type} {p : α → Bool} {l : List α}
    (h : l.Pairwise fun a b => p b = true → p a = true) :
    l.filter p ++ l.filter (fun a => !p a) = l := by
  induction l with
  | nil => rfl
  | cons a l ih =>
      obtain ⟨ha, hl⟩ := List.pairwise_cons.mp h
      by_cases hp : p a = true
      · rw [List.filter_cons_of_pos hp, List.filter_cons_of_neg (by simp [hp]), List.cons_append,
          ih hl]
      · have hnone : l.filter p = [] :=
          List.filter_eq_nil_iff.mpr fun b hb hpb => hp (ha b hb hpb)
        have hall : l.filter (fun a => !p a) = l :=
          List.filter_eq_self.mpr fun b hb => by simpa using fun hpb => hp (ha b hb hpb)
        rw [List.filter_cons_of_neg hp, List.filter_cons_of_pos (by simpa using hp), hnone, hall]
        rfl

/-! ## Audit directories -/

variable (X) in
/-- An audit directory as the crate leaves one: it stores a layout, the segments are
    recorded in the order they were sealed, and the numbers start at one. -/
structure AuditDir (d : Disk) (L : Layout) : Prop where
  holds : Holds X d L
  inOrder : L.sealed.Pairwise (·.1.seqStart ≤ ·.1.seqStart)
  pos : ∀ e ∈ L.entries, 0 < e.seq
  apart : d.Apart

/-- What a run leaves is one. -/
theorem Inv.auditDir {s : Sys} {L : Layout} (h : Inv X s L) (htmp : s.disk.tmp = none) :
    AuditDir X s.disk L where
  holds := h.holds
  inOrder := (h.holds.pairwise_seqStart h.sorted).imp Nat.le_of_lt
  pos := fun _ he => h.seq_pos (h.sublist.subset he)
  apart := ⟨h.log_lt, fun i _ hi => by rw [htmp] at hi; cases hi⟩

/-- What `verify_all` says about one. -/
theorem AuditDir.verifyAll_iff {d : Disk} {L : Layout} (h : AuditDir X d L) (key : Bytes) :
    (∃ r, verifyAll X d key = some r ∧ r.ok = true) ↔
      (∀ e ∈ L.entries, e.readable = true) ∧ Anchored X key L.entries := by
  obtain ⟨r, hr, hiff, -⟩ := h.holds.verifyAll_spec h.inOrder h.pos key
  rw [← hiff, hr]
  constructor
  · rintro ⟨r', hr', hok⟩
    obtain rfl := Option.some.inj hr'
    exact hok
  · exact fun hok => ⟨r, rfl, hok⟩

/-- What stays at the end of an accepted log is accepted. -/
theorem Anchored.of_suffix {key : Bytes} {es fs : List AuditEntry} (h : Anchored X key es)
    (hpos : ∀ e ∈ es, 0 < e.seq) (hsuf : fs <:+ es) : Anchored X key fs := by
  intro e he
  rcases es with - | ⟨f, es⟩
  · obtain rfl := List.suffix_nil.mp hsuf
    cases he
  have hchain := h f rfl
  obtain ⟨m, g, hlinked, hhead⟩ := hchain.of_infix hsuf.isInfix
  obtain ⟨rfl, rfl, hfirst⟩ := hhead e he
  split_ifs with hone
  · -- The entry numbered one is the first of all.
    have hle := (hchain.seq_bounds (hsuf.subset (List.mem_of_head? he))).1
    have hf : f.seq = 1 := Nat.le_antisymm (hone ▸ hle) (hpos f (List.mem_cons_self ..))
    have hgenesis := hfirst (hone.trans hf.symm)
    rw [if_pos hf] at hgenesis
    rw [← hgenesis]
    exact hlinked
  · exact hlinked

/-! ## The three parts of a sweep -/

variable (X) in
/-- The rotation of a sweep finds something to seal: the file has an entry, and it has
    reached the size, or its first entry the age. -/
def Sys.RotationSeals (s : Sys) (cfg : RotateConfig) (now : DateTime) : Prop :=
  (s.disk.data s.log.file).length ≠ 0 ∧ entriesIn X (s.disk.readLog.getD []) ≠ [] ∧
    (0 < cfg.maxBytes ∧ cfg.maxBytes ≤ (s.disk.data s.log.file).length ∨
      0 < cfg.maxAgeDays ∧ ∃ ts, oldestTs X (s.disk.readLog.getD []) = some ts ∧
        ts < now - days cfg.maxAgeDays)

theorem Holds.rotateDue_iff {s : Sys} {L : Layout} (h : Holds X s.disk L) (cfg : RotateConfig)
    (now : DateTime) :
    (∃ due, rotateDue X s.disk s.log cfg now = some (some due)) ↔ s.RotationSeals X cfg now := by
  have hsum : (∃ due, (summarize X (logText X L.active)).map (fun sum => (logText X L.active, sum))
      = some due) ↔ entriesIn X (logText X L.active) ≠ [] := by
    rw [summarize_eq, ← Option.isSome_iff_exists, Option.isSome_map, Option.isSome_map,
      List.isSome_head?]
  have hage : (oldestTs X (logText X L.active)).any (fun ts => ts < now - days cfg.maxAgeDays)
        = true ↔
      ∃ ts, oldestTs X (logText X L.active) = some ts ∧ ts < now - days cfg.maxAgeDays := by
    simp [Option.any_eq_true]
  rw [Sys.RotationSeals, rotateDue, h.readLog, Option.getD_some, Option.map_some, ← hage]
  dsimp only
  generalize (oldestTs X (logText X L.active)).any _ = aged
  split_ifs with hoff hempty hnone hhit
  · -- Rotation is off.
    simp only [RotateConfig.enabled, Bool.not_eq_true', Bool.or_eq_false_iff,
      decide_eq_false_iff_not] at hoff
    simp [hoff]
  · simp [hempty]
  · -- The size is not reached and there is no age.
    simp only [Bool.and_eq_true, Bool.not_eq_true', decide_eq_true_eq, Bool.and_eq_false_iff,
      decide_eq_false_iff_not] at hnone
    have hsize : ¬ (0 < cfg.maxBytes ∧ cfg.maxBytes ≤ (s.disk.data s.log.file).length) := by tauto
    simp [hsize, hnone.2]
  · simp only [Bool.or_eq_true, Bool.and_eq_true, decide_eq_true_eq] at hhit
    simp only [Option.some.injEq, hsum, hempty, hhit, ne_eq, not_false_eq_true, true_and, and_true]
  · simp only [Bool.or_eq_true, Bool.and_eq_true, decide_eq_true_eq] at hhit
    simp [hhit]

section Parts

variable {s : Sys} {d : Disk} {L : Layout}

/-- The rotation moves all of the active file into a segment, or nothing. -/
theorem AuditDir.rotate (h : AuditDir X s.disk L) (ho : L.Sorted) (cfg : RotateConfig)
    (clk : RotateClock) :
    ∃ s₁ L₁, Sys.run X s [.setRotation cfg, .maybeRotate cfg clk] = some s₁ ∧
      AuditDir X s₁.disk L₁ ∧ L₁.entries = L.entries ∧
      (s.RotationSeals X cfg clk.age ∧ L₁.active = [] ∨
        ¬ s.RotationSeals X cfg clk.age ∧ s₁.disk = s.disk ∧ L₁ = L) := by
  obtain ⟨i, hi, -⟩ := h.holds.log
  have hdue := Holds.rotateDue_iff (s := { s with log := setRotation s.log cfg }) h.holds cfg
    clk.age
  have hrun : Sys.run X s [.setRotation cfg, .maybeRotate cfg clk]
      = (rotateLocked X s.disk (setRotation s.log cfg) cfg clk).map fun r =>
          { s with disk := r.2.1, log := r.2.2 } := by
    -- A sweep that is off rotates nothing either way.
    have hmaybe : maybeRotate X s.disk (setRotation s.log cfg) cfg clk
        = rotateLocked X s.disk (setRotation s.log cfg) cfg clk := by
      rw [maybeRotate]
      split_ifs with hoff
      · rw [rotateLocked, rotateDue, if_pos hoff]
        rfl
      · rfl
    rw [← hmaybe]
    simp [Run.run, Sys.step]
  rw [hrun]
  rcases h.holds.rotateLocked_cases ho hi (setRotation s.log cfg) cfg clk with
    hr | ⟨seg, bs, hr, hholds⟩
  -- Nothing was due, and the disk is as it was.
  · rw [hr]
    refine ⟨_, L, rfl, h, rfl, .inr ⟨fun hseals => ?_, rfl, rfl⟩⟩
    obtain ⟨due, hdue⟩ := hdue.mpr hseals
    rw [rotateLocked, hdue, Option.map_some] at hr
    cases hr
  -- Due: the active file is sealed into a segment and emptied.
  · have hseals : s.RotationSeals X cfg clk.age := by
      obtain ⟨due, hsome, heq⟩ := Option.map_eq_some_iff.mp hr
      cases due with
      | none => cases heq
      | some p => exact hdue.mp ⟨p, hsome⟩
    obtain ⟨-, hlog, hnext⟩ := rotated_frame (X := X) hi bs seg
    have htmp := (rotateLocked_frame X hr).1
    rw [hr]
    refine ⟨_, L.seal seg, rfl, ?_, L.entries_seal seg, .inl ⟨hseals, rfl⟩⟩
    have hsorted : (L.seal seg).Sorted := ho.sublist (L.seal_sublist seg)
    refine ⟨hholds, (hholds.pairwise_seqStart hsorted).imp Nat.le_of_lt, ?_, ?_, ?_⟩
    · rw [L.entries_seal]
      exact h.pos
    · intro k hk
      rw [hnext]
      exact h.apart.log_lt k (hlog ▸ hk)
    · intro k hk
      rw [htmp]
      exact h.apart.tmp_ne k (hlog ▸ hk)

/-- The segments that go are the first ones. -/
theorem AuditDir.enforce (h : AuditDir X d L) (ho : L.Sorted) {retainDays : Nat}
    (hdays : retainDays ≠ 0) (now : DateTime) :
    AuditDir X (enforceSegmentRetention d retainDays now).1
      (L.expireSegments (now - days retainDays)) := by
  have hsub := L.expireSegments_sublist (now - days retainDays)
  have hholds := h.holds.enforceSegmentRetention ho hdays now
  obtain ⟨f, m, hframe⟩ := enforceSegmentRetention_frame d retainDays now
  refine ⟨hholds, ?_, fun e he => h.pos e (hsub.subset he), ?_⟩
  · exact (hholds.pairwise_seqStart (ho.sublist hsub)).imp Nat.le_of_lt
  · rw [hframe]
    exact ⟨h.apart.log_lt, h.apart.tmp_ne⟩

/-- The pass over the active file, whatever the temporary path names. -/
theorem AuditDir.pruneLog (h : AuditDir X d L) {retainDays : Nat} (hdays : retainDays ≠ 0)
    (now : DateTime) :
    ∃ d' n, Audit.pruneLog X d retainDays now = some (d', n) ∧
      Holds X d' (L.expireActive (now - days retainDays)) := by
  rw [Audit.pruneLog, h.holds.pruneRead hdays, Option.bind_some]
  dsimp only
  generalize now - days retainDays = cutoff
  split_ifs with hpos
  · obtain ⟨t, n, hwrite, -⟩ :=
      d.writeTmp_cases (keptBytes ((L.expireActive cutoff).active.map (·.toText X)))
    have hholds := h.holds.writeTmp h.apart
      (keptBytes ((L.expireActive cutoff).active.map (·.toText X)))
    rw [pruneRename, pruneWrite, hwrite, Disk.renameTmp, Option.map_some, Option.map_some]
    rw [hwrite] at hholds
    exact ⟨_, _, rfl, hholds.renameTmp (Function.update_self ..)⟩
  · have hnil : L.active.filter (expired cutoff) = [] :=
      List.eq_nil_of_length_eq_zero (by omega)
    refine ⟨d, _, rfl, ?_⟩
    rw [List.filter_eq_nil_iff] at hnil
    have hall : L.active.filter (fun e => !expired cutoff e) = L.active :=
      List.filter_eq_self.mpr fun e he => by simpa using hnil e he
    rw [Layout.expireActive, hall]
    exact h.holds

/-- The parts one after the other. -/
theorem AuditDir.sweep (h : AuditDir X s.disk L) (ho : L.Sorted) (cfg : RotateConfig)
    {retainDays : Nat} (hdays : 1 ≤ retainDays) (clk : RotateClock)
    (enforceNow pruneNow : DateTime) :
    ∃ d₁ L₁ s₂ s₃,
      Sys.run X s [.setRotation cfg, .maybeRotate cfg clk,
        .enforceSegmentRetention retainDays enforceNow] = some s₂ ∧
      Sys.run X s (sweepAuditDir cfg retainDays clk enforceNow pruneNow) = some s₃ ∧
      Holds X d₁ L₁ ∧ AuditDir X s₂.disk (L₁.expireSegments (enforceNow - days retainDays)) ∧
      Holds X s₃.disk ((L₁.expireSegments (enforceNow - days retainDays)).expireActive
        (pruneNow - days retainDays)) ∧
      L₁.entries = L.entries ∧
      (s.RotationSeals X cfg clk.age ∧ L₁.active = [] ∨
        ¬ s.RotationSeals X cfg clk.age ∧ L₁ = L) := by
  have hne : retainDays ≠ 0 := by omega
  -- Rotation, then the segments, then the active log, as the sweep calls them.
  obtain ⟨s₁, L₁, hrun, hdir, hentries, hcases⟩ := h.rotate ho cfg clk
  rw [Sys.run] at hrun
  have hsorted : L₁.Sorted := ho.sublist (by rw [hentries])
  have hdir₂ := hdir.enforce hsorted hne enforceNow
  obtain ⟨d₃, n, hprune, hholds⟩ := hdir₂.pruneLog hne pruneNow
  have hsteps : [Op.setRotation cfg, .maybeRotate cfg clk,
      .enforceSegmentRetention retainDays enforceNow]
        = [.setRotation cfg, .maybeRotate cfg clk]
          ++ [.enforceSegmentRetention retainDays enforceNow] := rfl
  have hsweep : sweepAuditDir cfg retainDays clk enforceNow pruneNow
      = [.setRotation cfg, .maybeRotate cfg clk] ++
          [.enforceSegmentRetention retainDays enforceNow, .pruneLog retainDays pruneNow] := by
    rw [sweepAuditDir, if_pos (by omega)]
    rfl
  refine ⟨s₁.disk, L₁, { s₁ with disk := _ }, { s₁ with disk := d₃ }, ?_, ?_, hdir.holds, hdir₂,
    hholds, hentries, ?_⟩
  · rw [hsteps, Sys.run, Run.run_append, hrun]
    rfl
  · rw [hsweep, Sys.run, Run.run_append, hrun, Option.bind_some]
    simp only [Run.run, Sys.step, hprune, Option.bind_some]
  · exact hcases.imp id fun hnot => ⟨hnot.1, hnot.2.2⟩

end Parts

/-! ## What goes and what stays -/

section Split

variable {d : Disk} {L : Layout}

/-- No entry of a segment is newer than its record says. -/
theorem Sealed.ts_le_tsLast {seg : Segment} {es : List AuditEntry} (h : Sealed X d seg es)
    (hread : ∀ e ∈ es, e.readable = true) (hts : es.Pairwise (·.ts ≤ ·.ts)) :
    ∀ e ∈ es, e.ts ≤ seg.tsLast := by
  intro e he
  obtain ⟨first, last, -, hlast, -, -, -, -, htsLast⟩ := h.exists_ends
  rw [List.filter_eq_self.mpr hread] at hlast
  obtain ⟨front, rfl⟩ := List.getLast?_eq_some_iff.mp hlast
  rw [htsLast]
  rcases List.mem_append.mp he with he | he
  · exact (List.pairwise_append.mp hts).2.2 e he last (List.mem_singleton_self last)
  · rw [List.mem_singleton.mp he]

/-- Segments go from the front, and only old entries with them. -/
theorem Holds.split_expireSegments (h : Holds X d L) (hread : ∀ e ∈ L.entries, e.readable = true)
    (hts : L.entries.Pairwise (·.ts ≤ ·.ts)) (cutoff : DateTime) :
    ∃ dropped, L.entries = dropped ++ (L.expireSegments cutoff).entries ∧
      ∀ e ∈ dropped, e.ts < cutoff := by
  have hreadp : ∀ p ∈ L.sealed, ∀ e ∈ p.2, e.readable = true := fun p hp e he =>
    hread e (List.mem_append_left _ (Layout.mem_archived hp he))
  have hblocks := List.pairwise_flatMap.mp (List.pairwise_append.mp hts).1
  have hlast : L.sealed.Pairwise fun p q =>
      decide (q.1.tsLast < cutoff) = true → decide (p.1.tsLast < cutoff) = true := by
    refine hblocks.2.imp_of_mem ?_
    intro p q hp hq hle hexp
    obtain ⟨-, e, -, he, -, -, -, -, hpe⟩ := (h.sealed p hp).exists_ends
    obtain ⟨-, f, -, hf, -, -, -, -, hqf⟩ := (h.sealed q hq).exists_ends
    have hef := hle e (List.mem_of_mem_filter (List.mem_of_getLast? he)) f
      (List.mem_of_mem_filter (List.mem_of_getLast? hf))
    simp only [decide_eq_true_eq] at hexp ⊢
    rw [hpe]
    exact hef.trans_lt (hqf ▸ hexp)
  refine ⟨(L.sealed.filter fun p => decide (p.1.tsLast < cutoff)).flatMap Prod.snd, ?_, ?_⟩
  · rw [Layout.entries, Layout.entries, Layout.archived, Layout.archived, ← List.append_assoc,
      Layout.expireSegments, ← List.flatMap_append, filter_append_filter_not hlast]
  · intro e he
    obtain ⟨p, hp, he⟩ := List.mem_flatMap.mp he
    obtain ⟨hp, hexp⟩ := List.mem_filter.mp hp
    have hle := (h.sealed p hp).ts_le_tsLast (hreadp p hp) (hblocks.1 p hp) e he
    exact hle.trans_lt (of_decide_eq_true hexp)

/-- Lines go from the front when no segment stands before them, or none goes. -/
theorem Layout.split_expireActive (hread : ∀ e ∈ L.entries, e.readable = true)
    (hts : L.entries.Pairwise (·.ts ≤ ·.ts)) {cutoff : DateTime}
    (hfront : L.sealed = [] ∨ L.active.filter (expired cutoff) = []) :
    ∃ dropped, L.entries = dropped ++ (L.expireActive cutoff).entries ∧
      ∀ e ∈ dropped, e.ts < cutoff := by
  have hexp : ∀ e ∈ L.active, expired cutoff e = true ↔ e.ts < cutoff := by
    intro e he
    rw [expired, hread e (List.mem_append_right _ he), Bool.true_and, decide_eq_true_eq]
  have hsplit : L.active.filter (expired cutoff) ++ L.active.filter (fun e => !expired cutoff e)
      = L.active := by
    refine filter_append_filter_not ((List.pairwise_append.mp hts).2.1.imp_of_mem ?_)
    intro e f he hf hle
    rw [hexp e he, hexp f hf]
    exact hle.trans_lt
  refine ⟨L.active.filter (expired cutoff), ?_, ?_⟩
  · rcases hfront with hnil | hnil
    · rw [Layout.entries, Layout.entries, Layout.archived, Layout.archived, Layout.expireActive,
        hnil, List.flatMap_nil, List.nil_append, List.nil_append, hsplit]
    · rw [hnil, List.nil_append] at hsplit
      rw [hnil, Layout.expireActive, hsplit]
      rfl
  · intro e he
    obtain ⟨he, hold⟩ := List.mem_filter.mp he
    exact (hexp e he).mp hold

/-- With a segment before them, lines that go leave a gap. -/
theorem Holds.not_prefix_expireActive (h : Holds X d L) (hord : L.Ordered) {cutoff : DateTime}
    (hkept : L.sealed ≠ []) (hgone : L.active.filter (expired cutoff) ≠ [])
    (dropped : List AuditEntry) : L.entries ≠ dropped ++ (L.expireActive cutoff).entries := by
  intro heq
  obtain ⟨p, ps, hps⟩ := List.exists_cons_of_ne_nil hkept
  obtain ⟨k, hk, -⟩ := (h.sealed p (hps ▸ List.mem_cons_self ..)).exists_seqStart
  have hkept' : k ∈ L.archived :=
    Layout.mem_archived (hps ▸ List.mem_cons_self ..) (List.mem_of_mem_filter hk)
  obtain ⟨e, hgone⟩ := List.exists_mem_of_ne_nil _ hgone
  obtain ⟨he, hold⟩ := List.mem_filter.mp hgone
  rw [Layout.Ordered] at hord
  have hmem : e ∈ dropped := by
    have hall : e ∈ L.entries := List.mem_append_right _ he
    rw [heq] at hall
    refine (List.mem_append.mp hall).resolve_right fun hstay => ?_
    rcases List.mem_append.mp hstay with harch | hactive
    · exact Nat.lt_irrefl _ ((List.pairwise_append.mp hord).2.2 e harch e he)
    · obtain ⟨-, hnot⟩ := List.mem_filter.mp hactive
      simp [hold] at hnot
  -- The entry that goes stands before one of a segment, and after it.
  have hafter := (List.pairwise_append.mp hord).2.2 k hkept' e he
  rw [heq] at hord
  have hbefore := (List.pairwise_append.mp hord).2.2 e hmem k (List.mem_append_left _ hkept')
  omega

end Split

/-! ## Sweeps -/

variable (X) in
/-- A sweep leaves a directory that verifies; what the segment step and the pruning
    step remove stands first, and is older than the cutoff each of them used. -/
def SweepSound (s : Sys) (key : Bytes) (cfg : RotateConfig) (retainDays : Nat)
    (clk : RotateClock) (enforceNow pruneNow : DateTime) : Prop :=
  ∃ s₂ s₃,
    Sys.run X s [.setRotation cfg, .maybeRotate cfg clk,
      .enforceSegmentRetention retainDays enforceNow] = some s₂ ∧
    Sys.run X s (sweepAuditDir cfg retainDays clk enforceNow pruneNow) = some s₃ ∧
    (∃ dropped, recorded X s.disk = dropped ++ recorded X s₂.disk ∧
      ∀ e ∈ dropped, e.ts < enforceNow - days retainDays) ∧
    (∃ dropped, recorded X s₂.disk = dropped ++ recorded X s₃.disk ∧
      ∀ e ∈ dropped, e.ts < pruneNow - days retainDays) ∧
    ∃ r, verifyAll X s₃.disk key = some r ∧ r.ok = true

section Sweeps

variable {s : Sys} {L : Layout} {key : Bytes}

theorem Holds.recorded_of_readable {d : Disk} {L : Layout} (h : Holds X d L)
    (hread : ∀ e ∈ L.entries, e.readable = true) (ho : L.Sorted) :
    recorded X d = L.entries := by
  rw [h.recorded_eq ho]
  exact List.filter_eq_self.mpr hread

/-- The directory verifies when what it holds ends a log that does. -/
theorem AuditDir.verifyAll_of_suffix {d d' : Disk} {L L' : Layout} (h : AuditDir X d L)
    (hok : ∃ r, verifyAll X d key = some r ∧ r.ok = true) (hholds : Holds X d' L')
    (hsuf : L'.entries <:+ L.entries) : ∃ r, verifyAll X d' key = some r ∧ r.ok = true := by
  obtain ⟨hread, hanch⟩ := (h.verifyAll_iff key).mp hok
  have hord := (h.holds.of_verifyAll_ok h.inOrder h.pos hok).2
  have hstart := (hholds.pairwise_seqStart (hord.sublist hsuf.sublist).sorted).imp Nat.le_of_lt
  obtain ⟨r, hr, hiff, -⟩ :=
    hholds.verifyAll_spec hstart (fun e he => h.pos e (hsuf.subset he)) key
  exact ⟨r, hr, hiff.mpr
    ⟨fun e he => hread e (hsuf.subset he), hanch.of_suffix h.pos hsuf⟩⟩

/-- A sweep that seals, keeps no segment or prunes nothing. -/
theorem AuditDir.sweepSound (h : AuditDir X s.disk L)
    (hok : ∃ r, verifyAll X s.disk key = some r ∧ r.ok = true)
    (hts : (recorded X s.disk).Pairwise (·.ts ≤ ·.ts)) {cfg : RotateConfig} {retainDays : Nat}
    (hdays : 1 ≤ retainDays) {clk : RotateClock} {enforceNow pruneNow : DateTime}
    (hcond : s.RotationSeals X cfg clk.age ∨
      (∀ seg ∈ (loadManifest s.disk).segments, seg.tsLast < enforceNow - days retainDays) ∨
      ∀ e ∈ entriesIn X (s.disk.readLog.getD []), pruneNow - days retainDays ≤ e.ts) :
    SweepSound X s key cfg retainDays clk enforceNow pruneNow := by
  obtain ⟨hread, hord⟩ := h.holds.of_verifyAll_ok h.inOrder h.pos hok
  obtain ⟨d₁, L₁, s₂, s₃, hrun₂, hrun₃, hholds₁, hdir₂, hholds₃, hentries, hcases⟩ :=
    h.sweep hord.sorted cfg hdays clk enforceNow pruneNow
  rw [h.holds.recorded_of_readable hread hord.sorted] at hts
  -- Either no segment stands before the active file, or none of its lines goes.
  have hfront : (L₁.expireSegments (enforceNow - days retainDays)).sealed = [] ∨
      (L₁.expireSegments (enforceNow - days retainDays)).active.filter
        (expired (pruneNow - days retainDays)) = [] := by
    rcases hcases with ⟨-, hactive⟩ | ⟨hnot, rfl⟩
    · right
      rw [Layout.expireSegments, hactive, List.filter_nil]
    -- What was sealed, what expired in segments, what is too young.
    rcases hcond with hseals | hsegs | hyoung
    · exact absurd hseals hnot
    · left
      refine List.filter_eq_nil_iff.mpr fun p hp => ?_
      have hold := hsegs p.1 (h.holds.manifest ▸ List.mem_map_of_mem hp)
      simp only [decide_eq_true hold, Bool.not_true, Bool.false_eq_true, not_false_eq_true]
    · right
      refine List.filter_eq_nil_iff.mpr fun e he hexp => ?_
      rw [expired, Bool.and_eq_true, decide_eq_true_eq] at hexp
      have hin : e ∈ entriesIn X (s.disk.readLog.getD []) := by
        rw [h.holds.readLog, Option.getD_some, entriesIn_logText]
        exact List.mem_filter.mpr ⟨he, hexp.1⟩
      exact absurd hexp.2 (not_lt.mpr (hyoung e hin))
  have hread₁ : ∀ e ∈ L₁.entries, e.readable = true := hentries ▸ hread
  have hts₁ : L₁.entries.Pairwise (·.ts ≤ ·.ts) := hentries ▸ hts
  have hord₁ : L₁.Ordered := hord.sublist (by rw [hentries])
  -- The segments that go are a front of the entries, by the times.
  obtain ⟨gone₂, hsplit₂, hold₂⟩ :=
    hholds₁.split_expireSegments hread₁ hts₁ (enforceNow - days retainDays)
  have hsuf₂ : (L₁.expireSegments (enforceNow - days retainDays)).entries <:+ L₁.entries :=
    ⟨gone₂, hsplit₂.symm⟩
  have hread₂ := fun e he => hread₁ e (hsuf₂.subset he)
  have hord₂ := hord₁.sublist hsuf₂.sublist
  -- What goes of the active log is then the front of the rest.
  obtain ⟨gone₃, hsplit₃, hold₃⟩ :=
    Layout.split_expireActive hread₂ (hts₁.sublist hsuf₂.sublist) hfront
  have hsuf₃ := List.suffix_append gone₃
    ((L₁.expireSegments (enforceNow - days retainDays)).expireActive
      (pruneNow - days retainDays)).entries
  rw [← hsplit₃] at hsuf₃
  refine ⟨s₂, s₃, hrun₂, hrun₃, ⟨gone₂, ?_, hold₂⟩, ⟨gone₃, ?_, hold₃⟩, ?_⟩
  · rw [h.holds.recorded_of_readable hread hord.sorted,
      hdir₂.holds.recorded_of_readable hread₂ hord₂.sorted, ← hentries, hsplit₂]
  · rw [hdir₂.holds.recorded_of_readable hread₂ hord₂.sorted,
      hholds₃.recorded_of_readable (fun e he => hread₂ e (hsuf₃.subset he))
        (hord₂.sublist hsuf₃.sublist).sorted, hsplit₃]
  -- A suffix of a log that was accepted is accepted.
  · exact h.verifyAll_of_suffix hok hholds₃ (hentries ▸ hsuf₃.trans hsuf₂)

/-- A sweep that keeps a segment and prunes after it. -/
theorem AuditDir.not_sweepSound (h : AuditDir X s.disk L)
    (hok : ∃ r, verifyAll X s.disk key = some r ∧ r.ok = true) {cfg : RotateConfig}
    {retainDays : Nat} (hdays : 1 ≤ retainDays) {clk : RotateClock}
    {enforceNow pruneNow : DateTime} (hnot : ¬ s.RotationSeals X cfg clk.age)
    (hseg : ∃ seg ∈ (loadManifest s.disk).segments, enforceNow - days retainDays ≤ seg.tsLast)
    (hold : ∃ e ∈ entriesIn X (s.disk.readLog.getD []), e.ts < pruneNow - days retainDays) :
    ¬ SweepSound X s key cfg retainDays clk enforceNow pruneNow := by
  obtain ⟨hread, hord⟩ := h.holds.of_verifyAll_ok h.inOrder h.pos hok
  obtain ⟨-, L₁, s₂, s₃, hrun₂, hrun₃, -, hdir₂, hholds₃, -, hcases⟩ :=
    h.sweep hord.sorted cfg hdays clk enforceNow pruneNow
  -- Nothing is rotated here.
  obtain ⟨-, rfl⟩ := hcases.resolve_left fun hseals => hnot hseals.1
  have hsub₂ := L₁.expireSegments_sublist (enforceNow - days retainDays)
  have hsub₃ := (L₁.expireSegments (enforceNow - days retainDays)).expireActive_sublist
    (pruneNow - days retainDays)
  have hord₂ := Layout.Ordered.sublist hord hsub₂
  rintro ⟨t₂, t₃, ht₂, ht₃, -, ⟨gone, hsplit, -⟩, -⟩
  obtain rfl : s₂ = t₂ := Option.some.inj (hrun₂.symm.trans ht₂)
  obtain rfl : s₃ = t₃ := Option.some.inj (hrun₃.symm.trans ht₃)
  rw [hdir₂.holds.recorded_of_readable (fun e he => hread e (hsub₂.subset he)) hord₂.sorted,
    hholds₃.recorded_of_readable (fun e he => hread e (hsub₂.subset (hsub₃.subset he)))
      (hord₂.sublist hsub₃).sorted] at hsplit
  -- A segment that stays and a line that goes: what is left is no suffix.
  refine hdir₂.holds.not_prefix_expireActive hord₂ ?_ ?_ gone hsplit
  · obtain ⟨seg, hseg, hkept⟩ := hseg
    rw [h.holds.manifest] at hseg
    obtain ⟨p, hp, rfl⟩ := List.mem_map.mp hseg
    exact List.ne_nil_of_mem (List.mem_filter.mpr ⟨hp, by simpa using hkept⟩)
  · obtain ⟨e, he, hts⟩ := hold
    rw [h.holds.readLog, Option.getD_some, entriesIn_logText] at he
    obtain ⟨he, hread⟩ := List.mem_filter.mp he
    refine List.ne_nil_of_mem (a := e) (List.mem_filter.mpr ⟨he, ?_⟩)
    rw [expired, hread, Bool.true_and, decide_eq_true_eq]
    exact hts

end Sweeps

/-- **A sweep.**  On a directory that verifies, with the entries in the order of time,
    a sweep removes old entries from the front and leaves a directory that verifies
    exactly when its rotation seals the active file, no segment is kept, or no entry
    of the active file is older than the later cutoff. -/
theorem sweep_sound_iff {s : Sys} {L : Layout} (hdir : AuditDir X s.disk L) {key : Bytes}
    (hok : ∃ r, verifyAll X s.disk key = some r ∧ r.ok = true)
    (hts : (recorded X s.disk).Pairwise (·.ts ≤ ·.ts)) (cfg : RotateConfig) {retainDays : Nat}
    (hdays : 1 ≤ retainDays) (clk : RotateClock) (enforceNow pruneNow : DateTime) :
    SweepSound X s key cfg retainDays clk enforceNow pruneNow ↔
      s.RotationSeals X cfg clk.age ∨
      (∀ seg ∈ (loadManifest s.disk).segments, seg.tsLast < enforceNow - days retainDays) ∨
      ∀ e ∈ entriesIn X (s.disk.readLog.getD []), pruneNow - days retainDays ≤ e.ts := by
  constructor
  · intro hsound
    by_contra hnone
    push Not at hnone
    obtain ⟨hnot, hseg, hold⟩ := hnone
    exact hdir.not_sweepSound hok hdays hnot hseg hold hsound
  · exact hdir.sweepSound hok hts hdays

theorem readable_twoEntries : ∀ e ∈ (twoEntries X).written, e.readable = true := by
  intro e he
  rcases List.mem_pair.mp he with rfl | rfl <;> rfl

theorem sweep_sound_iff_twoEntries :
    SweepSound External.sample (twoEntries External.sample) (twoEntries External.sample).log.key
        anySize 1 newYearClock (days 1) (days 1) ↔
      (twoEntries External.sample).RotationSeals External.sample anySize newYear ∨
      (∀ seg ∈ (loadManifest (twoEntries External.sample).disk).segments,
        seg.tsLast < days 1 - days 1) ∨
      ∀ e ∈ entriesIn External.sample ((twoEntries External.sample).disk.readLog.getD []),
        days 1 - days 1 ≤ e.ts := by
  have h := complete_twoEntries (X := External.sample)
  obtain ⟨r, hr, hok, -⟩ := h.verifyAll_ok readable_twoEntries
  refine sweep_sound_iff (h.auditDir rfl) ⟨r, hr, hok⟩ ?_ anySize le_rfl newYearClock _ _
  rw [h.holds.recorded_of_readable (h.entries_eq ▸ readable_twoEntries) h.sorted, h.entries_eq]
  exact List.pairwise_pair.mpr (by decide)

/-- An entry in a segment, and one of the same time after it. -/
theorem exists_sealed_then_active :
    ∃ s L, Complete X s L ∧ s.disk.tmp = none ∧ (∀ e ∈ s.written, e.readable = true ∧ e.ts = 0) ∧
      L.sealed ≠ [] ∧ L.active ≠ [] := by
  -- One entry sealed by a rotation of any size, and one behind it.
  have hfirst := complete_firstLayout (X := X) zeroKey (stopAt 0)
  obtain ⟨due, hdue⟩ := rotateDue_firstLayout (X := X) zeroKey 0 newYear
  obtain ⟨r, disk, log, L, hrot, hinv, hentries, hatt, hactive⟩ :=
    hfirst.rotateLocked anySize newYearClock
  have hr : r.isSome = true := by
    rw [rotateLocked, show newYearClock.age = newYear from rfl, hdue, Option.map_some] at hrot
    obtain ⟨rfl, -⟩ := Prod.mk.inj (Option.some.inj hrot)
    rfl
  have htmp := (rotateLocked_frame X hrot).1
  -- The second entry goes to the file that was emptied.
  have hsecond := hinv.wrote_attached (hatt hfirst.attached) (stopAt 0)
  have hwritten := hentries.trans hfirst.entries_eq
  refine ⟨_, _, ⟨hsecond, hatt hfirst.attached, ?_⟩, htmp, ?_, ?_, ?_⟩
  · rw [Layout.entries, ← List.append_assoc]
    exact congrArg (· ++ _) hwritten
  · intro e he
    rcases List.mem_append.mp he with he | he
    · obtain rfl := List.mem_singleton.mp he
      exact ⟨rfl, rfl⟩
    · obtain rfl := List.mem_singleton.mp he
      have hseq : log.seq = 1 := hinv.seq
      have hkind : (stopAt 0).event.kind ≠ .workspaceShredded := by decide
      have hlt : (nextEntry X log (stopAt 0)).seq < 2 ^ 64 := by
        simp [nextEntry, chainEntry, hseq]
      exact ⟨AuditEntry.readable_iff.mpr ⟨hkind, hlt⟩, rfl⟩
  · intro hnil
    rw [Layout.entries, hactive hr, List.append_nil, Layout.archived, hnil] at hwritten
    cases hwritten
  · simp

/-- The two clocks of a sweep one nanosecond apart: the segment is kept and the
    entry after it goes. -/
theorem not_sweepSound_clocks :
    ¬ ∀ (s : Sys) (L : Layout), AuditDir External.sample s.disk L → ∀ key : Bytes,
      (∃ r, verifyAll External.sample s.disk key = some r ∧ r.ok = true) →
      (recorded External.sample s.disk).Pairwise (·.ts ≤ ·.ts) →
      ∀ (cfg : RotateConfig) (retainDays : Nat), 1 ≤ retainDays → ∀ (clk : RotateClock)
        (enforceNow pruneNow : DateTime), enforceNow ≤ pruneNow →
        SweepSound External.sample s key cfg retainDays clk enforceNow pruneNow := by
  intro hall
  obtain ⟨s, L, h, htmp, hwritten, hsealed, hactive⟩ :=
    exists_sealed_then_active (X := External.sample)
  have hread : ∀ e ∈ s.written, e.readable = true := fun e he => (hwritten e he).1
  have hentries : ∀ e ∈ L.entries, e.readable = true ∧ e.ts = 0 := h.entries_eq ▸ hwritten
  obtain ⟨r, hr, hok, -⟩ := h.verifyAll_ok hread
  have hdir := h.auditDir htmp
  have hnot : ¬ s.RotationSeals External.sample rotateOff newYearClock.age := by
    simp [Sys.RotationSeals, rotateOff]
  have htimed : (recorded External.sample s.disk).Pairwise (·.ts ≤ ·.ts) := by
    rw [h.holds.recorded_of_readable (fun e he => (hentries e he).1) h.sorted]
    refine List.pairwise_of_forall_mem_list fun e he f hf => ?_
    rw [(hentries e he).2, (hentries f hf).2]
  -- Between the two clocks the segment is still kept, and the active line is not.
  have hsound := hall s L hdir s.log.key ⟨r, hr, hok⟩ htimed rotateOff 1 le_rfl newYearClock
    (days 1) (days 1 + 1) (by simp)
  refine hdir.not_sweepSound ⟨r, hr, hok⟩ le_rfl hnot ?_ ?_ hsound
  · obtain ⟨p, ps, hps⟩ := List.exists_cons_of_ne_nil hsealed
    have hp : p ∈ L.sealed := hps ▸ List.mem_cons_self ..
    obtain ⟨-, last, -, hlast, -, -, -, -, hts⟩ := (h.holds.sealed p hp).exists_ends
    have hmem := List.mem_of_mem_filter (List.mem_of_getLast? hlast)
    refine ⟨p.1, h.holds.manifest ▸ List.mem_map_of_mem hp, ?_⟩
    rw [hts, (hentries last (List.mem_append_left _ (Layout.mem_archived hp hmem))).2]
    decide
  · obtain ⟨e, he⟩ := List.exists_mem_of_ne_nil _ hactive
    obtain ⟨heread, hts⟩ := hentries e (List.mem_append_right _ he)
    refine ⟨e, ?_, ?_⟩
    · rw [h.holds.readLog, Option.getD_some, entriesIn_logText]
      exact List.mem_filter.mpr ⟨he, heread⟩
    · rw [hts]
      decide

end Maranode.Audit
