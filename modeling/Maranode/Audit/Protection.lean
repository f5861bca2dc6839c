/-
  Maranode.Audit.Protection

  Retention against legal holds and a frozen log.

  The retention paths look at timestamps only; neither `is_seq_held` nor
  `audit_frozen` is asked anywhere on them.  What they remove is therefore spared
  exactly when it happens to be young enough.  The runs here are arbitrary: a
  restart may find any part of what was written, so all that is kept of the order
  of the log is the order of the entries that read back (`Tidy`).
-/
import Maranode.Api.LegalHold
import Maranode.Audit.System

namespace Maranode.Audit

open Lib Common Api

variable {X : External}

/-! ## Opening any log -/

theorem seq_le_of_getLast? {es : List AuditEntry} (h : es.Pairwise (·.seq < ·.seq))
    {e f : AuditEntry} (hf : es.getLast? = some f) (he : e ∈ es) : e.seq ≤ f.seq := by
  obtain ⟨ys, rfl⟩ := List.getLast?_eq_some_iff.mp hf
  rcases List.mem_append.mp he with he | he
  · exact Nat.le_of_lt ((List.pairwise_append.mp h).2.2 e he f (List.mem_singleton_self f))
  · rw [List.mem_singleton.mp he]

/-- Where `scan_tail` leaves off, no readable entry has a greater number. -/
theorem Holds.scanTail_bound {d : Disk} {L : Layout} (h : Holds X d L) (hs : L.Sorted)
    (hpos : ∀ e ∈ L.entries, e.readable = true → 0 < e.seq) :
    ∃ tail, scanTail X d = some tail ∧
      ∀ e ∈ L.entries, e.readable = true → e.seq ≤ tail.1 := by
  rw [h.scanTail_eq]
  dsimp only
  have hsorted := hs
  rw [Layout.Sorted, Layout.entries, List.filter_append] at hsorted
  obtain ⟨harch, hact, hlt⟩ := List.pairwise_append.mp hsorted
  rcases htail : (L.active.filter (·.readable)).getLast? with - | f
  · -- Nothing readable in the active file: the manifest is asked.
    have hnone := List.getLast?_eq_none_iff.mp htail
    refine ⟨_, rfl, fun e he hread => ?_⟩
    have hmem : e ∈ L.archived.filter (·.readable) := by
      have hmem : e ∈ (L.archived ++ L.active).filter (·.readable) :=
        List.mem_filter.mpr ⟨he, hread⟩
      rwa [List.filter_append, hnone, List.append_nil] at hmem
    obtain ⟨hmem, -⟩ := List.mem_filter.mp hmem
    obtain ⟨p, hp, hep⟩ := List.mem_flatMap.mp hmem
    simp only [htail, Option.map_none, Option.getD_none, if_true]
    -- The greatest end that the manifest names is at least that of this segment.
    rcases exists_maxBySeqEnd (L.sealed.map Prod.fst) with ⟨hnil, -⟩ | ⟨b, -, hb, hle⟩
    · rw [List.map_eq_nil_iff.mp hnil] at hp
      cases hp
    · obtain ⟨first, last, -, hlast, -, -, hend, -⟩ := (h.sealed p hp).exists_ends
      have hpair : (p.2.filter (·.readable)).Pairwise (·.seq < ·.seq) := by
        rw [Layout.archived, List.filter_flatMap] at harch
        exact (List.pairwise_flatMap.mp harch).1 p hp
      have hseq := seq_le_of_getLast? hpair hlast (List.mem_filter.mpr ⟨hep, hread⟩)
      have hmax := hle p.1 (List.mem_map_of_mem hp)
      rw [recoverTail, h.manifest, hb]
      simp only [Option.map_some, Option.getD_some]
      omega
  -- The last readable entry of the active file is behind all others.
  · obtain ⟨hf, hfread⟩ := List.mem_filter.mp (List.mem_of_getLast? htail)
    have hfpos := hpos f (List.mem_append_right _ hf) hfread
    simp only [htail, Option.map_some, Option.getD_some, if_neg (Nat.ne_of_gt hfpos)]
    refine ⟨_, rfl, fun e he hread => ?_⟩
    rcases List.mem_append.mp he with he | he
    · exact Nat.le_of_lt (hlt e (List.mem_filter.mpr ⟨he, hread⟩) f (List.mem_of_getLast? htail))
    · exact seq_le_of_getLast? hact htail (List.mem_filter.mpr ⟨he, hread⟩)

/-! ## What every run keeps -/

variable (X) in
/-- The directory holds a layout whose readable entries are in order, none of them
    ahead of the handle. -/
structure Tidy (s : Sys) (L : Layout) : Prop where
  holds : Holds X s.disk L
  sorted : L.Sorted
  bounds : ∀ e ∈ L.entries, e.readable = true → 0 < e.seq ∧ e.seq ≤ s.log.seq
  key : s.disk.key = some s.log.key
  keyLen : s.log.key.length = keyLen
  tmp : s.disk.tmp = none

theorem tidy_freshSys (rand : RandomKey) : Tidy X (freshSys rand) Layout.empty where
  holds := (inv_freshSys (X := X) rand).holds
  sorted := (inv_freshSys (X := X) rand).sorted
  bounds := by simp [Layout.empty, Layout.entries, Layout.archived]
  key := rfl
  keyLen := rand.2
  tmp := rfl

section Steps

variable {s : Sys} {L : Layout}

/-- A directory with fewer entries and the same key. -/
theorem Tidy.with_disk (h : Tidy X s L) {d : Disk} {L' : Layout} (hholds : Holds X d L')
    (hsub : L'.entries.Sublist L.entries) (hkey : d.key = s.disk.key) (htmp : d.tmp = none) :
    Tidy X { s with disk := d } L' where
  holds := hholds
  sorted := h.sorted.sublist hsub
  bounds := fun e he => h.bounds e (hsub.subset he)
  key := hkey.trans h.key
  keyLen := h.keyLen
  tmp := htmp

theorem Tidy.rotateLocked (h : Tidy X s L) (cfg : RotateConfig) (clk : RotateClock) :
    ∃ r disk log L', rotateLocked X s.disk s.log cfg clk = some (r, disk, log) ∧
      Tidy X { s with disk, log } L' ∧ L'.entries = L.entries := by
  obtain ⟨i, hi, -⟩ := h.holds.log
  rcases h.holds.rotateLocked_cases h.sorted hi s.log cfg clk with hr | ⟨seg, bs, hr, hholds⟩
  · exact ⟨none, s.disk, s.log, L, hr, h, rfl⟩
  · have htidy := h.with_disk hholds (L.seal_sublist seg) (rotated_frame hi bs seg).1
      ((rotateLocked_frame X hr).1.trans h.tmp)
    exact ⟨_, _, _, L.seal seg, hr,
      ⟨htidy.holds, htidy.sorted, htidy.bounds, htidy.key, htidy.keyLen, htidy.tmp⟩,
      L.entries_seal seg⟩

/-- A line goes to the end of the active file, or where no reader looks. -/
theorem Tidy.wrote (h : Tidy X s L) (a : AppendInput) :
    ∃ L', Tidy X (s.wrote X a) L' ∧ L.entries.Sublist L'.entries := by
  have hgrow : ∀ e ∈ L.entries, e.readable = true → 0 < e.seq ∧ e.seq ≤ s.log.seq + 1 :=
    fun e he hr => ⟨(h.bounds e he hr).1, (h.bounds e he hr).2.trans (Nat.le_succ _)⟩
  obtain ⟨i, hi, -⟩ := h.holds.log
  by_cases hatt : s.Attached
  · have hentries : Layout.entries { L with active := L.active ++ [nextEntry X s.log a] }
        = L.entries ++ [nextEntry X s.log a] := by
      simp [Layout.entries, Layout.archived]
    refine ⟨_, ⟨h.holds.write hatt _, ?_, ?_, h.key, h.keyLen, h.tmp⟩, ?_⟩
    · rw [Layout.Sorted, hentries, List.filter_append, List.pairwise_append]
      refine ⟨h.sorted, List.Pairwise.sublist List.filter_sublist (List.pairwise_singleton ..), ?_⟩
      intro e he f hf
      obtain ⟨he, hread⟩ := List.mem_filter.mp he
      obtain rfl := List.mem_singleton.mp (List.mem_filter.mp hf).1
      exact Nat.lt_succ_of_le (h.bounds e he hread).2
    · rw [hentries]
      intro e he hread
      rcases List.mem_append.mp he with he | he
      · exact hgrow e he hread
      · obtain rfl := List.mem_singleton.mp he
        exact ⟨Nat.succ_pos _, Nat.le_refl _⟩
    · rw [hentries]
      exact List.sublist_append_left _ _
  · have hne : s.log.file ≠ i := by
      rintro rfl
      exact hatt hi
    exact ⟨L, ⟨h.holds.write_detached hi hne _, h.sorted, hgrow, h.key, h.keyLen, h.tmp⟩,
      List.Sublist.refl _⟩

theorem Tidy.step_append (h : Tidy X s L) (a : AppendInput) (clk : RotateClock) :
    ∃ s' L', Sys.step X s (.append a clk) = some s' ∧ Tidy X s' L' ∧
      L.entries.Sublist L'.entries := by
  obtain ⟨L₁, htidy, hsub⟩ := h.wrote a
  by_cases hmax : 0 < s.log.rotate.maxBytes
  · obtain ⟨r, disk, log, L₂, hrot, htidy₂, hentries⟩ :=
      htidy.rotateLocked { maxBytes := s.log.rotate.maxBytes, maxAgeDays := 0 } clk
    refine ⟨_, L₂, ?_, htidy₂, hentries ▸ hsub⟩
    rw [Sys.step, append_of_rotateLocked X hmax hrot]
    rfl
  · refine ⟨s.wrote X a, L₁, ?_, htidy, hsub⟩
    rw [Sys.step, append_of_maxBytes_eq_zero X a clk hmax]
    rfl

theorem Tidy.step_maybeRotate (h : Tidy X s L) (cfg : RotateConfig) (clk : RotateClock) :
    ∃ s' L', Sys.step X s (.maybeRotate cfg clk) = some s' ∧ Tidy X s' L' ∧
      L'.entries = L.entries := by
  rw [Sys.step, maybeRotate]
  split_ifs with hcfg
  · exact ⟨s, L, rfl, h, rfl⟩
  · obtain ⟨r, disk, log, L', hrot, htidy, hentries⟩ := h.rotateLocked cfg clk
    exact ⟨_, L', by rw [hrot]; rfl, htidy, hentries⟩

theorem Tidy.step_enforce (h : Tidy X s L) (retainDays : Nat) (now : DateTime) :
    Tidy X { s with disk := (enforceSegmentRetention s.disk retainDays now).1 }
      (L.afterEnforce retainDays now) := by
  rw [Layout.afterEnforce]
  split_ifs with hdays
  · rw [enforceSegmentRetention, if_pos hdays]
    exact h
  · have hholds := h.holds.enforceSegmentRetention h.sorted hdays now
    obtain ⟨f, m, hframe⟩ := enforceSegmentRetention_frame s.disk retainDays now
    rw [hframe] at hholds ⊢
    exact h.with_disk hholds (L.expireSegments_sublist _) rfl h.tmp

theorem Tidy.step_prune (h : Tidy X s L) (retainDays : Nat) (now : DateTime) :
    ∃ s', Sys.step X s (.pruneLog retainDays now) = some s' ∧
      Tidy X s' (L.afterPrune retainDays now) := by
  rw [Sys.step, Layout.afterPrune]
  split_ifs with hdays
  · have hnone : pruneLog X s.disk retainDays now = none := by
      simp [pruneLog, pruneRead, hdays]
    rw [hnone]
    exact ⟨s, rfl, h⟩
  · rcases h.holds.pruneLog_cases h.tmp hdays now with ⟨hL, hp⟩ | ⟨n, bs, hp, hholds⟩
    · rw [hp, hL]
      exact ⟨_, rfl, h⟩
    · rw [hp]
      exact ⟨_, rfl, h.with_disk hholds (L.expireActive_sublist _) rfl h.tmp⟩

theorem Tidy.step_restart (h : Tidy X s L) (rand : RandomKey) :
    ∃ s', Sys.step X s (.restart rand) = some s' ∧ Tidy X s' L := by
  obtain ⟨i, hi, -⟩ := h.holds.log
  obtain ⟨⟨q, tag⟩, hscan, hbound⟩ :=
    h.holds.scanTail_bound h.sorted fun e he hr => (h.bounds e he hr).1
  have hload : loadOrGenerate s.disk rand = some (s.log.key, s.disk) := by
    simp [loadOrGenerate, loadKey, h.key, h.keyLen]
  rw [Sys.step, openLog, hload, Option.bind_some]
  simp only [hscan, Option.map_some, h.holds.openAppend hi]
  exact ⟨_, rfl, h.holds, h.sorted, fun e he hr => ⟨(h.bounds e he hr).1, hbound e he hr⟩,
    h.key, h.keyLen, h.tmp⟩

end Steps

/-! ## What retention removes -/

variable (X) in
/-- The lines that are past retention: those of segments that end before the cutoff,
    and those of the active file that are older. -/
def Op.expiredLines (d : Disk) : Op → List Text
  | .enforceSegmentRetention retainDays now =>
      if retainDays = 0 then []
      else ((loadManifest d).segments.filter (·.tsLast < now - days retainDays)).flatMap
        fun seg => contentLines ((readSegment X d seg).getD [])
  | .pruneLog retainDays now =>
      if retainDays = 0 then []
      else (contentLines (d.readLog.getD [])).filter (isPruned X (now - days retainDays))
  | _ => []

theorem count_flatMap_filter {β : Type} (f : β → List Text) (q : β → Bool) (l : Text)
    (ps : List β) :
    ((ps.filter q).flatMap f).count l + ((ps.filter fun p => !q p).flatMap f).count l
      = (ps.flatMap f).count l := by
  rw [← List.count_append, ← List.flatMap_append]
  exact ((List.filter_append_perm q ps).flatMap_right f).count_eq l

theorem Holds.count_stored_eq {d : Disk} {L : Layout} (h : Holds X d L) (l : Text) :
    (stored X d).count l = (L.sealed.flatMap fun p => p.2.map (·.toText X)).count l +
      (L.active.map (·.toText X)).count l := by
  rw [h.stored_eq, Layout.entries, List.map_append, List.count_append, Layout.archived,
    List.map_flatMap]

section Removal

variable {s s' : Sys} {L : Layout}

/-- Segment retention removes what is past it, and nothing else. -/
theorem Tidy.count_enforce (h : Tidy X s L) {retainDays : Nat} {now : DateTime}
    (hs' : Sys.step X s (.enforceSegmentRetention retainDays now) = some s') (l : Text) :
    ((Op.enforceSegmentRetention retainDays now).expiredLines X s.disk).count l +
      (stored X s'.disk).count l = (stored X s.disk).count l := by
  obtain rfl := Option.some.inj hs'
  rw [(h.step_enforce retainDays now).holds.count_stored_eq, h.holds.count_stored_eq,
    Op.expiredLines, Layout.afterEnforce]
  split_ifs with hdays
  · simp
  · have hexpired :
        ((loadManifest s.disk).segments.filter (·.tsLast < now - days retainDays)).flatMap
          (fun seg => contentLines ((readSegment X s.disk seg).getD []))
        = (L.sealed.filter fun p => decide (p.1.tsLast < now - days retainDays)).flatMap
            fun p => p.2.map (·.toText X) := by
      rw [h.holds.manifest, List.filter_map, List.flatMap_map]
      refine List.flatMap_congr fun p hp => ?_
      rw [(h.holds.sealed p (List.mem_of_mem_filter hp)).content, Option.getD_some,
        contentLines_logText]
    rw [hexpired, Layout.expireSegments, ← Nat.add_assoc, count_flatMap_filter]

/-- Pruning removes what is past retention, and nothing else. -/
theorem Tidy.count_prune (h : Tidy X s L) {retainDays : Nat} {now : DateTime}
    (hs' : Sys.step X s (.pruneLog retainDays now) = some s') (l : Text) :
    ((Op.pruneLog retainDays now).expiredLines X s.disk).count l +
      (stored X s'.disk).count l = (stored X s.disk).count l := by
  obtain ⟨t, ht, htidy⟩ := h.step_prune retainDays now
  obtain rfl : s' = t := Option.some.inj (hs'.symm.trans ht)
  rw [htidy.holds.count_stored_eq, h.holds.count_stored_eq, Op.expiredLines, Layout.afterPrune]
  split_ifs with hdays
  · simp
  · have hpruned : isPruned X (now - days retainDays) ∘ (·.toText X)
        = expired (now - days retainDays) := funext fun e => isPruned_toText X _ e
    have hsplit : ((L.active.filter (expired (now - days retainDays))).map (·.toText X)).count l +
        ((L.active.filter fun e => !expired (now - days retainDays) e).map (·.toText X)).count l
          = (L.active.map (·.toText X)).count l := by
      rw [List.map_eq_flatMap, List.map_eq_flatMap, List.map_eq_flatMap]
      exact count_flatMap_filter _ _ l _
    rw [h.holds.readLog, Option.getD_some, contentLines_logText, List.filter_map, hpruned,
      Layout.expireActive]
    dsimp only
    omega

theorem count_stored_le {t : Sys} {L L' : Layout} (h : Holds X s.disk L) (h' : Holds X t.disk L')
    (hsub : L.entries.Sublist L'.entries) (l : Text) :
    (stored X s.disk).count l ≤ (stored X t.disk).count l := by
  rw [h.stored_eq, h'.stored_eq]
  exact (hsub.map _).count_le l

/-- **What an operation removes.**  Of the lines with one text, none goes exactly when
    that text is not past retention. -/
theorem Tidy.count_le_iff (h : Tidy X s L) {op : Op} (hs' : Sys.step X s op = some s')
    (l : Text) :
    (stored X s.disk).count l ≤ (stored X s'.disk).count l ↔ l ∉ op.expiredLines X s.disk := by
  have hzero := List.count_eq_zero (a := l) (l := op.expiredLines X s.disk)
  -- Only the two retentions remove lines; the others move or add them.
  cases op with
  | append a clk =>
      obtain ⟨t, L', ht, htidy, hsub⟩ := h.step_append a clk
      obtain rfl : s' = t := Option.some.inj (hs'.symm.trans ht)
      exact iff_of_true (count_stored_le h.holds htidy.holds hsub l) (List.not_mem_nil)
  | setRotation cfg =>
      obtain rfl := Option.some.inj hs'
      exact iff_of_true (Nat.le_refl _) (List.not_mem_nil)
  | maybeRotate cfg clk =>
      obtain ⟨t, L', ht, htidy, hentries⟩ := h.step_maybeRotate cfg clk
      obtain rfl : s' = t := Option.some.inj (hs'.symm.trans ht)
      exact iff_of_true (count_stored_le h.holds htidy.holds (by rw [hentries]) l)
        (List.not_mem_nil)
  | enforceSegmentRetention retainDays now =>
      have hcount := h.count_enforce hs' l
      rw [← hzero]
      omega
  | pruneLog retainDays now =>
      have hcount := h.count_prune hs' l
      rw [← hzero]
      omega
  | restart rand =>
      obtain ⟨t, ht, htidy⟩ := h.step_restart rand
      obtain rfl : s' = t := Option.some.inj (hs'.symm.trans ht)
      exact iff_of_true (count_stored_le h.holds htidy.holds (List.Sublist.refl _) l)
        (List.not_mem_nil)

/-- **One step**, whatever the operation. -/
theorem Tidy.step (h : Tidy X s L) (op : Op) :
    ∃ s', Sys.step X s op = some s' ∧ ∃ L', Tidy X s' L' := by
  cases op with
  | append a clk =>
      obtain ⟨s', L', hs', htidy, -⟩ := h.step_append a clk
      exact ⟨s', hs', L', htidy⟩
  | setRotation cfg =>
      exact ⟨_, rfl, L, h.holds, h.sorted, h.bounds, h.key, h.keyLen, h.tmp⟩
  | maybeRotate cfg clk =>
      obtain ⟨s', L', hs', htidy, -⟩ := h.step_maybeRotate cfg clk
      exact ⟨s', hs', L', htidy⟩
  | enforceSegmentRetention retainDays now => exact ⟨_, rfl, _, h.step_enforce retainDays now⟩
  | pruneLog retainDays now =>
      obtain ⟨s', hs', htidy⟩ := h.step_prune retainDays now
      exact ⟨s', hs', _, htidy⟩
  | restart rand =>
      obtain ⟨s', hs', htidy⟩ := h.step_restart rand
      exact ⟨s', hs', L, htidy⟩

end Removal

/-! ## Holds and incidents -/

/-- What stands against a deletion at one moment: the stored holds and the daemon's
    `audit_frozen` flag. -/
structure Watch where
  holds : List HoldRecord
  auditFrozen : Bool
  now : DateTime

/-- The entry is held, or the log is frozen. -/
def Watch.protects (w : Watch) (seq : Nat) : Bool := w.auditFrozen || isSeqHeld w.holds w.now seq

variable (X) in
/-- An operation under a watch, which it does not look at. -/
def Sys.watchedStep (s : Sys) (o : Op × Watch) : Option Sys := Sys.step X s o.1

variable (X) in
/-- No line of a protected entry is removed. -/
def Spares (s : Sys) (o : Op × Watch) : Prop :=
  ∀ s', Sys.watchedStep X s o = some s' → ∀ e ∈ s.written, o.2.protects e.seq = true →
    (stored X s.disk).count (e.toText X) ≤ (stored X s'.disk).count (e.toText X)

variable (X) in
/-- No protected entry is past retention. -/
def ProtectedYoung (s : Sys) (o : Op × Watch) : Prop :=
  ∀ e ∈ s.written, o.2.protects e.seq = true → e.toText X ∉ o.1.expiredLines X s.disk

/-- **Protection.**  No operation of a run fails, and a run spares every protected entry
    exactly when at each of its operations no protected entry is past retention. -/
theorem retention_spares_iff (rand : RandomKey) (ops : List (Op × Watch)) :
    (∃ s, Run.run (Sys.watchedStep X) (freshSys rand) ops = some s) ∧
      (Run.Along (Sys.watchedStep X) (Spares X) (freshSys rand) ops ↔
        Run.Along (Sys.watchedStep X) (ProtectedYoung X) (freshSys rand) ops) := by
  have hfresh : ∃ L, Tidy X (freshSys rand) L := ⟨_, tidy_freshSys rand⟩
  constructor
  · have hsteps : Run.Along (Sys.watchedStep X) (fun _ _ => True) (freshSys rand) ops :=
      Run.along_of_forall (fun _ _ _ => trivial) _
    obtain ⟨s, hs, -⟩ := Run.run_invariant (I := fun s => ∃ L, Tidy X s L)
      (fun s o ⟨L, htidy⟩ _ => htidy.step o.1) hfresh hsteps
    exact ⟨s, hs⟩
  · refine Run.along_congr_of_invariant (I := fun s => ∃ L, Tidy X s L) ?_ ?_ hfresh ops
    · rintro s o s' ⟨L, htidy⟩ hs'
      obtain ⟨t, ht, htidy'⟩ := htidy.step o.1
      obtain rfl : s' = t := Option.some.inj (hs'.symm.trans ht)
      exact htidy'
    · rintro s o ⟨L, htidy⟩
      obtain ⟨s', hs', -⟩ := htidy.step o.1
      constructor
      · intro hspares e he hprot
        exact (htidy.count_le_iff hs' _).mp (hspares s' hs' e he hprot)
      · intro hyoung t ht e he hprot
        exact (htidy.count_le_iff ht _).mpr (hyoung e he hprot)

/-- A hold on the first entry. -/
def courtHold : HoldRecord where
  id := "hold-20240101000000"
  placedAt := 0
  placedBy := "counsel"
  reason := "litigation"
  seqFrom := 1
  seqTo := 1
  expiresAt := none
  holdKeyPubkey := ""
  placementSig := ""
  releasedAt := none
  releasedBy := none
  releaseSig := none
  tpmSealed := false

/-- A pruning pass removes the only entry of a log although something protects it. -/
theorem not_spares_prune {w : Watch} (hw : w.protects 1 = true) :
    ¬ Spares X ((freshSys zeroKey).wrote X (stopAt 0)) (.pruneLog 30 newYear, w) := by
  intro hspares
  have hfirst := inv_firstLayout (X := X) zeroKey (stopAt 0)
  obtain ⟨s, hs, hinv, -⟩ := hfirst.step_prune rfl 30 newYear
  have hnil : ((firstLayout X zeroKey (stopAt 0)).afterPrune 30 newYear).entries = [] := rfl
  have hmem : nextEntry X (freshLog zeroKey) (stopAt 0) ∈
      (firstLayout X zeroKey (stopAt 0)).entries := List.mem_singleton_self _
  have hafter : stored X s.disk = [] := by
    rw [hinv.holds.stored_eq, hnil]
    rfl
  have hle := hspares s hs _ (hfirst.sublist.subset hmem) hw
  rw [hafter, List.count_nil, hfirst.holds.count_stored hfirst.ordered hmem] at hle
  exact absurd hle (by decide)

/-- Neither an active hold on the entry nor a frozen log keeps it. -/
theorem prune_removes_protected_entry :
    ∃ s, Sys.run External.sample (freshSys zeroKey) [.append (stopAt 0) newYearClock] = some s ∧
      ¬ Spares External.sample s
        (.pruneLog 30 newYear, { holds := [courtHold], auditFrozen := false, now := newYear }) ∧
      ¬ Spares External.sample s
        (.pruneLog 30 newYear, { holds := [], auditFrozen := true, now := newYear }) := by
  refine ⟨_, ?_, not_spares_prune ?_, not_spares_prune rfl⟩
  · rw [Sys.run, Run.run_cons (step_append_freshSys ..), Run.run]
  · exact isSeqHeld_iff.mpr ⟨courtHold, List.mem_singleton_self _, rfl⟩

end Maranode.Audit
