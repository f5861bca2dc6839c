/-
  Maranode.Isolation.Failures

  `reconfigure` when any of its commands may fail, at every moment of it.

  A change of mode or port goes through a firewall that lets everything out, an error
  leaves the isolator at the new configuration, and the rules added before the error
  stay.  So only a reload with the recorded configuration is safe under every pattern of
  failures, and only on a machine that already has its rules.
-/
import Maranode.Isolation.Reconfigure

namespace Maranode.Isolation

open Lib.Command IsolationConfig

/-! ## Restriction -/

/-- Nothing passes `t` that does not pass `u`: every rule lets something in or out. -/
structure Tables.Restricts (t u : Tables) : Prop where
  input : u.input = .drop → t.input = .drop
  output : u.output = .drop → t.output = .drop
  forward : u.forward = .drop → t.forward = .drop
  rules : t.rules ⊆ u.rules

theorem Tables.Restricts.refl (t : Tables) : t.Restricts t := ⟨id, id, id, List.Subset.refl _⟩

theorem Tables.Restricts.trans {t u v : Tables} (h : t.Restricts u) (h' : u.Restricts v) :
    t.Restricts v :=
  ⟨h.input ∘ h'.input, h.output ∘ h'.output, h.forward ∘ h'.forward,
    List.Subset.trans h.rules h'.rules⟩

theorem Tables.setPolicy_drop_restricts (t : Tables) (chain : Chain) :
    (t.setPolicy chain .drop).Restricts t := by
  cases chain with
  | input => exact ⟨fun _ => rfl, id, id, List.Subset.refl _⟩
  | output => exact ⟨id, fun _ => rfl, id, List.Subset.refl _⟩
  | forward => exact ⟨id, id, fun _ => rfl, List.Subset.refl _⟩

/-! ## Adding a rule -/

section Adding

variable {fails : Nat → Bool} {rule : Rule} {t : Trace Tables}

theorem insertIfAbsent_of_mem (hmem : rule ∈ t.state.rules) (hrun : fails t.seen.length = false) :
    insertIfAbsent fails rule t = (true, ⟨t.state, t.seen ++ [t.state]⟩) := by
  have hcheck : Command.exec (.check rule) t.state = some t.state := if_pos hmem
  rw [insertIfAbsent, runIptables, invoke_of_some hrun hcheck]

theorem insertIfAbsent_of_notMem (hmem : rule ∉ t.state.rules)
    (hrun : fails (t.seen.length + 1) = false) :
    insertIfAbsent fails rule t =
      (true, ⟨{ t.state with rules := t.state.rules ++ [rule] },
        t.seen ++ [t.state] ++ [{ t.state with rules := t.state.rules ++ [rule] }]⟩) := by
  have hcheck : Command.exec (.check rule) t.state = none := if_neg hmem
  rw [insertIfAbsent, runIptables, invoke_of_none hcheck]
  refine invoke_of_some ?_ rfl
  rwa [List.length_append, List.length_singleton]

theorem insertIfAbsent_of_fails (hcheck : fails t.seen.length = true)
    (hrun : fails (t.seen.length + 1) = true) :
    insertIfAbsent fails rule t = (false, ⟨t.state, t.seen ++ [t.state] ++ [t.state]⟩) := by
  rw [insertIfAbsent, runIptables, invoke_of_fails hcheck]
  refine invoke_of_fails ?_
  rwa [List.length_append, List.length_singleton]

variable (fails rule t) in
/-- Whatever fails, the rule was added at the end, or nothing was. -/
theorem insertIfAbsent_state :
    (insertIfAbsent fails rule t).2.state = t.state ∨
      (insertIfAbsent fails rule t).1 = true ∧
        (insertIfAbsent fails rule t).2.state
          = { t.state with rules := t.state.rules ++ [rule] } := by
  obtain ⟨s, -, hexec, heq⟩ | ⟨-, heq⟩ :=
    invoke_cases Command.exec fails (.check rule) t
  · rw [insertIfAbsent, runIptables, heq]
    rw [Command.exec] at hexec
    split at hexec
    · exact .inl (Option.some.inj hexec).symm
    · cases hexec
  · have hadd : insertIfAbsent fails rule t
        = runIptables fails (.append rule) ⟨t.state, t.seen ++ [t.state]⟩ := by
      rw [insertIfAbsent, runIptables, heq]
    obtain ⟨s, -, hexec, heq'⟩ | ⟨-, heq'⟩ := invoke_cases Command.exec fails
      (.append rule) ⟨t.state, t.seen ++ [t.state]⟩
    · rw [hadd, runIptables, heq']
      exact .inr ⟨rfl, (Option.some.inj hexec).symm⟩
    · rw [hadd, runIptables, heq']
      exact .inl rfl

end Adding

/-! ## A reload with the recorded configuration -/

section Same

variable {fails : Nat → Bool}

/-- The output policy stays at drop through every step of a configuration. -/
theorem always_drop_exec {config : IsolationConfig} {step : Step} (h : step ∈ config.steps)
    {t : Trace Tables} (ht : t.Always fun s => s.output = .drop) :
    (step.exec fails t).2.Always fun s => s.output = .drop := by
  by_cases hon : config.mode = .disabled
  · rw [steps, hon] at h
    cases h
  · rw [steps_eq hon] at h
    rcases List.mem_append.mp h with h | h
    · obtain ⟨chain, rfl⟩ := mem_dropPolicies h
      refine Trace.Always.invoke ht fun s s' hs hexec => ?_
      obtain rfl := Option.some.inj hexec
      exact (s.setPolicy_drop_restricts chain).output hs
    · obtain ⟨rule, -, rfl⟩ := List.mem_map.mp h
      have hcheck : (runIptables fails (.check rule) t).2.Always fun s => s.output = .drop := by
        refine Trace.Always.invoke ht fun s s' hs hexec => ?_
        rw [Command.exec] at hexec
        split at hexec
        · exact Option.some.inj hexec ▸ hs
        · cases hexec
      show (insertIfAbsent fails rule t).2.Always _
      rw [insertIfAbsent]
      rcases hrun : runIptables fails (.check rule) t with ⟨_ | _, t'⟩
      · rw [hrun] at hcheck
        refine Trace.Always.invoke hcheck fun s s' hs hexec => ?_
        exact Option.some.inj hexec ▸ hs
      · rw [hrun] at hcheck
        exact hcheck

/-- The policies only get stricter, and an error adds no rule. -/
theorem runAll_dropPolicies (t : Trace Tables) :
    (runAll (Step.exec fails) t dropPolicies).2.state.Restricts t.state := by
  refine runAll_keeps (J := fun t' : Trace Tables => t'.state.Restricts t.state) ?_
    (Tables.Restricts.refl _)
  intro step hstep t' ht'
  obtain ⟨chain, rfl⟩ := mem_dropPolicies hstep
  obtain ⟨s, -, hexec, heq⟩ | ⟨-, heq⟩ := invoke_cases Command.exec fails
    (.policy chain .drop) t'
  · obtain rfl := Option.some.inj hexec
    rw [Step.exec, runIptables, heq]
    exact (Tables.setPolicy_drop_restricts _ chain).trans ht'
  · rw [Step.exec, runIptables, heq]
    exact ht'

/-- Adding rules that are there, the last one apart, adds none before an error. -/
theorem runAll_insert_restricts {rules present : List Rule} {t : Trace Tables}
    (hrules : ∀ rule ∈ rules.dropLast, rule ∈ present) (ht : t.state.rules ⊆ present)
    (herr : (runAll (Step.exec fails) t (rules.map .insertIfAbsent)).1 = false) :
    (runAll (Step.exec fails) t (rules.map .insertIfAbsent)).2.state.input = t.state.input ∧
      (runAll (Step.exec fails) t (rules.map .insertIfAbsent)).2.state.output = t.state.output ∧
      (runAll (Step.exec fails) t (rules.map .insertIfAbsent)).2.state.forward
        = t.state.forward ∧
      (runAll (Step.exec fails) t (rules.map .insertIfAbsent)).2.state.rules ⊆ present := by
  -- The induction is on the rules; the first one that fails ends the run.
  induction rules generalizing t with
  | nil => cases herr
  | cons rule rules ih =>
      rw [List.map_cons] at herr ⊢
      cases hrun : (Step.exec fails (.insertIfAbsent rule) t).1 with
      | false =>
          rw [runAll_cons_false hrun]
          obtain heq | ⟨hok, -⟩ := insertIfAbsent_state fails rule t
          · rw [Step.exec, heq]
            exact ⟨rfl, rfl, rfl, ht⟩
          · rw [Step.exec, hok] at hrun
            cases hrun
      | true =>
          rw [runAll_cons_true hrun] at herr ⊢
          -- A step that succeeded was not the last one, so its rule was there.
          cases rules with
          | nil => cases herr
          | cons rule' rules =>
              rw [List.dropLast_cons_cons] at hrules
              obtain ⟨hmem, hrest⟩ := List.forall_mem_cons.mp hrules
              obtain heq | ⟨-, heq⟩ :=
                insertIfAbsent_state fails rule t
              -- The rule was there, so nothing changed and the rest starts from the same state.
              · have h := ih (t := (insertIfAbsent fails rule t).2) hrest (heq ▸ ht) herr
                rw [heq] at h
                exact h
              -- The rule was added, and it is one that the rest does not mind.
              · have hsub : (insertIfAbsent fails rule t).2.state.rules ⊆ present := by
                  rw [heq]
                  exact List.append_subset.mpr ⟨ht, List.cons_subset.mpr ⟨hmem, List.nil_subset _⟩⟩
                have h := ih (t := (insertIfAbsent fails rule t).2) hrest hsub herr
                rw [heq] at h
                exact h

/-- On a machine that has the rules, the last one apart, an error leaves no more open. -/
theorem apply_restricts {config : IsolationConfig} (hon : config.mode ≠ .disabled)
    {t : Trace Tables} (hrules : ∀ rule ∈ config.rules.dropLast, rule ∈ t.state.rules)
    (herr : (Isolator.apply fails ⟨config⟩ t).1 = false) :
    (Isolator.apply fails ⟨config⟩ t).2.state.Restricts t.state := by
  rw [Isolator.apply, steps_eq hon, runAll_append] at herr ⊢
  have hdrop : (runAll (Step.exec fails) t dropPolicies).2.state.Restricts t.state :=
    runAll_dropPolicies t
  split at herr
  · next hok =>
      rw [if_pos hok]
      obtain ⟨hin, hout, hfwd, hsub⟩ := runAll_insert_restricts hrules hdrop.rules herr
      refine ⟨fun h => hin.trans (hdrop.input h), fun h => hout.trans (hdrop.output h),
        fun h => hfwd.trans (hdrop.forward h), hsub⟩
  · next hok =>
      rw [if_neg hok]
      exact hdrop

end Same

/-! ## Every pattern of failures -/

/-- What has to hold of a reload under one pattern of failures. -/
structure Guarded (fails : Nat → Bool) (old new : IsolationConfig) (t : Tables) : Prop where
  /-- At no moment everything is let out. -/
  closed : ∀ s ∈ (Isolator.reconfigure fails ⟨old⟩ new (Trace.start t)).2.2.seen,
    s.output ≠ .accept
  /-- An error opens nothing and leaves the old configuration on record. -/
  error : (Isolator.reconfigure fails ⟨old⟩ new (Trace.start t)).1 = false →
    (Isolator.reconfigure fails ⟨old⟩ new (Trace.start t)).2.2.state.Restricts t ∧
      (Isolator.reconfigure fails ⟨old⟩ new (Trace.start t)).2.1.config = old

theorem reconfigure_of_same {old new : IsolationConfig} (hmode : old.mode = new.mode)
    (hport : old.apiPort = new.apiPort) (fails : Nat → Bool) (t : Trace Tables) :
    Isolator.reconfigure fails ⟨old⟩ new t =
      ((Isolator.apply fails ⟨new⟩ t).1, ⟨new⟩, (Isolator.apply fails ⟨new⟩ t).2) := by
  have hflush : ¬(old.mode ≠ new.mode ∨ old.apiPort ≠ new.apiPort) := by
    rw [not_or, not_not, not_not]
    exact ⟨hmode, hport⟩
  rw [Isolator.reconfigure]
  simp only [if_neg hflush]

/-- A moment that was seen stays seen. -/
theorem mem_seen_apply {fails : Nat → Bool} {config : IsolationConfig} {t : Trace Tables}
    {s : Tables} (h : s ∈ t.seen) : s ∈ (Isolator.apply fails ⟨config⟩ t).2.seen := by
  refine runAll_keeps (J := fun t' => s ∈ t'.seen) (fun step _ t' ht' => ?_) h
  have hinvoke : ∀ (c : Command) (t : Trace Tables), s ∈ t.seen →
      s ∈ (runIptables fails c t).2.seen := by
    intro c t ht
    obtain ⟨_, -, -, heq⟩ | ⟨-, heq⟩ :=
      invoke_cases Command.exec fails c t
    · rw [runIptables, heq]
      exact List.mem_append_left _ ht
    · rw [runIptables, heq]
      exact List.mem_append_left _ ht
  cases step with
  | runIptables c => exact hinvoke c t' ht'
  | insertIfAbsent rule =>
      have hcheck := hinvoke (.check rule) t' ht'
      rw [Step.exec, insertIfAbsent]
      rcases hrun : runIptables fails (.check rule) t' with ⟨_ | _, t''⟩
      · rw [hrun] at hcheck
        exact hinvoke (.append rule) t'' hcheck
      · rw [hrun] at hcheck
        exact hcheck

/-- Going through `remove_rules`, everything is let out for a while. -/
theorem not_guarded_of_flush {old new : IsolationConfig}
    (h : old.mode ≠ new.mode ∨ old.apiPort ≠ new.apiPort) (t : Tables) :
    ¬ Guarded never old new t := by
  intro hguarded
  let opened : Tables := { Tables.empty with forward := t.forward }
  have hseen : opened ∈ (removeRules never (Trace.start t)).seen := by
    simp only [removeRules, runIptables_never (c := .flush) rfl,
      runIptables_never (c := .policy _ .accept) rfl]
    simp [opened, Trace.start, Tables.empty, Tables.setPolicy]
  refine hguarded.closed opened ?_ rfl
  rw [Isolator.reconfigure]
  simp only [if_pos h]
  exact mem_seen_apply hseen

/-- When the first command already fails. -/
theorem guarded_of_fails {old new : IsolationConfig} (hmode : old.mode = new.mode)
    (hport : old.apiPort = new.apiPort) (hon : new.mode ≠ .disabled) {t : Tables}
    (h : Guarded (fun _ => true) old new t) : new = old ∧ t.output = .drop := by
  have hrun : Isolator.apply (fun _ => true) ⟨new⟩ (Trace.start t) = (false, ⟨t, [t]⟩) := by
    rw [Isolator.apply, steps_eq hon]
    rfl
  have hclosed := h.closed t (by
    rw [reconfigure_of_same hmode hport, hrun]
    exact List.mem_singleton_self t)
  have herror := h.error (by rw [reconfigure_of_same hmode hport, hrun])
  refine ⟨herror.2, ?_⟩
  cases hout : t.output with
  | accept => exact absurd hout hclosed
  | drop => rfl

/-- Commands fail from the `n`th on. -/
def failsFrom (n : Nat) : Nat → Bool := fun k => decide (n ≤ k)

theorem failsFrom_of_lt {n k : Nat} (h : k < n) : failsFrom n k = false :=
  decide_eq_false (Nat.not_le.mpr h)

theorem failsFrom_of_le {n k : Nat} (h : n ≤ k) : failsFrom n k = true := decide_eq_true h

/-- A missing rule that is not the last is added, and then the commands fail. -/
theorem exists_left_behind {rules : List Rule} {t : Trace Tables}
    (h : ∃ rule ∈ rules.dropLast, rule ∉ t.state.rules) : ∃ n, t.seen.length ≤ n ∧
      (runAll (Step.exec (failsFrom n)) t (rules.map .insertIfAbsent)).1 = false ∧
      ∃ rule ∈ (runAll (Step.exec (failsFrom n)) t (rules.map .insertIfAbsent)).2.state.rules,
        rule ∉ t.state.rules := by
  -- The induction is on the rules; one before the last is missing.
  induction rules generalizing t with
  | nil =>
      obtain ⟨rule, hrule, -⟩ := h
      cases hrule
  | cons first rules ih =>
      cases rules with
      | nil =>
          obtain ⟨rule, hrule, -⟩ := h
          cases hrule
      | cons second rules =>
          by_cases hfirst : first ∈ t.state.rules
          · -- The first rule is there: its check alone is run.
            obtain ⟨rule, hrule, hmissing⟩ := h
            rw [List.dropLast_cons_cons] at hrule
            have hne : rule ≠ first := fun heq => hmissing (heq ▸ hfirst)
            obtain ⟨n, hn, hrest⟩ := ih (t := ⟨t.state, t.seen ++ [t.state]⟩)
              ⟨rule, (List.mem_cons.mp hrule).resolve_left hne, hmissing⟩
            rw [List.length_append, List.length_singleton] at hn
            have hstep : Step.exec (failsFrom n) (.insertIfAbsent first) t
                = (true, ⟨t.state, t.seen ++ [t.state]⟩) :=
              insertIfAbsent_of_mem hfirst (failsFrom_of_lt hn)
            refine ⟨n, by omega, ?_⟩
            rw [List.map_cons, runAll_cons_true (congrArg Prod.fst hstep), hstep]
            exact hrest
          · -- The first rule is added; both commands of the second one fail.
            let n := t.seen.length + 2
            let added : Tables := { t.state with rules := t.state.rules ++ [first] }
            let t' : Trace Tables := ⟨added, t.seen ++ [t.state] ++ [added]⟩
            have hlen : t'.seen.length = n := by simp [t', n]
            have hstep : Step.exec (failsFrom n) (.insertIfAbsent first) t = (true, t') :=
              insertIfAbsent_of_notMem hfirst (failsFrom_of_lt (Nat.lt_succ_self _))
            have hfail : Step.exec (failsFrom n) (.insertIfAbsent second) t'
                = (false, ⟨added, t'.seen ++ [added] ++ [added]⟩) :=
              insertIfAbsent_of_fails (failsFrom_of_le (by omega)) (failsFrom_of_le (by omega))
            refine ⟨n, by omega, ?_⟩
            rw [List.map_cons, List.map_cons, runAll_cons_true (congrArg Prod.fst hstep), hstep,
              runAll_cons_false (congrArg Prod.fst hfail), hfail]
            exact ⟨rfl, first, List.mem_append_right _ (List.mem_singleton_self first), hfirst⟩

/-- The machine with its policies set, and the rules it had. -/
def Tables.dropped (t : Tables) : Tables :=
  { input := .drop, output := .drop, forward := .drop, rules := t.rules }

theorem runAll_dropPolicies_eq {fails : Nat → Bool} (h : ∀ k < 3, fails k = false) (t : Tables) :
    runAll (Step.exec fails) (Trace.start t) dropPolicies =
      (true, ⟨t.dropped, [t.setPolicy .output .drop,
        (t.setPolicy .output .drop).setPolicy .input .drop, t.dropped]⟩) := by
  simp [runAll, dropPolicies, Step.exec, runIptables, invoke, Trace.start, Command.exec, h 0, h 1,
    h 2, Tables.setPolicy, Tables.dropped]

/-- A rule that is missing, and not the last one, is left behind by a later error. -/
theorem mem_rules_of_guarded {config : IsolationConfig} (hon : config.mode ≠ .disabled)
    {t : Tables} (h : ∀ fails, Guarded fails config config t) :
    ∀ rule ∈ config.rules.dropLast, rule ∈ t.rules := by
  by_contra hmissing
  rw [not_forall] at hmissing
  obtain ⟨rule, hmissing⟩ := hmissing
  rw [Classical.not_imp] at hmissing
  let t₃ : Trace Tables := ⟨t.dropped, [t.setPolicy .output .drop,
    (t.setPolicy .output .drop).setPolicy .input .drop, t.dropped]⟩
  have hmissing' : ∃ rule ∈ config.rules.dropLast, rule ∉ t₃.state.rules := ⟨rule, hmissing⟩
  obtain ⟨n, hn, herr, left, hleft, hnew⟩ := exists_left_behind hmissing'
  have hdrop : runAll (Step.exec (failsFrom n)) (Trace.start t) dropPolicies = (true, t₃) :=
    runAll_dropPolicies_eq (fun k hk => failsFrom_of_lt (Nat.lt_of_lt_of_le hk hn)) t
  have hrun : Isolator.apply (failsFrom n) ⟨config⟩ (Trace.start t)
      = runAll (Step.exec (failsFrom n)) t₃ (config.rules.map .insertIfAbsent) := by
    rw [Isolator.apply, steps_eq hon, runAll_append, hdrop, if_pos rfl]
  have herror := (h (failsFrom n)).error
  rw [reconfigure_of_same rfl rfl, hrun] at herror
  exact hnew ((herror herr).1.rules hleft)

/-- **Failures of a reload.**  Between two configurations that isolate the machine, a
    reload is safe under every pattern of failures exactly when it changes nothing, on a
    machine that drops what goes out and has all the rules but perhaps the last. -/
theorem guarded_iff {old new : IsolationConfig} (hold : old.mode ≠ .disabled)
    (hnew : new.mode ≠ .disabled) (t : Tables) :
    (∀ fails, Guarded fails old new t) ↔
      new = old ∧ t.output = .drop ∧ ∀ rule ∈ old.rules.dropLast, rule ∈ t.rules := by
  constructor
  · intro h
    by_cases hflush : old.mode ≠ new.mode ∨ old.apiPort ≠ new.apiPort
    · exact absurd (h never) (not_guarded_of_flush hflush t)
    · rw [not_or, not_not, not_not] at hflush
      obtain ⟨rfl, hdrop⟩ := guarded_of_fails hflush.1 hflush.2 hnew (h _)
      exact ⟨rfl, hdrop, mem_rules_of_guarded hnew h⟩
  · rintro ⟨rfl, hdrop, hrules⟩ fails
    refine ⟨fun s hs => ?_, fun herr => ⟨?_, rfl⟩⟩
    · rw [reconfigure_of_same rfl rfl] at hs
      have halways : Trace.Always (fun s => s.output = .drop)
          (Isolator.apply fails ⟨new⟩ (Trace.start t)).2 :=
        runAll_keeps (fun step hstep t' ht' => always_drop_exec hstep ht')
          (Trace.always_start hdrop)
      rw [halways.2 s hs]
      decide
    · rw [reconfigure_of_same rfl rfl] at herr ⊢
      exact apply_restricts hnew hrules herr

/-- A reload that changes nothing, on a machine that was started with it, when the
    commands fail in the middle of it. -/
theorem guarded_airGapFor :
    Guarded (failsFrom 5) (airGapFor ["127.0.0.1"]) (airGapFor ["127.0.0.1"])
      (airGapFor ["127.0.0.1"]).fresh := by
  refine (guarded_iff ?_ ?_ _).mpr ⟨rfl, rfl, ?_⟩ _ <;> decide

/-- From an air gap to a whitelist: for two commands everything is let out. -/
theorem not_guarded_airGapFor :
    ¬ Guarded never (airGapFor ["127.0.0.1"])
      { airGapFor ["127.0.0.1"] with mode := .whitelist } (airGapFor ["127.0.0.1"]).fresh :=
  not_guarded_of_flush (.inl (by decide)) _

end Maranode.Isolation
