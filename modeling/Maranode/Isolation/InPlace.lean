/-
  Maranode.Isolation.InPlace

  An `apply` on a machine that it leaves as it is.

  A configuration is applied by setting policies to drop and adding rules, so what one
  command changed no later one takes back.  The machine is the same afterwards exactly when
  every command up to the first error finds its policy or its rule there already.
-/
import Maranode.Isolation.Failures

namespace Maranode.Isolation

open Lib.Command IsolationConfig

/-! ## What is there already -/

/-- What the step does is done already. -/
def Step.InPlace (t : Tables) : Step → Prop
  | .runIptables c => c.exec t = some t
  | .insertIfAbsent rule => rule ∈ t.rules

/-- The step ends in an error when its first command is the `n`th. -/
def Step.StopsAt (fails : Nat → Bool) (t : Tables) (n : Nat) : Step → Prop
  | .runIptables _ => fails n = true
  | .insertIfAbsent rule => (fails n = true ∨ rule ∉ t.rules) ∧ fails (n + 1) = true

/-- Every step is in place, and each takes the one command that finds so. -/
def AllInPlace (fails : Nat → Bool) (t : Tables) (n : Nat) : List Step → Prop
  | [] => True
  | step :: steps => (step.InPlace t ∧ fails n = false) ∧ AllInPlace fails t (n + 1) steps

/-- The steps up to one that ends in an error are in place. -/
def StopsInPlace (fails : Nat → Bool) (t : Tables) (n : Nat) : List Step → Prop
  | [] => False
  | step :: steps =>
      step.StopsAt fails t n ∨
        (step.InPlace t ∧ fails n = false) ∧ StopsInPlace fails t (n + 1) steps

instance (t : Tables) (rule : Rule) : Decidable (Step.InPlace t (.insertIfAbsent rule)) :=
  inferInstanceAs (Decidable (rule ∈ t.rules))

/-! ## Only stricter, and only more rules -/

/-- The policies of `u` drop where those of `t` do, and its rules go on from those of `t`. -/
structure Tables.Grows (t u : Tables) : Prop where
  input : t.input = .drop → u.input = .drop
  output : t.output = .drop → u.output = .drop
  forward : t.forward = .drop → u.forward = .drop
  rules : t.rules <+: u.rules

theorem Tables.Grows.refl (t : Tables) : t.Grows t := ⟨id, id, id, List.prefix_rfl⟩

theorem Tables.Grows.trans {t u v : Tables} (h : t.Grows u) (h' : u.Grows v) : t.Grows v :=
  ⟨h'.input ∘ h.input, h'.output ∘ h.output, h'.forward ∘ h.forward, h.rules.trans h'.rules⟩

theorem Policy.eq_of_drop_iff {p q : Policy} (h : p = .drop → q = .drop)
    (h' : q = .drop → p = .drop) : p = q := by
  cases p with
  | drop => exact (h rfl).symm
  | accept =>
      cases q with
      | accept => rfl
      | drop => exact h' rfl

/-- There is no way back. -/
theorem Tables.Grows.antisymm {t u : Tables} (h : t.Grows u) (h' : u.Grows t) : t = u := by
  have hinput := Policy.eq_of_drop_iff h.input h'.input
  have houtput := Policy.eq_of_drop_iff h.output h'.output
  have hforward := Policy.eq_of_drop_iff h.forward h'.forward
  have hrules := h.rules.eq_of_length_le h'.rules.length_le
  cases t
  cases u
  simp only at hinput houtput hforward hrules
  rw [hinput, houtput, hforward, hrules]

theorem Tables.setPolicy_drop_grows (t : Tables) (chain : Chain) :
    t.Grows (t.setPolicy chain .drop) := by
  cases chain with
  | input => exact ⟨fun _ => rfl, id, id, List.prefix_rfl⟩
  | output => exact ⟨id, fun _ => rfl, id, List.prefix_rfl⟩
  | forward => exact ⟨id, id, fun _ => rfl, List.prefix_rfl⟩

theorem Tables.append_grows (t : Tables) (rule : Rule) :
    t.Grows { t with rules := t.rules ++ [rule] } :=
  ⟨id, id, id, List.prefix_append _ _⟩

theorem Tables.append_ne (t : Tables) (rule : Rule) :
    { t with rules := t.rules ++ [rule] } ≠ t := by
  intro h
  have hrules := congrArg (fun u : Tables => u.rules.length) h
  simp at hrules

/-! ## One step -/

/-- The steps an `apply` is made of. -/
def Step.Adds (step : Step) : Prop :=
  (∃ chain, step = .runIptables (.policy chain .drop)) ∨ ∃ rule, step = .insertIfAbsent rule

theorem adds_of_mem_steps {config : IsolationConfig} {step : Step} (h : step ∈ config.steps) :
    step.Adds := by
  by_cases hoff : config.mode = .disabled
  · rw [steps, hoff] at h
    cases h
  · rw [steps_eq hoff] at h
    rcases List.mem_append.mp h with h | h
    · exact .inl (mem_dropPolicies h)
    · obtain ⟨rule, -, rfl⟩ := List.mem_map.mp h
      exact .inr ⟨rule, rfl⟩

variable {fails : Nat → Bool} {step : Step} {steps : List Step} {t : Trace Tables}

variable (fails t) in
/-- A step is in place, or it stops, or it leaves the machine stricter. -/
theorem Step.exec_cases (h : step.Adds) :
    ((step.InPlace t.state ∧ fails t.seen.length = false) ∧
      ¬ step.StopsAt fails t.state t.seen.length ∧
      step.exec fails t = (true, ⟨t.state, t.seen ++ [t.state]⟩)) ∨
    (step.StopsAt fails t.state t.seen.length ∧
      (step.exec fails t).1 = false ∧ (step.exec fails t).2.state = t.state) ∨
    (¬ (step.InPlace t.state ∧ fails t.seen.length = false) ∧
      ¬ step.StopsAt fails t.state t.seen.length ∧
      (step.exec fails t).1 = true ∧ t.state.Grows (step.exec fails t).2.state ∧
        (step.exec fails t).2.state ≠ t.state) := by
  -- A policy runs one command, an insertion a check and perhaps an append.
  obtain ⟨chain, rfl⟩ | ⟨rule, rfl⟩ := h
  · cases hfails : fails t.seen.length with
    | true =>
        refine .inr (.inl ⟨hfails, ?_⟩)
        rw [Step.exec, Isolation.runIptables, invoke_of_fails hfails]
        exact ⟨rfl, rfl⟩
    | false =>
        have hrun : Step.exec fails (.runIptables (.policy chain .drop)) t
            = (true, ⟨t.state.setPolicy chain .drop,
                t.seen ++ [t.state.setPolicy chain .drop]⟩) :=
          invoke_of_some hfails rfl
        have hgoes : ¬ Step.StopsAt fails t.state t.seen.length
            (.runIptables (.policy chain .drop)) := by
          rw [Step.StopsAt, hfails]
          exact Bool.false_ne_true
        -- Setting the policy that stands already changes nothing.
        by_cases hsame : t.state.setPolicy chain .drop = t.state
        · refine .inl ⟨⟨congrArg some hsame, rfl⟩, hgoes, ?_⟩
          rw [hrun, hsame]
        · refine .inr (.inr ⟨fun h => hsame (Option.some.inj h.1), hgoes, ?_⟩)
          rw [hrun]
          exact ⟨rfl, t.state.setPolicy_drop_grows chain, hsame⟩
  · by_cases hcheck : rule ∈ t.state.rules ∧ fails t.seen.length = false
    · refine .inl ⟨hcheck, fun hstops => ?_, Isolation.insertIfAbsent_of_mem hcheck.1 hcheck.2⟩
      rcases hstops.1 with hfails | habsent
      · rw [hcheck.2] at hfails
        cases hfails
      · exact habsent hcheck.1
    · -- The check does not find the rule, so it is added unless that command fails.
      have hmiss : fails t.seen.length = true ∨ rule ∉ t.state.rules := by
        by_cases hmem : rule ∈ t.state.rules
        · have hfails : ¬ fails t.seen.length = false := fun h => hcheck ⟨hmem, h⟩
          exact .inl (Bool.not_eq_false _ ▸ hfails)
        · exact .inr hmem
      have hnone : Isolation.runIptables fails (.check rule) t
          = (false, ⟨t.state, t.seen ++ [t.state]⟩) := by
        rcases hmiss with hfails | habsent
        · exact invoke_of_fails hfails
        · exact invoke_of_none (if_neg habsent)
      have hadd : Step.exec fails (.insertIfAbsent rule) t
          = Isolation.runIptables fails (.append rule) ⟨t.state, t.seen ++ [t.state]⟩ := by
        rw [Step.exec, Isolation.insertIfAbsent, hnone]
      have hlen : (t.seen ++ [t.state]).length = t.seen.length + 1 := by
        rw [List.length_append, List.length_singleton]
      -- The append fails, or the rule stands at the end now.
      cases hfails : fails (t.seen.length + 1) with
      | true =>
          refine .inr (.inl ⟨⟨hmiss, hfails⟩, ?_⟩)
          rw [hadd, Isolation.runIptables, invoke_of_fails (by rw [hlen, hfails])]
          exact ⟨rfl, rfl⟩
      | false =>
          refine .inr (.inr ⟨hcheck, fun hstops => ?_, ?_⟩)
          · have htrue := hstops.2
            rw [hfails] at htrue
            cases htrue
          · rw [hadd, Isolation.runIptables, invoke_of_some (by rw [hlen, hfails]) rfl]
            exact ⟨rfl, t.state.append_grows rule, t.state.append_ne rule⟩

theorem Step.exec_grows (h : step.Adds) : t.state.Grows (step.exec fails t).2.state := by
  obtain ⟨-, -, hrun⟩ | ⟨-, -, hstate⟩ | ⟨-, -, -, hgrows, -⟩ := Step.exec_cases fails t h
  · rw [hrun]
    exact Tables.Grows.refl _
  · rw [hstate]
    exact Tables.Grows.refl _
  · exact hgrows

/-! ## All steps -/

theorem runAll_grows (h : ∀ step ∈ steps, step.Adds) :
    t.state.Grows (runAll (Step.exec fails) t steps).2.state :=
  runAll_keeps (J := fun t' : Trace Tables => t.state.Grows t'.state)
    (fun step hstep _ ht => ht.trans (Step.exec_grows (h step hstep))) (Tables.Grows.refl _)

/-- All steps are taken and leave the machine as it is exactly when they are in place; one
    stops, on a machine as it was, exactly when those before it are. -/
theorem runAll_same_iff (h : ∀ step ∈ steps, step.Adds) :
    ((runAll (Step.exec fails) t steps).1 = true ∧
        (runAll (Step.exec fails) t steps).2.state = t.state ↔
      AllInPlace fails t.state t.seen.length steps) ∧
    ((runAll (Step.exec fails) t steps).1 = false ∧
        (runAll (Step.exec fails) t steps).2.state = t.state ↔
      StopsInPlace fails t.state t.seen.length steps) := by
  -- The induction is on the steps; a step only ever adds, which `runAll_grows` says.
  induction steps generalizing t with
  | nil =>
      refine ⟨iff_of_true ⟨rfl, rfl⟩ trivial, iff_of_false (fun hfalse => ?_) id⟩
      cases hfalse.1
  | cons step steps ih =>
      obtain ⟨hstep, hsteps⟩ := List.forall_mem_cons.mp h
      rw [AllInPlace, StopsInPlace]
      obtain ⟨hplace, hgoes, hrun⟩ | ⟨hstops, hfalse, hstate⟩ |
        ⟨hplace, hgoes, htrue, hgrows, hne⟩ := Step.exec_cases fails t hstep
      · -- The first step is in place: what is left decides.
        have hrest := ih (t := ⟨t.state, t.seen ++ [t.state]⟩) hsteps
        rw [List.length_append, List.length_singleton] at hrest
        rw [runAll_cons_true (congrArg Prod.fst hrun), hrun]
        exact ⟨hrest.1.trans (and_iff_right hplace).symm,
          hrest.2.trans ((or_iff_right hgoes).trans (and_iff_right hplace)).symm⟩
      -- A step that stops is not in place: its command fails where the other one succeeds.
      · have hnot : ¬ (step.InPlace t.state ∧ fails t.seen.length = false) := by
          intro hplace
          cases step with
          | runIptables c =>
              have htrue : fails t.seen.length = true := hstops
              rw [hplace.2] at htrue
              cases htrue
          | insertIfAbsent rule =>
              rcases hstops.1 with htrue | habsent
              · rw [hplace.2] at htrue
                cases htrue
              · exact habsent hplace.1
        rw [runAll_cons_false hfalse, hfalse, hstate]
        refine ⟨iff_of_false (fun htrue => ?_) (fun hall => hnot hall.1),
          iff_of_true ⟨rfl, rfl⟩ (.inl hstops)⟩
        cases htrue.1
      · -- What it changed stays changed.
        have hchanged : (runAll (Step.exec fails) t (step :: steps)).2.state ≠ t.state := by
          rw [runAll_cons_true htrue]
          intro hback
          have hafter : (step.exec fails t).2.state.Grows
              (runAll (Step.exec fails) (step.exec fails t).2 steps).2.state :=
            runAll_grows hsteps
          rw [hback] at hafter
          exact hne (hafter.antisymm hgrows)
        exact ⟨iff_of_false (fun hsame => hchanged hsame.2) (fun hall => hplace hall.1),
          iff_of_false (fun hsame => hchanged hsame.2)
            (fun hstop => hstop.elim hgoes fun hrest => hplace hrest.1)⟩

/-- The rules of a configuration are applied, and were there. -/
def IsolationConfig.InPlace (config : IsolationConfig) (fails : Nat → Bool) (t : Tables) : Prop :=
  AllInPlace fails t 0 config.steps

/-- A command fails, and everything before it was there. -/
def IsolationConfig.Stops (config : IsolationConfig) (fails : Nat → Bool) (t : Tables) : Prop :=
  StopsInPlace fails t 0 config.steps

section Reconfigure

variable {config : IsolationConfig} {u : Tables}

theorem reconfigure_self (fails : Nat → Bool) (config : IsolationConfig) (t : Trace Tables) :
    Isolator.reconfigure fails ⟨config⟩ config t =
      ((Isolator.apply fails ⟨config⟩ t).1, ⟨config⟩, (Isolator.apply fails ⟨config⟩ t).2) :=
  reconfigure_of_same rfl rfl fails t

/-- Reconfiguring with the configuration on record. -/
theorem reconfigure_true_iff :
    (Isolator.reconfigure fails ⟨config⟩ config (Trace.start u)).1 = true ∧
        (Isolator.reconfigure fails ⟨config⟩ config (Trace.start u)).2.2.state = u ↔
      config.InPlace fails u := by
  rw [reconfigure_self]
  exact (runAll_same_iff (t := Trace.start u) fun _ h => adds_of_mem_steps h).1

theorem reconfigure_false_iff :
    (Isolator.reconfigure fails ⟨config⟩ config (Trace.start u)).1 = false ∧
        (Isolator.reconfigure fails ⟨config⟩ config (Trace.start u)).2.2.state = u ↔
      config.Stops fails u := by
  rw [reconfigure_self]
  exact (runAll_same_iff (t := Trace.start u) fun _ h => adds_of_mem_steps h).2

end Reconfigure

end Maranode.Isolation
