/-
  Maranode.Isolation.Reconfigure

  What a reload leaves, when every command succeeds.

  `reconfigure` flushes the rules when the mode or the port changes and adds the new
  rules on top of the old ones otherwise.  The firewall is then that of a machine that
  was started with the new configuration exactly when no source and no destination was
  taken off a list.
-/
import Maranode.Isolation.Iptables

namespace Maranode.Isolation

open Lib.Command IsolationConfig

/-- No command fails. -/
def never : Nat → Bool := fun _ => false

/-! ## Rules -/

/-- The rules of a configuration, in the order they are added. -/
def IsolationConfig.rules (config : IsolationConfig) : List Rule :=
  match config.mode with
  | .airGap => airGapRules config
  | .whitelist => airGapRules config ++ whitelistRules config
  | .disabled => []

theorem IsolationConfig.steps_eq {config : IsolationConfig} (h : config.mode ≠ .disabled) :
    config.steps = dropPolicies ++ config.rules.map .insertIfAbsent := by
  rw [IsolationConfig.steps, IsolationConfig.rules]
  cases hmode : config.mode with
  | airGap => rfl
  | whitelist =>
      show applyWhitelist config = _
      rw [applyWhitelist, applyAirGap, List.map_append, List.append_assoc]
  | disabled => exact absurd hmode h

theorem portText_inj {p q : UInt16} (h : portText p = portText q) : p = q := by
  have hdigits : Nat.toDigits 10 p.toNat = Nat.toDigits 10 q.toNat := String.ofList_injective h
  apply UInt16.toNat_inj.mp
  rw [← Nat.ofDigitChars_ten_toDigits (n := p.toNat), hdigits, Nat.ofDigitChars_ten_toDigits]

theorem sourceRule_inj {port : UInt16} {s s' : String} (h : sourceRule port s = sourceRule port s') :
    s = s' := by
  rw [sourceRule, sourceRule] at h
  simpa using h

theorem hostRule_inj {p q : UInt16} {host host' : String} (h : hostRule p host = hostRule q host') :
    p = q ∧ host = host' := by
  rw [hostRule, hostRule] at h
  have hparts : portText p = portText q ∧ host = host' := by simpa using h
  exact ⟨portText_inj hparts.1, hparts.2⟩

theorem mem_airGapRules {config : IsolationConfig} {rule : Rule} :
    rule ∈ airGapRules config ↔ rule ∈ [loopbackIn, loopbackOut, established] ∨
      ∃ source ∈ config.apiAllowedSources, sourceRule config.apiPort source = rule := by
  rw [airGapRules, List.mem_append, List.mem_map]

theorem mem_whitelistRules {config : IsolationConfig} {rule : Rule} :
    rule ∈ whitelistRules config ↔
      ∃ entry ∈ config.whitelist, hostRule entry.port entry.host = rule := by
  rw [whitelistRules, List.mem_map]

/-- A rule for a source is there exactly when the source is on the list. -/
theorem sourceRule_mem_airGapRules {config : IsolationConfig} {source : String} :
    sourceRule config.apiPort source ∈ airGapRules config ↔
      source ∈ config.apiAllowedSources := by
  rw [mem_airGapRules]
  constructor
  · rintro (h | ⟨source', hmem, heq⟩)
    · simp [sourceRule, loopbackIn, loopbackOut, established] at h
    · exact sourceRule_inj heq ▸ hmem
  · exact fun h => .inr ⟨source, h, rfl⟩

theorem hostRule_notMem_airGapRules (port : UInt16) (host : String) (config : IsolationConfig) :
    hostRule port host ∉ airGapRules config := by
  rw [mem_airGapRules]
  rintro (h | ⟨source, -, heq⟩)
  · simp [hostRule, loopbackIn, loopbackOut, established] at h
  · have hchain : "INPUT" = "OUTPUT" := (List.cons.inj heq).1
    exact absurd hchain (by decide)

theorem hostRule_mem_whitelistRules {config : IsolationConfig} {port : UInt16} {host : String} :
    hostRule port host ∈ whitelistRules config ↔
      ∃ entry ∈ config.whitelist, entry.host = host ∧ entry.port = port := by
  rw [mem_whitelistRules]
  refine exists_congr fun entry => and_congr_right fun _ => ⟨fun h => ?_, fun h => ?_⟩
  · exact (hostRule_inj h).symm
  · rw [h.1, h.2]

/-- No source and no destination of the old lists is missing from the new ones. -/
def Covers (old new : IsolationConfig) : Prop :=
  (∀ source ∈ old.apiAllowedSources, source ∈ new.apiAllowedSources) ∧
    (new.mode = .whitelist → ∀ entry ∈ old.whitelist,
      ∃ entry' ∈ new.whitelist, entry'.host = entry.host ∧ entry'.port = entry.port)

/-- On the same port, that no rule of the air gap is lost says that no source is. -/
theorem airGapRules_subset_iff {old new : IsolationConfig} (hport : old.apiPort = new.apiPort) :
    airGapRules old ⊆ airGapRules new ↔
      ∀ source ∈ old.apiAllowedSources, source ∈ new.apiAllowedSources := by
  constructor
  · intro h source hsource
    have hrule := h (sourceRule_mem_airGapRules.mpr hsource)
    rw [hport] at hrule
    exact sourceRule_mem_airGapRules.mp hrule
  · intro h rule hrule
    rcases mem_airGapRules.mp hrule with hfixed | ⟨source, hsource, rfl⟩
    · exact mem_airGapRules.mpr (.inl hfixed)
    · rw [hport]
      exact sourceRule_mem_airGapRules.mpr (h source hsource)

theorem whitelistRules_subset_iff {old new : IsolationConfig} :
    whitelistRules old ⊆ whitelistRules new ↔ ∀ entry ∈ old.whitelist,
      ∃ entry' ∈ new.whitelist, entry'.host = entry.host ∧ entry'.port = entry.port := by
  constructor
  · intro h entry hentry
    exact hostRule_mem_whitelistRules.mp (h (mem_whitelistRules.mpr ⟨entry, hentry, rfl⟩))
  · intro h rule hrule
    obtain ⟨entry, hentry, rfl⟩ := mem_whitelistRules.mp hrule
    exact hostRule_mem_whitelistRules.mpr (h entry hentry)

/-- In one mode and on one port, the old rules are among the new ones exactly when the
    lists only grew. -/
theorem rules_subset_iff {old new : IsolationConfig} (hmode : old.mode = new.mode)
    (hport : old.apiPort = new.apiPort) (hon : new.mode ≠ .disabled) :
    old.rules ⊆ new.rules ↔ Covers old new := by
  rw [IsolationConfig.rules, IsolationConfig.rules, Covers, hmode]
  cases hnew : new.mode with
  | airGap => exact (airGapRules_subset_iff hport).trans ⟨fun h => ⟨h, nofun⟩, And.left⟩
  | whitelist =>
      rw [← airGapRules_subset_iff hport, ← whitelistRules_subset_iff]
      constructor
      · intro h
        refine ⟨fun rule hrule => ?_, fun _ rule hrule => ?_⟩
        · -- A rule of the air gap is on the input chain or for the loopback device.
          rcases List.mem_append.mp (h (List.mem_append_left _ hrule)) with hin | hin
          · exact hin
          · obtain ⟨entry, -, rfl⟩ := mem_whitelistRules.mp hin
            exact absurd hrule (hostRule_notMem_airGapRules _ _ _)
        · rcases List.mem_append.mp (h (List.mem_append_right _ hrule)) with hin | hin
          · obtain ⟨entry, -, rfl⟩ := mem_whitelistRules.mp hrule
            exact absurd hin (hostRule_notMem_airGapRules _ _ _)
          · exact hin
      · rintro ⟨hair, hwhite⟩ rule hrule
        rcases List.mem_append.mp hrule with hrule | hrule
        · exact List.mem_append_left _ (hair hrule)
        · exact List.mem_append_right _ (hwhite rfl hrule)
  | disabled => exact absurd hnew hon

/-! ## Without failures -/

/-- Adding a rule that may be there. -/
def addRule (rules : List Rule) (rule : Rule) : List Rule :=
  if rules.contains rule then rules else rules ++ [rule]

theorem addRule_of_mem {rules : List Rule} {rule : Rule} (h : rule ∈ rules) :
    addRule rules rule = rules :=
  if_pos (List.contains_iff_mem.mpr h)

theorem addRule_of_notMem {rules : List Rule} {rule : Rule} (h : rule ∉ rules) :
    addRule rules rule = rules ++ [rule] :=
  if_neg fun hmem => h (List.contains_iff_mem.mp hmem)

theorem mem_addRule {rules : List Rule} {rule r : Rule} :
    r ∈ addRule rules rule ↔ r ∈ rules ∨ r = rule := by
  by_cases h : rule ∈ rules
  · rw [addRule_of_mem h]
    exact ⟨.inl, fun hr => hr.elim id fun heq => heq ▸ h⟩
  · rw [addRule_of_notMem h, List.mem_append, List.mem_singleton]

theorem mem_foldl_addRule {added rules : List Rule} {r : Rule} :
    r ∈ added.foldl addRule rules ↔ r ∈ rules ∨ r ∈ added := by
  induction added generalizing rules with
  | nil => simp
  | cons rule added ih => rw [List.foldl_cons, ih, mem_addRule, List.mem_cons, or_assoc]

def Step.effect (step : Step) (t : Tables) : Tables :=
  match step with
  | .runIptables c => (c.exec t).getD t
  | .insertIfAbsent rule => { t with rules := addRule t.rules rule }

theorem runIptables_never {c : Command} {t : Trace Tables} {s : Tables}
    (h : c.exec t.state = some s) : runIptables never c t = (true, ⟨s, t.seen ++ [s]⟩) :=
  invoke_of_some rfl h

theorem insertIfAbsent_never (rule : Rule) (t : Trace Tables) :
    (insertIfAbsent never rule t).1 = true ∧
      (insertIfAbsent never rule t).2.state = { t.state with rules := addRule t.state.rules rule } := by
  rw [insertIfAbsent]
  by_cases h : rule ∈ t.state.rules
  · have hcheck : Command.exec (.check rule) t.state = some t.state := if_pos h
    rw [runIptables_never hcheck, addRule_of_mem h]
    exact ⟨rfl, rfl⟩
  · have hcheck : Command.exec (.check rule) t.state = none := if_neg h
    have happend : Command.exec (.append rule) t.state
        = some { t.state with rules := t.state.rules ++ [rule] } := rfl
    rw [runIptables, invoke_of_none hcheck, addRule_of_notMem h]
    show (runIptables never _ _).1 = true ∧ (runIptables never _ _).2.state = _
    rw [runIptables_never (t := ⟨t.state, t.seen ++ [t.state]⟩) happend]
    exact ⟨rfl, rfl⟩

theorem mem_dropPolicies {step : Step} (h : step ∈ dropPolicies) :
    ∃ chain, step = .runIptables (.policy chain .drop) := by
  simp only [dropPolicies, List.mem_cons, List.not_mem_nil, or_false] at h
  rcases h with rfl | rfl | rfl
  · exact ⟨.output, rfl⟩
  · exact ⟨.input, rfl⟩
  · exact ⟨.forward, rfl⟩

theorem Step.exec_never {config : IsolationConfig} {step : Step}
    (h : step ∈ dropPolicies ++ config.rules.map .insertIfAbsent) (t : Trace Tables) :
    (step.exec never t).1 = true ∧ (step.exec never t).2.state = step.effect t.state := by
  rcases List.mem_append.mp h with h | h
  · obtain ⟨chain, rfl⟩ := mem_dropPolicies h
    rw [Step.exec, runIptables_never (s := t.state.setPolicy chain .drop) rfl]
    exact ⟨rfl, rfl⟩
  · obtain ⟨rule, -, rfl⟩ := List.mem_map.mp h
    exact insertIfAbsent_never rule t

/-- What `apply` leaves. -/
def IsolationConfig.applied (config : IsolationConfig) (t : Tables) : Tables :=
  if config.mode = .disabled then t
  else
    { input := .drop, output := .drop, forward := .drop,
      rules := config.rules.foldl addRule t.rules }

theorem IsolationConfig.applied_of_on {config : IsolationConfig} (h : config.mode ≠ .disabled)
    (t : Tables) : config.applied t =
      { input := .drop, output := .drop, forward := .drop,
        rules := config.rules.foldl addRule t.rules } :=
  if_neg h

theorem IsolationConfig.applied_of_off {config : IsolationConfig} (h : config.mode = .disabled)
    (t : Tables) : config.applied t = t :=
  if_pos h

theorem foldl_effect_insertIfAbsent (rules : List Rule) (t : Tables) :
    (rules.map .insertIfAbsent).foldl (fun s step => Step.effect step s) t
      = { t with rules := rules.foldl addRule t.rules } := by
  induction rules generalizing t with
  | nil => rfl
  | cons rule rules ih =>
      rw [List.map_cons, List.foldl_cons, List.foldl_cons, ih]
      rfl

theorem apply_never (config : IsolationConfig) (t : Trace Tables) :
    (Isolator.apply never ⟨config⟩ t).1 = true ∧
      (Isolator.apply never ⟨config⟩ t).2.state = config.applied t.state := by
  rw [Isolator.apply, IsolationConfig.applied]
  by_cases h : config.mode = .disabled
  · rw [if_pos h, show config.steps = [] by rw [IsolationConfig.steps, h]]
    exact ⟨rfl, rfl⟩
  · have hstep : ∀ step ∈ dropPolicies ++ config.rules.map .insertIfAbsent, ∀ t,
        (step.exec never t).1 = true ∧ (step.exec never t).2.state = step.effect t.state :=
      fun step hstep t => Step.exec_never hstep t
    have hrun := runAll_of_forall hstep t
    rw [if_neg h, IsolationConfig.steps_eq h]
    refine ⟨hrun.1, hrun.2.trans ?_⟩
    rw [List.foldl_append, foldl_effect_insertIfAbsent]
    rfl

theorem removeRules_never (t : Trace Tables) :
    (removeRules never t).state = Tables.empty := by
  rw [removeRules]
  simp only [runIptables_never (c := .flush) rfl, runIptables_never (c := .policy _ .accept) rfl]
  rfl

/-! ## A reload against a fresh start -/

/-- The same policies and the same set of rules. -/
structure Tables.Same (t u : Tables) : Prop where
  input : t.input = u.input
  output : t.output = u.output
  forward : t.forward = u.forward
  rules : ∀ rule, rule ∈ t.rules ↔ rule ∈ u.rules

theorem Tables.Same.refl (t : Tables) : t.Same t := ⟨rfl, rfl, rfl, fun _ => Iff.rfl⟩

/-- The firewall of a machine that was started with the configuration. -/
def IsolationConfig.fresh (config : IsolationConfig) : Tables :=
  (Isolator.apply never ⟨config⟩ (Trace.start Tables.empty)).2.state

/-- The firewall of a machine that was started with `old` and reloaded with `new`. -/
def reloaded (old new : IsolationConfig) : Tables :=
  (Isolator.reconfigure never ⟨old⟩ new
    (Isolator.apply never ⟨old⟩ (Trace.start Tables.empty)).2).2.2.state

theorem IsolationConfig.fresh_eq (config : IsolationConfig) :
    config.fresh = config.applied Tables.empty :=
  (apply_never config _).2

theorem reloaded_eq (old new : IsolationConfig) :
    reloaded old new = new.applied
      (if old.mode ≠ new.mode ∨ old.apiPort ≠ new.apiPort then Tables.empty else old.fresh) := by
  rw [reloaded, Isolator.reconfigure]
  refine (apply_never new _).2.trans ?_
  congr 1
  show Trace.state (if _ then _ else _) = _
  rw [apply_ite Trace.state, removeRules_never]
  rfl

/-- A rule of a machine that was started with a configuration is one of its rules. -/
theorem mem_rules_applied {config : IsolationConfig} (h : config.mode ≠ .disabled) {t : Tables}
    {rule : Rule} : rule ∈ (config.applied t).rules ↔ rule ∈ t.rules ∨ rule ∈ config.rules := by
  rw [applied_of_on h]
  exact mem_foldl_addRule

/-- On top of the old rules, the new ones are those of a fresh start exactly when the old
    ones are among them. -/
theorem same_applied_fresh_iff {old new : IsolationConfig} (hmode : old.mode = new.mode)
    (hon : new.mode ≠ .disabled) :
    (new.applied old.fresh).Same new.fresh ↔ old.rules ⊆ new.rules := by
  have hold : old.mode ≠ .disabled := hmode ▸ hon
  have hfresh : ∀ rule, rule ∈ new.fresh.rules ↔ rule ∈ new.rules := fun rule => by
    rw [IsolationConfig.fresh_eq, mem_rules_applied hon, Tables.empty]
    simp
  have hover : ∀ rule, rule ∈ (new.applied old.fresh).rules ↔
      rule ∈ old.rules ∨ rule ∈ new.rules := fun rule => by
    rw [mem_rules_applied hon, IsolationConfig.fresh_eq, mem_rules_applied hold, Tables.empty]
    simp
  constructor
  · intro h rule hrule
    exact (hfresh rule).mp ((h.rules rule).mp ((hover rule).mpr (.inl hrule)))
  · intro h
    refine ⟨?_, ?_, ?_, fun rule => ?_⟩
    · rw [new.fresh_eq, applied_of_on hon, applied_of_on hon]
    · rw [new.fresh_eq, applied_of_on hon, applied_of_on hon]
    · rw [new.fresh_eq, applied_of_on hon, applied_of_on hon]
    · rw [hover, hfresh]
      exact ⟨fun hr => hr.elim (fun hr => h hr) id, .inr⟩

/-- **A reload against a fresh start.**  They leave the same firewall exactly when the
    mode or the port changes, or isolation is off, or nothing is taken off a list. -/
theorem reload_same_iff (old new : IsolationConfig) :
    (reloaded old new).Same new.fresh ↔
      old.mode ≠ new.mode ∨ old.apiPort ≠ new.apiPort ∨ new.mode = .disabled ∨
        Covers old new := by
  rw [reloaded_eq]
  by_cases hflush : old.mode ≠ new.mode ∨ old.apiPort ≠ new.apiPort
  · rw [if_pos hflush, ← IsolationConfig.fresh_eq]
    exact iff_of_true (Tables.Same.refl _) (hflush.imp_right .inl)
  · obtain ⟨hmode, hport⟩ : old.mode = new.mode ∧ old.apiPort = new.apiPort := by
      simpa [not_or] using hflush
    rw [if_neg hflush]
    by_cases hoff : new.mode = .disabled
    · refine iff_of_true ?_ (.inr (.inr (.inl hoff)))
      rw [old.fresh_eq, new.fresh_eq, applied_of_off hoff, applied_of_off hoff,
        applied_of_off (hmode.trans hoff)]
      exact Tables.Same.refl _
    · rw [same_applied_fresh_iff hmode hoff, rules_subset_iff hmode hport hoff]
      exact ⟨fun h => .inr (.inr (.inr h)), fun h =>
        h.elim (absurd hmode) fun h => h.elim (absurd hport) fun h => h.elim (absurd · hoff) id⟩

/-- The default port, open to the sources. -/
def airGapFor (sources : List String) : IsolationConfig where
  mode := .airGap
  apiPort := 11984
  apiAllowedSources := sources
  whitelist := []

/-- A source that was taken off the list is still let in. -/
theorem reload_keeps_source :
    ¬ (reloaded (airGapFor ["127.0.0.1", "10.0.0.5"]) (airGapFor ["127.0.0.1"])).Same
      (airGapFor ["127.0.0.1"]).fresh := by
  intro h
  have hrule : sourceRule 11984 "10.0.0.5" ∈ (airGapFor ["127.0.0.1"]).fresh.rules := by
    rw [← h.rules]
    decide
  revert hrule
  decide

end Maranode.Isolation
