/-
  Maranode.Isolation.Verify

  `verify`: whether the rules are there, and whether the probe is blocked.

  The rules count as present when what `iptables-save` prints has the comment in it that the
  rules for sources and destinations carry.  That tells that nothing is missing only if no
  rule with the comment is left when something is, and one is there when nothing is
  (`verify_tells_iff`).
-/
import Maranode.Isolation.Failures
import Maranode.Lib.Find

namespace Maranode.Isolation

open Lib Lib.Command IsolationConfig

/-! ## state.rs, iptables.rs, probe.rs -/

structure VerifyOutcome where
  mode : AirGapMode
  rulesPresent : Bool
  externalProbeBlocked : Bool
  detail : String

def VerifyOutcome.isOk (o : VerifyOutcome) : Bool :=
  o.rulesPresent && (o.mode == .disabled || o.externalProbeBlocked)

/-- `check_rules_present`, of the output of `iptables-save`. -/
def checkRulesPresent (saved : Except String (List Char)) : Except String Bool :=
  saved.map fun stdout => contains stdout chainComment.toList

def PROBE_TARGETS : List (String × UInt16) := [("1.1.1.1", 53), ("8.8.8.8", 53)]

/-- `probe_external_blocked`; `connects` says which targets can be connected to. -/
def probeExternalBlocked (connects : String × UInt16 → Bool) : Bool :=
  PROBE_TARGETS.all fun target => !connects target

def verifyDetail (rulesPresent externalProbeBlocked : Bool) : String :=
  if rulesPresent && externalProbeBlocked then
    "All outbound traffic blocked. iptables rules intact."
  else if !rulesPresent then "WARNING: expected iptables rules are missing!"
  else "WARNING: external network probe succeeded: air-gap may be broken!"

def Isolator.verify (i : Isolator) (saved : Except String (List Char))
    (connects : String × UInt16 → Bool) : Except String VerifyOutcome :=
  match checkRulesPresent saved with
  | .error e => .error e
  | .ok rulesPresent =>
      .ok {
        mode := i.config.mode
        rulesPresent
        externalProbeBlocked := probeExternalBlocked connects
        detail := verifyDetail rulesPresent (probeExternalBlocked connects) }

/-! ## What is printed and what is there -/

/-- The comment is in an argument of the rule. -/
def Commented (rule : Rule) : Prop := ∃ arg ∈ rule, chainComment.toList <:+: arg.toList

instance (rule : Rule) : Decidable (Commented rule) :=
  inferInstanceAs (Decidable (∃ arg ∈ rule, _))

/-- `iptables-save`: what it prints has the comment in it when a rule has. -/
structure IptablesSave where
  stdout : Tables → List Char
  infix_iff : ∀ t, chainComment.toList <:+: stdout t ↔ ∃ rule ∈ t.rules, Commented rule

/-- Every policy and every rule that `apply` installs is there. -/
def IsolationConfig.Installed (config : IsolationConfig) (t : Tables) : Prop :=
  config.mode ≠ .disabled →
    (t.input = .drop ∧ t.output = .drop ∧ t.forward = .drop) ∧
      ∀ rule ∈ config.rules, rule ∈ t.rules

instance (config : IsolationConfig) (t : Tables) : Decidable (config.Installed t) :=
  inferInstanceAs (Decidable (_ → _))

/-- The configuration lists a source, or a destination that is in force. -/
def IsolationConfig.Lists (config : IsolationConfig) : Prop :=
  match config.mode with
  | .airGap => config.apiAllowedSources ≠ []
  | .whitelist => config.apiAllowedSources ≠ [] ∨ config.whitelist ≠ []
  | .disabled => False

/-- When `verify` can tell what is there from the comment. -/
structure IsolationConfig.Told (config : IsolationConfig) (t : Tables) : Prop where
  /-- No rule with the comment is left when something is missing. -/
  missing : ¬ config.Installed t → ∀ rule ∈ t.rules, ¬ Commented rule
  /-- A configuration that lists nothing adds no such rule, so there is another one. -/
  unlisted : config.Installed t → ¬ config.Lists → ∃ rule ∈ t.rules, Commented rule

variable (S : IptablesSave) (connects : String × UInt16 → Bool)

theorem checkRulesPresent_stdout (t : Tables) :
    ∃ present, checkRulesPresent (.ok (S.stdout t)) = .ok present ∧
      (present = true ↔ ∃ rule ∈ t.rules, Commented rule) := by
  refine ⟨contains (S.stdout t) chainComment.toList, rfl, ?_⟩
  rw [← S.infix_iff, contains, Option.isSome_iff_ne_none, Ne, find_eq_none_iff, not_not]

/-- What `verify` says of a firewall. -/
theorem verify_stdout (config : IsolationConfig) (t : Tables) :
    ∃ o, Isolator.verify ⟨config⟩ (.ok (S.stdout t)) connects = .ok o ∧ o.mode = config.mode ∧
      o.externalProbeBlocked = probeExternalBlocked connects ∧
        (o.rulesPresent = true ↔ ∃ rule ∈ t.rules, Commented rule) := by
  obtain ⟨present, hpresent, hiff⟩ := checkRulesPresent_stdout S t
  rw [Isolator.verify, hpresent]
  exact ⟨_, rfl, rfl, rfl, hiff⟩

theorem commented_sourceRule (port : UInt16) (source : String) :
    Commented (sourceRule port source) := by
  refine ⟨chainComment, ?_, List.infix_rfl⟩
  simp only [sourceRule, List.mem_cons, true_or, or_true]

theorem commented_hostRule (port : UInt16) (host : String) : Commented (hostRule port host) := by
  refine ⟨chainComment, ?_, List.infix_rfl⟩
  simp only [hostRule, List.mem_cons, true_or, or_true]

/-- A configuration that lists something has a rule with the comment. -/
theorem exists_commented_of_lists {config : IsolationConfig} (h : config.Lists) :
    config.mode ≠ .disabled ∧ ∃ rule ∈ config.rules, Commented rule := by
  have hsource : config.apiAllowedSources ≠ [] → ∃ rule ∈ airGapRules config, Commented rule := by
    intro hne
    obtain ⟨source, hmem⟩ := List.exists_mem_of_ne_nil _ hne
    exact ⟨_, sourceRule_mem_airGapRules.mpr hmem, commented_sourceRule _ _⟩
  rw [IsolationConfig.Lists] at h
  have hon : config.mode ≠ .disabled := by
    intro hoff
    rw [hoff] at h
    exact h
  refine ⟨hon, ?_⟩
  rw [IsolationConfig.rules]
  cases hmode : config.mode with
  | airGap =>
      rw [hmode] at h
      exact hsource h
  | whitelist =>
      rw [hmode] at h
      rcases h with hne | hne
      · obtain ⟨rule, hmem, hcomment⟩ := hsource hne
        exact ⟨rule, List.mem_append_left _ hmem, hcomment⟩
      · obtain ⟨entry, hmem⟩ := List.exists_mem_of_ne_nil _ hne
        exact ⟨_, List.mem_append_right _ (mem_whitelistRules.mpr ⟨entry, hmem, rfl⟩),
          commented_hostRule _ _⟩
  | disabled => exact absurd hmode hon

/-! ## After apply -/

theorem not_commented_fixed : ∀ rule ∈ [loopbackIn, loopbackOut, established],
    ¬ Commented rule := by
  decide

/-- The configurations with such a rule are those that list something. -/
theorem exists_commented_iff_lists {config : IsolationConfig} :
    (∃ rule ∈ config.rules, Commented rule) ↔ config.Lists := by
  refine ⟨?_, fun h => (exists_commented_of_lists h).2⟩
  rintro ⟨rule, hmem, hcomment⟩
  have hair : rule ∈ airGapRules config → config.apiAllowedSources ≠ [] := by
    intro hrule
    rcases mem_airGapRules.mp hrule with hfixed | ⟨source, hsource, -⟩
    · exact absurd hcomment (not_commented_fixed rule hfixed)
    · exact List.ne_nil_of_mem hsource
  rw [IsolationConfig.rules] at hmem
  rw [IsolationConfig.Lists]
  cases hmode : config.mode with
  | airGap =>
      rw [hmode] at hmem
      exact hair hmem
  | whitelist =>
      rw [hmode] at hmem
      rcases List.mem_append.mp hmem with hrule | hrule
      · exact .inl (hair hrule)
      · obtain ⟨entry, hentry, -⟩ := mem_whitelistRules.mp hrule
        exact .inr (List.ne_nil_of_mem hentry)
  | disabled =>
      rw [hmode] at hmem
      cases hmem

section Apply

variable {fails : Nat → Bool}

/-- A rule that was to be added and did not fail is there. -/
theorem insertIfAbsent_ok {rule : Rule} {t : Trace Tables}
    (h : (insertIfAbsent fails rule t).1 = true) :
    ∃ rules, (insertIfAbsent fails rule t).2.state = { t.state with rules := rules } ∧
      ∀ r, r ∈ rules ↔ r ∈ t.state.rules ∨ r = rule := by
  obtain ⟨s, -, hexec, heq⟩ | ⟨-, heq⟩ := invoke_cases Command.exec fails (.check rule) t
  · rw [insertIfAbsent, runIptables, heq]
    rw [Command.exec] at hexec
    split at hexec
    · next hmem =>
        obtain rfl := Option.some.inj hexec
        exact ⟨_, rfl, fun r => ⟨.inl, fun hr => hr.elim id fun heq => heq ▸ hmem⟩⟩
    · cases hexec
  · have hadd : insertIfAbsent fails rule t
        = runIptables fails (.append rule) ⟨t.state, t.seen ++ [t.state]⟩ := by
      rw [insertIfAbsent, runIptables, heq]
    rw [hadd] at h ⊢
    obtain ⟨s, -, hexec, heq'⟩ | ⟨-, heq'⟩ := invoke_cases Command.exec fails
      (.append rule) ⟨t.state, t.seen ++ [t.state]⟩
    · rw [runIptables, heq']
      refine ⟨t.state.rules ++ [rule], (Option.some.inj hexec).symm, fun r => ?_⟩
      rw [List.mem_append, List.mem_singleton]
    · rw [runIptables, heq'] at h
      cases h

/-- Rules that were added one after the other. -/
theorem runAll_insert_ok {rules : List Rule} {t : Trace Tables}
    (h : (runAll (Step.exec fails) t (rules.map .insertIfAbsent)).1 = true) :
    ∃ rules', (runAll (Step.exec fails) t (rules.map .insertIfAbsent)).2.state =
        { t.state with rules := rules' } ∧
      ∀ r, r ∈ rules' ↔ r ∈ t.state.rules ∨ r ∈ rules := by
  induction rules generalizing t with
  | nil => exact ⟨t.state.rules, rfl, fun r => by simp only [List.not_mem_nil, or_false]⟩
  | cons rule rules ih =>
      rw [List.map_cons] at h ⊢
      obtain ⟨hrun, hrest⟩ := runAll_cons_ok h
      rw [hrest] at h ⊢
      obtain ⟨added, hadded, hmem⟩ := insertIfAbsent_ok hrun
      obtain ⟨rules', hstate, hmem'⟩ := ih h
      refine ⟨rules', hstate.trans ?_, fun r => ?_⟩
      · rw [Step.exec, hadded]
      · rw [hmem', Step.exec, hadded, hmem, List.mem_cons, or_assoc]

theorem runAll_dropPolicies_ok {t : Trace Tables}
    (h : (runAll (Step.exec fails) t dropPolicies).1 = true) :
    (runAll (Step.exec fails) t dropPolicies).2.state =
      { input := .drop, output := .drop, forward := .drop, rules := t.state.rules } := by
  have hpolicy : ∀ (chain : Chain) (t : Trace Tables),
      (Step.exec fails (.runIptables (.policy chain .drop)) t).1 = true →
      (Step.exec fails (.runIptables (.policy chain .drop)) t).2.state =
        t.state.setPolicy chain .drop := by
    intro chain t h
    obtain ⟨s, -, hexec, heq⟩ | ⟨-, heq⟩ := invoke_cases Command.exec fails
      (.policy chain .drop) t
    · rw [Step.exec, runIptables, heq]
      exact (Option.some.inj hexec).symm
    · rw [Step.exec, runIptables, heq] at h
      cases h
  rw [dropPolicies] at h ⊢
  obtain ⟨hout, hrest⟩ := runAll_cons_ok h
  rw [hrest] at h ⊢
  obtain ⟨hin, hrest⟩ := runAll_cons_ok h
  rw [hrest] at h ⊢
  obtain ⟨hfwd, hrest⟩ := runAll_cons_ok h
  rw [hrest, runAll, hpolicy _ _ hfwd, hpolicy _ _ hin, hpolicy _ _ hout]
  rfl

/-- What a successful `apply` leaves, whatever commands failed on the way. -/
theorem apply_ok {config : IsolationConfig} {t : Trace Tables}
    (h : (Isolator.apply fails ⟨config⟩ t).1 = true) :
    config.Installed (Isolator.apply fails ⟨config⟩ t).2.state ∧
      ∀ r, r ∈ (Isolator.apply fails ⟨config⟩ t).2.state.rules ↔
        r ∈ t.state.rules ∨ r ∈ config.rules := by
  by_cases hon : config.mode = .disabled
  · have hsteps : config.steps = [] := by rw [IsolationConfig.steps, hon]
    have hrules : config.rules = [] := by rw [IsolationConfig.rules, hon]
    rw [Isolator.apply, hsteps, hrules]
    exact ⟨fun hne => absurd hon hne, fun r => by rw [runAll]; simp only [List.not_mem_nil, or_false]⟩
  · rw [Isolator.apply, steps_eq hon, runAll_append] at h ⊢
    split at h
    · next hdrop =>
        rw [if_pos hdrop]
        obtain ⟨rules, hstate, hmem⟩ := runAll_insert_ok h
        rw [runAll_dropPolicies_ok hdrop] at hstate hmem
        rw [hstate]
        exact ⟨fun _ => ⟨⟨rfl, rfl, rfl⟩, fun rule hrule => (hmem rule).mpr (.inr hrule)⟩, hmem⟩
    · next hdrop => exact absurd h hdrop

end Apply

/-! ## What verify tells -/

/-- **What `verify` tells.**  That the rules are present says that nothing is missing exactly
    under `Told`.  So after a successful `apply` it is fine only if the configuration lists
    something or a rule had the comment before, and it stays fine, whatever is removed, as long
    as one rule with the comment is left. -/
theorem verify_tells_iff (config : IsolationConfig) :
    (∀ t, (∃ o, Isolator.verify ⟨config⟩ (.ok (S.stdout t)) connects = .ok o ∧
        (o.rulesPresent = true ↔ config.Installed t)) ↔ config.Told t) ∧
    (∀ fails t, (Isolator.apply fails ⟨config⟩ t).1 = true →
      probeExternalBlocked connects = true →
        ∃ o, Isolator.verify ⟨config⟩
            (.ok (S.stdout (Isolator.apply fails ⟨config⟩ t).2.state)) connects = .ok o ∧
          (o.isOk = true ↔ config.Lists ∨ ∃ rule ∈ t.state.rules, Commented rule)) ∧
    ∀ t, ¬ config.Installed t → probeExternalBlocked connects = true →
      ∃ o, Isolator.verify ⟨config⟩ (.ok (S.stdout t)) connects = .ok o ∧
        (o.isOk = true ↔ ∃ rule ∈ t.rules, Commented rule) := by
  -- Past the probe, what the check reports is whether the listing has a commented rule.
  have hok : ∀ t, probeExternalBlocked connects = true →
      ∃ o, Isolator.verify ⟨config⟩ (.ok (S.stdout t)) connects = .ok o ∧
        (o.isOk = true ↔ ∃ rule ∈ t.rules, Commented rule) := by
    intro t hblocked
    obtain ⟨o, hverify, -, hprobe, hpresent⟩ := verify_stdout S connects config t
    refine ⟨o, hverify, ?_⟩
    rw [VerifyOutcome.isOk, hprobe, hblocked, Bool.or_true, Bool.and_true, hpresent]
  refine ⟨fun t => ?_, fun fails t happly hblocked => ?_, fun t _ => hok t⟩
  -- Reporting rightly is one implication in each direction, and `Told` states the two.
  · obtain ⟨o, hverify, -, -, hpresent⟩ := verify_stdout S connects config t
    constructor
    · rintro ⟨o', hverify', hiff⟩
      obtain rfl := Except.ok.inj (hverify.symm.trans hverify')
      rw [hpresent] at hiff
      exact ⟨fun hmissing rule hrule hcomment => hmissing (hiff.mp ⟨rule, hrule, hcomment⟩),
        fun hinstalled _ => hiff.mpr hinstalled⟩
    · intro htold
      refine ⟨o, hverify, hpresent.trans ⟨?_, fun hinstalled => ?_⟩⟩
      -- A commented rule is listed: `Told` says that the whole set is there then.
      · rintro ⟨rule, hrule, hcomment⟩
        by_contra hmissing
        exact htold.missing hmissing rule hrule hcomment
      -- All is installed: what the configuration lists is among it.
      · by_cases hlists : config.Lists
        · obtain ⟨hon, rule, hrule, hcomment⟩ := exists_commented_of_lists hlists
          exact ⟨rule, (hinstalled hon).2 rule hrule, hcomment⟩
        · exact htold.unlisted hinstalled hlists
  -- After an `apply` that went through, the rules are the old ones and the configuration's.
  · obtain ⟨o, hverify, hiff⟩ := hok (Isolator.apply fails ⟨config⟩ t).2.state hblocked
    refine ⟨o, hverify, hiff.trans ?_⟩
    rw [← exists_commented_iff_lists]
    simp only [(apply_ok happly).2, or_and_right, exists_or]
    exact or_comm

/-! ## An instance -/

def Policy.text : Policy → String
  | .accept => "ACCEPT"
  | .drop => "DROP"

/-- The lines, by their words. -/
def savedLines (t : Tables) : List (List String) :=
  [["*filter"], [":INPUT", t.input.text, "[0:0]"], [":FORWARD", t.forward.text, "[0:0]"],
    [":OUTPUT", t.output.text, "[0:0]"]] ++ t.rules.map ("-A" :: ·) ++ [["COMMIT"]]

def savedText (lines : List (List String)) : List Char :=
  lines.flatMap fun line => line.flatMap (fun word => word.toList ++ [' ']) ++ ['\n']

theorem infix_savedText (lines : List (List String)) :
    chainComment.toList <:+: savedText lines ↔ ∃ line ∈ lines, Commented line := by
  have hblank : ' ' ∉ chainComment.toList := by decide
  have hbreak : '\n' ∉ chainComment.toList := by decide
  have hne : chainComment.toList ≠ [] := by decide
  rw [savedText, infix_flatMap_iff hbreak hne]
  exact exists_congr fun line => and_congr_right fun _ => infix_flatMap_iff hblank hne _ line

theorem commented_savedLines (t : Tables) :
    (∃ line ∈ savedLines t, Commented line) ↔ ∃ rule ∈ t.rules, Commented rule := by
  have hfixed : ∀ line ∈ [["*filter"], [":INPUT", t.input.text, "[0:0]"],
      [":FORWARD", t.forward.text, "[0:0]"], [":OUTPUT", t.output.text, "[0:0]"]],
      ¬ Commented line := by
    cases t.input <;> cases t.forward <;> cases t.output <;> decide
  have hadd : ∀ rule, Commented ("-A" :: rule) ↔ Commented rule := by
    intro rule
    rw [Commented, List.exists_mem_cons_iff, or_iff_right (by decide)]
    rfl
  constructor
  · rintro ⟨line, hmem, hcomment⟩
    rw [savedLines, List.mem_append, List.mem_append] at hmem
    rcases hmem with (hmem | hmem) | hmem
    · exact absurd hcomment (hfixed line hmem)
    · obtain ⟨rule, hrule, rfl⟩ := List.mem_map.mp hmem
      exact ⟨rule, hrule, (hadd rule).mp hcomment⟩
    · rw [List.mem_singleton.mp hmem] at hcomment
      exact absurd hcomment (by decide)
  · rintro ⟨rule, hrule, hcomment⟩
    refine ⟨"-A" :: rule, ?_, (hadd rule).mpr hcomment⟩
    exact List.mem_append_left _ (List.mem_append_right _ (List.mem_map_of_mem hrule))

/-- An instance to apply results at: the lines with the rules as they were given. -/
def IptablesSave.sample : IptablesSave where
  stdout t := savedText (savedLines t)
  infix_iff t := (infix_savedText (savedLines t)).trans (commented_savedLines t)

/-- A rule for a source is left, and everything else is open again. -/
def leftOver : Tables where
  input := .accept
  output := .accept
  forward := .accept
  rules := [sourceRule 11984 "127.0.0.1"]

/-- With one rule left the rules count as present, and `verify` is fine. -/
theorem verify_leftOver :
    ∃ o, Isolator.verify ⟨airGapFor ["127.0.0.1"]⟩ (.ok (IptablesSave.sample.stdout leftOver))
        (fun _ => false) = .ok o ∧ o.rulesPresent = true ∧ o.isOk = true := by
  have hblocked : probeExternalBlocked (fun _ => false) = true := rfl
  obtain ⟨o, hverify, -, hprobe, hpresent⟩ :=
    verify_stdout IptablesSave.sample (fun _ => false) (airGapFor ["127.0.0.1"]) leftOver
  have hthere := hpresent.mpr ⟨_, List.mem_singleton_self _, commented_sourceRule _ _⟩
  refine ⟨o, hverify, hthere, ?_⟩
  rw [VerifyOutcome.isOk, hprobe, hblocked, hthere, Bool.or_true, Bool.and_true]

/-- Though every policy is open and the other rules are gone. -/
theorem not_verify_tells :
    ¬ ∀ (S : IptablesSave) (config : IsolationConfig) (t : Tables),
      ∃ o, Isolator.verify ⟨config⟩ (.ok (S.stdout t)) (fun _ => false) = .ok o ∧
        (o.rulesPresent = true ↔ config.Installed t) := by
  intro h
  have hmissing : ¬ (airGapFor ["127.0.0.1"]).Installed leftOver := by decide
  obtain ⟨o, hverify, hthere, -⟩ := verify_leftOver
  obtain ⟨o', hverify', hiff⟩ := h IptablesSave.sample (airGapFor ["127.0.0.1"]) leftOver
  obtain rfl := Except.ok.inj (hverify.symm.trans hverify')
  exact hmissing (hiff.mp hthere)

end Maranode.Isolation
