/-
  Maranode.Isolation.Packets

  What the rules of the air gap do with packets.

  `iptables` takes the first rule of the chain that matches, or the policy.  It governs IPv4
  alone, and refuses a rule for an IPv6 source.  So a configuration that lists one cannot be
  applied, replies leave by the loopback device only, and IPv6 passes
  (`airGapped_never`).
-/
import Maranode.Isolation.Failures
import Maranode.Lib.FirstMatch
import Mathlib.Data.List.TakeWhile

namespace Maranode.Isolation

open Lib Lib.Command IsolationConfig

/-! ## Packets -/

inductive IpAddr where
  | v4 (bits : BitVec 32)
  | v6 (bits : BitVec 128)
  deriving DecidableEq

def IpAddr.isV4 : IpAddr → Bool
  | .v4 _ => true
  | .v6 _ => false

/-- What connection tracking says of a packet. -/
inductive ConnState where
  | new
  | established
  | related
  | invalid
  deriving DecidableEq

def ConnState.text : ConnState → String
  | .new => "NEW"
  | .established => "ESTABLISHED"
  | .related => "RELATED"
  | .invalid => "INVALID"

/-- A packet that comes in or goes out, or both. -/
structure Packet where
  inIface : Option String
  outIface : Option String
  protocol : String
  src : IpAddr
  dst : IpAddr
  sport : UInt16
  dport : UInt16
  state : ConnState
  family : src.isV4 = dst.isV4

-- How an address on the command line reads.
variable (inet : String → Option IpAddr)

/-! ## Matching -/

/-- The options of a rule, with their values. -/
def options : List String → List (String × String)
  | flag :: value :: rest => (flag, value) :: options rest
  | _ => []

def Packet.meets (p : Packet) (flag value : String) : Bool :=
  if flag = "-i" then decide (p.inIface = some value)
  else if flag = "-o" then decide (p.outIface = some value)
  else if flag = "-p" then decide (p.protocol = value)
  else if flag = "--dport" then decide (portText p.dport = value)
  else if flag = "-s" then decide (inet value = some p.src)
  else if flag = "-d" then decide (inet value = some p.dst)
  else if flag = "--state" then decide (p.state.text.toList ∈ value.toList.splitOn ',')
  else decide (flag ∈ ["-m", "--comment", "-j"])

def Chain.name : Chain → String
  | .input => "INPUT"
  | .output => "OUTPUT"
  | .forward => "FORWARD"

def targetOf (rule : Rule) : Option Policy :=
  match (options rule.tail).lookup "-j" with
  | some "ACCEPT" => some .accept
  | some "DROP" => some .drop
  | _ => none

/-- What a rule says of a packet in a chain. -/
def ruleTarget (chain : Chain) (p : Packet) (rule : Rule) : Option Policy :=
  if rule.head? = some chain.name ∧
      ∀ o ∈ options rule.tail, p.meets inet o.1 o.2 = true then targetOf rule
  else none

def Tables.policy (t : Tables) : Chain → Policy
  | .input => t.input
  | .output => t.output
  | .forward => t.forward

/-- `ip6tables` has no rules. -/
def Tables.verdict (t : Tables) (chain : Chain) (p : Packet) : Policy :=
  if p.src.isV4 then FirstMatch.verdict (ruleTarget inet chain p) (t.policy chain) t.rules
  else .accept

/-! ## Commands -/

/-- The rule has an IPv6 address, which `iptables` refuses. -/
def namesV6 (rule : Rule) : Bool :=
  (options rule.tail).any fun o =>
    (o.1 == "-s" || o.1 == "-d") && (inet o.2).any fun a => !a.isV4

/-- What a command of `iptables` does; `none` when it exits with an error. -/
def execV4 : Command → Tables → Option Tables
  | .append rule, t => if namesV6 inet rule then none else Command.exec (.append rule) t
  | .check rule, t => if namesV6 inet rule then none else Command.exec (.check rule) t
  | c, t => c.exec t

section With

variable (exec : Command → Tables → Option Tables) (fails : Nat → Bool)

def insertIfAbsentWith (rule : Rule) (t : Trace Tables) : Bool × Trace Tables :=
  match invoke exec fails (.check rule) t with
  | (true, t) => (true, t)
  | (false, t) => invoke exec fails (.append rule) t

def Step.execWith : Step → Trace Tables → Bool × Trace Tables
  | .runIptables c => invoke exec fails c
  | .insertIfAbsent rule => insertIfAbsentWith exec fails rule

/-- `apply`, with commands that do as `exec` says. -/
def Isolator.applyWith (i : Isolator) (t : Trace Tables) : Bool × Trace Tables :=
  runAll (Step.execWith exec fails) t i.config.steps

end With

theorem Step.execWith_exec (fails : Nat → Bool) (step : Step) :
    Step.execWith Command.exec fails step = Step.exec fails step := by
  cases step <;> rfl

theorem Isolator.applyWith_exec (fails : Nat → Bool) (i : Isolator) (t : Trace Tables) :
    i.applyWith Command.exec fails t = i.apply fails t :=
  congrArg (fun step => runAll step t i.config.steps) (funext (Step.execWith_exec fails))

/-- `apply` on a machine without rules. -/
def applyFresh (config : IsolationConfig) : Bool × Tables :=
  let (ok, t) := Isolator.applyWith (execV4 inet) never ⟨config⟩ (Trace.start Tables.empty)
  (ok, t.state)

/-! ## What the rules match -/

variable {inet} {p : Packet}

theorem targetOf_airGapRules {config : IsolationConfig} {rule : Rule}
    (h : rule ∈ airGapRules config) : targetOf rule = some .accept := by
  rcases mem_airGapRules.mp h with hfixed | ⟨source, -, rfl⟩
  · simp only [List.mem_cons, List.not_mem_nil, or_false] at hfixed
    rcases hfixed with rfl | rfl | rfl <;> rfl
  · rfl

/-- A rule that accepts does so in its chain, when all its options are met. -/
theorem ruleTarget_iff {chain : Chain} {rule : Rule} (h : targetOf rule = some .accept) :
    ruleTarget inet chain p rule = some .accept ↔
      rule.head? = some chain.name ∧ ∀ o ∈ options rule.tail, p.meets inet o.1 o.2 = true := by
  rw [ruleTarget]
  split
  · next hmeets => exact iff_of_true h hmeets
  · next hmeets => exact iff_of_false nofun hmeets

theorem ruleTarget_loopbackIn :
    ruleTarget inet .input p loopbackIn = some .accept ↔ p.inIface = some "lo" := by
  rw [ruleTarget_iff rfl]
  simp [loopbackIn, Chain.name, options, Packet.meets]

theorem ruleTarget_loopbackOut :
    ruleTarget inet .output p loopbackOut = some .accept ↔ p.outIface = some "lo" := by
  rw [ruleTarget_iff rfl]
  simp [loopbackOut, Chain.name, options, Packet.meets]

theorem text_mem_states (state : ConnState) :
    state.text.toList ∈ "ESTABLISHED,RELATED".toList.splitOn ',' ↔
      state = .established ∨ state = .related := by
  cases state <;> decide

theorem ruleTarget_established :
    ruleTarget inet .input p established = some .accept ↔
      p.state = .established ∨ p.state = .related := by
  rw [ruleTarget_iff rfl, ← text_mem_states]
  simp [established, Chain.name, options, Packet.meets]

theorem ruleTarget_sourceRule {port : UInt16} {source : String} :
    ruleTarget inet .input p (sourceRule port source) = some .accept ↔
      p.protocol = "tcp" ∧ p.dport = port ∧ inet source = some p.src := by
  have hport : portText p.dport = portText port ↔ p.dport = port :=
    ⟨portText_inj, congrArg portText⟩
  rw [ruleTarget_iff rfl]
  simp [sourceRule, Chain.name, options, Packet.meets, hport]

/-- A rule speaks for one chain. -/
theorem ruleTarget_of_chain {chain : Chain} {rule : Rule} (h : rule.head? ≠ some chain.name) :
    ruleTarget inet chain p rule = none :=
  if_neg fun hmeets => h hmeets.1

/-! ## Verdicts -/

/-- The packet is the start of something the API is for: TCP to its port, from a source that
    is listed. -/
def Packet.ToApi (inet : String → Option IpAddr) (config : IsolationConfig) (p : Packet) : Prop :=
  p.protocol = "tcp" ∧ p.dport = config.apiPort ∧
    ∃ source ∈ config.apiAllowedSources, inet source = some p.src

variable {config : IsolationConfig}

theorem ruleTarget_airGapRules {chain : Chain} {rule : Rule} (h : rule ∈ airGapRules config)
    {target : Policy} (htarget : ruleTarget inet chain p rule = some target) :
    target = .accept := by
  rw [ruleTarget] at htarget
  split at htarget
  · rw [targetOf_airGapRules h] at htarget
    exact (Option.some.inj htarget).symm
  · cases htarget

/-- What comes in. -/
theorem verdict_input (hv4 : p.src.isV4 = true) {t : Tables} (hpolicy : t.input = .drop)
    (hrules : ∀ rule, rule ∈ t.rules ↔ rule ∈ airGapRules config) :
    t.verdict inet .input p = .accept ↔
      p.inIface = some "lo" ∨ (p.state = .established ∨ p.state = .related) ∨
        p.ToApi inet config := by
  -- All the rules accept and the policy drops, so one rule that matches decides.
  have huniform : ∀ rule ∈ t.rules, ∀ target, ruleTarget inet .input p rule = some target →
      target = .accept := fun rule hrule target =>
    ruleTarget_airGapRules ((hrules rule).mp hrule)
  have hdrop : t.policy .input ≠ .accept := by
    rw [Tables.policy, hpolicy]
    exact nofun
  have hout : ruleTarget inet .input p loopbackOut = none := ruleTarget_of_chain (by decide)
  rw [Tables.verdict, if_pos hv4, FirstMatch.verdict_eq_iff_of_uniform huniform hdrop]
  constructor
  -- Of the three fixed rules only the one for loopback input and the one for replies match.
  · rintro ⟨rule, hrule, htarget⟩
    rcases mem_airGapRules.mp ((hrules rule).mp hrule) with hfixed | ⟨source, hsource, rfl⟩
    · simp only [List.mem_cons, List.not_mem_nil, or_false] at hfixed
      rcases hfixed with rfl | rfl | rfl
      · exact .inl (ruleTarget_loopbackIn.mp htarget)
      · rw [hout] at htarget
        cases htarget
      · exact .inr (.inl (ruleTarget_established.mp htarget))
    · obtain ⟨htcp, hport, hsrc⟩ := ruleTarget_sourceRule.mp htarget
      exact .inr (.inr ⟨htcp, hport, source, hsource, hsrc⟩)
  -- Each of the three cases names the rule that matches it.
  · rintro (hlo | hstate | ⟨htcp, hport, source, hsource, hsrc⟩)
    · refine ⟨loopbackIn, (hrules _).mpr (mem_airGapRules.mpr (.inl ?_)),
        ruleTarget_loopbackIn.mpr hlo⟩
      exact List.mem_cons_self
    · refine ⟨established, (hrules _).mpr (mem_airGapRules.mpr (.inl ?_)),
        ruleTarget_established.mpr hstate⟩
      simp only [List.mem_cons, or_true, true_or]
    · exact ⟨_, (hrules _).mpr (sourceRule_mem_airGapRules.mpr hsource),
        ruleTarget_sourceRule.mpr ⟨htcp, hport, hsrc⟩⟩

/-- What goes out. -/
theorem verdict_output (hv4 : p.src.isV4 = true) {t : Tables} (hpolicy : t.output = .drop)
    (hrules : ∀ rule, rule ∈ t.rules ↔ rule ∈ airGapRules config) :
    t.verdict inet .output p = .accept ↔ p.outIface = some "lo" := by
  have huniform : ∀ rule ∈ t.rules, ∀ target, ruleTarget inet .output p rule = some target →
      target = .accept := fun rule hrule target =>
    ruleTarget_airGapRules ((hrules rule).mp hrule)
  have hdrop : t.policy .output ≠ .accept := by
    rw [Tables.policy, hpolicy]
    exact nofun
  rw [Tables.verdict, if_pos hv4, FirstMatch.verdict_eq_iff_of_uniform huniform hdrop]
  constructor
  · rintro ⟨rule, hrule, htarget⟩
    have hchain : rule.head? = some "OUTPUT" := by
      by_contra hne
      rw [ruleTarget_of_chain hne] at htarget
      cases htarget
    rcases mem_airGapRules.mp ((hrules rule).mp hrule) with hfixed | ⟨source, -, rfl⟩
    · simp only [List.mem_cons, List.not_mem_nil, or_false] at hfixed
      rcases hfixed with rfl | rfl | rfl
      · exact absurd hchain (by decide)
      · exact ruleTarget_loopbackOut.mp htarget
      · exact absurd hchain (by decide)
    · exact absurd (Option.some.inj hchain) (by decide)
  · intro hlo
    refine ⟨loopbackOut, (hrules _).mpr (mem_airGapRules.mpr (.inl ?_)),
      ruleTarget_loopbackOut.mpr hlo⟩
    simp only [List.mem_cons, true_or, or_true]

/-- IPv6 passes whatever the tables. -/
theorem verdict_v6 (hv6 : p.src.isV4 = false) (t : Tables) (chain : Chain) :
    t.verdict inet chain p = .accept := by
  rw [Tables.verdict, hv6, if_neg Bool.false_ne_true]

/-! ## What is applied -/

/-- The source reads as an IPv6 address. -/
def isV6 (inet : String → Option IpAddr) (source : String) : Bool :=
  (inet source).any fun a => !a.isV4

/-- With the sources up to the first that is IPv6. -/
def IsolationConfig.served (inet : String → Option IpAddr) (config : IsolationConfig) :
    IsolationConfig :=
  { config with apiAllowedSources := config.apiAllowedSources.takeWhile fun s => !isV6 inet s }

theorem namesV6_fixed : ∀ rule ∈ [loopbackIn, loopbackOut, established],
    namesV6 inet rule = false := by
  intro rule h
  simp only [List.mem_cons, List.not_mem_nil, or_false] at h
  rcases h with rfl | rfl | rfl <;> rfl

theorem namesV6_sourceRule (port : UInt16) (source : String) :
    namesV6 inet (sourceRule port source) = isV6 inet source := by
  simp [namesV6, sourceRule, options, isV6]

theorem execWith_policy (chain : Chain) (t : Trace Tables) :
    Step.execWith (execV4 inet) never (.runIptables (.policy chain .drop)) t =
      Step.exec never (.runIptables (.policy chain .drop)) t := by
  have hsame : ∀ s, execV4 inet (.policy chain .drop) s = Command.exec (.policy chain .drop) s :=
    fun _ => rfl
  rw [Step.execWith, Step.exec, runIptables, invoke_congr hsame]

/-- A rule without an IPv6 address is added as any. -/
theorem execWith_of_v4 {rule : Rule} (h : namesV6 inet rule = false) (t : Trace Tables) :
    Step.execWith (execV4 inet) never (.insertIfAbsent rule) t =
      Step.exec never (.insertIfAbsent rule) t := by
  have hcheck : ∀ t, execV4 inet (.check rule) t = Command.exec (.check rule) t := fun t => by
    rw [execV4, h, if_neg Bool.false_ne_true]
  have happend : ∀ t, execV4 inet (.append rule) t = Command.exec (.append rule) t := fun t => by
    rw [execV4, h, if_neg Bool.false_ne_true]
  rw [Step.execWith, insertIfAbsentWith, invoke_congr hcheck, Step.exec, insertIfAbsent,
    runIptables]
  rcases invoke Command.exec never (.check rule) t with ⟨_ | _, t'⟩
  · exact invoke_congr happend t'
  · rfl

/-- A rule with one is not. -/
theorem execWith_of_v6 {rule : Rule} (h : namesV6 inet rule = true) (t : Trace Tables) :
    (Step.execWith (execV4 inet) never (.insertIfAbsent rule) t).1 = false ∧
      (Step.execWith (execV4 inet) never (.insertIfAbsent rule) t).2.state = t.state := by
  have hcheck : execV4 inet (.check rule) t.state = none := by rw [execV4, if_pos h]
  have happend : execV4 inet (.append rule) t.state = none := by rw [execV4, if_pos h]
  rw [Step.execWith, insertIfAbsentWith, invoke_of_none hcheck]
  dsimp only
  rw [invoke_of_none (t := ⟨t.state, t.seen ++ [t.state]⟩) happend]
  exact ⟨rfl, rfl⟩

/-- The sources up to the first that is IPv6, and it, if there is one. -/
theorem served_cases (inet : String → Option IpAddr) (config : IsolationConfig) :
    (∀ s ∈ (config.served inet).apiAllowedSources, isV6 inet s = false) ∧
      (config.apiAllowedSources = (config.served inet).apiAllowedSources ∨
        ∃ source rest, isV6 inet source = true ∧ config.apiAllowedSources =
          (config.served inet).apiAllowedSources ++ source :: rest) := by
  refine ⟨fun s hs => ?_, ?_⟩
  · have := List.mem_takeWhile_imp hs
    rwa [Bool.not_eq_true'] at this
  · have hsplit := List.takeWhile_append_dropWhile (p := fun s => !isV6 inet s)
      (l := config.apiAllowedSources)
    cases hdrop : config.apiAllowedSources.dropWhile fun s => !isV6 inet s with
    | nil =>
        rw [hdrop, List.append_nil] at hsplit
        exact .inl hsplit.symm
    | cons source rest =>
        have hhead := List.head?_dropWhile_not (fun s => !isV6 inet s) config.apiAllowedSources
        rw [hdrop] at hhead hsplit
        refine .inr ⟨source, rest, ?_, hsplit.symm⟩
        simpa using hhead

theorem steps_airGap (hmode : config.mode = .airGap) :
    config.steps = dropPolicies ++ (airGapRules config).map .insertIfAbsent := by
  rw [IsolationConfig.steps, hmode]
  rfl

/-- Nothing refuses the rules for the sources that are served. -/
theorem applyWith_served (hmode : config.mode = .airGap) (t : Trace Tables) :
    runAll (Step.execWith (execV4 inet) never) t (config.served inet).steps =
      Isolator.apply never ⟨config.served inet⟩ t := by
  have hserved := (served_cases inet config).1
  refine runAll_congr (fun step hstep t => ?_) t
  have hmode' : (config.served inet).mode = .airGap := hmode
  rw [steps_airGap hmode'] at hstep
  rcases List.mem_append.mp hstep with hstep | hstep
  · obtain ⟨chain, rfl⟩ := mem_dropPolicies hstep
    exact execWith_policy chain t
  · obtain ⟨rule, hrule, rfl⟩ := List.mem_map.mp hstep
    refine execWith_of_v4 ?_ t
    rcases mem_airGapRules.mp hrule with hfixed | ⟨source, hsource, rfl⟩
    · exact namesV6_fixed rule hfixed
    · rw [namesV6_sourceRule, hserved source hsource]

/-- What `apply` leaves on a machine without rules: the rules up to the first IPv6 source,
    which ends it in an error. -/
theorem applyFresh_spec (hmode : config.mode = .airGap) :
    ((applyFresh inet config).1 = true ↔ ∀ s ∈ config.apiAllowedSources, isV6 inet s = false) ∧
      (applyFresh inet config).2 = (config.served inet).applied Tables.empty := by
  obtain ⟨hserved, hcases⟩ := served_cases inet config
  obtain ⟨hok, hstate⟩ := apply_never (config.served inet) (Trace.start Tables.empty)
  have hmode' : (config.served inet).mode = .airGap := hmode
  have hrun : applyFresh inet config =
      ((runAll (Step.execWith (execV4 inet) never) (Trace.start Tables.empty) config.steps).1,
        (runAll (Step.execWith (execV4 inet) never) (Trace.start Tables.empty)
          config.steps).2.state) := rfl
  rw [hrun]
  -- No IPv6 source among the allowed ones, or a first one.
  rcases hcases with hall | ⟨source, rest, hv6, hsources⟩
  · have hsame : config.served inet = config :=
      congrArg (fun sources => { config with apiAllowedSources := sources }) hall.symm
    have hsteps : config.steps = (config.served inet).steps := by rw [hsame]
    rw [hsteps, applyWith_served hmode]
    refine ⟨iff_of_true hok fun s hs => hserved s ?_, hstate⟩
    rwa [← hall]
  -- The steps up to that source are those of the configuration that is served.
  · have hsteps : config.steps = (config.served inet).steps ++
        .insertIfAbsent (sourceRule config.apiPort source) ::
          rest.map (fun s => .insertIfAbsent (sourceRule config.apiPort s)) := by
      rw [steps_airGap hmode, steps_airGap hmode', airGapRules, hsources, airGapRules]
      simp only [List.map_append, List.map_cons, List.map_map, List.append_assoc]
      rfl
    -- iptables refuses the address, and the run stops there.
    have hnames : namesV6 inet (sourceRule config.apiPort source) = true := by
      rw [namesV6_sourceRule, hv6]
    have hstop := execWith_of_v6 hnames
      (Isolator.apply never ⟨config.served inet⟩ (Trace.start Tables.empty)).2
    rw [hsteps, runAll_append, applyWith_served hmode, if_pos hok, runAll_cons_false hstop.1,
      hstop.1, hstop.2]
    refine ⟨iff_of_false Bool.false_ne_true fun hnone => ?_, hstate⟩
    have hfalse := hnone source (by rw [hsources]; exact List.mem_append_right _ List.mem_cons_self)
    rw [hv6] at hfalse
    cases hfalse

/-! ## The air gap -/

/-- A reply of the daemon to a source that is listed. -/
def Packet.FromApi (inet : String → Option IpAddr) (config : IsolationConfig) (p : Packet) :
    Prop :=
  p.protocol = "tcp" ∧ p.sport = config.apiPort ∧ p.state = .established ∧
    ∃ source ∈ config.apiAllowedSources, inet source = some p.dst

/-- What an air gap is: it can be applied, the API answers the sources, and nothing else can
    be connected to, from inside or from outside. -/
structure AirGapped (inet : String → Option IpAddr) (config : IsolationConfig) : Prop where
  applies : (applyFresh inet config).1 = true
  serves : ∀ p : Packet, p.ToApi inet config →
    (applyFresh inet config).2.verdict inet .input p = .accept
  answers : ∀ p : Packet, p.FromApi inet config →
    (applyFresh inet config).2.verdict inet .output p = .accept
  closedIn : ∀ p : Packet, p.state = .new → p.inIface ≠ some "lo" →
    (∀ source ∈ config.apiAllowedSources, inet source ≠ some p.src) →
      (applyFresh inet config).2.verdict inet .input p = .drop
  closedOut : ∀ p : Packet, p.state = .new → p.outIface ≠ some "lo" →
    (applyFresh inet config).2.verdict inet .output p = .drop

/-- A new IPv6 connection to elsewhere. -/
def outboundV6 : Packet where
  inIface := none
  outIface := some "eth0"
  protocol := "tcp"
  src := .v6 1
  dst := .v6 2
  sport := 40000
  dport := 443
  state := .new
  family := rfl

/-- **No configuration is an air gap.**  `apply` succeeds when no source is IPv6; of IPv4,
    the sources up to the first IPv6 one are let in and replies go out by the loopback device
    alone; and IPv6 passes. -/
theorem airGapped_never (hmode : config.mode = .airGap) :
    ¬ AirGapped inet config ∧
    ((applyFresh inet config).1 = true ↔
      ∀ source ∈ config.apiAllowedSources, isV6 inet source = false) ∧
    (∀ p : Packet, p.src.isV4 = true →
      ((applyFresh inet config).2.verdict inet .input p = .accept ↔
        p.inIface = some "lo" ∨ (p.state = .established ∨ p.state = .related) ∨
          p.ToApi inet (config.served inet)) ∧
      ((applyFresh inet config).2.verdict inet .output p = .accept ↔ p.outIface = some "lo")) ∧
    ∀ p : Packet, p.src.isV4 = false →
      ∀ chain, (applyFresh inet config).2.verdict inet chain p = .accept := by
  have hspec : ((applyFresh inet config).1 = true ↔
        ∀ source ∈ config.apiAllowedSources, isV6 inet source = false) ∧
      (applyFresh inet config).2 = (config.served inet).applied Tables.empty :=
    applyFresh_spec hmode
  obtain ⟨happlies, hstate⟩ := hspec
  have hon : (config.served inet).mode ≠ .disabled := by
    change config.mode ≠ .disabled
    rw [hmode]
    exact nofun
  -- Where the run stopped, the rules are those of the sources before.
  have hrules : ∀ rule, rule ∈ (applyFresh inet config).2.rules ↔
      rule ∈ airGapRules (config.served inet) := by
    intro rule
    have hair : (config.served inet).rules = airGapRules (config.served inet) := by
      have hmode' : (config.served inet).mode = .airGap := hmode
      rw [IsolationConfig.rules, hmode']
    rw [hstate, mem_rules_applied hon, hair]
    exact or_iff_right List.not_mem_nil
  have hinput : (applyFresh inet config).2.input = .drop := by
    rw [hstate, applied_of_on hon]
  have houtput : (applyFresh inet config).2.output = .drop := by
    rw [hstate, applied_of_on hon]
  refine ⟨fun h => ?_, happlies, fun p hv4 => ⟨verdict_input hv4 hinput hrules,
    verdict_output hv4 houtput hrules⟩, fun p hv6 chain => verdict_v6 hv6 _ chain⟩
  -- An IPv6 packet is not seen by iptables, which refutes the first half.
  have hdrop := h.closedOut outboundV6 rfl (by decide)
  rw [verdict_v6 rfl] at hdrop
  cases hdrop

/-- How the default sources read. -/
def readLoopback (address : String) : Option IpAddr :=
  if address = "127.0.0.1" then some (.v4 0x7f000001)
  else if address = "::1" then some (.v6 1)
  else none

/-- The default configuration. -/
theorem airGapped_never_default :
    (airGapFor ["127.0.0.1", "::1"]).mode = .airGap ∧
      ¬ AirGapped readLoopback (airGapFor ["127.0.0.1", "::1"]) :=
  ⟨rfl, (airGapped_never rfl).1⟩

/-- It cannot even be applied. -/
theorem not_airGapped_default : ¬ AirGapped readLoopback (airGapFor ["127.0.0.1", "::1"]) := by
  intro h
  have hfails : (applyFresh readLoopback (airGapFor ["127.0.0.1", "::1"])).1 = false := by decide
  rw [h.applies] at hfails
  cases hfails

end Maranode.Isolation
