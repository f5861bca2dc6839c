/-
  Maranode.Isolation.Iptables

  Network isolation: `iptables.rs`, and the `Isolator` of `state.rs`.

  The firewall is the policies of its three chains and a list of rules; a rule is what
  follows `-A` on the command line.  Every command may fail, with what it would have
  done left undone.
-/
import Maranode.Lib.Command

namespace Maranode.Isolation

open Lib.Command

/-! ## The firewall -/

inductive Policy where
  | accept
  | drop
  deriving DecidableEq

inductive Chain where
  | input
  | output
  | forward
  deriving DecidableEq

/-- The arguments after `-A`. -/
abbrev Rule := List String

structure Tables where
  input : Policy
  output : Policy
  forward : Policy
  rules : List Rule

/-- A machine without rules. -/
def Tables.empty : Tables where
  input := .accept
  output := .accept
  forward := .accept
  rules := []

/-- The `iptables` commands in use. -/
inductive Command where
  | policy (chain : Chain) (target : Policy)
  | append (rule : Rule)
  | check (rule : Rule)
  | flush

def Tables.setPolicy (t : Tables) (chain : Chain) (target : Policy) : Tables :=
  match chain with
  | .input => { t with input := target }
  | .output => { t with output := target }
  | .forward => { t with forward := target }

/-- What a command does; `none` when it exits with an error. -/
def Command.exec : Command → Tables → Option Tables
  | .policy chain target, t => some (t.setPolicy chain target)
  | .append rule, t => some { t with rules := t.rules ++ [rule] }
  | .check rule, t => if rule ∈ t.rules then some t else none
  | .flush, t => some { t with rules := [] }

/-! ## iptables.rs -/

inductive AirGapMode where
  | airGap
  | whitelist
  | disabled
  deriving DecidableEq

structure WhitelistEntry where
  host : String
  port : UInt16
  comment : String
  deriving DecidableEq

structure IsolationConfig where
  mode : AirGapMode
  apiPort : UInt16
  apiAllowedSources : List String
  whitelist : List WhitelistEntry
  deriving DecidableEq

def chainComment : String := "maranode-managed"

/-- `u16::to_string`. -/
def portText (port : UInt16) : String := port.toNat.repr

variable (fails : Nat → Bool)

def runIptables (c : Command) (t : Trace Tables) : Bool × Trace Tables :=
  invoke Command.exec fails c t

def insertIfAbsent (rule : Rule) (t : Trace Tables) : Bool × Trace Tables :=
  match runIptables fails (.check rule) t with
  | (true, t) => (true, t)
  | (false, t) => runIptables fails (.append rule) t

/-- The calls `apply_air_gap` and `apply_whitelist` are made of, each with its `?`. -/
inductive Step where
  | runIptables (c : Command)
  | insertIfAbsent (rule : Rule)

def Step.exec : Step → Trace Tables → Bool × Trace Tables
  | .runIptables c => Isolation.runIptables fails c
  | .insertIfAbsent rule => Isolation.insertIfAbsent fails rule

def dropPolicies : List Step :=
  [.runIptables (.policy .output .drop), .runIptables (.policy .input .drop),
    .runIptables (.policy .forward .drop)]

def loopbackIn : Rule := ["INPUT", "-i", "lo", "-j", "ACCEPT"]

def loopbackOut : Rule := ["OUTPUT", "-o", "lo", "-j", "ACCEPT"]

def established : Rule :=
  ["INPUT", "-m", "state", "--state", "ESTABLISHED,RELATED", "-j", "ACCEPT"]

def sourceRule (port : UInt16) (source : String) : Rule :=
  ["INPUT", "-p", "tcp", "--dport", portText port, "-s", source, "-j", "ACCEPT", "-m", "comment",
    "--comment", chainComment]

def hostRule (port : UInt16) (host : String) : Rule :=
  ["OUTPUT", "-p", "tcp", "--dport", portText port, "-d", host, "-j", "ACCEPT", "-m", "comment",
    "--comment", chainComment]

/-- The rules of `apply_air_gap`, in order. -/
def airGapRules (config : IsolationConfig) : List Rule :=
  [loopbackIn, loopbackOut, established] ++
    config.apiAllowedSources.map (sourceRule config.apiPort)

def whitelistRules (config : IsolationConfig) : List Rule :=
  config.whitelist.map fun entry => hostRule entry.port entry.host

def applyAirGap (config : IsolationConfig) : List Step :=
  dropPolicies ++ (airGapRules config).map .insertIfAbsent

def applyWhitelist (config : IsolationConfig) : List Step :=
  applyAirGap config ++ (whitelistRules config).map .insertIfAbsent

/-- `remove_rules`: the failures are dropped. -/
def removeRules (t : Trace Tables) : Trace Tables :=
  let (_, t) := runIptables fails .flush t
  let (_, t) := runIptables fails (.policy .input .accept) t
  let (_, t) := runIptables fails (.policy .output .accept) t
  (runIptables fails (.policy .forward .accept) t).2

/-! ## state.rs -/

structure Isolator where
  config : IsolationConfig

/-- What `apply` runs in each mode. -/
def IsolationConfig.steps (config : IsolationConfig) : List Step :=
  match config.mode with
  | .airGap => applyAirGap config
  | .whitelist => applyWhitelist config
  | .disabled => []

def Isolator.apply (i : Isolator) (t : Trace Tables) : Bool × Trace Tables :=
  runAll (Step.exec fails) t i.config.steps

/-- `reconfigure`: whether it succeeded, the isolator and the firewall afterwards. -/
def Isolator.reconfigure (i : Isolator) (config : IsolationConfig) (t : Trace Tables) :
    Bool × Isolator × Trace Tables :=
  let modeChanged := i.config.mode ≠ config.mode
  let t := if modeChanged ∨ i.config.apiPort ≠ config.apiPort then removeRules fails t else t
  let i : Isolator := ⟨config⟩
  let (ok, t) := i.apply fails t
  (ok, i, t)

end Maranode.Isolation
