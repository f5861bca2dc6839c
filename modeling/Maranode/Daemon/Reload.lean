/-
  Maranode.Daemon.Reload

  `reload.rs`: a reload of the configuration, and what an error in the middle of it leaves.

  The log filter, the queue, the isolation, the RAG engine and the settings are written
  one after another, and nothing is taken back.  So an error leaves all of them as they
  were exactly when it comes before the first of them, or when everything that is written
  before it was in force already (`reload_keeps_iff`).
-/
import Maranode.Daemon.Config
import Maranode.Isolation.InPlace

namespace Maranode.Daemon

open Lib Lib.Command

/-! ## The daemon that is running -/

/-- The configuration at process start, as far as a change of it needs a restart. -/
structure StartupSnapshot where
  bind : String
  dataDir : Path
  device : String
  ragEnabled : Bool
  embeddingModel : String
  unixSocket : Option String
  maxParallel : Nat

/-- What a reload writes to; `φ` are the log filters. -/
@[ext] structure Running (φ : Type) where
  logFilter : φ
  maxWaiting : Nat
  isolator : Isolation.Isolator
  tables : Isolation.Tables
  rag : Option RagEngineConfig
  runtime : RuntimeSettings

structure ReloadServices where
  configPath : Option Path
  pins : StartupPins
  snapshot : StartupSnapshot

/-- What a reload meets: the files, the environment, the commands that fail, and why the
    filter cannot be swapped or the event not be logged. -/
structure ReloadMoment where
  files : Files
  env : Env
  logReload : Option String
  fails : Nat → Bool
  append : Option String

inductive ReloadError where
  | noConfigFile
  | load (e : String)
  | invalidLogLevel (level : String)
  | logReload (e : String)
  | isolation
  | systemPrompt (e : String)
  | append (e : String)

/-- What `reload` itself says of an error. -/
def ReloadError.context : ReloadError → Option String
  | .noConfigFile => some "no config file: set --config or place config at a standard path"
  | .invalidLogLevel level => some ("invalid log_level '" ++ level ++ "'")
  | .systemPrompt _ => some "loading assistant system prompt"
  | .load _ | .logReload _ | .isolation | .append _ => none

structure ReloadResponse where
  ok : Bool
  path : Option Path
  applied : List String
  requiresRestart : List String

/-! ## reload -/

variable {φ : Type} (linux : Bool) (fromToml : DaemonConfig → String → Except String DaemonConfig)
  (tryNew : String → Option φ)

namespace ReloadServices

variable (S : ReloadServices) (m : ReloadMoment)

/-- The configuration: the file, the environment over it, and the command line over both. -/
def effective : Except ReloadError (Path × DaemonConfig) :=
  match S.configPath with
  | none => .error .noConfigFile
  | some path =>
      match DaemonConfig.load linux fromToml m.files m.env path with
      | .error e => .error (.load e)
      | .ok cfg => .ok (path, S.pins.apply linux (cfg.applyEnvOverrides m.env))

/-- The settings that differ from those at process start and are not on the command line. -/
def requiresRestart (cfg : DaemonConfig) : List String :=
  (if cfg.bind ≠ S.snapshot.bind ∧ S.pins.bind = none then ["bind"] else []) ++
  (if cfg.dataDir ≠ S.snapshot.dataDir ∧ S.pins.dataDir = none then ["data_dir"] else []) ++
  (if cfg.device ≠ S.snapshot.device ∧ S.pins.device = none then ["device"] else []) ++
  (if cfg.rag.enabled ≠ S.snapshot.ragEnabled ∧ S.pins.ragEnabled = none
    then ["rag.enabled"] else []) ++
  (if cfg.rag.embeddingModel ≠ S.snapshot.embeddingModel ∧ S.pins.embeddingModel = none
    then ["rag.embedding_model"] else []) ++
  (if cfg.inference.maxParallel ≠ S.snapshot.maxParallel
    then ["inference.max_parallel"] else []) ++
  (if cfg.unixSocket ≠ S.snapshot.unixSocket ∧ S.pins.unixSocket = none
    then ["unix_socket"] else [])

/-- The log filter, unless its level is on the command line. -/
def swapFilter (cfg : DaemonConfig) (s : Running φ) : Except ReloadError (Running φ) :=
  if S.pins.logLevel = none then
    match tryNew cfg.logLevel with
    | none => .error (.invalidLogLevel cfg.logLevel)
    | some filter =>
        match m.logReload with
        | some e => .error (.logReload e)
        | none => .ok { s with logFilter := filter }
  else .ok s

/-- The queue limit and the isolation, and whether that one succeeded. -/
def reconfigured (cfg : DaemonConfig) (s : Running φ) : Bool × Running φ :=
  match s.isolator.reconfigure m.fails (isolationFromConfig cfg) (Trace.start s.tables) with
  | (ok, isolator, t) =>
      (ok, { s with
        maxWaiting := cfg.inference.maxQueueDepth
        isolator := isolator
        tables := t.state })

/-- The settings that are in force after a reload that succeeds. -/
def applied (s : Running φ) : List String :=
  (if S.pins.logLevel = none then ["log_level"] else []) ++
  ["inference.max_queue_depth", "isolation", "assistant"] ++
  (if s.rag.isSome then ["rag"] else []) ++ ["auth"]

end ReloadServices

/-- The RAG engine, if there is one, and the settings of the API. -/
def Running.withConfig (s : Running φ) (cfg : DaemonConfig) (prompt : Option String) :
    Running φ :=
  { s with
    rag := s.rag.map fun c => c.applyRuntimeConfig (ragFromConfig cfg)
    runtime := runtimeFromConfig cfg cfg.airGap prompt }

namespace ReloadServices

variable (S : ReloadServices) (m : ReloadMoment)

/-- `reload`, with the configuration at hand. -/
def reloadWith (path : Path) (cfg : DaemonConfig) (s : Running φ) :
    Except ReloadError ReloadResponse × Running φ :=
  match S.swapFilter tryNew m cfg s with
  | .error e => (.error e, s)
  | .ok s =>
      match reconfigured m cfg s with
      | (false, s) => (.error .isolation, s)
      | (true, s) =>
          match cfg.assistant.resolvedSystemPrompt m.files with
          | .error e => (.error (.systemPrompt e), s)
          | .ok prompt =>
              let restart := S.requiresRestart cfg ++
                if s.rag.isNone ∧ cfg.rag.enabled = true then ["rag.enabled"] else []
              let s := s.withConfig cfg prompt
              match m.append with
              | some e => (.error (.append e), s)
              | none => (.ok ⟨true, some path, S.applied s, restart⟩, s)

def reload (s : Running φ) : Except ReloadError ReloadResponse × Running φ :=
  match S.effective linux fromToml m with
  | .error e => (.error e, s)
  | .ok (path, cfg) => S.reloadWith tryNew m path cfg s

/-! ## Where it stops -/

/-- The new log filter is refused, before anything is written. -/
def RefusesFilter (cfg : DaemonConfig) : Prop :=
  S.pins.logLevel = none ∧ (tryNew cfg.logLevel = none ∨ m.logReload ≠ none)

/-- What is written before the error was in force already: the log filter, the queue limit
    and the isolation, and the rest too when the system prompt can be read. -/
structure InForce (cfg : DaemonConfig) (s : Running φ) : Prop where
  filter : S.pins.logLevel = none → tryNew cfg.logLevel = some s.logFilter
  queue : cfg.inference.maxQueueDepth = s.maxWaiting
  isolation : isolationFromConfig cfg = s.isolator.config
  rules : s.isolator.config.Stops m.fails s.tables ∨
    s.isolator.config.InPlace m.fails s.tables ∧
      ∀ prompt, cfg.assistant.resolvedSystemPrompt m.files = .ok prompt →
        s.withConfig cfg prompt = s

variable {S m tryNew} {path : Path} {cfg : DaemonConfig} {s s' : Running φ}

theorem swapFilter_error_iff :
    (∃ e, S.swapFilter tryNew m cfg s = .error e) ↔ S.RefusesFilter tryNew m cfg := by
  unfold swapFilter RefusesFilter
  by_cases hpin : S.pins.logLevel = none
  · rw [if_pos hpin]
    cases htry : tryNew cfg.logLevel with
    | none => simp [hpin]
    | some filter =>
        cases hreload : m.logReload with
        | none => simp [hpin]
        | some e => simp [hpin]
  · rw [if_neg hpin]
    simp [hpin]

/-- The filter that is in place then. -/
theorem swapFilter_ok (h : S.swapFilter tryNew m cfg s = .ok s') :
    s' = { s with logFilter := s'.logFilter } ∧
      (s'.logFilter = s.logFilter ↔
        (S.pins.logLevel = none → tryNew cfg.logLevel = some s.logFilter)) := by
  unfold swapFilter at h
  split at h
  · next hpin =>
      split at h
      · cases h
      · next filter htry =>
          split at h
          · cases h
          · obtain rfl := Except.ok.inj h
            refine ⟨rfl, fun hsame _ => ?_, fun hsame => ?_⟩
            · rw [htry, ← hsame]
            · rw [htry] at hsame
              exact Option.some.inj (hsame hpin)
  · next hpin =>
      obtain rfl := Except.ok.inj h
      exact ⟨rfl, fun _ hnone => absurd hnone hpin, fun _ => rfl⟩

/-- The firewall afterwards, and whether that succeeded. -/
theorem reconfigured_eq : reconfigured m cfg s =
    ((s.isolator.reconfigure m.fails (isolationFromConfig cfg) (Trace.start s.tables)).1,
      { s with
        maxWaiting := cfg.inference.maxQueueDepth
        isolator := ⟨isolationFromConfig cfg⟩
        tables := (s.isolator.reconfigure m.fails (isolationFromConfig cfg)
          (Trace.start s.tables)).2.2.state }) := rfl

/-- A failing `reconfigure` leaves the daemon as it was, for one that had the configuration
    and whose rules were there up to the command that fails. -/
theorem reconfigured_false_iff (h : (reconfigured m cfg s).1 = false) :
    (reconfigured m cfg s).2 = s ↔ cfg.inference.maxQueueDepth = s.maxWaiting ∧
      isolationFromConfig cfg = s.isolator.config ∧ s.isolator.config.Stops m.fails s.tables := by
  rw [reconfigured_eq] at h ⊢
  constructor
  · intro hsame
    have hiso : isolationFromConfig cfg = s.isolator.config :=
      congrArg (fun s : Running φ => s.isolator.config) hsame
    have htables := congrArg Running.tables hsame
    rw [hiso] at h htables
    exact ⟨congrArg Running.maxWaiting hsame, hiso,
      Isolation.reconfigure_false_iff.mp ⟨h, htables⟩⟩
  · rintro ⟨hqueue, hiso, hstops⟩
    have htables := (Isolation.reconfigure_false_iff.mpr hstops).2
    rw [hiso]
    exact Running.ext rfl hqueue rfl htables rfl rfl

/-- One that succeeds leaves it as it was when all rules were there. -/
theorem reconfigured_true_iff (h : (reconfigured m cfg s).1 = true) :
    (reconfigured m cfg s).2 = s ↔ cfg.inference.maxQueueDepth = s.maxWaiting ∧
      isolationFromConfig cfg = s.isolator.config ∧
        s.isolator.config.InPlace m.fails s.tables := by
  rw [reconfigured_eq] at h ⊢
  constructor
  · intro hsame
    have hiso : isolationFromConfig cfg = s.isolator.config :=
      congrArg (fun s : Running φ => s.isolator.config) hsame
    have htables := congrArg Running.tables hsame
    rw [hiso] at h htables
    exact ⟨congrArg Running.maxWaiting hsame, hiso,
      Isolation.reconfigure_true_iff.mp ⟨h, htables⟩⟩
  · rintro ⟨hqueue, hiso, hplace⟩
    have htables := (Isolation.reconfigure_true_iff.mpr hplace).2
    rw [hiso]
    exact Running.ext rfl hqueue rfl htables rfl rfl

/-- The two halves of a reload write to different places. -/
theorem withConfig_reconfigured_iff {prompt : Option String} :
    (reconfigured m cfg s).2.withConfig cfg prompt = s ↔
      (reconfigured m cfg s).2 = s ∧ s.withConfig cfg prompt = s := by
  constructor
  · intro h
    have hfirst : (reconfigured m cfg s).2 = s :=
      Running.ext (congrArg (·.logFilter) h :) (congrArg (·.maxWaiting) h :)
        (congrArg (·.isolator) h :) (congrArg (·.tables) h :) rfl rfl
    have hrest : s.withConfig cfg prompt = s :=
      Running.ext rfl rfl rfl rfl (congrArg (·.rag) h :) (congrArg (·.runtime) h :)
    exact ⟨hfirst, hrest⟩
  · rintro ⟨hfirst, hrest⟩
    rw [hfirst, hrest]

/-- The filter has nothing to do with the isolation. -/
theorem reconfigured_fst (h : S.swapFilter tryNew m cfg s = .ok s') :
    (reconfigured m cfg s').1 = (s.isolator.reconfigure m.fails (isolationFromConfig cfg)
      (Trace.start s.tables)).1 := by
  rw [(swapFilter_ok h).1]
  rfl

variable (S m tryNew path cfg s) in
/-- What a reload that gets past the filter does: it stops at the isolation, or at the
    system prompt, or it has written everything. -/
theorem reloadWith_cases (h : S.swapFilter tryNew m cfg s = .ok s') :
    ((reconfigured m cfg s').1 = false ∧
      S.reloadWith tryNew m path cfg s = (.error .isolation, (reconfigured m cfg s').2)) ∨
    (∃ e, (reconfigured m cfg s').1 = true ∧
      cfg.assistant.resolvedSystemPrompt m.files = .error e ∧
      S.reloadWith tryNew m path cfg s
        = (.error (.systemPrompt e), (reconfigured m cfg s').2)) ∨
    ∃ prompt, (reconfigured m cfg s').1 = true ∧
      cfg.assistant.resolvedSystemPrompt m.files = .ok prompt ∧
      S.reloadWith tryNew m path cfg s =
        (m.append.elim
          (.ok ⟨true, some path, S.applied ((reconfigured m cfg s').2.withConfig cfg prompt),
            S.requiresRestart cfg ++
              if s'.rag.isNone ∧ cfg.rag.enabled = true then ["rag.enabled"] else []⟩)
          (fun e => .error (.append e)),
        (reconfigured m cfg s').2.withConfig cfg prompt) := by
  unfold reloadWith
  rw [h]
  dsimp only
  -- The isolation is changed first; a refusal there leaves the settings as they are.
  rcases hiso : reconfigured m cfg s' with ⟨ok, after⟩
  have hrag : after.rag = s'.rag := (congrArg (fun r => r.2.rag) hiso).symm
  cases ok with
  | false => exact .inl ⟨rfl, rfl⟩
  | true =>
      refine .inr ?_
      -- Then the prompt is read, and only after that the settings are replaced.
      cases hprompt : cfg.assistant.resolvedSystemPrompt m.files with
      | error e => exact .inl ⟨e, rfl, rfl, rfl⟩
      | ok prompt =>
          refine .inr ⟨prompt, rfl, rfl, ?_⟩
          dsimp only
          rw [hrag]
          -- The audit entry comes last, when everything is in force already.
          cases m.append with
          | none => rfl
          | some e => rfl

/-- Which of the two it is shows in whether the isolation failed. -/
theorem stops_of_false (h : (reconfigured m cfg s).1 = false)
    (hconfig : isolationFromConfig cfg = s.isolator.config)
    (hrules : s.isolator.config.Stops m.fails s.tables ∨
      s.isolator.config.InPlace m.fails s.tables) : s.isolator.config.Stops m.fails s.tables := by
  refine hrules.resolve_right fun hplace => ?_
  have htrue := (Isolation.reconfigure_true_iff.mpr hplace).1
  rw [reconfigured_eq, hconfig] at h
  cases htrue.symm.trans h

theorem not_stops_of_true (h : (reconfigured m cfg s).1 = true)
    (hconfig : isolationFromConfig cfg = s.isolator.config) :
    ¬ s.isolator.config.Stops m.fails s.tables := by
  intro hstops
  have hfalse := (Isolation.reconfigure_false_iff.mpr hstops).1
  rw [reconfigured_eq, hconfig] at h
  cases hfalse.symm.trans h

/-- After a swap to the filter that was there. -/
theorem reloadWith_unchanged_iff_of_swap (hswap : S.swapFilter tryNew m cfg s = .ok s) :
    (S.reloadWith tryNew m path cfg s).2 = s ↔ S.InForce tryNew m cfg s := by
  have hfilter := (swapFilter_ok hswap).2.mp rfl
  obtain ⟨hfalse, heq⟩ | ⟨e, htrue, hprompt, heq⟩ | ⟨prompt, htrue, hprompt, heq⟩ :=
    reloadWith_cases tryNew S m path cfg s hswap
  · rw [heq, reconfigured_false_iff hfalse]
    constructor
    · rintro ⟨hqueue, hconfig, hstops⟩
      exact ⟨hfilter, hqueue, hconfig, .inl hstops⟩
    · intro h
      exact ⟨h.queue, h.isolation,
        stops_of_false hfalse h.isolation (h.rules.imp_right And.left)⟩
  · rw [heq, reconfigured_true_iff htrue]
    constructor
    · rintro ⟨hqueue, hconfig, hplace⟩
      refine ⟨hfilter, hqueue, hconfig, .inr ⟨hplace, fun prompt hread => ?_⟩⟩
      cases hprompt.symm.trans hread
    · intro h
      have hplace := h.rules.resolve_left (not_stops_of_true htrue h.isolation)
      exact ⟨h.queue, h.isolation, hplace.1⟩
  · rw [heq, withConfig_reconfigured_iff, reconfigured_true_iff htrue]
    constructor
    · rintro ⟨⟨hqueue, hconfig, hplace⟩, hrest⟩
      refine ⟨hfilter, hqueue, hconfig, .inr ⟨hplace, fun read hread => ?_⟩⟩
      rwa [← Except.ok.inj (hprompt.symm.trans hread)]
    · intro h
      have hplace := h.rules.resolve_left (not_stops_of_true htrue h.isolation)
      exact ⟨⟨h.queue, h.isolation, hplace.1⟩, hplace.2 prompt hprompt⟩

/-- What a reload leaves has the filter that was swapped in. -/
theorem logFilter_reloadWith (h : S.swapFilter tryNew m cfg s = .ok s') :
    (S.reloadWith tryNew m path cfg s).2.logFilter = s'.logFilter := by
  obtain ⟨-, heq⟩ | ⟨e, -, -, heq⟩ | ⟨prompt, -, -, heq⟩ :=
    reloadWith_cases tryNew S m path cfg s h
  · rw [heq]
    rfl
  · rw [heq]
    rfl
  · rw [heq]
    rfl

/-- With the configuration at hand. -/
theorem reloadWith_unchanged_iff :
    (S.reloadWith tryNew m path cfg s).2 = s ↔
      S.RefusesFilter tryNew m cfg ∨ S.InForce tryNew m cfg s := by
  cases hswap : S.swapFilter tryNew m cfg s with
  | error e =>
      rw [reloadWith, hswap]
      exact iff_of_true rfl (.inl (swapFilter_error_iff.mp ⟨e, hswap⟩))
  | ok s' =>
      have hpasses : ¬ S.RefusesFilter tryNew m cfg := by
        intro hrefuses
        obtain ⟨e, he⟩ := swapFilter_error_iff.mpr hrefuses
        cases hswap.symm.trans he
      obtain ⟨hs', hfilter⟩ := swapFilter_ok hswap
      rw [or_iff_right hpasses]
      by_cases hsame : s'.logFilter = s.logFilter
      · obtain rfl : s' = s := hs'.trans (Running.ext hsame rfl rfl rfl rfl rfl)
        exact reloadWith_unchanged_iff_of_swap hswap
      · refine iff_of_false (fun hback => hsame ?_) (fun h => hsame (hfilter.mpr h.filter))
        have hlog : (S.reloadWith tryNew m path cfg s).2.logFilter = s'.logFilter :=
          logFilter_reloadWith hswap
        rw [← hlog, hback]

/-- Nothing goes wrong once the filter is accepted. -/
structure Completes (m : ReloadMoment) (cfg : DaemonConfig) (s : Running φ) : Prop where
  isolation : (s.isolator.reconfigure m.fails (isolationFromConfig cfg)
    (Trace.start s.tables)).1 = true
  prompt : ∃ prompt, cfg.assistant.resolvedSystemPrompt m.files = .ok prompt
  append : m.append = none

theorem reloadWith_ok_iff : (∃ response, (S.reloadWith tryNew m path cfg s).1 = .ok response) ↔
    ¬ S.RefusesFilter tryNew m cfg ∧ Completes m cfg s := by
  -- The filter is the one step that can refuse without having changed anything.
  cases hswap : S.swapFilter tryNew m cfg s with
  | error e =>
      refine iff_of_false ?_ (fun h => h.1 (swapFilter_error_iff.mp ⟨e, hswap⟩))
      rw [reloadWith, hswap]
      rintro ⟨response, hresponse⟩
      cases hresponse
  | ok s' =>
      have hpasses : ¬ S.RefusesFilter tryNew m cfg := by
        intro hrefuses
        obtain ⟨e, he⟩ := swapFilter_error_iff.mpr hrefuses
        cases hswap.symm.trans he
      have hiso := reconfigured_fst hswap
      rw [and_iff_right hpasses]
      -- Past it the reload ends in one of the three ways.
      obtain ⟨hfalse, heq⟩ | ⟨e, -, hprompt, heq⟩ | ⟨prompt, htrue, hprompt, heq⟩ :=
        reloadWith_cases tryNew S m path cfg s hswap
      · rw [heq]
        refine iff_of_false (fun h => ?_) (fun h => ?_)
        · obtain ⟨response, hresponse⟩ := h
          cases hresponse
        · cases hfalse.symm.trans (hiso.trans h.isolation)
      · rw [heq]
        refine iff_of_false (fun h => ?_) (fun h => ?_)
        · obtain ⟨response, hresponse⟩ := h
          cases hresponse
        · obtain ⟨prompt, hread⟩ := h.prompt
          cases hprompt.symm.trans hread
      · rw [heq]
        -- All is in force, and the answer is an error if the entry could not be written.
        cases happend : m.append with
        | none => exact iff_of_true ⟨_, rfl⟩ ⟨hiso.symm.trans htrue, ⟨prompt, hprompt⟩, happend⟩
        | some e =>
            refine iff_of_false (fun h => ?_) (fun h => ?_)
            · obtain ⟨response, hresponse⟩ := h
              cases hresponse
            · cases happend.symm.trans h.append

/-- **Errors of a reload.**  A reload that returns an error leaves the log filter, the queue
    limit, the isolation and its rules, the RAG engine and the settings as they were exactly
    when there is no configuration to apply, or the log filter is refused, or everything that
    is written before the error is in force.  For the rest, nothing may go wrong. -/
theorem reload_keeps_iff :
    (∀ e, (S.reload linux fromToml tryNew m s).1 = .error e →
      (S.reload linux fromToml tryNew m s).2 = s) ↔
      ∀ path cfg, S.effective linux fromToml m = .ok (path, cfg) →
        S.RefusesFilter tryNew m cfg ∨ S.InForce tryNew m cfg s ∨ Completes m cfg s := by
  -- A configuration that cannot be read changes nothing.
  cases hcfg : S.effective linux fromToml m with
  | error e =>
      rw [reload, hcfg]
      refine iff_of_true (fun _ _ => rfl) fun path cfg h => ?_
      cases h
  | ok found =>
      obtain ⟨path, cfg⟩ := found
      rw [reload, hcfg]
      dsimp only
      constructor
      · intro h path' cfg' heq
        obtain ⟨-, rfl⟩ := Prod.mk.inj (Except.ok.inj heq)
        -- From left to right: an error that changed nothing was the filter's or a no-op.
        cases hresult : (S.reloadWith tryNew m path cfg s).1 with
        | error e =>
            exact (reloadWith_unchanged_iff.mp (h e hresult)).imp_right .inl
        | ok response => exact .inr (.inr (reloadWith_ok_iff.mp ⟨response, hresult⟩).2)
      -- An error has to come from a refused filter, or from what was in force before.
      · intro h e herr
        have hnot : ¬ ∃ response, (S.reloadWith tryNew m path cfg s).1 = .ok response := by
          rintro ⟨response, hresponse⟩
          cases hresponse.symm.trans herr
        rw [reloadWith_ok_iff] at hnot
        refine reloadWith_unchanged_iff.mpr ?_
        by_cases hrefuses : S.RefusesFilter tryNew m cfg
        · exact .inl hrefuses
        · obtain hforce | hdone := (h path cfg rfl).resolve_left hrefuses
          · exact .inr hforce
          · exact absurd ⟨hrefuses, hdone⟩ hnot

end ReloadServices

/-! ## A prompt that cannot be read -/

def configToml : Path := "/etc/maranode/config.toml".toList

def promptTxt : Path := "/etc/maranode/prompt.txt".toList

/-- A shorter queue, and a prompt in a file. -/
def queueAndPrompt : String :=
  "[inference]\nmax_queue_depth = 8\n\n[assistant]\n" ++
    "system_prompt_file = \"/etc/maranode/prompt.txt\"\n"

def queueAndPromptFrom (base : DaemonConfig) : DaemonConfig :=
  { base with
    inference := { base.inference with maxQueueDepth := 8 }
    assistant := { base.assistant with systemPromptFile := some promptTxt } }

/-- The reader, on that file and on an empty one. -/
def readSample (base : DaemonConfig) (contents : String) : Except String DaemonConfig :=
  if contents = queueAndPrompt then .ok (queueAndPromptFrom base)
  else if contents = "" then .ok base
  else .error "TOML parse error"

/-- The daemon runs without isolation and at a log level of its own. -/
def samplePins : StartupPins where
  dataDir := none
  bind := none
  logLevel := some "info"
  device := none
  unixSocket := none
  noIsolation := true
  ragEnabled := none
  embeddingModel := none
  ragCollection := none
  adminKey := none
  modelsDir := none

/-- The configuration it was started with, from an empty file. -/
def sampleConfig : DaemonConfig := samplePins.apply true (.default true fun _ => none)

def sampleServices : ReloadServices where
  configPath := some configToml
  pins := samplePins
  snapshot :=
    { bind := sampleConfig.bind
      dataDir := sampleConfig.dataDir
      device := sampleConfig.device
      ragEnabled := sampleConfig.rag.enabled
      embeddingModel := sampleConfig.rag.embeddingModel
      unixSocket := sampleConfig.unixSocket
      maxParallel := sampleConfig.inference.maxParallel }

def sampleRunning : Running String where
  logFilter := "info"
  maxWaiting := sampleConfig.inference.maxQueueDepth
  isolator := ⟨isolationFromConfig sampleConfig⟩
  tables := .empty
  rag := none
  runtime := runtimeFromConfig sampleConfig sampleConfig.airGap none

/-- The file names a prompt that is not there. -/
def promptMissing : ReloadMoment where
  files p := if p = configToml then some (.ok queueAndPrompt) else none
  env _ := none
  logReload := none
  fails _ := false
  append := none

theorem load_promptMissing : DaemonConfig.load true readSample promptMissing.files
    promptMissing.env configToml
      = .ok (queueAndPromptFrom (.default true promptMissing.env)) := by
  have hfile : promptMissing.files configToml = some (.ok queueAndPrompt) := by
    show (if configToml = configToml then _ else none) = _
    exact if_pos rfl
  have hexists : promptMissing.files.exists_ configToml = true := by
    rw [Files.exists_, hfile]
    rfl
  have hread : promptMissing.files.readToString configToml = .ok queueAndPrompt := by
    rw [Files.readToString, hfile]
    rfl
  have htoml : readSample (.default true promptMissing.env) queueAndPrompt
      = .ok (queueAndPromptFrom (.default true promptMissing.env)) := if_pos rfl
  rw [DaemonConfig.load, hexists, hread]
  dsimp only
  rw [htoml]
  rfl

/-- The reload says that it failed, and the queue is shorter. -/
theorem not_keeps_promptMissing :
    ¬ ∀ e, (sampleServices.reload true readSample some promptMissing sampleRunning).1 = .error e →
      (sampleServices.reload true readSample some promptMissing sampleRunning).2
        = sampleRunning := by
  have hcfg : sampleServices.effective true readSample promptMissing =
      .ok (configToml, samplePins.apply true ((queueAndPromptFrom
        (.default true promptMissing.env)).applyEnvOverrides promptMissing.env)) := by
    unfold ReloadServices.effective
    dsimp only [sampleServices]
    rw [load_promptMissing]
  intro h
  rw [ReloadServices.reload, hcfg] at h
  have hlimit : (8 : Nat) = 32 := congrArg Running.maxWaiting (h _ rfl)
  exact absurd hlimit (by decide)

end Maranode.Daemon
