/-
  Maranode.Daemon.Startup

  The start of the daemon in `main.rs`, against the reloads that come after it.

  The start lays the command line over the file, and a reload lays the environment between
  the two.  What clap took from a variable is on the command line then, so the variables
  make no difference (`apply_applyEnvOverrides`), but for `MARANODE_LOG_PROMPTS`, which is
  no option and is read by a reload alone.
-/
import Maranode.Daemon.Reload
import Maranode.Lib.Run

namespace Maranode.Daemon

open Lib Lib.Command Lib.Run

/-! ## The command line -/

/-- What clap made of the command line and the environment. -/
structure Args where
  config : Option Path
  noIsolation : Bool
  dataDir : Option Path
  bind : Option String
  logLevel : Option String
  device : Option String
  rag : Bool
  embeddingModel : Option String
  ragCollection : Option String
  adminKey : Option String
  modelsDir : Option Path
  unixSocket : Option String
  noUnixSocket : Bool
  tlsCert : Option Path
  tlsKey : Option Path

namespace Args

/-- An option whose variable is set has a value; `1` and `true` are what turns a flag on. -/
structure ReadsEnv (args : Args) (env : Env) : Prop where
  dataDir : env "MARANODE_DATA_DIR" ≠ none → args.dataDir ≠ none
  bind : env "MARANODE_BIND" ≠ none → args.bind ≠ none
  logLevel : env "RUST_LOG" ≠ none → args.logLevel ≠ none
  device : env "MARANODE_DEVICE" ≠ none → args.device ≠ none
  rag : env.flag "MARANODE_RAG" = true → args.rag = true
  embeddingModel : env "MARANODE_EMBEDDING_MODEL" ≠ none → args.embeddingModel ≠ none
  ragCollection : env "MARANODE_RAG_COLLECTION" ≠ none → args.ragCollection ≠ none
  adminKey : env "MARANODE_ADMIN_KEY" ≠ none → args.adminKey ≠ none
  modelsDir : env "MARANODE_MODELS_DIR" ≠ none → args.modelsDir ≠ none
  unixSocket : env "MARANODE_UNIX_SOCKET" ≠ none → args.unixSocket ≠ none

variable (args : Args) (linux : Bool)

def pins : StartupPins where
  dataDir := args.dataDir
  bind := args.bind
  logLevel := args.logLevel
  device := args.device
  unixSocket := if args.noUnixSocket then some none else args.unixSocket.map socketOf
  noIsolation := args.noIsolation
  ragEnabled := if args.rag then some true else none
  embeddingModel := args.embeddingModel
  ragCollection := args.ragCollection
  adminKey := args.adminKey
  modelsDir := args.modelsDir

/-- The arguments over the file. -/
def merge (cfg : DaemonConfig) : DaemonConfig :=
  { cfg with
    dataDir := args.dataDir.getD cfg.dataDir
    bind := args.bind.getD cfg.bind
    logLevel := args.logLevel.getD cfg.logLevel
    device := args.device.getD cfg.device
    unixSocket :=
      if args.noUnixSocket then none else (args.unixSocket.map socketOf).getD cfg.unixSocket
    tlsCert := args.tlsCert.or cfg.tlsCert
    tlsKey := args.tlsKey.or cfg.tlsKey
    isolation :=
      { cfg.isolation with
        mode := if args.noIsolation || !linux then .disabled else cfg.isolation.mode }
    rag :=
      { cfg.rag with
        enabled := args.rag || cfg.rag.enabled
        embeddingModel := args.embeddingModel.getD cfg.rag.embeddingModel
        defaultCollection := args.ragCollection.getD cfg.rag.defaultCollection }
    auth := { cfg.auth with adminKey := args.adminKey.or cfg.auth.adminKey }
    modelsDir := args.modelsDir.getD cfg.modelsDir }

end Args

/-! ## The start -/

/-- What the daemon meets when it starts. -/
structure StartMoment where
  files : Files
  env : Env
  tables : Isolation.Tables
  fails : Nat → Bool

/-- The configuration at process start. -/
def DaemonConfig.snapshot (cfg : DaemonConfig) : StartupSnapshot where
  bind := cfg.bind
  dataDir := cfg.dataDir
  device := cfg.device
  ragEnabled := cfg.rag.enabled
  embeddingModel := cfg.rag.embeddingModel
  unixSocket := cfg.unixSocket
  maxParallel := cfg.inference.maxParallel

variable {φ : Type} (linux : Bool) (fromToml : DaemonConfig → String → Except String DaemonConfig)
  (tryNew : String → Option φ) (info : φ)

/-- What the reloads will work with. -/
def Args.services (args : Args) (cfg : DaemonConfig) (path : Option Path) : ReloadServices where
  configPath := path
  pins := args.pins
  snapshot := cfg.snapshot

/-- `main`, up to the services of the reloads.  What else may stop it, the stores, the
    engine and the listeners, has no part in the settings. -/
def startup (start : StartMoment) (args : Args) : Except String (ReloadServices × Running φ) :=
  match DaemonConfig.discoverOrExplicit linux fromToml start.files start.env args.config with
  | .error e => .error e
  | .ok (file, path) =>
      let cfg := args.merge linux file
      let isolator : Isolation.Isolator := ⟨isolationFromConfig cfg⟩
      match isolator.apply start.fails (Trace.start start.tables) with
      | (false, _) => .error "iptables"
      | (true, t) =>
          match cfg.assistant.resolvedSystemPrompt start.files with
          | .error e => .error e
          | .ok prompt =>
              .ok (args.services cfg path,
                { logFilter := (tryNew cfg.logLevel).getD info
                  maxWaiting := cfg.inference.maxQueueDepth
                  isolator := isolator
                  tables := t.state
                  rag := if cfg.rag.enabled then some (ragFromConfig cfg) else none
                  runtime := runtimeFromConfig cfg cfg.airGap prompt })

/-! ## The same configuration -/

section Same

variable {args : Args} {env : Env}

/-- A value under one that is there whenever it is. -/
theorem getD_getD_of_imp {α β : Type} {v : Option α} {e : Option β} (f : β → α) (a : α)
    (h : e ≠ none → v ≠ none) : v.getD ((e.map f).getD a) = v.getD a := by
  cases v with
  | some v => rfl
  | none =>
      cases e with
      | none => rfl
      | some e => exact absurd rfl (h (Option.some_ne_none e))

theorem or_or_of_imp {α : Type} {v e : Option α} (a : Option α) (h : e ≠ none → v ≠ none) :
    v.or (e.or a) = v.or a := by
  cases v with
  | some v => rfl
  | none =>
      cases e with
      | none => rfl
      | some e => exact absurd rfl (h (Option.some_ne_none e))

/-- The configuration of a reload is that of the start, but for the prompts in the log and
    for what is not read any more. -/
theorem apply_applyEnvOverrides (h : args.ReadsEnv env) (cfg : DaemonConfig) :
    args.pins.apply linux (cfg.applyEnvOverrides env) =
      { args.merge linux cfg with
        logging :=
          { cfg.logging with
            logPrompts := env.flag "MARANODE_LOG_PROMPTS" || cfg.logging.logPrompts }
        tpm := (cfg.applyEnvOverrides env).tpm
        tlsCert := cfg.tlsCert
        tlsKey := cfg.tlsKey } := by
  -- Wherever the environment has a value, the argument was read from it.
  have hbind := getD_getD_of_imp id cfg.bind h.bind
  have hlevel := getD_getD_of_imp id cfg.logLevel h.logLevel
  have hdevice := getD_getD_of_imp id cfg.device h.device
  have hmodel := getD_getD_of_imp id cfg.rag.embeddingModel h.embeddingModel
  have hcollection := getD_getD_of_imp id cfg.rag.defaultCollection h.ragCollection
  -- The socket can be switched off, which neither a file nor the environment overrides.
  have hsocket : args.pins.unixSocket.getD
      (((env "MARANODE_UNIX_SOCKET").map socketOf).getD cfg.unixSocket) =
        if args.noUnixSocket then none else (args.unixSocket.map socketOf).getD cfg.unixSocket := by
    rw [Args.pins]
    cases args.noUnixSocket with
    | true => rfl
    | false =>
        refine getD_getD_of_imp socketOf cfg.unixSocket fun henv hnone => ?_
        exact h.unixSocket henv (Option.map_eq_none_iff.mp hnone)
  -- The flags are one-way: an argument can switch retrieval on, never off.
  have hrag : args.pins.ragEnabled.getD (env.flag "MARANODE_RAG" || cfg.rag.enabled)
      = (args.rag || cfg.rag.enabled) := by
    rw [Args.pins]
    cases hrag : args.rag with
    | true => rfl
    | false =>
        have hflag : env.flag "MARANODE_RAG" = false := by
          rw [Bool.eq_false_iff]
          intro hflag
          cases hrag.symm.trans (h.rag hflag)
        rw [hflag]
        rfl
  rw [Option.map_id, id] at hbind hlevel hdevice hmodel hcollection
  simp only [StartupPins.apply, DaemonConfig.applyEnvOverrides, Args.merge, hsocket, hrag]
  simp only [Args.pins, getD_getD_of_imp String.toList cfg.dataDir h.dataDir,
    getD_getD_of_imp String.toList cfg.modelsDir h.modelsDir, or_or_of_imp _ h.adminKey]
  rw [hbind, hlevel, hdevice, hmodel, hcollection]
  rfl

end Same

/-! ## Reloads after the start -/

/-- The daemon, and what the reloads that succeeded have answered. -/
structure Reloads (φ : Type) where
  running : Running φ
  responses : List ReloadResponse

def ReloadServices.next (S : ReloadServices) (s : Reloads φ) (m : ReloadMoment) : Reloads φ where
  running := (S.reload linux fromToml tryNew m s.running).2
  responses := s.responses ++ (S.reload linux fromToml tryNew m s.running).1.toOption.toList

/-- The settings are those of the start, and no reload asked for a restart. -/
structure Agrees (s₀ : Running φ) (s : Reloads φ) : Prop where
  runtime : s.running.runtime = s₀.runtime
  rag : s.running.rag = s₀.rag
  isolation : s.running.isolator.config = s₀.isolator.config
  queue : s.running.maxWaiting = s₀.maxWaiting
  restart : ∀ response ∈ s.responses, response.requiresRestart = []

/-- A reload with the file and the environment of the start; the other files may change. -/
def SameConfig (start : StartMoment) (path : Option Path) (m : ReloadMoment) : Prop :=
  m.env = start.env ∧ ∀ p, path = some p → m.files p = start.files p

/-- When it gets to the settings of the API, the environment turns on no log of prompts that
    was off, and the system prompt is what it was. -/
def SettlesAlike (S : ReloadServices) (s₀ : Running φ) (s : Reloads φ) (m : ReloadMoment) :
    Prop :=
  ∀ path cfg prompt, S.effective linux fromToml m = .ok (path, cfg) →
    ¬ S.RefusesFilter tryNew m cfg →
    (s.running.isolator.reconfigure m.fails (isolationFromConfig cfg)
      (Trace.start s.running.tables)).1 = true →
    cfg.assistant.resolvedSystemPrompt m.files = .ok prompt →
    (m.env.flag "MARANODE_LOG_PROMPTS" = true → s₀.runtime.logPrompts = true) ∧
      prompt = s₀.runtime.systemPrompt

/-- A configuration that says what the daemon was started with, the settings of the API
    apart. -/
structure Matches (S : ReloadServices) (s₀ : Running φ) (env : Env) (cfg : DaemonConfig) :
    Prop where
  queue : cfg.inference.maxQueueDepth = s₀.maxWaiting
  isolation : isolationFromConfig cfg = s₀.isolator.config
  rag : s₀.rag = if cfg.rag.enabled then some (ragFromConfig cfg) else none
  runtime : ∀ prompt, runtimeFromConfig cfg cfg.airGap prompt = s₀.runtime ↔
    (env.flag "MARANODE_LOG_PROMPTS" = true → s₀.runtime.logPrompts = true) ∧
      prompt = s₀.runtime.systemPrompt
  restart : S.requiresRestart cfg = []

section Step

variable {linux fromToml tryNew info} {start : StartMoment} {args : Args} {S : ReloadServices}
  {s₀ : Running φ} {s : Reloads φ} {m : ReloadMoment}

theorem startup_ok (h : startup linux fromToml tryNew info start args = .ok (S, s₀)) :
    ∃ file path prompt, DaemonConfig.discoverOrExplicit linux fromToml start.files start.env
        args.config = .ok (file, path) ∧
      S = args.services (args.merge linux file) path ∧
      s₀.maxWaiting = file.inference.maxQueueDepth ∧
      s₀.isolator.config = isolationFromConfig (args.merge linux file) ∧
      s₀.rag = (if (args.merge linux file).rag.enabled
        then some (ragFromConfig (args.merge linux file)) else none) ∧
      s₀.runtime = runtimeFromConfig (args.merge linux file) (args.merge linux file).airGap
        prompt := by
  unfold startup at h
  cases hfile : DaemonConfig.discoverOrExplicit linux fromToml start.files start.env
      args.config with
  | error e =>
      rw [hfile] at h
      cases h
  | ok found =>
      obtain ⟨file, path⟩ := found
      rw [hfile] at h
      dsimp only at h
      split at h
      · cases h
      · split at h
        · cases h
        · next prompt hprompt =>
            obtain ⟨rfl, rfl⟩ := Prod.mk.inj (Except.ok.inj h)
            exact ⟨file, path, prompt, rfl, rfl, rfl, rfl, rfl, rfl⟩

/-- The file that was found is the one at the path that is kept. -/
theorem load_of_discoverOrExplicit {files : Files} {env : Env} {explicit : Option Path}
    {file : DaemonConfig} {p : Path}
    (h : DaemonConfig.discoverOrExplicit linux fromToml files env explicit = .ok (file, some p)) :
    DaemonConfig.load linux fromToml files env p = .ok file := by
  have hmap : ∀ q, (DaemonConfig.load linux fromToml files env q).map (fun cfg => (cfg, some q))
      = .ok (file, some p) → DaemonConfig.load linux fromToml files env p = .ok file := by
    intro q hq
    cases hload : DaemonConfig.load linux fromToml files env q with
    | error e =>
        rw [hload] at hq
        cases hq
    | ok cfg =>
        rw [hload] at hq
        obtain ⟨rfl, hpath⟩ := Prod.mk.inj (Except.ok.inj hq)
        obtain rfl := Option.some.inj hpath
        exact hload
  unfold DaemonConfig.discoverOrExplicit DaemonConfig.discover at h
  split at h
  · split at h
    · cases h
    · exact hmap _ h
  · split at h
    · cases h
    · exact hmap _ h

/-- What a reload finds depends on its file and on the environment. -/
theorem load_congr {files files' : Files} {p : Path} (h : files' p = files p) (env : Env) :
    DaemonConfig.load linux fromToml files' env p = DaemonConfig.load linux fromToml files env p := by
  rw [DaemonConfig.load, DaemonConfig.load, Files.exists_, Files.exists_, Files.readToString,
    Files.readToString, h]

/-- The configuration of a reload with the file, the environment and the command line of the
    start. -/
theorem matches_of_effective (h : startup linux fromToml tryNew info start args = .ok (S, s₀))
    (hargs : args.ReadsEnv start.env) (hm : SameConfig start S.configPath m) {path : Path}
    {cfg : DaemonConfig} (hcfg : S.effective linux fromToml m = .ok (path, cfg)) :
    Matches S s₀ m.env cfg := by
  obtain ⟨file, found, prompt, hfile, rfl, hqueue, hiso, hrag, hruntime⟩ := startup_ok h
  obtain ⟨henv, hsame⟩ := hm
  unfold ReloadServices.effective at hcfg
  -- Only a configuration with a path can be read again at all.
  cases found with
  | none => cases hcfg
  | some p =>
      dsimp only [Args.services] at hcfg
      -- The reload reads the file that the start had read, under the same environment.
      rw [load_congr (hsame p rfl), henv, load_of_discoverOrExplicit hfile] at hcfg
      obtain ⟨-, rfl⟩ := Prod.mk.inj (Except.ok.inj hcfg)
      rw [apply_applyEnvOverrides linux hargs, henv]
      refine ⟨hqueue.symm, hiso.symm, hrag, fun prompt' => ?_, ?_⟩
      · rw [hruntime]
        constructor
        -- The settings agree as a whole, so their two fields agree.
        · intro heq
          refine ⟨fun hflag => ?_, congrArg RuntimeSettings.systemPrompt heq⟩
          have hlog := congrArg RuntimeSettings.logPrompts heq
          have htrue : (start.env.flag "MARANODE_LOG_PROMPTS" || file.logging.logPrompts) = true := by
            rw [hflag, Bool.true_or]
          exact hlog.symm.trans htrue
        -- The prompts are logged as the file says, if the flag is not set behind its back.
        · rintro ⟨hlog, rfl⟩
          have hflag : (start.env.flag "MARANODE_LOG_PROMPTS" || file.logging.logPrompts)
              = file.logging.logPrompts := by
            cases hon : start.env.flag "MARANODE_LOG_PROMPTS" with
            | false => rfl
            | true => exact (hlog hon).symm
          simp only [runtimeFromConfig, identityFromConfig, DaemonConfig.airGap, hflag]
          rfl
      · simp [ReloadServices.requiresRestart, Args.services, DaemonConfig.snapshot, Args.merge]

/-- A reload that writes what the start wrote. -/
theorem reconfigured_agrees {cfg : DaemonConfig} {running : Running φ} {env : Env}
    (h : Agrees s₀ s) (hcfg : Matches S s₀ env cfg)
    (hswap : S.swapFilter tryNew m cfg s.running = .ok running) :
    (ReloadServices.reconfigured m cfg running).2.runtime = s₀.runtime ∧
      (ReloadServices.reconfigured m cfg running).2.rag = s₀.rag ∧
      (ReloadServices.reconfigured m cfg running).2.isolator.config = s₀.isolator.config ∧
      (ReloadServices.reconfigured m cfg running).2.maxWaiting = s₀.maxWaiting := by
  have hrunning := (ReloadServices.swapFilter_ok hswap).1
  refine ⟨?_, ?_, hcfg.isolation, hcfg.queue⟩
  · exact (congrArg Running.runtime hrunning).trans h.runtime
  · exact (congrArg Running.rag hrunning).trans h.rag

/-- An engine that has its settings keeps them. -/
theorem rag_map_apply {cfg : DaemonConfig} {env : Env} (hcfg : Matches S s₀ env cfg) :
    s₀.rag.map (fun c => c.applyRuntimeConfig (ragFromConfig cfg)) = s₀.rag := by
  rw [hcfg.rag]
  cases cfg.rag.enabled with
  | false => rfl
  | true => rfl

/-- The engine is there when it is enabled, so nothing is left for a restart. -/
theorem restart_eq_nil {cfg : DaemonConfig} {env : Env} (hcfg : Matches S s₀ env cfg) :
    S.requiresRestart cfg ++
      (if s₀.rag.isNone ∧ cfg.rag.enabled = true then ["rag.enabled"] else []) = [] := by
  rw [hcfg.restart, hcfg.rag]
  cases cfg.rag.enabled with
  | false => rfl
  | true => rfl

/-- An error answers nothing. -/
theorem restart_of_error (h : Agrees s₀ s) (e : ReloadError) : ∀ response ∈
    s.responses ++ (.error e : Except ReloadError ReloadResponse).toOption.toList,
      response.requiresRestart = [] := by
  show ∀ response ∈ s.responses ++ [], _
  rw [List.append_nil]
  exact h.restart

/-- The condition is about the configuration that is read. -/
theorem settlesAlike_iff {path : Path} {cfg : DaemonConfig}
    (hcfg : S.effective linux fromToml m = .ok (path, cfg)) (hmatches : Matches S s₀ m.env cfg) :
    SettlesAlike linux fromToml tryNew S s₀ s m ↔
      (¬ S.RefusesFilter tryNew m cfg →
        (s.running.isolator.reconfigure m.fails (isolationFromConfig cfg)
          (Trace.start s.running.tables)).1 = true →
        ∀ prompt, cfg.assistant.resolvedSystemPrompt m.files = .ok prompt →
          runtimeFromConfig cfg cfg.airGap prompt = s₀.runtime) := by
  constructor
  · intro hall hpasses hiso prompt hprompt
    exact (hmatches.runtime prompt).mpr (hall path cfg prompt hcfg hpasses hiso hprompt)
  · intro hall path' cfg' prompt heq hpasses hiso hprompt
    obtain ⟨-, rfl⟩ := Prod.mk.inj (Except.ok.inj (hcfg.symm.trans heq))
    exact (hmatches.runtime prompt).mp (hall hpasses hiso prompt hprompt)

/-- One reload. -/
theorem next_agrees_iff (hstart : startup linux fromToml tryNew info start args = .ok (S, s₀))
    (hargs : args.ReadsEnv start.env) (hm : SameConfig start S.configPath m)
    (h : Agrees s₀ s) :
    Agrees s₀ (S.next linux fromToml tryNew s m) ↔
      SettlesAlike linux fromToml tryNew S s₀ s m := by
  unfold ReloadServices.next ReloadServices.reload
  -- A reload that reads no configuration leaves the running one.
  cases hcfg : S.effective linux fromToml m with
  | error e =>
      refine iff_of_true ?_ fun path cfg prompt heq => ?_
      · exact ⟨h.runtime, h.rag, h.isolation, h.queue, restart_of_error h _⟩
      · cases hcfg.symm.trans heq
  | ok found =>
      obtain ⟨path, cfg⟩ := found
      have hmatches := matches_of_effective hstart hargs hm hcfg
      rw [settlesAlike_iff hcfg hmatches]
      dsimp only
      -- A refused filter leaves it too, and `SettlesAlike` asks nothing then.
      cases hswap : S.swapFilter tryNew m cfg s.running with
      | error e =>
          rw [ReloadServices.reloadWith, hswap]
          refine iff_of_true ?_ fun hpasses => absurd
            (ReloadServices.swapFilter_error_iff.mp ⟨e, hswap⟩) hpasses
          exact ⟨h.runtime, h.rag, h.isolation, h.queue, restart_of_error h _⟩
      | ok running =>
          have hpasses : ¬ S.RefusesFilter tryNew m cfg := by
            intro hrefuses
            obtain ⟨e, he⟩ := ReloadServices.swapFilter_error_iff.mpr hrefuses
            cases hswap.symm.trans he
          have hfst := ReloadServices.reconfigured_fst hswap
          obtain ⟨hruntime, hrag, hiso, hqueue⟩ := reconfigured_agrees h hmatches hswap
          -- An isolation that fails or a prompt that cannot be read ends before the settings.
          obtain ⟨hfalse, heq⟩ | ⟨e, -, hprompt, heq⟩ | ⟨prompt, htrue, hprompt, heq⟩ :=
            ReloadServices.reloadWith_cases tryNew S m path cfg s.running hswap
          · rw [heq]
            refine iff_of_true ?_ fun _ htrue => ?_
            · exact ⟨hruntime, hrag, hiso, hqueue, restart_of_error h _⟩
            · cases hfalse.symm.trans (hfst.trans htrue)
          · rw [heq]
            refine iff_of_true ?_ fun _ _ prompt hread => ?_
            · exact ⟨hruntime, hrag, hiso, hqueue, restart_of_error h _⟩
            · cases hprompt.symm.trans hread
          -- The settings are replaced, and they agree if the prompt that is read is the start's.
          · have hrunning : running.rag = s₀.rag :=
              (congrArg Running.rag (ReloadServices.swapFilter_ok hswap).1).trans h.rag
            rw [heq, hrunning, restart_eq_nil hmatches]
            constructor
            · intro hagrees _ _ read hread
              rw [← Except.ok.inj (hprompt.symm.trans hread)]
              exact hagrees.runtime
            · intro hall
              refine ⟨hall hpasses (hfst.symm.trans htrue) prompt hprompt, ?_, hiso, hqueue, ?_⟩
              · exact (congrArg (Option.map _) hrag).trans (rag_map_apply hmatches)
              · intro response hresponse
                rcases List.mem_append.mp hresponse with hold | hnew
                · exact h.restart response hold
                -- What needs a restart is what is reported, unless the entry could not be written.
                · cases happend : m.append with
                  | none =>
                      rw [happend] at hnew
                      obtain rfl := List.mem_singleton.mp hnew
                      rfl
                  | some e =>
                      rw [happend] at hnew
                      cases hnew

end Step

/-- A reload with the configuration of the start. -/
abbrev SameReload (start : StartMoment) (path : Option Path) :=
  { m : ReloadMoment // SameConfig start path m }

/-- A reload always returns. -/
def ReloadServices.step (S : ReloadServices) (start : StartMoment) (s : Reloads φ)
    (m : SameReload start S.configPath) : Option (Reloads φ) :=
  some (S.next linux fromToml tryNew s m)

/-- **Reloads without a change.**  After reloads with the file, the environment and the
    command line of the start, the settings are those of the start and no restart is asked
    for, exactly as long as each that gets to the settings of the API finds no log of prompts
    turned on by the environment alone, and the system prompt of the start. -/
theorem reloads_agree_iff {start : StartMoment} {args : Args} {S : ReloadServices} {s₀ : Running φ}
    (hstart : startup linux fromToml tryNew info start args = .ok (S, s₀))
    (hargs : args.ReadsEnv start.env) (ms : List (SameReload start S.configPath)) :
    Along (S.step linux fromToml tryNew start)
        (fun s m => Agrees s₀ (S.next linux fromToml tryNew s m)) ⟨s₀, []⟩ ms ↔
      Along (S.step linux fromToml tryNew start)
        (fun s m => SettlesAlike linux fromToml tryNew S s₀ s m) ⟨s₀, []⟩ ms := by
  have hexact : ∀ (s : Reloads φ) (m : SameReload start S.configPath), Agrees s₀ s →
      ((∀ s', S.step linux fromToml tryNew start s m = some s' → Agrees s₀ s') ↔
        SettlesAlike linux fromToml tryNew S s₀ s m) := by
    intro s m hs
    rw [← next_agrees_iff hstart hargs m.property hs]
    refine ⟨fun h => h _ rfl, fun h s' hs' => ?_⟩
    rwa [← Option.some.inj hs']
  have hfirst : Agrees s₀ ⟨s₀, []⟩ := ⟨rfl, rfl, rfl, rfl, List.forall_mem_nil _⟩
  rw [← along_iff_of_exact hexact hfirst ms]
  constructor
  · refine Along.mono fun s m h s' hs' => ?_
    rwa [← Option.some.inj hs']
  · exact Along.mono fun s m h => h _ rfl

/-! ## A variable that only a reload reads -/

/-- `maranoded --config /etc/maranode/config.toml --no-isolation --log-level info --bind
    127.0.0.1:9443`, where the last two may come from the environment. -/
def sampleArgs : Args where
  config := some configToml
  noIsolation := true
  dataDir := none
  bind := some "127.0.0.1:9443"
  logLevel := some "info"
  device := none
  rag := false
  embeddingModel := none
  ragCollection := none
  adminKey := none
  modelsDir := none
  unixSocket := none
  noUnixSocket := false
  tlsCert := none
  tlsKey := none

/-- The file sets the queue and a prompt, which is there. -/
def sampleFiles (p : Path) : Option (Except String String) :=
  if p = configToml then some (.ok queueAndPrompt)
  else if p = promptTxt then some (.ok "Be brief.")
  else none

theorem sampleFiles_configToml : sampleFiles configToml = some (.ok queueAndPrompt) := by
  rw [sampleFiles, if_pos rfl]

theorem sampleFiles_promptTxt : sampleFiles promptTxt = some (.ok "Be brief.") := by
  have hne : ¬ promptTxt = configToml := by decide
  rw [sampleFiles, if_neg hne, if_pos rfl]

def sampleStart (env : Env) : StartMoment where
  files := sampleFiles
  env := env
  tables := .empty
  fails _ := false

def startedConfig (env : Env) : DaemonConfig :=
  sampleArgs.merge true (queueAndPromptFrom (.default true env))

def startedServices (env : Env) : ReloadServices :=
  sampleArgs.services (startedConfig env) (some configToml)

def startedRunning (env : Env) : Running String where
  logFilter := "info"
  maxWaiting := 8
  isolator := ⟨isolationFromConfig (startedConfig env)⟩
  tables := .empty
  rag := none
  runtime := runtimeFromConfig (startedConfig env) false (some "Be brief.")

theorem load_sampleFiles (env : Env) :
    DaemonConfig.load true readSample sampleFiles env configToml
      = .ok (queueAndPromptFrom (.default true env)) := by
  have htoml : readSample (.default true env) queueAndPrompt
      = .ok (queueAndPromptFrom (.default true env)) := if_pos rfl
  rw [DaemonConfig.load, Files.exists_, Files.readToString, sampleFiles_configToml]
  dsimp only [Option.isSome, Option.getD]
  rw [htoml]
  rfl

/-- The prompt that the file names, as a start or a reload finds it. -/
theorem resolvedSystemPrompt_sampleFiles {a : AssistantConfig}
    (h : a.systemPromptFile = some promptTxt) :
    a.resolvedSystemPrompt sampleFiles = .ok (some "Be brief.") := by
  have htrimmed : trimmed "Be brief." = "Be brief." := by decide
  rw [AssistantConfig.resolvedSystemPrompt, h]
  dsimp only
  rw [Files.readToString, sampleFiles_promptTxt]
  dsimp only [Option.getD]
  rw [htrimmed]
  rfl

theorem startup_sampleStart (env : Env) :
    startup true readSample some "info" (sampleStart env) sampleArgs
      = .ok (startedServices env, startedRunning env) := by
  have hexists : Files.exists_ sampleFiles configToml = true := by
    rw [Files.exists_, sampleFiles_configToml]
    rfl
  have hfile : DaemonConfig.discoverOrExplicit true readSample sampleFiles env sampleArgs.config
      = .ok (queueAndPromptFrom (.default true env), some configToml) := by
    unfold DaemonConfig.discoverOrExplicit
    dsimp only [sampleArgs]
    rw [hexists, load_sampleFiles]
    rfl
  have hprompt : (startedConfig env).assistant.resolvedSystemPrompt sampleFiles
      = .ok (some "Be brief.") := resolvedSystemPrompt_sampleFiles rfl
  unfold startup
  dsimp only [sampleStart]
  rw [hfile]
  dsimp only
  rw [← startedConfig, hprompt]
  rfl

/-- A reload that meets the file and the environment of the start. -/
def sampleReload (env : Env) : SameReload (sampleStart env) (startedServices env).configPath :=
  ⟨{ files := sampleFiles
     env := env
     logReload := none
     fails := fun _ => false
     append := none }, rfl, fun _ _ => rfl⟩

theorem effective_sampleReload (env : Env) :
    (startedServices env).effective true readSample (sampleReload env)
      = .ok (configToml, sampleArgs.pins.apply true
          ((queueAndPromptFrom (.default true env)).applyEnvOverrides env)) := by
  unfold ReloadServices.effective
  dsimp only [startedServices, Args.services, sampleReload]
  rw [load_sampleFiles]

/-- The log level and the address are those of the environment. -/
def sampleEnv : Env := fun name =>
  if name = "RUST_LOG" then some "info"
  else if name = "MARANODE_BIND" then some "127.0.0.1:9443" else none

theorem readsEnv_sampleEnv : sampleArgs.ReadsEnv sampleEnv where
  dataDir h := absurd h (by decide)
  bind _ := Option.some_ne_none _
  logLevel _ := Option.some_ne_none _
  device h := absurd h (by decide)
  rag h := absurd h (by decide)
  embeddingModel h := absurd h (by decide)
  ragCollection h := absurd h (by decide)
  adminKey h := absurd h (by decide)
  modelsDir h := absurd h (by decide)
  unixSocket h := absurd h (by decide)

/-- Two reloads with the variables, the file and the prompt of the start. -/
theorem reloads_agree_sampleEnv :
    Along ((startedServices sampleEnv).step true readSample some (sampleStart sampleEnv))
      (fun s m => Agrees (startedRunning sampleEnv)
        ((startedServices sampleEnv).next true readSample some s m))
      ⟨startedRunning sampleEnv, []⟩ [sampleReload sampleEnv, sampleReload sampleEnv] := by
  refine (reloads_agree_iff true readSample some "info" (startup_sampleStart sampleEnv)
    readsEnv_sampleEnv _).mpr ?_
  refine along_of_forall (fun m hm s path cfg prompt hcfg _ _ hprompt => ?_) _
  have hmoment : m = sampleReload sampleEnv := by simpa using hm
  rw [hmoment, effective_sampleReload] at hcfg
  obtain ⟨-, rfl⟩ := Prod.mk.inj (Except.ok.inj hcfg)
  rw [hmoment] at hprompt
  have hbrief : (.ok (some "Be brief.") : Except String _) = .ok prompt :=
    (resolvedSystemPrompt_sampleFiles rfl).symm.trans hprompt
  refine ⟨fun hflag => ?_, (Except.ok.inj hbrief).symm⟩
  rw [hmoment] at hflag
  exact absurd hflag (by decide)

/-- `MARANODE_LOG_PROMPTS=1`. -/
def logPromptsEnv : Env := fun name => if name = "MARANODE_LOG_PROMPTS" then some "1" else none

theorem readsEnv_logPromptsEnv : sampleArgs.ReadsEnv logPromptsEnv where
  dataDir h := absurd h (by decide)
  bind h := absurd h (by decide)
  logLevel h := absurd h (by decide)
  device h := absurd h (by decide)
  rag h := absurd h (by decide)
  embeddingModel h := absurd h (by decide)
  ragCollection h := absurd h (by decide)
  adminKey h := absurd h (by decide)
  modelsDir h := absurd h (by decide)
  unixSocket h := absurd h (by decide)

/-- The daemon starts without a log of prompts, and the first reload turns it on. -/
theorem not_agrees_logPromptsEnv :
    startup true readSample some "info" (sampleStart logPromptsEnv) sampleArgs
        = .ok (startedServices logPromptsEnv, startedRunning logPromptsEnv) ∧
      sampleArgs.ReadsEnv logPromptsEnv ∧
      ¬ Agrees (startedRunning logPromptsEnv)
        ((startedServices logPromptsEnv).next true readSample some
          ⟨startedRunning logPromptsEnv, []⟩ (sampleReload logPromptsEnv)) := by
  refine ⟨startup_sampleStart logPromptsEnv, readsEnv_logPromptsEnv, fun h => ?_⟩
  have hruntime := congrArg RuntimeSettings.logPrompts h.runtime
  rw [ReloadServices.next, ReloadServices.reload, effective_sampleReload] at hruntime
  have hlog : true = false := hruntime
  cases hlog

end Maranode.Daemon
