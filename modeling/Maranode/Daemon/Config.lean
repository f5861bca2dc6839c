/-
  Maranode.Daemon.Config

  The configuration of the daemon: `config.rs`, and what `reload.rs` makes of it.

  The TOML reader is a parameter.  It is given the defaults too, as a section that is left
  out of the file has them, and some of them are taken from the environment.
-/
import Maranode.Isolation.Iptables
import Maranode.Lib.Encoding
import Maranode.Lib.Path
import Maranode.Rag.Store

namespace Maranode.Daemon

open Lib
open Isolation (AirGapMode WhitelistEntry)
open Rag (F32Bits)

/-- `str::trim`. -/
def trimmed (s : String) : String := String.ofList (Text.trim s.toList)

/-! ## The sections -/

structure InferenceConfig where
  maxQueueDepth : Nat
  maxParallel : Nat
  deriving DecidableEq

structure IsolationConfig where
  mode : AirGapMode
  apiPort : UInt16
  allowedSources : List String
  whitelist : List WhitelistEntry
  deriving DecidableEq

structure OidcConfig where
  issuerUrl : String
  clientId : String
  clientSecret : String
  redirectUri : String
  defaultRole : String
  deriving DecidableEq

structure LdapGroupRole where
  groupDn : String
  role : String
  deriving DecidableEq

structure LdapConfig where
  url : String
  bindDn : String
  bindPw : String
  baseDn : String
  uidAttr : String
  groupRoleMap : List LdapGroupRole
  defaultRole : String
  deriving DecidableEq

structure SamlConfig where
  idpMetadataUrl : String
  spEntityId : String
  spCert : Option String
  spKey : Option String
  idpCert : Option String
  defaultRole : String
  deriving DecidableEq

structure AuthConfig where
  adminKey : Option String
  sessionHours : Int
  oidc : Option OidcConfig
  ldap : Option LdapConfig
  saml : Option SamlConfig
  deriving DecidableEq

inductive RagIngestPolicy where
  | anyone
  | adminOnly
  | allowlist
  deriving DecidableEq

structure RagConfig where
  enabled : Bool
  embeddingModel : String
  defaultCollection : String
  chunkSize : Nat
  chunkOverlap : Nat
  topK : Nat
  minScore : F32Bits
  maxContextChars : Nat
  ingestPolicy : RagIngestPolicy
  ingestAllowlist : List String
  deriving DecidableEq

structure AssistantConfig where
  name : String
  systemPrompt : String
  systemPromptFile : Option Path
  deriving DecidableEq

structure LoggingConfig where
  logPrompts : Bool
  contentLogRetentionDays : UInt32
  auditMaxMb : UInt64
  auditMaxAgeDays : UInt32
  deriving DecidableEq

structure MetricsConfig where
  enabled : Bool
  requireAuth : Bool
  deriving DecidableEq

structure SmtpConfig where
  host : String
  port : UInt16
  username : Option String
  password : Option String
  from_ : String
  starttls : Bool
  deriving DecidableEq

structure TpmConfig where
  enabled : Bool
  softwarePassphrase : Option String
  deriving DecidableEq

structure DaemonConfig where
  dataDir : Path
  modelsDir : Path
  bind : String
  unixSocket : Option String
  tlsCert : Option Path
  tlsKey : Option Path
  logLevel : String
  device : String
  inference : InferenceConfig
  isolation : IsolationConfig
  auth : AuthConfig
  rag : RagConfig
  assistant : AssistantConfig
  logging : LoggingConfig
  tpm : TpmConfig
  metrics : MetricsConfig
  smtp : Option SmtpConfig
  teeEncryptKey : Option String
  deriving DecidableEq

/-! ## The environment -/

/-- The variables that are set, to text. -/
abbrev Env := String → Option String

/-- Set to `1` or to `true`. -/
def Env.flag (env : Env) (name : String) : Bool :=
  env name == some "1" || env name == some "true"

/-- `default_data_dir`. -/
def defaultDataDir (env : Env) : Path :=
  match env "MARANODE_DATA_DIR", env "HOME" with
  | some dir, _ => dir.toList
  | none, some home => Path.join home.toList ".local/share/maranode".toList
  | none, none => ".maranode-data".toList

/-- `default_models_dir`. -/
def defaultModelsDir (env : Env) : Path :=
  match env "MARANODE_MODELS_DIR", env "MODEL_DIR" with
  | some dir, _ => dir.toList
  | none, some dir => dir.toList
  | none, none => "models".toList

/-- `default_unix_socket`; `linux` is the target. -/
def defaultUnixSocket (linux : Bool) (env : Env) : Option String :=
  if linux then some "/run/maranode/api.sock"
  else some (String.ofList (Path.join (defaultDataDir env) "api.sock".toList))

def InferenceConfig.default : InferenceConfig where
  maxQueueDepth := 32
  maxParallel := 4

def IsolationConfig.default : IsolationConfig where
  mode := .airGap
  apiPort := 11984
  allowedSources := ["127.0.0.1", "::1"]
  whitelist := []

def AuthConfig.default : AuthConfig where
  adminKey := none
  sessionHours := 24
  oidc := none
  ldap := none
  saml := none

def RagConfig.default : RagConfig where
  enabled := false
  embeddingModel := "bge-m3:latest"
  defaultCollection := "default"
  chunkSize := 1200
  chunkOverlap := 200
  topK := 5
  -- 0.40
  minScore := 0x3ECCCCCD
  maxContextChars := 6000
  ingestPolicy := .anyone
  ingestAllowlist := []

def AssistantConfig.default : AssistantConfig where
  name := ""
  systemPrompt := ""
  systemPromptFile := none

def LoggingConfig.default : LoggingConfig where
  logPrompts := false
  contentLogRetentionDays := 90
  auditMaxMb := 256
  auditMaxAgeDays := 0

def MetricsConfig.default : MetricsConfig where
  enabled := false
  requireAuth := true

def TpmConfig.default : TpmConfig where
  enabled := false
  softwarePassphrase := none

def DaemonConfig.default (linux : Bool) (env : Env) : DaemonConfig where
  dataDir := defaultDataDir env
  modelsDir := defaultModelsDir env
  bind := "127.0.0.1:11984"
  unixSocket := defaultUnixSocket linux env
  tlsCert := none
  tlsKey := none
  logLevel := "info"
  device := "auto"
  inference := .default
  isolation := .default
  auth := .default
  rag := .default
  assistant := .default
  logging := .default
  tpm := .default
  metrics := .default
  smtp := none
  teeEncryptKey := none

/-! ## Files -/

/-- The files that exist: their text, or why it cannot be read. -/
abbrev Files := Path → Option (Except String String)

def Files.exists_ (files : Files) (p : Path) : Bool := (files p).isSome

/-- `read_to_string`. -/
def Files.readToString (files : Files) (p : Path) : Except String String :=
  (files p).getD (.error "No such file or directory (os error 2)")

variable (linux : Bool) (fromToml : DaemonConfig → String → Except String DaemonConfig)
  (files : Files) (env : Env)

/-- `DaemonConfig::load`; a file that does not exist stands for the defaults. -/
def DaemonConfig.load (path : Path) : Except String DaemonConfig :=
  if !files.exists_ path then .ok (.default linux env)
  else
    match files.readToString path with
    | .error e => .error e
    | .ok contents =>
        match fromToml (.default linux env) contents with
        | .error e => .error ("invalid config at " ++ String.ofList path ++ ": " ++ e)
        | .ok config => .ok config

/-- `config_search_paths`. -/
def configSearchPaths : List Path :=
  (match env "XDG_CONFIG_HOME", env "HOME" with
    | some xdg, _ => [Path.join xdg.toList "maranode/config.toml".toList]
    | none, some home => [Path.join home.toList ".config/maranode/config.toml".toList]
    | none, none => []) ++ ["/etc/maranode/config.toml".toList]

/-- `DaemonConfig::discover`: the first path that exists. -/
def DaemonConfig.discover : Except String (DaemonConfig × Option Path) :=
  match (configSearchPaths env).find? files.exists_ with
  | none => .ok (.default linux env, none)
  | some path => (load linux fromToml files env path).map fun cfg => (cfg, some path)

def DaemonConfig.discoverOrExplicit (explicit : Option Path) :
    Except String (DaemonConfig × Option Path) :=
  match explicit with
  | none => discover linux fromToml files env
  | some p =>
      if !files.exists_ p then .error ("config file not found: " ++ String.ofList p)
      else (load linux fromToml files env p).map fun cfg => (cfg, some p)

/-- The text that a socket is set to; the empty one stands for none. -/
def socketOf (s : String) : Option String := if s.isEmpty then none else some s

/-- `apply_env_overrides`. -/
def DaemonConfig.applyEnvOverrides (cfg : DaemonConfig) : DaemonConfig :=
  { cfg with
    dataDir := ((env "MARANODE_DATA_DIR").map String.toList).getD cfg.dataDir
    modelsDir := ((env "MARANODE_MODELS_DIR").map String.toList).getD cfg.modelsDir
    bind := (env "MARANODE_BIND").getD cfg.bind
    logLevel := (env "RUST_LOG").getD cfg.logLevel
    device := (env "MARANODE_DEVICE").getD cfg.device
    unixSocket := ((env "MARANODE_UNIX_SOCKET").map socketOf).getD cfg.unixSocket
    auth := { cfg.auth with adminKey := (env "MARANODE_ADMIN_KEY").or cfg.auth.adminKey }
    rag :=
      { cfg.rag with
        enabled := env.flag "MARANODE_RAG" || cfg.rag.enabled
        embeddingModel := (env "MARANODE_EMBEDDING_MODEL").getD cfg.rag.embeddingModel
        defaultCollection := (env "MARANODE_RAG_COLLECTION").getD cfg.rag.defaultCollection }
    logging :=
      { cfg.logging with logPrompts := env.flag "MARANODE_LOG_PROMPTS" || cfg.logging.logPrompts }
    tpm :=
      { enabled := env.flag "MARANODE_TPM" || cfg.tpm.enabled
        softwarePassphrase := (env "MARANODE_TPM_PASSPHRASE").or cfg.tpm.softwarePassphrase } }

/-- The prompt that is made of the assistant's name. -/
def promptOf (name : String) : String :=
  "You are " ++ name ++ ", a helpful and honest AI assistant. Be polite, concise, and accurate. " ++
    "Never assist with requests that could harm people."

/-- The inline prompt, or the one made of the name. -/
def AssistantConfig.inlinePrompt (a : AssistantConfig) : Option String :=
  if !(trimmed a.systemPrompt).isEmpty then some (trimmed a.systemPrompt)
  else if !(trimmed a.name).isEmpty then some (promptOf (trimmed a.name))
  else none

/-- `resolved_system_prompt`: the file, the inline prompt, the name. -/
def AssistantConfig.resolvedSystemPrompt (a : AssistantConfig) : Except String (Option String) :=
  match a.systemPromptFile with
  | none => .ok a.inlinePrompt
  | some path =>
      match files.readToString path with
      | .error e => .error
          ("failed to read assistant.system_prompt_file '" ++ String.ofList path ++ "': " ++ e)
      | .ok text =>
          if !(trimmed text).isEmpty then .ok (some (trimmed text)) else .ok a.inlinePrompt

/-! ## The command line -/

/-- What is fixed for the lifetime of the process. -/
structure StartupPins where
  dataDir : Option Path
  bind : Option String
  logLevel : Option String
  device : Option String
  unixSocket : Option (Option String)
  noIsolation : Bool
  ragEnabled : Option Bool
  embeddingModel : Option String
  ragCollection : Option String
  adminKey : Option String
  modelsDir : Option Path

def StartupPins.apply (pins : StartupPins) (cfg : DaemonConfig) : DaemonConfig :=
  { cfg with
    dataDir := pins.dataDir.getD cfg.dataDir
    bind := pins.bind.getD cfg.bind
    logLevel := pins.logLevel.getD cfg.logLevel
    device := pins.device.getD cfg.device
    unixSocket := pins.unixSocket.getD cfg.unixSocket
    isolation :=
      { cfg.isolation with
        mode := if pins.noIsolation || !linux then .disabled else cfg.isolation.mode }
    rag :=
      { cfg.rag with
        enabled := pins.ragEnabled.getD cfg.rag.enabled
        embeddingModel := pins.embeddingModel.getD cfg.rag.embeddingModel
        defaultCollection := pins.ragCollection.getD cfg.rag.defaultCollection }
    auth := { cfg.auth with adminKey := pins.adminKey.or cfg.auth.adminKey }
    modelsDir := pins.modelsDir.getD cfg.modelsDir }

/-! ## What the parts of the daemon are given -/

/-- Field for field the section. -/
abbrev OidcCfg := OidcConfig

abbrev SamlCfg := SamlConfig

abbrev SmtpCfg := SmtpConfig

structure LdapCfg where
  url : String
  bindDn : String
  bindPw : String
  baseDn : String
  uidAttr : String
  groupRoleMap : List (String × String)
  defaultRole : String
  deriving DecidableEq

structure IdentityConfig where
  oidc : Option OidcCfg
  ldap : Option LdapCfg
  saml : Option SamlCfg
  sessionHours : Int
  deriving DecidableEq

structure RuntimeSettings where
  adminKey : Option String
  ragIngestPolicy : RagIngestPolicy
  ragIngestAllowlist : List String
  systemPrompt : Option String
  identity : IdentityConfig
  airGap : Bool
  logPrompts : Bool
  contentLogRetentionDays : UInt32
  auditMaxMb : UInt64
  auditMaxAgeDays : UInt32
  metricsEnabled : Bool
  metricsRequireAuth : Bool
  smtp : Option SmtpCfg
  teeEncryptKey : Option String
  deriving DecidableEq

def LdapConfig.cfg (l : LdapConfig) : LdapCfg where
  url := l.url
  bindDn := l.bindDn
  bindPw := l.bindPw
  baseDn := l.baseDn
  uidAttr := l.uidAttr
  groupRoleMap := l.groupRoleMap.map fun g => (g.groupDn, g.role)
  defaultRole := l.defaultRole

def identityFromConfig (cfg : DaemonConfig) : IdentityConfig where
  oidc := cfg.auth.oidc
  ldap := cfg.auth.ldap.map LdapConfig.cfg
  saml := cfg.auth.saml
  sessionHours := cfg.auth.sessionHours

def runtimeFromConfig (cfg : DaemonConfig) (airGap : Bool) (systemPrompt : Option String) :
    RuntimeSettings where
  adminKey := cfg.auth.adminKey
  ragIngestPolicy := cfg.rag.ingestPolicy
  ragIngestAllowlist := cfg.rag.ingestAllowlist
  systemPrompt := systemPrompt
  identity := identityFromConfig cfg
  airGap := airGap
  logPrompts := cfg.logging.logPrompts
  contentLogRetentionDays := cfg.logging.contentLogRetentionDays
  auditMaxMb := cfg.logging.auditMaxMb
  auditMaxAgeDays := cfg.logging.auditMaxAgeDays
  metricsEnabled := cfg.metrics.enabled
  metricsRequireAuth := cfg.metrics.requireAuth
  smtp := cfg.smtp
  teeEncryptKey := cfg.teeEncryptKey

def isolationFromConfig (cfg : DaemonConfig) : Isolation.IsolationConfig where
  mode := cfg.isolation.mode
  apiPort := cfg.isolation.apiPort
  apiAllowedSources := cfg.isolation.allowedSources
  whitelist := cfg.isolation.whitelist

def DaemonConfig.airGap (cfg : DaemonConfig) : Bool := cfg.isolation.mode != .disabled

/-- `maranode_rag::RagConfig`, the configuration of the RAG engine. -/
structure RagEngineConfig where
  enabled : Bool
  embeddingModel : String
  defaultCollection : String
  chunkSize : Nat
  chunkOverlap : Nat
  topK : Nat
  minScore : F32Bits
  maxContextChars : Nat
  deriving DecidableEq

def ragFromConfig (cfg : DaemonConfig) : RagEngineConfig where
  enabled := true
  embeddingModel := cfg.rag.embeddingModel
  defaultCollection := cfg.rag.defaultCollection
  chunkSize := cfg.rag.chunkSize
  chunkOverlap := cfg.rag.chunkOverlap
  topK := cfg.rag.topK
  minScore := cfg.rag.minScore
  maxContextChars := cfg.rag.maxContextChars

/-- `apply_runtime_config`: the engine keeps its embedding model. -/
def RagEngineConfig.applyRuntimeConfig (c cfg : RagEngineConfig) : RagEngineConfig :=
  { c with
    defaultCollection := cfg.defaultCollection
    chunkSize := cfg.chunkSize
    chunkOverlap := cfg.chunkOverlap
    topK := cfg.topK
    minScore := cfg.minScore
    maxContextChars := cfg.maxContextChars }

end Maranode.Daemon
