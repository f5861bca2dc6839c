/-
  Maranode.Api.ChatHandler

  `run` of `routes/chat.rs`, from the checks that come first to the response.

  What the handler does goes in one outcome: the events it logs, the model files it had
  verified, the query it retrieved with, the request it handed to the engine, and the
  response.  The retrieval, the engine, the rate limiter and the quotas are as they are.
-/
import Maranode.Api.Chat
import Maranode.Api.RagRoutes
import Maranode.Store.Blob

namespace Maranode.Api

open Lib Common Inference

/-! ## Requests -/

/-- `openai::RagOptions`. -/
structure ChatRagOptions where
  collection : Option String
  topK : Option Nat
  requireContext : Bool

structure ChatCompletionRequest where
  model : String
  messages : List OaiMessage
  temperature : F32
  maxTokens : UInt32
  stream : Bool
  stop : Option (List String)
  rag : Option ChatRagOptions
  withReceipt : Bool
  deterministic : Bool
  seed : Option UInt64

/-! ## The state -/

/-- A retrieved chunk, with what a response and the context prompt show of it. -/
structure SourceChunk extends RetrievedChunk where
  text : String
  title : Option String
  author : Option String
  pageNumber : UInt32
  section_ : Option String

/-- `state.rag`: the retrieval, of one collection or of all, and the context prompt. -/
structure ChatRag where
  retrieve : Option String → String → Option Nat → Except String (List SourceChunk)
  buildContextPrompt : List SourceChunk → Option String

/-- `RuntimeSettings`, as far as the handler reads them. -/
structure ChatSettings where
  airGap : Bool
  systemPrompt : Option String
  logPrompts : Bool
  teeEncryptKey : Option String

/-- What stays while the configuration does: the settings, the manifests and the model
    files. -/
structure ChatConfig where
  settings : ChatSettings
  store : Store.ModelStore

/-- What a request meets besides: the probes, what the rate limiter and the quotas of the
    workspace say, a database that may fail, the retrieval, the policy and the engine. -/
structure ChatMoment where
  isolationOk : Bool
  auditFrozen : Bool
  limited : Option ApiError
  storeFails : Option String
  overQuota : Option ApiError
  rag : Option ChatRag
  policy : ClassificationPolicy
  generate : InferenceRequest → Except String InferenceResponse
  generateStream : InferenceRequest → List (Except String Token)

/-- What is drawn and measured for one request. -/
structure ChatCall where
  requestId : String
  created : Int
  device : InferenceDevice
  kernelBuildId : String
  threadCount : UInt32
  durationMs : UInt64
  signingKey : Option (ByteArr 32)
  receiptId : Uuid
  now : DateTime
  nonce : ByteArr 12

/-! ## Outcomes -/

inductive ChatReply where
  | error (e : ApiError)
  | events (es : List Event)
  | response (r : ChatCompletionResponse)

structure ChatOutcome where
  logged : List (String × AuditEvent)
  checked : List (Path × String)
  query : Option String
  handed : Option InferenceRequest
  reply : ChatReply

/-- The request is turned down before anything is done. -/
def ChatOutcome.refused (e : ApiError) : ChatOutcome where
  logged := []
  checked := []
  query := none
  handed := none
  reply := .error e

/-! ## Checks -/

def MAX_MESSAGES : Nat := 512

def serviceUnavailable (msg : String) : ApiError := ⟨503, msg⟩

variable (cfg : ChatConfig) (moment : ChatMoment) (ws : Store.Workspace)
  (req : ChatCompletionRequest)

/-- The checks up to the manifest. -/
def checkRequest : ApiResult ModelId :=
  if cfg.settings.airGap && !moment.isolationOk then
    .error (serviceUnavailable ("inference refused: isolation probe detected egress — " ++
      "air-gap integrity cannot be confirmed"))
  else if moment.auditFrozen then
    .error (serviceUnavailable
      "inference suspended: an incident is active and the audit log is frozen")
  else if req.messages.isEmpty then .error (.badRequest "`messages` must not be empty")
  else if req.messages.length > MAX_MESSAGES then
    .error (.badRequest
      s!"too many messages ({req.messages.length}); maximum is {MAX_MESSAGES}")
  else
    match ModelId.parse req.model with
    | none =>
        .error (.badRequest
          s!"invalid model identifier '{req.model}': expected <name>:<tag>")
    | some modelId =>
        if !ws.allowsModel req.model then
          .error (.forbidden
            s!"model '{req.model}' is not in the allowlist for workspace '{ws.slug}'")
        else
          match moment.limited with
          | some e => .error e
          | none => .ok modelId

/-- All that has to be in order before the request is looked into. -/
def admission : ApiResult (ModelId × Store.ModelManifest) :=
  match checkRequest cfg moment ws req with
  | .error e => .error e
  | .ok modelId =>
      match cfg.store.get moment.storeFails modelId with
      | .error e => .error (.notFound e)
      | .ok none => .error (.notFound s!"model '{modelId.display}' not found")
      | .ok (some manifest) =>
          match moment.overQuota with
          | some e => .error e
          | none => .ok (modelId, manifest)

/-! ## Messages -/

variable (X : External) (E : Ed25519) (C : TeeCipher) (call : ChatCall)

/-- The role of a request's message; a name that is not known is a user's. -/
def roleOf : String → ChatRole
  | "system" => .system
  | "assistant" => .assistant
  | _ => .user

/-- The key of the settings, when it is valid. -/
def ChatSettings.teeKey (s : ChatSettings) : Option (ByteArr 32) :=
  s.teeEncryptKey.bind fun hexKey => (teeKeyFromHex hexKey).toOption

/-- A content as it is decrypted, or as it came. -/
def readContent (teeKey : Option (ByteArr 32)) (content : String) : String :=
  match teeKey with
  | some key => ((decryptStr C key content).toOption).getD content
  | none => content

def readMessages (teeKey : Option (ByteArr 32)) (messages : List OaiMessage) :
    List ChatMessage :=
  messages.map fun m => ⟨roleOf m.role, readContent C teeKey m.content⟩

/-! ## Retrieval -/

/-- The message a retrieval is about, as it came. -/
def lastUser : Option OaiMessage := req.messages.reverse.find? (·.role == "user")

def ragDisabled : ApiError :=
  .notImplemented ("RAG was requested but is not enabled on this server " ++
    "(start the daemon with --rag)")

def noUserMessage : ApiError := .badRequest "RAG requested but no user message to ground"

/-- The collection of the audit event. -/
def ChatRagOptions.auditCollection (opts : ChatRagOptions) : String := opts.collection.getD "*"

def policyViolations (p : ClassificationPolicy) (slug auditCollection : String) :
    List ViolationInfo :=
  if auditCollection == "*" then p.checkAllCollections slug
  else (p.checkAccess slug auditCollection).toList

def violationEvent (slug : String) (v : ViolationInfo) : String × AuditEvent :=
  ("classification", .dataClassificationViolation slug v.collection v.requiredLabel.asStr
    v.workspaceClearance.asStr v.block)

/-- The violations are logged up to the first that blocks. -/
def enforcePolicy (slug : String) :
    List ViolationInfo → List (String × AuditEvent) × Option ApiError
  | [] => ([], none)
  | v :: vs =>
      if v.block then ([violationEvent slug v], some (RagState.blockedError slug v))
      else (violationEvent slug v :: (enforcePolicy slug vs).1, (enforcePolicy slug vs).2)

/-- What a retrieval logs, its query, and the chunks with the prompt made of them. -/
structure Grounded where
  logged : List (String × AuditEvent)
  query : Option String
  result : ApiResult (List SourceChunk × Option String)

def ground (opts : ChatRagOptions) : Grounded :=
  match moment.rag with
  | none => ⟨[], none, .error ragDisabled⟩
  | some rag =>
      match lastUser req with
      | none => ⟨[], none, .error noUserMessage⟩
      | some m =>
          match rag.retrieve opts.collection m.content opts.topK with
          | .error e => ⟨[], some m.content, .error (.internal e)⟩
          | .ok hits =>
              let event := AuditEvent.ragRetrieval opts.auditCollection
                (X.sha256 (Text.encode m.content.toList)) hits.length.toUInt64
              let enforced := enforcePolicy ws.slug
                (policyViolations moment.policy ws.slug opts.auditCollection)
              { logged := ("api", event) :: enforced.1
                query := some m.content
                result :=
                  match enforced.2 with
                  | some e => .error e
                  | none => .ok (hits, rag.buildContextPrompt hits) }

def RagSource.of (c : SourceChunk) (i : Nat) : RagSource where
  index := i + 1
  source := c.source
  score := c.score
  text := c.text
  title := c.title
  author := c.author
  pageNumber := c.pageNumber

/-! ## Responses -/

def chatStream (sources : Option (List RagSource)) : ChatStream where
  id := "chatcmpl-" ++ call.requestId
  model := req.model
  created := call.created
  sources := sources

def notInDocuments : String := "This information is not in the provided documents."

/-- The answer when a context is required and there is none. -/
def refusal : ChatReply :=
  let s := chatStream req call (some [])
  if req.stream then
    .events [s.makeChunkEvent (some "assistant") (some "") none none,
      s.makeChunkEvent none (some notInDocuments) none none,
      s.makeChunkEvent none none (some "stop") s.sources,
      .data "[DONE]"]
  else
    .response
      { id := s.id
        object := "chat.completion"
        created := s.created
        model := s.model
        choices := [⟨0, ⟨"assistant", notInDocuments⟩, "stop"⟩]
        usage := ⟨0, 0, 0⟩
        sources := s.sources
        receipt := none }

def ChatCall.env (outcome : Except String InferenceResponse) : ChatEnv where
  device := call.device
  kernelBuildId := call.kernelBuildId
  threadCount := call.threadCount
  outcome := outcome
  durationMs := call.durationMs
  signingKey := call.signingKey
  receiptId := call.receiptId
  now := call.now

def engineError (e : String) : ApiError :=
  if "server busy".toList.isPrefixOf e.toList then serviceUnavailable e else .internal e

/-- The engine's part: the events that follow, and the response.  The streaming branch
    does not encrypt, and the other one leaves the sources as they are. -/
def answer (c : Chat) (sources : Option (List RagSource)) :
    List (String × AuditEvent) × ChatReply :=
  let s := chatStream req call sources
  if req.stream then ([], .events (s.events (moment.generateStream c.inferenceRequest)))
  else
    match moment.generate c.inferenceRequest with
    | .error e => ([("api", c.failedEvent e)], .error (engineError e))
    | .ok resp =>
        let env := call.env (.ok resp)
        let receipt := c.buildReceipt X E env resp
        let teeKey := cfg.settings.teeKey.map fun key => ⟨key, call.nonce⟩
        (("api", c.completeEvent env resp) ::
            (receipt.map fun r => ("api", AuditEvent.inferenceReceipt r)).toList,
          .response (s.response C.toAes256Gcm teeKey (if req.withReceipt then receipt else none)
            resp))

/-! ## The handler -/

/-- The system prompt of the workspace, or else of the settings. -/
def effectiveSystemPrompt : Option String := ws.systemPrompt.or cfg.settings.systemPrompt

def insertSystem (prompt : Option String) (messages : List ChatMessage) : List ChatMessage :=
  match prompt with
  | some sp => ⟨.system, sp⟩ :: messages
  | none => messages

/-- The chat of a request, with the context and the system prompt among its messages. -/
def chatOf (modelId : ModelId) (manifest : Store.ModelManifest) (context : Option String)
    (hits : List SourceChunk) : Chat where
  requestId := call.requestId
  slug := ws.slug
  modelId := modelId
  manifest := ⟨manifest.sha256, manifest.quantization, manifest.blobPath, manifest.contextLength⟩
  messages := insertSystem (effectiveSystemPrompt cfg ws)
    (insertSystem context (readMessages C cfg.settings.teeKey req.messages))
  ragRetrieved := hits.map (·.toRetrievedChunk)
  temperature := req.temperature
  maxTokens := req.maxTokens
  stop := req.stop
  stream := req.stream
  seed := req.seed
  deterministic := req.deterministic
  logPrompts := cfg.settings.logPrompts

/-- The chat goes to the engine.  The model file is the one of the manifest's column; it is
    not verified. -/
def complete (logged : List (String × AuditEvent)) (query : Option String) (c : Chat)
    (sources : Option (List RagSource)) : ChatOutcome :=
  let start := ("api", c.startEvent X (call.env (moment.generate c.inferenceRequest)))
  let answered := answer cfg moment req X E C call c sources
  { logged := logged ++ start :: answered.1
    checked := []
    query := query
    handed := some c.inferenceRequest
    reply := answered.2 }

/-- `run`. -/
def runChat : ChatOutcome :=
  match admission cfg moment ws req with
  | .error e => .refused e
  | .ok (modelId, manifest) =>
      match req.rag with
      | none =>
          complete cfg moment req X E C call [] none
            (chatOf cfg ws req C call modelId manifest none []) none
      | some opts =>
          let g := ground moment ws req X opts
          match g.result with
          | .error e =>
              { logged := g.logged, checked := [], query := g.query, handed := none,
                reply := .error e }
          | .ok (hits, context) =>
              if context.isNone && opts.requireContext then
                { logged := g.logged, checked := [], query := g.query, handed := none,
                  reply := refusal req call }
              else
                complete cfg moment req X E C call g.logged g.query
                  (chatOf cfg ws req C call modelId manifest context hits)
                  (context.map fun _ => hits.zipIdx.map fun (c, i) => .of c i)

/-! ## A request to apply results at -/

def tinyId : ModelId := ⟨"tiny", "bytes"⟩

def tinyManifest (blobPath : String) : Store.ModelManifest where
  sha256 := Store.abcSha256
  sizeBytes := 3
  quantization := none
  blobPath := blobPath
  contextLength := some 2048

/-- A store with one model, whose manifest says where it is. -/
def tinyConfig (settings : ChatSettings) (blobPath : String) : ChatConfig where
  settings := settings
  store :=
    { dataDir := "/data".toList
      db := fun id => if id = tinyId then some (tinyManifest blobPath) else none
      files := fun path =>
        if path = Store.blobFile "/data".toList Store.abcSha256 then some Store.abcBytes
        else none }

def plainSettings : ChatSettings where
  airGap := false
  systemPrompt := none
  logPrompts := true
  teeEncryptKey := none

/-- Nothing is in the way of a request; there is no retrieval, and the engine says `ok`. -/
def calmMoment : ChatMoment where
  isolationOk := true
  auditFrozen := false
  limited := none
  storeFails := none
  overQuota := none
  rag := none
  policy := .empty
  generate req := .ok ⟨req.requestId, req.model, "ok", 1, 1, 5, .cpu, .stop⟩
  generateStream _ := [.ok ⟨"ok", false⟩, .ok ⟨"", true⟩]

def defaultWorkspace : Store.Workspace where
  id := 0
  slug := "default"
  name := "Default"
  apiKeyHash := none
  modelAllowlist := []
  rateLimitRpm := none
  systemPrompt := none
  createdAt := 0
  netNamespace := false
  maxConcurrentRequests := none
  maxModels := none
  maxMemoryBytes := none
  dek := none

/-- A deterministic request with one message. -/
def tinyRequest (content : String) (stream : Bool) : ChatCompletionRequest where
  model := "tiny:bytes"
  messages := [⟨"user", content⟩]
  temperature := ⟨0, F32.finite_zero⟩
  maxTokens := 16
  stream := stream
  stop := none
  rag := none
  withReceipt := false
  deterministic := true
  seed := none

def tinyCall : ChatCall where
  requestId := "7d3e"
  created := 0
  device := .cpu
  kernelBuildId := "none"
  threadCount := 1
  durationMs := 5
  signingKey := some officerKey
  receiptId := 0
  now := 0
  nonce := nonceOf 1

end Maranode.Api
