/-
  Maranode.Api.Chat

  The chat handler from `InferenceStart` on: what it tells the engine, the events it
  appends to the audit log, and the receipt it signs.
-/
import Maranode.Api.ChatResponse
import Maranode.Common.Events

namespace Maranode.Api

open Lib Maranode.Common Maranode.Inference

variable (X : External) (E : Ed25519)

/-! ## Requests -/

/-- What the handler reads of the model's manifest. -/
structure ModelManifest where
  sha256 : String
  quantization : Option String
  blobPath : String
  contextLength : Option UInt32

/-- A retrieved chunk, as far as the receipt names it. -/
structure RetrievedChunk where
  chunkId : String
  docId : String
  docSha256 : String
  contentHash : String
  source : String
  score : F32

/-- A chat request past the checks, with the context and the system prompt among its
    messages. -/
structure Chat where
  requestId : String
  slug : String
  modelId : ModelId
  manifest : ModelManifest
  messages : List ChatMessage
  ragRetrieved : List RetrievedChunk
  temperature : F32
  maxTokens : UInt32
  stop : Option (List String)
  stream : Bool
  seed : Option UInt64
  deterministic : Bool
  logPrompts : Bool

/-- What the handler meets: the engine and its outcome, the signing key, when it can be
    loaded, the clock, and the identifier of the receipt. -/
structure ChatEnv where
  device : InferenceDevice
  kernelBuildId : String
  threadCount : UInt32
  outcome : Except String InferenceResponse
  durationMs : UInt64
  signingKey : Option (ByteArr 32)
  receiptId : Uuid
  now : DateTime

/-! ## The request to the engine -/

/-- Three and a half characters for every token but 512; 3.5 is exact in `f64`. -/
def maxPromptChars (contextLength : Option UInt32) : Nat :=
  match contextLength with
  | some ctx => (ctx.toNat - 512) * 7 / 2
  | none => 6000

def contentLength (messages : List ChatMessage) : Nat :=
  (messages.map (·.content.utf8ByteSize)).sum

/-- A system message that leads is cut when the prompt is too long. -/
def truncateMessages (maxChars : Nat) : List ChatMessage → List ChatMessage
  | [] => []
  | sys :: rest =>
      if contentLength (sys :: rest) > maxChars then
        let budget := max (maxChars - contentLength rest) 200
        if sys.role = .system ∧ sys.content.utf8ByteSize > budget then
          { sys with content :=
              String.ofList (sys.content.toList.take budget) ++ "\n\n[context truncated]" } :: rest
        else sys :: rest
      else sys :: rest

def Chat.engineMessages (c : Chat) : List ChatMessage :=
  truncateMessages (maxPromptChars c.manifest.contextLength) c.messages

def Chat.effTemperature (c : Chat) : F32 :=
  if c.deterministic then ⟨0, F32.finite_zero⟩ else c.temperature

def Chat.effSeed (c : Chat) : Option UInt64 := if c.deterministic then some 0 else c.seed

def Chat.inferenceRequest (c : Chat) : InferenceRequest where
  requestId := c.requestId
  model := c.modelId
  modelPath := c.manifest.blobPath
  messages := c.engineMessages
  temperature := c.effTemperature
  maxTokens := c.maxTokens
  stopSequences := c.stop.getD []
  stream := c.stream
  seed := c.effSeed
  deterministic := c.deterministic

/-! ## The receipt -/

/-- The receipt before it is signed. -/
def Chat.unsigned (c : Chat) (env : ChatEnv) (sk : ByteArr 32) (resp : InferenceResponse) :
    InferenceReceipt where
  version := receiptVersion
  receiptId := env.receiptId
  requestId := c.requestId
  timestamp := env.now
  modelId := c.modelId.display
  modelSha256 := c.manifest.sha256
  modelQuant := c.manifest.quantization
  inputSha256 := InferenceReceipt.hashMessages X c.engineMessages
  outputSha256 := InferenceReceipt.hashOutput X resp.content
  decodeParams :=
    { temperature := some c.effTemperature
      topK := if c.deterministic then some 1 else none
      maxTokens := some c.maxTokens
      seed := c.effSeed
      deterministic := c.deterministic }
  tokensIn := resp.tokensIn
  tokensOut := resp.tokensOut
  signingKeyId := String.ofList (Hex.encode (E.verifyingKey sk).1)
  tpmPcr := none
  env :=
    { kernelBuildId := env.kernelBuildId
      threadCount := env.threadCount
      deviceClass := env.device.rename }
  sources := c.ragRetrieved.map fun chunk =>
    { chunkId := chunk.chunkId
      docId := chunk.docId
      source := chunk.source
      docSha256 := chunk.docSha256
      chunkHash := chunk.contentHash
      score := chunk.score }
  grounded := !c.ragRetrieved.isEmpty
  signature := none

/-- `build_receipt`: none when the signing key cannot be loaded. -/
def Chat.buildReceipt (c : Chat) (env : ChatEnv) (resp : InferenceResponse) :
    Option InferenceReceipt :=
  env.signingKey.map fun sk =>
    let receipt := c.unsigned X E env sk resp
    let sig := E.sign sk (receipt.canonicalBytes X)
    { receipt with signature := some (String.ofList (Hex.encode sig.1)) }

/-! ## The events -/

def promptSha256 (messages : List ChatMessage) : String :=
  X.sha256 (messages.flatMap fun msg =>
    Text.encode msg.role.debug.toList ++ Text.encode msg.content.toList)

/-- `serde_json::to_string` of the messages. -/
def messagesJson (messages : List ChatMessage) : String :=
  String.ofList (Json.render ((Json.Codec.list (ChatMessage.codec X)).enc X.text messages))

def Chat.startEvent (c : Chat) (env : ChatEnv) : AuditEvent :=
  .inferenceStart c.requestId c.modelId (promptSha256 X c.messages) env.device
    (if c.logPrompts then some (messagesJson X c.messages) else none)

def Chat.failedEvent (c : Chat) (err : String) : AuditEvent :=
  .inferenceFailed c.requestId c.modelId err

def Chat.completeEvent (c : Chat) (env : ChatEnv) (resp : InferenceResponse) : AuditEvent :=
  .inferenceComplete c.requestId c.modelId resp.tokensIn resp.tokensOut env.durationMs resp.device
    (if c.logPrompts then some resp.content else none)

/-- The request an inference event is about. -/
def inferenceId : AuditEvent → Option String
  | .inferenceStart requestId .. => some requestId
  | .inferenceComplete requestId .. => some requestId
  | .inferenceFailed requestId .. => some requestId
  | .inferenceReceipt receipt => some receipt.requestId
  | _ => none

/-! ## The handler -/

/-- How far the handler is.  The event of a failure is appended by a task of its own. -/
inductive ChatPhase where
  | admitted
  | refused
  | started
  | streaming
  | streamed
  | failing (err : String)
  | failed (err : String)
  | answered (resp : InferenceResponse)
  | completed (resp : InferenceResponse)
  | receipted (resp : InferenceResponse)

inductive ChatStep where
  | refuse
  | start
  | generate
  | endStream
  | fail
  | complete
  | receipt
  deriving DecidableEq

/-- A request and the log its events go to: that of a workspace, or the main one. -/
structure ChatRun where
  chat : Chat
  env : ChatEnv
  audit : Option String
  phase : ChatPhase

/-- The next phase, and the event that is appended on the way; `none` when the handler is
    not at that step.  The streaming branch returns with the stream, and appends nothing. -/
def ChatRun.next (r : ChatRun) (step : ChatStep) : Option (ChatPhase × Option AuditEvent) :=
  match step, r.phase with
  | .refuse, .admitted => some (.refused, none)
  | .start, .admitted => some (.started, some (r.chat.startEvent X r.env))
  | .generate, .started =>
      if r.chat.stream then some (.streaming, none)
      else
        match r.env.outcome with
        | .error err => some (.failing err, none)
        | .ok resp => some (.answered resp, none)
  | .endStream, .streaming => some (.streamed, none)
  | .fail, .failing err => some (.failed err, some (r.chat.failedEvent err))
  | .complete, .answered resp => some (.completed resp, some (r.chat.completeEvent r.env resp))
  | .receipt, .completed resp =>
      some (.receipted resp, (r.chat.buildReceipt X E r.env resp).map .inferenceReceipt)
  | _, _ => none

end Maranode.Api
