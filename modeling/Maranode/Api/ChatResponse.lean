/-
  Maranode.Api.ChatResponse

  What a chat completion sends back: the server-sent events of the streaming branch of
  `run`, and the response of the other one.

  The streaming branch leaves the text of the last token out of its chunk, as it marks
  the end with it, and does not encrypt.
-/
import Maranode.Api.TeeEncrypt
import Maranode.Inference.Llama

namespace Maranode.Api

open Lib Maranode.Common Maranode.Inference

/-! ## openai.rs -/

structure RagSource where
  index : Nat
  source : String
  score : F32
  text : String
  title : Option String
  author : Option String
  pageNumber : UInt32

structure OaiMessage where
  role : String
  content : String

structure ChatChoice where
  index : UInt32
  message : OaiMessage
  finishReason : String

structure UsageInfo where
  promptTokens : UInt32
  completionTokens : UInt32
  totalTokens : UInt32

structure ChatCompletionResponse where
  id : String
  object : String
  created : Int
  model : String
  choices : List ChatChoice
  usage : UsageInfo
  sources : Option (List RagSource)
  receipt : Option InferenceReceipt

structure ChunkDelta where
  role : Option String
  content : Option String

structure ChunkChoice where
  index : UInt32
  delta : ChunkDelta
  finishReason : Option String

structure ChatCompletionChunk where
  id : String
  object : String
  created : Int
  model : String
  choices : List ChunkChoice
  sources : Option (List RagSource)

/-! ## Streaming -/

/-- A server-sent event: a chunk, as JSON, or a text. -/
inductive Event where
  | chunk (c : ChatCompletionChunk)
  | data (s : String)

/-- What all chunks of a response have, and the sources for the last of them. -/
structure ChatStream where
  id : String
  model : String
  created : Int
  sources : Option (List RagSource)

def ChatStream.makeChunkEvent (s : ChatStream) (role content finishReason : Option String)
    (sources : Option (List RagSource)) : Event :=
  .chunk
    { id := s.id
      object := "chat.completion.chunk"
      created := s.created
      model := s.model
      choices := [{ index := 0, delta := ⟨role, content⟩, finishReason := finishReason }]
      sources := sources }

/-- The event for a token, or for the error that ended the stream. -/
def ChatStream.event (s : ChatStream) : Except String Token → Event
  | .ok token =>
      let finish := if token.isLast then some "stop" else none
      let sources := if token.isLast then s.sources else none
      let content := if token.isLast then none else some token.text
      s.makeChunkEvent none content finish sources
  | .error _ => .data "[ERROR] inference failed"

/-- The events of a response, for what the engine sent. -/
def ChatStream.events (s : ChatStream) (sent : List (Except String Token)) : List Event :=
  s.makeChunkEvent (some "assistant") (some "") none none :: sent.map s.event
    ++ [.data "[DONE]"]

/-- The content deltas of an event. -/
def Event.deltas : Event → List String
  | .chunk c => c.choices.filterMap (·.delta.content)
  | .data _ => []

/-- What a client makes of the deltas. -/
def concatDeltas (events : List Event) : String := String.join (events.flatMap Event.deltas)

/-! ## Not streaming -/

variable (G : Aes256Gcm)

/-- The content of the response: encrypted when there is a key. -/
def outContent (teeKey : Option TeeEncryptKey) (content : String) : String :=
  match teeKey with
  | some k => ((k.encryptStr G content).toOption).getD content
  | none => content

def saturatingAdd (a b : UInt32) : UInt32 :=
  if a.toNat + b.toNat < 2 ^ 32 then a + b else 0xFFFFFFFF

/-- The response of the branch that does not stream. -/
def ChatStream.response (s : ChatStream) (teeKey : Option TeeEncryptKey)
    (receipt : Option InferenceReceipt) (resp : InferenceResponse) : ChatCompletionResponse where
  id := s.id
  object := "chat.completion"
  created := s.created
  model := s.model
  choices :=
    [{ index := 0
       message := { role := "assistant", content := outContent G teeKey resp.content }
       finishReason := "stop" }]
  usage :=
    { promptTokens := resp.tokensIn
      completionTokens := resp.tokensOut
      totalTokens := saturatingAdd resp.tokensIn resp.tokensOut }
  sources := s.sources
  receipt := receipt

/-- The content string of a response. -/
def ChatCompletionResponse.content (r : ChatCompletionResponse) : String :=
  String.join (r.choices.map (·.message.content))

/-! ## Both branches -/

variable {T : Type} (m : LlamaModel T) (req : InferenceRequest) (sampled : Nat → T)

/-- The token the generation ends with has no text, and what is returned is not
    encrypted. -/
def EndsSilently (teeKey : Option TeeEncryptKey) : Prop :=
  ∀ n, IsLast m req sampled n →
    (m.isEogToken (sampled n) = true ∨ m.piece (sampled n) = "") ∧
    ∀ k, teeKey = some k → ∃ e, k.encryptStr G (textOf m sampled n) = .error e

variable {G m req sampled}

theorem concatDeltas_events (s : ChatStream) (sent : List (Except String Token)) :
    concatDeltas (s.events sent) = String.join (sent.flatMap fun r => (s.event r).deltas) := by
  simp [concatDeltas, ChatStream.events, ChatStream.makeChunkEvent, Event.deltas,
    List.flatMap_map]

/-- The deltas of tokens that others follow are their texts. -/
theorem join_deltas_sentOf (s : ChatStream) (m : LlamaModel T) (sampled : Nat → T) (n : Nat) :
    String.join ((sentOf m sampled n).flatMap fun r => (s.event r).deltas)
      = textOf m sampled n := by
  induction n with
  | zero => rfl
  | succ n ih =>
      rw [← sentOf_succ, List.flatMap_append, String.join_append, ih, textOf]
      simp [ChatStream.event, ChatStream.makeChunkEvent, Event.deltas]

/-- The deltas of a stream are the text before its last token. -/
theorem concatDeltas_sentOf (s : ChatStream) (m : LlamaModel T) (sampled : Nat → T) (n : Nat) :
    concatDeltas (s.events (sentOf m sampled n ++ [.ok (lastToken m sampled n)]))
      = textOf m sampled n := by
  rw [concatDeltas_events, List.flatMap_append, String.join_append, join_deltas_sentOf]
  simp [ChatStream.event, ChatStream.makeChunkEvent, Event.deltas, lastToken]

theorem content_response (s : ChatStream) (teeKey : Option TeeEncryptKey)
    (receipt : Option InferenceReceipt) (resp : InferenceResponse) :
    (s.response G teeKey receipt resp).content = outContent G teeKey resp.content := by
  simp [ChatStream.response, ChatCompletionResponse.content]

theorem append_eq_left {s t : String} : s = s ++ t ↔ t = "" := by
  rw [← String.toList_inj, String.toList_append, List.self_eq_append_right, ← String.toList_inj]
  rfl

/-- A text is not sent encrypted as one of its own prefixes. -/
theorem eq_outContent_iff {teeKey : Option TeeEncryptKey} {s t : String} :
    s = outContent G teeKey (s ++ t) ↔
      t = "" ∧ ∀ k, teeKey = some k → ∃ e, k.encryptStr G s = .error e := by
  cases teeKey with
  | none =>
      show s = s ++ t ↔ _
      rw [append_eq_left]
      exact ⟨fun ht => ⟨ht, nofun⟩, And.left⟩
  | some k =>
      cases hout : k.encryptStr G (s ++ t) with
      -- A failed encryption answers the text as it is.
      | error e =>
          rw [outContent, hout]
          show s = s ++ t ↔ _
          rw [append_eq_left]
          constructor
          · rintro rfl
            refine ⟨rfl, fun k' hk' => ⟨e, ?_⟩⟩
            rw [← Option.some.inj hk', ← hout, String.append_empty]
          · exact And.left
      | ok out =>
          rw [outContent, hout]
          -- Base64 of a nonce, the text and a tag is longer than the text.
          have hlong := TeeEncryptKey.length_lt_of_encryptStr hout
          rw [String.length_append] at hlong
          constructor
          · intro heq
            have hsame : s = out := heq
            rw [hsame] at hlong
            omega
          · rintro ⟨rfl, hfail⟩
            obtain ⟨e, he⟩ := hfail k rfl
            rw [String.append_empty, he] at hout
            cases hout

/-- **Streams and responses.**  When the completion that does not stream returns, the
    deltas of the streaming one for the same tokens are its content exactly when the last
    token has no text and the content is not encrypted. -/
theorem stream_deltas_eq_content_iff (s : ChatStream) (teeKey : Option TeeEncryptKey)
    (receipt : Option InferenceReceipt) {device : InferenceDevice} {durationMs : UInt64}
    {resp : InferenceResponse}
    (h : (generateSync m { req with stream := false } device durationMs sampled).result
      = .ok resp) :
    concatDeltas (s.events (streamSync m { req with stream := true } none sampled).sent)
        = (s.response G teeKey receipt resp).content ↔
      EndsSilently G m req sampled teeKey := by
  obtain ⟨n, hlast, hcontent, hsent⟩ := streamSync_of_generateSync h
  rw [hsent, concatDeltas_sentOf, content_response, hcontent, eq_outContent_iff,
    lastToken_text_eq_empty]
  constructor
  · intro hsilent k hk
    rwa [← hlast.unique hk]
  · intro hsilent
    exact hsilent n hlast

/-! ## An end-of-generation token, and a length limit -/

/-- A model on bytes: 1 begins a text, 2 ends it, and every ASCII character is 3 more than
    its code. -/
def byteModel : LlamaModel Nat where
  nCtxTrain := 2048
  strToToken := fun s => .ok (1 :: (Text.encode s.toList).map (·.toNat + 3))
  newContext := fun _ => .ok ()
  isEogToken := fun t => t == 2
  tokenToStr := fun t =>
    if 3 ≤ t ∧ t < 131 then .ok (String.singleton (Char.ofNat (t - 3))) else .error "Unknown Token"
  decode := fun _ => .ok ()

/-- No cipher: nothing is encrypted without a key. -/
def noCipher : Aes256Gcm where
  encrypt := fun _ _ _ => .error "aead::Error"
  length_encrypt := nofun

def helloMessages : List ChatMessage := [⟨.user, "hi"⟩]

def helloTokens : List Nat :=
  1 :: (Text.encode (buildChatmlPrompt helloMessages).toList).map (·.toNat + 3)

theorem length_helloTokens : helloTokens.length < 2048 := by decide +kernel

def helloRequest (maxTokens : UInt32) (stream : Bool) : InferenceRequest where
  requestId := "7d3e"
  model := ⟨"tiny", "bytes"⟩
  modelPath := "blobs/sha256-00"
  messages := helloMessages
  temperature := ⟨0, F32.finite_zero⟩
  maxTokens := maxTokens
  stopSequences := []
  stream := stream
  seed := none
  deterministic := false

def helloStream : ChatStream where
  id := "chatcmpl-7d3e"
  model := "tiny:bytes"
  created := 0
  sources := none

/-- `ok`, and no more. -/
def sampledOk : Nat → Nat
  | 0 => 114
  | 1 => 110
  | _ => 2

/-- The prompt is ready, and no decode fails, so the generation returns. -/
theorem generateSync_helloRequest (maxTokens : UInt32) : ∃ resp,
    (generateSync byteModel (helloRequest maxTokens false) .cpu 5 sampledOk).result = .ok resp := by
  obtain ⟨decoded, batch, hprompt⟩ := decodePrompt_eq_ok (m := byteModel) (fun _ => rfl) helloTokens
  obtain ⟨k, hk⟩ := exists_isLast byteModel (helloRequest maxTokens false) sampledOk
  have hprepared : Prepared byteModel (helloRequest maxTokens false) helloTokens decoded :=
    ⟨rfl, length_helloTokens, rfl, batch, hprompt⟩
  exact ⟨_, (hprepared.generateSync_eq_ok hk).mpr ⟨fun _ _ => rfl, rfl⟩⟩

theorem stream_deltas_eq_content_at_eog : ∃ resp,
    (generateSync byteModel (helloRequest 16 false) .cpu 5 sampledOk).result = .ok resp ∧
    concatDeltas (helloStream.events
        (streamSync byteModel (helloRequest 16 true) none sampledOk).sent)
      = (helloStream.response noCipher none none resp).content := by
  obtain ⟨resp, hresp⟩ := generateSync_helloRequest 16
  have hlast : IsLast byteModel (helloRequest 16 false) sampledOk 2 := ⟨by decide, by decide⟩
  have hsilent : EndsSilently noCipher byteModel (helloRequest 16 false) sampledOk none := by
    intro n hn
    rw [← hlast.unique hn]
    exact ⟨.inl rfl, nofun⟩
  exact ⟨resp, hresp, (stream_deltas_eq_content_iff helloStream none none hresp).mpr hsilent⟩

/-- With two tokens allowed, the client of the stream gets `o`. -/
theorem stream_drops_last_token : ∃ resp,
    (generateSync byteModel (helloRequest 2 false) .cpu 5 sampledOk).result = .ok resp ∧
    (helloStream.response noCipher none none resp).content = "ok" ∧
    concatDeltas (helloStream.events
      (streamSync byteModel (helloRequest 2 true) none sampledOk).sent) = "o" := by
  obtain ⟨resp, hresp⟩ := generateSync_helloRequest 2
  have hlast : IsLast byteModel (helloRequest 2 false) sampledOk 1 := ⟨by decide, by decide⟩
  have hboth := @streamSync_of_generateSync _ _ (helloRequest 2 false) _ _ _ _ hresp
  obtain ⟨n, hn, hcontent, hsent⟩ := hboth
  obtain rfl := hlast.unique hn
  refine ⟨resp, hresp, ?_, ?_⟩
  · rw [content_response, hcontent]
    decide
  · rw [show helloRequest 2 true = { helloRequest 2 false with stream := true } from rfl, hsent,
      concatDeltas_sentOf]
    decide

end Maranode.Api
