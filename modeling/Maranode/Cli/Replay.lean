/-
  Maranode.Cli.Replay

  `audit replay`: a recorded inference is sent again, and is meant to get to the engine
  as it did the first time.

  What is logged as the prompt has the context and the system prompt in it, and has not
  been cut yet.  The replay sends it without headers, so it is the default workspace
  that has a say in it, and without stop sequences.
-/
import Maranode.Api.ChatBody
import Maranode.Api.ChatModel
import Maranode.Api.Truncation
import Maranode.Audit.Export

namespace Maranode.Cli

open Lib Lib.Json Common Inference Api Audit

variable (X : External)

/-! ## Values that are read -/

mutual

/-- serde_json: a value that is read has its members in sorted maps.  Numbers are left
    as they stand. -/
def collect : Value → Value
  | .arr vs => .arr (collectElems vs)
  | .obj fs => .obj (sortMembers (collectFields fs))
  | v => v

def collectElems : List Value → List Value
  | [] => []
  | v :: vs => collect v :: collectElems vs

def collectFields : List (String × Value) → List (String × Value)
  | [] => []
  | (k, v) :: fs => (k, collect v) :: collectFields fs

end

/-- `v[name]` of a value that was read: the last member of the name. -/
def lastMember (v : Value) (name : String) : Value :=
  match v with
  | .obj fs => (occ name fs).getLast?.getD .null
  | _ => .null

/-! ## The command -/

/-- The receipt in an event, when it is that of the request. -/
def receiptOf (recordId : String) : AuditEvent → Option InferenceReceipt
  | .inferenceReceipt receipt => if receipt.requestId = recordId then some receipt else none
  | _ => none

/-- The stored receipt. -/
def storedReceipt (content : Text) (recordId : String) : Option InferenceReceipt :=
  (entriesIn X content).findSome? fun e => receiptOf recordId e.event

/-- The prompt in a line, when it is the start of the request. -/
def promptOf (recordId : String) (v : Value) : Option String :=
  if asStr (lastMember v "event") = some "inference_start" ∧
      asStr (lastMember v "request_id") = some recordId then
    asStr (lastMember v "prompt")
  else none

/-- The logged prompt. -/
def loggedPrompt (content : Text) (recordId : String) : Option String :=
  ((contentLines content).filterMap parse).findSome? (promptOf recordId)

/-- `serde_json::from_str::<Vec<Value>>`. -/
def readPrompt (prompt : String) : Option (List Value) :=
  (parse prompt.toList).bind fun v =>
    match collect v with
    | .arr vs => some vs
    | _ => none

/-- The body that is sent. -/
def replayBody (modelId : String) (messages : List Value) (maxTokens : UInt32) : Value :=
  .obj (X.value.members
    [("model", X.str.enc X.value modelId),
      ("messages", .arr messages),
      ("max_tokens", X.u32.enc X.value maxTokens),
      ("deterministic", X.bool.enc X.value true),
      ("with_receipt", X.bool.enc X.value true)])

/-- `replay_inference` up to the request; `content` is none when there is no file. -/
def replayInference (logPath : String) (content : Option Text) (recordId : String) :
    Except String Value :=
  match content with
  | none => .error s!"no audit log found at {logPath}"
  | some content =>
      match storedReceipt X content recordId with
      | none => .error s!"no inference receipt found for request id {recordId}"
      | some stored =>
          match loggedPrompt content recordId with
          | none =>
              .error (s!"replay requires log_prompts=true in daemon config; " ++
                s!"no prompt was recorded for request id {recordId}")
          | some prompt =>
              match readPrompt prompt with
              | none => .error ("could not parse logged prompt: " ++ X.jsonError prompt.toList)
              | some messages =>
                  .ok (replayBody X stored.modelId messages
                    (stored.decodeParams.maxTokens.getD 2048))

/-! ## The request as it was -/

section Original

variable (E : Ed25519) (C : TeeCipher) (cfg : ChatConfig) (moment : ChatMoment)
  (ws : Store.Workspace) (req : ChatCompletionRequest) (call : ChatCall)

/-- The context that was found for a request. -/
def contextOf : Option String :=
  match req.rag with
  | none => none
  | some opts =>
      match (ground moment ws req X opts).result with
      | .ok found => found.2
      | .error _ => none

/-- The messages that are logged. -/
def promptMessages : List ChatMessage :=
  insertSystem (effectiveSystemPrompt cfg ws)
    (insertSystem (contextOf X moment ws req) (readMessages C cfg.settings.teeKey req.messages))

/-- The messages of an inference, as its start has them. -/
def startOf (modelId : ModelId) : AuditEvent :=
  .inferenceStart call.requestId modelId (promptSha256 X (promptMessages X C cfg moment ws req))
    call.device
    (if cfg.settings.logPrompts then
      some (messagesJson X (promptMessages X C cfg moment ws req)) else none)

/-- What an event about the request says. -/
def Tells (modelId : ModelId) : AuditEvent → Prop
  | .inferenceStart requestId model sha256 device prompt =>
      AuditEvent.inferenceStart requestId model sha256 device prompt
        = startOf X C cfg moment ws req call modelId
  | .inferenceReceipt receipt =>
      receipt.requestId = call.requestId ∧ receipt.modelId = modelId.display ∧
        receipt.decodeParams.maxTokens = some req.maxTokens
  | _ => True

/-- What an inference handed to the engine, and what its events say. -/
structure HandedAs (modelId : ModelId) (manifest : Store.ModelManifest) (o : ChatOutcome)
    (r : InferenceRequest) : Prop where
  model : r.model = modelId
  maxTokens : r.maxTokens = req.maxTokens
  stop : r.stopSequences = req.stop.getD []
  messages : r.messages = truncateMessages (maxPromptChars manifest.contextLength)
    (promptMessages X C cfg moment ws req)
  events : ∀ e ∈ o.logged, inferenceId e.2 = none ∨ Tells X C cfg moment ws req call modelId e.2

variable {X E C cfg moment ws req call}

theorem ground_logged {opts : ChatRagOptions} :
    ∀ e ∈ (ground moment ws req X opts).logged, inferenceId e.2 = none := by
  have hviolations : ∀ vs, ∀ e ∈ (enforcePolicy ws.slug vs).1, inferenceId e.2 = none := by
    intro vs
    induction vs with
    | nil => exact List.forall_mem_nil _
    | cons v vs ih =>
        rw [enforcePolicy]
        split_ifs
        · exact List.forall_mem_singleton.mpr rfl
        · exact List.forall_mem_cons.mpr ⟨rfl, ih⟩
  rw [ground]
  split
  · exact List.forall_mem_nil _
  · split
    · exact List.forall_mem_nil _
    · split
      · exact List.forall_mem_nil _
      · exact List.forall_mem_cons.mpr ⟨rfl, hviolations _⟩

/-- What the handler appends and hands over at its end. -/
theorem handedAs_complete {modelId : ModelId} {manifest : Store.ModelManifest}
    {context : Option String} {hits : List SourceChunk} {logged : List (String × AuditEvent)}
    {query : Option String} {sources : Option (List RagSource)} {r : InferenceRequest}
    (hcontext : contextOf X moment ws req = context)
    (hlogged : ∀ e ∈ logged, inferenceId e.2 = none)
    (h : (complete cfg moment req X E C call logged query
      (chatOf cfg ws req C call modelId manifest context hits) sources).handed = some r) :
    HandedAs X C cfg moment ws req call modelId manifest
      (complete cfg moment req X E C call logged query
        (chatOf cfg ws req C call modelId manifest context hits) sources) r := by
  -- A request is handed to the engine as the prompt built from the context found.
  obtain rfl := hcontext
  obtain rfl := Option.some.inj h
  refine ⟨rfl, rfl, rfl, rfl, ?_⟩
  rw [complete]
  dsimp only
  rw [List.forall_mem_append, List.forall_mem_cons]
  -- What the chat logs before the engine answers names no inference, or is the start.
  refine ⟨fun e he => .inl (hlogged e he), .inr rfl, ?_⟩
  rw [answer]
  dsimp only
  -- The streaming branch logs nothing more; the other one a completion and perhaps a receipt.
  by_cases hstream : req.stream = true
  · rw [if_pos hstream]
    exact List.forall_mem_nil _
  · rw [if_neg hstream]
    cases moment.generate _ with
    | error err => exact List.forall_mem_singleton.mpr (.inr trivial)
    | ok resp =>
        refine List.forall_mem_cons.mpr ⟨.inr trivial, fun e he => ?_⟩
        obtain ⟨receipt, hreceipt, rfl⟩ := Option.map_eq_some_iff.mp (Option.mem_toList.mp he)
        obtain ⟨sk, -, rfl⟩ := Option.map_eq_some_iff.mp hreceipt
        exact .inr ⟨rfl, rfl, rfl⟩

/-- A request that got to the engine. -/
theorem handedAs_runChat {r : InferenceRequest}
    (h : (runChat cfg moment ws req X E C call).handed = some r) :
    ∃ modelId manifest, admission cfg moment ws req = .ok (modelId, manifest) ∧
      HandedAs X C cfg moment ws req call modelId manifest
        (runChat cfg moment ws req X E C call) r := by
  rw [runChat] at h ⊢
  -- A request that is not admitted hands nothing to the engine.
  cases hadmitted : admission cfg moment ws req with
  | error e =>
      rw [hadmitted] at h
      cases h
  | ok admitted =>
      obtain ⟨modelId, manifest⟩ := admitted
      rw [hadmitted] at h
      dsimp only at h ⊢
      refine ⟨modelId, manifest, rfl, ?_⟩
      -- Retrieval decides which context the prompt is built with.
      cases hrag : req.rag with
      | none =>
          rw [hrag] at h
          exact handedAs_complete (by rw [contextOf, hrag]) (List.forall_mem_nil _) h
      | some opts =>
          rw [hrag] at h
          dsimp only at h ⊢
          cases hground : (ground moment ws req X opts).result with
          | error e =>
              rw [hground] at h
              cases h
          | ok found =>
              obtain ⟨hits, context⟩ := found
              rw [hground] at h
              dsimp only at h ⊢
              have hcontext : contextOf X moment ws req = context := by
                rw [contextOf, hrag]
                dsimp only
                rw [hground]
              -- The labels of what was found may still stop the request.
              split at h
              · cases h
              · next hgo =>
                  rw [if_neg hgo]
                  exact handedAs_complete hcontext ground_logged h

end Original

/-! ## What the command finds -/

/-- A member of the line of an entry that is not one of the envelope's. -/
theorem lastMember_toMembers (e : AuditEntry) {name : String}
    (hname : name ∉ AuditEntry.envelope) :
    lastMember (.obj (e.toMembers X)) name
      = (occ name (e.event.tagged X X.text)).getLast?.getD .null := by
  have hocc := AuditEntry.occ_rest X (e := e) hname
  rw [AuditEntry.occ_filter_notMem, if_neg hname] at hocc
  rw [lastMember, hocc]

/-- The kind is found in the line. -/
theorem lastMember_event (e : AuditEntry) :
    asStr (lastMember (.obj (e.toMembers X)) "event") = some e.event.kind.tag := by
  have hfields : "event" ∉ (e.event.members X X.text).map Prod.fst := fun hmem =>
    EventKind.event_notMem_fields _ ((e.event.members_fst_sublist X X.text).subset hmem)
  rw [lastMember_toMembers X e (by decide), AuditEvent.tagged, occ_cons, if_pos rfl,
    occ_eq_nil hfields]
  rfl

theorem receiptOf_eq_some {recordId : String} {event : AuditEvent} {receipt : InferenceReceipt} :
    receiptOf recordId event = some receipt ↔
      event = .inferenceReceipt receipt ∧ receipt.requestId = recordId := by
  constructor
  · intro h
    unfold receiptOf at h
    split at h
    · split_ifs at h with hid
      rw [← Option.some.inj h]
      exact ⟨rfl, hid⟩
    · cases h
  · rintro ⟨rfl, hid⟩
    exact if_pos hid

/-- A line has the prompt of the request when it is its start and was logged with one. -/
theorem promptOf_eq_some {recordId prompt : String} {e : AuditEntry} :
    promptOf recordId (.obj (e.toMembers X)) = some prompt ↔
      ∃ model sha256 device,
        e.event = .inferenceStart recordId model sha256 device (some prompt) := by
  rw [promptOf, lastMember_event, lastMember_toMembers X e (by decide),
    lastMember_toMembers X e (by decide)]
  -- Only a start's line has the tag that the command looks for.
  by_cases hkind : e.event.kind = .inferenceStart
  · obtain ⟨ts, seq, actor, event, prevHmac, hmac⟩ := e
    dsimp only at hkind ⊢
    cases event <;> cases hkind
    -- A start's own members: its id, and the logged prompt where there is one.
    next requestId model sha256 device logged =>
      have hid : occ "request_id" ((AuditEvent.inferenceStart requestId model sha256 device
          logged).tagged X X.text) = [.str requestId] := by
        simp [AuditEvent.tagged, AuditEvent.members, Codec.str]
      have hprompt : occ "prompt" ((AuditEvent.inferenceStart requestId model sha256 device
          logged).tagged X X.text) = (logged.map Value.str).toList := by
        simp [AuditEvent.tagged, AuditEvent.members, Codec.str]
      have hlogged : asStr ((logged.map Value.str).toList.getLast?.getD .null) = logged := by
        cases logged <;> rfl
      rw [hid, hprompt, hlogged]
      by_cases hrecord : requestId = recordId
      · rw [if_pos ⟨rfl, congrArg some hrecord⟩]
        constructor
        · intro h
          exact ⟨model, sha256, device, by rw [hrecord, h]⟩
        · rintro ⟨model', sha256', device', hevent⟩
          cases hevent
          rfl
      · rw [if_neg fun h => hrecord (Option.some.inj h.2)]
        refine iff_of_false (fun h => (by cases h)) ?_
        rintro ⟨model', sha256', device', hevent⟩
        cases hevent
        exact hrecord rfl
  -- Another kind has another tag, since a tag leads back to its kind.
  · have htag : e.event.kind.tag ≠ "inference_start" := by
      intro htag
      have hread := EventKind.ofTag_tag e.event.kind
      rw [htag] at hread
      exact hkind (Option.some.inj (hread.symm.trans (EventKind.ofTag_tag .inferenceStart)))
    rw [if_neg fun h => htag (Option.some.inj h.1)]
    refine iff_of_false (fun h => (by cases h)) ?_
    rintro ⟨model, sha256, device, hevent⟩
    rw [hevent] at hkind
    exact hkind rfl

/-- The file has an event of the kind on the request. -/
def HasKind (entries : List AuditEntry) (requestId : String) (k : EventKind) : Prop :=
  ∃ e ∈ entries, e.event.kind = k ∧ inferenceId e.event = some requestId

section Found

variable {X} {E : Ed25519} {C : TeeCipher} {cfg : ChatConfig} {moment : ChatMoment}
  {ws : Store.Workspace} {req : ChatCompletionRequest} {call : ChatCall}

/-- What the file has on the request is what the handler appended; numbers fit a `u64`. -/
structure Recorded (o : ChatOutcome) (requestId : String) (entries : List AuditEntry) : Prop where
  seq_lt : ∀ e ∈ entries, e.seq < 2 ^ 64
  own : ∀ e ∈ entries, inferenceId e.event = some requestId →
    ∃ actor, (actor, e.event) ∈ o.logged

/-- An event of the file on the request tells what it was. -/
theorem Recorded.tells {o : ChatOutcome} {entries : List AuditEntry}
    (h : Recorded o call.requestId entries) {modelId : ModelId} {manifest : Store.ModelManifest}
    {r : InferenceRequest} (hr : HandedAs X C cfg moment ws req call modelId manifest o r)
    {e : AuditEntry} (he : e ∈ entries) (hid : inferenceId e.event = some call.requestId) :
    Tells X C cfg moment ws req call modelId e.event := by
  obtain ⟨actor, hmem⟩ := h.own e he hid
  refine (hr.events _ hmem).resolve_left fun hnone => ?_
  rw [hid] at hnone
  cases hnone

/-- The stored receipt, when there is one. -/
theorem storedReceipt_eq_some_iff {o : ChatOutcome} {entries : List AuditEntry}
    (h : Recorded o call.requestId entries) {modelId : ModelId} {manifest : Store.ModelManifest}
    {r : InferenceRequest} (hr : HandedAs X C cfg moment ws req call modelId manifest o r) :
    (storedReceipt X (logText X entries) call.requestId = none ∧
        ¬ HasKind entries call.requestId .inferenceReceipt) ∨
      ∃ receipt, storedReceipt X (logText X entries) call.requestId = some receipt ∧
        HasKind entries call.requestId .inferenceReceipt ∧ receipt.modelId = modelId.display ∧
        receipt.decodeParams.maxTokens = some req.maxTokens := by
  rw [storedReceipt, entriesIn_logText]
  -- The first receipt of this id that the parsed lines show.
  cases hfound : (entries.filter (·.readable)).findSome?
      fun e => receiptOf call.requestId e.event with
  | none =>
      refine .inl ⟨rfl, ?_⟩
      rintro ⟨e, he, hkind, hid⟩
      -- A receipt's line is readable, so one in the log would have been found.
      have hread : e.readable = true := by
        refine AuditEntry.readable_iff.mpr ⟨?_, h.seq_lt e he⟩
        rw [hkind]
        exact fun hno => by cases hno
      have hnone := List.findSome?_eq_none_iff.mp hfound e (List.mem_filter.mpr ⟨he, hread⟩)
      obtain ⟨ts, seq, actor, event, prevHmac, hmac⟩ := e
      dsimp only at hkind hid hnone
      cases event <;> cases hkind
      next receipt =>
        rw [receiptOf_eq_some.mpr ⟨rfl, Option.some.inj hid⟩] at hnone
        cases hnone
  | some receipt =>
      -- Every entry of this id tells of the request that was handed on.
      obtain ⟨e, he, hreceipt⟩ := List.exists_of_findSome?_eq_some hfound
      obtain ⟨hevent, hid⟩ := receiptOf_eq_some.mp hreceipt
      have hmem := (List.mem_filter.mp he).1
      have hid' : inferenceId e.event = some call.requestId := by rw [hevent, ← hid]; rfl
      have htells := h.tells hr hmem hid'
      rw [hevent] at htells
      exact .inr ⟨receipt, rfl, ⟨e, hmem, by rw [hevent]; rfl, hid'⟩, htells.2⟩

/-- The logged prompt, when there is one. -/
theorem loggedPrompt_eq_some_iff {o : ChatOutcome} {entries : List AuditEntry}
    (h : Recorded o call.requestId entries) (hlog : cfg.settings.logPrompts = true)
    {modelId : ModelId} {manifest : Store.ModelManifest}
    {r : InferenceRequest} (hr : HandedAs X C cfg moment ws req call modelId manifest o r) :
    (loggedPrompt (logText X entries) call.requestId = none ∧
        ¬ HasKind entries call.requestId .inferenceStart) ∨
      loggedPrompt (logText X entries) call.requestId
          = some (messagesJson X (promptMessages X C cfg moment ws req)) ∧
        HasKind entries call.requestId .inferenceStart := by
  -- Each line of the log is rendered JSON, so parsing gives the entry's members back.
  have hlines : (entries.map (·.toText X)).filterMap parse
      = entries.map fun e => .obj (e.toMembers X) := by
    rw [List.filterMap_map, ← List.filterMap_eq_map]
    refine List.filterMap_congr fun e _ => ?_
    exact parse_render _
  rw [loggedPrompt, contentLines_logText, hlines, List.findSome?_map]
  -- The first line that the command takes for this inference's start.
  cases hfound : entries.findSome?
      (promptOf call.requestId ∘ fun e => .obj (e.toMembers X)) with
  | none =>
      refine .inl ⟨rfl, ?_⟩
      rintro ⟨e, he, hkind, hid⟩
      have hnone := List.findSome?_eq_none_iff.mp hfound e he
      -- A start of this id holds the prompt, so the command would have found it.
      have htells := h.tells hr he hid
      obtain ⟨ts, seq, actor, event, prevHmac, hmac⟩ := e
      dsimp only at hkind htells
      cases event <;> cases hkind
      rw [Tells, startOf, hlog, if_pos rfl] at htells
      rw [Function.comp_apply, (promptOf_eq_some X).mpr ⟨_, _, _, htells⟩] at hnone
      cases hnone
  | some prompt =>
      -- The entry found is of this id, so it tells what was handed on.
      obtain ⟨e, he, hprompt⟩ := List.exists_of_findSome?_eq_some hfound
      obtain ⟨model, sha256, device, hevent⟩ := (promptOf_eq_some X).mp hprompt
      have hid : inferenceId e.event = some call.requestId := by rw [hevent]; rfl
      have htells := h.tells hr he hid
      rw [hevent, Tells, startOf, hlog, if_pos rfl] at htells
      refine .inr ⟨?_, e, he, by rw [hevent]; rfl, hid⟩
      injection htells

/-- What is read is what was written, as a value. -/
theorem readPrompt_messagesJson (messages : List ChatMessage) :
    readPrompt (messagesJson X messages)
      = some (messages.map ((ChatMessage.codec X).enc X.value)) := by
  have hall : ∀ ms : List ChatMessage,
      collectElems (ms.map ((ChatMessage.codec X).enc X.text))
        = ms.map ((ChatMessage.codec X).enc X.value) := by
    intro ms
    induction ms with
    | nil => rfl
    | cons m ms ih =>
        rw [List.map_cons, List.map_cons, collectElems, ih]
        rfl
  rw [readPrompt, messagesJson, String.toList_ofList, parse_render, Option.bind_some]
  have harr : collect ((Codec.list (ChatMessage.codec X)).enc X.text messages)
      = .arr (messages.map ((ChatMessage.codec X).enc X.value)) := by
    rw [← hall]
    rfl
  rw [harr]

/-- **What is sent.**  The command sends a request exactly when the file has the start
    and the receipt of the inference, and then with all its messages. -/
theorem replayInference_eq_ok {o : ChatOutcome} {entries : List AuditEntry}
    (h : Recorded o call.requestId entries) (hlog : cfg.settings.logPrompts = true)
    {modelId : ModelId} {manifest : Store.ModelManifest}
    {r : InferenceRequest} (hr : HandedAs X C cfg moment ws req call modelId manifest o r)
    (logPath : String) {body : Value} :
    replayInference X logPath (some (logText X entries)) call.requestId = .ok body ↔
      HasKind entries call.requestId .inferenceReceipt ∧
      HasKind entries call.requestId .inferenceStart ∧
      body = replayBody X modelId.display
        ((promptMessages X C cfg moment ws req).map ((ChatMessage.codec X).enc X.value))
        req.maxTokens := by
  rw [replayInference]
  rcases storedReceipt_eq_some_iff h hr with
    ⟨hnone, hnot⟩ | ⟨receipt, hreceipt, hkind, hmodel, htokens⟩
  · rw [hnone]
    exact iff_of_false (fun h => (by cases h)) fun h => hnot h.1
  rw [hreceipt]
  dsimp only
  rcases loggedPrompt_eq_some_iff h hlog hr with ⟨hnone, hnot⟩ | ⟨hprompt, hstart⟩
  · rw [hnone]
    exact iff_of_false (fun h => (by cases h)) fun h => hnot h.2.1
  rw [hprompt]
  dsimp only
  rw [readPrompt_messagesJson, hmodel, htokens, Option.getD_some]
  constructor
  · exact fun h => ⟨hkind, hstart, (Except.ok.inj h).symm⟩
  · rintro ⟨-, -, rfl⟩
    rfl

end Found

/-! ## What the daemon makes of it -/

/-- The request a replay is read as. -/
def replayRequest (model : String) (messages : List ChatMessage) (maxTokens : UInt32) :
    ChatCompletionRequest where
  model := model
  messages := messages.map fun m => ⟨m.role.rename, m.content⟩
  temperature := defaultTemperature
  maxTokens := maxTokens
  stream := false
  stop := none
  rag := none
  withReceipt := true
  deterministic := true
  seed := none

theorem ofValue_replayBody (model : String) (messages : List ChatMessage) (maxTokens : UInt32) :
    ChatCompletionRequest.ofValue X
        (replayBody X model (messages.map ((ChatMessage.codec X).enc X.value)) maxTokens)
      = some (replayRequest model messages maxTokens) := by
  have hmessages : Value.arr (messages.map ((ChatMessage.codec X).enc X.value))
      = (Codec.list (OaiMessage.codec X)).enc X.value
          (messages.map fun m => ⟨m.role.rename, m.content⟩) := by
    refine congrArg Value.arr ?_
    rw [List.map_map]
    rfl
  rw [replayBody, hmessages, ChatCompletionRequest.ofValue, structMembers, Option.bind_some]
  simp [Codec.field, Codec.fieldOr, Codec.fieldOpt, Codec.oneOr, Codec.optional,
    X.value.occ_members, readRag, replayRequest]

section Replayed

variable {X} {E : Ed25519} {C : TeeCipher} {cfg : ChatConfig} {moment : ChatMoment}
  {ws : Store.Workspace} {call : ChatCall}

variable (C) in
/-- A message as the handler reads it when it is sent again. -/
def reread (teeKey : Option (ByteArr 32)) (m : ChatMessage) : ChatMessage :=
  { m with content := readContent C teeKey m.content }

theorem roleOf_rename (role : ChatRole) : roleOf role.rename = role := by
  cases role <;> rfl

theorem readMessages_replayRequest (teeKey : Option (ByteArr 32)) (model : String)
    (messages : List ChatMessage) (maxTokens : UInt32) :
    readMessages C teeKey (replayRequest model messages maxTokens).messages
      = messages.map (reread C teeKey) := by
  rw [readMessages, replayRequest, List.map_map]
  refine List.map_congr_left fun m _ => ?_
  rw [Function.comp_apply, roleOf_rename, reread]

/-- The engine is handed the messages of a replay, with the prompt of the workspace before
    them, when the replay is admitted. -/
theorem runChat_replayRequest {model : String} {messages : List ChatMessage}
    {maxTokens : UInt32} {r : InferenceRequest}
    (h : (runChat cfg moment ws (replayRequest model messages maxTokens) X E C call).handed
      = some r) :
    ∃ modelId manifest,
      admission cfg moment ws (replayRequest model messages maxTokens) = .ok (modelId, manifest) ∧
      r.model = modelId ∧ r.maxTokens = maxTokens ∧ r.stopSequences = [] ∧
      r.messages = truncateMessages (maxPromptChars manifest.contextLength)
        (insertSystem (effectiveSystemPrompt cfg ws)
          (messages.map (reread C cfg.settings.teeKey))) := by
  obtain ⟨modelId, manifest, hadmitted, hr⟩ := handedAs_runChat h
  refine ⟨modelId, manifest, hadmitted, hr.model, hr.maxTokens, hr.stop, ?_⟩
  rw [hr.messages, promptMessages, readMessages_replayRequest]
  rfl

theorem handed_replayRequest {model : String} {messages : List ChatMessage} {maxTokens : UInt32}
    {admitted : ModelId × Store.ModelManifest}
    (h : admission cfg moment ws (replayRequest model messages maxTokens) = .ok admitted) :
    ∃ r, (runChat cfg moment ws (replayRequest model messages maxTokens) X E C call).handed
      = some r := by
  rw [runChat, h]
  exact ⟨_, rfl⟩

/-- The model and its manifest are the request's own. -/
theorem parse_of_admission {req : ChatCompletionRequest} {modelId : ModelId}
    {manifest : Store.ModelManifest}
    (h : admission cfg moment ws req = .ok (modelId, manifest)) :
    ModelId.parse req.model = some modelId := by
  -- Admission begins with the checks of the request, and those parse the model's name.
  rw [admission] at h
  split at h
  · cases h
  · next modelId' hchecked =>
      -- The digest's lookups do not change the name.
      have hid : modelId' = modelId := by
        split at h
        · cases h
        · cases h
        · split at h
          · cases h
          · exact (Prod.mk.inj (Except.ok.inj h)).1
      rw [← hid]
      -- Each check before the name either refuses or goes on.
      rw [checkRequest] at hchecked
      split at hchecked
      · cases hchecked
      split at hchecked
      · cases hchecked
      split at hchecked
      · cases hchecked
      split at hchecked
      · cases hchecked
      split at hchecked
      · cases hchecked
      · next parsed hparsed =>
          rw [hparsed]
          split at hchecked
          · cases hchecked
          split at hchecked
          · cases hchecked
          · exact congrArg some (Except.ok.inj hchecked)

/-! ## Cutting -/

variable (C) in
/-- The messages read again as they are, up to what is cut off the first. -/
def RereadAlike (teeKey : Option (ByteArr 32)) (maxChars : Nat) : List ChatMessage → Prop
  | [] => True
  | sys :: rest =>
      (∀ m ∈ rest, readContent C teeKey m.content = m.content) ∧
        cutHead maxChars rest (reread C teeKey sys) = cutHead maxChars rest sys

theorem rereadAlike_iff {teeKey : Option (ByteArr 32)} {maxChars : Nat}
    {messages : List ChatMessage} :
    truncateMessages maxChars (messages.map (reread C teeKey))
        = truncateMessages maxChars messages ↔
      RereadAlike C teeKey maxChars messages := by
  cases messages with
  | nil => exact iff_of_true rfl trivial
  | cons sys rest =>
      have hrest : rest.map (reread C teeKey) = rest ↔
          ∀ m ∈ rest, readContent C teeKey m.content = m.content := by
        have hmap : rest.map (reread C teeKey) = rest.map id ↔
            ∀ m ∈ rest, reread C teeKey m = id m := List.map_inj_left
        rw [List.map_id] at hmap
        rw [hmap]
        refine forall₂_congr fun m _ => ?_
        rw [reread, id, ChatMessage.mk.injEq]
        exact and_iff_right rfl
      rw [List.map_cons, truncateMessages_cons, truncateMessages_cons, List.cons.injEq, RereadAlike,
        ← hrest]
      constructor
      · rintro ⟨hhead, htail⟩
        rw [htail] at hhead
        exact ⟨htail, hhead⟩
      · rintro ⟨htail, hhead⟩
        rw [htail]
        exact ⟨hhead, rfl⟩

end Replayed

/-! ## Replays -/

section Replays

variable (E : Ed25519) (C : TeeCipher) (door : ChatDoor) (cfg : ChatConfig)
  (moment later : ChatMoment) (ws : Store.Workspace) (req : ChatCompletionRequest)
  (call again : ChatCall) (logPath : String) (entries : List AuditEntry)

/-- The replay hands the engine what the inference handed it. -/
def ReplayAgrees (r : InferenceRequest) : Prop :=
  ∃ body r', replayInference X logPath (some (logText X entries)) call.requestId = .ok body ∧
    (chatCompletions X E C door cfg later again none none (render body)).handed = some r' ∧
    r'.messages = r.messages ∧ r'.model = r.model ∧ r'.maxTokens = r.maxTokens ∧
    r'.stopSequences = r.stopSequences

/-- The file has what it takes, the default workspace takes the request and puts nothing
    before its messages, they are not read as anything else, and no stop sequence is
    missing. -/
structure Replayable (taken : Store.Workspace) : Prop where
  start : HasKind entries call.requestId .inferenceStart
  receipt : HasKind entries call.requestId .inferenceReceipt
  unkeyed : ∀ expected, taken.apiKeyHash = some expected → X.sha256 [] = expected
  fits : (Text.encode (render (replayBody X req.model
    ((promptMessages X C cfg moment ws req).map ((ChatMessage.codec X).enc X.value))
    req.maxTokens))).length ≤ MAX_BODY_BYTES
  admitted : (admission cfg later taken (replayRequest req.model
    (promptMessages X C cfg moment ws req) req.maxTokens)).isOk = true
  unprompted : effectiveSystemPrompt cfg taken = none
  readAlike : ∀ modelId manifest, admission cfg moment ws req = .ok (modelId, manifest) →
    RereadAlike C cfg.settings.teeKey (maxPromptChars manifest.contextLength)
      (promptMessages X C cfg moment ws req)
  unstopped : req.stop.getD [] = []

variable {X E C door cfg moment later ws req call again logPath entries}

/-- An inference that is replayed as it was. -/
theorem replayable_of_replayAgrees {r : InferenceRequest} (hlog : cfg.settings.logPrompts = true)
    (hr : (runChat cfg moment ws req X E C call).handed = some r)
    (hrec : Recorded (runChat cfg moment ws req X E C call) call.requestId entries)
    (h : ReplayAgrees X E C door cfg later call again logPath entries r) :
    ∃ taken, door.getBySlug "default" = .ok (some taken) ∧
      Replayable X C cfg moment later ws req call entries taken := by
  obtain ⟨modelId, manifest, hadmitted, has⟩ := handedAs_runChat hr
  have hparse := parse_of_admission hadmitted
  obtain ⟨body, r', hbody, hserved, hmessages, -, -, hstop⟩ := h
  -- The command's body comes from the logged prompt and the stored receipt.
  obtain ⟨hreceipt, hstart, rfl⟩ := (replayInference_eq_ok hrec hlog has logPath).mp hbody
  rw [ModelId.display_of_parse hparse] at hserved
  -- The server answers the replay like any chat of the default workspace.
  obtain ⟨taken, htaken, hfits, hhanded⟩ :=
    (chatCompletions_handed (ofValue_replayBody X ..)).mp hserved
  obtain ⟨hget, hkey⟩ := ChatDoor.workspaceCtx_default.mp htaken
  obtain ⟨modelId', manifest', hadmitted', -, -, hstop', hmessages'⟩ :=
    runChat_replayRequest hhanded
  have hparse' := parse_of_admission hadmitted'
  -- Both runs name one model, and its row is the same manifest.
  obtain rfl : modelId = modelId' := Option.some.inj (hparse.symm.trans hparse')
  obtain rfl : manifest = manifest' :=
    Option.some.inj ((row_of_admission hadmitted).symm.trans (row_of_admission hadmitted'))
  rw [hmessages', has.messages] at hmessages
  -- A prompt of the default workspace would make one message more.
  have hprompt : effectiveSystemPrompt cfg taken = none := by
    cases hprompt : effectiveSystemPrompt cfg taken with
    | none => rfl
    | some prompt =>
        have hlength := congrArg List.length hmessages
        rw [hprompt, length_truncateMessages, length_truncateMessages, insertSystem,
          List.length_cons, List.length_map] at hlength
        omega
  refine ⟨taken, hget, hstart, hreceipt, hkey, hfits, ?_, hprompt, ?_, ?_⟩
  · rw [hadmitted']
    rfl
  · intro modelId' manifest' hagain
    obtain ⟨-, rfl⟩ := Prod.mk.inj (Except.ok.inj (hadmitted.symm.trans hagain))
    rw [hprompt] at hmessages
    exact rereadAlike_iff.mp hmessages
  · rw [← has.stop, ← hstop, hstop']

/-- **Replays.**  A recorded inference is replayed as it was exactly when the file has its
    start and its receipt, the default workspace has no key and takes the request, there
    is no system prompt for it, the messages read again as they are, and there were no
    stop sequences. -/
theorem replay_agrees_iff {r : InferenceRequest} (hlog : cfg.settings.logPrompts = true)
    (hr : (runChat cfg moment ws req X E C call).handed = some r)
    (hrec : Recorded (runChat cfg moment ws req X E C call) call.requestId entries) :
    ReplayAgrees X E C door cfg later call again logPath entries r ↔
      ∃ taken, door.getBySlug "default" = .ok (some taken) ∧
        Replayable X C cfg moment later ws req call entries taken := by
  refine ⟨replayable_of_replayAgrees hlog hr hrec, ?_⟩
  rintro ⟨taken, hget, h⟩
  obtain ⟨modelId, manifest, hadmitted, has⟩ := handedAs_runChat hr
  have hparse := parse_of_admission hadmitted
  obtain ⟨admitted, hadmitted'⟩ := isOk_eq_true.mp h.admitted
  have hrun : ∃ r', (runChat cfg later taken
      (replayRequest req.model (promptMessages X C cfg moment ws req) req.maxTokens)
      X E C again).handed = some r' := handed_replayRequest hadmitted'
  obtain ⟨r', hr'⟩ := hrun
  obtain ⟨modelId', manifest', hagain, hmodel, htokens, hstop, hmessages⟩ :=
    runChat_replayRequest hr'
  have hparse' := parse_of_admission hagain
  obtain rfl : modelId = modelId' := Option.some.inj (hparse.symm.trans hparse')
  obtain rfl : manifest = manifest' :=
    Option.some.inj ((row_of_admission hadmitted).symm.trans (row_of_admission hagain))
  refine ⟨_, r', (replayInference_eq_ok hrec hlog has logPath).mpr ⟨h.receipt, h.start, rfl⟩, ?_,
    ?_, hmodel.trans has.model.symm, htokens.trans has.maxTokens.symm, ?_⟩
  · rw [ModelId.display_of_parse hparse]
    exact (chatCompletions_handed (ofValue_replayBody X ..)).mpr
      ⟨taken, ChatDoor.workspaceCtx_default.mpr ⟨hget, h.unkeyed⟩, h.fits, hr'⟩
  · rw [hmessages, has.messages, h.unprompted, insertSystem]
    exact rereadAlike_iff.mpr (h.readAlike _ _ hadmitted)
  · rw [hstop, has.stop, h.unstopped]

end Replays

/-! ## Two replays -/

/-- What a handler appended, as entries. -/
def entriesOf (logged : List (String × AuditEvent)) : List AuditEntry :=
  logged.map fun (actor, event) => ⟨0, 0, actor, event, "", ""⟩

theorem recorded_entriesOf (o : ChatOutcome) (requestId : String) :
    Recorded o requestId (entriesOf o.logged) := by
  constructor
  · intro e he
    obtain ⟨logged, -, rfl⟩ := List.mem_map.mp he
    exact Nat.two_pow_pos 64
  · intro e he _
    obtain ⟨⟨actor, event⟩, hmem, rfl⟩ := List.mem_map.mp he
    exact ⟨actor, hmem⟩

/-- A server whose default workspace has no key. -/
def openDoor : ChatDoor where
  adminKey := none
  getBySlug slug := .ok (if slug = "default" then some defaultWorkspace else none)

/-- What the handler makes of one message. -/
def hiOutcome (settings : ChatSettings) : ChatOutcome :=
  runChat (tinyConfig settings "/tmp/other.gguf") calmMoment defaultWorkspace
    (tinyRequest "hi" false) .sample (.sample []) .sample tinyCall

/-- Without a system prompt the message is replayed. -/
theorem replay_agrees_iff_hi :
    ∃ r, (hiOutcome plainSettings).handed = some r ∧
      Recorded (hiOutcome plainSettings) tinyCall.requestId
        (entriesOf (hiOutcome plainSettings).logged) ∧
      ReplayAgrees .sample (.sample []) .sample openDoor
        (tinyConfig plainSettings "/tmp/other.gguf") calmMoment tinyCall tinyCall
        "/data/audit/default.jsonl" (entriesOf (hiOutcome plainSettings).logged) r := by
  have hr : ∃ r, (hiOutcome plainSettings).handed = some r := ⟨_, rfl⟩
  obtain ⟨r, hr⟩ := hr
  refine ⟨r, hr, recorded_entriesOf _ _, ?_⟩
  refine (replay_agrees_iff rfl hr (recorded_entriesOf _ _)).mpr ⟨defaultWorkspace, rfl, ?_⟩
  refine ⟨?_, ?_, ?_, ?_, rfl, rfl, ?_, rfl⟩
  · exact ⟨_, List.mem_cons_self, rfl, rfl⟩
  · exact ⟨_, List.mem_cons_of_mem _ (List.mem_cons_of_mem _ List.mem_cons_self), rfl, rfl⟩
  · rintro expected h
    cases h
  · decide +kernel
  · rintro modelId manifest -
    exact ⟨List.forall_mem_nil _, rfl⟩

/-- A server with a system prompt. -/
def briefSettings : ChatSettings := { plainSettings with systemPrompt := some "Be brief." }

/-- A system prompt is put before the messages of the replay a second time. -/
theorem not_replayAgrees_prompted :
    ∃ r, (hiOutcome briefSettings).handed = some r ∧
      Recorded (hiOutcome briefSettings) tinyCall.requestId
        (entriesOf (hiOutcome briefSettings).logged) ∧
      ¬ ReplayAgrees .sample (.sample []) .sample openDoor
        (tinyConfig briefSettings "/tmp/other.gguf") calmMoment tinyCall tinyCall
        "/data/audit/default.jsonl" (entriesOf (hiOutcome briefSettings).logged) r := by
  have hr : ∃ r, (hiOutcome briefSettings).handed = some r := ⟨_, rfl⟩
  obtain ⟨r, hr⟩ := hr
  refine ⟨r, hr, recorded_entriesOf _ _, fun hagrees => ?_⟩
  obtain ⟨taken, hget, h⟩ := replayable_of_replayAgrees rfl hr (recorded_entriesOf _ _) hagrees
  obtain rfl : defaultWorkspace = taken := Option.some.inj (Except.ok.inj hget)
  cases h.unprompted

end Maranode.Cli
