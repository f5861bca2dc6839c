/-
  Maranode.Api.Grounding

  The sources a grounded answer names, and the chunks its prompt has.

  Three steps go over the retrieved chunks.  The context prompt takes as many as fit; when
  no system prompt stands in front of it, it is the message that is cut when the prompt is
  too long; and the response and the receipt name every chunk that was retrieved.
-/
import Maranode.Api.ChatSealed
import Maranode.Api.Truncation
import Maranode.Rag.Context
import Mathlib.Data.Nat.Find

namespace Maranode.Api

open Lib Common Inference

/-! ## What a prompt shows -/

def SourceChunk.cited (c : SourceChunk) : Rag.CitedChunk where
  source := c.source
  title := c.title
  section_ := c.section_
  pageNumber := c.pageNumber.toNat
  text := c.text

/-- `state.rag`, of an engine with its retrieval and its `max_context_chars`. -/
def engineRag (retrieve : Option String → String → Option Nat → Except String (List SourceChunk))
    (maxContextChars : Nat) : ChatRag where
  retrieve := retrieve
  buildContextPrompt hits := Rag.buildContextPrompt maxContextChars (hits.map SourceChunk.cited)

/-- How many of the chunks, from the first on, a text has from its start, up to white space
    behind the last of them. -/
def shownCount (chunks : List Rag.CitedChunk) (text : String) : Nat :=
  Nat.findGreatest (fun m => (Rag.contextPrompt chunks m).toList <+: text.toList) chunks.length

/-- The chunks whose text is in the context as the model gets it. -/
def grounding (hits : List SourceChunk) (text : String) : List SourceChunk :=
  hits.take (shownCount (hits.map SourceChunk.cited) text)

/-- The lists of sources in a reply: one in a response, and one in the last chunk of a
    stream. -/
def ChatReply.sourceLists : ChatReply → List (List RagSource)
  | .error _ => []
  | .events es => es.filterMap fun
      | .chunk c => c.sources
      | .data _ => none
  | .response r => r.sources.toList

def loggedReceipt : String × AuditEvent → Option InferenceReceipt
  | (_, .inferenceReceipt receipt) => some receipt
  | _ => none

/-- The receipts that are logged, and the one in the response. -/
def ChatOutcome.receipts (o : ChatOutcome) : List InferenceReceipt :=
  o.logged.filterMap loggedReceipt ++
    match o.reply with
    | .response r => r.receipt.toList
    | _ => []

def numberedSources (hits : List SourceChunk) : List RagSource :=
  hits.zipIdx.map fun (c, i) => .of c i

def sourceRefs (hits : List SourceChunk) : List SourceRef :=
  hits.map fun c =>
    { chunkId := c.chunkId
      docId := c.docId
      source := c.source
      docSha256 := c.docSha256
      chunkHash := c.contentHash
      score := c.score }

variable (X : External) (E : Ed25519) (C : TeeCipher) (cfg : ChatConfig) (moment : ChatMoment)
  (ws : Store.Workspace) (req : ChatCompletionRequest) (call : ChatCall)

/-- Where the context stands among the messages. -/
def contextIndex : Nat := if (effectiveSystemPrompt cfg ws).isSome then 1 else 0

/-- The sources in the reply and in the receipts are the chunks whose text is in the context
    the engine was handed. -/
def SourcesAgree (hits : List SourceChunk) : Prop :=
  let o := runChat cfg moment ws req X E C call
  ∃ r msg, o.handed = some r ∧ r.messages[contextIndex cfg ws]? = some msg ∧
    (∀ sources ∈ o.reply.sourceLists,
      sources = numberedSources (grounding hits msg.content)) ∧
    ∀ receipt ∈ o.receipts, receipt.sources = sourceRefs (grounding hits msg.content)

/-- All chunks fit into the context, and nothing is cut off it: a system prompt stands in
    front of it, or it has no more characters than there is room for (what goes may also be
    what the marker starts with). -/
def ContextFits (maxContextChars : Nat) (manifest : Store.ModelManifest)
    (hits : List SourceChunk) : Prop :=
  let chunks := hits.map SourceChunk.cited
  let room := truncationBudget (maxPromptChars manifest.contextLength)
    (readMessages C cfg.settings.teeKey req.messages)
  (Rag.totalLength (Rag.blocksFrom 0 chunks) ≤ maxContextChars ∨ hits.length = 1) ∧
  ((effectiveSystemPrompt cfg ws).isSome = true ∨
    (Rag.contextPrompt chunks chunks.length).toList.drop room <+: truncationMarker.toList)

/-! ## Cut prompts -/

/-- In the marker, no digit follows a bracket. -/
theorem not_marker_of_bracket {before rest : List Char} {d : Char} (hd : d.isDigit = true) :
    ¬ before ++ '[' :: d :: rest <+: truncationMarker.toList := by
  rintro ⟨behind, h⟩
  have hmarker : truncationMarker.toList
      = '\n' :: '\n' :: '[' :: 'c' :: "ontext truncated]".toList := by decide
  have honce : '[' ∉ 'c' :: "ontext truncated]".toList := by decide
  rw [hmarker] at h
  cases before with
  | nil => cases h
  | cons a before =>
      cases before with
      | nil => cases h
      | cons b before =>
          have hthird := (List.cons.inj (List.cons.inj h).2).2
          cases before with
          | nil =>
              -- The bracket of the marker: a letter follows.
              have hletter := (List.cons.inj (List.cons.inj hthird).2).1
              rw [hletter] at hd
              cases hd
          | cons c before =>
              have hbehind := (List.cons.inj hthird).2
              rw [← hbehind] at honce
              simp at honce

/-- What is cut still starts with the prompt of all chunks when it was that prompt, and the
    marker replaces what was cut off. -/
theorem prefix_truncated_iff {chunks : List Rag.CitedChunk} {m : Nat} (hm : m ≤ chunks.length)
    (room : Nat) :
    (Rag.contextPrompt chunks chunks.length).toList
        <+: (truncated room (Rag.contextPrompt chunks m)).toList ↔
      m = chunks.length ∧
        (Rag.contextPrompt chunks chunks.length).toList.drop room <+: truncationMarker.toList := by
  rw [truncated, String.toList_append, String.toList_ofList]
  rcases Nat.lt_or_eq_of_le hm with hless | rfl
  · refine iff_of_false (fun hpre => ?_) fun h => absurd h.1 (Nat.ne_of_lt hless)
    obtain ⟨white, d, rest, happend, -, hd⟩ := Rag.contextPrompt_append hless (Nat.le_refl _)
    have hsplit := (List.take_append_drop room (Rag.contextPrompt chunks m).toList).symm
    generalize List.take room (Rag.contextPrompt chunks m).toList = kept at hpre hsplit
    rw [happend, hsplit, List.append_assoc, List.prefix_append_right_inj, ← List.append_assoc]
      at hpre
    exact not_marker_of_bracket hd hpre
  · have hsplit := (List.take_append_drop room
      (Rag.contextPrompt chunks chunks.length).toList).symm
    generalize List.take room (Rag.contextPrompt chunks chunks.length).toList = kept at hsplit ⊢
    rw [and_iff_right rfl]
    nth_rewrite 1 [hsplit]
    rw [List.prefix_append_right_inj]

theorem prefix_contextPrompt_iff {chunks : List Rag.CitedChunk} {m : Nat}
    (hm : m ≤ chunks.length) :
    (Rag.contextPrompt chunks chunks.length).toList <+: (Rag.contextPrompt chunks m).toList ↔
      m = chunks.length := by
  constructor
  · intro hpre
    rcases Nat.lt_or_eq_of_le hm with hless | heq
    · exact absurd hpre (Rag.not_prefix_contextPrompt hless (Nat.le_refl _))
    · exact heq
  · rintro rfl
    exact List.prefix_rfl

/-- All chunks are in the context prompt when all fit, or when there is one. -/
theorem promptCount_eq_length_iff {chunks : List Rag.CitedChunk} (h : chunks ≠ [])
    (maxContextChars : Nat) :
    Rag.promptCount maxContextChars chunks = chunks.length ↔
      Rag.totalLength (Rag.blocksFrom 0 chunks) ≤ maxContextChars ∨ chunks.length = 1 := by
  obtain ⟨hpos, hle, hfits, hmore⟩ := Rag.promptCount_spec h maxContextChars
  have hall : (Rag.blocksFrom 0 chunks).take chunks.length = Rag.blocksFrom 0 chunks := by
    rw [← Rag.length_blocksFrom 0 chunks, List.take_length]
  constructor
  · intro heq
    rw [heq, hall] at hfits
    exact hfits
  · intro hroom
    rcases Nat.lt_or_eq_of_le hle with hless | heq
    · have hover := hmore chunks.length hless (Nat.le_refl _)
      rw [hall] at hover
      omega
    · exact heq

theorem length_le_utf8ByteSize (s : String) : s.toList.length ≤ s.utf8ByteSize := by
  rw [Store.utf8ByteSize_eq]
  exact Text.length_le_length_encode s.toList

/-- The context that leads a prompt is cut, or there is room for it. -/
theorem prefix_cutHead_iff {chunks : List Rag.CitedChunk} {m : Nat} (hm : m ≤ chunks.length)
    (maxChars : Nat) (rest : List ChatMessage) :
    (Rag.contextPrompt chunks chunks.length).toList
        <+: (cutHead maxChars rest ⟨.system, Rag.contextPrompt chunks m⟩).content.toList ↔
      m = chunks.length ∧ (Rag.contextPrompt chunks chunks.length).toList.drop
        (truncationBudget maxChars rest) <+: truncationMarker.toList := by
  have hrole : (⟨.system, Rag.contextPrompt chunks m⟩ : ChatMessage).role = .system := rfl
  rcases cutHead_cases maxChars rest hrole with ⟨hcut, -⟩ | ⟨hcut, hfits⟩
  · rw [hcut]
    exact prefix_truncated_iff hm _
  · rw [hcut, prefix_contextPrompt_iff hm]
    refine ⟨?_, And.left⟩
    rintro rfl
    refine ⟨rfl, ?_⟩
    have hroom : (Rag.contextPrompt chunks chunks.length).toList.length
        ≤ truncationBudget maxChars rest := by
      have hlen := length_le_utf8ByteSize (Rag.contextPrompt chunks chunks.length)
      rw [contentLength_cons] at hfits
      dsimp only at hfits
      rw [truncationBudget]
      omega
    rw [List.drop_eq_nil_of_le hroom]
    exact List.nil_prefix

/-! ## What the handler answers with -/

variable {X E C cfg moment ws req call}

theorem sourceRefs_buildReceipt {c : Chat} {hits : List SourceChunk} {env : ChatEnv}
    {resp : InferenceResponse} {receipt : InferenceReceipt}
    (hc : c.ragRetrieved = hits.map (·.toRetrievedChunk))
    (h : c.buildReceipt X E env resp = some receipt) : receipt.sources = sourceRefs hits := by
  obtain ⟨sk, -, rfl⟩ := Option.map_eq_some_iff.mp h
  dsimp only [Chat.unsigned]
  rw [hc, List.map_map]
  rfl

/-- Every list of sources in the reply is the one that was made for it. -/
theorem eq_of_mem_sourceLists_answer {c : Chat} {sources srcs : List RagSource}
    (h : srcs ∈ (answer cfg moment req X E C call c (some sources)).2.sourceLists) :
    srcs = sources := by
  rw [answer] at h
  dsimp only at h
  by_cases hstream : req.stream = true
  · rw [if_pos hstream] at h
    obtain ⟨event, hevent, hsome⟩ := List.mem_filterMap.mp h
    rw [ChatStream.events, List.cons_append, List.mem_cons, List.mem_append, List.mem_map,
      List.mem_singleton] at hevent
    rcases hevent with rfl | ⟨sent, -, rfl⟩ | rfl
    · cases hsome
    · cases sent with
      | error e => cases hsome
      | ok token =>
          by_cases hlast : token.isLast = true
          · simp only [ChatStream.event, ChatStream.makeChunkEvent, hlast] at hsome
            exact (Option.some.inj hsome).symm
          · simp only [ChatStream.event, ChatStream.makeChunkEvent, hlast] at hsome
            cases hsome
    · cases hsome
  · rw [if_neg hstream] at h
    cases hgen : moment.generate c.inferenceRequest with
    | error e =>
        rw [hgen] at h
        cases h
    | ok resp =>
        rw [hgen] at h
        exact List.mem_singleton.mp h

/-- So is every receipt. -/
theorem sources_of_mem_answer {c : Chat} {hits : List SourceChunk} {sources : Option (List RagSource)}
    (hc : c.ragRetrieved = hits.map (·.toRetrievedChunk)) {receipt : InferenceReceipt}
    (h : receipt ∈ (answer cfg moment req X E C call c sources).1.filterMap loggedReceipt ∨
      ∃ r, (answer cfg moment req X E C call c sources).2 = .response r ∧
        r.receipt = some receipt) :
    receipt.sources = sourceRefs hits := by
  rw [answer] at h
  dsimp only at h
  -- A stream has no receipt, neither logged nor returned.
  by_cases hstream : req.stream = true
  · rw [if_pos hstream] at h
    rcases h with h | ⟨r, hr, -⟩
    · cases h
    · cases hr
  · rw [if_neg hstream] at h
    cases hgen : moment.generate c.inferenceRequest with
    | error e =>
        rw [hgen] at h
        rcases h with h | ⟨r, hr, -⟩
        · cases h
        · cases hr
    | ok resp =>
        rw [hgen] at h
        dsimp only at h
        -- The receipt is in the log, or in the answer when it was asked for; both name the hits.
        rcases h with h | ⟨r, hr, hreceipt⟩
        · cases hbuilt : c.buildReceipt X E (call.env (.ok resp)) resp with
          | none =>
              rw [hbuilt] at h
              cases h
          | some built =>
              rw [hbuilt] at h
              rw [List.mem_singleton.mp h]
              exact sourceRefs_buildReceipt hc hbuilt
        · obtain rfl := ChatReply.response.inj hr
          by_cases hwith : req.withReceipt = true
          · simp only [ChatStream.response, if_pos hwith] at hreceipt
            exact sourceRefs_buildReceipt hc hreceipt
          · simp only [ChatStream.response, if_neg hwith] at hreceipt
            cases hreceipt

/-- A retrieval logs no receipt. -/
theorem loggedReceipt_ground {opts : ChatRagOptions} :
    (ground moment ws req X opts).logged.filterMap loggedReceipt = [] := by
  have hpolicy (vs : List ViolationInfo) :
      (enforcePolicy ws.slug vs).1.filterMap loggedReceipt = [] := by
    induction vs with
    | nil => rfl
    | cons v vs ih =>
        rw [enforcePolicy]
        split
        · rfl
        · exact ih
  rw [ground]
  split
  · rfl
  · split
    · rfl
    · split
      · rfl
      · exact hpolicy _

variable {modelId : ModelId} {manifest : Store.ModelManifest} {opts : ChatRagOptions}
  {hits : List SourceChunk} {maxContextChars : Nat}

/-- A request whose retrieval finds something: its context prompt is the one of `hits`. -/
structure IsGrounded (cfg : ChatConfig) (moment : ChatMoment) (ws : Store.Workspace)
    (req : ChatCompletionRequest) (maxContextChars : Nat) (modelId : ModelId)
    (manifest : Store.ModelManifest) (opts : ChatRagOptions) (hits : List SourceChunk) :
    Prop where
  admitted : admission cfg moment ws req = .ok (modelId, manifest)
  asked : req.rag = some opts
  grounds : ∃ retrieve, moment.rag = some (engineRag retrieve maxContextChars) ∧
    Grounds moment ws req opts hits
      (Rag.buildContextPrompt maxContextChars (hits.map SourceChunk.cited))
  found : hits ≠ []

/-- The chat of a grounded request. -/
def groundedChat (cfg : ChatConfig) (ws : Store.Workspace) (req : ChatCompletionRequest)
    (C : TeeCipher) (call : ChatCall) (modelId : ModelId) (manifest : Store.ModelManifest)
    (maxContextChars : Nat) (hits : List SourceChunk) : Chat :=
  let chunks := hits.map SourceChunk.cited
  chatOf cfg ws req C call modelId manifest
    (some (Rag.contextPrompt chunks (Rag.promptCount maxContextChars chunks))) hits

variable (X E C call) in
theorem runChat_of_grounded
    (h : IsGrounded cfg moment ws req maxContextChars modelId manifest opts hits) :
    runChat cfg moment ws req X E C call
      = complete cfg moment req X E C call (ground moment ws req X opts).logged
          (ground moment ws req X opts).query
          (groundedChat cfg ws req C call modelId manifest maxContextChars hits)
          (some (numberedSources hits)) := by
  obtain ⟨retrieve, -, hgrounds⟩ := h.grounds
  have hchunks : hits.map SourceChunk.cited ≠ [] := fun hnil => h.found (List.map_eq_nil_iff.mp hnil)
  rw [Rag.buildContextPrompt_eq hchunks] at hgrounds
  rw [runChat, h.admitted]
  dsimp only
  rw [h.asked]
  dsimp only
  rw [ground_eq_ok.mpr hgrounds]
  rfl

variable (C call) in
/-- The context as the engine is handed it has the texts of all chunks exactly when it
    fits. -/
theorem exists_context_message
    (h : IsGrounded cfg moment ws req maxContextChars modelId manifest opts hits) :
    ∃ msg, (groundedChat cfg ws req C call modelId manifest maxContextChars
        hits).engineMessages[contextIndex cfg ws]? = some msg ∧
      ((Rag.contextPrompt (hits.map SourceChunk.cited)
            (hits.map SourceChunk.cited).length).toList <+: msg.content.toList ↔
        ContextFits C cfg ws req maxContextChars manifest hits) := by
  have hchunks : hits.map SourceChunk.cited ≠ [] := fun hnil => h.found (List.map_eq_nil_iff.mp hnil)
  have hcount := promptCount_eq_length_iff hchunks maxContextChars
  have hle := (Rag.promptCount_spec hchunks maxContextChars).2.1
  have hlen : (hits.map SourceChunk.cited).length = hits.length := List.length_map ..
  rw [hlen] at hcount
  cases hprompt : effectiveSystemPrompt cfg ws with
  | some sp =>
      -- The system prompt is what is cut, if anything is.
      refine ⟨⟨.system, Rag.contextPrompt (hits.map SourceChunk.cited)
        (Rag.promptCount maxContextChars (hits.map SourceChunk.cited))⟩, ?_, ?_⟩
      · rw [Chat.engineMessages, groundedChat]
        dsimp only [chatOf]
        rw [contextIndex, hprompt, insertSystem, truncateMessages_cons]
        rfl
      · rw [prefix_contextPrompt_iff hle, hlen, hcount, ContextFits, hprompt]
        exact ⟨fun hfits => ⟨hfits, .inl rfl⟩, And.left⟩
  -- Without a system prompt the context comes first, and is cut itself.
  | none =>
      refine ⟨cutHead (maxPromptChars manifest.contextLength)
        (readMessages C cfg.settings.teeKey req.messages)
        ⟨.system, Rag.contextPrompt (hits.map SourceChunk.cited)
          (Rag.promptCount maxContextChars (hits.map SourceChunk.cited))⟩, ?_, ?_⟩
      · rw [Chat.engineMessages, groundedChat]
        dsimp only [chatOf]
        rw [contextIndex, hprompt, insertSystem, insertSystem, truncateMessages_cons]
        rfl
      · rw [prefix_cutHead_iff hle, hlen, hcount, ContextFits, hprompt, hlen]
        refine and_congr_right fun _ => ?_
        exact ⟨.inr, fun h => h.resolve_left Bool.false_ne_true⟩

theorem shownCount_eq_length_iff {chunks : List Rag.CitedChunk} (h : chunks ≠ [])
    {text : String} : shownCount chunks text = chunks.length ↔
      (Rag.contextPrompt chunks chunks.length).toList <+: text.toList := by
  have hpos : chunks.length ≠ 0 := fun hzero => h (List.length_eq_zero_iff.mp hzero)
  constructor
  · intro hcount
    have hspec := Nat.findGreatest_of_ne_zero hcount hpos
    exact hspec
  · intro hpre
    exact Nat.findGreatest_eq hpre

theorem grounding_eq_iff (h : hits ≠ []) {text : String} :
    grounding hits text = hits ↔
      (Rag.contextPrompt (hits.map SourceChunk.cited)
        (hits.map SourceChunk.cited).length).toList <+: text.toList := by
  have hchunks : hits.map SourceChunk.cited ≠ [] := fun hnil => h (List.map_eq_nil_iff.mp hnil)
  have hlen : (hits.map SourceChunk.cited).length = hits.length := List.length_map ..
  have hle : shownCount (hits.map SourceChunk.cited) text ≤ hits.length :=
    hlen ▸ Nat.findGreatest_le _
  rw [← shownCount_eq_length_iff hchunks, hlen, grounding, List.take_eq_self_iff]
  omega

theorem numberedSources_eq_iff {text : String} :
    numberedSources hits = numberedSources (grounding hits text) ↔ grounding hits text = hits := by
  constructor
  · intro h
    have hlen := congrArg List.length h
    rw [numberedSources, numberedSources, List.length_map, List.length_map, List.length_zipIdx,
      List.length_zipIdx, grounding, List.length_take] at hlen
    rw [grounding, List.take_eq_self_iff]
    omega
  · intro h
    rw [h]

/-- A response and its receipts name what was retrieved. -/
theorem sources_of_mem_receipts
    (h : IsGrounded cfg moment ws req maxContextChars modelId manifest opts hits)
    {receipt : InferenceReceipt}
    (hreceipt : receipt ∈ (runChat cfg moment ws req X E C call).receipts) :
    receipt.sources = sourceRefs hits := by
  have hc : (groundedChat cfg ws req C call modelId manifest maxContextChars hits).ragRetrieved
      = hits.map (·.toRetrievedChunk) := rfl
  rw [runChat_of_grounded X E C call h, complete, ChatOutcome.receipts, List.filterMap_append,
    loggedReceipt_ground, List.nil_append, List.mem_append] at hreceipt
  rcases hreceipt with hlogged | hsent
  · exact sources_of_mem_answer hc (.inl hlogged)
  · dsimp only at hsent
    split at hsent
    · next r hr => exact sources_of_mem_answer hc (.inr ⟨r, hr, Option.mem_toList.mp hsent⟩)
    · cases hsent

theorem sourcesAgree_iff
    (h : IsGrounded cfg moment ws req maxContextChars modelId manifest opts hits)
    (hshown : (runChat cfg moment ws req X E C call).reply.sourceLists ≠ []) :
    SourcesAgree X E C cfg moment ws req call hits ↔
      ContextFits C cfg ws req maxContextChars manifest hits := by
  obtain ⟨msg, hmsg, hfits⟩ := exists_context_message C call h
  rw [← hfits, ← grounding_eq_iff h.found]
  have hrun := runChat_of_grounded X E C call h
  have hall : ∀ srcs ∈ (runChat cfg moment ws req X E C call).reply.sourceLists,
      srcs = numberedSources hits := by
    intro srcs hsrcs
    rw [hrun] at hsrcs
    exact eq_of_mem_sourceLists_answer hsrcs
  constructor
  · rintro ⟨r, msg', hr, hmsg', hsources, -⟩
    rw [hrun] at hr
    rw [← Option.some.inj hr] at hmsg'
    obtain rfl : msg = msg' := Option.some.inj (hmsg.symm.trans hmsg')
    obtain ⟨srcs, hsrcs⟩ := List.exists_mem_of_ne_nil _ hshown
    rw [← numberedSources_eq_iff, ← hsources srcs hsrcs]
    exact (hall srcs hsrcs).symm
  · intro hsame
    refine ⟨_, msg, by rw [hrun]; rfl, hmsg, fun srcs hsrcs => ?_, fun receipt hreceipt => ?_⟩
    · rw [hsame]
      exact hall srcs hsrcs
    · rw [hsame]
      exact sources_of_mem_receipts h hreceipt

variable (X E C cfg moment ws req call) in
/-- **Sources.**  The context has the blocks of as many chunks as fit, and of the first in
    any case.  The response and the receipt name them exactly when all chunks fit and nothing
    is cut off the context. -/
theorem sources_agree_iff :
    (∀ maxContextChars (chunks : List Rag.CitedChunk), chunks ≠ [] →
      ∃ m, 0 < m ∧ m ≤ chunks.length ∧
        Rag.buildContextPrompt maxContextChars chunks = some (Rag.contextPrompt chunks m) ∧
        (Rag.totalLength ((Rag.blocksFrom 0 chunks).take m) ≤ maxContextChars ∨ m = 1) ∧
        ∀ k, m < k → k ≤ chunks.length →
          maxContextChars < Rag.totalLength ((Rag.blocksFrom 0 chunks).take k)) ∧
    ∀ maxContextChars modelId manifest opts hits,
      IsGrounded cfg moment ws req maxContextChars modelId manifest opts hits →
      (runChat cfg moment ws req X E C call).reply.sourceLists ≠ [] →
      (SourcesAgree X E C cfg moment ws req call hits ↔
        ContextFits C cfg ws req maxContextChars manifest hits) := by
  constructor
  · intro maxContextChars chunks hchunks
    obtain ⟨hpos, hle, hfits, hmore⟩ := Rag.promptCount_spec hchunks maxContextChars
    exact ⟨_, hpos, hle, Rag.buildContextPrompt_eq hchunks maxContextChars, hfits, hmore⟩
  · intro maxContextChars modelId manifest opts hits h hshown
    exact sourcesAgree_iff h hshown

/-! ## Two chunks, and room for one -/

def leaveChunk (chunkId text : String) : SourceChunk where
  chunkId := chunkId
  docId := "d1"
  docSha256 := "ab"
  contentHash := "cd"
  source := "handbook.txt"
  score := ⟨0, F32.finite_zero⟩
  text := text
  title := some "Handbook"
  author := none
  pageNumber := 3
  section_ := none

def leaveChunks : List SourceChunk :=
  [leaveChunk "c1" "Leave is 25 days.", leaveChunk "c2" "Leave has to be approved."]

/-- A daemon whose collections hold the chunks. -/
def ragMoment (maxContextChars : Nat) (hits : List SourceChunk) : ChatMoment :=
  { calmMoment with rag := some (engineRag (fun _ _ _ => .ok hits) maxContextChars) }

def askingOptions : ChatRagOptions := ⟨some "hr", none, false⟩

def askingRequest : ChatCompletionRequest :=
  { tinyRequest "How many days?" false with rag := some askingOptions }

def promptConfig (systemPrompt : Option String) : ChatConfig :=
  tinyConfig { plainSettings with systemPrompt := systemPrompt } "/data/blobs/model"

theorem isGrounded_asking (systemPrompt : Option String) (maxContextChars : Nat)
    {hits : List SourceChunk} (hfound : hits ≠ []) :
    IsGrounded (promptConfig systemPrompt) (ragMoment maxContextChars hits) defaultWorkspace
      askingRequest maxContextChars tinyId (tinyManifest "/data/blobs/model") askingOptions
      hits where
  admitted := rfl
  asked := rfl
  grounds := by
    refine ⟨fun _ _ _ => .ok hits, rfl, _, _, rfl, rfl, rfl, fun v hv => ?_, rfl⟩
    cases hv
  found := hfound

/-- With room for both, and a system prompt in front. -/
theorem sources_agree_prompted :
    SourcesAgree .sample (.sample []) .sample (promptConfig (some "Be brief."))
      (ragMoment 6000 leaveChunks) defaultWorkspace askingRequest tinyCall leaveChunks := by
  have hfits : ContextFits .sample (promptConfig (some "Be brief.")) defaultWorkspace
      askingRequest 6000 (tinyManifest "/data/blobs/model") leaveChunks :=
    ⟨.inl (by decide), .inl rfl⟩
  refine ((sources_agree_iff .sample (.sample []) .sample (promptConfig (some "Be brief."))
    (ragMoment 6000 leaveChunks) defaultWorkspace askingRequest tinyCall).2 6000 tinyId
    (tinyManifest "/data/blobs/model") askingOptions leaveChunks (isGrounded_asking _ _ ?_) ?_).mpr
    hfits
  · exact List.cons_ne_nil _ _
  · exact List.cons_ne_nil _ _

/-- Two chunks were retrieved and named; the prompt has the first. -/
theorem not_sourcesAgree_full :
    ¬ SourcesAgree .sample (.sample []) .sample (promptConfig none) (ragMoment 40 leaveChunks)
      defaultWorkspace askingRequest tinyCall leaveChunks := by
  have hfound : leaveChunks ≠ [] := List.cons_ne_nil _ _
  rw [sourcesAgree_iff (isGrounded_asking none 40 hfound) (List.cons_ne_nil _ _)]
  rintro ⟨hfits, -⟩
  revert hfits
  decide

end Maranode.Api
