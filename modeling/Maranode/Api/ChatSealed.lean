/-
  Maranode.Api.ChatSealed

  Chat requests with encrypted messages, beside the same requests in the clear to a server
  without a key.

  Messages are decrypted where they are read for the engine, and the response is encrypted
  where it does not stream.  The retrieval takes its query from the request as it came, and
  a stream sends the tokens as they are.
-/
import Maranode.Api.ChatModel

namespace Maranode.Api

open Lib Common Inference

variable (X : External) (E : Ed25519) (C : TeeCipher) (cfg : ChatConfig) (moment : ChatMoment)
  (ws : Store.Workspace) (req : ChatCompletionRequest) (call : ChatCall)

/-! ## Requests in the clear -/

/-- Each message is encrypted under the key, with a nonce of its own. -/
def Encrypts (key : ByteArr 32) (messages plain : List OaiMessage) : Prop :=
  List.Forall₂ (fun m p => m.role = p.role ∧
    ∃ nonce, TeeEncryptKey.encryptStr C.toAes256Gcm ⟨key, nonce⟩ p.content = .ok m.content)
    messages plain

/-- The server without a key. -/
def ChatConfig.withoutKey : ChatConfig :=
  { cfg with settings := { cfg.settings with teeEncryptKey := none } }

/-- The request with other messages. -/
def ChatCompletionRequest.withMessages (messages : List OaiMessage) : ChatCompletionRequest :=
  { req with messages := messages }

/-! ## What a response shows -/

/-- The sources an event carries. -/
def Event.sources : Event → List RagSource
  | .chunk c => c.sources.getD []
  | .data _ => []

/-- Retrieved texts, each with what the response has for it. -/
def shownSources (hits : List SourceChunk) (sources : List RagSource) : List (String × String) :=
  (hits.zip sources).map fun (hit, source) => (hit.text, source.text)

/-- What the event for something the engine sent has for its text. -/
def shownEvent (hits : List SourceChunk) (sent : Except String Token) (event : Event) :
    List (String × String) :=
  match sent with
  | .ok token => event.deltas.map (token.text, ·) ++ shownSources hits event.sources
  | .error _ => []

/-- The chunks a query found. -/
def hitsOf (query : Option String) : List SourceChunk :=
  match query, req.rag, moment.rag with
  | some q, some opts, some rag => ((rag.retrieve opts.collection q opts.topK).toOption).getD []
  | _, _, _ => []

/-- The pieces of model output and the retrieved texts in a response, each with what the
    response has for it. -/
def shown (o : ChatOutcome) : List (String × String) :=
  let hits := hitsOf moment req o.query
  match o.handed, o.reply with
  | some r, .events es =>
      ((moment.generateStream r).zip es.tail).flatMap fun (sent, event) =>
        shownEvent hits sent event
  | some r, .response rep =>
      match moment.generate r with
      | .ok resp =>
          rep.choices.map (fun choice => (resp.content, choice.message.content)) ++
            shownSources hits (rep.sources.getD [])
      | .error _ => []
  | _, _ => []

/-- There is no text, or what is shown is its encryption under the key. -/
def SealedUnder (key : ByteArr 32) (piece : String × String) : Prop :=
  piece.1 = "" ∨
    ∃ nonce, TeeEncryptKey.encryptStr C.toAes256Gcm ⟨key, nonce⟩ piece.1 = .ok piece.2

/-- The prompt hash an event has. -/
def promptHash : String × AuditEvent → Option String
  | (_, .inferenceStart _ _ sha256 _ _) => some sha256
  | _ => none

/-- The query, the prompt hash and what the engine is handed are those of the request in
    the clear, and everything that is shown is sealed. -/
def Sealed (key : ByteArr 32) (plain : List OaiMessage) : Prop :=
  let o := runChat cfg moment ws req X E C call
  let clear := runChat cfg.withoutKey moment ws (req.withMessages plain) X E C call
  o.query = clear.query ∧ o.logged.filterMap promptHash = clear.logged.filterMap promptHash ∧
    o.handed = clear.handed ∧ ∀ piece ∈ shown moment req o, SealedUnder C key piece

/-! ## When a request is sealed -/

/-- The request gets as far as a retrieval. -/
def Retrieves : Prop :=
  ∃ modelId manifest opts rag m, admission cfg moment ws req = .ok (modelId, manifest) ∧
    req.rag = some opts ∧ moment.rag = some rag ∧ lastUser req = some m

/-- What the engine is handed for a request in the clear that retrieves nothing. -/
def plainInference (modelId : ModelId) (manifest : Store.ModelManifest)
    (plain : List OaiMessage) : InferenceRequest :=
  (chatOf cfg.withoutKey ws (req.withMessages plain) C call modelId manifest none
    []).inferenceRequest

/-- The engine's output has no text to send in a stream, or the encryption of it does not
    fail. -/
def OutputSeals (key : ByteArr 32) (plain : List OaiMessage) : Prop :=
  ∀ modelId manifest, admission cfg moment ws req = .ok (modelId, manifest) → req.rag = none →
    (req.stream = true → ∀ token,
      .ok token ∈ moment.generateStream (plainInference C cfg ws req call modelId manifest plain) →
      token.isLast = false → token.text = "") ∧
    (req.stream = false → ∀ resp,
      moment.generate (plainInference C cfg ws req call modelId manifest plain) = .ok resp →
      resp.content = "" ∨
        ∃ out, TeeEncryptKey.encryptStr C.toAes256Gcm ⟨key, call.nonce⟩ resp.content = .ok out)

variable {X E C cfg moment ws req call} {key : ByteArr 32} {plain : List OaiMessage}

theorem teeKey_of_settings {hexKey : String}
    (hset : cfg.settings.teeEncryptKey = some hexKey) (hkey : teeKeyFromHex hexKey = .ok key) :
    cfg.settings.teeKey = some key := by
  rw [ChatSettings.teeKey, hset, Option.bind_some, hkey]
  rfl

/-- The messages are read as they are in the clear. -/
theorem readMessages_of_encrypts {messages : List OaiMessage} (h : Encrypts C key messages plain) :
    readMessages C (some key) messages = readMessages C none plain := by
  induction h with
  | nil => rfl
  | cons hm _ ih =>
      obtain ⟨hrole, nonce, henc⟩ := hm
      have hread : ∀ m p : OaiMessage, m.role = p.role →
          TeeEncryptKey.encryptStr C.toAes256Gcm ⟨key, nonce⟩ p.content = .ok m.content →
          (⟨roleOf m.role, readContent C (some key) m.content⟩ : ChatMessage) =
            ⟨roleOf p.role, readContent C none p.content⟩ := by
        intro m p hrole henc
        have hdec := decryptStr_of_encryptStr henc
        dsimp only at hdec
        rw [hrole, readContent, hdec]
        rfl
      rw [readMessages, List.map_cons, hread _ _ hrole henc]
      exact congrArg _ ih

theorem isEmpty_of_encrypts {messages : List OaiMessage} (h : Encrypts C key messages plain) :
    plain.isEmpty = messages.isEmpty := by
  cases h with
  | nil => rfl
  | cons => rfl

/-- Whether a request is admitted does not depend on what its messages say. -/
theorem admission_withMessages (h : Encrypts C key req.messages plain) :
    admission cfg.withoutKey moment ws (req.withMessages plain) = admission cfg moment ws req := by
  have hcheck : checkRequest cfg.withoutKey moment ws (req.withMessages plain) =
      checkRequest cfg moment ws req := by
    rw [checkRequest, checkRequest]
    have hempty := isEmpty_of_encrypts h
    have hlen : plain.length = req.messages.length := h.length_eq.symm
    rw [ChatConfig.withoutKey, ChatCompletionRequest.withMessages]
    dsimp only
    rw [hempty, hlen]
  rw [admission, admission, hcheck]
  rfl

/-- Searches that agree message by message find messages that belong together. -/
theorem find?_of_forall₂ {R : OaiMessage → OaiMessage → Prop} {f : OaiMessage → Bool}
    {ms ps : List OaiMessage} (h : List.Forall₂ R ms ps) (hf : ∀ m p, R m p → f m = f p) :
    (ms.find? f = none ∧ ps.find? f = none) ∨
      ∃ m p, ms.find? f = some m ∧ ps.find? f = some p ∧ R m p := by
  induction h with
  | nil => exact .inl ⟨rfl, rfl⟩
  | @cons m p ms ps hm _ ih =>
      cases hfound : f m with
      | true =>
          have hfound' : f p = true := (hf m p hm).symm.trans hfound
          exact .inr ⟨m, p, List.find?_cons_of_pos hfound, List.find?_cons_of_pos hfound', hm⟩
      | false =>
          have hfound' : f p = false := (hf m p hm).symm.trans hfound
          rw [List.find?_cons_of_neg (by rw [hfound]; exact Bool.false_ne_true),
            List.find?_cons_of_neg (by rw [hfound']; exact Bool.false_ne_true)]
          exact ih

/-- The last message of a user, when there is one, reads otherwise in the clear. -/
theorem lastUser_withMessages (h : Encrypts C key req.messages plain) :
    (lastUser req = none ∧ lastUser (req.withMessages plain) = none) ∨
      ∃ m p, lastUser req = some m ∧ lastUser (req.withMessages plain) = some p ∧
        m.content ≠ p.content := by
  have hreverse := List.forall₂_reverse_iff.mpr h
  rcases find?_of_forall₂ (f := (·.role == "user")) hreverse
    (fun m p hm => by rw [hm.1]) with hnone | ⟨m, p, hm, hp, -, nonce, henc⟩
  · exact .inl hnone
  · exact .inr ⟨m, p, hm, hp, ne_of_encryptStr henc⟩

/-- Without a retrieval, what the request says is what it says in the clear. -/
theorem chatOf_of_encrypts (hkey : cfg.settings.teeKey = some key)
    (h : Encrypts C key req.messages plain) (modelId : ModelId) (manifest : Store.ModelManifest) :
    chatOf cfg ws req C call modelId manifest none [] =
      chatOf cfg.withoutKey ws (req.withMessages plain) C call modelId manifest none [] := by
  have hread := readMessages_of_encrypts h
  have hnone : cfg.withoutKey.settings.teeKey = none := rfl
  rw [chatOf, chatOf, hkey, hnone, hread]
  rfl

/-! ## What is shown -/

theorem zip_map_append {α β : Type} (xs : List α) (f : α → β) (ys : List β) :
    xs.zip (xs.map f ++ ys) = xs.map fun x => (x, f x) := by
  induction xs with
  | nil => rfl
  | cons x xs ih => rw [List.map_cons, List.cons_append, List.zip_cons_cons, ih, List.map_cons]

theorem sealedUnder_self {text : String} : SealedUnder C key (text, text) ↔ text = "" := by
  rw [SealedUnder]
  refine or_iff_left ?_
  rintro ⟨nonce, henc⟩
  exact ne_of_encryptStr henc rfl

/-- A content is sealed when it is encrypted or there is none. -/
theorem sealedUnder_outContent {nonce : ByteArr 12} {content : String} :
    SealedUnder C key (content, outContent C.toAes256Gcm (some ⟨key, nonce⟩) content) ↔
      content = "" ∨
        ∃ out, TeeEncryptKey.encryptStr C.toAes256Gcm ⟨key, nonce⟩ content = .ok out := by
  rw [outContent]
  cases henc : TeeEncryptKey.encryptStr C.toAes256Gcm ⟨key, nonce⟩ content with
  | error e =>
      have hself : SealedUnder C key (content, content) ↔ _ := sealedUnder_self
      refine hself.trans (or_iff_left ?_).symm
      rintro ⟨out, h⟩
      cases h
  | ok out => exact iff_of_true (.inr ⟨nonce, henc⟩) (.inr ⟨out, rfl⟩)

/-- What a stream shows are the texts of the tokens that others follow. -/
theorem forall_shown_stream {s : ChatStream} {sent : List (Except String Token)} :
    (∀ piece ∈ (sent.zip (s.events sent).tail).flatMap fun (sent, event) =>
        shownEvent [] sent event, SealedUnder C key piece) ↔
      ∀ token, .ok token ∈ sent → token.isLast = false → token.text = "" := by
  have hzip : sent.zip (s.events sent).tail = sent.map fun x => (x, s.event x) :=
    zip_map_append sent s.event [.data "[DONE]"]
  rw [hzip, List.flatMap_map]
  simp only [List.mem_flatMap, forall_exists_index, and_imp]
  constructor
  · intro h token hmem hlast
    have hshown : (token.text, token.text) ∈ shownEvent [] (.ok token) (s.event (.ok token)) := by
      rw [shownEvent, ChatStream.event, hlast]
      exact List.mem_append_left _ List.mem_cons_self
    exact sealedUnder_self.mp (h _ _ hmem hshown)
  · intro h piece sent' hmem hpiece
    cases sent' with
    | error e => exact absurd hpiece List.not_mem_nil
    | ok token =>
        rw [shownEvent, shownSources, List.zip_nil_left, List.map_nil, List.append_nil,
          ChatStream.event] at hpiece
        cases hlast : token.isLast with
        | true =>
            rw [hlast] at hpiece
            exact absurd hpiece List.not_mem_nil
        | false =>
            rw [hlast] at hpiece
            rw [List.mem_singleton.mp hpiece]
            exact .inl (h token hmem hlast)

theorem hitsOf_none : hitsOf moment req none = [] := rfl

theorem forall_shown_complete (hkey : cfg.settings.teeKey = some key) (c : Chat) :
    (∀ piece ∈ shown moment req (complete cfg moment req X E C call [] none c none),
        SealedUnder C key piece) ↔
      (req.stream = true → ∀ token, .ok token ∈ moment.generateStream c.inferenceRequest →
        token.isLast = false → token.text = "") ∧
      (req.stream = false → ∀ resp, moment.generate c.inferenceRequest = .ok resp →
        resp.content = "" ∨ ∃ out,
          TeeEncryptKey.encryptStr C.toAes256Gcm ⟨key, call.nonce⟩ resp.content = .ok out) := by
  rw [complete, shown, answer]
  dsimp only
  rw [hitsOf_none]
  -- The stream sends its tokens as the engine made them; only the whole reply is sealed.
  cases hstream : req.stream with
  | true =>
      rw [if_pos rfl, imp_iff_right rfl]
      dsimp only
      rw [forall_shown_stream]
      exact (and_iff_left nofun).symm
  | false =>
      rw [if_neg Bool.false_ne_true, imp_iff_right rfl]
      have hskip : (false = true → ∀ token,
          .ok token ∈ moment.generateStream c.inferenceRequest →
          token.isLast = false → token.text = "") := nofun
      rw [and_iff_right hskip]
      cases hgen : moment.generate c.inferenceRequest with
      -- A failed generation shows nothing.
      | error e => exact iff_of_true (fun _ h => absurd h List.not_mem_nil) nofun
      | ok resp =>
          dsimp only
          rw [hgen]
          dsimp only
          rw [hkey, Option.map_some, ChatStream.response]
          dsimp only
          rw [shownSources, List.zip_nil_left, List.map_nil, List.append_nil, List.map_singleton,
            List.forall_mem_singleton, sealedUnder_outContent]
          constructor
          · rintro h _ ⟨⟩
            exact h
          · exact fun h => h resp rfl

theorem answer_fst_withoutKey (c : Chat) (sources : Option (List RagSource)) :
    (answer cfg moment req X E C call c sources).1 =
      (answer cfg.withoutKey moment (req.withMessages plain) X E C call c sources).1 := by
  rw [answer, answer]
  have hstream : (req.withMessages plain).stream = req.stream := rfl
  rw [hstream]
  cases req.stream with
  | true => rfl
  | false =>
      rw [if_neg Bool.false_ne_true, if_neg Bool.false_ne_true]
      cases moment.generate c.inferenceRequest with
      | error e => rfl
      | ok resp => rfl

theorem query_ground {opts : ChatRagOptions} {rag : ChatRag} {m : OaiMessage}
    (hrag : moment.rag = some rag) (hm : lastUser req = some m) :
    (ground moment ws req X opts).query = some m.content := by
  rw [ground, hrag, hm]
  dsimp only
  cases rag.retrieve opts.collection m.content opts.topK with
  | error e => rfl
  | ok hits => rfl

/-- The query of a request that gets to a retrieval is the message as it came. -/
theorem query_runChat {opts : ChatRagOptions} {rag : ChatRag} {m : OaiMessage}
    {modelId : ModelId} {manifest : Store.ModelManifest}
    (hadmitted : admission cfg moment ws req = .ok (modelId, manifest))
    (hopts : req.rag = some opts) (hrag : moment.rag = some rag) (hm : lastUser req = some m) :
    (runChat cfg moment ws req X E C call).query = some m.content := by
  have hquery := @query_ground X moment ws req opts rag m hrag hm
  rw [runChat, hadmitted]
  dsimp only
  rw [hopts]
  dsimp only
  split
  · exact hquery
  · split
    · exact hquery
    · exact hquery

/-- A request that gets to no retrieval, and asks for one, is turned down. -/
theorem ground_of_not_retrieves {opts : ChatRagOptions}
    (h : moment.rag = none ∨ lastUser req = none) :
    ∃ e, ground moment ws req X opts = ⟨[], none, .error e⟩ := by
  rw [ground]
  cases hrag : moment.rag with
  | none => exact ⟨_, rfl⟩
  | some rag =>
      rcases h with hnone | hnone
      · rw [hrag] at hnone
        cases hnone
      · rw [hnone]
        exact ⟨_, rfl⟩

/-- A request that asks for a retrieval it does not get to stops before the engine. -/
theorem runChat_of_not_retrieves {opts : ChatRagOptions} {modelId : ModelId}
    {manifest : Store.ModelManifest}
    (hadmitted : admission cfg moment ws req = .ok (modelId, manifest))
    (hopts : req.rag = some opts) (h : moment.rag = none ∨ lastUser req = none) :
    ∃ e, runChat cfg moment ws req X E C call = .refused e := by
  obtain ⟨e, he⟩ := @ground_of_not_retrieves X moment ws req opts h
  refine ⟨e, ?_⟩
  rw [runChat, hadmitted]
  dsimp only
  rw [hopts]
  dsimp only
  rw [he]
  rfl

theorem runChat_of_no_rag {modelId : ModelId} {manifest : Store.ModelManifest}
    (hadmitted : admission cfg moment ws req = .ok (modelId, manifest)) (hopts : req.rag = none) :
    runChat cfg moment ws req X E C call =
      complete cfg moment req X E C call [] none
        (chatOf cfg ws req C call modelId manifest none []) none := by
  rw [runChat, hadmitted]
  dsimp only
  rw [hopts]

theorem sealed_of_refused {e e' : ApiError}
    (h : runChat cfg moment ws req X E C call = .refused e)
    (h' : runChat cfg.withoutKey moment ws (req.withMessages plain) X E C call = .refused e') :
    Sealed X E C cfg moment ws req call key plain := by
  rw [Sealed, h, h']
  exact ⟨rfl, rfl, rfl, fun _ h => absurd h List.not_mem_nil⟩

theorem not_sealed_of_query
    (h : (runChat cfg moment ws req X E C call).query ≠
      (runChat cfg.withoutKey moment ws (req.withMessages plain) X E C call).query) :
    ¬ Sealed X E C cfg moment ws req call key plain := by
  rintro ⟨hquery, -⟩
  exact h hquery

/-- Without a retrieval all that is left is what is shown of the engine's output. -/
theorem sealed_iff_of_no_rag {modelId : ModelId} {manifest : Store.ModelManifest}
    (hkey : cfg.settings.teeKey = some key) (henc : Encrypts C key req.messages plain)
    (hadmitted : admission cfg moment ws req = .ok (modelId, manifest)) (hopts : req.rag = none) :
    Sealed X E C cfg moment ws req call key plain ↔
      OutputSeals C cfg moment ws req call key plain := by
  -- The daemon without the key, asked in plain text, goes the same way to the same chat.
  have hadmitted' : admission cfg.withoutKey moment ws (req.withMessages plain) =
      .ok (modelId, manifest) := (admission_withMessages henc).trans hadmitted
  have hopts' : (req.withMessages plain).rag = none := hopts
  have hchat : chatOf cfg ws req C call modelId manifest none [] =
      chatOf cfg.withoutKey ws (req.withMessages plain) C call modelId manifest none [] :=
    chatOf_of_encrypts hkey henc modelId manifest
  have hrun : runChat cfg moment ws req X E C call =
      complete cfg moment req X E C call [] none
        (chatOf cfg ws req C call modelId manifest none []) none :=
    runChat_of_no_rag hadmitted hopts
  have hrun' : runChat cfg.withoutKey moment ws (req.withMessages plain) X E C call =
      complete cfg.withoutKey moment (req.withMessages plain) X E C call [] none
        (chatOf cfg.withoutKey ws (req.withMessages plain) C call modelId manifest none [])
        none :=
    runChat_of_no_rag hadmitted' hopts'
  -- Both runs complete the same chat, so only what is shown can differ.
  rw [hchat] at hrun
  have hshown := @forall_shown_complete X E C cfg moment req call key hkey
    (chatOf cfg.withoutKey ws (req.withMessages plain) C call modelId manifest none [])
  rw [Sealed, hrun, hrun']
  constructor
  · rintro ⟨-, -, -, h⟩ id' manifest' hadmitted'' -
    rw [hadmitted] at hadmitted''
    cases hadmitted''
    exact hshown.mp h
  · intro h
    refine ⟨rfl, ?_, rfl, hshown.mpr (h modelId manifest hadmitted hopts)⟩
    rw [complete, complete]
    dsimp only
    rw [answer_fst_withoutKey]

/-- **Encrypted requests.**  They are read as in the clear and nothing is shown in the clear
    exactly when they get to no retrieval and the engine's output is encrypted or has no
    text. -/
theorem sealed_iff {hexKey : String} (hset : cfg.settings.teeEncryptKey = some hexKey)
    (hhex : teeKeyFromHex hexKey = .ok key) (henc : Encrypts C key req.messages plain) :
    Sealed X E C cfg moment ws req call key plain ↔
      ¬ Retrieves cfg moment ws req ∧ OutputSeals C cfg moment ws req call key plain := by
  have hkey := teeKey_of_settings hset hhex
  have hadmission := @admission_withMessages C cfg moment ws req key plain henc
  -- Three ends come before any difference: turned down, no retrieval, no last user message.
  cases hadmitted : admission cfg moment ws req with
  | error e =>
      rw [hadmitted] at hadmission
      have hrefused : runChat cfg moment ws req X E C call = .refused e := by
        rw [runChat, hadmitted]
      have hrefused' : runChat cfg.withoutKey moment ws (req.withMessages plain) X E C call =
          .refused e := by
        rw [runChat, hadmission]
      refine iff_of_true (sealed_of_refused hrefused hrefused') ⟨?_, ?_⟩
      · rintro ⟨modelId, manifest, opts, rag, m, h, -⟩
        rw [hadmitted] at h
        cases h
      · intro modelId manifest h
        rw [hadmitted] at h
        cases h
  | ok admitted =>
      obtain ⟨modelId, manifest⟩ := admitted
      cases hopts : req.rag with
      | none =>
          have hnot : ¬ Retrieves cfg moment ws req := by
            rintro ⟨-, -, opts, -, -, -, hsome, -⟩
            rw [hopts] at hsome
            cases hsome
          rw [sealed_iff_of_no_rag hkey henc hadmitted hopts, and_iff_right hnot]
      | some opts =>
          have hadmitted' : admission cfg.withoutKey moment ws (req.withMessages plain) =
              .ok (modelId, manifest) := hadmission.trans hadmitted
          have hopts' : (req.withMessages plain).rag = some opts := hopts
          have houtput : OutputSeals C cfg moment ws req call key plain := by
            intro _ _ _ hnone
            rw [hopts] at hnone
            cases hnone
          rw [and_iff_left houtput]
          cases hrag : moment.rag with
          | none =>
              obtain ⟨e, he⟩ := runChat_of_not_retrieves hadmitted hopts (.inl hrag)
              obtain ⟨e', he'⟩ := runChat_of_not_retrieves hadmitted' hopts' (.inl hrag)
              refine iff_of_true (sealed_of_refused he he') ?_
              rintro ⟨-, -, -, rag, -, -, -, hsome, -⟩
              rw [hrag] at hsome
              cases hsome
          | some rag =>
              -- The query is the last user message; decrypted it is not what was sent.
              rcases lastUser_withMessages henc with ⟨hm, hp⟩ | ⟨m, p, hm, hp, hne⟩
              · obtain ⟨e, he⟩ := runChat_of_not_retrieves hadmitted hopts (.inr hm)
                obtain ⟨e', he'⟩ := runChat_of_not_retrieves hadmitted' hopts' (.inr hp)
                refine iff_of_true (sealed_of_refused he he') ?_
                rintro ⟨-, -, -, -, m, -, -, -, hsome⟩
                rw [hm] at hsome
                cases hsome
              · refine iff_of_false (not_sealed_of_query ?_) ?_
                · rw [query_runChat hadmitted hopts hrag hm,
                    query_runChat hadmitted' hopts' hrag hp]
                  exact fun h => hne (Option.some.inj h)
                · exact not_not_intro
                    ⟨modelId, manifest, opts, rag, m, hadmitted, hopts, hrag, hm⟩

/-- A server with the zero key. -/
def keyedSettings : ChatSettings :=
  { plainSettings with teeEncryptKey := some (String.ofList (List.replicate 64 '0')) }

theorem teeKeyFromHex_zero :
    teeKeyFromHex (String.ofList (List.replicate 64 '0')) = .ok zeroKey := by
  decide +kernel

theorem encrypts_hi : Encrypts .sample zeroKey [⟨"user", hiEncrypted⟩] [⟨"user", "hi"⟩] :=
  .cons ⟨rfl, nonceOf 0, encryptStr_hi⟩ .nil

theorem sealed_iff_hi :
    Sealed .sample (.sample []) .sample (tinyConfig keyedSettings "/tmp/other.gguf") calmMoment
      defaultWorkspace (tinyRequest hiEncrypted false) tinyCall zeroKey [⟨"user", "hi"⟩] := by
  have henc : Encrypts .sample zeroKey (tinyRequest hiEncrypted false).messages
      [⟨"user", "hi"⟩] := encrypts_hi
  refine (sealed_iff rfl teeKeyFromHex_zero henc).mpr ⟨?_, ?_⟩
  · rintro ⟨-, -, opts, -, -, -, hsome, -⟩
    cases hsome
  · intro modelId manifest _ _
    refine ⟨fun h => Bool.noConfusion h, ?_⟩
    rintro _ resp hresp
    obtain rfl := Except.ok.inj hresp
    exact .inr ⟨_, encryptStr_ok⟩

/-- A stream has the engine's output in the clear. -/
theorem not_sealed_stream :
    ¬ Sealed .sample (.sample []) .sample (tinyConfig keyedSettings "/tmp/other.gguf") calmMoment
      defaultWorkspace (tinyRequest hiEncrypted true) tinyCall zeroKey [⟨"user", "hi"⟩] := by
  have henc : Encrypts .sample zeroKey (tinyRequest hiEncrypted true).messages
      [⟨"user", "hi"⟩] := encrypts_hi
  have hkey : (tinyConfig keyedSettings "/tmp/other.gguf").settings.teeKey = some zeroKey :=
    teeKey_of_settings rfl teeKeyFromHex_zero
  have hadmitted : admission (tinyConfig keyedSettings "/tmp/other.gguf") calmMoment
      defaultWorkspace (tinyRequest hiEncrypted true) =
      .ok (tinyId, tinyManifest "/tmp/other.gguf") := rfl
  intro hsealed
  have houtput := (sealed_iff_of_no_rag hkey henc hadmitted rfl).mp hsealed
  have htext := (houtput tinyId (tinyManifest "/tmp/other.gguf") hadmitted rfl).1 rfl
    ⟨"ok", false⟩ List.mem_cons_self rfl
  revert htext
  decide

end Maranode.Api
