/-
  Maranode.Api.ChatModel

  The model file a chat request has the engine open.

  `blob_path_verified` takes the path from the digest, after the file there had it.  The
  handler takes the path from the manifest's column, which anyone who can write the table
  can set, and has nothing verified.
-/
import Maranode.Api.ChatHandler

namespace Maranode.Api

open Lib Common Inference

variable (X : External) (E : Ed25519) (C : TeeCipher) (cfg : ChatConfig) (moment : ChatMoment)
  (ws : Store.Workspace) (req : ChatCompletionRequest) (call : ChatCall)

/-! ## Requests that get to the engine -/

/-- The retrieval goes through: there is one, a user's message, chunks for it, and no
    violation that blocks. -/
def Grounds (opts : ChatRagOptions) (hits : List SourceChunk) (context : Option String) : Prop :=
  ∃ rag m, moment.rag = some rag ∧ lastUser req = some m ∧
    rag.retrieve opts.collection m.content opts.topK = .ok hits ∧
    (∀ v ∈ policyViolations moment.policy ws.slug opts.auditCollection, v.block = false) ∧
    context = rag.buildContextPrompt hits

/-- The request is admitted, and its retrieval, if it asks for one, goes through with a
    context where one is required. -/
def Reaches (modelId : ModelId) (manifest : Store.ModelManifest) : Prop :=
  admission cfg moment ws req = .ok (modelId, manifest) ∧
    ∀ opts, req.rag = some opts → ∃ hits context, Grounds moment ws req opts hits context ∧
      (context.isSome = true ∨ opts.requireContext = false)

variable {X E C cfg moment ws req call} {modelId : ModelId} {manifest : Store.ModelManifest}

theorem enforcePolicy_eq_none {slug : String} {vs : List ViolationInfo} :
    (enforcePolicy slug vs).2 = none ↔ ∀ v ∈ vs, v.block = false := by
  induction vs with
  | nil => exact iff_of_true rfl fun _ h => absurd h List.not_mem_nil
  | cons v vs ih =>
      rw [List.forall_mem_cons, enforcePolicy]
      cases v.block with
      | true => exact iff_of_false nofun fun h => absurd h.1 nofun
      | false =>
          rw [if_neg Bool.false_ne_true, ← ih]
          exact ⟨fun h => ⟨rfl, h⟩, And.right⟩

theorem ground_eq_ok {opts : ChatRagOptions} {hits : List SourceChunk} {context : Option String} :
    (ground moment ws req X opts).result = .ok (hits, context) ↔
      Grounds moment ws req opts hits context := by
  rw [ground, Grounds]
  -- The order is that of `run`: the engine, the last user message, the retrieval, the labels.
  cases moment.rag with
  | none =>
      refine iff_of_false (fun h => (by cases h)) ?_
      rintro ⟨rag, m, h, -⟩
      cases h
  | some rag =>
      cases lastUser req with
      | none =>
          refine iff_of_false (fun h => (by cases h)) ?_
          rintro ⟨rag', m, -, h, -⟩
          cases h
      | some m =>
          dsimp only
          cases hhits : rag.retrieve opts.collection m.content opts.topK with
          | error e =>
              refine iff_of_false (fun h => (by cases h)) ?_
              rintro ⟨rag', m', hrag, hm, h, -⟩
              rw [← Option.some.inj hrag, ← Option.some.inj hm, hhits] at h
              cases h
          | ok found =>
              dsimp only
              -- A label that blocks turns the request down after the retrieval.
              rw [← enforcePolicy_eq_none]
              cases (enforcePolicy ws.slug
                  (policyViolations moment.policy ws.slug opts.auditCollection)).2 with
              | some e =>
                  refine iff_of_false (fun h => (by cases h)) ?_
                  rintro ⟨rag', m', -, -, -, h, -⟩
                  cases h
              | none =>
                  constructor
                  · intro h
                    obtain ⟨rfl, rfl⟩ := Prod.mk.inj (Except.ok.inj h)
                    exact ⟨rag, m, rfl, rfl, hhits, rfl, rfl⟩
                  · rintro ⟨rag', m', hrag, hm, h, -, rfl⟩
                    rw [← Option.some.inj hrag, ← Option.some.inj hm, hhits] at h
                    rw [Except.ok.inj h, Option.some.inj hrag]

/-- What is handed to the engine is of the manifest that was looked up. -/
theorem handed_eq_some {r : InferenceRequest}
    (h : (runChat cfg moment ws req X E C call).handed = some r) :
    ∃ modelId manifest, Reaches cfg moment ws req modelId manifest ∧ r.model = modelId ∧
      r.modelPath = manifest.blobPath := by
  rw [runChat] at h
  -- Everything up to the call of the engine may end the request.
  cases hadmitted : admission cfg moment ws req with
  | error e =>
      rw [hadmitted] at h
      cases h
  | ok admitted =>
      obtain ⟨modelId, manifest⟩ := admitted
      rw [hadmitted] at h
      dsimp only at h
      refine ⟨modelId, manifest, ?_⟩
      cases hrag : req.rag with
      | none =>
          rw [hrag] at h
          dsimp only at h
          rw [← Option.some.inj h]
          refine ⟨⟨hadmitted, fun opts hopts => ?_⟩, rfl, rfl⟩
          rw [hrag] at hopts
          cases hopts
      | some opts =>
          rw [hrag] at h
          dsimp only at h
          cases hground : (ground moment ws req X opts).result with
          | error e =>
              rw [hground] at h
              cases h
          | ok found =>
              obtain ⟨hits, context⟩ := found
              rw [hground] at h
              dsimp only at h
              split at h
              -- `require_context` turns down a request for which nothing was found.
              · cases h
              · next hcontext =>
                  rw [← Option.some.inj h]
                  refine ⟨⟨hadmitted, fun opts' hopts => ?_⟩, rfl, rfl⟩
                  rw [hrag] at hopts
                  rw [← Option.some.inj hopts]
                  refine ⟨hits, context, ground_eq_ok.mp hground, ?_⟩
                  cases context with
                  | none =>
                      right
                      cases hrequired : opts.requireContext with
                      | false => rfl
                      | true =>
                          rw [hrequired] at hcontext
                          exact absurd rfl hcontext
                  | some prompt => exact .inl rfl

theorem handed_of_reaches (h : Reaches cfg moment ws req modelId manifest) :
    ∃ r, (runChat cfg moment ws req X E C call).handed = some r := by
  obtain ⟨hadmitted, hgrounded⟩ := h
  rw [runChat, hadmitted]
  dsimp only
  cases hrag : req.rag with
  | none => exact ⟨_, rfl⟩
  | some opts =>
      obtain ⟨hits, context, hground, hcontext⟩ := hgrounded opts hrag
      dsimp only
      rw [ground_eq_ok.mpr hground]
      dsimp only
      have hgo : (context.isNone && opts.requireContext) = false := by
        rcases hcontext with hsome | hfree
        · rw [Option.isNone_eq_false_iff.mpr hsome, Bool.false_and]
        · rw [hfree, Bool.and_false]
      rw [hgo, if_neg Bool.false_ne_true]
      exact ⟨_, rfl⟩

theorem checked_runChat : (runChat cfg moment ws req X E C call).checked = [] := by
  rw [runChat]
  split
  · rfl
  · split
    · rfl
    · dsimp only
      split
      · rfl
      · split
        · rfl
        · rfl

/-- The manifest of an admitted request is the row of its model. -/
theorem row_of_admission (h : admission cfg moment ws req = .ok (modelId, manifest)) :
    cfg.store.db modelId = some manifest := by
  rw [admission] at h
  split at h
  · cases h
  · next modelId' _ =>
      split at h
      · cases h
      · cases h
      · next manifest' hget =>
          split at h
          · cases h
          · obtain ⟨rfl, rfl⟩ := Prod.mk.inj (Except.ok.inj h)
            exact (Store.get_eq_some.mp hget).2

/-! ## The file of the digest -/

variable (X E C cfg moment ws req call)

/-- The engine is handed the path of the digest, and the file there was checked to have it. -/
def ModelVerified : Prop :=
  ∀ r, (runChat cfg moment ws req X E C call).handed = some r →
    ∃ manifest, cfg.store.db r.model = some manifest ∧
      r.modelPath.toList = Store.blobFile cfg.store.dataDir manifest.sha256 ∧
      (r.modelPath.toList, manifest.sha256) ∈ (runChat cfg moment ws req X E C call).checked

/-- The path handed to the engine is that of the digest, and the file there has it at that
    moment; what an engine that has the path in its cache runs is what it loaded then. -/
def ModelIntact : Prop :=
  ∀ r, (runChat cfg moment ws req X E C call).handed = some r →
    ∃ manifest, cfg.store.db r.model = some manifest ∧
      r.modelPath.toList = Store.blobFile cfg.store.dataDir manifest.sha256 ∧
      cfg.store.Intact X r.modelPath.toList manifest.sha256

/-- The manifest is as it was made, and the file it names has its digest. -/
def Untampered (manifest : Store.ModelManifest) : Prop :=
  manifest.blobPath.toList = Store.blobFile cfg.store.dataDir manifest.sha256 ∧
    cfg.store.Intact X manifest.blobPath.toList manifest.sha256

theorem modelVerified_iff_not_reaches : ModelVerified X E C cfg moment ws req call ↔
    ¬ ∃ modelId manifest, Reaches cfg moment ws req modelId manifest := by
  constructor
  · rintro hverified ⟨modelId, manifest, hreaches⟩
    obtain ⟨r, hr⟩ := handed_of_reaches (X := X) (E := E) (C := C) hreaches
    obtain ⟨manifest', -, -, hchecked⟩ := hverified r hr
    rw [checked_runChat] at hchecked
    exact absurd hchecked List.not_mem_nil
  · intro hnone r hr
    obtain ⟨modelId, manifest, hreaches, -⟩ := handed_eq_some hr
    exact absurd ⟨modelId, manifest, hreaches⟩ hnone

theorem modelIntact_iff : ModelIntact X E C cfg moment ws req call ↔
    ∀ modelId manifest, Reaches cfg moment ws req modelId manifest →
      Untampered X cfg manifest := by
  constructor
  · intro hintact modelId manifest hreaches
    obtain ⟨r, hr⟩ := handed_of_reaches (X := X) (E := E) (C := C) hreaches
    obtain ⟨modelId', manifest', hreaches', hmodel, hpath⟩ := handed_eq_some hr
    have hsame := hreaches.1
    rw [hreaches'.1] at hsame
    obtain ⟨rfl, rfl⟩ := Prod.mk.inj (Except.ok.inj hsame)
    obtain ⟨row, hrow, hblob, hfile⟩ := hintact r hr
    rw [hmodel, row_of_admission hreaches'.1] at hrow
    obtain rfl := Option.some.inj hrow
    rw [hpath] at hblob hfile
    exact ⟨hblob, hfile⟩
  · intro huntampered r hr
    obtain ⟨modelId, manifest, hreaches, hmodel, hpath⟩ := handed_eq_some hr
    obtain ⟨hblob, hfile⟩ := huntampered modelId manifest hreaches
    refine ⟨manifest, ?_, ?_, ?_⟩
    · rw [hmodel, row_of_admission hreaches.1]
    · rw [hpath, hblob]
    · rw [hpath]
      exact hfile

/-- **Model files.**  The model is verified only for requests that never get to the engine;
    the others hand it the path of an intact file as long as nobody changed table or file. -/
theorem modelVerified_iff :
    (ModelVerified X E C cfg moment ws req call ↔
      ¬ ∃ modelId manifest, Reaches cfg moment ws req modelId manifest) ∧
    (ModelIntact X E C cfg moment ws req call ↔
      ∀ modelId manifest, Reaches cfg moment ws req modelId manifest →
        Untampered X cfg manifest) :=
  ⟨modelVerified_iff_not_reaches .., modelIntact_iff ..⟩

/-- A column that was changed is where the engine is sent. -/
theorem not_modelVerified_tampered :
    ¬ ModelVerified .sample (.sample []) .sample (tinyConfig plainSettings "/tmp/other.gguf")
        calmMoment defaultWorkspace (tinyRequest "hi" false) tinyCall ∧
      ¬ ModelIntact .sample (.sample []) .sample (tinyConfig plainSettings "/tmp/other.gguf")
        calmMoment defaultWorkspace (tinyRequest "hi" false) tinyCall := by
  have hreaches : Reaches (tinyConfig plainSettings "/tmp/other.gguf") calmMoment defaultWorkspace
      (tinyRequest "hi" false) tinyId (tinyManifest "/tmp/other.gguf") :=
    ⟨rfl, fun _ h => nomatch h⟩
  constructor
  · intro hverified
    exact (modelVerified_iff_not_reaches ..).mp hverified ⟨_, _, hreaches⟩
  · intro hintact
    have hpath := ((modelIntact_iff ..).mp hintact _ _ hreaches).1
    revert hpath
    decide

end Maranode.Api
