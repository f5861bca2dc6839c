/-
  Maranode.Api.RagLabels

  What the labels of the policy keep from whom: the texts of a protected collection from
  the responses, and documents out of it.

  That a response shows nothing of a collection is said of two runs: whatever its texts
  and summaries are, the response is the same.  The texts a request brings with it are no
  texts of the collection before the request.
-/
import Maranode.Api.RagRoutes

namespace Maranode.Api

open Lib Common Rag

variable (X : External) (G : Store.Aead) (F : Floats) (R : Readers)

/-! ## What is kept from whom -/

namespace RagState

def fill (c t : String) (s : RagState) : RagState := { s with rag := s.rag.map (.fill c t) }

/-- The same but for the texts and summaries of a collection. -/
def Agree (c : String) (s s' : RagState) : Prop := s.fill c "" = s'.fill c ""

/-- The clearance of the caller's workspace, `Public` without one. -/
def clearance (s : RagState) (r : RagRequest) : DataLabel :=
  match s.workspaceCtx X r with
  | .ok slug => s.policy.workspaceClearance slug
  | .error _ => .isPublic

/-- The collection is labelled above the caller's clearance, and the label blocks. -/
def Protected (s : RagState) (r : RagRequest) (c : String) : Prop :=
  ∃ label, s.policy.collections.lookup c = some ⟨label, true⟩ ∧ s.clearance X r < label

/-- The response shows nothing of the collection's texts and summaries, whatever becomes of
    a text that is summarized. -/
def Confined (s : RagState) (r : RagRequest) (c : String) : Prop :=
  ∀ s', s.Agree c s' → ∀ summarize,
    (s'.serve X G F R summarize r).2 = (s.serve X G F R summarize r).2

/-- The collection is labelled above `Public`, and the label blocks. -/
def Labelled (s : RagState) (c : String) : Prop :=
  ∃ label, s.policy.collections.lookup c = some ⟨label, true⟩ ∧ .isPublic < label

/-- The documents and chunks of a collection. -/
def contents (s : RagState) (c : String) : Option (List DocumentRow × List StoredChunk) :=
  s.rag.map fun rag => rag.store.conn.inCollection c

end RagState

/-! ## Where texts show, and where documents get in -/

/-- The handlers that look at no label find something of the collection: a search a chunk
    that matches, the document routes a summary, and the one that summarizes again a
    chunk. -/
def showsTexts (rag : RagEngine) (c : String) (mayIngest : Bool) : RagCall → Prop
  | .search req =>
      req.collection.getD rag.config.defaultCollection = c ∧
        (Text.trim req.query.toList).isEmpty = false ∧ rag.Finds F c req.query
  | .getDocument id | .getDocumentSummary id =>
      ∃ d, rag.store.conn.documents.find? (·.id == id) = some d ∧ d.collection = c ∧
        d.summary ≠ none
  | .listDocuments name =>
      name = c ∧ ∃ d ∈ rag.store.conn.documents, d.collection = c ∧ d.summary ≠ none
  | .resummaryDocument id _ _ =>
      mayIngest = true ∧ (∃ d, rag.store.conn.documents.find? (·.id == id) = some d ∧
        d.collection = c) ∧ rag.store.chunksOfDocument id ≠ []
  | _ => False

/-- A file of an upload that can be read, embedded and stored. -/
def acceptsFile (rag : RagEngine) (env : IngestEnv) (c source : String) (file : FileEntry) : Prop :=
  ∃ doc, R.extract file.bytes file.filename = .ok doc ∧ rag.Accepts X G F R env c source doc

/-- One of the files of a batch is accepted when its turn comes. -/
def acceptsSome (summarize : Summarizer) (env : Nat → IngestEnv) (c : String) (rag : RagEngine)
    (i : Nat) : List FileEntry → Prop
  | [] => False
  | file :: files =>
      if file.bytes.isEmpty then acceptsSome summarize env c rag (i + 1) files
      else
        acceptsFile X G F R rag (env i) c file.filename file ∨
          acceptsSome summarize env c (rag.ingestBytes X G F R (env i) c file.filename file.bytes
            file.filename (some summarize)).1 (i + 1) files

namespace RagState

/-- Whether the caller may ingest at all. -/
def mayIngest (s : RagState) (r : RagRequest) : Bool :=
  (s.checkIngestPermission r.authorization).isOk

def Shows (s : RagState) (r : RagRequest) (c : String) : Prop :=
  ∃ rag, s.rag = some rag ∧ showsTexts F rag c (s.mayIngest r) r.call

/-- An upload that names the collection, and goes through. -/
def LetsIn (summarize : Summarizer) (s : RagState) (r : RagRequest) (c : String) :
    IngestCall → Prop
  | .ingestDocument _ _ => False
  | .uploadDocument body env =>
      s.mayIngest r = true ∧ ∃ rag u file source, s.rag = some rag ∧ readUpload body = .ok u ∧
        u.file = .ok (file, source) ∧ u.collection.getD rag.config.defaultCollection = c ∧
        acceptsFile X G F R rag env c source file
  | .uploadDocumentsBatch body env =>
      s.mayIngest r = true ∧ ∃ rag b, s.rag = some rag ∧ readBatch body = .ok b ∧
        b.collection.getD rag.config.defaultCollection = c ∧
        acceptsSome X G F R summarize env c rag 0 b.files

end RagState

/-! ## Filling a collection -/

variable {X G F R} {s s' : RagState} {r : RagRequest} {c t : String} {rag : RagEngine}

/-- A document of the filled store, and the one it was. -/
theorem exists_find_fill_iff {P : DocumentRow → Prop} (hP : ∀ d, P (d.fill c t) ↔ P d)
    (id : String) :
    (∃ d, (rag.fill c t).store.conn.documents.find? (·.id == id) = some d ∧ P d) ↔
      ∃ d, rag.store.conn.documents.find? (·.id == id) = some d ∧ P d := by
  rw [RagEngine.fill_store, VectorStore.documents_find_fill]
  constructor
  · rintro ⟨d', hd', hPd⟩
    obtain ⟨d, hd, rfl⟩ := Option.map_eq_some_iff.mp hd'
    exact ⟨d, hd, (hP d).mp hPd⟩
  · rintro ⟨d, hd, hPd⟩
    exact ⟨_, Option.map_eq_some_iff.mpr ⟨d, hd, rfl⟩, (hP d).mpr hPd⟩

theorem exists_mem_fill_iff {P : DocumentRow → Prop} (hP : ∀ d, P (d.fill c t) ↔ P d) :
    (∃ d ∈ (rag.fill c t).store.conn.documents, P d) ↔
      ∃ d ∈ rag.store.conn.documents, P d := by
  constructor
  · rintro ⟨d', hd', hPd⟩
    obtain ⟨d, hd, rfl⟩ := List.mem_map.mp hd'
    exact ⟨d, hd, (hP d).mp hPd⟩
  · rintro ⟨d, hd, hPd⟩
    exact ⟨_, List.mem_map_of_mem hd, (hP d).mpr hPd⟩

/-- What shows does not depend on what the texts are. -/
theorem showsTexts_fill_iff {mayIngest : Bool} {call : RagCall} :
    showsTexts F (rag.fill c t) c mayIngest call ↔ showsTexts F rag c mayIngest call := by
  have hcol : ∀ d : DocumentRow, (d.fill c t).collection = c ↔ d.collection = c := fun d => by
    rw [DocumentRow.fill_collection]
  have hsummary : ∀ d : DocumentRow,
      ((d.fill c t).collection = c ∧ (d.fill c t).summary ≠ none) ↔
        (d.collection = c ∧ d.summary ≠ none) :=
    fun d => and_congr (hcol d) DocumentRow.fill_summary_eq_none.not
  cases call with
  | search req =>
      exact and_congr_right fun _ => and_congr_right fun _ => RagEngine.finds_fill_iff
  | getDocument id => exact exists_find_fill_iff hsummary id
  | getDocumentSummary id => exact exists_find_fill_iff hsummary id
  | listDocuments name => exact and_congr_right fun _ => exists_mem_fill_iff hsummary
  | resummaryDocument id nonce refused =>
      refine and_congr_right fun _ => and_congr (exists_find_fill_iff hcol id) ?_
      rw [RagEngine.fill_store, VectorStore.chunksOfDocument_fill]
      exact List.map_eq_nil_iff.not
  | ingest call => rfl
  | extractDocument body => rfl
  | listCollections => rfl
  | deleteCollection name => rfl
  | deleteDocument id => rfl
  | chat req => rfl

namespace RagState

theorem fill_fill (t' : String) (s : RagState) : (s.fill c t).fill c t' = s.fill c t' := by
  have hrag : (s.rag.map (.fill c t)).map (.fill c t') = s.rag.map (RagEngine.fill c t') := by
    rw [Option.map_map]
    congr 1
    funext rag
    exact rag.fill_fill t'
  exact congrArg (fun rag => { s with rag }) hrag

theorem agree_fill (t : String) (s : RagState) : s.Agree c (s.fill c t) := (s.fill_fill "").symm

theorem fill_rag (hrag : s.rag = some rag) : (s.fill c t).rag = some (rag.fill c t) := by
  show s.rag.map _ = _
  rw [hrag]
  rfl

theorem fill_of_none (hrag : s.rag = none) : s.fill c t = s := by
  have hmap : s.rag.map (.fill c t) = s.rag := by
    rw [hrag]
    rfl
  show { s with rag := s.rag.map (.fill c t) } = s
  rw [hmap]

theorem shows_fill_iff : (s.fill c t).Shows F r c ↔ s.Shows F r c := by
  cases hrag : s.rag with
  | none => rw [fill_of_none hrag]
  | some rag =>
      constructor
      · rintro ⟨rag', hrag', hshows⟩
        obtain rfl := Option.some.inj ((fill_rag hrag).symm.trans hrag')
        exact ⟨rag, hrag, showsTexts_fill_iff.mp hshows⟩
      · rintro ⟨rag', hrag', hshows⟩
        obtain rfl := Option.some.inj (hrag.symm.trans hrag')
        exact ⟨rag.fill c t, fill_rag hrag, showsTexts_fill_iff.mpr hshows⟩

theorem Agree.shows_iff (h : s.Agree c s') : s'.Shows F r c ↔ s.Shows F r c := by
  rw [← shows_fill_iff (t := ""), ← shows_fill_iff (s := s) (t := ""),
    show s.fill c "" = s'.fill c "" from h]

/-! ## Searches and documents -/

theorem requireRag_of_some (hrag : s.rag = some rag) : s.requireRag = .ok rag := by
  rw [requireRag, hrag]

theorem requireRag_fill_of_some (hrag : s.rag = some rag) :
    (s.fill c t).requireRag = .ok (rag.fill c t) := requireRag_of_some (fill_rag hrag)

theorem search_fill_of_not (ht : isEncrypted t = false) {req : SearchRequest}
    (h : ¬ ∃ rag, s.rag = some rag ∧ showsTexts F rag c (s.mayIngest r) (.search req)) :
    ((s.fill c t).search X G F r req).2 = (s.search X G F r req).2 := by
  cases hrag : s.rag with
  | none => rw [fill_of_none hrag]
  | some rag =>
      rw [search, search, requireRag_fill_of_some hrag, requireRag_of_some hrag]
      dsimp only
      by_cases hblank : (Text.trim req.query.toList).isEmpty = true
      · rw [if_pos hblank, if_pos hblank]
      · rw [if_neg hblank, if_neg hblank, RagEngine.fill_config]
        have hsame : (rag.fill c t).retrieve G F
            (req.collection.getD rag.config.defaultCollection) req.query req.topK
            = rag.retrieve G F (req.collection.getD rag.config.defaultCollection) req.query
                req.topK := by
          by_cases hcol : req.collection.getD rag.config.defaultCollection = c
          · refine RagEngine.retrieve_fill_of_not_finds ht (fun hfinds => ?_) req.topK
            exact h ⟨rag, hrag, hcol, Bool.eq_false_of_not_eq_true hblank, hfinds⟩
          · exact RagEngine.retrieve_fill_of_ne hcol req.query req.topK
        rw [hsame]
        cases rag.retrieve G F (req.collection.getD rag.config.defaultCollection) req.query
            req.topK with
        | error e => rfl
        | ok hits => rfl

/-- A search in the collection itself. -/
theorem search_fill_of_shows (ht : isEncrypted t = false) {req : SearchRequest}
    (hrag : s.rag = some rag) (h : showsTexts F rag c (s.mayIngest r) (.search req)) :
    ∃ hits, hits ≠ [] ∧
      rag.retrieve G F c req.query req.topK = .ok hits ∧
      ((s.fill c t).search X G F r req).2
        = .ok (.hits (hits.map fun hit => .of (hit.withText t))) := by
  obtain ⟨hcol, hblank, hfinds⟩ := h
  have hretrieved : ∃ hits, rag.retrieve G F c req.query req.topK = .ok hits ∧ hits ≠ [] :=
    RagEngine.exists_retrieved_iff.mpr hfinds
  obtain ⟨hits, hretrieve, hne⟩ := hretrieved
  refine ⟨hits, hne, hretrieve, ?_⟩
  have hfill := RagEngine.retrieve_fill_self (G := G) (F := F) (c := c) (e := rag) ht req.query
    req.topK
  rw [hretrieve] at hfill
  rw [search, requireRag_fill_of_some hrag]
  dsimp only
  rw [if_neg (Bool.eq_false_iff.mp hblank), RagEngine.fill_config, hcol, hfill]
  show Except.ok (RagReply.hits _) = _
  rw [List.map_map]
  rfl

/-- The document of an id, when it is no document of the collection or has no summary. -/
theorem findDocument_fill_of_not {id : String}
    (h : ¬ ∃ rag, s.rag = some rag ∧
      ∃ d, rag.store.conn.documents.find? (·.id == id) = some d ∧ d.collection = c ∧
        d.summary ≠ none) :
    (s.fill c t).findDocument G id = s.findDocument G id := by
  cases hrag : s.rag with
  | none => rw [fill_of_none hrag]
  | some rag =>
      rw [findDocument, findDocument, requireRag_fill_of_some hrag, requireRag_of_some hrag]
      dsimp only
      rw [RagEngine.fill_store, VectorStore.getDocument_fill, VectorStore.getDocument]
      cases hfind : rag.store.conn.documents.find? (·.id == id) with
      | none => rfl
      | some d =>
          have hinfo : (rag.store.fill c t).documentInfo G (d.fill c t)
              = rag.store.documentInfo G d := by
            by_cases hcol : d.collection = c
            · refine VectorStore.documentInfo_fill_of_none ?_
              by_contra hne
              exact h ⟨rag, hrag, d, hfind, hcol, hne⟩
            · exact VectorStore.documentInfo_fill_of_ne hcol
          rw [Option.map_some, Option.map_some, hinfo]

theorem findDocument_fill_of_shows (ht : isEncrypted t = false) {id : String} {d : DocumentRow}
    {summary : String} (hrag : s.rag = some rag)
    (hfind : rag.store.conn.documents.find? (·.id == id) = some d) (hcol : d.collection = c)
    (hsummary : d.summary = some summary) :
    (s.fill c t).findDocument G id
      = .ok { rag.store.documentInfo G d with summary := some t } := by
  rw [findDocument, requireRag_fill_of_some hrag]
  dsimp only
  rw [RagEngine.fill_store, VectorStore.getDocument_fill, hfind, Option.map_some,
    VectorStore.documentInfo_fill_self hcol ht, hsummary]
  rfl

theorem listDocuments_fill_of_not {name : String}
    (h : ¬ ∃ rag, s.rag = some rag ∧ showsTexts F rag c (s.mayIngest r) (.listDocuments name)) :
    (s.fill c t).listDocuments G name = s.listDocuments G name := by
  cases hrag : s.rag with
  | none => rw [fill_of_none hrag]
  | some rag =>
      rw [listDocuments, listDocuments, requireRag_fill_of_some hrag, requireRag_of_some hrag]
      have hsame : (rag.store.fill c t).listDocuments G name = rag.store.listDocuments G name := by
        rw [VectorStore.listDocuments_fill, VectorStore.listDocuments]
        refine List.map_congr_left fun d hd => ?_
        have hmem := (List.mergeSort_perm _ _).mem_iff.mp hd
        obtain ⟨hdoc, hname⟩ := List.mem_filter.mp hmem
        by_cases hcol : d.collection = c
        · refine VectorStore.documentInfo_fill_of_none ?_
          by_contra hne
          exact h ⟨rag, hrag, (eq_of_beq hname).symm.trans hcol, d, hdoc, hcol, hne⟩
        · exact VectorStore.documentInfo_fill_of_ne hcol
      show Except.ok (RagReply.documents (((rag.store.fill c t).listDocuments G name).map _)) = _
      rw [hsame]
      rfl

/-- Every summary of the collection that was filled is what it was filled with. -/
theorem listDocuments_fill_of_some (hrag : s.rag = some rag) (name : String) :
    (s.fill c t).listDocuments G name
      = .ok (.documents (((rag.store.conn.documents.filter (·.collection == name)).mergeSort
          fun a b => decide (b.ingestedAt ≤ a.ingestedAt)).map
            fun d => .of ((rag.store.fill c t).documentInfo G (d.fill c t)))) := by
  rw [listDocuments, requireRag_fill_of_some hrag]
  show Except.ok (RagReply.documents (((rag.store.fill c t).listDocuments G name).map _)) = _
  rw [VectorStore.listDocuments_fill, List.map_map]
  rfl

/-! ## Summarizing again -/

theorem resummaryDocument_fill_of_not {summarize : Summarizer} {id : String} {nonce : ByteArr 12}
    {refused : Option String}
    (h : ¬ ∃ rag, s.rag = some rag ∧
      showsTexts F rag c (s.mayIngest r) (.resummaryDocument id nonce refused)) :
    ((s.fill c t).resummaryDocument G summarize r id nonce refused).2
      = (s.resummaryDocument G summarize r id nonce refused).2 := by
  cases hrag : s.rag with
  | none => rw [fill_of_none hrag]
  | some rag =>
      have hperm : (s.fill c t).checkIngestPermission r.authorization
          = s.checkIngestPermission r.authorization := rfl
      rw [resummaryDocument, resummaryDocument, requireRag_fill_of_some hrag,
        requireRag_of_some hrag, hperm]
      -- Without the permission both are turned down alike.
      cases hmay : s.checkIngestPermission r.authorization with
      | error e => rfl
      | ok _ =>
          dsimp only
          have hmayIngest : s.mayIngest r = true := by
            rw [mayIngest, hmay]
            rfl
          rw [RagEngine.fill_store, VectorStore.getDocument_fill, VectorStore.getDocument]
          -- The document is found in both: its row does not change.
          cases hfind : rag.store.conn.documents.find? (·.id == id) with
          | none => rfl
          | some d =>
              have hbeq := List.find?_some (p := fun d : DocumentRow => d.id == id) hfind
              have hid : d.id = id := eq_of_beq hbeq
              have hmem := List.mem_of_find?_eq_some hfind
              have htext : (rag.store.fill c t).getDocumentText G id
                  = rag.store.getDocumentText G id := by
                -- A document of the collection has no chunks here, or its texts would show.
                by_cases hcol : d.collection = c
                · have hnil : rag.store.chunksOfDocument id = [] := by
                    by_contra hne
                    exact h ⟨rag, hrag, hmayIngest, ⟨d, hfind, hcol⟩, hne⟩
                  rw [VectorStore.getDocumentText, VectorStore.getDocumentText,
                    VectorStore.chunksOfDocument_fill, hnil]
                  rfl
                · rw [← hid]
                  exact VectorStore.getDocumentText_fill_of_ne hmem hcol
              dsimp only [Option.map_some]
              -- The same text goes to the summarizer.
              rw [htext]
              cases rag.store.getDocumentText G id with
              | error e => rfl
              | ok text =>
                  cases text with
                  | none => rfl
                  | some text =>
                      dsimp only
                      cases summarize text with
                      | error e => rfl
                      | ok summary =>
                          have hset := rag.store.setSummary_fill (G := G) (c := c) (t := t) nonce
                            refused id summary
                          dsimp only
                          generalize (rag.store.fill c t).setSummary G nonce refused id summary = a'
                            at hset
                          generalize rag.store.setSummary G nonce refused id summary = a at hset
                          cases a with
                          -- Writing a summary fails alike in both.
                          | error e =>
                              cases a' with
                              | error e' =>
                                  obtain rfl := Except.error.inj hset
                                  rfl
                              | ok store' => cases hset
                          | ok store =>
                              cases a' with
                              | error e' => cases hset
                              | ok store' => rfl

/-- The summarizer's error is in the response, and the text may be in the error. -/
theorem resummaryDocument_fill_of_shows (ht : isEncrypted t = false) {id : String}
    {nonce : ByteArr 12} {refused : Option String} (hrag : s.rag = some rag)
    (h : showsTexts F rag c (s.mayIngest r) (.resummaryDocument id nonce refused)) :
    ((s.fill c t).resummaryDocument G .error r id nonce refused).2
      = .error (.internal ("\n\n".intercalate
          ((rag.store.chunksOfDocument id).map fun _ => t))) := by
  obtain ⟨hmay, ⟨d, hfind, hcol⟩, hne⟩ := h
  have hbeq := List.find?_some (p := fun d : DocumentRow => d.id == id) hfind
  have hid : d.id = id := eq_of_beq hbeq
  have hmem := List.mem_of_find?_eq_some hfind
  -- All chunks of a document are in its collection.
  have hchunks : ∀ ch ∈ rag.store.chunksOfDocument id, ch.collection = c := by
    intro ch hch
    obtain ⟨hstored, hdoc⟩ := VectorStore.mem_chunksOfDocument.mp hch
    exact (VectorStore.collection_of_documentId hmem hstored (hdoc.trans hid.symm)).trans hcol
  have htext : (rag.store.fill c t).getDocumentText G id
      = .ok (some ("\n\n".intercalate ((rag.store.chunksOfDocument id).map fun _ => t))) := by
    rw [VectorStore.getDocumentText, VectorStore.chunksOfDocument_fill]
    -- The document has chunks, so there is a text.
    have hsome : ((rag.store.chunksOfDocument id).map (StoredChunk.fill c t)).isEmpty ≠ true := by
      rw [ne_eq, List.isEmpty_iff, List.map_eq_nil_iff]
      exact hne
    show (if _ then _ else _) = _
    rw [if_neg hsome, VectorStore.decryptRows_fill hchunks ht]
    rfl
  have hperm : (s.fill c t).checkIngestPermission r.authorization
      = s.checkIngestPermission r.authorization := rfl
  rw [resummaryDocument, requireRag_fill_of_some hrag, hperm]
  rw [mayIngest] at hmay
  cases hcheck : s.checkIngestPermission r.authorization with
  | error e =>
      rw [hcheck] at hmay
      cases hmay
  | ok _ =>
      dsimp only
      rw [RagEngine.fill_store, VectorStore.getDocument_fill, hfind, htext]
      rfl

/-! ## Chat -/

/-- The first violation that blocks is the answer. -/
theorem enforce_snd (s : RagState) (slug : String) (logged : Bool) (vs : List ViolationInfo) :
    (s.enforce slug logged vs).2 = (vs.find? (·.block)).map (blockedError slug) := by
  induction vs generalizing s with
  | nil => rfl
  | cons v vs ih =>
      rw [enforce, List.find?_cons]
      cases hblock : v.block with
      | true => rfl
      | false => exact ih _

/-- A collection above the clearance that blocks is among what is checked, by its name or
    with all. -/
theorem exists_blocking {slug : String} {label : DataLabel} {auditCollection : String}
    (hlabel : s.policy.collections.lookup c = some ⟨label, true⟩)
    (hclear : s.policy.workspaceClearance slug < label)
    (hcol : auditCollection = c ∨ auditCollection = "*") :
    ∃ v, (s.violations slug auditCollection).find? (·.block) = some v := by
  rw [violations]
  by_cases hall : (auditCollection == "*") = true
  · rw [if_pos hall]
    have hentry : (⟨c, ⟨label, true⟩⟩ : Sigma fun _ : String => CollectionPolicy)
        ∈ s.policy.collections.entries := AList.mem_lookup_iff.mp hlabel
    have hmem : (⟨c, label, s.policy.workspaceClearance slug, true⟩ : ViolationInfo)
        ∈ s.policy.checkAllCollections slug :=
      List.mem_map.mpr ⟨_, List.mem_filter.mpr ⟨hentry, decide_eq_true hclear⟩, rfl⟩
    apply Option.isSome_iff_exists.mp
    exact List.find?_isSome.mpr ⟨_, hmem, rfl⟩
  · rw [if_neg hall]
    have hname : auditCollection = c :=
      hcol.resolve_right fun heq => hall (by rw [heq, beq_self_eq_true])
    rw [hname, ClassificationPolicy.checkAccess, hlabel]
    dsimp only
    rw [if_pos hclear]
    exact ⟨_, rfl⟩

theorem retrieveFor_fill_isOk (ht : isEncrypted t = false) (opts : RagOptions) (query : String) :
    (retrieveFor G F (rag.fill c t) opts query).map (fun _ => ())
      = (retrieveFor G F rag opts query).map fun _ => () := by
  rw [retrieveFor, retrieveFor]
  cases opts.collection with
  | some col => exact RagEngine.retrieve_fill_isOk ht col query opts.topK
  | none => exact RagEngine.retrieveAllCollections_fill_isOk query opts.topK

theorem violations_append (s : RagState) (entry : String × AuditEvent) (logged : Bool)
    (slug auditCollection : String) :
    (s.append entry logged).violations slug auditCollection
      = s.violations slug auditCollection := by
  cases logged <;> rfl

/-- What the answer of a retrieval comes down to. -/
theorem chatRetrieval_snd {slug : String} {req : ChatRetrieval} {opts : RagOptions}
    {msg : String × String} (hrag : s.rag = some rag)
    (hmsg : req.messages.reverse.find? (·.1 == "user") = some msg) :
    (s.chatRetrieval X G F r slug req opts).2 =
      match retrieveFor G F rag opts msg.2 with
      | .error e => .error (.internal e)
      | .ok hits =>
          match ((s.violations slug (opts.collection.getD "*")).find? (·.block)).map
              (blockedError slug) with
          | some e => .error e
          | none => (req.rest hits).map .chat := by
  rw [chatRetrieval, hrag, hmsg]
  dsimp only
  cases retrieveFor G F rag opts msg.2 with
  | error e => rfl
  | ok hits =>
      dsimp only
      rw [violations_append, enforce_snd]
      cases ((s.violations slug (opts.collection.getD "*")).find? (·.block)).map
        (blockedError slug) with
      | none => rfl
      | some e => rfl

theorem chatRetrieval_fill (ht : isEncrypted t = false) {slug : String} {label : DataLabel}
    (hlabel : s.policy.collections.lookup c = some ⟨label, true⟩)
    (hclear : s.policy.workspaceClearance slug < label) (req : ChatRetrieval)
    (opts : RagOptions) :
    ((s.fill c t).chatRetrieval X G F r slug req opts).2
      = (s.chatRetrieval X G F r slug req opts).2 := by
  cases hrag : s.rag with
  | none => rw [fill_of_none hrag]
  | some rag =>
      cases hmsg : req.messages.reverse.find? (·.1 == "user") with
      | none =>
          rw [chatRetrieval, chatRetrieval, fill_rag hrag, hrag]
          dsimp only
          rw [hmsg]
      | some msg =>
          -- The policy knows nothing of the texts.
          have hviolations : (s.fill c t).violations slug (opts.collection.getD "*")
              = s.violations slug (opts.collection.getD "*") := rfl
          rw [chatRetrieval_snd (fill_rag hrag) hmsg, chatRetrieval_snd hrag hmsg, hviolations]
          by_cases hcol : opts.collection.getD "*" = c ∨ opts.collection.getD "*" = "*"
          · -- The request is turned down, whatever it has retrieved.
            obtain ⟨v, hv⟩ := exists_blocking hlabel hclear hcol
            rw [hv]
            -- Whether the retrieval goes through does not depend on the texts.
            have hok : (retrieveFor G F (rag.fill c t) opts msg.2).map (fun _ => ())
                = (retrieveFor G F rag opts msg.2).map fun _ => () :=
              retrieveFor_fill_isOk ht opts msg.2
            generalize retrieveFor G F (rag.fill c t) opts msg.2 = a' at hok
            generalize retrieveFor G F rag opts msg.2 = a at hok
            cases a with
            | error e =>
                cases a' with
                | error e' =>
                    obtain rfl := Except.error.inj hok
                    rfl
                | ok hits' => cases hok
            | ok hits =>
                cases a' with
                | error e' => cases hok
                | ok hits' => rfl
          · -- What is retrieved is of another collection.
            obtain ⟨hne, hstar⟩ := not_or.mp hcol
            have hsame : retrieveFor G F (rag.fill c t) opts msg.2
                = retrieveFor G F rag opts msg.2 := by
              rw [retrieveFor, retrieveFor]
              cases hopt : opts.collection with
              | none => exact absurd (by rw [hopt]; rfl) hstar
              | some col =>
                  rw [hopt] at hne
                  exact RagEngine.retrieve_fill_of_ne hne msg.2 opts.topK
            rw [hsame]

theorem chat_fill (ht : isEncrypted t = false) (h : s.Protected X r c) (req : ChatRetrieval) :
    ((s.fill c t).chat X G F r req).2 = (s.chat X G F r req).2 := by
  obtain ⟨label, hlabel, hclear⟩ := h
  rw [clearance] at hclear
  have hctx : (s.fill c t).workspaceCtx X r = s.workspaceCtx X r := rfl
  rw [chat, chat, hctx]
  cases hslug : s.workspaceCtx X r with
  | error e => rfl
  | ok slug =>
      rw [hslug] at hclear
      dsimp only
      cases req.refused with
      | some e => rfl
      | none =>
          cases req.rag with
          | none => rfl
          | some opts => exact chatRetrieval_fill ht hlabel hclear req opts

/-! ## Collections, and what is deleted -/

theorem listCollections_fill (s : RagState) :
    (s.fill c t).listCollections = s.listCollections := by
  cases hrag : s.rag with
  | none => rw [fill_of_none hrag]
  | some rag =>
      rw [listCollections, listCollections, requireRag_fill_of_some hrag, requireRag_of_some hrag]
      show Except.ok (RagReply.collections (rag.store.fill c t).listCollections) = _
      rw [VectorStore.listCollections_fill]
      rfl

theorem deleteCollection_fill (s : RagState) (name : String) :
    ((s.fill c t).deleteCollection X r name).2 = (s.deleteCollection X r name).2 := by
  cases hrag : s.rag with
  | none => rw [fill_of_none hrag]
  | some rag =>
      have hadmin : (s.fill c t).requireRagAdmin X r = s.requireRagAdmin X r := rfl
      rw [deleteCollection, deleteCollection, requireRag_fill_of_some hrag,
        requireRag_of_some hrag, hadmin]
      cases s.requireRagAdmin X r with
      | error e => rfl
      | ok _ => rfl

theorem deleteDocument_fill (s : RagState) (id : String) :
    ((s.fill c t).deleteDocument X r id).2 = (s.deleteDocument X r id).2 := by
  cases hrag : s.rag with
  | none => rw [fill_of_none hrag]
  | some rag =>
      have hadmin : (s.fill c t).requireRagAdmin X r = s.requireRagAdmin X r := rfl
      rw [deleteDocument, deleteDocument, requireRag_fill_of_some hrag,
        requireRag_of_some hrag, hadmin]
      cases s.requireRagAdmin X r with
      | error e => rfl
      | ok _ =>
          have hany : (rag.store.fill c t).conn.documents.any (·.id == id)
              = rag.store.conn.documents.any (·.id == id) := by
            show (rag.store.conn.documents.map _).any _ = _
            rw [List.any_map]
            congr 1
            funext d
            show ((d.fill c t).id == id) = _
            rw [DocumentRow.fill_id]
          show (if (rag.store.fill c t).conn.documents.any (·.id == id) then _ else _)
            = (if rag.store.conn.documents.any (·.id == id) then _ else _)
          rw [hany]

/-! ## Ingests -/

theorem ingestFiles_agree {rag' : RagEngine} (h : rag.Agree c rag') (summarize : Summarizer)
    (env : Nat → IngestEnv) (col : String) (i : Nat) (files : List FileEntry) :
    (ingestFiles X G F R summarize env col rag i files).2
      = (ingestFiles X G F R summarize env col rag' i files).2 := by
  induction files generalizing rag rag' i with
  | nil => rfl
  | cons file files ih =>
      rw [ingestFiles, ingestFiles]
      by_cases hempty : file.bytes.isEmpty = true
      · rw [if_pos hempty, if_pos hempty]
        exact congrArg (BatchIngestItem.failed file.filename "file is empty" :: ·) (ih h (i + 1))
      · rw [if_neg hempty, if_neg hempty]
        obtain ⟨hagree, hresult⟩ := RagEngine.ingestBytes_agree (X := X) (G := G) (F := F) (R := R)
          h (env i) col file.filename file.bytes file.filename (some summarize)
        dsimp only
        rw [hresult, ih hagree (i + 1)]

/-- The answer to an ingest is up to its result. -/
theorem finishIngest_snd {source : String} {refuse : String → ApiError}
    {ingested ingested' : RagEngine × Except String IngestStats} (h : ingested.2 = ingested'.2) :
    (s.finishIngest r source refuse ingested).2
      = (s'.finishIngest r source refuse ingested').2 := by
  rw [finishIngest, finishIngest, h]
  cases ingested'.2 with
  | error e => rfl
  | ok stats => rfl

theorem ingest_fill (s : RagState) (summarize : Summarizer) (call : IngestCall) :
    ((s.fill c t).ingest X G F R summarize r call).2 = (s.ingest X G F R summarize r call).2 := by
  cases hrag : s.rag with
  | none => rw [fill_of_none hrag]
  | some rag =>
      -- Nothing that decides about an ingest reads a text that is stored.
      have hperm : (s.fill c t).checkIngestPermission r.authorization
          = s.checkIngestPermission r.authorization := rfl
      cases call with
      | ingestDocument req env =>
          show ((s.fill c t).ingestDocument X G F R r req env).2
            = (s.ingestDocument X G F R r req env).2
          rw [ingestDocument, ingestDocument, requireRag_fill_of_some hrag,
            requireRag_of_some hrag, hperm]
          cases s.checkIngestPermission r.authorization with
          | error e => rfl
          | ok _ =>
              dsimp only
              by_cases hblank : (Text.trim req.text.toList).isEmpty = true
              · rw [if_pos hblank, if_pos hblank]
              · have hlabel : (s.fill c t).ingestLabel r.authorization
                    (req.collection.getD (rag.fill c t).config.defaultCollection)
                    = s.ingestLabel r.authorization
                        (req.collection.getD rag.config.defaultCollection) := rfl
                rw [if_neg hblank, if_neg hblank, hlabel]
                cases s.ingestLabel r.authorization
                    (req.collection.getD rag.config.defaultCollection) with
                | some label => rfl
                | none =>
                    -- The answer is the same because the two stores agree but for the texts.
                    apply finishIngest_snd
                    exact (RagEngine.ingestDocument_agree (RagEngine.agree_fill t rag) env
                      (req.collection.getD rag.config.defaultCollection) req.source
                      (.fromPlain req.text) none).2.symm
      | uploadDocument body env =>
          show ((s.fill c t).uploadDocument X G F R summarize r body env).2
            = (s.uploadDocument X G F R summarize r body env).2
          rw [uploadDocument, uploadDocument, requireRag_fill_of_some hrag,
            requireRag_of_some hrag, hperm]
          cases s.checkIngestPermission r.authorization with
          | error e => rfl
          | ok _ =>
              dsimp only
              cases readUpload body with
              | error e => rfl
              | ok u =>
                  dsimp only
                  cases u.file with
                  | error e => rfl
                  | ok named =>
                      obtain ⟨file, source⟩ := named
                      apply finishIngest_snd
                      exact (RagEngine.ingestBytes_agree (RagEngine.agree_fill t rag) env
                        (u.collection.getD rag.config.defaultCollection) source file.bytes
                        file.filename (some summarize)).2.symm
      | uploadDocumentsBatch body env =>
          show ((s.fill c t).uploadDocumentsBatch X G F R summarize r body env).2
            = (s.uploadDocumentsBatch X G F R summarize r body env).2
          rw [uploadDocumentsBatch, uploadDocumentsBatch, requireRag_fill_of_some hrag,
            requireRag_of_some hrag, hperm]
          cases s.checkIngestPermission r.authorization with
          | error e => rfl
          | ok _ =>
              dsimp only
              cases readBatch body with
              | error e => rfl
              | ok b =>
                  -- File by file, each with the stores the files before it left.
                  have hitems := ingestFiles_agree (X := X) (G := G) (F := F) (R := R)
                    (RagEngine.agree_fill (c := c) t rag) summarize env
                    (b.collection.getD rag.config.defaultCollection) 0 b.files
                  exact congrArg (fun items => Except.ok (RagReply.batch items)) hitems.symm

/-! ## What a response shows -/

theorem Agree.protected_of (hagree : s.Agree c s') (h : s.Protected X r c) :
    s'.Protected X r c := by
  have hfill : (s.fill c "").Protected X r c := h
  rw [show s.fill c "" = s'.fill c "" from hagree] at hfill
  exact hfill

theorem isEncrypted_empty : isEncrypted "" = false := rfl

/-- A request that shows nothing of a protected collection is answered as if its texts were
    empty. -/
theorem serve_fill_of_not_shows (h : s.Protected X r c) (hshows : ¬ s.Shows F r c)
    (summarize : Summarizer) :
    ((s.fill c "").serve X G F R summarize r).2 = (s.serve X G F R summarize r).2 := by
  obtain ⟨authorization, workspace, now, logged, call⟩ := r
  cases call with
  | ingest call => exact ingest_fill s summarize call
  | extractDocument body => rfl
  | getDocument id => exact congrArg (Except.map _) (findDocument_fill_of_not hshows)
  | getDocumentSummary id => exact congrArg (Except.map _) (findDocument_fill_of_not hshows)
  | resummaryDocument id nonce refused => exact resummaryDocument_fill_of_not hshows
  | listCollections => exact listCollections_fill s
  | deleteCollection name => exact deleteCollection_fill s name
  | listDocuments name => exact listDocuments_fill_of_not hshows
  | deleteDocument id => exact deleteDocument_fill s id
  | search req => exact search_fill_of_not isEncrypted_empty hshows
  | chat req => exact chat_fill isEncrypted_empty h req

/-- Two ways of filling the collection that are answered differently. -/
theorem not_confined_of_fill (summarize : Summarizer) (t t' : String)
    (h : ((s.fill c t).serve X G F R summarize r).2 ≠ ((s.fill c t').serve X G F R summarize r).2) :
    ¬ s.Confined X G F R r c := fun hconfined =>
  h ((hconfined _ (agree_fill t s) summarize).trans (hconfined _ (agree_fill t' s) summarize).symm)

theorem intercalate_ne {α : Type} {rows : List α} (h : rows ≠ []) :
    "\n\n".intercalate (rows.map fun _ => "a") ≠ "\n\n".intercalate (rows.map fun _ => "b") := by
  obtain ⟨row, rest, rfl⟩ := List.exists_cons_of_ne_nil h
  intro heq
  have hhead := congrArg (fun text : String => text.toList.head?) heq
  simp only [String.toList_intercalate, List.map_cons, List.map_map] at hhead
  cases rest with
  | nil => exact absurd (Option.some.inj hhead) (show 'a' ≠ 'b' by decide)
  | cons _ _ => exact absurd (Option.some.inj hhead) (show 'a' ≠ 'b' by decide)

/-- A request that shows something shows what it is. -/
theorem not_confined_of_shows (hshows : s.Shows F r c) : ¬ s.Confined X G F R r c := by
  obtain ⟨authorization, workspace, now, logged, call⟩ := r
  obtain ⟨rag, hrag, h⟩ := hshows
  -- Two fillings of the collection that the reply tells apart.
  have ha : isEncrypted "a" = false := rfl
  have hb : isEncrypted "b" = false := rfl
  cases call with
  | search req =>
      refine not_confined_of_fill .ok "a" "b" fun heq => ?_
      obtain ⟨hits, hne, hretrieve, hsearch⟩ := search_fill_of_shows (X := X) (G := G) ha hrag h
      obtain ⟨hits', -, hretrieve', hsearch'⟩ := search_fill_of_shows (X := X) (G := G) hb hrag h
      obtain rfl := Except.ok.inj (hretrieve.symm.trans hretrieve')
      have hreply := RagReply.hits.inj (Except.ok.inj (hsearch.symm.trans (heq.trans hsearch')))
      obtain ⟨hit, hhit⟩ := List.exists_mem_of_ne_nil _ hne
      -- Some hit is of the collection, and shows the text that was filled in.
      have htext := congrArg SearchHit.text (List.map_inj_left.mp hreply hit hhit)
      exact absurd htext (show "a" ≠ "b" by decide)
  | getDocument id =>
      obtain ⟨d, hfind, hcol, hsummary⟩ := h
      obtain ⟨summary, hsome⟩ := Option.ne_none_iff_exists'.mp hsummary
      refine not_confined_of_fill .ok "a" "b" fun heq => ?_
      have hview : ((s.fill c "a").findDocument G id).map (fun d => RagReply.document (.of d))
          = ((s.fill c "b").findDocument G id).map fun d => RagReply.document (.of d) := heq
      -- A summary that is there is read with the text in its place.
      rw [findDocument_fill_of_shows ha hrag hfind hcol hsome,
        findDocument_fill_of_shows hb hrag hfind hcol hsome] at hview
      have hsame := congrArg DocumentView.summary (RagReply.document.inj (Except.ok.inj hview))
      exact absurd (Option.some.inj hsame) (show "a" ≠ "b" by decide)
  | getDocumentSummary id =>
      obtain ⟨d, hfind, hcol, hsummary⟩ := h
      obtain ⟨summary, hsome⟩ := Option.ne_none_iff_exists'.mp hsummary
      refine not_confined_of_fill .ok "a" "b" fun heq => ?_
      have hview : ((s.fill c "a").findDocument G id).map (fun d => RagReply.summary id d.summary)
          = ((s.fill c "b").findDocument G id).map fun d => RagReply.summary id d.summary := heq
      rw [findDocument_fill_of_shows ha hrag hfind hcol hsome,
        findDocument_fill_of_shows hb hrag hfind hcol hsome] at hview
      have hsame := (RagReply.summary.inj (Except.ok.inj hview)).2
      exact absurd (Option.some.inj hsame) (show "a" ≠ "b" by decide)
  | listDocuments name =>
      obtain ⟨hname, d, hmem, hcol, hsummary⟩ := h
      obtain ⟨summary, hsome⟩ := Option.ne_none_iff_exists'.mp hsummary
      refine not_confined_of_fill .ok "a" "b" fun heq => ?_
      have hviews : (s.fill c "a").listDocuments G name = (s.fill c "b").listDocuments G name := heq
      rw [listDocuments_fill_of_some hrag, listDocuments_fill_of_some hrag] at hviews
      have hlist := RagReply.documents.inj (Except.ok.inj hviews)
      -- The document is in the list, wherever the sort puts it.
      have hlisted : d ∈ (rag.store.conn.documents.filter (·.collection == name)).mergeSort
          fun a b => decide (b.ingestedAt ≤ a.ingestedAt) := by
        refine (List.mergeSort_perm _ _).mem_iff.mpr (List.mem_filter.mpr ⟨hmem, ?_⟩)
        rw [hcol, hname, beq_self_eq_true]
      have hsame := congrArg DocumentView.summary (List.map_inj_left.mp hlist d hlisted)
      rw [VectorStore.documentInfo_fill_self hcol ha, VectorStore.documentInfo_fill_self hcol hb,
        hsome] at hsame
      exact absurd (Option.some.inj hsame) (show "a" ≠ "b" by decide)
  | resummaryDocument id nonce refused =>
      -- A summarizer that fails with the text it was given shows it in the error.
      refine not_confined_of_fill .error "a" "b" fun heq => ?_
      have hreply := (resummaryDocument_fill_of_shows (G := G) ha hrag h).symm.trans
        (heq.trans (resummaryDocument_fill_of_shows (G := G) hb hrag h))
      exact intercalate_ne h.2.2 (congrArg ApiError.message (Except.error.inj hreply))
  -- The other calls show no text of the collection.
  | ingest call => cases h
  | extractDocument body => cases h
  | listCollections => cases h
  | deleteCollection name => cases h
  | deleteDocument id => cases h
  | chat req => cases h

theorem confined_iff (h : s.Protected X r c) : s.Confined X G F R r c ↔ ¬ s.Shows F r c := by
  refine ⟨fun hconfined hshows => not_confined_of_shows hshows hconfined, ?_⟩
  intro hshows s' hagree summarize
  rw [← serve_fill_of_not_shows h hshows summarize,
    ← serve_fill_of_not_shows (hagree.protected_of h) (hagree.shows_iff.not.mpr hshows) summarize,
    show s.fill c "" = s'.fill c "" from hagree]

/-! ## What an ingest route adds -/

section Files

variable {env : IngestEnv} {col source : String} {file : FileEntry} {summarizer : Option Summarizer}

theorem ingestBytes_of_not_accepts (h : ¬ acceptsFile X G F R rag env col source file) :
    (rag.ingestBytes X G F R env col source file.bytes file.filename
        summarizer).1.store.conn.inCollection c
      = rag.store.conn.inCollection c := by
  rw [RagEngine.ingestBytes]
  cases hdoc : R.extract file.bytes file.filename with
  | error e => rfl
  | ok doc => exact RagEngine.inCollection_of_not_accepts fun haccepts => h ⟨doc, hdoc, haccepts⟩

theorem ingestBytes_of_ne (h : col ≠ c) :
    (rag.ingestBytes X G F R env col source file.bytes file.filename
        summarizer).1.store.conn.inCollection c
      = rag.store.conn.inCollection c := by
  rw [RagEngine.ingestBytes]
  cases R.extract file.bytes file.filename with
  | error e => rfl
  | ok doc => exact RagEngine.inCollection_of_ne h

theorem ingestBytes_length (h : acceptsFile X G F R rag env col source file)
    (summarizer : Option Summarizer) :
    ((rag.ingestBytes X G F R env col source file.bytes file.filename
        summarizer).1.store.conn.inCollection col).1.length
      = (rag.store.conn.inCollection col).1.length + 1 := by
  obtain ⟨doc, hdoc, haccepts⟩ := h
  rw [RagEngine.ingestBytes, hdoc]
  exact RagEngine.length_of_accepts haccepts summarizer

theorem length_le_ingestBytes (rag : RagEngine) (env : IngestEnv) (col source : String)
    (file : FileEntry) (summarizer : Option Summarizer) :
    (rag.store.conn.inCollection col).1.length ≤
      ((rag.ingestBytes X G F R env col source file.bytes file.filename
        summarizer).1.store.conn.inCollection col).1.length := by
  by_cases h : acceptsFile X G F R rag env col source file
  · rw [ingestBytes_length h]
    omega
  · rw [ingestBytes_of_not_accepts h]

end Files

section Batches

variable {summarize : Summarizer} {env : Nat → IngestEnv} {col : String}

theorem ingestFiles_of_ne (h : col ≠ c) (rag : RagEngine) (i : Nat) (files : List FileEntry) :
    (ingestFiles X G F R summarize env col rag i files).1.store.conn.inCollection c
      = rag.store.conn.inCollection c := by
  induction files generalizing rag i with
  | nil => rfl
  | cons file files ih =>
      rw [ingestFiles]
      by_cases hempty : file.bytes.isEmpty = true
      · rw [if_pos hempty]
        exact ih rag (i + 1)
      · rw [if_neg hempty]
        exact (ih _ (i + 1)).trans (ingestBytes_of_ne h)

theorem ingestFiles_of_not_accepts {i : Nat} {files : List FileEntry}
    (h : ¬ acceptsSome X G F R summarize env col rag i files) :
    (ingestFiles X G F R summarize env col rag i files).1.store.conn.inCollection c
      = rag.store.conn.inCollection c := by
  induction files generalizing rag i with
  | nil => rfl
  | cons file files ih =>
      rw [acceptsSome] at h
      rw [ingestFiles]
      by_cases hempty : file.bytes.isEmpty = true
      · rw [if_pos hempty] at h ⊢
        exact ih h
      · rw [if_neg hempty] at h ⊢
        obtain ⟨hfile, hrest⟩ := not_or.mp h
        exact (ih hrest).trans (ingestBytes_of_not_accepts hfile)

theorem length_le_ingestFiles (rag : RagEngine) (i : Nat) (files : List FileEntry) :
    (rag.store.conn.inCollection col).1.length ≤
      ((ingestFiles X G F R summarize env col rag i files).1.store.conn.inCollection
        col).1.length := by
  induction files generalizing rag i with
  | nil => rfl
  | cons file files ih =>
      rw [ingestFiles]
      by_cases hempty : file.bytes.isEmpty = true
      · rw [if_pos hempty]
        exact ih rag (i + 1)
      · rw [if_neg hempty]
        exact (length_le_ingestBytes rag (env i) col _ file _).trans (ih _ (i + 1))

theorem ingestFiles_length {i : Nat} {files : List FileEntry}
    (h : acceptsSome X G F R summarize env col rag i files) :
    (rag.store.conn.inCollection col).1.length <
      ((ingestFiles X G F R summarize env col rag i files).1.store.conn.inCollection
        col).1.length := by
  induction files generalizing rag i with
  | nil => cases h
  | cons file files ih =>
      rw [acceptsSome] at h
      rw [ingestFiles]
      by_cases hempty : file.bytes.isEmpty = true
      · rw [if_pos hempty] at h ⊢
        exact ih h
      · rw [if_neg hempty] at h ⊢
        rcases h with hfile | hrest
        · refine Nat.lt_of_lt_of_le ?_ (length_le_ingestFiles _ (i + 1) files)
          rw [ingestBytes_length hfile]
          omega
        · exact (length_le_ingestBytes rag (env i) col _ file _).trans_lt (ih hrest)

end Batches

theorem append_contents (s : RagState) (entry : String × AuditEvent) (logged : Bool) (c : String) :
    (s.append entry logged).contents c = s.contents c := by
  cases logged <;> rfl

theorem contents_of_some (hrag : s.rag = some rag) :
    s.contents c = some (rag.store.conn.inCollection c) := by
  rw [contents, hrag]
  rfl

theorem contents_finishIngest (s : RagState) (r : RagRequest) (source : String)
    (refuse : String → ApiError) (ingested : RagEngine × Except String IngestStats) :
    (s.finishIngest r source refuse ingested).1.contents c
      = some (ingested.1.store.conn.inCollection c) := by
  rw [finishIngest]
  cases ingested.2 with
  | error e => rfl
  | ok stats => exact append_contents _ _ _ c

/-- The JSON ingest stops at the label. -/
theorem ingestDocument_contents (h : s.Labelled c) (hkey : s.isAdminKey r.authorization = false)
    (req : IngestRequest) (env : IngestEnv) :
    (s.ingestDocument X G F R r req env).1.contents c = s.contents c := by
  rw [ingestDocument]
  cases s.checkIngestPermission r.authorization with
  | error e => rfl
  | ok _ =>
      cases hrag : s.rag with
      | none => rw [requireRag, hrag]
      | some rag =>
          rw [requireRag_of_some hrag]
          dsimp only
          by_cases hblank : (Text.trim req.text.toList).isEmpty = true
          · rw [if_pos hblank]
          · rw [if_neg hblank]
            cases hlabel : s.ingestLabel r.authorization
                (req.collection.getD rag.config.defaultCollection) with
            | some label => exact append_contents s _ _ c
            | none =>
                have hne : req.collection.getD rag.config.defaultCollection ≠ c := by
                  intro hcol
                  obtain ⟨label, hlookup, hpublic⟩ := h
                  rw [ingestLabel, hcol, hlookup] at hlabel
                  dsimp only at hlabel
                  rw [hkey, decide_eq_true hpublic] at hlabel
                  cases hlabel
                dsimp only
                rw [contents_finishIngest, contents_of_some hrag]
                exact congrArg some (RagEngine.inCollection_of_ne hne)

theorem mayIngest_of_ok {u : Unit} (h : s.checkIngestPermission r.authorization = .ok u) :
    s.mayIngest r = true := by
  rw [mayIngest, h]
  rfl

theorem mayIngest_of_error {e : ApiError}
    (h : s.checkIngestPermission r.authorization = .error e) : s.mayIngest r ≠ true := by
  rw [mayIngest, h]
  exact Bool.false_ne_true

theorem uploadDocument_contents_iff (summarize : Summarizer) (body : Multipart)
    (env : IngestEnv) :
    (s.uploadDocument X G F R summarize r body env).1.contents c = s.contents c ↔
      ¬ s.LetsIn X G F R summarize r c (.uploadDocument body env) := by
  rw [uploadDocument]
  -- Turned down for whatever reason: nothing is stored, and nothing was let in.
  cases hmay : s.checkIngestPermission r.authorization with
  | error e => exact iff_of_true rfl fun h => mayIngest_of_error hmay h.1
  | ok _ =>
      cases hrag : s.rag with
      | none =>
          rw [requireRag, hrag]
          exact iff_of_true rfl fun ⟨_, rag, _, _, _, hsome, _⟩ => nomatch hrag.symm.trans hsome
      | some rag =>
          rw [requireRag_of_some hrag]
          dsimp only
          cases hupload : readUpload body with
          | error e =>
              refine iff_of_true rfl fun ⟨_, _, u, _, _, _, hread, _⟩ => ?_
              exact nomatch hupload.symm.trans hread
          | ok u =>
              dsimp only
              cases hfile : u.file with
              | error e =>
                  refine iff_of_true rfl fun ⟨_, _, u', _, _, _, hread, hok, _⟩ => ?_
                  obtain rfl := Except.ok.inj (hupload.symm.trans hread)
                  exact nomatch hfile.symm.trans hok
              | ok named =>
                  obtain ⟨file, source⟩ := named
                  -- What is let in goes into the collection that the upload names.
                  have hlets : s.LetsIn X G F R summarize r c (.uploadDocument body env) ↔
                      u.collection.getD rag.config.defaultCollection = c ∧
                        acceptsFile X G F R rag env c source file := by
                    constructor
                    · rintro ⟨-, rag', u', file', source', hsome, hread, hok, hcol, haccepts⟩
                      obtain rfl := Option.some.inj (hrag.symm.trans hsome)
                      obtain rfl := Except.ok.inj (hupload.symm.trans hread)
                      obtain ⟨rfl, rfl⟩ := Prod.mk.inj (Except.ok.inj (hfile.symm.trans hok))
                      exact ⟨hcol, haccepts⟩
                    · rintro ⟨hcol, haccepts⟩
                      exact ⟨mayIngest_of_ok hmay, rag, u, file, source, hrag, hupload, hfile, hcol,
                        haccepts⟩
                  dsimp only
                  rw [hlets, contents_finishIngest, contents_of_some hrag]
                  refine Option.some_inj.trans ?_
                  by_cases hcol : u.collection.getD rag.config.defaultCollection = c
                  · rw [hcol, and_iff_right rfl]
                    by_cases haccepts : acceptsFile X G F R rag env c source file
                    -- A file that is accepted makes the collection longer.
                    · refine iff_of_false (fun heq => ?_) (not_not.mpr haccepts)
                      have hlength := ingestBytes_length haccepts (some summarize)
                      rw [heq] at hlength
                      omega
                    · exact iff_of_true (ingestBytes_of_not_accepts haccepts) haccepts
                  · exact iff_of_true (ingestBytes_of_ne hcol) fun h => hcol h.1

theorem uploadDocumentsBatch_contents_iff (summarize : Summarizer) (body : Multipart)
    (env : Nat → IngestEnv) :
    (s.uploadDocumentsBatch X G F R summarize r body env).1.contents c = s.contents c ↔
      ¬ s.LetsIn X G F R summarize r c (.uploadDocumentsBatch body env) := by
  rw [uploadDocumentsBatch]
  cases hmay : s.checkIngestPermission r.authorization with
  | error e => exact iff_of_true rfl fun h => mayIngest_of_error hmay h.1
  | ok _ =>
      cases hrag : s.rag with
      | none =>
          rw [requireRag, hrag]
          exact iff_of_true rfl fun ⟨_, rag, _, hsome, _⟩ => nomatch hrag.symm.trans hsome
      | some rag =>
          rw [requireRag_of_some hrag]
          dsimp only
          cases hbatch : readBatch body with
          | error e =>
              refine iff_of_true rfl fun ⟨_, _, b, _, hread, _⟩ => ?_
              exact nomatch hbatch.symm.trans hread
          | ok b =>
              have hlets : s.LetsIn X G F R summarize r c (.uploadDocumentsBatch body env) ↔
                  b.collection.getD rag.config.defaultCollection = c ∧
                    acceptsSome X G F R summarize env c rag 0 b.files := by
                -- The converse needs the three things that are known here.
                constructor
                · rintro ⟨-, rag', b', hsome, hread, hcol, haccepts⟩
                  obtain rfl := Option.some.inj (hrag.symm.trans hsome)
                  obtain rfl := Except.ok.inj (hbatch.symm.trans hread)
                  exact ⟨hcol, haccepts⟩
                · rintro ⟨hcol, haccepts⟩
                  exact ⟨mayIngest_of_ok hmay, rag, b, hrag, hbatch, hcol, haccepts⟩
              rw [hlets, contents_of_some hrag]
              refine Option.some_inj.trans ?_
              by_cases hcol : b.collection.getD rag.config.defaultCollection = c
              · rw [hcol, and_iff_right rfl]
                by_cases haccepts : acceptsSome X G F R summarize env c rag 0 b.files
                -- As for one file: the collection grows with the first file that is accepted.
                · refine iff_of_false (fun heq => ?_) (not_not.mpr haccepts)
                  have hsame : (ingestFiles X G F R summarize env c rag 0
                      b.files).1.store.conn.inCollection c = rag.store.conn.inCollection c := heq
                  have hlength := ingestFiles_length haccepts
                  rw [hsame] at hlength
                  exact Nat.lt_irrefl _ hlength
                · exact iff_of_true (ingestFiles_of_not_accepts haccepts) haccepts
              · exact iff_of_true (ingestFiles_of_ne hcol rag 0 b.files) fun h => hcol h.1

/-- An ingest route leaves a labelled collection as it was, unless it is an upload. -/
theorem ingest_contents_iff (h : s.Labelled c) (hkey : s.isAdminKey r.authorization = false)
    (summarize : Summarizer) (call : IngestCall) :
    (s.ingest X G F R summarize r call).1.contents c = s.contents c ↔
      ¬ s.LetsIn X G F R summarize r c call := by
  cases call with
  | ingestDocument req env => exact iff_of_true (ingestDocument_contents h hkey req env) id
  | uploadDocument body env => exact uploadDocument_contents_iff summarize body env
  | uploadDocumentsBatch body env => exact uploadDocumentsBatch_contents_iff summarize body env

/-- **What the labels keep.**  The response to a caller below a collection's label shows
    nothing of it exactly when the request is none that shows what it finds; and without
    the admin key an ingest route leaves a labelled collection as it was exactly when it is
    no upload that goes through. -/
theorem confined_and_kept_iff (s : RagState) (r : RagRequest) :
    (∀ c, s.Protected X r c → (s.Confined X G F R r c ↔ ¬ s.Shows F r c)) ∧
      ∀ c, s.Labelled c → s.isAdminKey r.authorization = false → ∀ summarize call,
        ((s.ingest X G F R summarize r call).1.contents c = s.contents c ↔
          ¬ s.LetsIn X G F R summarize r c call) :=
  ⟨fun _ h => confined_iff h, fun _ h hkey summarize call =>
    ingest_contents_iff h hkey summarize call⟩

/-! ## A clinic -/

/-- The bits of `1.0`. -/
def one : F32Bits := 0x3F800000

/-- Every text is one chunk. -/
def clinicReaders : Readers where
  extract bytes _ :=
    match Text.decode bytes with
    | some text => .ok (.fromPlain (String.ofList text))
    | none => .error "not valid UTF-8"
  chunkDocument doc _ _ _ := [⟨doc.fullText, 1, none⟩]

def clinicEmbedder : Embedder where
  modelLabel := "nomic-embed-text:latest"
  embed texts := .ok (texts.map fun _ => [one])

def patientDocument : DocumentRow where
  id := "doc-1"
  collection := "patients"
  source := "visit.txt"
  sha256 := ""
  ingestedAt := "2025-01-01T00:00:00+00:00"
  title := none
  author := none
  pageCount := 1
  summary := none

def patientChunk : StoredChunk where
  id := "chunk-1"
  documentId := "doc-1"
  collection := "patients"
  ordinal := 0
  text := "diagnosis: influenza"
  embedding := vecToBlob [one]
  pageNumber := 1
  section_ := none
  contentHash := ""

theorem owned_patientChunk : Owned [patientDocument] [patientChunk] := by
  intro ch hch
  obtain rfl := List.mem_singleton.mp hch
  exact ⟨patientDocument, List.mem_singleton_self _, rfl, rfl⟩

def clinicRag : RagEngine where
  store :=
    { conn :=
        { collections := [⟨"patients", "nomic-embed-text:latest", 1, "2025-01-01T00:00:00+00:00"⟩]
          documents := [patientDocument]
          chunks := [patientChunk]
          ids := List.nodup_singleton _
          owned := owned_patientChunk }
      dek := none }
  embedder := clinicEmbedder
  config := ⟨"default", 1200, 200, 3, 0x3E800000⟩

/-- Anyone may ingest, which is the default. -/
def clinic : RagState where
  policy := ClassificationPolicy.empty.setCollectionLabel "patients" .phi true
  rag := some clinicRag
  adminKey := some "change-me"
  userDb := ⟨[], []⟩
  ragIngestPolicy := .anyone
  ragIngestAllowlist := []
  workspaces := ⟨[], List.nodup_nil, List.nodup_nil⟩
  audit := []

def clinicEnv : IngestEnv where
  docId := "doc-2"
  chunkId _ := "chunk-2"
  nonce _ := ⟨List.replicate 12 0, rfl⟩
  now := "2025-01-02T00:00:00+00:00"
  refused := none
  collectionRefused := none
  summaryNonce := ⟨List.replicate 12 0, rfl⟩
  summaryRefused := none

/-- Someone without any header searches the patients' collection. -/
def searchPatients : RagRequest where
  authorization := none
  workspace := none
  now := 0
  logged := true
  call := .search ⟨some "patients", "diagnosis", none⟩

/-- And uploads a file to it. -/
def patientUpload : IngestCall :=
  .uploadDocument
    [.ok ⟨some "file", some "note.txt", .ok [104, 105], .ok "hi"⟩,
      .ok ⟨some "collection", none, .ok [], .ok "patients"⟩] clinicEnv

theorem clinic_protected : clinic.Protected External.sample searchPatients "patients" :=
  ⟨.phi, rfl, by decide⟩

theorem clinic_labelled : clinic.Labelled "patients" := ⟨.phi, rfl, by decide⟩

theorem clinic_shows : clinic.Shows Floats.sample searchPatients "patients" := by
  refine ⟨clinicRag, rfl, rfl, rfl, [one], rfl, ?_, ?_⟩
  · intro row hrow
    obtain rfl : row = (patientChunk, patientDocument) := List.mem_singleton.mp hrow
    rfl
  · exact ⟨(patientChunk, patientDocument), List.mem_singleton_self _, rfl, rfl⟩

theorem clinic_letsIn :
    clinic.LetsIn External.sample Store.Aead.sample Floats.sample clinicReaders .ok searchPatients
      "patients" patientUpload :=
  ⟨rfl, clinicRag, _, _, _, rfl, rfl, rfl, rfl, _, rfl, _, _, _, rfl, rfl⟩

theorem confined_and_kept_iff_clinic :
    (clinic.Confined External.sample Store.Aead.sample Floats.sample clinicReaders searchPatients
        "patients" ↔ ¬ clinic.Shows Floats.sample searchPatients "patients") ∧
      ((clinic.ingest External.sample Store.Aead.sample Floats.sample clinicReaders .ok
          searchPatients patientUpload).1.contents "patients" = clinic.contents "patients" ↔
        ¬ clinic.LetsIn External.sample Store.Aead.sample Floats.sample clinicReaders .ok
          searchPatients "patients" patientUpload) :=
  ⟨(confined_and_kept_iff clinic searchPatients).1 "patients" clinic_protected,
    (confined_and_kept_iff clinic searchPatients).2 "patients" clinic_labelled rfl .ok
      patientUpload⟩

/-- The search shows the diagnosis, and the upload is stored. -/
theorem not_confined_searchPatients :
    (clinic.Protected External.sample searchPatients "patients" ∧
      ¬ clinic.Confined External.sample Store.Aead.sample Floats.sample clinicReaders searchPatients
        "patients") ∧
    (clinic.Labelled "patients" ∧ clinic.isAdminKey none = false ∧
      (clinic.ingest External.sample Store.Aead.sample Floats.sample clinicReaders .ok
        searchPatients patientUpload).1.contents "patients" ≠ clinic.contents "patients") := by
  refine ⟨⟨clinic_protected, not_confined_of_shows clinic_shows⟩, clinic_labelled, rfl, ?_⟩
  intro hsame
  exact (ingest_contents_iff clinic_labelled rfl .ok patientUpload).mp hsame clinic_letsIn

end RagState

end Maranode.Api
