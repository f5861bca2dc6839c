/-
  Maranode.Rag.Engine

  `engine.rs`: documents into the store, and chunks out of it by a query.

  What a document's text is and how it is cut (`Readers`), its vectors (`Embedder`) and
  its summary are up to programs, models and services.
-/
import Maranode.Common.External
import Maranode.Rag.Store

namespace Maranode.Rag

open Lib Store

/-! ## Documents -/

structure Page where
  number : Nat
  text : String

structure DocumentContent where
  pages : List Page
  title : Option String
  author : Option String
  pageCount : Nat
  fullText : String

def DocumentContent.fromPlain (text : String) : DocumentContent where
  pages := [⟨1, text⟩]
  title := none
  author := none
  pageCount := 1
  fullText := text

structure RichChunk where
  text : String
  pageNumber : Nat
  section_ : Option String

/-- `extract` and `chunk_document`. -/
structure Readers where
  extract : Bytes → String → Except String DocumentContent
  chunkDocument : DocumentContent → String → Nat → Nat → List RichChunk

structure Embedder where
  modelLabel : String
  embed : List String → Except String (List Embedding)

def Embedder.embedOne (em : Embedder) (text : String) : Except String Embedding :=
  match em.embed [text] with
  | .error e => .error e
  | .ok out =>
      match out.getLast? with
      | some v => .ok v
      | none => .error "embedder returned no vector"

/-- `SummarizeFn`. -/
abbrev Summarizer := String → Except String String

/-! ## The engine -/

structure RagConfig where
  defaultCollection : String
  chunkSize : Nat
  chunkOverlap : Nat
  topK : Nat
  minScore : F32Bits

structure RagEngine where
  store : VectorStore
  embedder : Embedder
  config : RagConfig

structure IngestStats where
  documentId : String
  collection : String
  chunks : Nat
  pages : Nat
  summary : Option String

/-- What an ingest takes from around it. -/
structure IngestEnv extends InsertEnv where
  collectionRefused : Option String
  summaryNonce : ByteArr 12
  summaryRefused : Option String

/-- `scored_to_retrieved` copies every field. -/
abbrev RetrievedChunk := ScoredChunk

variable (X : External) (G : Aead) (F : Floats) (R : Readers)

namespace RagEngine

/-- The chunks of a document as they are to be stored, and the dimension of its vectors. -/
def chunkRows (e : RagEngine) (source : String) (doc : DocumentContent) :
    Except String (Nat × List ChunkRow) :=
  let richChunks := R.chunkDocument doc source e.config.chunkSize e.config.chunkOverlap
  if richChunks.isEmpty then .error s!"document '{source}' produced no text to index"
  else
    match e.embedder.embed (richChunks.map (·.text)) with
    | .error err => .error err
    | .ok embeddings =>
        let dim := (embeddings.head?.map (·.length)).getD 0
        if embeddings.length ≠ richChunks.length then
          .error (s!"embedder returned {embeddings.length} vectors for " ++
            s!"{richChunks.length} chunks")
        else if dim = 0 then .error "embedder returned empty vectors"
        else
          .ok (dim, richChunks.zipWith (fun rc emb =>
            { text := rc.text
              embedding := F.normalize emb
              pageNumber := rc.pageNumber
              section_ := rc.section_
              contentHash := X.sha256 (Text.encode rc.text.toList) }) embeddings)

/-- A new document of a collection that is there, or is made. -/
def storeDocument (e : RagEngine) (env : IngestEnv) (collection source : String)
    (doc : DocumentContent) (dim : Nat) (rows : List ChunkRow) :
    Except String (String × VectorStore) × VectorStore :=
  match e.store.ensureCollection collection e.embedder.modelLabel dim env.now
      env.collectionRefused with
  | .error err => (.error err, e.store)
  | .ok store =>
      (store.insertDocument G env.toInsertEnv collection source
        (X.sha256 (Text.encode doc.fullText.toList)) rows doc.title doc.author doc.pageCount, store)

/-- The summary of a new document; whether it can be stored is passed over. -/
def summarizeNew (store : VectorStore) (env : IngestEnv) (documentId : String)
    (doc : DocumentContent) (summarizer : Option Summarizer) : Option String × VectorStore :=
  match summarizer with
  | none => (none, store)
  | some summarize =>
      match summarize (String.ofList (doc.fullText.toList.take 8000)) with
      | .error _ => (none, store)
      | .ok summary =>
          match store.setSummary G env.summaryNonce env.summaryRefused documentId summary with
          | .error _ => (some summary, store)
          | .ok store => (some summary, store)

/-- `ingest_document`. -/
def ingestDocument (e : RagEngine) (env : IngestEnv) (collection source : String)
    (doc : DocumentContent) (summarizer : Option Summarizer) :
    RagEngine × Except String IngestStats :=
  match e.chunkRows X F R source doc with
  | .error err => (e, .error err)
  | .ok (dim, rows) =>
      match e.storeDocument X G env collection source doc dim rows with
      | (.error err, store) => ({ e with store }, .error err)
      | (.ok (documentId, store), _) =>
          let summarized := summarizeNew G store env documentId doc summarizer
          ({ e with store := summarized.2 },
            .ok
              { documentId
                collection
                chunks := rows.length
                pages := doc.pageCount
                summary := summarized.1 })

def ingest (e : RagEngine) (env : IngestEnv) (collection source text : String) :
    RagEngine × Except String IngestStats :=
  e.ingestDocument X G F R env collection source (.fromPlain text) none

def ingestBytes (e : RagEngine) (env : IngestEnv) (collection source : String) (bytes : Bytes)
    (filename : String) (summarizer : Option Summarizer) :
    RagEngine × Except String IngestStats :=
  match R.extract bytes filename with
  | .error err => (e, .error err)
  | .ok doc => e.ingestDocument X G F R env collection source doc summarizer

def retrieve (e : RagEngine) (collection query : String) (topK : Option Nat) :
    Except String (List RetrievedChunk) :=
  match e.embedder.embedOne query with
  | .error err => .error err
  | .ok q =>
      e.store.search G F collection (F.normalize q) (max (topK.getD e.config.topK) 1)
        e.config.minScore

/-- The hits in one of all collections; one that cannot be searched is skipped. -/
def hitsIn (e : RagEngine) (q : Embedding) (topK : Nat) (name : String) : List RetrievedChunk :=
  match e.store.search G F name q topK e.config.minScore with
  | .error _ => []
  | .ok hits => hits

def retrieveAllCollections (e : RagEngine) (query : String) (topK : Option Nat) :
    Except String (List RetrievedChunk) :=
  match e.embedder.embedOne query with
  | .error err => .error err
  | .ok q =>
      let topK := max (topK.getD e.config.topK) 1
      let all := e.store.listCollections.flatMap fun col =>
        e.hitsIn G F (F.normalize q) topK col.name
      .ok ((all.mergeSort fun a b => F.partialGe a.score b.score).take topK)

end RagEngine

/-! ## What an ingest adds -/

/-- The documents and chunks of a collection. -/
def Database.inCollection (db : Database) (c : String) : List DocumentRow × List StoredChunk :=
  (db.documents.filter (·.collection == c), db.chunks.filter (·.collection == c))

variable {X G F R} {s s' : VectorStore} {c : String}

theorem VectorStore.ensureCollection_rows {name model : String} {dim : Nat} {now : String}
    {refused : Option String} (h : s.ensureCollection name model dim now refused = .ok s') :
    s'.conn.documents = s.conn.documents ∧ s'.conn.chunks = s.conn.chunks := by
  unfold ensureCollection at h
  cases hfind : s.conn.collections.find? (·.name == name) with
  | some row =>
      rw [hfind] at h
      dsimp only at h
      split at h
      · cases h
      · split at h
        · cases h
        · obtain rfl := Except.ok.inj h
          exact ⟨rfl, rfl⟩
  | none =>
      rw [hfind] at h
      cases refused with
      | some e => cases h
      | none =>
          obtain rfl := Except.ok.inj h
          exact ⟨rfl, rfl⟩

/-- One store has a document more than another, with its chunks. -/
structure VectorStore.Adds (s s' : VectorStore) (col id : String) (row : DocumentRow)
    (new : List SealedChunk) : Prop where
  documents : s'.conn.documents = s.conn.documents ++ [row]
  chunks : s'.conn.chunks = s.conn.chunks ++ new.map (StoredChunk.of row)
  rowId : row.id = id
  rowCollection : row.collection = col
  rowSummary : row.summary = none
  fresh : id ∉ s.conn.documents.map (·.id)

theorem Database.insert_eq_some {db db' : Database} {row : DocumentRow} {new : List SealedChunk}
    (h : db.insert row new = some db') :
    row.id ∉ db.documents.map (·.id) ∧ db'.collections = db.collections ∧
      db'.documents = db.documents ++ [row] ∧
        db'.chunks = db.chunks ++ new.map (StoredChunk.of row) := by
  rw [insert] at h
  split at h
  · rename_i hfresh
    obtain rfl := Option.some.inj h
    exact ⟨hfresh, rfl, rfl, rfl⟩
  · cases h

/-- The first chunk could be sealed, and the rest. -/
theorem VectorStore.sealChunks_cons_eq_ok {dek : Option Dek} {env : InsertEnv} {ordinal : Nat}
    {chunk : ChunkRow} {chunks : List ChunkRow} {new : List SealedChunk}
    (h : sealChunks G dek env ordinal (chunk :: chunks) = .ok new) :
    ∃ stored rest, maybeEncrypt G (env.nonce ordinal) dek chunk.text = .ok stored ∧
      sealChunks G dek env (ordinal + 1) chunks = .ok rest ∧
        new =
          { id := env.chunkId ordinal
            ordinal
            text := stored
            embedding := vecToBlob chunk.embedding
            pageNumber := chunk.pageNumber
            section_ := chunk.section_
            contentHash := chunk.contentHash } :: rest := by
  rw [sealChunks] at h
  cases hstored : maybeEncrypt G (env.nonce ordinal) dek chunk.text with
  | error e =>
      rw [hstored] at h
      cases h
  | ok stored =>
      rw [hstored] at h
      dsimp only at h
      cases hrest : sealChunks G dek env (ordinal + 1) chunks with
      | error e =>
          rw [hrest] at h
          cases h
      | ok rest =>
          rw [hrest] at h
          exact ⟨stored, rest, rfl, rfl, (Except.ok.inj h).symm⟩

/-- The collection is there, every chunk could be sealed, and the rows went in. -/
theorem VectorStore.insertDocument_eq_ok {env : InsertEnv} {col source sha256 id : String}
    {chunks : List ChunkRow} {title author : Option String} {pageCount : Nat}
    (h : s.insertDocument G env col source sha256 chunks title author pageCount = .ok (id, s')) :
    id = env.docId ∧ s.conn.collections.any (·.name == col) = true ∧ ∃ new conn,
      sealChunks G s.dek env 0 chunks = .ok new ∧ env.refused = none ∧
        s.conn.insert
          { id := env.docId, collection := col, source, sha256, ingestedAt := env.now
            title, author, pageCount, summary := none } new = some conn ∧
          s' = { s with conn } := by
  -- The collection has to be there, or the call is refused.
  rw [insertDocument] at h
  split at h
  · cases h
  · next hcollection =>
      rw [Bool.not_eq_true, Bool.not_eq_false'] at hcollection
      -- The chunks are sealed one by one before the row is written.
      cases hseal : sealChunks G s.dek env 0 chunks with
      | error e =>
          rw [hseal] at h
          cases h
      | ok new =>
          rw [hseal] at h
          cases hrefused : env.refused with
          | some e =>
              rw [hrefused] at h
              cases h
          | none =>
              rw [hrefused] at h
              dsimp only at h
              -- The rows go in at once, under a fresh id.
              split at h
              · cases h
              · next conn hinsert =>
                  obtain ⟨rfl, rfl⟩ := Prod.mk.inj (Except.ok.inj h)
                  exact ⟨rfl, hcollection, new, conn, rfl, rfl, hinsert, rfl⟩

theorem VectorStore.insertDocument_adds {env : InsertEnv} {col source sha256 id : String}
    {chunks : List ChunkRow} {title author : Option String} {pageCount : Nat}
    (h : s.insertDocument G env col source sha256 chunks title author pageCount = .ok (id, s')) :
    id = env.docId ∧ ∃ row new, s.Adds s' col id row new ∧
      sealChunks G s.dek env 0 chunks = .ok new := by
  obtain ⟨rfl, -, new, conn, hseal, -, hinsert, rfl⟩ := insertDocument_eq_ok h
  obtain ⟨hfresh, -, hdocuments, hchunks⟩ := Database.insert_eq_some hinsert
  exact ⟨rfl, _, new, ⟨hdocuments, hchunks, rfl, rfl, rfl, hfresh⟩, hseal⟩

namespace RagEngine

variable {e : RagEngine} {env : IngestEnv} {col source : String} {doc : DocumentContent}

theorem storeDocument_adds {dim : Nat} {rows : List ChunkRow} {id : String}
    (h : (e.storeDocument X G env col source doc dim rows).1 = .ok (id, s')) :
    ∃ row new, e.store.Adds s' col id row new := by
  rw [storeDocument] at h
  cases hensure : e.store.ensureCollection col e.embedder.modelLabel dim env.now
      env.collectionRefused with
  | error err =>
      rw [hensure] at h
      cases h
  | ok store =>
      rw [hensure] at h
      obtain ⟨hdocs, hchunks⟩ := VectorStore.ensureCollection_rows hensure
      obtain ⟨-, row, new, hadds, -⟩ := VectorStore.insertDocument_adds h
      refine ⟨row, new, ?_, ?_, hadds.rowId, hadds.rowCollection, hadds.rowSummary, ?_⟩
      · rw [hadds.documents, hdocs]
      · rw [hadds.chunks, hchunks]
      · rw [← hdocs]
        exact hadds.fresh

/-- Whatever became of the insert, the store before it has the rows it had. -/
theorem storeDocument_rest {dim : Nat} {rows : List ChunkRow} :
    (e.storeDocument X G env col source doc dim rows).2.conn.inCollection c
      = e.store.conn.inCollection c := by
  rw [storeDocument]
  cases hensure : e.store.ensureCollection col e.embedder.modelLabel dim env.now
      env.collectionRefused with
  | error err => rfl
  | ok store =>
      obtain ⟨hdocs, hchunks⟩ := VectorStore.ensureCollection_rows hensure
      show store.conn.inCollection c = _
      rw [Database.inCollection, hdocs, hchunks]
      rfl

/-- A summary is written to the row of the new document, or nowhere. -/
theorem summarizeNew_rows (s : VectorStore) (env : IngestEnv) (id : String)
    (doc : DocumentContent) (summarizer : Option Summarizer) :
    ∃ g : DocumentRow → DocumentRow,
      (summarizeNew G s env id doc summarizer).2.conn.documents = s.conn.documents.map g ∧
      (summarizeNew G s env id doc summarizer).2.conn.chunks = s.conn.chunks ∧
      (∀ d, d.id ≠ id → g d = d) ∧ ∀ d, (g d).collection = d.collection := by
  -- Every branch that stops leaves the rows as they are.
  have hsame : ∃ g : DocumentRow → DocumentRow, s.conn.documents = s.conn.documents.map g ∧
      s.conn.chunks = s.conn.chunks ∧ (∀ d, d.id ≠ id → g d = d) ∧
      ∀ d, (g d).collection = d.collection :=
    ⟨fun d => d, (List.map_id _).symm, rfl, fun _ _ => rfl, fun _ => rfl⟩
  -- Without a summarizer nothing is done; with one it may still fail.
  cases summarizer with
  | none => exact hsame
  | some summarize =>
      rw [summarizeNew]
      cases summarize (String.ofList (doc.fullText.toList.take 8000)) with
      | error err => exact hsame
      | ok summary =>
          dsimp only
          cases hset : s.setSummary G env.summaryNonce env.summaryRefused id summary with
          | error err => exact hsame
          | ok store =>
              rw [VectorStore.setSummary] at hset
              split at hset
              · cases hset
              · split at hset
                · cases hset
                · rename_i stored _ _ _
                  obtain rfl := Except.ok.inj hset
                  -- The summary is set in the rows of this id, and nothing else of them changes.
                  refine ⟨.withSummary id stored, rfl, List.map_id _, fun d hd => ?_, fun d => ?_⟩
                  · exact if_neg hd
                  · exact (DocumentRow.withSummary_keys id stored d).2

/-- The rows after a document was added and its summary written. -/
theorem documents_summarizeNew {s s' : VectorStore} {id : String} {row : DocumentRow}
    {new : List SealedChunk} (h : s.Adds s' col id row new) (env : IngestEnv)
    (doc : DocumentContent) (summarizer : Option Summarizer) :
    ∃ row' : DocumentRow, row'.collection = col ∧
      (summarizeNew G s' env id doc summarizer).2.conn.documents
        = s.conn.documents ++ [row'] ∧
      (summarizeNew G s' env id doc summarizer).2.conn.chunks
        = s.conn.chunks ++ new.map (StoredChunk.of row) := by
  obtain ⟨g, hdocs, hchunks, hother, hcol⟩ := summarizeNew_rows (G := G) s' env id doc summarizer
  refine ⟨g row, (hcol row).trans h.rowCollection, ?_, hchunks.trans h.chunks⟩
  have hold : s.conn.documents.map g = s.conn.documents := by
    have hmap : s.conn.documents.map g = s.conn.documents.map fun d => d :=
      List.map_congr_left fun d hd => hother d fun hid => h.fresh (hid ▸ List.mem_map_of_mem hd)
    rw [hmap, List.map_id_fun']
    rfl
  rw [hdocs, h.documents, List.map_append, hold, List.map_singleton]

variable (X G F R) in
/-- The document is cut, embedded and stored. -/
def Accepts (e : RagEngine) (env : IngestEnv) (col source : String) (doc : DocumentContent) :
    Prop :=
  ∃ dim rows new, e.chunkRows X F R source doc = .ok (dim, rows) ∧
    (e.storeDocument X G env col source doc dim rows).1 = .ok new

/-- What is not accepted leaves the rows of every collection. -/
theorem inCollection_of_not_accepts {summarizer : Option Summarizer}
    (h : ¬ e.Accepts X G F R env col source doc) :
    (e.ingestDocument X G F R env col source doc summarizer).1.store.conn.inCollection c
      = e.store.conn.inCollection c := by
  rw [ingestDocument]
  cases hrows : e.chunkRows X F R source doc with
  | error err => rfl
  | ok planned =>
      obtain ⟨dim, rows⟩ := planned
      have hrest : (e.storeDocument X G env col source doc dim rows).2.conn.inCollection c
          = e.store.conn.inCollection c := storeDocument_rest
      cases hstore : e.storeDocument X G env col source doc dim rows with
      | mk stored store =>
          rw [hstore] at hrest
          cases stored with
          | error err =>
              dsimp only
              rw [hstore]
              exact hrest
          | ok new =>
              refine absurd ⟨dim, rows, new, hrows, ?_⟩ h
              rw [hstore]

/-- What is accepted is added to its collection, and to no other. -/
theorem ingestDocument_of_accepts (h : e.Accepts X G F R env col source doc)
    (summarizer : Option Summarizer) :
    ∃ row new, row.collection = col ∧ (∀ ch ∈ new, ch.collection = col) ∧
      (e.ingestDocument X G F R env col source doc summarizer).1.store.conn.documents
        = e.store.conn.documents ++ [row] ∧
      (e.ingestDocument X G F R env col source doc summarizer).1.store.conn.chunks
        = e.store.conn.chunks ++ new := by
  obtain ⟨dim, rows, ⟨id, store⟩, hrows, hstored⟩ := h
  obtain ⟨row, new, hadds⟩ := storeDocument_adds hstored
  obtain ⟨row', hcol, hdocs, hchunks⟩ :=
    documents_summarizeNew (G := G) hadds env doc summarizer
  rw [ingestDocument, hrows]
  cases hstore : e.storeDocument X G env col source doc dim rows with
  | mk stored rest =>
      rw [hstore] at hstored
      obtain rfl : stored = .ok (id, store) := hstored
      dsimp only
      rw [hstore]
      refine ⟨row', _, hcol, fun ch hch => ?_, hdocs, hchunks⟩
      obtain ⟨_, -, rfl⟩ := List.mem_map.mp hch
      exact hadds.rowCollection

theorem inCollection_of_ne {summarizer : Option Summarizer} (h : col ≠ c) :
    (e.ingestDocument X G F R env col source doc summarizer).1.store.conn.inCollection c
      = e.store.conn.inCollection c := by
  by_cases haccepts : e.Accepts X G F R env col source doc
  · obtain ⟨row, new, hrow, hnew, hdocs, hchunks⟩ :=
      ingestDocument_of_accepts haccepts summarizer
    have hrows : [row].filter (·.collection == c) = [] := by
      rw [List.filter_singleton, hrow, beq_false_of_ne h]
      rfl
    have hnone : new.filter (·.collection == c) = [] := by
      refine List.filter_eq_nil_iff.mpr fun ch hch heq => ?_
      exact h ((hnew ch hch).symm.trans (eq_of_beq heq))
    rw [Database.inCollection, hdocs, hchunks, List.filter_append, List.filter_append, hrows, hnone,
      List.append_nil, List.append_nil]
    rfl
  · exact inCollection_of_not_accepts haccepts

theorem length_of_accepts (h : e.Accepts X G F R env col source doc)
    (summarizer : Option Summarizer) :
    ((e.ingestDocument X G F R env col source doc summarizer).1.store.conn.inCollection
        col).1.length = (e.store.conn.inCollection col).1.length + 1 := by
  obtain ⟨row, new, hrow, -, hdocs, -⟩ := ingestDocument_of_accepts h summarizer
  show (List.filter _ _).length = _
  rw [hdocs, List.filter_append, List.length_append, List.filter_singleton, hrow, beq_self_eq_true]
  rfl

end RagEngine

end Maranode.Rag
