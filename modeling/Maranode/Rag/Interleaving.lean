/-
  Maranode.Rag.Interleaving

  Ingests, deletions and summaries in any order.

  An ingest is three transactions, and anything may happen to the store between two of them.
  With an embedder whose vectors have one length, the collections, documents and chunks fit
  together in every state (`sound_of_run`): SQLite keeps the foreign keys, and a collection
  that is deleted and made again under an ingest has the dimension that it had.
-/
import Maranode.Lib.Run
import Maranode.Lib.TopK
import Maranode.Rag.Texts

namespace Maranode.Rag

open Lib Store

variable (X : External) (G : Aead) (F : Floats) (R : Readers)

/-! ## The system -/

/-- What `ingest_document` is called with. -/
structure IngestCall where
  env : IngestEnv
  collection : String
  source : String
  doc : DocumentContent
  summarizer : Option Summarizer

/-- Where an ingest stands between two of its transactions. -/
inductive Stage where
  | planned (dim : Nat) (rows : List ChunkRow)
  | ensured (rows : List ChunkRow)
  | inserted (documentId : String)

structure RagSystem where
  engine : RagEngine
  calls : Nat → Option (IngestCall × Stage)

inductive RagOp where
  /-- A new ingest cuts and embeds its document. -/
  | start (i : Nat) (call : IngestCall)
  /-- An ingest goes through its next transaction. -/
  | advance (i : Nat)
  | deleteDocument (documentId : String)
  | deleteCollection (name : String)
  | setSummary (nonce : ByteArr 12) (refused : Option String) (documentId summary : String)

namespace RagSystem

def withStore (s : RagSystem) (store : VectorStore) : RagSystem :=
  { s with engine := { s.engine with store } }

def setCall (s : RagSystem) (i : Nat) (call : Option (IngestCall × Stage)) : RagSystem :=
  { s with calls := Function.update s.calls i call }

/-- The next transaction; an error ends the ingest. -/
def advance (s : RagSystem) (i : Nat) (call : IngestCall) : Stage → RagSystem
  | .planned dim rows =>
      match s.engine.store.ensureCollection call.collection s.engine.embedder.modelLabel dim
          call.env.now call.env.collectionRefused with
      | .error _ => s.setCall i none
      | .ok store => (s.withStore store).setCall i (some (call, .ensured rows))
  | .ensured rows =>
      match s.engine.store.insertDocument G call.env.toInsertEnv call.collection call.source
          (X.sha256 (Text.encode call.doc.fullText.toList)) rows call.doc.title call.doc.author
          call.doc.pageCount with
      | .error _ => s.setCall i none
      | .ok (documentId, store) =>
          (s.withStore store).setCall i (some (call, .inserted documentId))
  | .inserted documentId =>
      (s.withStore (RagEngine.summarizeNew G s.engine.store call.env documentId call.doc
        call.summarizer).2).setCall i none

/-- `none` where there is no such ingest, or is one already. -/
def step (s : RagSystem) : RagOp → Option RagSystem
  | .start i call =>
      match s.calls i with
      | some _ => none
      | none =>
          match s.engine.chunkRows X F R call.source call.doc with
          | .error _ => some s
          | .ok (dim, rows) => some (s.setCall i (some (call, .planned dim rows)))
  | .advance i => (s.calls i).map fun (call, stage) => s.advance X G i call stage
  | .deleteDocument documentId =>
      some (s.withStore (s.engine.store.deleteDocument documentId).2)
  | .deleteCollection name => some (s.withStore (s.engine.store.deleteCollection name).2)
  | .setSummary nonce refused documentId summary =>
      match s.engine.store.setSummary G nonce refused documentId summary with
      | .error _ => some s
      | .ok store => some (s.withStore store)

end RagSystem

/-! ## What fits together -/

/-- All vectors of the embedder have the length. -/
def Embedder.HasDim (em : Embedder) (dim : Nat) : Prop :=
  ∀ texts out, em.embed texts = .ok out → ∀ v ∈ out, v.length = dim

/-- The blob is a vector of the length. -/
def IsVec (blob : Bytes) (dim : Nat) : Prop :=
  ∃ emb, blobToVec blob = .ok emb ∧ emb.length = dim

/-- The chunks that are stored of a document. -/
def Database.chunksOf (db : Database) (documentId : String) : List StoredChunk :=
  db.chunks.filter (·.documentId == documentId)

/-- The tables fit together: what SQLite keeps, and one dimension. -/
structure Database.Whole (db : Database) (dim : Nat) : Prop where
  names : (db.collections.map (·.name)).Nodup
  dims : ∀ c ∈ db.collections, c.dim = dim
  placed : ∀ d ∈ db.documents, ∃ c ∈ db.collections, c.name = d.collection
  ordinals : ∀ d ∈ db.documents,
    (db.chunksOf d.id).map (·.ordinal) = List.range (db.chunksOf d.id).length
  embedded : ∀ ch ∈ db.chunks, IsVec ch.embedding dim

/-- What `list_collections` should say of a collection: its documents, and their chunks. -/
def Database.infoOf (db : Database) (row : CollectionRow) : CollectionInfo :=
  let documents := db.documents.filter (·.collection == row.name)
  { name := row.name
    embeddingModel := row.embeddingModel
    dim := row.dim
    documents := documents.length
    chunks := (documents.flatMap fun d => db.chunksOf d.id).length }

/-- Every chunk of the collection, each with its document. -/
def Database.IsJoin (db : Database) (col : String) (rows : List JoinedRow) : Prop :=
  rows.map (·.1) = db.chunks.filter (·.collection == col) ∧
    ∀ row ∈ rows, row.2 ∈ db.documents ∧ row.2.id = row.1.documentId

/-- What is promised of a store and the searches of its engine. -/
structure RagEngine.Sound (e : RagEngine) : Prop where
  /-- A chunk belongs to a document of its collection, and its vector has the dimension of
      that collection. -/
  chunks : ∀ ch ∈ e.store.conn.chunks,
    (∃ d ∈ e.store.conn.documents, d.id = ch.documentId ∧ d.collection = ch.collection) ∧
      ∃ c ∈ e.store.conn.collections, c.name = ch.collection ∧ IsVec ch.embedding c.dim
  /-- The chunks of a document are numbered from zero. -/
  ordinals : ∀ d ∈ e.store.conn.documents,
    (e.store.conn.chunksOf d.id).map (·.ordinal) =
      List.range (e.store.conn.chunksOf d.id).length
  names : (e.store.conn.collections.map (·.name)).Nodup
  /-- The collections are listed once each, with the counts of their documents and of the
      chunks of these. -/
  counts : e.store.listCollections.Perm (e.store.conn.collections.map e.store.conn.infoOf)
  /-- A query of the embedder has the length of every vector. -/
  compared : ∀ text v, e.embedder.embedOne text = .ok v → ∀ ch ∈ e.store.conn.chunks,
    IsVec ch.embedding (F.normalize v).length
  /-- A search for it selects among all chunks of the collection by their scores alone. -/
  searched : ∀ text v, e.embedder.embedOne text = .ok v → ∀ col, ∃ rows,
    e.store.conn.IsJoin col rows ∧ ∀ k m, e.store.search G F col (F.normalize v) k m =
      .ok (TopK.topK (fun a b => F.totalGe a.score b.score) k
        ((rows.map (VectorStore.hitOf G F e.store.dek (F.normalize v))).filter fun hit =>
          F.ge hit.score m))

/-! ## Vectors -/

theorem length_vecToBlob (v : Embedding) : (vecToBlob v).length = 4 * v.length := by
  induction v with
  | nil => rfl
  | cons x v ih =>
      rw [vecToBlob, List.flatMap_cons, List.length_append, ← vecToBlob, ih, List.length_cons]
      change 4 + 4 * v.length = 4 * (v.length + 1)
      omega

theorem length_floatsOf_vecToBlob (v : Embedding) : (floatsOf (vecToBlob v)).length = v.length := by
  induction v with
  | nil => rfl
  | cons x v ih =>
      rw [vecToBlob, List.flatMap_cons, ← vecToBlob]
      change (floatsOf (vecToBlob v)).length + 1 = v.length + 1
      rw [ih]

/-- A vector that is stored is read with its length. -/
theorem isVec_vecToBlob {v : Embedding} {dim : Nat} (h : v.length = dim) :
    IsVec (vecToBlob v) dim := by
  refine ⟨floatsOf (vecToBlob v), ?_, (length_floatsOf_vecToBlob v).trans h⟩
  rw [blobToVec, length_vecToBlob, if_neg]
  omega

/-! ## Statements -/

namespace Database

variable {db : Database} {dim : Nat}

theorem whole_empty (dim : Nat) : empty.Whole dim where
  names := List.nodup_nil
  dims _ hc := absurd hc List.not_mem_nil
  placed _ hd := absurd hd List.not_mem_nil
  ordinals _ hd := absurd hd List.not_mem_nil
  embedded _ hch := absurd hch List.not_mem_nil

theorem Whole.addCollection (h : db.Whole dim) {row : CollectionRow} (hdim : row.dim = dim)
    (hname : row.name ∉ db.collections.map (·.name)) : (db.addCollection row).Whole dim where
  names := by
    rw [Database.addCollection, List.map_append, List.map_singleton]
    refine List.nodup_append.mpr ⟨h.names, List.nodup_singleton _, ?_⟩
    intro name hmem other hother heq
    rw [List.mem_singleton.mp hother] at heq
    exact hname (heq ▸ hmem)
  dims c hc := by
    rcases List.mem_append.mp hc with hold | hnew
    · exact h.dims c hold
    · rw [List.mem_singleton.mp hnew]
      exact hdim
  placed d hd := by
    obtain ⟨c, hc, hcname⟩ := h.placed d hd
    exact ⟨c, List.mem_append_left _ hc, hcname⟩
  ordinals := h.ordinals
  embedded := h.embedded

/-- A document that stays keeps its chunks. -/
theorem chunksOf_deleteDocuments {keep : DocumentRow → Bool} {d : DocumentRow}
    (hd : d ∈ db.documents) (hkeep : keep d = true) :
    (db.deleteDocuments keep).chunksOf d.id = db.chunksOf d.id := by
  change ((Rag.chunksOf db.documents keep db.chunks).filter fun ch => ch.documentId == d.id) = _
  rw [Rag.chunksOf, List.filter_filter, Database.chunksOf]
  refine List.filter_congr fun ch _ => ?_
  by_cases hid : ch.documentId = d.id
  · have hany : (db.documents.any fun d' => d'.id == ch.documentId && keep d') = true := by
      refine List.any_eq_true.mpr ⟨d, hd, ?_⟩
      rw [hkeep, Bool.and_true, beq_iff_eq, hid]
    rw [hany, Bool.and_true]
  · rw [beq_eq_false_iff_ne.mpr hid, Bool.false_and]

theorem Whole.deleteDocuments (h : db.Whole dim) (keep : DocumentRow → Bool) :
    (db.deleteDocuments keep).Whole dim where
  names := h.names
  dims := h.dims
  placed d hd := h.placed d (List.mem_of_mem_filter hd)
  ordinals d hd := by
    obtain ⟨hmem, hkeep⟩ := List.mem_filter.mp hd
    rw [chunksOf_deleteDocuments hmem hkeep]
    exact h.ordinals d hmem
  embedded ch hch := h.embedded ch (List.mem_of_mem_filter hch)

/-- **Cascade.**  What is left of a collection that is deleted: nothing, in three tables. -/
theorem Whole.deleteCollection (h : db.Whole dim) (name : String) :
    (db.deleteCollection name).Whole dim where
  names := h.names.sublist (List.filter_sublist.map _)
  dims c hc := h.dims c (List.mem_of_mem_filter hc)
  placed d hd := by
    obtain ⟨hmem, hkeep⟩ := List.mem_filter.mp hd
    obtain ⟨c, hc, hcname⟩ := h.placed d hmem
    refine ⟨c, List.mem_filter.mpr ⟨hc, ?_⟩, hcname⟩
    rwa [hcname]
  ordinals := (h.deleteDocuments fun d => !(d.collection == name)).ordinals
  embedded := (h.deleteDocuments fun d => !(d.collection == name)).embedded

theorem Whole.setSummary (h : db.Whole dim) (documentId stored : String) :
    (db.setSummary documentId stored).Whole dim where
  names := h.names
  dims := h.dims
  placed d hd := by
    obtain ⟨old, hold, rfl⟩ := List.mem_map.mp hd
    obtain ⟨c, hc, hcname⟩ := h.placed old hold
    exact ⟨c, hc, hcname.trans (DocumentRow.withSummary_keys documentId stored old).2.symm⟩
  ordinals d hd := by
    obtain ⟨old, hold, rfl⟩ := List.mem_map.mp hd
    have hsame : (db.setSummary documentId stored).chunksOf
        (old.withSummary documentId stored).id = db.chunksOf old.id := by
      rw [(DocumentRow.withSummary_keys documentId stored old).1]
      change (db.chunks.map id).filter _ = _
      rw [List.map_id]
      rfl
    rw [hsame]
    exact h.ordinals old hold
  embedded ch hch := by
    obtain ⟨old, hold, rfl⟩ := List.mem_map.mp hch
    exact h.embedded old hold

/-- The chunks of a document that was there are those it had. -/
theorem chunksOf_of_insert {db' : Database} {row : DocumentRow} {new : List SealedChunk}
    (hchunks : db'.chunks = db.chunks ++ new.map (StoredChunk.of row)) {documentId : String}
    (hne : row.id ≠ documentId) : db'.chunksOf documentId = db.chunksOf documentId := by
  rw [Database.chunksOf, hchunks, List.filter_append, Database.chunksOf]
  have hnone : (new.map (StoredChunk.of row)).filter (·.documentId == documentId) = [] := by
    refine List.filter_eq_nil_iff.mpr fun ch hch => ?_
    obtain ⟨sealed, -, rfl⟩ := List.mem_map.mp hch
    rw [beq_iff_eq]
    exact hne
  rw [hnone, List.append_nil]

/-- The chunks of a new document are the new ones. -/
theorem chunksOf_inserted {db' : Database} {row : DocumentRow} {new : List SealedChunk}
    (hchunks : db'.chunks = db.chunks ++ new.map (StoredChunk.of row))
    (hfresh : row.id ∉ db.documents.map (·.id)) :
    db'.chunksOf row.id = new.map (StoredChunk.of row) := by
  rw [Database.chunksOf, hchunks, List.filter_append]
  have hold : db.chunks.filter (·.documentId == row.id) = [] := by
    refine List.filter_eq_nil_iff.mpr fun ch hch hid => hfresh ?_
    obtain ⟨d, hd, hdid, -⟩ := db.owned ch hch
    rw [← beq_iff_eq.mp hid, ← hdid]
    exact List.mem_map_of_mem hd
  have hnew : (new.map (StoredChunk.of row)).filter (·.documentId == row.id) =
      new.map (StoredChunk.of row) := by
    refine List.filter_eq_self.mpr fun ch hch => ?_
    obtain ⟨sealed, -, rfl⟩ := List.mem_map.mp hch
    exact beq_iff_eq.mpr rfl
  rw [hold, hnew, List.nil_append]

theorem Whole.insert (h : db.Whole dim) {db' : Database} {row : DocumentRow}
    {new : List SealedChunk} (hcollections : db'.collections = db.collections)
    (hdocuments : db'.documents = db.documents ++ [row])
    (hchunks : db'.chunks = db.chunks ++ new.map (StoredChunk.of row))
    (hfresh : row.id ∉ db.documents.map (·.id))
    (hplaced : ∃ c ∈ db.collections, c.name = row.collection)
    (hordinals : new.map (·.ordinal) = List.range new.length)
    (hembedded : ∀ ch ∈ new, IsVec ch.embedding dim) : db'.Whole dim where
  names := hcollections ▸ h.names
  dims := hcollections ▸ h.dims
  placed d hd := by
    rw [hdocuments] at hd
    rw [hcollections]
    rcases List.mem_append.mp hd with hold | hnew
    · exact h.placed d hold
    · rw [List.mem_singleton.mp hnew]
      exact hplaced
  -- An older row keeps its chunks, since the new id is fresh; the new row has its own.
  ordinals d hd := by
    rw [hdocuments] at hd
    rcases List.mem_append.mp hd with hold | hnew
    · have hne : row.id ≠ d.id := by
        intro heq
        rw [heq] at hfresh
        exact hfresh (List.mem_map_of_mem hold)
      rw [chunksOf_of_insert hchunks hne]
      exact h.ordinals d hold
    · rw [List.mem_singleton.mp hnew, chunksOf_inserted hchunks hfresh, List.map_map,
        List.length_map]
      exact hordinals
  embedded ch hch := by
    rw [hchunks] at hch
    rcases List.mem_append.mp hch with hold | hnew
    · exact h.embedded ch hold
    · obtain ⟨sealed, hsealed, rfl⟩ := List.mem_map.mp hnew
      exact hembedded sealed hsealed

end Database

/-! ## Transactions -/

variable {X G F R}

/-- Chunks are numbered as they come, and their vectors are stored as they are. -/
theorem VectorStore.sealChunks_spec {dek : Option Dek} {env : InsertEnv} {ordinal : Nat}
    {rows : List ChunkRow} {new : List SealedChunk}
    (h : sealChunks G dek env ordinal rows = .ok new) :
    new.map (·.ordinal) = List.range' ordinal new.length ∧
      ∀ ch ∈ new, ∃ row ∈ rows, ch.embedding = vecToBlob row.embedding := by
  induction rows generalizing ordinal new with
  | nil =>
      obtain rfl := Except.ok.inj h
      exact ⟨rfl, fun ch hch => absurd hch List.not_mem_nil⟩
  | cons row rows ih =>
      obtain ⟨stored, rest, -, hrest, rfl⟩ := sealChunks_cons_eq_ok h
      obtain ⟨hordinals, hrows⟩ := ih hrest
      refine ⟨?_, fun ch hch => ?_⟩
      · rw [List.map_cons, hordinals, List.length_cons, List.range'_succ]
      · rcases List.mem_cons.mp hch with rfl | hch
        · exact ⟨row, List.mem_cons_self, rfl⟩
        · obtain ⟨old, hold, hemb⟩ := hrows ch hch
          exact ⟨old, List.mem_cons_of_mem _ hold, hemb⟩

namespace VectorStore

variable {s s' : VectorStore} {dim : Nat}

/-- `ensure_collection` changes nothing, or adds the collection. -/
theorem whole_of_ensureCollection (h : s.conn.Whole dim) {name model now : String}
    {refused : Option String} (hok : s.ensureCollection name model dim now refused = .ok s') :
    s'.conn.Whole dim := by
  unfold ensureCollection at hok
  cases hfind : s.conn.collections.find? (·.name == name) with
  | some row =>
      rw [hfind] at hok
      dsimp only at hok
      split at hok
      · cases hok
      · split at hok
        · cases hok
        · rw [← Except.ok.inj hok]
          exact h
  | none =>
      rw [hfind] at hok
      cases refused with
      | some e => cases hok
      | none =>
          rw [← Except.ok.inj hok]
          refine h.addCollection rfl fun hmem => ?_
          obtain ⟨c, hc, hname⟩ := List.mem_map.mp hmem
          exact List.find?_eq_none.mp hfind c hc (beq_iff_eq.mpr hname)

/-- A document is inserted into a collection that is there. -/
theorem insertDocument_collection {env : InsertEnv} {col source sha256 id : String}
    {chunks : List ChunkRow} {title author : Option String} {pageCount : Nat}
    (hok : s.insertDocument G env col source sha256 chunks title author pageCount =
      .ok (id, s')) :
    s'.conn.collections = s.conn.collections ∧ ∃ c ∈ s.conn.collections, c.name = col := by
  obtain ⟨-, hcol, new, conn, -, -, hinsert, rfl⟩ := insertDocument_eq_ok hok
  obtain ⟨c, hc, hname⟩ := List.any_eq_true.mp hcol
  obtain ⟨-, hcollections, -⟩ := Database.insert_eq_some hinsert
  exact ⟨hcollections, c, hc, beq_iff_eq.mp hname⟩

theorem whole_of_insertDocument (h : s.conn.Whole dim) {env : InsertEnv}
    {col source sha256 id : String} {rows : List ChunkRow}
    (hrows : ∀ row ∈ rows, row.embedding.length = dim) {title author : Option String}
    {pageCount : Nat}
    (hok : s.insertDocument G env col source sha256 rows title author pageCount =
      .ok (id, s')) : s'.conn.Whole dim := by
  obtain ⟨hcollections, c, hc, hname⟩ := insertDocument_collection hok
  obtain ⟨-, row, new, hadds, hseal⟩ := insertDocument_adds hok
  obtain ⟨hordinals, hvecs⟩ := sealChunks_spec hseal
  rw [← List.range_eq_range'] at hordinals
  refine h.insert hcollections hadds.documents hadds.chunks ?_ ?_ hordinals fun ch hch => ?_
  · rw [hadds.rowId]
    exact hadds.fresh
  · exact ⟨c, hc, hname.trans hadds.rowCollection.symm⟩
  · obtain ⟨chunk, hchunk, hemb⟩ := hvecs ch hch
    rw [hemb]
    exact isVec_vecToBlob (hrows chunk hchunk)

theorem whole_of_setSummary (h : s.conn.Whole dim) {nonce : ByteArr 12} {refused : Option String}
    {documentId summary : String}
    (hok : s.setSummary G nonce refused documentId summary = .ok s') : s'.conn.Whole dim := by
  rw [setSummary] at hok
  split at hok
  · cases hok
  · split at hok
    · cases hok
    · rw [← Except.ok.inj hok]
      exact h.setSummary documentId _

end VectorStore

theorem RagEngine.whole_summarizeNew {s : VectorStore} {dim : Nat} (h : s.conn.Whole dim)
    (env : IngestEnv) (documentId : String) (doc : DocumentContent)
    (summarizer : Option Summarizer) :
    (summarizeNew G s env documentId doc summarizer).2.conn.Whole dim := by
  cases summarizer with
  | none => exact h
  | some summarize =>
      rw [summarizeNew]
      cases summarize (String.ofList (doc.fullText.toList.take 8000)) with
      | error e => exact h
      | ok summary =>
          dsimp only
          cases hset : s.setSummary G env.summaryNonce env.summaryRefused documentId summary with
          | error e => exact h
          | ok store => exact VectorStore.whole_of_setSummary h hset

/-! ## Runs -/

/-- The vectors that wait to be stored have the length. -/
def Stage.Fits (dim : Nat) : Stage → Prop
  | .planned d rows => d = dim ∧ ∀ row ∈ rows, row.embedding.length = dim
  | .ensured rows => ∀ row ∈ rows, row.embedding.length = dim
  | .inserted _ => True

structure RagSystem.Fits (s : RagSystem) (dim : Nat) : Prop where
  embedder : s.engine.embedder.HasDim dim
  whole : s.engine.store.conn.Whole dim
  calls : ∀ i, ∀ call ∈ s.calls i, call.2.Fits dim

/-- What is planned has the dimension of the embedder. -/
theorem RagEngine.chunkRows_fits {e : RagEngine} {source : String} {doc : DocumentContent}
    {d dim : Nat} {rows : List ChunkRow} (hem : e.embedder.HasDim dim)
    (h : e.chunkRows X F R source doc = .ok (d, rows)) : (Stage.planned d rows).Fits dim := by
  rw [chunkRows] at h
  dsimp only at h
  split at h
  · cases h
  · cases hembed : e.embedder.embed ((R.chunkDocument doc source e.config.chunkSize
        e.config.chunkOverlap).map (·.text)) with
    | error err =>
        rw [hembed] at h
        cases h
    | ok embeddings =>
        rw [hembed] at h
        dsimp only at h
        split at h
        · cases h
        · split at h
          · cases h
          · next hlen hdim =>
              obtain ⟨rfl, rfl⟩ := Prod.mk.inj (Except.ok.inj h)
              have hall := hem _ embeddings hembed
              refine ⟨?_, fun row hrow => ?_⟩
              · cases embeddings with
                | nil => exact absurd rfl hdim
                | cons v vs => exact hall v List.mem_cons_self
              · rw [← List.map_uncurry_zip_eq_zipWith] at hrow
                obtain ⟨⟨rc, emb⟩, hmem, rfl⟩ := List.mem_map.mp hrow
                exact (F.length_normalize emb).trans (hall emb (List.of_mem_zip hmem).2)

namespace RagSystem

variable {s s' : RagSystem} {dim : Nat}

theorem Fits.withStore (h : s.Fits dim) {store : VectorStore} (hstore : store.conn.Whole dim) :
    (s.withStore store).Fits dim :=
  ⟨h.embedder, hstore, h.calls⟩

theorem Fits.setCall (h : s.Fits dim) (i : Nat) {o : Option (IngestCall × Stage)}
    (ho : ∀ call ∈ o, call.2.Fits dim) : (s.setCall i o).Fits dim :=
  ⟨h.embedder, h.whole,
    Run.forall_update (P := fun o : Option (IngestCall × Stage) => ∀ call ∈ o, call.2.Fits dim)
      h.calls ho⟩

/-- Nothing is left of an ingest that ends. -/
theorem Fits.endCall (h : s.Fits dim) (i : Nat) : (s.setCall i none).Fits dim :=
  h.setCall i fun call hcall => by cases hcall

/-- **One transaction** of an ingest. -/
theorem Fits.advance (h : s.Fits dim) {i : Nat} {call : IngestCall} {stage : Stage}
    (hstage : stage.Fits dim) : (s.advance X G i call stage).Fits dim := by
  -- By the transaction that comes next; a failing one ends the call and keeps the rows.
  cases stage with
  | planned d rows =>
      unfold RagSystem.advance
      dsimp only
      cases hensure : s.engine.store.ensureCollection call.collection
          s.engine.embedder.modelLabel d call.env.now call.env.collectionRefused with
      | error e => exact h.endCall i
      | ok store =>
          obtain ⟨rfl, hrows⟩ := hstage
          refine (h.withStore (VectorStore.whole_of_ensureCollection h.whole hensure)).setCall i ?_
          intro call' hcall'
          rw [← Option.some.inj hcall']
          exact hrows
  | ensured rows =>
      unfold RagSystem.advance
      dsimp only
      cases hinsert : s.engine.store.insertDocument G call.env.toInsertEnv call.collection
          call.source (X.sha256 (Text.encode call.doc.fullText.toList)) rows call.doc.title
          call.doc.author call.doc.pageCount with
      | error e => exact h.endCall i
      | ok out =>
          obtain ⟨documentId, store⟩ := out
          have hwhole := VectorStore.whole_of_insertDocument h.whole hstage hinsert
          refine (h.withStore hwhole).setCall i ?_
          intro call' hcall'
          rw [← Option.some.inj hcall']
          exact True.intro
  | inserted documentId =>
      exact (h.withStore (RagEngine.whole_summarizeNew h.whole call.env documentId call.doc
        call.summarizer)).endCall i

/-- **One step.** -/
theorem Fits.step (h : s.Fits dim) {op : RagOp}
    (hstep : s.step X G F R op = some s') : s'.Fits dim := by
  -- Each step keeps the rows in order, and each call in flight keeps what it planned.
  cases op with
  | start i call =>
      unfold RagSystem.step at hstep
      dsimp only at hstep
      cases hcall : s.calls i with
      | some busy =>
          rw [hcall] at hstep
          cases hstep
      | none =>
          rw [hcall] at hstep
          dsimp only at hstep
          -- The chunks are planned before the first transaction, so a failure touches no row.
          cases hrows : s.engine.chunkRows X F R call.source call.doc with
          | error e =>
              rw [hrows] at hstep
              rw [← Option.some.inj hstep]
              exact h
          | ok planned =>
              obtain ⟨d, rows⟩ := planned
              rw [hrows] at hstep
              rw [← Option.some.inj hstep]
              refine h.setCall i fun call' hcall' => ?_
              rw [← Option.some.inj hcall']
              exact RagEngine.chunkRows_fits h.embedder hrows
  | advance i =>
      obtain ⟨⟨call, stage⟩, hcall, rfl⟩ := Option.map_eq_some_iff.mp hstep
      exact h.advance (h.calls i _ hcall)
  | deleteDocument documentId =>
      rw [← Option.some.inj hstep]
      exact h.withStore (h.whole.deleteDocuments _)
  | deleteCollection name =>
      rw [← Option.some.inj hstep]
      exact h.withStore (h.whole.deleteCollection name)
  | setSummary nonce refused documentId summary =>
      unfold RagSystem.step at hstep
      dsimp only at hstep
      cases hset : s.engine.store.setSummary G nonce refused documentId summary with
      | error e =>
          rw [hset] at hstep
          rw [← Option.some.inj hstep]
          exact h
      | ok store =>
          rw [hset] at hstep
          rw [← Option.some.inj hstep]
          exact h.withStore (VectorStore.whole_of_setSummary h.whole hset)

end RagSystem

/-! ## What fits is sound -/

/-- Of properties that no element has both of, both counts together. -/
theorem countP_or_of_disjoint {α : Type} {p q : α → Bool} {l : List α}
    (h : ∀ a ∈ l, p a = true → q a = false) :
    (l.countP fun a => p a || q a) = l.countP p + l.countP q := by
  induction l with
  | nil => rfl
  | cons a l ih =>
      have hrest := ih fun b hb => h b (List.mem_cons_of_mem a hb)
      have ha := h a List.mem_cons_self
      rw [List.countP_cons, List.countP_cons, List.countP_cons, hrest]
      cases hp : p a with
      | false =>
          rw [Bool.false_or, if_neg Bool.false_ne_true]
          omega
      | true =>
          rw [ha hp, Bool.true_or, if_pos rfl, if_neg Bool.false_ne_true]
          omega

/-- The chunks of some documents, counted document by document. -/
theorem Database.length_flatMap_chunksOf (db : Database) {documents : List DocumentRow}
    (hids : (documents.map (·.id)).Nodup) :
    (documents.flatMap fun d => db.chunksOf d.id).length =
      db.chunks.countP fun ch => documents.any fun d => d.id == ch.documentId := by
  induction documents with
  | nil =>
      rw [List.flatMap_nil, List.length_nil]
      exact (List.countP_eq_zero.mpr fun ch _ => Bool.false_ne_true).symm
  | cons d documents ih =>
      rw [List.map_cons, List.nodup_cons] at hids
      have hsplit : (fun ch : StoredChunk => (d :: documents).any fun d => d.id == ch.documentId) =
          fun ch => ch.documentId == d.id || documents.any fun d => d.id == ch.documentId := by
        funext ch
        rw [List.any_cons, Bool.beq_comm]
      rw [List.flatMap_cons, List.length_append, ih hids.2, hsplit, countP_or_of_disjoint,
        Database.chunksOf, ← List.countP_eq_length_filter]
      intro ch _ hown
      rw [List.any_eq_false]
      intro d' hd' hid
      rw [beq_iff_eq] at hown hid
      exact hids.1 (List.mem_map.mpr ⟨d', hd', hid.trans hown⟩)

/-- A chunk is in a collection when its document is. -/
theorem Database.any_document_iff (db : Database) (name : String) {ch : StoredChunk}
    (hch : ch ∈ db.chunks) :
    ((db.documents.filter (·.collection == name)).any fun d => d.id == ch.documentId) = true ↔
      (ch.collection == name) = true := by
  obtain ⟨d, hd, hid, hcol⟩ := db.owned ch hch
  rw [List.any_eq_true, beq_iff_eq]
  constructor
  · rintro ⟨d', hmem, hid'⟩
    obtain ⟨hd', hname⟩ := List.mem_filter.mp hmem
    obtain rfl := eq_of_id db.ids hd hd' (hid.trans (beq_iff_eq.mp hid').symm)
    rw [← hcol, ← beq_iff_eq]
    exact hname
  · intro hname
    refine ⟨d, List.mem_filter.mpr ⟨hd, ?_⟩, beq_iff_eq.mpr hid⟩
    rw [beq_iff_eq, hcol, hname]

theorem RagEngine.embedOne_length {em : Embedder} {dim : Nat} (hem : em.HasDim dim)
    {text : String} {v : Embedding} (h : em.embedOne text = .ok v) : v.length = dim := by
  rw [Embedder.embedOne] at h
  cases hembed : em.embed [text] with
  | error e =>
      rw [hembed] at h
      cases h
  | ok out =>
      rw [hembed] at h
      dsimp only at h
      cases hlast : out.getLast? with
      | none =>
          rw [hlast] at h
          cases h
      | some last =>
          rw [hlast] at h
          rw [← Except.ok.inj h]
          exact hem _ out hembed last (List.mem_of_getLast? hlast)

/-- The listing counts what the documents of a collection have. -/
theorem VectorStore.listCollections_perm (s : VectorStore) :
    s.listCollections.Perm (s.conn.collections.map s.conn.infoOf) := by
  have hinfo : s.conn.infoOf = fun row =>
      { name := row.name
        embeddingModel := row.embeddingModel
        dim := row.dim
        documents := s.conn.documents.countP (·.collection == row.name)
        chunks := s.conn.chunks.countP (·.collection == row.name) } := by
    funext row
    rw [Database.infoOf, ← List.countP_eq_length_filter,
      Database.length_flatMap_chunksOf _ (ids_filter s.conn.ids _)]
    congr 1
    exact List.countP_congr fun ch hch => s.conn.any_document_iff row.name hch
  rw [VectorStore.listCollections, hinfo]
  exact (List.mergeSort_perm _ _).map _

/-- No chunk is lost by the join: the document of each is there. -/
theorem VectorStore.isJoin_joined (s : VectorStore) (col : String) :
    s.conn.IsJoin col (s.joined col) := by
  refine ⟨?_, fun row hrow => (VectorStore.mem_joined hrow).2⟩
  rw [VectorStore.joined, List.map_filterMap]
  refine (List.filterMap_congr fun ch hch => ?_).trans List.filterMap_some
  obtain ⟨d, hd, hid, -⟩ := s.conn.owned ch (List.mem_of_mem_filter hch)
  have hfind : (s.conn.documents.find? (·.id == ch.documentId)).isSome = true :=
    List.find?_isSome.mpr ⟨d, hd, beq_iff_eq.mpr hid⟩
  obtain ⟨d', hd'⟩ := Option.isSome_iff_exists.mp hfind
  rw [hd']
  rfl

/-- Where every vector has the length of the query, only scores decide. -/
theorem VectorStore.search_of_isVec {s : VectorStore} {q : Embedding}
    (h : ∀ ch ∈ s.conn.chunks, IsVec ch.embedding q.length) (col : String) (k : Nat)
    (m : F32Bits) :
    s.search G F col q k m = .ok (TopK.topK (fun a b => F.totalGe a.score b.score) k
      (((s.joined col).map (hitOf G F s.dek q)).filter fun hit => F.ge hit.score m)) := by
  have hvec : ∀ row ∈ s.joined col, row.1.embedding.length % 4 = 0 ∧
      (floatsOf row.1.embedding).length = q.length := by
    intro row hrow
    obtain ⟨emb, hemb, hlen⟩ := h row.1 (VectorStore.mem_joined hrow).1
    rw [blobToVec] at hemb
    split at hemb
    · cases hemb
    · next hblob =>
        rw [← hlen, ← Except.ok.inj hemb]
        exact ⟨not_not.mp hblob, rfl⟩
  have hmatch : (s.joined col).filter (fun row => Matches F q m row) =
      (s.joined col).filter ((fun hit => F.ge hit.score m) ∘ hitOf G F s.dek q) := by
    refine List.filter_congr fun row hrow => ?_
    rw [Bool.eq_iff_iff, decide_eq_true_iff]
    exact and_iff_right (hvec row hrow).2
  rw [search, scoreRows_of_blobs fun row hrow => (hvec row hrow).1, List.filter_map, hmatch]
  rfl

theorem RagSystem.Fits.sound {s : RagSystem} {dim : Nat} (h : s.Fits dim) :
    s.engine.Sound G F := by
  have hcompared : ∀ text v, s.engine.embedder.embedOne text = .ok v →
      ∀ ch ∈ s.engine.store.conn.chunks, IsVec ch.embedding (F.normalize v).length := by
    intro text v hv ch hch
    rw [F.length_normalize, RagEngine.embedOne_length h.embedder hv]
    exact h.whole.embedded ch hch
  refine ⟨fun ch hch => ?_, h.whole.ordinals, h.whole.names,
    s.engine.store.listCollections_perm, hcompared, fun text v hv col =>
      ⟨_, s.engine.store.isJoin_joined col, fun k m =>
        VectorStore.search_of_isVec (hcompared text v hv) col k m⟩⟩
  obtain ⟨d, hd, hid, hcol⟩ := s.engine.store.conn.owned ch hch
  obtain ⟨c, hc, hname⟩ := h.whole.placed d hd
  refine ⟨⟨d, hd, hid, hcol⟩, c, hc, hname.trans hcol, ?_⟩
  rw [h.whole.dims c hc]
  exact h.whole.embedded ch hch

/-- An engine over an empty store, before any ingest. -/
def RagSystem.initial (dek : Option Dek) (embedder : Embedder) (config : RagConfig) :
    RagSystem where
  engine := ⟨⟨.empty, dek⟩, embedder, config⟩
  calls _ := none

theorem RagSystem.fits_initial {dek : Option Dek} {embedder : Embedder} {config : RagConfig}
    {dim : Nat} (h : embedder.HasDim dim) : (initial dek embedder config).Fits dim :=
  ⟨h, Database.whole_empty dim, fun _ _ hcall => by cases hcall⟩

/-- **Every interleaving.**  With an embedder of one dimension, the store is sound in every
    state that ingests, deletions and summaries reach, whichever of them fail. -/
theorem sound_of_run {dek : Option Dek} {embedder : Embedder} {config : RagConfig} {dim : Nat}
    (hembedder : embedder.HasDim dim) (ops : List RagOp) {t : RagSystem}
    (h : Run.run (RagSystem.step X G F R) (.initial dek embedder config) ops = some t) :
    t.engine.Sound G F :=
  (Run.invariant_of_run (I := fun s : RagSystem => s.Fits dim)
    (fun _ _ _ hs hstep => hs.step hstep) (RagSystem.fits_initial hembedder) h).sound

/-! ## An ingest that nothing comes between -/

namespace RagSystem

variable {s t : RagSystem} {i : Nat} {call : IngestCall}

theorem run_advance {stage : Stage} (h : t.calls i = some (call, stage)) (n : Nat) :
    Run.run (step X G F R) t (List.replicate (n + 1) (.advance i)) =
      Run.run (step X G F R) (t.advance X G i call stage) (List.replicate n (.advance i)) := by
  refine Run.run_cons ?_ _
  unfold step
  dsimp only
  rw [h, Option.map_some]

/-- A call that ends leaves the store, and the other calls. -/
theorem setCall_none (hnone : s.calls i = none) {store : VectorStore}
    (hengine : t.engine = { s.engine with store })
    (hcalls : ∀ j, j ≠ i → t.calls j = s.calls j) : t.setCall i none = s.withStore store := by
  have hsame : Function.update t.calls i none = s.calls := by
    funext j
    by_cases hj : j = i
    · rw [hj, Function.update_self, hnone]
    · rw [Function.update_of_ne hj, hcalls j hj]
  rw [setCall, hsame, hengine]
  rfl

theorem calls_setCall_of_ne (s : RagSystem) (o : Option (IngestCall × Stage)) {j : Nat}
    (hj : j ≠ i) : (s.setCall i o).calls j = s.calls j :=
  Function.update_of_ne hj _ _

theorem calls_setCall_self (s : RagSystem) (i : Nat) (o : Option (IngestCall × Stage)) :
    (s.setCall i o).calls i = o :=
  Function.update_self _ _ _

end RagSystem

/-- **In one piece.**  An ingest whose transactions follow one another does what
    `ingest_document` does. -/
theorem run_ingest (s : RagSystem) {i : Nat} (h : s.calls i = none) (call : IngestCall) :
    ∃ n, n ≤ 3 ∧
      Run.run (RagSystem.step X G F R) s (.start i call :: List.replicate n (.advance i)) =
        some (s.withStore (s.engine.ingestDocument X G F R call.env call.collection call.source
          call.doc call.summarizer).1.store) := by
  unfold RagEngine.ingestDocument
  -- The call alone: the chunks, then up to three transactions.
  cases hrows : s.engine.chunkRows X F R call.source call.doc with
  | error e =>
      have hstart : s.step X G F R (.start i call) = some s := by
        unfold RagSystem.step
        dsimp only
        rw [h, hrows]
      refine ⟨0, Nat.zero_le 3, ?_⟩
      rw [Run.run_cons hstart]
      rfl
  | ok planned =>
      obtain ⟨dim, rows⟩ := planned
      have hstart : s.step X G F R (.start i call) =
          some (s.setCall i (some (call, .planned dim rows))) := by
        unfold RagSystem.step
        dsimp only
        rw [h, hrows]
      -- The call is in flight now, and the others are where they were.
      have hplanned := s.calls_setCall_self i (some (call, .planned dim rows))
      have hothers := fun j (hj : j ≠ i) =>
        s.calls_setCall_of_ne (some (call, .planned dim rows)) hj
      generalize hs₁ : s.setCall i (some (call, .planned dim rows)) = s₁ at *
      have hengine : s₁.engine = s.engine := by rw [← hs₁]; rfl
      have hfirst := RagSystem.run_advance (X := X) (G := G) (F := F) (R := R) hplanned
      unfold RagSystem.advance at hfirst
      unfold RagEngine.storeDocument
      dsimp only at hfirst ⊢
      rw [hengine] at hfirst
      -- The first transaction makes the collection, if it is not there.
      cases hensure : s.engine.store.ensureCollection call.collection
          s.engine.embedder.modelLabel dim call.env.now call.env.collectionRefused with
      | error e =>
          rw [hensure] at hfirst
          refine ⟨1, by omega, ?_⟩
          rw [Run.run_cons hstart, hfirst 0]
          exact congrArg some (RagSystem.setCall_none h hengine hothers)
      | ok store =>
          rw [hensure] at hfirst
          dsimp only at hfirst
          have hensured := (s₁.withStore store).calls_setCall_self i (some (call, .ensured rows))
          have hothers₂ : ∀ j, j ≠ i →
              ((s₁.withStore store).setCall i (some (call, .ensured rows))).calls j = s.calls j :=
            fun j hj => ((s₁.withStore store).calls_setCall_of_ne _ hj).trans (hothers j hj)
          have hengine₂ : ((s₁.withStore store).setCall i (some (call, .ensured rows))).engine =
              { s.engine with store } := by
            rw [← hengine]
            rfl
          generalize (s₁.withStore store).setCall i (some (call, .ensured rows)) = s₂ at *
          have hsecond := RagSystem.run_advance (X := X) (G := G) (F := F) (R := R) hensured
          unfold RagSystem.advance at hsecond
          dsimp only at hsecond ⊢
          rw [hengine₂] at hsecond
          dsimp only at hsecond
          -- The second writes the document and its chunks.
          cases hinsert : store.insertDocument G call.env.toInsertEnv call.collection call.source
              (X.sha256 (Text.encode call.doc.fullText.toList)) rows call.doc.title
              call.doc.author call.doc.pageCount with
          | error e =>
              rw [hinsert] at hsecond
              refine ⟨2, by omega, ?_⟩
              rw [Run.run_cons hstart, hfirst 1, hsecond 0]
              exact congrArg some (RagSystem.setCall_none h hengine₂ hothers₂)
          | ok out =>
              obtain ⟨documentId, store'⟩ := out
              rw [hinsert] at hsecond
              dsimp only at hsecond
              -- The third writes the summary.
              have hinserted :=
                (s₂.withStore store').calls_setCall_self i (some (call, .inserted documentId))
              have hthird := RagSystem.run_advance (X := X) (G := G) (F := F) (R := R) hinserted
              refine ⟨3, by omega, ?_⟩
              rw [Run.run_cons hstart, hfirst 2, hsecond 1, hthird 0]
              refine congrArg some (RagSystem.setCall_none h ?_ fun j hj => ?_)
              · change ({ s₂.engine with store := (RagEngine.summarizeNew G store' call.env
                  documentId call.doc call.summarizer).2 } : RagEngine) = _
                rw [hengine₂]
              · exact ((s₂.withStore store').calls_setCall_of_ne _ hj).trans (hothers₂ j hj)

/-! ## A run -/

/-- Every text is the vector `[1.0]`. -/
def oneEmbedder : Embedder where
  modelLabel := "nomic-embed-text:latest"
  embed texts := .ok (texts.map fun _ => [0x3F800000])

/-- Every text is one chunk. -/
def plainReaders : Readers where
  extract bytes _ := .ok (.fromPlain (String.ofList ((Text.decode bytes).getD [])))
  chunkDocument doc _ _ _ := [⟨doc.fullText, 1, none⟩]

theorem hasDim_oneEmbedder : oneEmbedder.HasDim 1 := by
  intro texts out h v hv
  rw [← Except.ok.inj h] at hv
  obtain ⟨text, -, rfl⟩ := List.mem_map.mp hv
  rfl

def plainIngest (docId : String) : IngestCall where
  env :=
    { docId
      chunkId _ := docId
      nonce _ := ⟨List.replicate 12 1, rfl⟩
      now := "2025-03-12T14:22:01Z"
      refused := none
      collectionRefused := none
      summaryNonce := ⟨List.replicate 12 1, rfl⟩
      summaryRefused := none }
  collection := "records"
  source := "visit.txt"
  doc := .fromPlain "diagnosis: influenza"
  summarizer := none

def plainSystem : RagSystem := .initial none oneEmbedder ⟨"default", 512, 64, 4, 0⟩

/-- The first ingest into an empty store. -/
theorem run_ingest_plain :
    ∃ n, n ≤ 3 ∧ Run.run (RagSystem.step External.sample Aead.sample Floats.sample plainReaders)
        plainSystem (.start 0 (plainIngest "a") :: List.replicate n (.advance 0)) =
      some (plainSystem.withStore (plainSystem.engine.ingestDocument External.sample Aead.sample
        Floats.sample plainReaders (plainIngest "a").env "records" "visit.txt"
        (.fromPlain "diagnosis: influenza") none).1.store) :=
  run_ingest plainSystem rfl (plainIngest "a")

/-- The collection is deleted under an ingest, and made again by another one before the first
    goes on. -/
def recreated : List RagOp :=
  [.start 0 (plainIngest "a"), .advance 0, .deleteCollection "records", .start 1 (plainIngest "b"),
    .advance 1, .advance 0, .advance 1, .deleteDocument "b"]

theorem sound_recreated :
    ∃ t, Run.run (RagSystem.step External.sample Aead.sample Floats.sample plainReaders)
        (.initial none oneEmbedder ⟨"default", 512, 64, 4, 0⟩) recreated = some t ∧
      t.engine.Sound Aead.sample Floats.sample := by
  have hsome : (Run.run (RagSystem.step External.sample Aead.sample Floats.sample plainReaders)
      (.initial none oneEmbedder ⟨"default", 512, 64, 4, 0⟩) recreated).isSome = true := by
    decide +kernel
  obtain ⟨t, ht⟩ := Option.isSome_iff_exists.mp hsome
  exact ⟨t, ht, sound_of_run hasDim_oneEmbedder recreated ht⟩

end Maranode.Rag
