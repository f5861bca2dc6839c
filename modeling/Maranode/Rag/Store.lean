/-
  Maranode.Rag.Store

  `store.rs`: the collections, documents and chunks of the RAG store in SQLite, and a
  vector store over them that may hold a key.

  A float is its bits, and what the processor makes of floats is left open (`Floats`).
-/
import Maranode.Rag.Crypt
import Mathlib.Data.List.Nodup

namespace Maranode.Rag

open Lib Store

/-! ## Rows -/

structure CollectionRow where
  name : String
  embeddingModel : String
  dim : Nat
  createdAt : String

/-- A row of `rag_documents`; the summary is stored as `crypt.rs` leaves it. -/
structure DocumentRow where
  id : String
  collection : String
  source : String
  sha256 : String
  ingestedAt : String
  title : Option String
  author : Option String
  pageCount : Nat
  summary : Option String
  deriving DecidableEq

/-- The columns of `rag_chunks` that say nothing of the document; the text is stored as
    `crypt.rs` leaves it. -/
structure SealedChunk where
  id : String
  ordinal : Nat
  text : String
  embedding : Bytes
  pageNumber : Nat
  section_ : Option String
  contentHash : String
  deriving DecidableEq

/-- A row of `rag_chunks`. -/
structure StoredChunk extends SealedChunk where
  documentId : String
  collection : String
  deriving DecidableEq

/-- Every chunk is of a document, and of the collection of its document. -/
def Owned (documents : List DocumentRow) (chunks : List StoredChunk) : Prop :=
  ∀ ch ∈ chunks, ∃ d ∈ documents, d.id = ch.documentId ∧ d.collection = ch.collection

/-- `rag.db`: ids are primary keys, and the foreign key of a chunk holds. -/
@[ext] structure Database where
  collections : List CollectionRow
  documents : List DocumentRow
  chunks : List StoredChunk
  ids : (documents.map (·.id)).Nodup
  owned : Owned documents chunks

theorem owned_nil (documents : List DocumentRow) : Owned documents [] := nofun

def Database.empty : Database where
  collections := []
  documents := []
  chunks := []
  ids := .nil
  owned := owned_nil []

/-- Rewriting rows without touching what they are found by. -/
theorem owned_map {documents : List DocumentRow} {chunks : List StoredChunk}
    (h : Owned documents chunks) {f : DocumentRow → DocumentRow} {g : StoredChunk → StoredChunk}
    (hf : ∀ d, (f d).id = d.id ∧ (f d).collection = d.collection)
    (hg : ∀ ch, (g ch).documentId = ch.documentId ∧ (g ch).collection = ch.collection) :
    Owned (documents.map f) (chunks.map g) := by
  intro ch hch
  obtain ⟨old, hold, rfl⟩ := List.mem_map.mp hch
  obtain ⟨d, hd, hid, hcol⟩ := h old hold
  refine ⟨f d, List.mem_map_of_mem hd, ?_, ?_⟩
  · rw [(hf d).1, (hg old).1, hid]
  · rw [(hf d).2, (hg old).2, hcol]

theorem ids_map {documents : List DocumentRow} (h : (documents.map (·.id)).Nodup)
    {f : DocumentRow → DocumentRow} (hf : ∀ d, (f d).id = d.id) :
    ((documents.map f).map (·.id)).Nodup := by
  have hkeep : (fun d : DocumentRow => d.id) ∘ f = fun d => d.id := funext hf
  rw [List.map_map, hkeep]
  exact h

/-- `UPDATE` of columns that are no keys. -/
def Database.update (db : Database) (f : DocumentRow → DocumentRow)
    (g : StoredChunk → StoredChunk) (hf : ∀ d, (f d).id = d.id ∧ (f d).collection = d.collection)
    (hg : ∀ ch, (g ch).documentId = ch.documentId ∧ (g ch).collection = ch.collection) :
    Database where
  collections := db.collections
  documents := db.documents.map f
  chunks := db.chunks.map g
  ids := ids_map db.ids fun d => (hf d).1
  owned := owned_map db.owned hf hg

theorem eq_of_id {documents : List DocumentRow} (h : (documents.map (·.id)).Nodup)
    {d d' : DocumentRow} (hd : d ∈ documents) (hd' : d' ∈ documents) (hid : d.id = d'.id) :
    d = d' := List.inj_on_of_nodup_map h hd hd' hid

/-- The chunks whose document stays. -/
def chunksOf (documents : List DocumentRow) (keep : DocumentRow → Bool)
    (chunks : List StoredChunk) : List StoredChunk :=
  chunks.filter fun ch => documents.any fun d => d.id == ch.documentId && keep d

theorem owned_filter {documents : List DocumentRow} {chunks : List StoredChunk}
    (hids : (documents.map (·.id)).Nodup) (h : Owned documents chunks)
    (keep : DocumentRow → Bool) :
    Owned (documents.filter keep) (chunksOf documents keep chunks) := by
  intro ch hch
  obtain ⟨hmem, hany⟩ := List.mem_filter.mp hch
  obtain ⟨d, hd, hkeep⟩ := List.any_eq_true.mp hany
  simp only [Bool.and_eq_true, beq_iff_eq] at hkeep
  obtain ⟨d', hd', hid, hcol⟩ := h ch hmem
  obtain rfl := eq_of_id hids hd hd' (hkeep.1.trans hid.symm)
  exact ⟨d, List.mem_filter.mpr ⟨hd, hkeep.2⟩, hid, hcol⟩

theorem ids_filter {documents : List DocumentRow} (h : (documents.map (·.id)).Nodup)
    (keep : DocumentRow → Bool) : ((documents.filter keep).map (·.id)).Nodup :=
  h.sublist (List.filter_sublist.map _)

/-- `DELETE FROM rag_documents`, with the chunks of what is deleted. -/
def Database.deleteDocuments (db : Database) (keep : DocumentRow → Bool) : Database where
  collections := db.collections
  documents := db.documents.filter keep
  chunks := chunksOf db.documents keep db.chunks
  ids := ids_filter db.ids keep
  owned := owned_filter db.ids db.owned keep

/-- `DELETE FROM rag_collections`, with the documents of what is deleted. -/
def Database.deleteCollection (db : Database) (name : String) : Database :=
  { db.deleteDocuments fun d => !(d.collection == name) with
    collections := db.collections.filter fun c => !(c.name == name) }

/-- A chunk of a document. -/
def StoredChunk.of (d : DocumentRow) (ch : SealedChunk) : StoredChunk :=
  { ch with documentId := d.id, collection := d.collection }

theorem owned_insert {documents : List DocumentRow} {chunks : List StoredChunk}
    (h : Owned documents chunks) (d : DocumentRow) (new : List SealedChunk) :
    Owned (documents ++ [d]) (chunks ++ new.map (StoredChunk.of d)) := by
  intro ch hch
  rcases List.mem_append.mp hch with hold | hadded
  · obtain ⟨d', hd', hown⟩ := h ch hold
    exact ⟨d', List.mem_append_left _ hd', hown⟩
  · obtain ⟨_, -, rfl⟩ := List.mem_map.mp hadded
    exact ⟨d, List.mem_append_right _ (List.mem_singleton_self d), rfl, rfl⟩

theorem ids_insert {documents : List DocumentRow} (h : (documents.map (·.id)).Nodup)
    {d : DocumentRow} (hd : d.id ∉ documents.map (·.id)) :
    ((documents ++ [d]).map (·.id)).Nodup := by
  rw [List.map_append, List.map_singleton]
  exact List.nodup_append.mpr ⟨h, List.nodup_singleton _,
    fun _ ha _ hb heq => hd (List.mem_singleton.mp hb ▸ heq ▸ ha)⟩

/-- The `INSERT`s of a document and its chunks, in one transaction: the id has to be new. -/
def Database.insert (db : Database) (d : DocumentRow) (new : List SealedChunk) :
    Option Database :=
  if hd : d.id ∉ db.documents.map (·.id) then
    some
      { collections := db.collections
        documents := db.documents ++ [d]
        chunks := db.chunks ++ new.map (StoredChunk.of d)
        ids := ids_insert db.ids hd
        owned := owned_insert db.owned d new }
  else none

/-- `UPDATE rag_documents SET summary = .. WHERE id = ..`, row by row. -/
def DocumentRow.withSummary (documentId stored : String) (d : DocumentRow) : DocumentRow :=
  if d.id = documentId then { d with summary := some stored } else d

theorem DocumentRow.withSummary_keys (documentId stored : String) (d : DocumentRow) :
    (d.withSummary documentId stored).id = d.id ∧
      (d.withSummary documentId stored).collection = d.collection := by
  rw [DocumentRow.withSummary]
  split
  · exact ⟨rfl, rfl⟩
  · exact ⟨rfl, rfl⟩

def Database.setSummary (db : Database) (documentId stored : String) : Database :=
  db.update (.withSummary documentId stored) id (DocumentRow.withSummary_keys documentId stored)
    fun _ => ⟨rfl, rfl⟩

def Database.addCollection (db : Database) (row : CollectionRow) : Database :=
  { db with collections := db.collections ++ [row] }

/-! ## The vector store -/

/-- `f32`, as its bits. -/
abbrev F32Bits := UInt32

/-- `Vec<f32>`. -/
abbrev Embedding := List F32Bits

/-- `vec_to_blob`: four bytes for each, the lowest first. -/
def vecToBlob (v : Embedding) : Bytes :=
  v.flatMap fun x : F32Bits =>
    [x.toUInt8, (x >>> 8).toUInt8, (x >>> 16).toUInt8, (x >>> 24).toUInt8]

def floatsOf : Bytes → Embedding
  | b₀ :: b₁ :: b₂ :: b₃ :: bs =>
      (b₀.toUInt32 ||| b₁.toUInt32 <<< 8 ||| b₂.toUInt32 <<< 16 ||| b₃.toUInt32 <<< 24) ::
        floatsOf bs
  | _ => []

def blobToVec (b : Bytes) : Except String Embedding :=
  if b.length % 4 ≠ 0 then .error s!"embedding blob length {b.length} is not a multiple of 4"
  else .ok (floatsOf b)

/-- The arithmetic of floats, and their comparisons.  `Iterator::sum` starts from `zero`;
    `totalGe` is the order of `total_cmp`, `partialGe` that of `partial_cmp` with the rest
    equal. -/
structure Floats where
  zero : F32Bits
  add : F32Bits → F32Bits → F32Bits
  mul : F32Bits → F32Bits → F32Bits
  div : F32Bits → F32Bits → F32Bits
  sqrt : F32Bits → F32Bits
  gt : F32Bits → F32Bits → Bool
  ge : F32Bits → F32Bits → Bool
  totalGe : F32Bits → F32Bits → Bool
  partialGe : F32Bits → F32Bits → Bool

/-- `f32::EPSILON`. -/
def epsilon : F32Bits := 0x34000000

namespace Floats

def sum (F : Floats) (v : Embedding) : F32Bits := v.foldl F.add F.zero

def normalize (F : Floats) (v : Embedding) : Embedding :=
  let norm := F.sqrt (F.sum (v.map fun x => F.mul x x))
  if F.gt norm epsilon then v.map fun x => F.div x norm else v

def dot (F : Floats) (a b : Embedding) : F32Bits := F.sum (a.zipWith F.mul b)

@[simp] theorem length_normalize (F : Floats) (v : Embedding) :
    (F.normalize v).length = v.length := by
  rw [normalize]
  split
  · exact List.length_map _
  · rfl

/-- Exact for positive floats, where one of two operands is 0.0 or 1.0. -/
def sample : Floats where
  zero := 0
  add a b := if a = 0 then b else a
  mul a b := if a = 0x3F800000 then b else if b = 0x3F800000 then a else 0
  div a _ := a
  sqrt a := a
  gt a b := decide (b < a)
  ge a b := decide (b ≤ a)
  totalGe a b := decide (b ≤ a)
  partialGe a b := decide (b ≤ a)

end Floats

variable (G : Aead) (F : Floats)

structure CollectionInfo where
  name : String
  embeddingModel : String
  dim : Nat
  documents : Nat
  chunks : Nat

structure DocumentInfo where
  id : String
  collection : String
  source : String
  sha256 : String
  chunks : Nat
  ingestedAt : String
  title : Option String
  author : Option String
  pageCount : Nat
  summary : Option String

structure ScoredChunk where
  chunkId : String
  docId : String
  docSha256 : String
  contentHash : String
  source : String
  ordinal : Nat
  text : String
  score : F32Bits
  pageNumber : Nat
  section_ : Option String
  title : Option String
  author : Option String

/-- A chunk that is to be stored. -/
structure ChunkRow where
  text : String
  embedding : Embedding
  pageNumber : Nat
  section_ : Option String
  contentHash : String

structure VectorStore where
  conn : Database
  dek : Option Dek

/-- What an insert takes from around it: ids, nonces, the time, and why SQLite refuses
    it, if it does. -/
structure InsertEnv where
  docId : String
  chunkId : Nat → String
  nonce : Nat → ByteArr 12
  now : String
  refused : Option String

/-- The columns of `rag_documents` and `rag_chunks` that a search reads. -/
abbrev JoinedRow := StoredChunk × DocumentRow

namespace VectorStore

/-- `ensure_collection`; nothing happens to one that is there. -/
def ensureCollection (s : VectorStore) (name embeddingModel : String) (dim : Nat) (now : String)
    (refused : Option String) : Except String VectorStore :=
  match s.conn.collections.find? (·.name == name) with
  | some row =>
      if row.embeddingModel ≠ embeddingModel then
        .error (s!"collection '{name}' was created with embedding model " ++
          s!"'{row.embeddingModel}', cannot mix with '{embeddingModel}'")
      else if row.dim ≠ dim then
        .error s!"collection '{name}' has dimension {row.dim}, got {dim}"
      else .ok s
  | none =>
      match refused with
      | some e => .error e
      | none => .ok { s with conn := s.conn.addCollection ⟨name, embeddingModel, dim, now⟩ }

/-- The chunks of a new document as they are stored, from the given ordinal on. -/
def sealChunks (dek : Option Dek) (env : InsertEnv) (ordinal : Nat) :
    List ChunkRow → Except String (List SealedChunk)
  | [] => .ok []
  | chunk :: chunks =>
      match maybeEncrypt G (env.nonce ordinal) dek chunk.text with
      | .error e => .error e
      | .ok encryptedText =>
          (sealChunks dek env (ordinal + 1) chunks).map fun rest =>
            { id := env.chunkId ordinal
              ordinal
              text := encryptedText
              embedding := vecToBlob chunk.embedding
              pageNumber := chunk.pageNumber
              section_ := chunk.section_
              contentHash := chunk.contentHash } :: rest

/-- `insert_document`. -/
def insertDocument (s : VectorStore) (env : InsertEnv) (collection source sha256 : String)
    (chunks : List ChunkRow) (title author : Option String) (pageCount : Nat) :
    Except String (String × VectorStore) :=
  if !s.conn.collections.any (·.name == collection) then
    .error "FOREIGN KEY constraint failed"
  else
    match sealChunks G s.dek env 0 chunks with
    | .error e => .error e
    | .ok new =>
        match env.refused with
        | some e => .error e
        | none =>
            let row : DocumentRow :=
              { id := env.docId, collection, source, sha256, ingestedAt := env.now
                title, author, pageCount, summary := none }
            match s.conn.insert row new with
            | none => .error "UNIQUE constraint failed: rag_documents.id"
            | some conn => .ok (env.docId, { s with conn })

/-- `set_summary`. -/
def setSummary (s : VectorStore) (nonce : ByteArr 12) (refused : Option String)
    (documentId summary : String) : Except String VectorStore :=
  match maybeEncrypt G nonce s.dek summary with
  | .error e => .error e
  | .ok stored =>
      match refused with
      | some e => .error e
      | none =>
          .ok { s with conn := s.conn.setSummary documentId stored }

/-- The chunks of a collection with their documents. -/
def joined (s : VectorStore) (collection : String) : List JoinedRow :=
  (s.conn.chunks.filter (·.collection == collection)).filterMap fun ch =>
    (s.conn.documents.find? (·.id == ch.documentId)).map fun d => (ch, d)

/-- One row of a search: nothing, when its dimension is another or its score too low. -/
def scoreRow (dek : Option Dek) (query : Embedding) (minScore : F32Bits) (row : JoinedRow) :
    Except String (Option ScoredChunk) :=
  match blobToVec row.1.embedding with
  | .error e => .error e
  | .ok emb =>
      if emb.length ≠ query.length then .ok none
      else
        let score := F.dot query emb
        if F.ge score minScore then
          .ok (some
            { chunkId := row.1.id
              docId := row.2.id
              docSha256 := row.2.sha256
              contentHash := row.1.contentHash
              source := row.2.source
              ordinal := row.1.ordinal
              text := readCell G dek row.1.text
              score
              pageNumber := row.1.pageNumber
              section_ := row.1.section_
              title := row.2.title
              author := row.2.author })
        else .ok none

def scoreRows (dek : Option Dek) (query : Embedding) (minScore : F32Bits) :
    List JoinedRow → Except String (List ScoredChunk)
  | [] => .ok []
  | row :: rows =>
      match scoreRow G F dek query minScore row with
      | .error e => .error e
      | .ok hit => (scoreRows dek query minScore rows).map fun hits => hit.toList ++ hits

/-- `search`. -/
def search (s : VectorStore) (collection : String) (query : Embedding) (topK : Nat)
    (minScore : F32Bits) : Except String (List ScoredChunk) :=
  (scoreRows G F s.dek query minScore (s.joined collection)).map fun scored =>
    (scored.mergeSort fun a b => F.totalGe a.score b.score).take topK

/-- `list_collections`, by name. -/
def listCollections (s : VectorStore) : List CollectionInfo :=
  (s.conn.collections.mergeSort fun a b => decide (a.name ≤ b.name)).map fun row =>
    { name := row.name
      embeddingModel := row.embeddingModel
      dim := row.dim
      documents := s.conn.documents.countP (·.collection == row.name)
      chunks := s.conn.chunks.countP (·.collection == row.name) }

/-- What the two queries for documents make of a row. -/
def documentInfo (s : VectorStore) (d : DocumentRow) : DocumentInfo where
  id := d.id
  collection := d.collection
  source := d.source
  sha256 := d.sha256
  chunks := s.conn.chunks.countP (·.documentId == d.id)
  ingestedAt := d.ingestedAt
  title := d.title
  author := d.author
  pageCount := d.pageCount
  summary := d.summary.map (readCell G s.dek)

/-- `list_documents`, the newest first. -/
def listDocuments (s : VectorStore) (collection : String) : List DocumentInfo :=
  ((s.conn.documents.filter (·.collection == collection)).mergeSort fun a b =>
    decide (b.ingestedAt ≤ a.ingestedAt)).map (s.documentInfo G)

/-- `get_document`. -/
def getDocument (s : VectorStore) (id : String) : Option DocumentInfo :=
  (s.conn.documents.find? (·.id == id)).map (s.documentInfo G)

def decryptRows (dek : Option Dek) : List StoredChunk → Except String (List String)
  | [] => .ok []
  | ch :: rows =>
      match maybeDecrypt G dek ch.text with
      | .error e => .error e
      | .ok text => (decryptRows dek rows).map fun texts => text :: texts

/-- The chunks of a document, in their order. -/
def chunksOfDocument (s : VectorStore) (documentId : String) : List StoredChunk :=
  (s.conn.chunks.filter (·.documentId == documentId)).mergeSort fun a b =>
    decide (a.ordinal ≤ b.ordinal)

/-- `get_document_text`. -/
def getDocumentText (s : VectorStore) (documentId : String) : Except String (Option String) :=
  let rows := s.chunksOfDocument documentId
  if rows.isEmpty then .ok none
  else (decryptRows G s.dek rows).map fun texts => some ("\n\n".intercalate texts)

/-- `delete_document`. -/
def deleteDocument (s : VectorStore) (documentId : String) : Bool × VectorStore :=
  (s.conn.documents.any (·.id == documentId),
    { s with conn := s.conn.deleteDocuments fun d => !(d.id == documentId) })

/-- `delete_collection`, with its documents. -/
def deleteCollection (s : VectorStore) (name : String) : Bool × VectorStore :=
  (s.conn.collections.any (·.name == name), { s with conn := s.conn.deleteCollection name })

end VectorStore

end Maranode.Rag
