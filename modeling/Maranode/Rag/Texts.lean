/-
  Maranode.Rag.Texts

  The texts and summaries of one collection, and what they show in.

  `fill` puts one text in the place of all of them.  Two stores agree on all the rest when
  they are the same once the collection is filled with nothing.
-/
import Maranode.Rag.Engine

namespace Maranode.Rag

open Lib Store

/-! ## Filling a collection -/

def StoredChunk.fill (c t : String) (ch : StoredChunk) : StoredChunk :=
  if ch.collection = c then { ch with text := t } else ch

/-- A document without a summary stays without. -/
def DocumentRow.fill (c t : String) (d : DocumentRow) : DocumentRow :=
  if d.collection = c then { d with summary := d.summary.map fun _ => t } else d

section Rows

variable {c t : String} {ch : StoredChunk} {d : DocumentRow}

theorem StoredChunk.fill_of_eq (h : ch.collection = c) : ch.fill c t = { ch with text := t } :=
  if_pos h

theorem StoredChunk.fill_of_ne (h : ch.collection ≠ c) : ch.fill c t = ch := if_neg h

theorem DocumentRow.fill_of_eq (h : d.collection = c) :
    d.fill c t = { d with summary := d.summary.map fun _ => t } := if_pos h

theorem DocumentRow.fill_of_ne (h : d.collection ≠ c) : d.fill c t = d := if_neg h

@[simp] theorem StoredChunk.fill_documentId : (ch.fill c t).documentId = ch.documentId := by
  rw [StoredChunk.fill]
  split <;> rfl

@[simp] theorem StoredChunk.fill_collection : (ch.fill c t).collection = ch.collection := by
  rw [StoredChunk.fill]
  split <;> rfl

@[simp] theorem StoredChunk.fill_ordinal : (ch.fill c t).ordinal = ch.ordinal := by
  rw [StoredChunk.fill]
  split <;> rfl

@[simp] theorem DocumentRow.fill_id : (d.fill c t).id = d.id := by
  rw [DocumentRow.fill]
  split <;> rfl

@[simp] theorem DocumentRow.fill_collection : (d.fill c t).collection = d.collection := by
  rw [DocumentRow.fill]
  split <;> rfl

@[simp] theorem DocumentRow.fill_ingestedAt : (d.fill c t).ingestedAt = d.ingestedAt := by
  rw [DocumentRow.fill]
  split <;> rfl

theorem DocumentRow.fill_summary_eq_none : (d.fill c t).summary = none ↔ d.summary = none := by
  rw [DocumentRow.fill]
  split
  · exact Option.map_eq_none_iff
  · rfl

/-- Only the last filling is seen. -/
theorem StoredChunk.fill_fill (t' : String) (ch : StoredChunk) :
    (ch.fill c t).fill c t' = ch.fill c t' := by
  by_cases h : ch.collection = c
  · rw [fill_of_eq h, fill_of_eq h]
    exact fill_of_eq h
  · rw [fill_of_ne h]

theorem DocumentRow.fill_fill (t' : String) (d : DocumentRow) :
    (d.fill c t).fill c t' = d.fill c t' := by
  by_cases h : d.collection = c
  · rw [fill_of_eq h, fill_of_eq h]
    have hmap : (d.summary.map fun _ => t).map (fun _ => t') = d.summary.map fun _ => t' := by
      rw [Option.map_map]
      rfl
    rw [← hmap]
    exact fill_of_eq h
  · rw [fill_of_ne h]

end Rows

def JoinedRow.fill (c t : String) (row : JoinedRow) : JoinedRow :=
  (row.1.fill c t, row.2.fill c t)

def Database.fill (c t : String) (db : Database) : Database :=
  db.update (DocumentRow.fill c t) (StoredChunk.fill c t)
    (fun _ => ⟨DocumentRow.fill_id, DocumentRow.fill_collection⟩)
    fun _ => ⟨StoredChunk.fill_documentId, StoredChunk.fill_collection⟩

def VectorStore.fill (c t : String) (s : VectorStore) : VectorStore :=
  { s with conn := s.conn.fill c t }

def RagEngine.fill (c t : String) (e : RagEngine) : RagEngine :=
  { e with store := e.store.fill c t }

section Fill

variable {c t : String}

theorem Database.fill_fill (t' : String) (db : Database) :
    (db.fill c t).fill c t' = db.fill c t' := by
  apply Database.ext
  · rfl
  · show (db.documents.map _).map _ = db.documents.map _
    rw [List.map_map]
    exact List.map_congr_left fun d _ => d.fill_fill t'
  · show (db.chunks.map _).map _ = db.chunks.map _
    rw [List.map_map]
    exact List.map_congr_left fun ch _ => ch.fill_fill t'

theorem VectorStore.fill_fill (t' : String) (s : VectorStore) :
    (s.fill c t).fill c t' = s.fill c t' :=
  congrArg (fun conn => { s with conn }) (s.conn.fill_fill t')

theorem RagEngine.fill_fill (t' : String) (e : RagEngine) :
    (e.fill c t).fill c t' = e.fill c t' :=
  congrArg (fun store => { e with store }) (e.store.fill_fill t')

end Fill

/-! ## Searching -/

/-- A hit with another text. -/
def ScoredChunk.withText (t : String) (hit : ScoredChunk) : ScoredChunk := { hit with text := t }

variable {G : Aead} {F : Floats} {c t : String}

namespace VectorStore

variable {s : VectorStore} {dek : Option Dek} {q : Embedding} {m : F32Bits} {k : Nat}

theorem documents_find_fill (id : String) :
    (s.fill c t).conn.documents.find? (·.id == id)
      = (s.conn.documents.find? (·.id == id)).map (.fill c t) := by
  show (s.conn.documents.map _).find? _ = _
  rw [List.find?_map]
  congr 2
  funext d
  show ((d.fill c t).id == id) = _
  rw [DocumentRow.fill_id]

theorem joined_fill (col : String) :
    (s.fill c t).joined col
      = (s.joined col).map (.fill c t) := by
  have hkeep : (fun ch : StoredChunk => ch.collection == col) ∘ StoredChunk.fill c t
      = fun ch => ch.collection == col := by
    funext ch
    show ((ch.fill c t).collection == col) = _
    rw [StoredChunk.fill_collection]
  show ((s.conn.chunks.map (StoredChunk.fill c t)).filter _).filterMap _ = _
  rw [List.filter_map, List.filterMap_map, hkeep, joined, List.map_filterMap]
  congr 1
  funext ch
  show ((s.fill c t).conn.documents.find? (·.id == (ch.fill c t).documentId)).map _ = _
  rw [StoredChunk.fill_documentId, documents_find_fill, Option.map_map, Option.map_map]
  rfl

theorem collection_of_mem_joined {col : String} {row : JoinedRow} (h : row ∈ s.joined col) :
    row.1.collection = col := by
  obtain ⟨ch, hch, hrow⟩ := List.mem_filterMap.mp h
  obtain ⟨d, -, rfl⟩ := Option.map_eq_some_iff.mp hrow
  exact eq_of_beq (List.mem_filter.mp hch).2

/-- The row is of the query's dimension and close enough to it. -/
def Matches (F : Floats) (q : Embedding) (m : F32Bits) (row : JoinedRow) : Prop :=
  (floatsOf row.1.embedding).length = q.length ∧
    F.ge (F.dot q (floatsOf row.1.embedding)) m = true

instance (F : Floats) (q : Embedding) (m : F32Bits) (row : JoinedRow) :
    Decidable (Matches F q m row) := inferInstanceAs (Decidable (_ ∧ _))

theorem scoreRow_of_not_blob {row : JoinedRow} (h : row.1.embedding.length % 4 ≠ 0) :
    ∃ e, scoreRow G F dek q m row = .error e := by
  rw [scoreRow, blobToVec, if_pos h]
  exact ⟨_, rfl⟩

theorem scoreRow_of_not_matches {row : JoinedRow} (hblob : row.1.embedding.length % 4 = 0)
    (h : ¬ Matches F q m row) : scoreRow G F dek q m row = .ok none := by
  rw [scoreRow, blobToVec, if_neg (not_not.mpr hblob)]
  show (if _ then _ else _) = _
  by_cases hdim : (floatsOf row.1.embedding).length = q.length
  · rw [if_neg (not_not.mpr hdim)]
    exact if_neg fun hge => h ⟨hdim, hge⟩
  · exact if_pos hdim

/-- What a search returns for a row that matches. -/
def hitOf (G : Aead) (F : Floats) (dek : Option Dek) (q : Embedding) (row : JoinedRow) :
    ScoredChunk where
  chunkId := row.1.id
  docId := row.2.id
  docSha256 := row.2.sha256
  contentHash := row.1.contentHash
  source := row.2.source
  ordinal := row.1.ordinal
  text := readCell G dek row.1.text
  score := F.dot q (floatsOf row.1.embedding)
  pageNumber := row.1.pageNumber
  section_ := row.1.section_
  title := row.2.title
  author := row.2.author

theorem scoreRow_of_matches {row : JoinedRow} (hblob : row.1.embedding.length % 4 = 0)
    (h : Matches F q m row) : scoreRow G F dek q m row = .ok (some (hitOf G F dek q row)) := by
  rw [scoreRow, blobToVec, if_neg (not_not.mpr hblob)]
  show (if _ then _ else _) = _
  rw [if_neg (not_not.mpr h.1)]
  exact if_pos h.2

/-- Rows that are scored alike, but for something in the hits. -/
theorem scoreRow_map {f : JoinedRow → JoinedRow} {g : ScoredChunk → ScoredChunk} {row : JoinedRow}
    (hemb : (f row).1.embedding = row.1.embedding)
    (hhit : hitOf G F dek q (f row) = g (hitOf G F dek q row)) :
    scoreRow G F dek q m (f row) = (scoreRow G F dek q m row).map (Option.map g) := by
  by_cases hblob : row.1.embedding.length % 4 = 0
  · have hblob' : (f row).1.embedding.length % 4 = 0 := by rw [hemb, hblob]
    have hiff : Matches F q m (f row) ↔ Matches F q m row := by rw [Matches, Matches, hemb]
    by_cases h : Matches F q m row
    · rw [scoreRow_of_matches hblob h, scoreRow_of_matches hblob' (hiff.mpr h), hhit]
      rfl
    · rw [scoreRow_of_not_matches hblob h, scoreRow_of_not_matches hblob' (hiff.not.mpr h)]
      rfl
  · rw [scoreRow, scoreRow, hemb, blobToVec, if_pos hblob]
    rfl

theorem scoreRows_map {f : JoinedRow → JoinedRow} {g : ScoredChunk → ScoredChunk}
    {rows : List JoinedRow}
    (h : ∀ row ∈ rows, scoreRow G F dek q m (f row)
      = (scoreRow G F dek q m row).map (Option.map g)) :
    scoreRows G F dek q m (rows.map f) = (scoreRows G F dek q m rows).map (List.map g) := by
  induction rows with
  | nil => rfl
  | cons row rows ih =>
      rw [List.map_cons, scoreRows, scoreRows, h row (List.mem_cons_self ..),
        ih fun r hr => h r (List.mem_cons_of_mem _ hr)]
      cases scoreRow G F dek q m row with
      | error e => rfl
      | ok hit =>
          cases scoreRows G F dek q m rows with
          | error e => rfl
          | ok hits =>
              cases hit with
              | none => rfl
              | some hit => rfl

/-- A search in a collection that was filled, or in another one. -/
theorem search_map {s' : VectorStore} {col : String} {f : JoinedRow → JoinedRow}
    {g : ScoredChunk → ScoredChunk} (hdek : s'.dek = s.dek)
    (hjoined : s'.joined col = (s.joined col).map f)
    (hrow : ∀ row ∈ s.joined col, scoreRow G F s.dek q m (f row)
      = (scoreRow G F s.dek q m row).map (Option.map g))
    (hscore : ∀ hit, (g hit).score = hit.score) :
    s'.search G F col q k m = (s.search G F col q k m).map (List.map g) := by
  rw [search, search, hdek, hjoined, scoreRows_map hrow]
  cases scoreRows G F s.dek q m (s.joined col) with
  | error e => rfl
  | ok hits =>
      have hsort : (hits.map g).mergeSort (fun a b => F.totalGe a.score b.score)
          = (hits.mergeSort fun a b => F.totalGe a.score b.score).map g :=
        (List.map_mergeSort fun a _ b _ => by rw [hscore, hscore]).symm
      show Except.ok (((hits.map g).mergeSort _).take k)
        = Except.ok (((hits.mergeSort _).take k).map g)
      rw [hsort, List.map_take]

/-- A filled row differs in nothing a score is made of. -/
theorem fill_embedding (row : JoinedRow) : (row.fill c t).1.embedding = row.1.embedding := by
  show (row.1.fill c t).embedding = _
  rw [StoredChunk.fill]
  split <;> rfl

theorem hitOf_fill_self {row : JoinedRow} (h : row.1.collection = c)
    (ht : isEncrypted t = false) :
    hitOf G F dek q (row.fill c t) = (hitOf G F dek q row).withText t := by
  obtain ⟨ch, d⟩ := row
  have hch : ch.fill c t = { ch with text := t } := StoredChunk.fill_of_eq h
  by_cases hd : d.collection = c
  · rw [hitOf, JoinedRow.fill, hch, DocumentRow.fill_of_eq hd, readCell_of_plain ht]
    rfl
  · rw [hitOf, JoinedRow.fill, hch, DocumentRow.fill_of_ne hd, readCell_of_plain ht]
    rfl

theorem hitOf_fill_of_ne {row : JoinedRow} (h : row.1.collection ≠ c) :
    hitOf G F dek q (row.fill c t) = hitOf G F dek q row := by
  obtain ⟨ch, d⟩ := row
  have hch : ch.fill c t = ch := StoredChunk.fill_of_ne h
  by_cases hd : d.collection = c
  · rw [hitOf, JoinedRow.fill, hch, DocumentRow.fill_of_eq hd]
    rfl
  · rw [hitOf, JoinedRow.fill, hch, DocumentRow.fill_of_ne hd]
    rfl

/-- Every hit of a collection that was filled has the text it was filled with. -/
theorem search_fill_self (ht : isEncrypted t = false) :
    (s.fill c t).search G F c q k m = (s.search G F c q k m).map (List.map (.withText t)) := by
  refine search_map rfl (joined_fill c) (fun row hrow => ?_) fun _ => rfl
  apply scoreRow_map (fill_embedding row)
  exact hitOf_fill_self (collection_of_mem_joined hrow) ht

theorem search_fill_of_ne {col : String} (h : col ≠ c) :
    (s.fill c t).search G F col q k m = s.search G F col q k m := by
  have hrow : ∀ row ∈ s.joined col, scoreRow G F s.dek q m (row.fill c t)
      = (scoreRow G F s.dek q m row).map (Option.map id) := by
    intro row hrow
    apply scoreRow_map (fill_embedding row)
    exact hitOf_fill_of_ne ((collection_of_mem_joined hrow).trans_ne h)
  have hsame : (s.fill c t).search G F col q k m
      = (s.search G F col q k m).map (List.map id) :=
    search_map rfl (joined_fill col) hrow fun _ => rfl
  rw [hsame, List.map_id_fun]
  cases s.search G F col q k m with
  | error e => rfl
  | ok hits => rfl

/-- Whether a search fails does not depend on any text. -/
theorem search_fill_error_iff {col : String} (ht : isEncrypted t = false) (e : String) :
    (s.fill c t).search G F col q k m = .error e ↔ s.search G F col q k m = .error e := by
  by_cases h : col = c
  · subst h
    rw [search_fill_self ht]
    cases s.search G F col q k m with
    | error e => rfl
    | ok hits => exact iff_of_false nofun nofun
  · rw [search_fill_of_ne h]

/-- Rows of a collection are found by a query: all of its vectors can be read, and one of
    them matches. -/
def Found (F : Floats) (s : VectorStore) (col : String) (q : Embedding) (m : F32Bits) : Prop :=
  (∀ row ∈ s.joined col, row.1.embedding.length % 4 = 0) ∧ ∃ row ∈ s.joined col, Matches F q m row

theorem scoreRows_of_blobs {rows : List JoinedRow}
    (h : ∀ row ∈ rows, row.1.embedding.length % 4 = 0) :
    scoreRows G F dek q m rows
      = .ok ((rows.filter fun row => Matches F q m row).map (hitOf G F dek q)) := by
  induction rows with
  | nil => rfl
  | cons row rows ih =>
      have hrow := h row (List.mem_cons_self ..)
      rw [scoreRows, ih fun r hr => h r (List.mem_cons_of_mem _ hr)]
      by_cases hmatch : Matches F q m row
      · rw [scoreRow_of_matches hrow hmatch, List.filter_cons, if_pos (decide_eq_true hmatch)]
        rfl
      · rw [scoreRow_of_not_matches hrow hmatch, List.filter_cons,
          if_neg fun hdec => hmatch (of_decide_eq_true hdec)]
        rfl

theorem scoreRows_of_not_blobs {rows : List JoinedRow}
    (h : ¬ ∀ row ∈ rows, row.1.embedding.length % 4 = 0) :
    ∃ e, scoreRows G F dek q m rows = .error e := by
  induction rows with
  | nil => exact absurd (fun _ hrow => nomatch hrow) h
  | cons row rows ih =>
      rw [scoreRows]
      by_cases hrow : row.1.embedding.length % 4 = 0
      · obtain ⟨e, he⟩ := ih fun hrows => h (List.forall_mem_cons.mpr ⟨hrow, hrows⟩)
        rw [he]
        cases scoreRow G F dek q m row with
        | error e' => exact ⟨e', rfl⟩
        | ok hit => exact ⟨e, rfl⟩
      · have hfail : ∃ e, scoreRow G F dek q m row = .error e := scoreRow_of_not_blob hrow
        obtain ⟨e, he⟩ := hfail
        rw [he]
        exact ⟨e, rfl⟩

/-- A search that returns at least one hit if it can. -/
theorem exists_hits_iff {col : String} (hk : 0 < k) :
    (∃ hits, s.search G F col q k m = .ok hits ∧ hits ≠ []) ↔ s.Found F col q m := by
  by_cases hblobs : ∀ row ∈ s.joined col, row.1.embedding.length % 4 = 0
  · rw [search, scoreRows_of_blobs hblobs, Found, and_iff_right hblobs]
    constructor
    · rintro ⟨hits, hsearch, hne⟩
      obtain rfl := Except.ok.inj hsearch
      obtain ⟨hit, hhit⟩ := List.exists_mem_of_ne_nil _ hne
      have hmem := (List.mergeSort_perm _ _).mem_iff.mp (List.mem_of_mem_take hhit)
      obtain ⟨row, hrow, -⟩ := List.mem_map.mp hmem
      exact ⟨row, List.mem_of_mem_filter hrow, of_decide_eq_true (List.mem_filter.mp hrow).2⟩
    · rintro ⟨row, hrow, hmatch⟩
      refine ⟨_, rfl, fun hnil => ?_⟩
      have hmem : row ∈ (s.joined col).filter fun row => Matches F q m row :=
        List.mem_filter.mpr ⟨hrow, decide_eq_true hmatch⟩
      have hhit := List.mem_map_of_mem (f := hitOf G F s.dek q) hmem
      rw [List.take_eq_nil_iff, ← List.length_eq_zero_iff, List.length_mergeSort,
        List.length_eq_zero_iff] at hnil
      rcases hnil with hzero | hnil
      · omega
      · rw [hnil] at hhit
        exact nomatch hhit
  · have hfail : ∃ e, scoreRows G F s.dek q m (s.joined col) = .error e :=
      scoreRows_of_not_blobs hblobs
    obtain ⟨e, he⟩ := hfail
    rw [search, he]
    exact iff_of_false (fun ⟨_, hsearch, _⟩ => nomatch hsearch) fun hfound => hblobs hfound.1

theorem mem_joined {col : String} {row : JoinedRow} (h : row ∈ s.joined col) :
    row.1 ∈ s.conn.chunks ∧ row.2 ∈ s.conn.documents ∧ row.2.id = row.1.documentId := by
  obtain ⟨ch, hch, hrow⟩ := List.mem_filterMap.mp h
  obtain ⟨d, hfind, rfl⟩ := Option.map_eq_some_iff.mp hrow
  have hbeq := List.find?_some (p := fun d : DocumentRow => d.id == ch.documentId) hfind
  exact ⟨List.mem_of_mem_filter hch, List.mem_of_find?_eq_some hfind, eq_of_beq hbeq⟩

/-- A hit is a row of the collection, with its text as the store reads it. -/
theorem exists_row_of_hit {col : String} {hits : List ScoredChunk} {hit : ScoredChunk}
    (h : s.search G F col q k m = .ok hits) (hhit : hit ∈ hits) :
    ∃ row ∈ s.joined col, hit = hitOf G F s.dek q row := by
  rw [search] at h
  by_cases hblobs : ∀ row ∈ s.joined col, row.1.embedding.length % 4 = 0
  · rw [scoreRows_of_blobs hblobs] at h
    obtain rfl := Except.ok.inj h
    have hmem := (List.mergeSort_perm _ _).mem_iff.mp (List.mem_of_mem_take hhit)
    obtain ⟨row, hrow, rfl⟩ := List.mem_map.mp hmem
    exact ⟨row, List.mem_of_mem_filter hrow, rfl⟩
  · have hfail : ∃ e, scoreRows G F s.dek q m (s.joined col) = .error e :=
      scoreRows_of_not_blobs hblobs
    obtain ⟨e, he⟩ := hfail
    rw [he] at h
    cases h

theorem found_fill_iff {col : String} :
    (s.fill c t).Found F col q m ↔ s.Found F col q m := by
  have hmatch : ∀ row : JoinedRow, Matches F q m (row.fill c t) ↔ Matches F q m row := by
    intro row
    rw [Matches, Matches, fill_embedding]
  rw [Found, Found, joined_fill, List.forall_mem_map]
  refine and_congr (forall₂_congr fun row _ => by rw [fill_embedding]) ?_
  constructor
  · rintro ⟨row', hrow', hmatches⟩
    obtain ⟨row, hrow, rfl⟩ := List.mem_map.mp hrow'
    exact ⟨row, hrow, (hmatch row).mp hmatches⟩
  · rintro ⟨row, hrow, hmatches⟩
    exact ⟨_, List.mem_map_of_mem hrow, (hmatch row).mpr hmatches⟩

/-! ## Collections and documents -/

theorem listCollections_fill : (s.fill c t).listCollections = s.listCollections := by
  rw [listCollections, listCollections]
  congr 1
  funext row
  have hdocs : (s.conn.documents.map (DocumentRow.fill c t)).countP (·.collection == row.name)
      = s.conn.documents.countP (·.collection == row.name) := by
    rw [List.countP_map]
    congr 1
    funext d
    show ((d.fill c t).collection == row.name) = _
    rw [DocumentRow.fill_collection]
  have hchunks : (s.conn.chunks.map (StoredChunk.fill c t)).countP (·.collection == row.name)
      = s.conn.chunks.countP (·.collection == row.name) := by
    rw [List.countP_map]
    congr 1
    funext ch
    show ((ch.fill c t).collection == row.name) = _
    rw [StoredChunk.fill_collection]
  show ({ documents := (s.conn.documents.map (DocumentRow.fill c t)).countP _
          chunks := (s.conn.chunks.map (StoredChunk.fill c t)).countP _, .. } : CollectionInfo) = _
  rw [hdocs, hchunks]

theorem chunkCount_fill (id : String) :
    (s.fill c t).conn.chunks.countP (·.documentId == id)
      = s.conn.chunks.countP (·.documentId == id) := by
  show (s.conn.chunks.map _).countP _ = _
  rw [List.countP_map]
  congr 1
  funext ch
  show ((ch.fill c t).documentId == id) = _
  rw [StoredChunk.fill_documentId]

theorem documentInfo_fill_of_ne {d : DocumentRow} (h : d.collection ≠ c) :
    (s.fill c t).documentInfo G (d.fill c t) = s.documentInfo G d := by
  rw [DocumentRow.fill_of_ne h, documentInfo, documentInfo, chunkCount_fill]
  rfl

theorem documentInfo_fill_self {d : DocumentRow} (h : d.collection = c)
    (ht : isEncrypted t = false) :
    (s.fill c t).documentInfo G (d.fill c t)
      = { s.documentInfo G d with summary := d.summary.map fun _ => t } := by
  have hread : (d.summary.map fun _ => t).map (readCell G s.dek) = d.summary.map fun _ => t := by
    rw [Option.map_map]
    congr 1
    funext _
    exact readCell_of_plain ht s.dek
  rw [DocumentRow.fill_of_eq h, documentInfo, documentInfo, chunkCount_fill]
  show ({ summary := (d.summary.map fun _ => t).map (readCell G s.dek), .. } : DocumentInfo) = _
  rw [hread]

/-- A document without a summary shows nothing. -/
theorem documentInfo_fill_of_none {d : DocumentRow} (h : d.summary = none) :
    (s.fill c t).documentInfo G (d.fill c t) = s.documentInfo G d := by
  have hfill : d.fill c t = d := by
    by_cases hd : d.collection = c
    · have hsame : (d.summary.map fun _ => t) = d.summary := by
        rw [h]
        rfl
      rw [DocumentRow.fill_of_eq hd, hsame]
    · exact DocumentRow.fill_of_ne hd
  rw [hfill, documentInfo, documentInfo, chunkCount_fill]
  rfl

theorem listDocuments_fill (col : String) :
    (s.fill c t).listDocuments G col
      = ((s.conn.documents.filter (·.collection == col)).mergeSort fun a b =>
          decide (b.ingestedAt ≤ a.ingestedAt)).map
            fun d => (s.fill c t).documentInfo G (d.fill c t) := by
  have hkeep : (fun d : DocumentRow => d.collection == col) ∘ DocumentRow.fill c t
      = fun d => d.collection == col := by
    funext d
    show ((d.fill c t).collection == col) = _
    rw [DocumentRow.fill_collection]
  have hsort : ∀ docs : List DocumentRow,
      (docs.map (DocumentRow.fill c t)).mergeSort (fun a b => decide (b.ingestedAt ≤ a.ingestedAt))
        = (docs.mergeSort fun a b => decide (b.ingestedAt ≤ a.ingestedAt)).map (.fill c t) :=
    fun docs => (List.map_mergeSort fun a _ b _ => by
      rw [DocumentRow.fill_ingestedAt, DocumentRow.fill_ingestedAt]).symm
  show ((((s.conn.documents.map (DocumentRow.fill c t)).filter _).mergeSort _).map _) = _
  rw [List.filter_map, hkeep, hsort, List.map_map]
  rfl

theorem getDocument_fill (id : String) :
    (s.fill c t).getDocument G id
      = (s.conn.documents.find? (·.id == id)).map
          fun d => (s.fill c t).documentInfo G (d.fill c t) := by
  rw [getDocument, documents_find_fill, Option.map_map]
  rfl

theorem mem_chunksOfDocument {documentId : String} {ch : StoredChunk} :
    ch ∈ s.chunksOfDocument documentId ↔ ch ∈ s.conn.chunks ∧ ch.documentId = documentId := by
  rw [chunksOfDocument, (List.mergeSort_perm _ _).mem_iff, List.mem_filter, beq_iff_eq]

theorem chunksOfDocument_fill (documentId : String) :
    (s.fill c t).chunksOfDocument documentId
      = (s.chunksOfDocument documentId).map (.fill c t) := by
  have hkeep : (fun ch : StoredChunk => ch.documentId == documentId) ∘ StoredChunk.fill c t
      = fun ch => ch.documentId == documentId := by
    funext ch
    show ((ch.fill c t).documentId == documentId) = _
    rw [StoredChunk.fill_documentId]
  show ((s.conn.chunks.map (StoredChunk.fill c t)).filter _).mergeSort _ = _
  rw [List.filter_map, hkeep, chunksOfDocument]
  exact (List.map_mergeSort fun a _ b _ => by
    rw [StoredChunk.fill_ordinal, StoredChunk.fill_ordinal]).symm

/-- The chunks of a document are of its collection. -/
theorem collection_of_documentId {d : DocumentRow} {ch : StoredChunk}
    (hd : d ∈ s.conn.documents) (hch : ch ∈ s.conn.chunks) (hid : ch.documentId = d.id) :
    ch.collection = d.collection := by
  obtain ⟨d', hd', hid', hcol⟩ := s.conn.owned ch hch
  obtain rfl := eq_of_id s.conn.ids hd hd' (hid.symm.trans hid'.symm)
  exact hcol.symm

theorem decryptRows_fill {rows : List StoredChunk} (h : ∀ ch ∈ rows, ch.collection = c)
    (ht : isEncrypted t = false) :
    decryptRows G dek (rows.map (.fill c t)) = .ok (rows.map fun _ => t) := by
  induction rows with
  | nil => rfl
  | cons ch rows ih =>
      obtain ⟨hch, hrows⟩ := List.forall_mem_cons.mp h
      rw [List.map_cons, decryptRows, StoredChunk.fill_of_eq hch, ih hrows]
      dsimp only
      rw [maybeDecrypt_of_plain ht]
      rfl

/-- Rows that decrypt decrypt one by one. -/
theorem exists_text_of_decryptRows {rows : List StoredChunk} {texts : List String}
    (h : decryptRows G dek rows = .ok texts) {ch : StoredChunk} (hch : ch ∈ rows) :
    ∃ text, maybeDecrypt G dek ch.text = .ok text := by
  induction rows generalizing texts with
  | nil => cases hch
  | cons row rows ih =>
      rw [decryptRows] at h
      cases hrow : maybeDecrypt G dek row.text with
      | error e =>
          rw [hrow] at h
          cases h
      | ok text =>
          rw [hrow] at h
          cases hrest : decryptRows G dek rows with
          | error e =>
              rw [hrest] at h
              cases h
          | ok rest =>
              rcases List.mem_cons.mp hch with rfl | hmem
              · exact ⟨text, hrow⟩
              · exact ih hrest hmem

theorem exists_text_of_getDocumentText {id joined : String}
    (h : s.getDocumentText G id = .ok (some joined)) {ch : StoredChunk}
    (hch : ch ∈ s.conn.chunks) (hid : ch.documentId = id) :
    ∃ text, maybeDecrypt G s.dek ch.text = .ok text := by
  rw [getDocumentText] at h
  split at h
  · cases h
  · cases hrows : decryptRows G s.dek (s.chunksOfDocument id) with
    | error e =>
        rw [hrows] at h
        cases h
    | ok texts =>
        exact exists_text_of_decryptRows hrows (mem_chunksOfDocument.mpr ⟨hch, hid⟩)

theorem getDocumentText_fill_of_ne {d : DocumentRow} (hd : d ∈ s.conn.documents)
    (h : d.collection ≠ c) :
    (s.fill c t).getDocumentText G d.id = s.getDocumentText G d.id := by
  have hsame : (s.chunksOfDocument d.id).map (StoredChunk.fill c t) = s.chunksOfDocument d.id := by
    have hmap := List.map_congr_left (f := StoredChunk.fill c t) (g := id) fun ch hch => by
      obtain ⟨hmem, hid⟩ := mem_chunksOfDocument.mp hch
      exact StoredChunk.fill_of_ne ((collection_of_documentId hd hmem hid).trans_ne h)
    rw [hmap, List.map_id]
  rw [getDocumentText, getDocumentText, chunksOfDocument_fill, hsame]
  rfl

end VectorStore

/-! ## Ingesting -/

/-- The same but for the texts and summaries of a collection. -/
def VectorStore.Agree (c : String) (s s' : VectorStore) : Prop := s.fill c "" = s'.fill c ""

def RagEngine.Agree (c : String) (e e' : RagEngine) : Prop := e.fill c "" = e'.fill c ""

theorem Database.fill_ids (db : Database) :
    (db.fill c t).documents.map (·.id) = db.documents.map (·.id) := by
  show (db.documents.map _).map _ = _
  rw [List.map_map]
  exact List.map_congr_left fun d _ => DocumentRow.fill_id

theorem Database.insert_fill (db : Database) (d : DocumentRow) (new : List SealedChunk) :
    ((db.fill c t).insert d new).map (Database.fill c "")
      = (db.insert d new).map (Database.fill c "") := by
  rw [Database.insert, Database.insert]
  by_cases hd : d.id ∉ db.documents.map (·.id)
  · have hd' : d.id ∉ (db.fill c t).documents.map (·.id) := by
      rw [fill_ids]
      exact hd
    rw [dif_pos hd, dif_pos hd']
    refine congrArg some (Database.ext rfl ?_ ?_)
    · show ((db.documents.map _ ++ [d]).map _) = (db.documents ++ [d]).map _
      rw [List.map_append, List.map_append, List.map_map]
      congr 1
      exact List.map_congr_left fun d _ => d.fill_fill ""
    · show ((db.chunks.map _ ++ _).map _) = (db.chunks ++ _).map _
      rw [List.map_append, List.map_append, List.map_map]
      congr 1
      exact List.map_congr_left fun ch _ => ch.fill_fill ""
  · have hd' : ¬ d.id ∉ (db.fill c t).documents.map (·.id) := by
      rw [fill_ids]
      exact hd
    rw [dif_neg hd, dif_neg hd']

theorem DocumentRow.fill_withSummary (id stored : String) (d : DocumentRow) :
    ((d.fill c t).withSummary id stored).fill c "" = (d.withSummary id stored).fill c "" := by
  by_cases hc : d.collection = c
  · by_cases hid : d.id = id
    · rw [fill_of_eq hc, withSummary, withSummary, if_pos hid]
      simp only [hid, if_true]
    · have hid' : (d.fill c t).id ≠ id := by
        rw [fill_id]
        exact hid
      rw [withSummary, withSummary, if_neg hid, if_neg hid', fill_fill]
  · rw [fill_of_ne hc]

theorem Database.setSummary_fill (db : Database) (id stored : String) :
    ((db.fill c t).setSummary id stored).fill c "" = (db.setSummary id stored).fill c "" := by
  apply Database.ext
  · rfl
  · show ((db.documents.map _).map _).map _ = (db.documents.map _).map _
    rw [List.map_map, List.map_map, List.map_map]
    exact List.map_congr_left fun d _ => d.fill_withSummary id stored
  · show ((db.chunks.map _).map _).map _ = (db.chunks.map _).map _
    rw [List.map_map, List.map_map, List.map_map]
    exact List.map_congr_left fun ch _ => ch.fill_fill ""

namespace VectorStore

variable {s s' : VectorStore}

theorem fill_conn : (s.fill c t).conn = s.conn.fill c t := rfl

theorem fill_collections : (s.fill c t).conn.collections = s.conn.collections := rfl

theorem fill_dek : (s.fill c t).dek = s.dek := rfl

theorem ensureCollection_fill (name model : String) (dim : Nat) (now : String)
    (refused : Option String) :
    (s.fill c t).ensureCollection name model dim now refused
      = (s.ensureCollection name model dim now refused).map (.fill c t) := by
  unfold ensureCollection
  rw [fill_collections]
  cases s.conn.collections.find? (·.name == name) with
  | some row =>
      show (if _ then _ else _) = Except.map _ (if _ then _ else _)
      by_cases hmodel : row.embeddingModel ≠ model
      · rw [if_pos hmodel, if_pos hmodel]
        rfl
      · rw [if_neg hmodel, if_neg hmodel]
        by_cases hdim : row.dim ≠ dim
        · rw [if_pos hdim, if_pos hdim]
          rfl
        · rw [if_neg hdim, if_neg hdim]
          rfl
  | none =>
      cases refused with
      | some e => rfl
      | none => rfl

theorem insertDocument_fill (env : InsertEnv) (col source sha256 : String)
    (chunks : List ChunkRow) (title author : Option String) (pageCount : Nat) :
    ((s.fill c t).insertDocument G env col source sha256 chunks title author pageCount).map
        (Prod.map id (VectorStore.fill c ""))
      = (s.insertDocument G env col source sha256 chunks title author pageCount).map
          (Prod.map id (VectorStore.fill c "")) := by
  rw [insertDocument, insertDocument, fill_collections, fill_dek]
  -- The guard looks at the collections only, and those have no filled text.
  by_cases hcol : (!s.conn.collections.any (·.name == col)) = true
  · rw [if_pos hcol, if_pos hcol]
  · rw [if_neg hcol, if_neg hcol]
    cases sealChunks G s.dek env 0 chunks with
    | error e => rfl
    | ok new =>
        cases env.refused with
        | some e => rfl
        | none =>
            let row : DocumentRow :=
              { id := env.docId, collection := col, source, sha256, ingestedAt := env.now
                title, author, pageCount, summary := none }
            -- Inserting into the filled rows is filling after inserting.
            have hinsert := s.conn.insert_fill (c := c) (t := t) row new
            dsimp only
            rw [fill_conn]
            cases hnew : s.conn.insert row new with
            | none =>
                rw [hnew, Option.map_none, Option.map_eq_none_iff] at hinsert
                rw [hinsert]
            | some conn =>
                rw [hnew, Option.map_some, Option.map_eq_some_iff] at hinsert
                obtain ⟨conn', hconn', hfill⟩ := hinsert
                rw [hconn']
                show Except.ok (env.docId, _) = Except.ok (env.docId, _)
                exact congrArg (fun conn => Except.ok (env.docId, (⟨conn, s.dek⟩ : VectorStore)))
                  hfill

theorem setSummary_fill (nonce : ByteArr 12) (refused : Option String)
    (documentId summary : String) :
    ((s.fill c t).setSummary G nonce refused documentId summary).map (VectorStore.fill c "")
      = (s.setSummary G nonce refused documentId summary).map (VectorStore.fill c "") := by
  rw [setSummary, setSummary, fill_dek]
  cases maybeEncrypt G nonce s.dek summary with
  | error e => rfl
  | ok stored =>
      cases refused with
      | some e => rfl
      | none =>
          exact congrArg (fun conn => Except.ok (⟨conn, s.dek⟩ : VectorStore))
            (s.conn.setSummary_fill documentId stored)

/-- A step that does not look at the collection's texts takes stores that agree to stores
    that agree. -/
theorem Agree.of_fill {α : Type} {f : VectorStore → α}
    (hf : ∀ s, f (s.fill c "") = f s) (h : s.Agree c s') : f s = f s' := by
  rw [← hf s, ← hf s', show s.fill c "" = s'.fill c "" from h]

end VectorStore

namespace RagEngine

variable {X : External} {R : Readers} {e e' : RagEngine} {s : VectorStore}

theorem fill_store : (e.fill c t).store = e.store.fill c t := rfl

theorem fill_config : (e.fill c t).config = e.config := rfl

theorem fill_embedder : (e.fill c t).embedder = e.embedder := rfl

theorem storeDocument_fill (env : IngestEnv) (col source : String) (doc : DocumentContent)
    (dim : Nat) (rows : List ChunkRow) :
    Prod.map (Except.map (Prod.map id (VectorStore.fill c ""))) (VectorStore.fill c "")
        ((e.fill c t).storeDocument X G env col source doc dim rows)
      = Prod.map (Except.map (Prod.map id (VectorStore.fill c ""))) (VectorStore.fill c "")
          (e.storeDocument X G env col source doc dim rows) := by
  rw [storeDocument, storeDocument, fill_store, fill_embedder, VectorStore.ensureCollection_fill]
  cases e.store.ensureCollection col e.embedder.modelLabel dim env.now env.collectionRefused with
  | error err => exact congrArg (Prod.mk _) (e.store.fill_fill "")
  | ok store =>
      show (Except.map _ ((store.fill c t).insertDocument G _ _ _ _ _ _ _ _),
        (store.fill c t).fill c "") = _
      rw [VectorStore.insertDocument_fill, VectorStore.fill_fill]
      rfl

theorem summarizeNew_fill (env : IngestEnv) (documentId : String) (doc : DocumentContent)
    (summarizer : Option Summarizer) :
    Prod.map id (VectorStore.fill c "") (summarizeNew G (s.fill c t) env documentId doc summarizer)
      = Prod.map id (VectorStore.fill c "") (summarizeNew G s env documentId doc summarizer) := by
  cases summarizer with
  | none => exact congrArg (Prod.mk _) (s.fill_fill "")
  | some summarize =>
      rw [summarizeNew, summarizeNew]
      cases summarize (String.ofList (doc.fullText.toList.take 8000)) with
      | error err => exact congrArg (Prod.mk _) (s.fill_fill "")
      | ok summary =>
          -- Setting the summary succeeds on the one store exactly when it does on the other.
          have hset := s.setSummary_fill (G := G) (c := c) (t := t) env.summaryNonce
            env.summaryRefused documentId summary
          dsimp only
          cases hs : s.setSummary G env.summaryNonce env.summaryRefused documentId summary with
          | error err =>
              rw [hs] at hset
              cases hs' : (s.fill c t).setSummary G env.summaryNonce env.summaryRefused
                  documentId summary with
              | error err' => exact congrArg (Prod.mk _) (s.fill_fill "")
              | ok store' =>
                  rw [hs'] at hset
                  cases hset
          | ok store =>
              rw [hs] at hset
              cases hs' : (s.fill c t).setSummary G env.summaryNonce env.summaryRefused
                  documentId summary with
              | error err' =>
                  rw [hs'] at hset
                  cases hset
              | ok store' =>
                  rw [hs'] at hset
                  exact congrArg (Prod.mk _) (Except.ok.inj hset)

theorem summarizeNew_agree {s' : VectorStore} (h : s.Agree c s') (env : IngestEnv)
    (documentId : String) (doc : DocumentContent) (summarizer : Option Summarizer) :
    Prod.map id (VectorStore.fill c "") (summarizeNew G s env documentId doc summarizer)
      = Prod.map id (VectorStore.fill c "") (summarizeNew G s' env documentId doc summarizer) :=
  VectorStore.Agree.of_fill (f := fun s => Prod.map id (VectorStore.fill c "")
    (summarizeNew G s env documentId doc summarizer))
    (fun _ => summarizeNew_fill env documentId doc summarizer) h

/-- An ingest does not look at any text that is there. -/
theorem ingestDocument_fill (env : IngestEnv) (col source : String) (doc : DocumentContent)
    (summarizer : Option Summarizer) :
    Prod.map (RagEngine.fill c "") id
        ((e.fill c t).ingestDocument X G F R env col source doc summarizer)
      = Prod.map (RagEngine.fill c "") id
          (e.ingestDocument X G F R env col source doc summarizer) := by
  -- The chunks come from the document, not from what is stored.
  have hrows : (e.fill c t).chunkRows X F R source doc = e.chunkRows X F R source doc := rfl
  rw [ingestDocument, ingestDocument, hrows]
  cases e.chunkRows X F R source doc with
  | error err => exact congrArg (·, Except.error err) (e.fill_fill "")
  | ok planned =>
      obtain ⟨dim, rows⟩ := planned
      have hstore := storeDocument_fill (X := X) (G := G) (e := e) (c := c) (t := t) env col source
        doc dim rows
      dsimp only
      generalize (e.fill c t).storeDocument X G env col source doc dim rows = r' at hstore
      generalize e.storeDocument X G env col source doc dim rows = r at hstore
      obtain ⟨stored, store⟩ := r
      obtain ⟨stored', store'⟩ := r'
      obtain ⟨hstored, hrest⟩ := Prod.mk.inj hstore
      -- Both stores take the document or neither does, and then the summaries agree.
      cases stored with
      | error err =>
          cases stored' with
          | error err' =>
              obtain rfl := Except.error.inj hstored
              exact congrArg (fun store => (({ e with store } : RagEngine), Except.error err'))
                hrest
          | ok new' => cases hstored
      | ok new =>
          cases stored' with
          | error err' => cases hstored
          | ok new' =>
              obtain ⟨id', new'⟩ := new'
              obtain ⟨id, new⟩ := new
              obtain ⟨rfl, hnew⟩ := Prod.mk.inj (Except.ok.inj hstored)
              have hsummarized := summarizeNew_agree (G := G) hnew env id' doc summarizer
              obtain ⟨hsummary, hstore⟩ := Prod.mk.inj hsummarized
              refine Prod.ext ?_ ?_
              · exact congrArg (fun store => ({ e with store } : RagEngine)) hstore
              · exact congrArg (fun summary => Except.ok
                  ({ documentId := id', collection := col, chunks := rows.length
                     pages := doc.pageCount, summary } : IngestStats)) hsummary

theorem agree_fill (t : String) (e : RagEngine) : e.Agree c (e.fill c t) := (e.fill_fill "").symm

/-- Engines that agree answer an ingest alike, and agree afterwards. -/
theorem ingestDocument_agree (h : e.Agree c e') (env : IngestEnv) (col source : String)
    (doc : DocumentContent) (summarizer : Option Summarizer) :
    (e.ingestDocument X G F R env col source doc summarizer).1.Agree c
        (e'.ingestDocument X G F R env col source doc summarizer).1 ∧
      (e.ingestDocument X G F R env col source doc summarizer).2
        = (e'.ingestDocument X G F R env col source doc summarizer).2 := by
  have hboth : Prod.map (RagEngine.fill c "") id
        (e.ingestDocument X G F R env col source doc summarizer)
      = Prod.map (RagEngine.fill c "") id
          (e'.ingestDocument X G F R env col source doc summarizer) := by
    rw [← ingestDocument_fill (t := "") env col source doc summarizer,
      ← ingestDocument_fill (t := "") (e := e') env col source doc summarizer,
      show e.fill c "" = e'.fill c "" from h]
  obtain ⟨hagree, hresult⟩ := Prod.mk.inj hboth
  exact ⟨hagree, hresult⟩

theorem ingestBytes_agree (h : e.Agree c e') (env : IngestEnv) (col source : String)
    (bytes : Bytes) (filename : String) (summarizer : Option Summarizer) :
    (e.ingestBytes X G F R env col source bytes filename summarizer).1.Agree c
        (e'.ingestBytes X G F R env col source bytes filename summarizer).1 ∧
      (e.ingestBytes X G F R env col source bytes filename summarizer).2
        = (e'.ingestBytes X G F R env col source bytes filename summarizer).2 := by
  rw [ingestBytes, ingestBytes]
  cases R.extract bytes filename with
  | error err => exact ⟨h, rfl⟩
  | ok doc => exact ingestDocument_agree h env col source doc summarizer

/-! ## Retrieving -/

theorem retrieve_fill_of_ne {col : String} (h : col ≠ c) (query : String) (topK : Option Nat) :
    (e.fill c t).retrieve G F col query topK = e.retrieve G F col query topK := by
  rw [retrieve, retrieve, fill_embedder]
  cases e.embedder.embedOne query with
  | error err => rfl
  | ok q => exact VectorStore.search_fill_of_ne h

theorem retrieve_fill_self (ht : isEncrypted t = false) (query : String) (topK : Option Nat) :
    (e.fill c t).retrieve G F c query topK
      = (e.retrieve G F c query topK).map (List.map (.withText t)) := by
  rw [retrieve, retrieve, fill_embedder]
  cases e.embedder.embedOne query with
  | error err => rfl
  | ok q => exact VectorStore.search_fill_self ht

/-- A query finds chunks in a collection. -/
def Finds (F : Floats) (e : RagEngine) (col query : String) : Prop :=
  ∃ q, e.embedder.embedOne query = .ok q ∧
    e.store.Found F col (F.normalize q) e.config.minScore

theorem finds_fill_iff {col query : String} :
    (e.fill c t).Finds F col query ↔ e.Finds F col query :=
  exists_congr fun _ => and_congr_right fun _ => VectorStore.found_fill_iff

theorem exists_retrieved_iff {col query : String} {topK : Option Nat} :
    (∃ hits, e.retrieve G F col query topK = .ok hits ∧ hits ≠ []) ↔ e.Finds F col query := by
  rw [retrieve, Finds]
  cases e.embedder.embedOne query with
  | error err => exact iff_of_false (fun ⟨_, h, _⟩ => nomatch h) fun ⟨_, h, _⟩ => nomatch h
  | ok q =>
      have hk : 0 < max (topK.getD e.config.topK) 1 := by omega
      have hhits : (∃ hits, e.store.search G F col (F.normalize q)
            (max (topK.getD e.config.topK) 1) e.config.minScore = .ok hits ∧ hits ≠ []) ↔
          e.store.Found F col (F.normalize q) e.config.minScore :=
        VectorStore.exists_hits_iff hk
      constructor
      · exact fun h => ⟨q, rfl, hhits.mp h⟩
      · rintro ⟨q', hq, hfound⟩
        obtain rfl := Except.ok.inj hq
        exact hhits.mpr hfound

theorem retrieve_fill_of_not_finds (ht : isEncrypted t = false) {col query : String}
    (h : ¬ e.Finds F c query) (topK : Option Nat) :
    (e.fill c t).retrieve G F col query topK = e.retrieve G F col query topK := by
  by_cases hcol : col = c
  · subst hcol
    rw [retrieve_fill_self ht]
    cases hretrieve : e.retrieve G F col query topK with
    | error err => rfl
    | ok hits =>
        have hnil : hits = [] := by
          by_contra hne
          exact h (exists_retrieved_iff.mp ⟨hits, hretrieve, hne⟩)
        rw [hnil]
        rfl
  · exact retrieve_fill_of_ne hcol query topK

/-- Whether chunks can be retrieved does not depend on the texts of a collection. -/
theorem retrieve_fill_isOk (ht : isEncrypted t = false) (col query : String) (topK : Option Nat) :
    ((e.fill c t).retrieve G F col query topK).map (fun _ => ())
      = (e.retrieve G F col query topK).map fun _ => () := by
  by_cases hcol : col = c
  · subst hcol
    rw [retrieve_fill_self ht]
    cases e.retrieve G F col query topK with
    | error err => rfl
    | ok hits => rfl
  · rw [retrieve_fill_of_ne hcol]

theorem retrieveAllCollections_fill_isOk (query : String) (topK : Option Nat) :
    ((e.fill c t).retrieveAllCollections G F query topK).map (fun _ => ())
      = (e.retrieveAllCollections G F query topK).map fun _ => () := by
  rw [retrieveAllCollections, retrieveAllCollections, fill_embedder]
  cases e.embedder.embedOne query with
  | error err => rfl
  | ok q => rfl

end RagEngine

end Maranode.Rag
