/-
  Maranode.Rag.Retrieval

  Retrieving from all collections.

  Every collection is searched for as many chunks as are asked for, and the hits are sorted
  and cut once more.  That selects the same chunks, in the same order, as sorting those of
  all collections at once.
-/
import Maranode.Lib.TopK
import Maranode.Rag.ReadBack

namespace Maranode.Rag

open Lib Lib.TopK Store

variable (G : Aead) (F : Floats)

/-- The chunks of a collection that are close enough to the query, in the order of the
    rows. -/
def VectorStore.matching (s : VectorStore) (col : String) (q : Embedding) (m : F32Bits) :
    List ScoredChunk :=
  ((s.joined col).filter fun row => VectorStore.Matches F q m row).map
    (VectorStore.hitOf G F s.dek q)

namespace RagEngine

/-- Those of all collections, by the name of the collection. -/
def matching (e : RagEngine) (q : Embedding) : List RetrievedChunk :=
  (e.store.conn.collections.mergeSort fun a b => decide (a.name ≤ b.name)).flatMap fun row =>
    e.store.matching G F row.name q e.config.minScore

/-- The first of all chunks that are close enough, the closest ones first. -/
def selectAll (e : RagEngine) (q : Embedding) (k : Nat) : List RetrievedChunk :=
  ((e.matching G F q).mergeSort fun a b => F.totalGe a.score b.score).take k

variable {G F} {e : RagEngine} {q : Embedding} {k : Nat}

/-- A search that does not fail selects among the chunks that match. -/
theorem search_eq {s : VectorStore} {col : String} {m : F32Bits} {hits : List ScoredChunk}
    (h : s.search G F col q k m = .ok hits) :
    hits = topK (fun a b => F.totalGe a.score b.score) k (s.matching G F col q m) := by
  rw [VectorStore.search] at h
  by_cases hblobs : ∀ row ∈ s.joined col, row.1.embedding.length % 4 = 0
  · rw [VectorStore.scoreRows_of_blobs hblobs] at h
    exact (Except.ok.inj h).symm
  · have hfails : ∃ err, VectorStore.scoreRows G F s.dek q m (s.joined col) = .error err :=
      VectorStore.scoreRows_of_not_blobs hblobs
    obtain ⟨err, herr⟩ := hfails
    rw [herr] at h
    cases h

/-- No search fails over vectors that can be read. -/
theorem exists_search {s : VectorStore} (h : ∀ ch ∈ s.conn.chunks, ch.embedding.length % 4 = 0)
    (col : String) (m : F32Bits) : ∃ hits, s.search G F col q k m = .ok hits := by
  have hblobs : ∀ row ∈ s.joined col, row.1.embedding.length % 4 = 0 :=
    fun row hrow => h row.1 (VectorStore.mem_joined hrow).1
  rw [VectorStore.search, VectorStore.scoreRows_of_blobs hblobs]
  exact ⟨_, rfl⟩

theorem hitsIn_eq {name : String} {hits : List ScoredChunk}
    (h : e.store.search G F name q k e.config.minScore = .ok hits) :
    e.hitsIn G F q k name = topK (fun a b => F.totalGe a.score b.score) k
      (e.store.matching G F name q e.config.minScore) := by
  rw [hitsIn, h]
  exact search_eq h

/-- **One selection.**  Where the two comparisons are one total order on the scores found
    and no search fails, nothing is lost by cutting the hits of each collection first. -/
theorem retrieveAllCollections_eq {query : String} {topK : Option Nat}
    (hembed : e.embedder.embedOne query = .ok q) (horder : Total F.totalGe)
    (hscores : ∀ a ∈ e.matching G F (F.normalize q), ∀ b ∈ e.matching G F (F.normalize q),
      F.partialGe a.score b.score = F.totalGe a.score b.score)
    (hsearch : ∀ row ∈ e.store.conn.collections, ∃ hits, e.store.search G F row.name
      (F.normalize q) (max (topK.getD e.config.topK) 1) e.config.minScore = .ok hits) :
    e.retrieveAllCollections G F query topK =
      .ok (e.selectAll G F (F.normalize q) (max (topK.getD e.config.topK) 1)) := by
  rw [retrieveAllCollections, hembed]
  dsimp only
  generalize hq : F.normalize q = v at hscores hsearch ⊢
  generalize hk : max (topK.getD e.config.topK) 1 = k at hsearch ⊢
  -- What each search returns is the best of its collection's rows.
  have hhits : (e.store.listCollections.flatMap fun col => e.hitsIn G F v k col.name) =
      (e.store.conn.collections.mergeSort fun a b => decide (a.name ≤ b.name)).flatMap fun row =>
        TopK.topK (fun a b => F.totalGe a.score b.score) k
          (e.store.matching G F row.name v e.config.minScore) := by
    rw [VectorStore.listCollections, List.flatMap_map]
    refine List.flatMap_congr fun row hrow => ?_
    obtain ⟨hits, hhits⟩ := hsearch row (List.mem_mergeSort.mp hrow)
    exact hitsIn_eq hhits
  rw [hhits]
  -- On these hits the two comparisons agree, so the second sorting is by the same order.
  have hsame : ∀ hit ∈ (e.store.conn.collections.mergeSort fun a b =>
      decide (a.name ≤ b.name)).flatMap fun row => TopK.topK
        (fun a b => F.totalGe a.score b.score) k
        (e.store.matching G F row.name v e.config.minScore), hit ∈ e.matching G F v := by
    intro hit hhit
    obtain ⟨row, hrow, hmem⟩ := List.mem_flatMap.mp hhit
    refine List.mem_flatMap.mpr ⟨row, hrow, ?_⟩
    exact List.mem_mergeSort.mp (List.mem_of_mem_take hmem)
  -- The best of the bests are the best of all.
  refine congrArg Except.ok ?_
  show TopK.topK (fun a b : ScoredChunk => F.partialGe a.score b.score) k _ = _
  rw [topK_congr (fun a ha b hb => hscores a (hsame a ha) b (hsame b hb)) k,
    topK_flatMap (horder.comap ScoredChunk.score)]
  rfl

end RagEngine

/-! ## Two collections -/

theorem total_sample : Total Floats.sample.totalGe where
  trans a b c hab hbc :=
    decide_eq_true (UInt32.le_trans (of_decide_eq_true hbc) (of_decide_eq_true hab))
  total a b := by
    rcases UInt32.le_total a b with h | h
    · rw [Bool.or_eq_true_iff]
      exact .inr (decide_eq_true h)
    · rw [Bool.or_eq_true_iff]
      exact .inl (decide_eq_true h)

def sampleDocument (id collection : String) : DocumentRow where
  id := id
  collection := collection
  source := id ++ ".txt"
  sha256 := ""
  ingestedAt := "2025-03-12T14:22:01Z"
  title := none
  author := none
  pageCount := 1
  summary := none

def sampleChunk (d : DocumentRow) (ordinal : Nat) (score : F32Bits) : StoredChunk :=
  .of d
    { id := d.id ++ "-" ++ toString ordinal
      ordinal
      text := d.id
      embedding := vecToBlob [score]
      pageNumber := 1
      section_ := none
      contentHash := "" }

/-- Chunks with the scores 0.25 and 0.5, and one in another collection with 0.5. -/
def twoCollections : Database where
  collections := [⟨"notes", "m", 1, ""⟩, ⟨"laws", "m", 1, ""⟩]
  documents := [sampleDocument "n" "notes", sampleDocument "l" "laws"]
  chunks :=
    [sampleChunk (sampleDocument "n" "notes") 0 0x3e800000,
      sampleChunk (sampleDocument "n" "notes") 1 0x3f000000,
      sampleChunk (sampleDocument "l" "laws") 0 0x3f000000]
  ids := by decide
  owned := by
    intro ch hch
    rcases List.mem_cons.mp hch with rfl | hch
    · exact ⟨_, List.mem_cons_self .., rfl, rfl⟩
    · rcases List.mem_cons.mp hch with rfl | hch
      · exact ⟨_, List.mem_cons_self .., rfl, rfl⟩
      · obtain rfl := List.mem_singleton.mp hch
        exact ⟨_, List.mem_cons_of_mem _ (List.mem_cons_self ..), rfl, rfl⟩

/-- An embedder that gives `[1.0]` for every text. -/
def unitEngine : RagEngine where
  store := plain twoCollections
  embedder := ⟨"m", fun texts => .ok (texts.map fun _ => [0x3f800000])⟩
  config := ⟨"notes", 512, 64, 2, 0⟩

theorem retrieveAllCollections_unitEngine :
    unitEngine.retrieveAllCollections .sample .sample "appeal" none =
      .ok (unitEngine.selectAll .sample .sample [0x3f800000] 2) := by
  have hnormal : Floats.sample.normalize [0x3f800000] = [0x3f800000] := by decide
  rw [← hnormal]
  exact RagEngine.retrieveAllCollections_eq rfl total_sample (fun _ _ _ _ => rfl)
    fun row _ => RagEngine.exists_search (by decide) row.name _

end Maranode.Rag
