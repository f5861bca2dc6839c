/-
  Maranode.Rag.ReadBack

  What a store gives back of what was ingested into it.

  `reveal` reads every text of a database with the key of the store.  A store that writes and
  reads with one key option is, revealed, the database that took every text as it is
  (`reveal_ledger`), and all but one of the reads are those of that database: only
  `get_document_text` does not fall back to what is stored.
-/
import Maranode.Lib.Run
import Maranode.Rag.Texts

namespace Maranode.Rag

open Lib Store

variable (G : Aead) (F : Floats)

/-! ## One text -/

section Cell

variable {G} {nonce : ByteArr 12} {dek : Option Dek} {text stored : String}

/-- **The round trip.**  A text comes back from where it was put, unless it was put there
    without a key and looks like one that was not. -/
theorem maybeDecrypt_maybeEncrypt_iff (h : maybeEncrypt G nonce dek text = .ok stored) :
    maybeDecrypt G dek stored = .ok text ↔ dek.isSome ∨ isEncrypted text = false := by
  cases dek with
  | some k =>
      have henc : isEncrypted stored = true := (decrypt_of_encrypt k h).1
      refine iff_of_true ?_ (.inl rfl)
      unfold maybeDecrypt
      rw [if_pos henc]
      exact decrypt_encrypt h
  | none =>
      obtain rfl := Except.ok.inj h
      rw [Option.isSome_none, maybeDecrypt]
      cases isEncrypted text <;> simp

/-- The readers that fall back to what is stored always give the text. -/
theorem readCell_maybeEncrypt (h : maybeEncrypt G nonce dek text = .ok stored) :
    readCell G dek stored = text := by
  cases dek with
  | some k =>
      have hback := (maybeDecrypt_maybeEncrypt_iff h).mpr (.inl rfl)
      rw [readCell, hback]
  | none =>
      obtain rfl := Except.ok.inj h
      rw [readCell, maybeDecrypt]
      cases isEncrypted text <;> rfl

theorem readCell_none (raw : String) : readCell G none raw = raw := by
  have hplain : maybeEncrypt G ⟨List.replicate 12 0, List.length_replicate⟩ none raw = .ok raw :=
    rfl
  exact readCell_maybeEncrypt hplain

end Cell

/-! ## A database that is read with a key -/

def SealedChunk.reveal (dek : Option Dek) (ch : SealedChunk) : SealedChunk :=
  { ch with text := readCell G dek ch.text }

def StoredChunk.reveal (dek : Option Dek) (ch : StoredChunk) : StoredChunk :=
  { ch with text := readCell G dek ch.text }

def DocumentRow.reveal (dek : Option Dek) (d : DocumentRow) : DocumentRow :=
  { d with summary := d.summary.map (readCell G dek) }

def Database.reveal (dek : Option Dek) (db : Database) : Database :=
  db.update (.reveal G dek) (.reveal G dek) (fun _ => ⟨rfl, rfl⟩) fun _ => ⟨rfl, rfl⟩

/-- The store over a database that takes every text as it is. -/
def plain (db : Database) : VectorStore := ⟨db, none⟩

/-- The texts of a document, one after the other. -/
def Database.textOf (db : Database) (documentId : String) : Option String :=
  let rows := (plain db).chunksOfDocument documentId
  if rows.isEmpty then none else some ("\n\n".intercalate (rows.map (·.text)))

section Reads

variable {G F} {s : VectorStore}

theorem joined_reveal (col : String) :
    (plain (s.conn.reveal G s.dek)).joined col =
      (s.joined col).map fun row => (row.1.reveal G s.dek, row.2.reveal G s.dek) := by
  show ((s.conn.chunks.map (StoredChunk.reveal G s.dek)).filter _).filterMap
      (fun ch => ((s.conn.documents.map (DocumentRow.reveal G s.dek)).find? _).map _) = _
  rw [List.filter_map, List.filterMap_map, VectorStore.joined, List.map_filterMap]
  congr 1
  funext ch
  show ((s.conn.documents.map (DocumentRow.reveal G s.dek)).find? _).map _ = _
  rw [List.find?_map, Option.map_map, Option.map_map]
  rfl

/-- A row is scored by its vector, and found with the text that is read. -/
theorem scoreRow_reveal (q : Embedding) (m : F32Bits) (row : JoinedRow) (dek : Option Dek) :
    VectorStore.scoreRow G F none q m (row.1.reveal G dek, row.2.reveal G dek) =
      VectorStore.scoreRow G F dek q m row := by
  rw [VectorStore.scoreRow, VectorStore.scoreRow]
  dsimp only [StoredChunk.reveal, DocumentRow.reveal]
  rw [readCell_none]

theorem scoreRows_reveal (q : Embedding) (m : F32Bits) (rows : List JoinedRow)
    (dek : Option Dek) :
    VectorStore.scoreRows G F none q m
        (rows.map fun row => (row.1.reveal G dek, row.2.reveal G dek)) =
      VectorStore.scoreRows G F dek q m rows := by
  induction rows with
  | nil => rfl
  | cons row rows ih =>
      rw [List.map_cons, VectorStore.scoreRows, VectorStore.scoreRows, scoreRow_reveal, ih]

theorem search_reveal (col : String) (q : Embedding) (k : Nat) (m : F32Bits) :
    s.search G F col q k m = (plain (s.conn.reveal G s.dek)).search G F col q k m := by
  rw [VectorStore.search, VectorStore.search, joined_reveal]
  show _ = Except.map _ (VectorStore.scoreRows G F none q m _)
  rw [scoreRows_reveal]

theorem documentInfo_reveal (d : DocumentRow) :
    (plain (s.conn.reveal G s.dek)).documentInfo G (d.reveal G s.dek) = s.documentInfo G d := by
  have hcount : (s.conn.chunks.map (StoredChunk.reveal G s.dek)).countP (·.documentId == d.id) =
      s.conn.chunks.countP (·.documentId == d.id) := by
    rw [List.countP_map]
    rfl
  have hsummary : (d.summary.map (readCell G s.dek)).map (readCell G none) =
      d.summary.map (readCell G s.dek) := by
    rw [Option.map_map]
    congr 1
    funext raw
    exact readCell_none _
  rw [VectorStore.documentInfo, VectorStore.documentInfo]
  congr 1

theorem listDocuments_reveal (col : String) :
    s.listDocuments G col = (plain (s.conn.reveal G s.dek)).listDocuments G col := by
  show _ = (((s.conn.documents.map (DocumentRow.reveal G s.dek)).filter _).mergeSort _).map _
  have hsort : ((s.conn.documents.filter (·.collection == col)).map
        (DocumentRow.reveal G s.dek)).mergeSort (fun a b => decide (b.ingestedAt ≤ a.ingestedAt)) =
      ((s.conn.documents.filter (·.collection == col)).mergeSort
        fun a b => decide (b.ingestedAt ≤ a.ingestedAt)).map (DocumentRow.reveal G s.dek) :=
    (List.map_mergeSort (f := DocumentRow.reveal G s.dek) fun a _ b _ => rfl).symm
  have hfilter : (s.conn.documents.map (DocumentRow.reveal G s.dek)).filter
        (·.collection == col) =
      (s.conn.documents.filter (·.collection == col)).map (DocumentRow.reveal G s.dek) := by
    rw [List.filter_map]
    rfl
  rw [hfilter, hsort, List.map_map, VectorStore.listDocuments]
  exact List.map_congr_left fun d _ => (documentInfo_reveal d).symm

theorem getDocument_reveal (id : String) :
    s.getDocument G id = (plain (s.conn.reveal G s.dek)).getDocument G id := by
  show _ = ((s.conn.documents.map (DocumentRow.reveal G s.dek)).find? _).map _
  rw [List.find?_map, Option.map_map, VectorStore.getDocument]
  show _ = (s.conn.documents.find? (·.id == id)).map _
  congr 1
  funext d
  exact (documentInfo_reveal d).symm

theorem chunksOfDocument_reveal (id : String) :
    (plain (s.conn.reveal G s.dek)).chunksOfDocument id =
      (s.chunksOfDocument id).map (StoredChunk.reveal G s.dek) := by
  show ((s.conn.chunks.map (StoredChunk.reveal G s.dek)).filter _).mergeSort _ = _
  have hfilter : (s.conn.chunks.map (StoredChunk.reveal G s.dek)).filter (·.documentId == id) =
      (s.conn.chunks.filter (·.documentId == id)).map (StoredChunk.reveal G s.dek) := by
    rw [List.filter_map]
    rfl
  rw [hfilter, VectorStore.chunksOfDocument]
  exact (List.map_mergeSort (f := StoredChunk.reveal G s.dek) fun a _ b _ => rfl).symm

/-- What decrypts is what the readers that fall back give. -/
theorem decryptRows_eq {dek : Option Dek} {rows : List StoredChunk} {texts : List String}
    (h : VectorStore.decryptRows G dek rows = .ok texts) :
    texts = rows.map fun ch => readCell G dek ch.text := by
  induction rows generalizing texts with
  | nil => exact (Except.ok.inj h).symm
  | cons ch rows ih =>
      rw [VectorStore.decryptRows] at h
      cases htext : maybeDecrypt G dek ch.text with
      | error e =>
          rw [htext] at h
          cases h
      | ok text =>
          rw [htext] at h
          dsimp only at h
          cases hrest : VectorStore.decryptRows G dek rows with
          | error e =>
              rw [hrest] at h
              cases h
          | ok rest =>
              rw [hrest] at h
              obtain rfl := Except.ok.inj h
              rw [List.map_cons, readCell, htext, ← ih hrest]

/-- The rows decrypt when every one does. -/
theorem decryptRows_ok_iff {dek : Option Dek} {rows : List StoredChunk} :
    (∃ texts, VectorStore.decryptRows G dek rows = .ok texts) ↔
      ∀ ch ∈ rows, ∃ text, maybeDecrypt G dek ch.text = .ok text := by
  induction rows with
  | nil => exact iff_of_true ⟨[], rfl⟩ nofun
  | cons ch rows ih =>
      rw [List.forall_mem_cons, ← ih, VectorStore.decryptRows]
      cases htext : maybeDecrypt G dek ch.text with
      | error e => simp
      | ok text => cases VectorStore.decryptRows G dek rows <;> simp [Except.map]

end Reads

/-! ## What is written -/

/-- The text was put here by a store with this key. -/
def Written (dek : Option Dek) (raw : String) : Prop :=
  ∃ nonce text, maybeEncrypt G nonce dek text = .ok raw

/-- All texts and summaries were. -/
structure Database.AllWritten (dek : Option Dek) (db : Database) : Prop where
  chunks : ∀ ch ∈ db.chunks, Written G dek ch.text
  summaries : ∀ d ∈ db.documents, ∀ raw, d.summary = some raw → Written G dek raw

section Written

variable {G} {s s' : VectorStore} {dek : Option Dek} {raw : String}

/-- A text that was written decrypts with the same key, or it looks like one that has to be. -/
theorem maybeDecrypt_of_written (h : Written G dek raw) :
    (∃ text, maybeDecrypt G dek raw = .ok text) ↔
      dek.isSome ∨ isEncrypted (readCell G dek raw) = false := by
  obtain ⟨nonce, text, hstored⟩ := h
  rw [readCell_maybeEncrypt hstored, ← maybeDecrypt_maybeEncrypt_iff hstored]
  refine ⟨fun ⟨text', htext⟩ => ?_, fun htext => ⟨text, htext⟩⟩
  have hread : readCell G dek raw = text' := by
    rw [readCell, htext]
  rw [htext, ← hread, readCell_maybeEncrypt hstored]

/-- `get_document_text` of a store whose texts were all written with its key. -/
theorem getDocumentText_iff (h : s.conn.AllWritten G s.dek) (id : String) :
    s.getDocumentText G id = .ok ((s.conn.reveal G s.dek).textOf id) ↔
      s.dek.isSome ∨ ∀ ch ∈ (s.conn.reveal G s.dek).chunks, ch.documentId = id →
        isEncrypted ch.text = false := by
  -- The chunks are sorted by ordinal, which does not change which they are.
  have hmem : ∀ ch, ch ∈ s.chunksOfDocument id ↔ ch ∈ s.conn.chunks ∧ ch.documentId = id := by
    intro ch
    rw [VectorStore.chunksOfDocument, (List.mergeSort_perm _ _).mem_iff, List.mem_filter,
      beq_iff_eq]
  -- Every chunk decrypts, or there is no key and none is encrypted.
  have hdecrypts : (∃ texts, VectorStore.decryptRows G s.dek (s.chunksOfDocument id) = .ok texts) ↔
      s.dek.isSome ∨ ∀ ch ∈ (s.conn.reveal G s.dek).chunks, ch.documentId = id →
        isEncrypted ch.text = false := by
    rw [decryptRows_ok_iff]
    show _ ↔ _ ∨ ∀ ch ∈ s.conn.chunks.map (StoredChunk.reveal G s.dek), _
    rw [List.forall_mem_map]
    constructor
    · intro hall
      by_cases hkey : s.dek.isSome
      · exact .inl hkey
      · refine .inr fun ch hch hid => ?_
        have hdec := hall ch ((hmem ch).mpr ⟨hch, hid⟩)
        exact ((maybeDecrypt_of_written (h.chunks ch hch)).mp hdec).resolve_left hkey
    · intro hcond ch hch
      obtain ⟨hch, hid⟩ := (hmem ch).mp hch
      exact (maybeDecrypt_of_written (h.chunks ch hch)).mpr (hcond.imp_right fun hall =>
        hall ch hch hid)
  rw [← hdecrypts, VectorStore.getDocumentText, Database.textOf, chunksOfDocument_reveal,
    List.isEmpty_map]
  -- No chunks means no text, whatever the key.
  cases hempty : (s.chunksOfDocument id).isEmpty with
  | true =>
      rw [List.isEmpty_iff.mp hempty]
      exact iff_of_true rfl ⟨[], rfl⟩
  | false =>
      show Except.map _ _ = Except.ok (some _) ↔ _
      cases hrows : VectorStore.decryptRows G s.dek (s.chunksOfDocument id) with
      | error e => simp [Except.map]
      | ok texts =>
          refine iff_of_true ?_ ⟨texts, rfl⟩
          rw [decryptRows_eq hrows, List.map_map]
          rfl

end Written

/-! ## Operations -/

/-- What writes to a store. -/
inductive StoreOp where
  | ensureCollection (name embeddingModel : String) (dim : Nat) (now : String)
    (refused : Option String)
  | insertDocument (env : InsertEnv) (collection source sha256 : String) (chunks : List ChunkRow)
    (title author : Option String) (pageCount : Nat)
  | setSummary (nonce : ByteArr 12) (refused : Option String) (documentId summary : String)
  | deleteDocument (documentId : String)
  | deleteCollection (name : String)

def StoreOp.run (s : VectorStore) : StoreOp → Except String VectorStore
  | .ensureCollection name embeddingModel dim now refused =>
      s.ensureCollection name embeddingModel dim now refused
  | .insertDocument env collection source sha256 chunks title author pageCount =>
      (s.insertDocument G env collection source sha256 chunks title author pageCount).map (·.2)
  | .setSummary nonce refused documentId summary =>
      s.setSummary G nonce refused documentId summary
  | .deleteDocument documentId => .ok (s.deleteDocument documentId).2
  | .deleteCollection name => .ok (s.deleteCollection name).2

/-- A store, and the database as it is with every text as it was ingested. -/
structure Ledger where
  store : VectorStore
  ingested : Database

/-- A store with the key option that it keeps, whenever it is opened. -/
def Ledger.opened (dek : Option Dek) : Ledger where
  store := ⟨.empty, dek⟩
  ingested := .empty

/-- What a store accepts is taken down as it is given. -/
def Ledger.apply (w : Ledger) (op : StoreOp) : Ledger :=
  match op.run G w.store with
  | .error _ => w
  | .ok store =>
      match op.run G (plain w.ingested) with
      | .error _ => { w with store }
      | .ok taken => { store, ingested := taken.conn }

def Ledger.step (w : Ledger) (op : StoreOp) : Option Ledger := some (w.apply G op)

section Operations

variable {G} {s s' : VectorStore} {dek : Option Dek}

/-- The chunks as they are stored are written with the key, and read as they were given. -/
theorem sealChunks_reveal {env : InsertEnv} {ordinal : Nat} {chunks : List ChunkRow}
    {new : List SealedChunk} (h : VectorStore.sealChunks G dek env ordinal chunks = .ok new) :
    VectorStore.sealChunks G none env ordinal chunks = .ok (new.map (SealedChunk.reveal G dek)) ∧
      ∀ ch ∈ new, Written G dek ch.text := by
  induction chunks generalizing ordinal new with
  | nil =>
      obtain rfl := Except.ok.inj h
      exact ⟨rfl, nofun⟩
  | cons chunk chunks ih =>
      obtain ⟨stored, rest, hstored, hrest, rfl⟩ := VectorStore.sealChunks_cons_eq_ok h
      obtain ⟨hplain, hwritten⟩ := ih hrest
      refine ⟨?_, List.forall_mem_cons.mpr ⟨⟨_, _, hstored⟩, hwritten⟩⟩
      rw [VectorStore.sealChunks, hplain, List.map_cons, SealedChunk.reveal]
      dsimp only
      rw [readCell_maybeEncrypt hstored]
      rfl

theorem ensureCollection_reveal (s : VectorStore) (name model : String) (dim : Nat) (now : String)
    (refused : Option String) :
    (plain (s.conn.reveal G s.dek)).ensureCollection name model dim now refused =
      (s.ensureCollection name model dim now refused).map fun s' =>
        plain (s'.conn.reveal G s.dek) := by
  have hfound : (plain (s.conn.reveal G s.dek)).conn.collections = s.conn.collections := rfl
  unfold VectorStore.ensureCollection
  rw [hfound]
  cases s.conn.collections.find? (·.name == name) with
  | some row =>
      dsimp only
      split
      · rfl
      · split
        · rfl
        · rfl
  | none => cases refused <;> rfl

theorem ensureCollection_dek {name model : String} {dim : Nat} {now : String}
    {refused : Option String} (h : s.ensureCollection name model dim now refused = .ok s') :
    s'.dek = s.dek := by
  unfold VectorStore.ensureCollection at h
  split at h
  · split at h
    · cases h
    · split at h
      · cases h
      · obtain rfl := Except.ok.inj h
        rfl
  · split at h
    · cases h
    · obtain rfl := Except.ok.inj h
      rfl

variable (dek) in
/-- The rows of a database that is filled up, read with the key. -/
theorem insert_reveal {db db' : Database} {row : DocumentRow} {new : List SealedChunk}
    (h : db.insert row new = some db') (hsummary : row.summary = none) :
    (db.reveal G dek).insert row (new.map (SealedChunk.reveal G dek)) =
        some (db'.reveal G dek) ∧
      (db.AllWritten G dek → (∀ ch ∈ new, Written G dek ch.text) → db'.AllWritten G dek) := by
  rw [Database.insert] at h
  split at h
  · rename_i hfresh
    obtain rfl := Option.some.inj h
    -- A new row has no summary yet, so revealing it changes nothing.
    have hrow : row.reveal G dek = row := by
      rw [DocumentRow.reveal, hsummary]
      cases row
      exact congrArg _ hsummary.symm
    have hids : (db.reveal G dek).documents.map (·.id) = db.documents.map (·.id) := by
      show (db.documents.map (DocumentRow.reveal G dek)).map _ = _
      rw [List.map_map]
      rfl
    -- The revealed rows and the written ones, side by side.
    constructor
    · rw [Database.insert, dif_pos (by rw [hids]; exact hfresh)]
      refine congrArg some (Database.ext rfl ?_ ?_)
      · show db.documents.map (DocumentRow.reveal G dek) ++ [row] =
          (db.documents ++ [row]).map (DocumentRow.reveal G dek)
        rw [List.map_append, List.map_singleton, hrow]
      · show db.chunks.map (StoredChunk.reveal G dek) ++ _ =
          (db.chunks ++ new.map (StoredChunk.of row)).map (StoredChunk.reveal G dek)
        rw [List.map_append, List.map_map, List.map_map]
        rfl
    -- The new chunks are written, and the old ones were.
    · intro hwritten hnew
      refine ⟨fun ch hch => ?_, fun d hd raw hraw => ?_⟩
      · rcases List.mem_append.mp hch with hold | hadded
        · exact hwritten.chunks ch hold
        · obtain ⟨sealed, hsealed, rfl⟩ := List.mem_map.mp hadded
          exact hnew sealed hsealed
      · rcases List.mem_append.mp hd with hold | hadded
        · exact hwritten.summaries d hold raw hraw
        · rw [List.mem_singleton.mp hadded, hsummary] at hraw
          cases hraw
  · cases h

/-- Rows that go take their texts along. -/
theorem deleteDocuments_reveal (db : Database) (keep : DocumentRow → Bool)
    (hkeep : ∀ d, keep (d.reveal G dek) = keep d) :
    (db.reveal G dek).deleteDocuments keep = (db.deleteDocuments keep).reveal G dek := by
  apply Database.ext
  · rfl
  · show (db.documents.map (DocumentRow.reveal G dek)).filter keep = _
    rw [List.filter_map]
    show (db.documents.filter fun d => keep (d.reveal G dek)).map _ = _
    simp only [hkeep]
    rfl
  · show chunksOf (db.documents.map (DocumentRow.reveal G dek)) keep
      (db.chunks.map (StoredChunk.reveal G dek)) = _
    rw [chunksOf, List.filter_map]
    show (db.chunks.filter fun ch => (db.documents.map (DocumentRow.reveal G dek)).any _).map _ = _
    simp only [List.any_map]
    show (db.chunks.filter fun ch => db.documents.any fun d =>
      d.id == ch.documentId && keep (d.reveal G dek)).map _ = _
    simp only [hkeep]
    rfl

theorem allWritten_deleteDocuments {db : Database} (h : db.AllWritten G dek)
    (keep : DocumentRow → Bool) : (db.deleteDocuments keep).AllWritten G dek where
  chunks ch hch := h.chunks ch (List.mem_of_mem_filter hch)
  summaries d hd := h.summaries d (List.mem_of_mem_filter hd)

theorem withSummary_reveal {nonce : ByteArr 12} {id summary stored : String}
    (h : maybeEncrypt G nonce dek summary = .ok stored) (d : DocumentRow) :
    DocumentRow.withSummary id summary (d.reveal G dek) =
      (d.withSummary id stored).reveal G dek := by
  have hkey : (d.reveal G dek).id = d.id := rfl
  rw [DocumentRow.withSummary, DocumentRow.withSummary, hkey]
  by_cases hid : d.id = id
  · rw [if_pos hid, if_pos hid, DocumentRow.reveal, DocumentRow.reveal]
    dsimp only [Option.map_some]
    rw [readCell_maybeEncrypt h]
  · rw [if_neg hid, if_neg hid]

theorem setSummary_reveal {nonce : ByteArr 12} {refused : Option String} {id summary : String}
    (h : s.setSummary G nonce refused id summary = .ok s') :
    (plain (s.conn.reveal G s.dek)).setSummary G nonce refused id summary =
        .ok (plain (s'.conn.reveal G s.dek)) ∧
      s'.dek = s.dek ∧ (s.conn.AllWritten G s.dek → s'.conn.AllWritten G s.dek) := by
  rw [VectorStore.setSummary] at h
  cases hstored : maybeEncrypt G nonce s.dek summary with
  | error e =>
      rw [hstored] at h
      cases h
  | ok stored =>
      rw [hstored] at h
      cases refused with
      | some e => cases h
      | none =>
          obtain rfl := Except.ok.inj h
          refine ⟨?_, rfl, fun hwritten => ⟨fun ch hch => ?_, fun d hd raw hraw => ?_⟩⟩
          -- Setting the summary and revealing the rows commute.
          · show Except.ok (plain ((s.conn.reveal G s.dek).setSummary id summary)) = _
            refine congrArg (fun db => Except.ok (plain db)) (Database.ext rfl ?_ ?_)
            · show (s.conn.documents.map (DocumentRow.reveal G s.dek)).map _ =
                (s.conn.documents.map (.withSummary id stored)).map (DocumentRow.reveal G s.dek)
              rw [List.map_map, List.map_map]
              exact List.map_congr_left fun d _ => withSummary_reveal hstored d
            · show (s.conn.chunks.map (StoredChunk.reveal G s.dek)).map _ =
                (s.conn.chunks.map _).map (StoredChunk.reveal G s.dek)
              rw [List.map_id, List.map_id]
          -- The chunks stay, and only the row of this id gets a new text.
          · obtain ⟨old, hold, rfl⟩ := List.mem_map.mp hch
            exact hwritten.chunks old hold
          · obtain ⟨old, hold, rfl⟩ := List.mem_map.mp hd
            rw [DocumentRow.withSummary] at hraw
            split at hraw
            · obtain rfl := Option.some.inj hraw
              exact ⟨nonce, summary, hstored⟩
            · exact hwritten.summaries old hold raw hraw

theorem insertDocument_reveal {env : InsertEnv} {col source sha256 id : String}
    {chunks : List ChunkRow} {title author : Option String} {pageCount : Nat}
    (h : s.insertDocument G env col source sha256 chunks title author pageCount = .ok (id, s')) :
    (plain (s.conn.reveal G s.dek)).insertDocument G env col source sha256 chunks title author
        pageCount = .ok (id, plain (s'.conn.reveal G s.dek)) ∧
      s'.dek = s.dek ∧ (s.conn.AllWritten G s.dek → s'.conn.AllWritten G s.dek) := by
  obtain ⟨rfl, hcollection, new, conn, hseal, hrefused, hinsert, rfl⟩ :=
    VectorStore.insertDocument_eq_ok h
  obtain ⟨hplain, hnew⟩ := sealChunks_reveal hseal
  obtain ⟨hrevealed, hwritten⟩ := insert_reveal s.dek hinsert rfl
  refine ⟨?_, rfl, fun hold => hwritten hold hnew⟩
  have hfound : (!(plain (s.conn.reveal G s.dek)).conn.collections.any (·.name == col)) = false :=
    congrArg not hcollection
  rw [VectorStore.insertDocument, hfound, if_neg Bool.false_ne_true]
  dsimp only [plain]
  rw [hplain, hrefused]
  dsimp only
  rw [hrevealed]

/-- **One operation.**  What a store accepts, the database of what was ingested takes as it
    is given, and the two are again the same to one who reads with the key. -/
theorem run_reveal {op : StoreOp} (hop : op.run G s = .ok s') :
    op.run G (plain (s.conn.reveal G s.dek)) = .ok (plain (s'.conn.reveal G s.dek)) ∧
      s'.dek = s.dek ∧ (s.conn.AllWritten G s.dek → s'.conn.AllWritten G s.dek) := by
  cases op with
  | ensureCollection name model dim now refused =>
      obtain hop : s.ensureCollection name model dim now refused = .ok s' := hop
      -- The collection's row has no text in it, so the chunks and summaries are the same.
      obtain ⟨hdocs, hchunks⟩ := VectorStore.ensureCollection_rows hop
      refine ⟨?_, ?_, fun h => ⟨?_, ?_⟩⟩
      · rw [StoreOp.run, ensureCollection_reveal, hop]
        rfl
      · exact ensureCollection_dek hop
      · rw [hchunks]
        exact h.chunks
      · rw [hdocs]
        exact h.summaries
  | insertDocument env col source sha256 chunks title author pageCount =>
      rw [StoreOp.run] at hop
      cases hinsert : s.insertDocument G env col source sha256 chunks title author pageCount with
      | error e =>
          rw [hinsert] at hop
          cases hop
      | ok new =>
          rw [hinsert] at hop
          obtain ⟨id, store⟩ := new
          obtain rfl : store = s' := Except.ok.inj hop
          obtain ⟨hplain, hrest⟩ := insertDocument_reveal hinsert
          refine ⟨?_, hrest⟩
          rw [StoreOp.run, hplain]
          rfl
  | setSummary nonce refused id summary => exact setSummary_reveal hop
  | deleteDocument id =>
      obtain rfl := Except.ok.inj hop
      refine ⟨?_, rfl, fun h => allWritten_deleteDocuments h _⟩
      exact congrArg (fun db => Except.ok (plain db)) (deleteDocuments_reveal _ _ fun _ => rfl)
  | deleteCollection name =>
      obtain rfl := Except.ok.inj hop
      -- The rows that go are picked by their collection, which revealing keeps.
      have hrows : (s.conn.reveal G s.dek).deleteDocuments (fun d => !(d.collection == name)) =
          (s.conn.deleteDocuments fun d => !(d.collection == name)).reveal G s.dek :=
        deleteDocuments_reveal _ _ fun _ => rfl
      have hdelete : (s.conn.reveal G s.dek).deleteCollection name =
          (s.conn.deleteCollection name).reveal G s.dek := by
        apply Database.ext
        · rfl
        · show ((s.conn.reveal G s.dek).deleteDocuments _).documents = _
          rw [hrows]
          rfl
        · show ((s.conn.reveal G s.dek).deleteDocuments _).chunks = _
          rw [hrows]
          rfl
      refine ⟨congrArg (fun db => Except.ok (plain db)) hdelete, rfl, fun h => ?_⟩
      obtain ⟨hchunks, hsummaries⟩ := allWritten_deleteDocuments h fun d => !(d.collection == name)
      exact ⟨hchunks, hsummaries⟩

end Operations

/-! ## Runs -/

/-- The database of what was ingested is that of the store, read with its key. -/
structure Ledger.Kept (dek : Option Dek) (w : Ledger) : Prop where
  key : w.store.dek = dek
  written : w.store.conn.AllWritten G dek
  ledger : w.store.conn.reveal G dek = w.ingested

section Runs

variable {G F} {w w' : Ledger} {dek : Option Dek}

theorem kept_opened (dek : Option Dek) : (Ledger.opened dek).Kept G dek where
  key := rfl
  written := ⟨nofun, nofun⟩
  ledger := rfl

theorem kept_step {op : StoreOp} (h : w.Kept G dek) (hstep : w.step G op = some w') :
    w'.Kept G dek := by
  obtain rfl := Option.some.inj hstep
  rw [Ledger.apply]
  cases hop : op.run G w.store with
  | error e => exact h
  | ok store =>
      obtain ⟨hplain, hdek, hwritten⟩ := run_reveal hop
      rw [h.key] at hplain hdek hwritten
      rw [h.ledger] at hplain
      dsimp only
      rw [hplain]
      exact ⟨hdek, hwritten h.written, rfl⟩

theorem reveal_ledger {ops : List StoreOp}
    (h : Run.run (Ledger.step G) (.opened dek) ops = some w) : w.Kept G dek :=
  Run.invariant_of_run (I := Ledger.Kept G dek) (fun _ _ _ => kept_step) (kept_opened dek) h

/-- **What is read back.**  After any operations on a store that is always opened with the
    same key option, searches and listings of documents are those of what was ingested.  A
    text comes back from `maybe_decrypt`, and those of a document from `get_document_text`,
    exactly when there is a key or they do not start with the mark of an encrypted one. -/
theorem read_back_iff (G : Aead) (F : Floats) (dek : Option Dek) :
    (∀ nonce text stored, maybeEncrypt G nonce dek text = .ok stored →
      (maybeDecrypt G dek stored = .ok text ↔ dek.isSome ∨ isEncrypted text = false)) ∧
    ∀ (ops : List StoreOp) (w : Ledger), Run.run (Ledger.step G) (.opened dek) ops = some w →
      (∀ col q k m, w.store.search G F col q k m = (plain w.ingested).search G F col q k m) ∧
      (∀ col, w.store.listDocuments G col = (plain w.ingested).listDocuments G col) ∧
      (∀ id, w.store.getDocument G id = (plain w.ingested).getDocument G id) ∧
      ∀ id, w.store.getDocumentText G id = .ok (w.ingested.textOf id) ↔
        dek.isSome ∨ ∀ ch ∈ w.ingested.chunks, ch.documentId = id →
          isEncrypted ch.text = false := by
  refine ⟨fun nonce text stored => maybeDecrypt_maybeEncrypt_iff, fun ops w hrun => ?_⟩
  obtain ⟨hkey, hwritten, hledger⟩ := reveal_ledger hrun
  rw [← hledger, ← hkey]
  refine ⟨search_reveal, listDocuments_reveal, getDocument_reveal, fun id => ?_⟩
  rw [← hkey] at hwritten
  exact getDocumentText_iff hwritten id

end Runs

/-! ## A text that looks encrypted -/

/-- A line of a glossary does not come back from a store without a key. -/
theorem not_read_back :
    ¬ ∀ (G : Aead) (dek : Option Dek) (nonce : ByteArr 12) (text stored : String),
      maybeEncrypt G nonce dek text = .ok stored → maybeDecrypt G dek stored = .ok text := by
  intro h
  have hback := h .sample none (filled 12 0) "enc: encoder" "enc: encoder" rfl
  rw [maybeDecrypt, if_pos (by decide)] at hback
  cases hback

end Maranode.Rag
