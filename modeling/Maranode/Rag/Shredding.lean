/-
  Maranode.Rag.Shredding

  `maranode workspace shred`: the key of a workspace is destroyed, and what was stored
  under it is to be unreadable from then on.

  The RAG store has one key.  The daemon reads that of the workspace `default` when it
  starts and keeps it; a workspace without a key makes it a store of plain texts.  A cell
  is a text in the store, with the workspace it was ingested for (which nothing looks at)
  and the key that was held when it was written.
-/
import Maranode.Lib.Run
import Maranode.Rag.Texts
import Maranode.Store.WorkspaceDb

namespace Maranode.Rag

open Lib Lib.Run Store

/-- A ciphertext is no shorter than its message. -/
structure Gcm extends Aead where
  length_le : ∀ key nonce m ct, encrypt key nonce m = .ok ct → m.length ≤ ct.length

variable (G : Gcm) (F : Floats)

/-! ## Texts and where they are stored -/

/-- The text of a chunk, by its document and ordinal, or the summary of a document. -/
inductive Place where
  | chunk (documentId : String) (ordinal : Nat)
  | summary (documentId : String)
  deriving DecidableEq

def Place.documentId : Place → String
  | .chunk documentId _ => documentId
  | .summary documentId => documentId

structure Cell where
  slug : String
  place : Place
  text : String
  sealedBy : Option Dek
  shredded : Bool

/-- The column at a place holds `raw`. -/
def Database.Holds (db : Database) : Place → String → Prop
  | .chunk documentId ordinal, raw =>
      ∃ ch ∈ db.chunks, ch.documentId = documentId ∧ ch.ordinal = ordinal ∧ ch.text = raw
  | .summary documentId, raw =>
      ∃ d ∈ db.documents, d.id = documentId ∧ d.summary = some raw

/-- A read of the store returns the text as that of the place: `search` or
    `get_document_text`, `list_documents` or `get_document`. -/
def VectorStore.Returns (s : VectorStore) : Place → String → Prop
  | .chunk documentId ordinal, text =>
      (∃ col q k m hits, s.search G.toAead F col q k m = .ok hits ∧
        ∃ hit ∈ hits, hit.docId = documentId ∧ hit.ordinal = ordinal ∧ hit.text = text) ∨
      ∃ joined, s.getDocumentText G.toAead documentId = .ok (some joined) ∧
        text.toList <:+: joined.toList
  | .summary documentId, text =>
      (∃ col, ∃ info ∈ s.listDocuments G.toAead col,
        info.id = documentId ∧ info.summary = some text) ∨
      ∃ info, s.getDocument G.toAead documentId = some info ∧ info.summary = some text

/-! ## The daemon, the command and the data directory -/

/-- `workspaces.db` and `rag.db`, the key of the running daemon's store, and the texts. -/
structure Site where
  workspaces : WorkspaceDb
  rag : Database
  daemon : Option (Option Dek)
  cells : List Cell

/-- A document as it is ingested. -/
structure NewDocument where
  collection : String
  source : String
  sha256 : String
  chunks : List ChunkRow
  title : Option String
  author : Option String
  pageCount : Nat

inductive SiteOp where
  | start
  | stop
  | ensureCollection (name embeddingModel : String) (dim : Nat) (now : String)
    (refused : Option String)
  | insertDocument (slug : String) (env : InsertEnv) (d : NewDocument)
  | setSummary (slug : String) (nonce : ByteArr 12) (refused : Option String)
    (documentId summary : String)
  | shred (slug : String) (accepted : Bool)

/-- `get_dek_bytes("default").ok().flatten()`. -/
def ragDek (db : WorkspaceDb) : Option Dek :=
  match db.getDekBytes G.toAead "default" with
  | .ok key => key
  | .error _ => none

/-- The texts of a document's chunks. -/
def chunkCells (slug documentId : String) (key : Option Dek) (chunks : List ChunkRow) :
    List Cell :=
  chunks.zipIdx.map fun p =>
    { slug
      place := .chunk documentId p.2
      text := p.1.text
      sealedBy := key
      shredded := false }

def Cell.shred (slug : String) (cell : Cell) : Cell :=
  if cell.slug = slug then { cell with shredded := true } else cell

namespace Site

def start (workspaces : WorkspaceDb) : Site where
  workspaces := workspaces
  rag := .empty
  daemon := none
  cells := []

/-- The store a process works on. -/
def store (w : Site) (key : Option Dek) : VectorStore := ⟨w.rag, key⟩

def insertDocument (w : Site) (key : Option Dek) (slug : String) (env : InsertEnv)
    (d : NewDocument) : Site :=
  match (w.store key).insertDocument G.toAead env d.collection d.source d.sha256 d.chunks d.title
      d.author d.pageCount with
  | .error _ => w
  | .ok (documentId, s) =>
      { w with rag := s.conn, cells := w.cells ++ chunkCells slug documentId key d.chunks }

/-- The summary of a document takes the place of an earlier one. -/
def setSummary (w : Site) (key : Option Dek) (slug : String) (nonce : ByteArr 12)
    (refused : Option String) (documentId summary : String) : Site :=
  match (w.store key).setSummary G.toAead nonce refused documentId summary with
  | .error _ => w
  | .ok s =>
      if w.rag.documents.any (·.id == documentId) then
        { w with
          rag := s.conn
          cells := w.cells.filter (fun cell => cell.place ≠ .summary documentId) ++
            [⟨slug, .summary documentId, summary, key, false⟩] }
      else { w with rag := s.conn }

/-- `maranode workspace shred`. -/
def shred (w : Site) (slug : String) (accepted : Bool) : Site :=
  match w.workspaces.destroyDek accepted slug with
  | .ok (true, db) => { w with workspaces := db, cells := w.cells.map (.shred slug) }
  | _ => w

def apply (w : Site) : SiteOp → Site
  | .start =>
      match w.daemon with
      | some _ => w
      | none => { w with daemon := some (ragDek G w.workspaces) }
  | .stop => { w with daemon := none }
  | .ensureCollection name embeddingModel dim now refused =>
      match w.daemon with
      | none => w
      | some key =>
          match (w.store key).ensureCollection name embeddingModel dim now refused with
          | .error _ => w
          | .ok s => { w with rag := s.conn }
  | .insertDocument slug env d =>
      match w.daemon with
      | none => w
      | some key => w.insertDocument G key slug env d
  | .setSummary slug nonce refused documentId summary =>
      match w.daemon with
      | none => w
      | some key => w.setSummary G key slug nonce refused documentId summary
  | .shred slug accepted => w.shred slug accepted

def step (w : Site) (op : SiteOp) : Option Site := some (w.apply G op)

/-- The key a process may work with: that of the running daemon, or the one a process
    reads when it starts. -/
def Process (w : Site) (key : Option Dek) : Prop :=
  w.daemon = some key ∨ key = ragDek G w.workspaces

/-- Key material that is left: the keys of the workspaces, and that of the running
    daemon. -/
def HasKey (w : Site) (k : Dek) : Prop :=
  w.daemon = some (some k) ∨ ∃ slug, w.workspaces.getDekBytes G.toAead slug = .ok (some k)

/-- No read of any process returns the text, and what is stored of it is not the text and
    does not become it under a key that is left. -/
def Erased (w : Site) (cell : Cell) : Prop :=
  (∀ key, w.Process G key → ¬ (w.store key).Returns G F cell.place cell.text) ∧
    ∀ raw, w.rag.Holds cell.place raw →
      raw ≠ cell.text ∧ ∀ k, w.HasKey G k → decrypt G.toAead k raw ≠ .ok cell.text

/-- Whatever was ingested for a workspace before it was shredded is erased. -/
def AllErased (w : Site) : Prop := ∀ cell ∈ w.cells, cell.shredded = true → w.Erased G F cell

/-- A shred that finds the workspace meets texts of it that were all stored under a key,
    which no daemon is running with and no other workspace has. -/
def Careful (w : Site) : SiteOp → Prop
  | .shred slug accepted =>
      accepted = true → (w.workspaces.conn.find slug).isSome →
        ∀ cell ∈ w.cells, cell.slug = slug →
          ∃ k, cell.sealedBy = some k ∧ w.daemon ≠ some (some k) ∧
            ∀ slug', slug' ≠ slug → w.workspaces.getDekBytes G.toAead slug' ≠ .ok (some k)
  | _ => True

end Site

variable {G F}

/-! ## What is stored under a key -/

/-- `raw` is what storing the text under the key made of it. -/
def SealedAs (G : Gcm) (key : Option Dek) (text raw : String) : Prop :=
  ∃ nonce, maybeEncrypt G.toAead nonce key text = .ok raw

section Sealed

variable {key : Option Dek} {k : Dek} {nonce : ByteArr 12} {text raw : String}

/-- A prefix, a nonce and a ciphertext are longer than the message. -/
theorem length_lt_of_encrypt (h : encrypt G.toAead nonce k text = .ok raw) :
    text.toList.length < raw.toList.length := by
  rw [encrypt] at h
  cases hct : G.encrypt k nonce (Text.encode text.toList) with
  | error e =>
      rw [hct] at h
      cases h
  | ok ct =>
      rw [hct] at h
      obtain rfl := Except.ok.inj h
      have htext := Text.length_le_length_encode text.toList
      have hct' := G.length_le k nonce _ ct hct
      have hhex := Hex.length_encode (nonce.1 ++ ct)
      have hprefix : PREFIX.length = 4 := rfl
      rw [List.length_append, nonce.2] at hhex
      rw [String.toList_ofList, List.length_append]
      omega

theorem ne_of_encrypt (h : encrypt G.toAead nonce k text = .ok raw) : raw ≠ text := by
  intro heq
  have hlt := length_lt_of_encrypt h
  rw [heq] at hlt
  omega

/-- Without its key, a stored text does not decrypt. -/
theorem maybeDecrypt_ne_ok (h : encrypt G.toAead nonce k text = .ok raw) (hkey : key ≠ some k)
    (text' : String) : maybeDecrypt G.toAead key raw ≠ .ok text' := by
  intro hdecrypt
  have henc : isEncrypted raw = true := (decrypt_of_encrypt k h).1
  unfold maybeDecrypt at hdecrypt
  rw [if_pos henc] at hdecrypt
  cases key with
  | none => cases hdecrypt
  | some k' => exact hkey (congrArg some (eq_of_decrypt_encrypt h hdecrypt))

/-- It is then shown as it is stored. -/
theorem readCell_of_ne (h : encrypt G.toAead nonce k text = .ok raw) (hkey : key ≠ some k) :
    readCell G.toAead key raw = raw := by
  have hfails := maybeDecrypt_ne_ok h hkey
  rw [readCell]
  cases hdecrypt : maybeDecrypt G.toAead key raw with
  | error e => rfl
  | ok text' => exact absurd hdecrypt (hfails text')

end Sealed

/-! ## What the reads return -/

namespace VectorStore

variable {s : VectorStore} {place : Place} {text : String}

/-- What is returned as the text of a place decrypts, or is read off, what is stored
    there. -/
theorem exists_raw_of_returns (h : s.Returns G F place text) :
    (∃ raw, s.conn.Holds place raw ∧ readCell G.toAead s.dek raw = text) ∨
      ∀ raw, s.conn.Holds place raw → ∃ text', maybeDecrypt G.toAead s.dek raw = .ok text' := by
  cases place with
  | chunk documentId ordinal =>
      rcases h with ⟨col, q, k, m, hits, hsearch, hit, hhit, hdoc, hord, htext⟩ | ⟨joined, hget, -⟩
      · obtain ⟨row, hrow, rfl⟩ := exists_row_of_hit hsearch hhit
        obtain ⟨hch, -, hid⟩ := mem_joined hrow
        exact .inl ⟨row.1.text, ⟨row.1, hch, hid.symm.trans hdoc, hord, rfl⟩, htext⟩
      · refine .inr fun raw hraw => ?_
        obtain ⟨ch, hch, hid, -, rfl⟩ := hraw
        exact exists_text_of_getDocumentText hget hch hid
  | summary documentId =>
      have hinfo : ∃ d ∈ s.conn.documents, d.id = documentId ∧
          d.summary.map (readCell G.toAead s.dek) = some text := by
        rcases h with ⟨col, info, hmem, hid, hsum⟩ | ⟨info, hget, hsum⟩
        · obtain ⟨d, hd, rfl⟩ := List.mem_map.mp hmem
          have hd' := (List.mergeSort_perm _ _).mem_iff.mp hd
          exact ⟨d, List.mem_of_mem_filter hd', hid, hsum⟩
        · obtain ⟨d, hfind, rfl⟩ := Option.map_eq_some_iff.mp hget
          have hbeq := List.find?_some (p := fun d : DocumentRow => d.id == documentId) hfind
          exact ⟨d, List.mem_of_find?_eq_some hfind, eq_of_beq hbeq, hsum⟩
      obtain ⟨d, hd, hid, hsum⟩ := hinfo
      obtain ⟨raw, hraw, htext⟩ := Option.map_eq_some_iff.mp hsum
      exact .inl ⟨raw, ⟨d, hd, hid, hraw⟩, htext⟩

end VectorStore

namespace Site

variable {w w' : Site} {cell : Cell} {k : Dek}

/-- Every text is in the store, and whatever is stored in its place is the text under the
    key it was stored with. -/
def Kept (G : Gcm) (w : Site) : Prop :=
  ∀ cell ∈ w.cells, (∃ raw, w.rag.Holds cell.place raw) ∧
    ∀ raw, w.rag.Holds cell.place raw → SealedAs G cell.sealedBy cell.text raw

/-- A key that a process works with is left. -/
theorem hasKey_of_process (h : w.Process G (some k)) : w.HasKey G k := by
  rcases h with hdaemon | hrag
  · exact .inl hdaemon
  · refine .inr ⟨"default", ?_⟩
    rw [ragDek] at hrag
    cases hget : w.workspaces.getDekBytes G.toAead "default" with
    | error e =>
        rw [hget] at hrag
        cases hrag
    | ok key =>
        rw [hget] at hrag
        obtain rfl : some k = key := hrag
        rfl

/-- **One text.**  A text is erased exactly when it was stored under a key, and that key
    is not left anywhere. -/
theorem erased_iff (hkept : w.Kept G) (hcell : cell ∈ w.cells) :
    w.Erased G F cell ↔ ∃ k, cell.sealedBy = some k ∧ ¬ w.HasKey G k := by
  obtain ⟨⟨raw, hraw⟩, hsealed⟩ := hkept cell hcell
  constructor
  -- Erased and stored in clear at once is impossible.
  · rintro ⟨-, herased⟩
    obtain ⟨hne, hkeys⟩ := herased raw hraw
    obtain ⟨nonce, hstored⟩ := hsealed raw hraw
    cases hby : cell.sealedBy with
    | none =>
        rw [hby] at hstored
        exact absurd (Except.ok.inj hstored).symm hne
    | some k =>
        rw [hby] at hstored
        exact ⟨k, rfl, fun hleft => hkeys k hleft (decrypt_encrypt hstored)⟩
  · rintro ⟨k, hby, hgone⟩
    -- Whatever the cell holds is sealed under the lost key.
    have hencrypted : ∀ raw, w.rag.Holds cell.place raw →
        ∃ nonce, encrypt G.toAead nonce k cell.text = .ok raw := by
      intro raw hraw
      obtain ⟨nonce, hstored⟩ := hsealed raw hraw
      rw [hby] at hstored
      exact ⟨nonce, hstored⟩
    constructor
    -- Nobody reads the text back, since every reading key is another one.
    · intro key hprocess hreturns
      have hkey : key ≠ some k := by
        rintro rfl
        exact hgone (hasKey_of_process hprocess)
      rcases VectorStore.exists_raw_of_returns hreturns with ⟨raw', hraw', hread⟩ | hdecrypts
      · obtain ⟨nonce, hstored⟩ := hencrypted raw' hraw'
        have hshown : raw' = cell.text := (readCell_of_ne hstored hkey).symm.trans hread
        exact ne_of_encrypt hstored hshown
      · obtain ⟨nonce, hstored⟩ := hencrypted raw hraw
        obtain ⟨text', htext⟩ := hdecrypts raw hraw
        exact maybeDecrypt_ne_ok hstored hkey text' htext
    -- And what is stored shows nothing: it opens only under the key that is gone.
    · intro raw' hraw'
      obtain ⟨nonce, hstored⟩ := hencrypted raw' hraw'
      refine ⟨ne_of_encrypt hstored, fun k' hleft hdecrypt => ?_⟩
      obtain rfl := eq_of_decrypt_encrypt hstored hdecrypt
      exact hgone hleft

/-! ## What each operation leaves -/

theorem holds_of_rows {db db' : Database} (hdocs : db'.documents = db.documents)
    (hchunks : db'.chunks = db.chunks) (place : Place) (raw : String) :
    db'.Holds place raw ↔ db.Holds place raw := by
  cases place with
  | chunk documentId ordinal => rw [Database.Holds, Database.Holds, hchunks]
  | summary documentId => rw [Database.Holds, Database.Holds, hdocs]

/-- Where something is stored, there is the document. -/
theorem exists_document_of_holds {db : Database} {place : Place} {raw : String}
    (h : db.Holds place raw) : place.documentId ∈ db.documents.map (·.id) := by
  cases place with
  | chunk documentId ordinal =>
      obtain ⟨ch, hch, hid, -, -⟩ := h
      obtain ⟨d, hd, hown, -⟩ := db.owned ch hch
      exact List.mem_map.mpr ⟨d, hd, hown.trans hid⟩
  | summary documentId =>
      obtain ⟨d, hd, hid, -⟩ := h
      exact List.mem_map.mpr ⟨d, hd, hid⟩

section Lists

variable {α β : Type} {R : α → β → Prop} {l : List α} {l' : List β}

theorem exists_of_mem_left (h : List.Forall₂ R l l') {a : α} (ha : a ∈ l) : ∃ b ∈ l', R a b := by
  induction h with
  | nil => cases ha
  | cons hab _ ih =>
      rcases List.mem_cons.mp ha with rfl | hrest
      · exact ⟨_, List.mem_cons_self, hab⟩
      · obtain ⟨b, hb, hR⟩ := ih hrest
        exact ⟨b, List.mem_cons_of_mem _ hb, hR⟩

theorem exists_of_mem_right (h : List.Forall₂ R l l') {b : β} (hb : b ∈ l') : ∃ a ∈ l, R a b :=
  exists_of_mem_left h.flip hb

theorem eq_of_mem_zipIdx {p p' : α × Nat} (hp : p ∈ l.zipIdx) (hp' : p' ∈ l.zipIdx)
    (h : p.2 = p'.2) : p = p' := by
  have hget := List.mem_zipIdx_iff_getElem?.mp hp
  have hget' := List.mem_zipIdx_iff_getElem?.mp hp'
  rw [h] at hget
  exact Prod.ext (Option.some.inj (hget.symm.trans hget')) h

end Lists

/-- A chunk of a new document is stored under its ordinal. -/
theorem sealed_of_sealChunks {key : Option Dek} {env : InsertEnv} {chunks : List ChunkRow}
    {n : Nat} {new : List SealedChunk}
    (h : VectorStore.sealChunks G.toAead key env n chunks = .ok new) :
    List.Forall₂ (fun p ch => ch.ordinal = p.2 ∧ SealedAs G key p.1.text ch.text)
      (chunks.zipIdx n) new := by
  induction chunks generalizing n new with
  | nil =>
      obtain rfl := Except.ok.inj h
      exact .nil
  | cons chunk chunks ih =>
      obtain ⟨stored, rest, hstored, hrest, rfl⟩ := VectorStore.sealChunks_cons_eq_ok h
      rw [List.zipIdx_cons]
      exact .cons ⟨rfl, env.nonce n, hstored⟩ (ih hrest)

/-- The places of an earlier document keep what they hold. -/
theorem holds_of_adds {s s' : VectorStore} {col id : String} {row : DocumentRow}
    {new : List SealedChunk} (h : s.Adds s' col id row new) {place : Place}
    (hplace : place.documentId ≠ id) (raw : String) :
    s'.conn.Holds place raw ↔ s.conn.Holds place raw := by
  cases place with
  | chunk documentId ordinal =>
      rw [Database.Holds, Database.Holds, h.chunks]
      constructor
      · rintro ⟨ch, hch, hid, hrest⟩
        rcases List.mem_append.mp hch with hold | hnew
        · exact ⟨ch, hold, hid, hrest⟩
        · obtain ⟨_, -, rfl⟩ := List.mem_map.mp hnew
          exact absurd (hid.symm.trans h.rowId) hplace
      · rintro ⟨ch, hch, hrest⟩
        exact ⟨ch, List.mem_append_left _ hch, hrest⟩
  | summary documentId =>
      rw [Database.Holds, Database.Holds, h.documents]
      constructor
      · rintro ⟨d, hd, hid, hsum⟩
        rcases List.mem_append.mp hd with hold | hnew
        · exact ⟨d, hold, hid, hsum⟩
        · obtain rfl := List.mem_singleton.mp hnew
          exact absurd (hid.symm.trans h.rowId) hplace
      · rintro ⟨d, hd, hrest⟩
        exact ⟨d, List.mem_append_left _ hd, hrest⟩

/-- The chunks of the new document hold its texts, each stored once. -/
theorem kept_chunkCells {s s' : VectorStore} {env : InsertEnv} {col : String} {row : DocumentRow}
    {new : List SealedChunk} {chunks : List ChunkRow} (h : s.Adds s' col env.docId row new)
    (hseal : VectorStore.sealChunks G.toAead s.dek env 0 chunks = .ok new) (slug : String) :
    ∀ cell ∈ chunkCells slug env.docId s.dek chunks,
      (∃ raw, s'.conn.Holds cell.place raw) ∧
        ∀ raw, s'.conn.Holds cell.place raw → SealedAs G cell.sealedBy cell.text raw := by
  intro cell hcell
  obtain ⟨p, hp, rfl⟩ := List.mem_map.mp hcell
  have hall := sealed_of_sealChunks hseal
  constructor
  · obtain ⟨ch, hch, hord, -⟩ := exists_of_mem_left hall hp
    refine ⟨ch.text, StoredChunk.of row ch, ?_, h.rowId, hord, rfl⟩
    rw [h.chunks]
    exact List.mem_append_right _ (List.mem_map_of_mem hch)
  · rintro raw ⟨ch, hch, hid, hord, rfl⟩
    rw [h.chunks] at hch
    rcases List.mem_append.mp hch with hold | hnew
    · obtain ⟨d, hd, hown, -⟩ := s.conn.owned ch hold
      exact absurd (List.mem_map.mpr ⟨d, hd, hown.trans hid⟩) h.fresh
    · obtain ⟨ch', hch', rfl⟩ := List.mem_map.mp hnew
      obtain ⟨p', hp', hord', hsealed⟩ := exists_of_mem_right hall hch'
      obtain rfl : p' = p := eq_of_mem_zipIdx hp' hp (hord'.symm.trans hord)
      exact hsealed

theorem kept_of_holds (h : w.Kept G) (hcells : w'.cells = w.cells)
    (hholds : ∀ place raw, w'.rag.Holds place raw ↔ w.rag.Holds place raw) : w'.Kept G := by
  intro cell hcell
  rw [hcells] at hcell
  obtain ⟨⟨raw, hraw⟩, hsealed⟩ := h cell hcell
  exact ⟨⟨raw, (hholds cell.place raw).mpr hraw⟩,
    fun raw' hraw' => hsealed raw' ((hholds cell.place raw').mp hraw')⟩

theorem kept_insertDocument (h : w.Kept G) (key : Option Dek) (slug : String) (env : InsertEnv)
    (d : NewDocument) : (w.insertDocument G key slug env d).Kept G := by
  rw [insertDocument]
  cases hinsert : (w.store key).insertDocument G.toAead env d.collection d.source d.sha256 d.chunks
      d.title d.author d.pageCount with
  | error e => exact h
  | ok inserted =>
      obtain ⟨documentId, s⟩ := inserted
      obtain ⟨rfl, row, new, hadds, hseal⟩ := VectorStore.insertDocument_adds hinsert
      intro cell hcell
      rcases List.mem_append.mp hcell with hold | hnew
      · obtain ⟨⟨raw, hraw⟩, hsealed⟩ := h cell hold
        have hne : cell.place.documentId ≠ env.docId := by
          intro heq
          have hmem := exists_document_of_holds hraw
          rw [heq] at hmem
          exact hadds.fresh hmem
        exact ⟨⟨raw, (holds_of_adds hadds hne raw).mpr hraw⟩,
          fun raw' hraw' => hsealed raw' ((holds_of_adds hadds hne raw').mp hraw')⟩
      · exact kept_chunkCells hadds hseal slug cell hnew

/-- Writing a summary leaves what is stored elsewhere. -/
theorem holds_setSummary_of_ne {db : Database} {documentId stored : String} {place : Place}
    (h : place ≠ .summary documentId) (raw : String) :
    (db.setSummary documentId stored).Holds place raw ↔ db.Holds place raw := by
  cases place with
  | chunk id ordinal =>
      have hchunks : (db.setSummary documentId stored).chunks = db.chunks := List.map_id _
      rw [Database.Holds, Database.Holds, hchunks]
  | summary id =>
      have hne : id ≠ documentId := fun heq => h (congrArg Place.summary heq)
      have hdocs : (db.setSummary documentId stored).documents
          = db.documents.map (.withSummary documentId stored) := rfl
      rw [Database.Holds, Database.Holds, hdocs]
      constructor
      · rintro ⟨_, hmem, hid, hsum⟩
        obtain ⟨d, hd, rfl⟩ := List.mem_map.mp hmem
        rw [(DocumentRow.withSummary_keys documentId stored d).1] at hid
        rw [DocumentRow.withSummary, if_neg (hid.trans_ne hne)] at hsum
        exact ⟨d, hd, hid, hsum⟩
      · rintro ⟨d, hd, hid, hsum⟩
        have hsame : d.withSummary documentId stored = d := if_neg (hid.trans_ne hne)
        refine ⟨d, List.mem_map.mpr ⟨d, hd, hsame⟩, hid, hsum⟩

/-- A document that is there has the summary that was written. -/
theorem holds_setSummary_self {db : Database} {documentId stored : String}
    (h : documentId ∈ db.documents.map (·.id)) (raw : String) :
    (db.setSummary documentId stored).Holds (.summary documentId) raw ↔ stored = raw := by
  have hdocs : (db.setSummary documentId stored).documents
      = db.documents.map (.withSummary documentId stored) := rfl
  rw [Database.Holds, hdocs]
  constructor
  · rintro ⟨_, hmem, hid, hsum⟩
    obtain ⟨d, hd, rfl⟩ := List.mem_map.mp hmem
    rw [(DocumentRow.withSummary_keys documentId stored d).1] at hid
    rw [DocumentRow.withSummary, if_pos hid] at hsum
    exact Option.some.inj hsum
  · rintro rfl
    obtain ⟨d, hd, hid⟩ := List.mem_map.mp h
    refine ⟨_, List.mem_map_of_mem hd, ?_, ?_⟩
    · rw [(DocumentRow.withSummary_keys documentId stored d).1, hid]
    · rw [DocumentRow.withSummary, if_pos hid]

theorem kept_setSummary (h : w.Kept G) (key : Option Dek) (slug : String) (nonce : ByteArr 12)
    (refused : Option String) (documentId summary : String) :
    (w.setSummary G key slug nonce refused documentId summary).Kept G := by
  rw [setSummary, VectorStore.setSummary]
  cases hstored : maybeEncrypt G.toAead nonce (w.store key).dek summary with
  | error e => exact h
  | ok stored =>
      cases refused with
      | some e => exact h
      | none =>
          dsimp only
          -- The document is there: its old summary goes, and the new one is sealed under this key.
          split
          · rename_i hany
            obtain ⟨d, hd, hid⟩ := List.any_eq_true.mp hany
            have hthere : documentId ∈ w.rag.documents.map (·.id) :=
              List.mem_map.mpr ⟨d, hd, eq_of_beq hid⟩
            intro cell hcell
            rcases List.mem_append.mp hcell with hold | hnew
            · obtain ⟨hmem, hne⟩ := List.mem_filter.mp hold
              have hplace : cell.place ≠ .summary documentId := of_decide_eq_true hne
              obtain ⟨⟨raw, hraw⟩, hsealed⟩ := h cell hmem
              exact ⟨⟨raw, (holds_setSummary_of_ne hplace raw).mpr hraw⟩,
                fun raw' hraw' => hsealed raw' ((holds_setSummary_of_ne hplace raw').mp hraw')⟩
            · obtain rfl := List.mem_singleton.mp hnew
              refine ⟨⟨stored, (holds_setSummary_self hthere stored).mpr rfl⟩, fun raw hraw => ?_⟩
              obtain rfl := (holds_setSummary_self hthere raw).mp hraw
              exact ⟨nonce, hstored⟩
          -- No such document: nothing is written and no summary of it was recorded.
          · rename_i hany
            intro cell hcell
            obtain ⟨⟨raw, hraw⟩, hsealed⟩ := h cell hcell
            have hplace : cell.place ≠ .summary documentId := by
              intro heq
              have hmem := exists_document_of_holds hraw
              rw [heq] at hmem
              obtain ⟨d, hd, hid⟩ := List.mem_map.mp hmem
              exact hany (List.any_eq_true.mpr ⟨d, hd, beq_iff_eq.mpr hid⟩)
            exact ⟨⟨raw, (holds_setSummary_of_ne hplace raw).mpr hraw⟩,
              fun raw' hraw' => hsealed raw' ((holds_setSummary_of_ne hplace raw').mp hraw')⟩

theorem Cell.shred_keeps (slug : String) (cell : Cell) :
    (cell.shred slug).place = cell.place ∧ (cell.shred slug).text = cell.text ∧
      (cell.shred slug).sealedBy = cell.sealedBy := by
  rw [Cell.shred]
  split
  · exact ⟨rfl, rfl, rfl⟩
  · exact ⟨rfl, rfl, rfl⟩

/-- A shred that found the workspace destroys its key and marks its texts; any other does
    nothing. -/
theorem shred_cases (w : Site) (slug : String) (accepted : Bool) :
    (accepted = true ∧ (w.workspaces.conn.find slug).isSome ∧
      ∃ db, w.workspaces.destroyDek accepted slug = .ok (true, db) ∧
        w.shred slug accepted
          = { w with workspaces := db, cells := w.cells.map (.shred slug) }) ∨
    ¬ (accepted = true ∧ (w.workspaces.conn.find slug).isSome) ∧
      w.shred slug accepted = w := by
  cases accepted with
  | false => exact .inr ⟨fun h => Bool.false_ne_true h.1, rfl⟩
  | true =>
      have hdestroy : w.workspaces.destroyDek true slug
          = .ok ((w.workspaces.conn.find slug).isSome,
              { w.workspaces with conn := w.workspaces.conn.setDek slug none }) := rfl
      cases hfind : (w.workspaces.conn.find slug).isSome with
      | false =>
          rw [hfind] at hdestroy
          refine .inr ⟨fun h => Bool.false_ne_true h.2, ?_⟩
          rw [shred, hdestroy]
      | true =>
          rw [hfind] at hdestroy
          refine .inl ⟨rfl, rfl, _, hdestroy, ?_⟩
          rw [shred, hdestroy]

/-- **What is stored.**  Every operation keeps what is stored of every text. -/
theorem kept_apply (h : w.Kept G) (op : SiteOp) : (w.apply G op).Kept G := by
  -- What a step writes it seals under the key of its store; the rest of the cells stay.
  cases op with
  | start =>
      rw [apply]
      cases w.daemon with
      | some key => exact h
      | none => exact kept_of_holds h rfl fun _ _ => Iff.rfl
  | stop => exact kept_of_holds h rfl fun _ _ => Iff.rfl
  | ensureCollection name embeddingModel dim now refused =>
      rw [apply]
      cases w.daemon with
      | none => exact h
      | some key =>
          dsimp only
          cases hensure : (w.store key).ensureCollection name embeddingModel dim now refused with
          | error e => exact h
          | ok s =>
              obtain ⟨hdocs, hchunks⟩ := VectorStore.ensureCollection_rows hensure
              exact kept_of_holds h rfl (holds_of_rows hdocs hchunks)
  | insertDocument slug env d =>
      rw [apply]
      cases w.daemon with
      | none => exact h
      | some key => exact kept_insertDocument h key slug env d
  | setSummary slug nonce refused documentId summary =>
      rw [apply]
      cases w.daemon with
      | none => exact h
      | some key => exact kept_setSummary h key slug nonce refused documentId summary
  | shred slug accepted =>
      rcases shred_cases w slug accepted with ⟨-, -, db, -, heq⟩ | ⟨-, heq⟩
      · rw [apply, heq]
        intro cell hcell
        obtain ⟨old, hold, rfl⟩ := List.mem_map.mp hcell
        obtain ⟨hplace, htext, hby⟩ := Cell.shred_keeps slug old
        rw [hplace, htext, hby]
        exact h old hold
      · rw [apply, heq]
        exact h

/-! ## One operation -/

/-- No key comes to be, and no text is marked as shredded. -/
structure Extends (G : Gcm) (w w' : Site) : Prop where
  keys : ∀ k, w'.HasKey G k → w.HasKey G k
  cells : ∀ cell ∈ w'.cells, cell.shredded = true → cell ∈ w.cells

theorem Extends.refl (w : Site) : Extends G w w := ⟨fun _ h => h, fun _ h _ => h⟩

theorem extends_insertDocument (w : Site) (key : Option Dek) (slug : String) (env : InsertEnv)
    (d : NewDocument) : Extends G w (w.insertDocument G key slug env d) := by
  rw [insertDocument]
  cases (w.store key).insertDocument G.toAead env d.collection d.source d.sha256 d.chunks
      d.title d.author d.pageCount with
  | error e => exact .refl w
  | ok inserted =>
      refine ⟨fun k h => h, fun cell hcell hshredded => ?_⟩
      rcases List.mem_append.mp hcell with hold | hnew
      · exact hold
      · obtain ⟨p, -, rfl⟩ := List.mem_map.mp hnew
        cases hshredded

theorem extends_setSummary (w : Site) (key : Option Dek) (slug : String) (nonce : ByteArr 12)
    (refused : Option String) (documentId summary : String) :
    Extends G w (w.setSummary G key slug nonce refused documentId summary) := by
  rw [setSummary]
  cases (w.store key).setSummary G.toAead nonce refused documentId summary with
  | error e => exact .refl w
  | ok s =>
      dsimp only
      split
      · refine ⟨fun k h => h, fun cell hcell hshredded => ?_⟩
        rcases List.mem_append.mp hcell with hold | hnew
        · exact List.mem_of_mem_filter hold
        · obtain rfl := List.mem_singleton.mp hnew
          cases hshredded
      · exact ⟨fun k h => h, fun cell hcell _ => hcell⟩

theorem extends_start (w : Site) : Extends G w (w.apply G .start) := by
  rw [apply]
  cases hdaemon : w.daemon with
  | some key => exact .refl w
  | none =>
      refine ⟨fun k h => ?_, fun cell hcell _ => hcell⟩
      rcases h with hnew | hleft
      · exact hasKey_of_process (.inr (Option.some.inj hnew).symm)
      · exact .inr hleft

theorem extends_stop (w : Site) : Extends G w (w.apply G .stop) := by
  refine ⟨fun k h => ?_, fun cell hcell _ => hcell⟩
  rcases h with hnew | hleft
  · cases hnew
  · exact .inr hleft

theorem allErased_of_extends (hkept : w.Kept G) (hkept' : w'.Kept G) (h : w.AllErased G F)
    (hext : Extends G w w') : w'.AllErased G F := by
  intro cell hcell hshredded
  have hold : cell ∈ w.cells := hext.cells cell hcell hshredded
  obtain ⟨k, hby, hgone⟩ := (erased_iff hkept hold).mp (h cell hold hshredded)
  exact (erased_iff hkept' hcell).mpr ⟨k, hby, fun hleft => hgone (hext.keys k hleft)⟩

/-- A shred leaves the keys of the daemon and of the other workspaces. -/
theorem hasKey_shred_iff {db : WorkspaceDb} {slug : String} {accepted b : Bool}
    (h : w.workspaces.destroyDek accepted slug = .ok (b, db)) (cells : List Cell) :
    Site.HasKey G { w with workspaces := db, cells := cells } k ↔
      w.daemon = some (some k) ∨
        ∃ slug', slug' ≠ slug ∧ w.workspaces.getDekBytes G.toAead slug' = .ok (some k) := by
  obtain ⟨hgone, hothers⟩ := WorkspaceDb.getDekBytes_of_destroyDek (G := G.toAead) h
  refine or_congr Iff.rfl ⟨?_, ?_⟩
  · rintro ⟨slug', hkey⟩
    have hne : slug' ≠ slug := by
      rintro rfl
      rw [hgone] at hkey
      cases hkey
    rw [hothers slug' hne] at hkey
    exact ⟨slug', hne, hkey⟩
  · rintro ⟨slug', hne, hkey⟩
    rw [← hothers slug' hne] at hkey
    exact ⟨slug', hkey⟩

/-- **One shred.**  It erases what was ingested for the workspace exactly when that was
    all stored under keys that nobody else has. -/
theorem allErased_shred_iff (hkept : w.Kept G) (h : w.AllErased G F) (slug : String)
    (accepted : Bool) :
    (w.shred slug accepted).AllErased G F ↔ w.Careful G (.shred slug accepted) := by
  have hkept' : (w.shred slug accepted).Kept G := kept_apply hkept (.shred slug accepted)
  rcases shred_cases w slug accepted with ⟨haccepted, hfound, db, hdestroy, heq⟩ | ⟨hnot, heq⟩
  -- What is left of the keys: the daemon's and those of the other workspaces.
  · have hkeys : ∀ k, (w.shred slug accepted).HasKey G k ↔ w.daemon = some (some k) ∨
        ∃ slug', slug' ≠ slug ∧ w.workspaces.getDekBytes G.toAead slug' = .ok (some k) := by
      intro k
      rw [heq]
      exact hasKey_shred_iff hdestroy _
    have hcells : (w.shred slug accepted).cells = w.cells.map (.shred slug) := by rw [heq]
    constructor
    -- A cell of this workspace is marked shredded, so its key has to be gone.
    · intro herased _ _ cell hcell hslug
      have hmem : cell.shred slug ∈ (w.shred slug accepted).cells := by
        rw [hcells]
        exact List.mem_map_of_mem hcell
      have hmarked : (cell.shred slug).shredded = true := by
        rw [Cell.shred, if_pos hslug]
      obtain ⟨k, hby, hgone⟩ := (erased_iff hkept' hmem).mp (herased _ hmem hmarked)
      rw [(Cell.shred_keeps slug cell).2.2] at hby
      refine ⟨k, hby, fun hdaemon => hgone ((hkeys k).mpr (.inl hdaemon)), ?_⟩
      intro slug' hne hkey
      exact hgone ((hkeys k).mpr (.inr ⟨slug', hne, hkey⟩))
    · intro hcareful cell' hcell' hshredded
      refine (erased_iff hkept' hcell').mpr ?_
      rw [hcells] at hcell'
      obtain ⟨cell, hcell, rfl⟩ := List.mem_map.mp hcell'
      rw [(Cell.shred_keeps slug cell).2.2]
      -- A cell of this workspace is erased by the condition; one shredded before stays so.
      by_cases hslug : cell.slug = slug
      · obtain ⟨k, hby, hdaemon, hothers⟩ := hcareful haccepted hfound cell hcell hslug
        refine ⟨k, hby, fun hleft => ?_⟩
        rcases (hkeys k).mp hleft with hrunning | ⟨slug', hne, hkey⟩
        · exact hdaemon hrunning
        · exact hothers slug' hne hkey
      · have hmarked : cell.shredded = true := by
          rwa [Cell.shred, if_neg hslug] at hshredded
        obtain ⟨k, hby, hgone⟩ := (erased_iff hkept hcell).mp (h cell hcell hmarked)
        refine ⟨k, hby, fun hleft => hgone ?_⟩
        rcases (hkeys k).mp hleft with hrunning | ⟨slug', -, hkey⟩
        · exact .inl hrunning
        · exact .inr ⟨slug', hkey⟩
  -- A shred that is not accepted or finds no workspace changes nothing.
  · rw [heq]
    refine iff_of_true h fun haccepted hfound => absurd ⟨haccepted, hfound⟩ hnot

/-- One operation leaves everything erased exactly when it is no careless shred. -/
theorem allErased_apply_iff (hkept : w.Kept G) (h : w.AllErased G F) (op : SiteOp) :
    (w.apply G op).AllErased G F ↔ w.Careful G op := by
  have hkept' := kept_apply hkept op
  -- A step that only adds keys for no one and cells of its own cannot bring a text back.
  have hmono : Extends G w (w.apply G op) → (w.apply G op).AllErased G F :=
    allErased_of_extends hkept hkept' h
  cases op with
  | start => exact iff_of_true (hmono (extends_start w)) trivial
  | stop => exact iff_of_true (hmono (extends_stop w)) trivial
  | ensureCollection name embeddingModel dim now refused =>
      refine iff_of_true (hmono ?_) trivial
      rw [apply]
      cases hdaemon : w.daemon with
      | none => exact .refl w
      | some key =>
          dsimp only
          cases (w.store key).ensureCollection name embeddingModel dim now refused with
          | error e => exact .refl w
          | ok s =>
              refine ⟨fun k hkey => ?_, fun cell hcell _ => hcell⟩
              rw [HasKey, hdaemon]
              exact hkey
  | insertDocument slug env d =>
      refine iff_of_true (hmono ?_) trivial
      rw [apply]
      cases w.daemon with
      | none => exact .refl w
      | some key => exact extends_insertDocument w key slug env d
  | setSummary slug nonce refused documentId summary =>
      refine iff_of_true (hmono ?_) trivial
      rw [apply]
      cases w.daemon with
      | none => exact .refl w
      | some key => exact extends_setSummary w key slug nonce refused documentId summary
  | shred slug accepted => exact allErased_shred_iff hkept h slug accepted

/-! ## Runs -/

theorem kept_start (db : WorkspaceDb) : (start db).Kept G := nofun

theorem allErased_start (db : WorkspaceDb) : (start db).AllErased G F := nofun

/-- **Crypto-shredding.**  From an empty store over any workspaces, whatever was ingested
    for a workspace is erased from its shred on, exactly as long as every shred finds all
    texts of its workspace stored under keys that no running daemon and no other workspace
    has. -/
theorem along_allErased_iff (G : Gcm) (F : Floats) (db : WorkspaceDb) (ops : List SiteOp) :
    Along (step G) (fun w op => (w.apply G op).AllErased G F) (start db) ops ↔
      Along (step G) (Careful G) (start db) ops := by
  have hstart : (start db).Kept G ∧ (start db).AllErased G F :=
    ⟨kept_start db, allErased_start db⟩
  have hstep : ∀ w op w', w.Kept G ∧ w.AllErased G F → (w.apply G op).AllErased G F →
      step G w op = some w' → w'.Kept G ∧ w'.AllErased G F := by
    intro w op w' h herased hw'
    rw [← Option.some.inj hw']
    exact ⟨kept_apply h.1 op, herased⟩
  constructor
  · exact Along.imp_of_invariant hstep
      (fun w op h => (allErased_apply_iff h.1 h.2 op).mp) hstart
  · refine Along.imp_of_invariant (fun w op w' h hcareful => hstep w op w' h ?_)
      (fun w op h => (allErased_apply_iff h.1 h.2 op).mpr) hstart
    exact (allErased_apply_iff h.1 h.2 op).mpr hcareful

end Site

/-! ## A fresh install -/

theorem sample_length_le (key : ByteArr 32) (nonce : ByteArr 12) (m ct : Bytes)
    (h : Aead.sample.encrypt key nonce m = .ok ct) : m.length ≤ ct.length := by
  obtain rfl : sealHeader key nonce ++ m = ct := Except.ok.inj h
  rw [List.length_append]
  omega

def Gcm.sample : Gcm where
  toAead := .sample
  length_le := sample_length_le

/-- The migration writes the workspace `default` without a key. -/
def defaultRow : Row where
  id := "00000000-0000-4000-8000-000000000000"
  slug := "default"
  name := "Default"
  apiKeyHash := none
  modelAllowlist := ""
  rateLimitRpm := none
  systemPrompt := none
  createdAt := "2025-03-12 14:22:01"
  netNamespace := 0
  maxConcurrentRequests := none
  maxModels := none
  maxMemoryBytes := none
  dek := none

def freshInstall : WorkspaceDb where
  conn := { rows := [defaultRow], ids := List.nodup_singleton _, slugs := List.nodup_singleton _ }
  kek := some (filled 32 0)

def patientEnv : InsertEnv where
  docId := "d1"
  chunkId _ := "c1"
  nonce _ := filled 12 0
  now := "2025-03-12T14:22:01Z"
  refused := none

def patientRecord : NewDocument where
  collection := "default"
  source := "record.txt"
  sha256 := ""
  chunks := [⟨"Jane Doe, 1970-01-01", [], 1, none, ""⟩]
  title := none
  author := none
  pageCount := 1

namespace Site

/-- A record is ingested for the workspace `default`, which is then shredded. -/
def shredDefault : List SiteOp :=
  [.start, .ensureCollection "default" "nomic-embed-text:latest" 0 "2025-03-12T14:22:01Z" none,
    .insertDocument "default" patientEnv patientRecord, .shred "default" true]

/-- The record is still there as it was ingested. -/
theorem not_allErased_shredDefault :
    ¬ Along (step Gcm.sample) (fun w op => (w.apply Gcm.sample op).AllErased Gcm.sample Floats.sample)
      (start freshInstall) shredDefault := by
  intro h
  let w₁ := (start freshInstall).apply Gcm.sample .start
  let w₂ := w₁.apply Gcm.sample
    (.ensureCollection "default" "nomic-embed-text:latest" 0 "2025-03-12T14:22:01Z" none)
  let w₃ := w₂.apply Gcm.sample (.insertDocument "default" patientEnv patientRecord)
  have hkept : (w₃.apply Gcm.sample (.shred "default" true)).Kept Gcm.sample :=
    kept_apply (kept_apply (kept_apply (kept_apply (kept_start freshInstall) _) _) _) _
  have herased := (((h.2 w₁ rfl).2 w₂ rfl).2 w₃ rfl).1
  have hcell : (⟨"default", .chunk "d1" 0, "Jane Doe, 1970-01-01", none, true⟩ : Cell) ∈
      (w₃.apply Gcm.sample (.shred "default" true)).cells := List.mem_singleton.mpr rfl
  obtain ⟨k, hby, -⟩ := (erased_iff hkept hcell).mp (herased _ hcell rfl)
  cases hby

end Site

end Maranode.Rag
