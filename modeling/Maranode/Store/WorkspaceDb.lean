/-
  Maranode.Store.WorkspaceDb

  `workspace.rs` and `workspace_db.rs`: the workspaces and their table in SQLite.

  The model allowlist is one column, the items with commas between them.  SQLite can
  refuse a statement for reasons of its own (a full disk, a locked file); whether it does
  is an argument of the functions that write.
-/
import Maranode.Common.External
import Maranode.Lib.Separated
import Maranode.Store.Kek

namespace Maranode.Store

open Lib

structure Workspace where
  id : Uuid
  slug : String
  name : String
  apiKeyHash : Option String
  modelAllowlist : List String
  rateLimitRpm : Option UInt32
  systemPrompt : Option String
  createdAt : DateTime
  netNamespace : Bool
  maxConcurrentRequests : Option UInt32
  maxModels : Option UInt32
  maxMemoryBytes : Option UInt64
  dek : Option String
  deriving DecidableEq

/-- An empty list allows every model. -/
def Workspace.allowsModel (w : Workspace) (nameTag : String) : Bool :=
  w.modelAllowlist.isEmpty || w.modelAllowlist.any (· == nameTag)

/-! ## The table -/

/-- A row of `workspaces`. -/
structure Row where
  id : String
  slug : String
  name : String
  apiKeyHash : Option String
  modelAllowlist : String
  rateLimitRpm : Option UInt32
  systemPrompt : Option String
  createdAt : String
  netNamespace : Int
  maxConcurrentRequests : Option UInt32
  maxModels : Option UInt32
  maxMemoryBytes : Option UInt64
  dek : Option String
  deriving DecidableEq

/-- The rows in the order of their insertion; `id` is the primary key and `slug` is
    `UNIQUE`. -/
structure Table where
  rows : List Row
  ids : (rows.map (·.id)).Nodup
  slugs : (rows.map (·.slug)).Nodup

/-- `UPDATE workspaces SET .. WHERE slug = ..`, of columns that are no keys. -/
def Table.updateWhere (t : Table) (slug : String) (f : Row → Row)
    (hid : ∀ row, (f row).id = row.id) (hslug : ∀ row, (f row).slug = row.slug) : Table where
  rows := t.rows.map fun row => if row.slug = slug then f row else row
  ids := by
    have hkeep : (fun row : Row => row.id) ∘ (fun row => if row.slug = slug then f row else row)
        = fun row => row.id := funext fun row => by
      rw [Function.comp_apply]
      split
      · exact hid row
      · rfl
    rw [List.map_map, hkeep]
    exact t.ids
  slugs := by
    have hkeep : (fun row : Row => row.slug) ∘
        (fun row => if row.slug = slug then f row else row) = fun row => row.slug :=
      funext fun row => by
        rw [Function.comp_apply]
        split
        · exact hslug row
        · rfl
    rw [List.map_map, hkeep]
    exact t.slugs

/-- `INSERT`: the keys have to be new. -/
def Table.insert (t : Table) (row : Row) : Option Table :=
  if h : row.id ∉ t.rows.map (·.id) ∧ row.slug ∉ t.rows.map (·.slug) then
    some
      { rows := t.rows ++ [row]
        ids := by
          rw [List.map_append, List.map_singleton]
          exact List.nodup_append.mpr ⟨t.ids, List.nodup_singleton _,
            fun _ ha _ hb heq => h.1 (List.mem_singleton.mp hb ▸ heq ▸ ha)⟩
        slugs := by
          rw [List.map_append, List.map_singleton]
          exact List.nodup_append.mpr ⟨t.slugs, List.nodup_singleton _,
            fun _ ha _ hb heq => h.2 (List.mem_singleton.mp hb ▸ heq ▸ ha)⟩ }
  else none

/-- `DELETE FROM workspaces WHERE slug = ..`. -/
def Table.deleteWhere (t : Table) (slug : String) : Table where
  rows := t.rows.filter fun row => row.slug ≠ slug
  ids := (List.filter_sublist.map _).nodup t.ids
  slugs := (List.filter_sublist.map _).nodup t.slugs

/-- `SELECT .. WHERE slug = ..`. -/
def Table.find (t : Table) (slug : String) : Option Row := t.rows.find? (·.slug == slug)

/-- `SELECT dek FROM workspaces WHERE slug = ..`, `optional()` and `flatten()`. -/
def Table.dek (t : Table) (slug : String) : Option String := (t.find slug).bind (·.dek)

/-- `UPDATE workspaces SET dek = .. WHERE slug = ..`. -/
def Table.setDek (t : Table) (slug : String) (dek : Option String) : Table :=
  t.updateWhere slug (fun row => { row with dek }) (fun _ => rfl) fun _ => rfl

theorem Table.slug_of_find {t : Table} {slug : String} {row : Row} (h : t.find slug = some row) :
    row.slug = slug := by
  have hslug := List.find?_some h
  exact beq_iff_eq.mp hslug

/-- A slug has one row. -/
theorem Table.eq_of_find {t : Table} {slug : String} {row row' : Row} (h : t.find slug = some row)
    (hrow' : row' ∈ t.rows) (hslug : row'.slug = slug) : row' = row :=
  List.inj_on_of_nodup_map t.slugs hrow' (List.mem_of_find?_eq_some h)
    (hslug.trans (slug_of_find h).symm)

theorem Table.find_setDek (t : Table) (slug slug' : String) (dek : Option String) :
    (t.setDek slug dek).find slug' =
      (t.find slug').map fun row => if row.slug = slug then { row with dek } else row := by
  rw [find, find, setDek, updateWhere, List.find?_map]
  congr 2
  funext row
  rw [Function.comp_apply]
  split
  · rfl
  · rfl

theorem Table.dek_setDek_of_ne {t : Table} {slug slug' : String} (h : slug' ≠ slug)
    (dek : Option String) : (t.setDek slug dek).dek slug' = t.dek slug' := by
  rw [Table.dek, Table.dek, find_setDek]
  cases hfind : t.find slug' with
  | none => rfl
  | some row =>
      have hne : row.slug ≠ slug := fun heq => h ((slug_of_find hfind).symm.trans heq)
      rw [Option.map_some, if_neg hne]

theorem Table.dek_setDek_of_dek {t : Table} {slug stored : String} (h : t.dek slug = some stored)
    (dek : Option String) : (t.setDek slug dek).dek slug = dek := by
  obtain ⟨row, hfind, -⟩ := Option.bind_eq_some_iff.mp h
  rw [Table.dek, find_setDek, hfind, Option.map_some, if_pos (slug_of_find hfind)]
  rfl

/-- A destroyed key is gone. -/
theorem Table.dek_setDek_none (t : Table) (slug : String) : (t.setDek slug none).dek slug = none := by
  rw [Table.dek, find_setDek]
  cases hfind : t.find slug with
  | none => rfl
  | some row =>
      rw [Option.map_some, if_pos (slug_of_find hfind)]
      rfl

/-! ## Reading and writing workspaces -/

def parseAllowlist (s : String) : List String :=
  (Separated.parse ',' s.toList).map String.ofList

/-- `model_allowlist.join(",")`. -/
def joinAllowlist (items : List String) : String :=
  String.ofList (Separated.render ',' (items.map String.toList))

variable (X : External) (G : Aead)

/-- The workspace of a row, with a new id and the current time where these do not parse. -/
def Row.workspace (newV4 : Uuid) (now : DateTime) (row : Row) : Workspace where
  id := (X.uuidOfText row.id).getD newV4
  slug := row.slug
  name := row.name
  apiKeyHash := row.apiKeyHash
  modelAllowlist := parseAllowlist row.modelAllowlist
  rateLimitRpm := row.rateLimitRpm
  systemPrompt := row.systemPrompt
  createdAt := (X.dateTimeOfText row.createdAt).getD now
  netNamespace := row.netNamespace != 0
  maxConcurrentRequests := row.maxConcurrentRequests
  maxModels := row.maxModels
  maxMemoryBytes := row.maxMemoryBytes
  dek := row.dek

structure WorkspaceDb where
  conn : Table
  kek : Option Kek

namespace WorkspaceDb

/-- `ORDER BY created_at ASC`; `fresh` is what the rows take in the order they come in. -/
def list (db : WorkspaceDb) (fresh : Nat → Uuid × DateTime) : List Workspace :=
  (db.conn.rows.mergeSort fun row row' => row.createdAt ≤ row'.createdAt).zipIdx.map
    fun (row, i) => row.workspace X (fresh i).1 (fresh i).2

def getBySlug (db : WorkspaceDb) (newV4 : Uuid) (now : DateTime) (slug : String) :
    Option Workspace :=
  (db.conn.find slug).map (Row.workspace X newV4 now)

/-- What `OsRng` and `thread_rng` fill for one call. -/
structure Random where
  nonce : ByteArr 12
  dek : ByteArr 32

/-- `generate_dek`. -/
def generateDek (random : Random) : String := String.ofList (Hex.encode random.dek.1)

/-- rusqlite stores a `u64` as a signed integer, and refuses one that does not fit. -/
def fitsInteger (n : Option UInt64) : Bool := n.all fun n => n.toNat < 2 ^ 63

/-- The columns `create` inserts. -/
def newRow (ws : Workspace) (dek : String) : Row where
  id := X.uuidText ws.id
  slug := ws.slug
  name := ws.name
  apiKeyHash := ws.apiKeyHash
  modelAllowlist := joinAllowlist ws.modelAllowlist
  rateLimitRpm := ws.rateLimitRpm
  systemPrompt := ws.systemPrompt
  createdAt := X.toRfc3339 ws.createdAt
  netNamespace := if ws.netNamespace then 1 else 0
  maxConcurrentRequests := ws.maxConcurrentRequests
  maxModels := ws.maxModels
  maxMemoryBytes := ws.maxMemoryBytes
  dek := some dek

def create (random : Random) (accepted : Bool) (db : WorkspaceDb) (ws : Workspace) :
    Except String WorkspaceDb :=
  let rawDek := ws.dek.getD (generateDek random)
  let dek := match db.kek with
    | some kek => wrapDek G random.nonce kek rawDek
    | none => .ok rawDek
  match dek with
  | .error e => .error e
  | .ok dek =>
      match db.conn.insert (newRow X ws dek) with
      | some conn =>
          if accepted && fitsInteger ws.maxMemoryBytes then .ok { db with conn }
          else .error "inserting workspace"
      | none => .error "inserting workspace"

/-- The columns `update` sets. -/
def setRow (ws : Workspace) (row : Row) : Row :=
  { row with
    name := ws.name
    apiKeyHash := ws.apiKeyHash
    modelAllowlist := joinAllowlist ws.modelAllowlist
    rateLimitRpm := ws.rateLimitRpm
    systemPrompt := ws.systemPrompt
    netNamespace := if ws.netNamespace then 1 else 0
    maxConcurrentRequests := ws.maxConcurrentRequests
    maxModels := ws.maxModels
    maxMemoryBytes := ws.maxMemoryBytes }

/-- `.ok` with whether there was such a workspace. -/
def update (accepted : Bool) (db : WorkspaceDb) (ws : Workspace) :
    Except String (Bool × WorkspaceDb) :=
  if accepted && fitsInteger ws.maxMemoryBytes then
    .ok ((db.conn.find ws.slug).isSome,
      { db with
        conn := db.conn.updateWhere ws.slug (setRow ws) (fun _ => rfl) fun _ => rfl })
  else .error "updating workspace"

/-- `.ok` with whether there was such a workspace. -/
def delete (accepted : Bool) (db : WorkspaceDb) (slug : String) :
    Except String (Bool × WorkspaceDb) :=
  if slug = "default" then .error "cannot delete the default workspace"
  else if accepted then
    .ok ((db.conn.find slug).isSome, { db with conn := db.conn.deleteWhere slug })
  else .error "deleting workspace"

/-- The stored key as it is under the master key. -/
def dekHex (kek : Option Kek) (stored : String) : Except String String :=
  if isWrapped stored then
    match kek with
    | some kek => unwrapDek G kek stored
    | none => .error "dek is wrapped but no KEK is loaded"
  else .ok stored

def decodeDek (hex : String) : Except String (Option (ByteArr 32)) :=
  match Hex.decode hex.toList with
  | none => .error "decoding dek hex"
  | some bytes =>
      match ByteArr.ofBytes 32 bytes with
      | some key => .ok (some key)
      | none => .error "dek must be exactly 32 bytes"

/-- A generated key reads back. -/
theorem decodeDek_generateDek (random : Random) :
    decodeDek (generateDek random) = .ok (some random.dek) := by
  rw [decodeDek, generateDek, String.toList_ofList, Hex.decode_encode]
  simp only [ByteArr.ofBytes_val]

/-- `.ok none` is a key that was destroyed, or a workspace that is not there. -/
def getDekBytes (db : WorkspaceDb) (slug : String) : Except String (Option (ByteArr 32)) :=
  match db.conn.dek slug with
  | none => .ok none
  | some stored => (dekHex G db.kek stored).bind decodeDek

/-- `.ok` with whether there was such a workspace. -/
def destroyDek (accepted : Bool) (db : WorkspaceDb) (slug : String) :
    Except String (Bool × WorkspaceDb) :=
  if accepted then .ok ((db.conn.find slug).isSome, { db with conn := db.conn.setDek slug none })
  else .error "destroying dek"

/-! ## What a write leaves -/

variable {X G} {db db' : WorkspaceDb} {ws : Workspace}

theorem Table.rows_of_insert {t t' : Table} {row : Row}
    (h : t.insert row = some t') :
    (∀ row' ∈ t.rows, row'.slug ≠ row.slug) ∧ t'.rows = t.rows ++ [row] := by
  rw [Table.insert] at h
  split at h
  · next hnew =>
      refine ⟨fun row' hrow' heq => hnew.2 ?_, by rw [← Option.some.inj h]⟩
      exact heq ▸ List.mem_map_of_mem hrow'
  · cases h

/-- The key of one workspace is gone, and those of the others are as they were. -/
theorem getDekBytes_of_destroyDek {accepted b : Bool} {slug : String}
    (h : db.destroyDek accepted slug = .ok (b, db')) :
    db'.getDekBytes G slug = .ok none ∧
      ∀ slug', slug' ≠ slug → db'.getDekBytes G slug' = db.getDekBytes G slug' := by
  rw [destroyDek] at h
  split at h
  · obtain ⟨-, rfl⟩ := Prod.mk.inj (Except.ok.inj h)
    constructor
    · rw [getDekBytes, Table.dek_setDek_none]
    · intro slug' hne
      rw [getDekBytes, getDekBytes, Table.dek_setDek_of_ne hne]
  · cases h

/-- A created workspace has a row of its own after the others. -/
theorem newRow_of_create {random : Random} {accepted : Bool}
    (h : create X G random accepted db ws = .ok db') :
    ∃ dek, (∀ row' ∈ db.conn.rows, row'.slug ≠ ws.slug) ∧
      db'.conn.rows = db.conn.rows ++ [newRow X ws dek] := by
  rw [create] at h
  split at h
  · cases h
  · split at h
    · next hinsert =>
        split at h
        · obtain rfl := Except.ok.inj h
          exact ⟨_, Table.rows_of_insert hinsert⟩
        · cases h
    · cases h

theorem rows_of_create {random : Random} {accepted : Bool}
    (h : create X G random accepted db ws = .ok db') :
    ∃ row : Row, row.slug = ws.slug ∧ row.modelAllowlist = joinAllowlist ws.modelAllowlist ∧
      (∀ row' ∈ db.conn.rows, row'.slug ≠ ws.slug) ∧ db'.conn.rows = db.conn.rows ++ [row] := by
  obtain ⟨dek, hfresh, hrows⟩ := newRow_of_create h
  exact ⟨_, rfl, rfl, hfresh, hrows⟩

/-- A deletion that goes through leaves the rows of the other workspaces. -/
theorem delete_eq_ok {accepted deleted : Bool} {slug : String} :
    delete accepted db slug = .ok (deleted, db') ↔
      slug ≠ "default" ∧ accepted = true ∧ deleted = (db.conn.find slug).isSome ∧
        db' = { db with conn := db.conn.deleteWhere slug } := by
  rw [delete]
  split
  · next hdefault =>
      refine iff_of_false (fun h => ?_) fun h => h.1 hdefault
      cases h
  · next hdefault =>
      cases accepted with
      | false =>
          refine iff_of_false (fun h => ?_) fun h => ?_
          · cases h
          · cases h.2.1
      | true =>
          rw [if_pos rfl]
          constructor
          · intro h
            obtain ⟨hdeleted, hdb⟩ := Prod.mk.inj (Except.ok.inj h)
            exact ⟨hdefault, rfl, hdeleted.symm, hdb.symm⟩
          · rintro ⟨-, -, rfl, rfl⟩
            rfl

/-- An update that found the workspace sets the columns of its row. -/
theorem rows_of_update {accepted : Bool} (h : update accepted db ws = .ok (true, db')) :
    (∃ row ∈ db.conn.rows, row.slug = ws.slug) ∧
      db'.conn.rows =
        db.conn.rows.map fun row => if row.slug = ws.slug then setRow ws row else row := by
  rw [update] at h
  split at h
  · obtain ⟨hfound, rfl⟩ := Prod.mk.inj (Except.ok.inj h)
    obtain ⟨row, hrow, hslug⟩ := List.find?_isSome.mp hfound
    exact ⟨⟨row, hrow, beq_iff_eq.mp hslug⟩, rfl⟩
  · cases h

end WorkspaceDb

end Maranode.Store
