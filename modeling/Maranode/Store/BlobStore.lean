/-
  Maranode.Store.BlobStore

  `store.rs`, `blob.rs` and `db.rs`: importing, pulling and removing models.

  A model is a row of `models.db` and a file of the blobs directory, and no transaction spans
  both.  A call that fails between the two, or that cannot remove what it has written, leaves
  one without the other: `Clean` says which calls do not.
-/
import Maranode.Common.Gguf
import Maranode.Lib.Run
import Maranode.Lib.Table
import Maranode.Store.Blob

namespace Maranode.Store

open Lib Lib.Path Maranode.Common

variable (X : External)

/-! ## The blobs directory -/

/-- A file of the blobs directory, by its name. -/
def inBlobs (dataDir : Path) (name : Text) : Path := join (blobsDir dataDir) name

def blobName (sha256 : String) : Text := "sha256-".toList ++ sha256.toList

/-- `.import-<uuid>.tmp`. -/
def importTmp (u : Uuid) : Text := ".import-".toList ++ (X.uuidText u).toList ++ ".tmp".toList

/-- `<uuid>.pull.part`. -/
def pullPart (u : Uuid) : Text := (X.uuidText u).toList ++ ".pull.part".toList

/-- The rows of `models`, of which no two have a name and tag in common, and the files. -/
structure BlobStore where
  dataDir : Path
  db : Lib.Table (Prod.fst : ModelId × ModelManifest → ModelId)
  files : Path → Option Bytes

namespace BlobStore

/-- What a load of a model sees. -/
def modelStore (s : BlobStore) : ModelStore where
  dataDir := s.dataDir
  db id := (s.db.get id).map Prod.snd
  files := s.files

def put (s : BlobStore) (path : Path) (content : Option Bytes) : BlobStore :=
  { s with files := Function.update s.files path content }

/-- `fs::rename`. -/
def rename (s : BlobStore) (src dest : Path) : BlobStore :=
  (s.put src none).put dest (s.files src)

/-- The file goes where its digest says, or goes if one is there. -/
def place (s : BlobStore) (fails : Option String) (tmp dest : Path) :
    BlobStore × Except String Unit :=
  match fails with
  | some e => (s, .error e)
  | none => if (s.files dest).isSome then (s.put tmp none, .ok ()) else (s.rename tmp dest, .ok ())

/-- `ManifestDb::insert`, which SQLite may refuse for another reason than a name and tag
    that are taken. -/
def insert (s : BlobStore) (fails : Option String) (id : ModelId) (manifest : ModelManifest) :
    BlobStore × Except String ModelManifest :=
  match fails with
  | some _ => (s, .error "inserting manifest")
  | none =>
      match s.db.insert (id, manifest) with
      | none => (s, .error "inserting manifest")
      | some db => ({ s with db }, .ok manifest)

/-! ## import_from_file -/

/-- What one import meets. -/
structure ImportMoment where
  /-- The model file, or what is wrong with opening it. -/
  source : Except String Bytes
  dirFails : Option String
  tmp : Uuid
  createFails : Option String
  /-- Reading, writing or syncing fails once some bytes are written. -/
  stops : Option (Nat × String)
  placeFails : Option String
  /-- The guard cannot remove the temporary file. -/
  guardFails : Bool
  rowFails : Option String

/-- `import_blob` from where it creates the temporary file. -/
def copyBlob (s : BlobStore) (m : ImportMoment) (content : Bytes) :
    BlobStore × Except String (String × Nat) :=
  let tmp := inBlobs s.dataDir (importTmp X m.tmp)
  match m.createFails with
  | some _ => (s, .error "creating temporary blob file")
  | none =>
      match m.stops with
      | some (n, e) => (s.put tmp (content.take n), .error e)
      | none =>
          let s := s.put tmp content
          let sha256 := X.sha256 content
          match blobPathChecked s.dataDir sha256 with
          | .error e => (s, .error e)
          | .ok dest =>
              let out := s.place m.placeFails tmp dest
              (out.1, out.2.map fun _ => (sha256, content.length))

/-- `TmpGuard`. -/
def dropGuard (s : BlobStore) (fails : Bool) (tmp : Path) : BlobStore :=
  if fails then s else s.put tmp none

def importBlob (s : BlobStore) (m : ImportMoment) (content : Bytes) :
    BlobStore × Except String (String × Nat) :=
  match m.dirFails with
  | some e => (s, .error e)
  | none =>
      let out := s.copyBlob X m content
      (out.1.dropGuard m.guardFails (inBlobs s.dataDir (importTmp X m.tmp)), out.2)

def importFromFile (s : BlobStore) (m : ImportMoment) (id : ModelId)
    (quantization : Option String) : BlobStore × Except String ModelManifest :=
  match m.source with
  | .error e => (s, .error e)
  | .ok content =>
      match s.importBlob X m content with
      | (s, .error e) => (s, .error e)
      | (s, .ok (sha256, sizeBytes)) =>
          match blobAbsolutePath s.dataDir sha256 with
          | .error e => (s, .error e)
          | .ok path =>
              s.insert m.rowFails id
                { sha256
                  sizeBytes
                  quantization
                  blobPath := String.ofList path
                  contextLength := (s.files path).bind readContextLength }

/-! ## pull_from_url -/

/-- What one pull meets. -/
structure PullMoment where
  tmp : Uuid
  /-- The directory, the client, the request or the status of the answer. -/
  prepareFails : Option String
  createFails : Option String
  /-- The body of the answer. -/
  content : Bytes
  /-- The download fails, or is dropped, once some bytes are written. -/
  stops : Option (Nat × String)
  placeFails : Option String
  metadataFails : Option String
  rowFails : Option String

def pullFromUrl (s : BlobStore) (m : PullMoment) (id : ModelId) (quantization : Option String) :
    BlobStore × Except String ModelManifest :=
  let tmp := inBlobs s.dataDir (pullPart X m.tmp)
  match m.prepareFails with
  | some e => (s, .error e)
  | none =>
      match m.createFails with
      | some e => (s, .error e)
      | none =>
          match m.stops with
          | some (n, e) => (s.put tmp (m.content.take n), .error e)
          | none =>
              let s := s.put tmp m.content
              let sha256 := X.sha256 m.content
              match blobAbsolutePath s.dataDir sha256 with
              | .error e => (s, .error e)
              | .ok path =>
                  match s.place m.placeFails tmp path with
                  | (s, .error e) => (s, .error e)
                  | (s, .ok ()) =>
                      match m.metadataFails with
                      | some e => (s, .error e)
                      | none =>
                          s.insert m.rowFails id
                            { sha256
                              sizeBytes := ((s.files path).getD []).length
                              quantization
                              blobPath := String.ofList path
                              contextLength := (s.files path).bind readContextLength }

/-! ## remove -/

/-- What one removal meets. -/
structure RemoveMoment where
  getFails : Option String
  deleteFails : Option String
  listFails : Option String
  unlinkFails : Option String

/-- `ManifestDb::delete`. -/
def deleteRow (s : BlobStore) (id : ModelId) : BlobStore :=
  { s with db := s.db.deleteWhere fun row => decide (row.1 = id) }

/-- The file of a digest that no row has; that it does not go is only a warning. -/
def removeBlob (s : BlobStore) (m : RemoveMoment) (sha256 : String) : BlobStore :=
  if (s.db.rows.filter fun row => row.2.sha256 == sha256).isEmpty then
    match blobAbsolutePath s.dataDir sha256 with
    | .error _ => s
    | .ok path =>
        match m.unlinkFails with
        | some _ => s
        | none => s.put path none
  else s

def remove (s : BlobStore) (m : RemoveMoment) (id : ModelId) : BlobStore × Except String Bool :=
  match m.getFails with
  | some e => (s, .error e)
  | none =>
      let manifest := s.db.get id
      match m.deleteFails with
      | some e => (s, .error e)
      | none =>
          let s := s.deleteRow id
          match manifest with
          | none => (s, .ok false)
          | some row =>
              match m.listFails with
              | some e => (s, .error e)
              | none => (s.removeBlob m row.2.sha256, .ok true)

/-! ## Calls -/

inductive Call where
  | importFile (m : ImportMoment) (id : ModelId) (quantization : Option String)
  | pull (m : PullMoment) (id : ModelId) (quantization : Option String)
  | remove (m : RemoveMoment) (id : ModelId)

def next (s : BlobStore) : Call → BlobStore
  | .importFile m id quantization => (s.importFromFile X m id quantization).1
  | .pull m id quantization => (s.pullFromUrl X m id quantization).1
  | .remove m id => (s.remove m id).1

def step (s : BlobStore) (c : Call) : Option BlobStore := some (s.next X c)

/-- The files of the blobs directory are those of the rows' digests, and have them. -/
structure Corresponds (s : BlobStore) : Prop where
  names : ∀ name, ('/' ∉ name ∧ (s.files (inBlobs s.dataDir name)).isSome = true) ↔
    ∃ row ∈ s.db.rows, name = blobName row.2.sha256
  contents : ∀ sha256 content, '/' ∉ sha256.toList →
    s.files (blobFile s.dataDir sha256) = some content → X.sha256 content = sha256

/-- A row has the digest of the content. -/
def Held (s : BlobStore) (content : Bytes) : Prop :=
  ∃ row ∈ s.db.rows, row.2.sha256 = X.sha256 content

/-- The row of a new model is taken. -/
def Accepts (s : BlobStore) (id : ModelId) (rowFails : Option String) : Prop :=
  s.db.get id = none ∧ rowFails = none

/-- The calls that leave no file without a row, no row without a file and no temporary
    file. -/
def Clean (s : BlobStore) : Call → Prop
  | .importFile m id _ =>
      ∀ content, m.source = .ok content → m.dirFails = none → m.createFails = none →
        if m.stops = none ∧ m.placeFails = none then s.Held X content ∨ s.Accepts id m.rowFails
        else m.guardFails = false
  | .pull m id _ =>
      m.prepareFails = none → m.createFails = none →
        m.stops = none ∧ m.placeFails = none ∧
          (s.Held X m.content ∨ m.metadataFails = none ∧ s.Accepts id m.rowFails)
  | .remove m id =>
      m.getFails = none → m.deleteFails = none → ∀ row, s.db.get id = some row →
        (∃ other ∈ s.db.rows, other.1 ≠ id ∧ other.2.sha256 = row.2.sha256) ∨
          m.listFails = none ∧ m.unlinkFails = none

/-! ## Names -/

section Names

variable {dataDir : Path} {sha256 : String}

theorem isAbsolute_of_notMem {name : Text} (h : '/' ∉ name) : isAbsolute name = false := by
  rw [isAbsolute, beq_eq_false_iff_ne]
  intro hhead
  exact h (List.mem_of_head? hhead)

theorem inBlobs_injective {a b : Text} (ha : '/' ∉ a) (hb : '/' ∉ b)
    (h : inBlobs dataDir a = inBlobs dataDir b) : a = b := by
  rw [inBlobs, inBlobs, join, join, isAbsolute_of_notMem ha, isAbsolute_of_notMem hb,
    if_neg Bool.false_ne_true, if_neg Bool.false_ne_true] at h
  split at h
  · exact List.append_cancel_left h
  · exact (List.cons.inj (List.append_cancel_left h)).2

theorem blobName_injective {a b : String} (h : blobName a = blobName b) : a = b :=
  String.toList_injective (List.append_cancel_left h)

/-- A digest has no character of one byte that is not a digit of it. -/
theorem notMem_of_isSha256Hex (h : isSha256Hex sha256 = true) {c : Char} {b : UInt8}
    (hc : String.utf8EncodeChar c = [b])
    (hb : (decide (0x30 ≤ b ∧ b ≤ 0x39) || decide (0x61 ≤ b ∧ b ≤ 0x66)) = false) :
    c ∉ sha256.toList := by
  intro hmem
  rw [isSha256Hex, Bool.and_eq_true, List.all_eq_true] at h
  have hbyte : b ∈ Text.encode sha256.toList := by
    rw [Text.encode, List.mem_flatMap]
    exact ⟨c, hmem, by rw [hc]; exact List.mem_singleton_self b⟩
  rw [h.2 b hbyte] at hb
  cases hb

theorem mem_blobName {c : Char} : c ∈ blobName sha256 ↔ c ∈ "sha256-".toList ∨ c ∈ sha256.toList :=
  List.mem_append

/-- The name of a digest is one name, without a dot. -/
theorem notMem_blobName (h : isSha256Hex sha256 = true) :
    '/' ∉ blobName sha256 ∧ '.' ∉ blobName sha256 := by
  have hslash : '/' ∉ sha256.toList := notMem_of_isSha256Hex h (b := 0x2f) (by decide) (by decide)
  have hdot : '.' ∉ sha256.toList := notMem_of_isSha256Hex h (b := 0x2e) (by decide) (by decide)
  rw [mem_blobName, mem_blobName]
  exact ⟨not_or.mpr ⟨by decide, hslash⟩, not_or.mpr ⟨by decide, hdot⟩⟩

end Names

section Temporary

variable {X} (huuid : ∀ u, '/' ∉ (X.uuidText u).toList) (u : Uuid)
include huuid

theorem notMem_importTmp : '/' ∉ importTmp X u := by
  intro h
  rcases List.mem_append.mp h with hfront | hend
  · rcases List.mem_append.mp hfront with hstart | hid
    · exact absurd hstart (by decide)
    · exact huuid u hid
  · exact absurd hend (by decide)

theorem notMem_pullPart : '/' ∉ pullPart X u := by
  intro h
  rcases List.mem_append.mp h with hid | hend
  · exact huuid u hid
  · exact absurd hend (by decide)

end Temporary

theorem dot_mem_importTmp (u : Uuid) : '.' ∈ importTmp X u :=
  List.mem_append_right _ (by decide)

theorem dot_mem_pullPart (u : Uuid) : '.' ∈ pullPart X u :=
  List.mem_append_right _ (by decide)

/-! ## What corresponds -/

variable {X} {s : BlobStore} {content : Bytes}

/-- The documented form of a digest. -/
def Hex (X : External) : Prop := ∀ b, isSha256Hex (X.sha256 b) = true

theorem slash_notMem_of_blobName {sha256 : String} (h : '/' ∉ blobName sha256) :
    '/' ∉ sha256.toList :=
  fun hmem => h (mem_blobName.mpr (.inr hmem))

/-- The digest of a row is the digest of its file. -/
theorem Corresponds.hex (h : s.Corresponds X) (hhex : Hex X) {row : ModelId × ModelManifest}
    (hrow : row ∈ s.db.rows) : isSha256Hex row.2.sha256 = true := by
  obtain ⟨hslash, hfile⟩ := (h.names _).mpr ⟨row, hrow, rfl⟩
  obtain ⟨content, hcontent⟩ := Option.isSome_iff_exists.mp hfile
  rw [← h.contents _ content (slash_notMem_of_blobName hslash) hcontent]
  exact hhex content

/-- Only names with a dot are left for temporary files, and no such file is there. -/
theorem Corresponds.eq_none (h : s.Corresponds X) (hhex : Hex X) {name : Text}
    (hslash : '/' ∉ name) (hdot : '.' ∈ name) : s.files (inBlobs s.dataDir name) = none := by
  rw [← Option.not_isSome_iff_eq_none]
  intro hfile
  obtain ⟨row, hrow, rfl⟩ := (h.names name).mp ⟨hslash, hfile⟩
  exact (notMem_blobName (h.hex hhex hrow)).2 hdot

/-- A file that is put, and the others. -/
theorem files_put (s : BlobStore) {a b : Text} (ha : '/' ∉ a) (hb : '/' ∉ b)
    (o : Option Bytes) :
    (s.put (inBlobs s.dataDir a) o).files (inBlobs s.dataDir b) =
      if b = a then o else s.files (inBlobs s.dataDir b) := by
  change Function.update s.files (inBlobs s.dataDir a) o (inBlobs s.dataDir b) = _
  split
  · next hab => rw [hab, Function.update_self]
  · next hab =>
      rw [Function.update_of_ne]
      exact fun heq => hab (inBlobs_injective hb ha heq)

/-- A temporary file that is left corresponds to nothing. -/
theorem not_corresponds_left (hhex : Hex X) {name : Text} (hslash : '/' ∉ name) (hdot : '.' ∈ name)
    (bytes : Bytes) : ¬ (s.put (inBlobs s.dataDir name) (some bytes)).Corresponds X := by
  intro h
  have hnone := h.eq_none hhex hslash hdot
  have hleft := files_put s hslash hslash (some bytes)
  rw [if_pos rfl] at hleft
  cases hleft.symm.trans hnone

theorem Corresponds.isSome_iff (h : s.Corresponds X) (hhex : Hex X) :
    (s.files (blobFile s.dataDir (X.sha256 content))).isSome = true ↔ s.Held X content := by
  have hslash := (notMem_blobName (hhex content)).1
  constructor
  · intro hfile
    obtain ⟨row, hrow, hname⟩ := (h.names _).mp ⟨hslash, hfile⟩
    exact ⟨row, hrow, (blobName_injective hname).symm⟩
  · rintro ⟨row, hrow, hsha⟩
    have hname : blobName (X.sha256 content) = blobName row.2.sha256 := by rw [hsha]
    exact ((h.names _).mpr ⟨row, hrow, hname⟩).2

/-- Some row has the digest. -/
def Digest (db : Lib.Table (Prod.fst : ModelId × ModelManifest → ModelId)) (sha256 : String) :
    Prop :=
  ∃ row ∈ db.rows, row.2.sha256 = sha256

theorem exists_blobName_iff {db : Lib.Table (Prod.fst : ModelId × ModelManifest → ModelId)}
    {sha256 : String} :
    (∃ row ∈ db.rows, blobName sha256 = blobName row.2.sha256) ↔ Digest db sha256 := by
  constructor
  · rintro ⟨row, hrow, hname⟩
    exact ⟨row, hrow, (blobName_injective hname).symm⟩
  · rintro ⟨row, hrow, rfl⟩
    exact ⟨row, hrow, rfl⟩

/-- The file of a digest and the rows change together. -/
theorem Corresponds.put (h : s.Corresponds X) {sha256 : String} (hhex : isSha256Hex sha256 = true)
    {o : Option Bytes} (ho : ∀ content, o = some content → X.sha256 content = sha256)
    {db : Lib.Table (Prod.fst : ModelId × ModelManifest → ModelId)}
    (hself : Digest db sha256 ↔ o.isSome = true)
    (hother : ∀ sha', sha' ≠ sha256 → (Digest db sha' ↔ Digest s.db sha')) :
    Corresponds X { s.put (blobFile s.dataDir sha256) o with db } := by
  have hslash := (notMem_blobName hhex).1
  constructor
  · intro name
    change ('/' ∉ name ∧ ((s.put (inBlobs s.dataDir (blobName sha256)) o).files
      (inBlobs s.dataDir name)).isSome = true) ↔ ∃ row ∈ db.rows, name = blobName row.2.sha256
    -- Under this digest's name the file is there when a row has the digest.
    by_cases hname : name = blobName sha256
    · rw [hname, files_put s hslash hslash, if_pos rfl, exists_blobName_iff, hself]
      exact and_iff_right hslash
    -- Every other name has the file and the rows that it had.
    · have hsame : (∃ row ∈ db.rows, name = blobName row.2.sha256) ↔
          ∃ row ∈ s.db.rows, name = blobName row.2.sha256 := by
        constructor
        · rintro ⟨row, hrow, rfl⟩
          exact exists_blobName_iff.mpr
            ((hother _ fun heq => hname (congrArg blobName heq)).mp ⟨row, hrow, rfl⟩)
        · rintro ⟨row, hrow, rfl⟩
          exact exists_blobName_iff.mpr
            ((hother _ fun heq => hname (congrArg blobName heq)).mpr ⟨row, hrow, rfl⟩)
      rw [hsame, ← h.names name]
      refine and_congr_right fun hname' => ?_
      rw [files_put s hslash hname', if_neg hname]
  -- The content under a name still hashes to it.
  · intro sha' content hsha' hcontent
    by_cases heq : sha' = sha256
    · have hput := files_put s hslash hslash o
      rw [if_pos rfl] at hput
      rw [heq] at hcontent ⊢
      exact ho content (hput.symm.trans hcontent)
    · have hname' : '/' ∉ blobName sha' := by
        rw [mem_blobName]
        exact not_or.mpr ⟨by decide, hsha'⟩
      have hput := files_put s hslash hname' o
      rw [if_neg fun hname => heq (blobName_injective hname)] at hput
      exact h.contents sha' content hsha' (hput.symm.trans hcontent)

/-- Rows that have the same digests correspond to the same files. -/
theorem Corresponds.of_digests (h : s.Corresponds X)
    {db : Lib.Table (Prod.fst : ModelId × ModelManifest → ModelId)}
    (hsame : ∀ sha256, Digest db sha256 ↔ Digest s.db sha256) : Corresponds X { s with db } := by
  refine ⟨fun name => ?_, h.contents⟩
  rw [h.names name]
  constructor
  · rintro ⟨row, hrow, rfl⟩
    exact exists_blobName_iff.mpr ((hsame _).mpr ⟨row, hrow, rfl⟩)
  · rintro ⟨row, hrow, rfl⟩
    exact exists_blobName_iff.mpr ((hsame _).mp ⟨row, hrow, rfl⟩)

/-- A file that no row has the digest of. -/
theorem not_corresponds_orphan {sha256 : String} (hhex : isSha256Hex sha256 = true)
    (hfile : (s.files (blobFile s.dataDir sha256)).isSome = true) (hnone : ¬ Digest s.db sha256) :
    ¬ s.Corresponds X := by
  intro h
  have hrow := (h.names (blobName sha256)).mp ⟨(notMem_blobName hhex).1, hfile⟩
  exact hnone (exists_blobName_iff.mp hrow)

/-! ## Placing and inserting -/

theorem put_put (s : BlobStore) (path : Path) (o o' : Option Bytes) :
    (s.put path o).put path o' = s.put path o' := by
  change { s with files := Function.update (Function.update s.files path o) path o' } = _
  rw [Function.update_idem]
  rfl

theorem put_of_eq_none {path : Path} (h : s.files path = none) : s.put path none = s := by
  change { s with files := Function.update s.files path none } = s
  rw [← h, Function.update_eq_self]

variable (X) in
/-- The store once the content is where its digest says. -/
def placed (s : BlobStore) (content : Bytes) : BlobStore :=
  if (s.files (blobFile s.dataDir (X.sha256 content))).isSome then s
  else s.put (blobFile s.dataDir (X.sha256 content)) (some content)

theorem db_placed (s : BlobStore) (content : Bytes) : (s.placed X content).db = s.db := by
  rw [placed]
  split <;> rfl

/-- A temporary name is not that of a digest. -/
theorem ne_blobFile (hhex : Hex X) {name : Text} (hslash : '/' ∉ name) (hdot : '.' ∈ name)
    (dataDir : Path) (content : Bytes) :
    inBlobs dataDir name ≠ blobFile dataDir (X.sha256 content) := by
  intro heq
  obtain ⟨hslash', hdot'⟩ := notMem_blobName (hhex content)
  have hname := inBlobs_injective (b := blobName (X.sha256 content)) hslash hslash' heq
  rw [hname] at hdot
  exact hdot' hdot

/-- **Placing** a temporary file that is not there before. -/
theorem place_eq (hhex : Hex X) {name : Text} (hslash : '/' ∉ name) (hdot : '.' ∈ name)
    (hnone : s.files (inBlobs s.dataDir name) = none) (content : Bytes) :
    (s.put (inBlobs s.dataDir name) (some content)).place none (inBlobs s.dataDir name)
      (blobFile s.dataDir (X.sha256 content)) = (s.placed X content, .ok ()) := by
  have hne := ne_blobFile hhex hslash hdot s.dataDir content
  have hdest : (s.put (inBlobs s.dataDir name) (some content)).files
      (blobFile s.dataDir (X.sha256 content)) =
        s.files (blobFile s.dataDir (X.sha256 content)) :=
    Function.update_of_ne hne.symm _ _
  have hsrc : (s.put (inBlobs s.dataDir name) (some content)).files (inBlobs s.dataDir name) =
      some content := Function.update_self _ _ _
  rw [place, placed, hdest, rename, hsrc, put_put, put_of_eq_none hnone]
  split <;> rfl

/-- The temporary file is not there once the content is placed. -/
theorem placed_eq_none (hhex : Hex X) {name : Text} (hslash : '/' ∉ name) (hdot : '.' ∈ name)
    (hnone : s.files (inBlobs s.dataDir name) = none) (content : Bytes) :
    (s.placed X content).files (inBlobs s.dataDir name) = none := by
  rw [placed]
  split
  · exact hnone
  · exact (Function.update_of_ne (ne_blobFile hhex hslash hdot s.dataDir content) _ _).trans hnone

/-- Content that is placed corresponds where a row has its digest. -/
theorem placed_corresponds_iff (h : s.Corresponds X) (hhex : Hex X) (content : Bytes) :
    (s.placed X content).Corresponds X ↔ s.Held X content := by
  rw [placed]
  split
  · next hfile => exact iff_of_true h ((h.isSome_iff hhex).mp hfile)
  · next hfile =>
      have hnone : ¬ s.Held X content := fun hheld => hfile ((h.isSome_iff hhex).mpr hheld)
      refine iff_of_false (not_corresponds_orphan (hhex content) ?_ hnone) hnone
      have hput : (s.put (blobFile s.dataDir (X.sha256 content)) (some content)).files
          (blobFile s.dataDir (X.sha256 content)) = some content := Function.update_self _ _ _
      exact Option.isSome_iff_exists.mpr ⟨content, hput⟩

theorem insert_of_refused {id : ModelId} {fails : Option String} (h : ¬ s.Accepts id fails)
    (manifest : ModelManifest) : (s.insert fails id manifest).1 = s := by
  cases fails with
  | some e => rfl
  | none =>
      have hnone : s.db.insert (id, manifest) = none := dif_neg fun hid => h ⟨hid, rfl⟩
      unfold insert
      rw [hnone]

theorem insert_of_accepts {id : ModelId} {fails : Option String} (h : s.Accepts id fails)
    (manifest : ModelManifest) :
    ∃ db, db.rows = s.db.rows ++ [(id, manifest)] ∧
      (s.insert fails id manifest).1 = { s with db } := by
  obtain ⟨hid, rfl⟩ := h
  obtain ⟨db, hdb⟩ := Table.exists_insert (r := (id, manifest)) hid
  refine ⟨db, (Table.insert_eq_some hdb).2, ?_⟩
  unfold insert
  rw [hdb]

theorem digest_concat {db db' : Lib.Table (Prod.fst : ModelId × ModelManifest → ModelId)}
    {row : ModelId × ModelManifest} (h : db'.rows = db.rows ++ [row]) (sha256 : String) :
    Digest db' sha256 ↔ Digest db sha256 ∨ row.2.sha256 = sha256 := by
  rw [Digest, h]
  constructor
  · rintro ⟨r, hr, hsha⟩
    rcases List.mem_append.mp hr with hold | hnew
    · exact .inl ⟨r, hold, hsha⟩
    · rw [List.mem_singleton.mp hnew] at hsha
      exact .inr hsha
  · rintro (⟨r, hr, hsha⟩ | hsha)
    · exact ⟨r, List.mem_append_left _ hr, hsha⟩
    · exact ⟨row, List.mem_append_right _ (List.mem_singleton_self row), hsha⟩

/-- **Inserting.**  A model whose content is placed corresponds if a row had its digest, or
    its own row is taken. -/
theorem insert_placed_corresponds_iff (h : s.Corresponds X) (hhex : Hex X) {content : Bytes}
    {manifest : ModelManifest} (hsha : manifest.sha256 = X.sha256 content) (id : ModelId)
    (fails : Option String) :
    ((s.placed X content).insert fails id manifest).1.Corresponds X ↔
      s.Held X content ∨ s.Accepts id fails := by
  have haccepts : (s.placed X content).Accepts id fails ↔ s.Accepts id fails := by
    rw [Accepts, db_placed, Accepts]
  -- A refused insert leaves the blob that was placed before it.
  by_cases hid : s.Accepts id fails
  · obtain ⟨db, hrows, hinsert⟩ := insert_of_accepts (haccepts.mpr hid) manifest
    refine iff_of_true ?_ (.inr hid)
    rw [db_placed] at hrows
    rw [hinsert]
    have hdigest := digest_concat hrows
    have hself : Digest db (X.sha256 content) := (hdigest _).mpr (.inr hsha)
    rw [placed]
    -- The content was stored already, and only the rows change.
    split
    · next hfile =>
        refine h.of_digests fun sha256 => ?_
        rw [hdigest]
        refine or_iff_left_of_imp fun heq => ?_
        rw [← heq, hsha]
        exact (h.isSome_iff hhex).mp hfile
    -- The blob and its row are both new.
    · refine h.put (hhex content) ?_ (iff_of_true hself rfl) fun sha' hne => ?_
      · intro content' hcontent'
        rw [Option.some.inj hcontent']
      · rw [hdigest]
        refine or_iff_left fun heq => hne ?_
        rw [← heq, hsha]
  · rw [insert_of_refused (fun hplaced => hid (haccepts.mp hplaced)),
      placed_corresponds_iff h hhex, or_iff_left hid]

/-! ## Importing -/

theorem blobPathChecked_of_hex (hhex : Hex X) (dataDir : Path) (content : Bytes) :
    blobPathChecked dataDir (X.sha256 content) = .ok (blobFile dataDir (X.sha256 content)) :=
  if_pos (hhex content)

section Import

variable {m : ImportMoment}

theorem copyBlob_of_stops (hcreate : m.createFails = none) {n : Nat} {e : String}
    (hstops : m.stops = some (n, e)) :
    s.copyBlob X m content =
      (s.put (inBlobs s.dataDir (importTmp X m.tmp)) (some (content.take n)), .error e) := by
  unfold copyBlob
  rw [hcreate, hstops]

theorem copyBlob_of_placeFails (hhex : Hex X) (hcreate : m.createFails = none)
    (hstops : m.stops = none) {e : String} (hplace : m.placeFails = some e) :
    s.copyBlob X m content =
      (s.put (inBlobs s.dataDir (importTmp X m.tmp)) (some content), .error e) := by
  unfold copyBlob
  rw [hcreate, hstops]
  dsimp only
  rw [blobPathChecked_of_hex hhex, hplace]
  rfl

theorem copyBlob_of_placed (hhex : Hex X) (huuid : ∀ u, '/' ∉ (X.uuidText u).toList)
    (hnone : s.files (inBlobs s.dataDir (importTmp X m.tmp)) = none)
    (hcreate : m.createFails = none) (hstops : m.stops = none) (hplace : m.placeFails = none) :
    s.copyBlob X m content = (s.placed X content, .ok (X.sha256 content, content.length)) := by
  have hplaced := place_eq hhex (notMem_importTmp huuid m.tmp) (dot_mem_importTmp X m.tmp) hnone
    content
  unfold copyBlob
  rw [hcreate, hstops]
  dsimp only
  rw [blobPathChecked_of_hex hhex, hplace]
  dsimp only
  rw [show (s.put (inBlobs s.dataDir (importTmp X m.tmp)) (some content)).dataDir = s.dataDir
    from rfl, hplaced]
  rfl

/-- What is copied and not placed is left if the guard fails. -/
theorem importBlob_of_left (hdir : m.dirFails = none)
    (hnone : s.files (inBlobs s.dataDir (importTmp X m.tmp)) = none) {bytes : Bytes} {e : String}
    (hcopy : s.copyBlob X m content =
      (s.put (inBlobs s.dataDir (importTmp X m.tmp)) (some bytes), .error e)) :
    s.importBlob X m content =
      (if m.guardFails then s.put (inBlobs s.dataDir (importTmp X m.tmp)) (some bytes) else s,
        .error e) := by
  unfold importBlob
  rw [hdir]
  dsimp only
  rw [hcopy, dropGuard, put_put, put_of_eq_none hnone]

/-- A guard that finds no temporary file does nothing. -/
theorem importBlob_of_kept (hdir : m.dirFails = none) {t : BlobStore}
    {r : Except String (String × Nat)} (hcopy : s.copyBlob X m content = (t, r))
    (hnone : t.files (inBlobs s.dataDir (importTmp X m.tmp)) = none) :
    s.importBlob X m content = (t, r) := by
  unfold importBlob
  rw [hdir]
  dsimp only
  rw [hcopy, dropGuard, put_of_eq_none hnone]
  split <;> rfl

/-- **An import** leaves what corresponds exactly when it is clean. -/
theorem importFromFile_corresponds_iff (h : s.Corresponds X) (hhex : Hex X)
    (huuid : ∀ u, '/' ∉ (X.uuidText u).toList) (id : ModelId) (quantization : Option String) :
    (s.importFromFile X m id quantization).1.Corresponds X ↔
      s.Clean X (.importFile m id quantization) := by
  have hslash := notMem_importTmp huuid m.tmp
  have hdot := dot_mem_importTmp X m.tmp
  have hnone := h.eq_none hhex hslash hdot
  rw [Clean]
  unfold importFromFile
  -- The source is read, the directory made and the temporary file created, in that order.
  cases hsource : m.source with
  | error e =>
      exact iff_of_true h fun content hcontent => by cases hcontent
  | ok content =>
      dsimp only
      cases hdir : m.dirFails with
      | some e =>
          have himport : s.importBlob X m content = (s, .error e) := by
            unfold importBlob
            rw [hdir]
          rw [himport]
          exact iff_of_true h fun _ _ hdir' => by cases hdir'
      | none =>
          cases hcreate : m.createFails with
          | some e =>
              have hcopy : s.copyBlob X m content =
                  (s, .error "creating temporary blob file") := by
                unfold copyBlob
                rw [hcreate]
              rw [importBlob_of_kept hdir hcopy hnone]
              exact iff_of_true h fun _ _ _ hcreate' => by cases hcreate'
          | none =>
              -- Past these the condition is about this one content.
              have hclean : (∀ content', (.ok content : Except String Bytes) = .ok content' →
                  (none : Option String) = none → (none : Option String) = none →
                  if m.stops = none ∧ m.placeFails = none then
                    s.Held X content' ∨ s.Accepts id m.rowFails else m.guardFails = false) ↔
                  if m.stops = none ∧ m.placeFails = none then
                    s.Held X content ∨ s.Accepts id m.rowFails else m.guardFails = false := by
                constructor
                · intro hall
                  exact hall content rfl rfl rfl
                · intro hone content' hcontent' _ _
                  rw [← Except.ok.inj hcontent']
                  exact hone
              rw [hclean]
              -- The copy goes through, and the insert decides.
              by_cases hplaced : m.stops = none ∧ m.placeFails = none
              · have hcopy : s.copyBlob X m content =
                    (s.placed X content, .ok (X.sha256 content, content.length)) :=
                  copyBlob_of_placed hhex huuid hnone hcreate hplaced.1 hplaced.2
                rw [if_pos hplaced, importBlob_of_kept hdir hcopy
                  (placed_eq_none hhex hslash hdot hnone content)]
                dsimp only
                rw [blobAbsolutePath, blobPathChecked_of_hex hhex]
                exact insert_placed_corresponds_iff h hhex rfl id m.rowFails
              -- The copy stops: the temporary file is left unless its guard removes it.
              · obtain ⟨bytes, e, hcopy⟩ : ∃ bytes e, s.copyBlob X m content =
                    (s.put (inBlobs s.dataDir (importTmp X m.tmp)) (some bytes), .error e) := by
                  cases hstops : m.stops with
                  | some stop => exact ⟨_, _, copyBlob_of_stops hcreate hstops⟩
                  | none =>
                      cases hplace : m.placeFails with
                      | some e => exact ⟨_, _, copyBlob_of_placeFails hhex hcreate hstops hplace⟩
                      | none => exact absurd ⟨hstops, hplace⟩ hplaced
                rw [if_neg hplaced, importBlob_of_left hdir hnone hcopy]
                cases m.guardFails with
                | true =>
                    refine iff_of_false (not_corresponds_left hhex hslash hdot bytes) ?_
                    exact fun heq => by cases heq
                | false => exact iff_of_true h rfl

end Import

/-! ## Pulling -/

section Pull

variable {m : PullMoment} {id : ModelId} {quantization : Option String}

variable (s id quantization) in
/-- A pull that ends before its file is placed leaves it. -/
theorem pullFromUrl_of_left (hhex : Hex X) (hprepare : m.prepareFails = none)
    (hcreate : m.createFails = none) (hleft : ¬ (m.stops = none ∧ m.placeFails = none)) :
    ∃ bytes, (s.pullFromUrl X m id quantization).1 =
      s.put (inBlobs s.dataDir (pullPart X m.tmp)) (some bytes) := by
  unfold pullFromUrl
  rw [hprepare, hcreate]
  cases hstops : m.stops with
  | some stop => exact ⟨_, rfl⟩
  | none =>
      cases hplace : m.placeFails with
      | none => exact absurd ⟨hstops, hplace⟩ hleft
      | some e =>
          dsimp only
          rw [blobAbsolutePath, blobPathChecked_of_hex hhex]
          exact ⟨_, rfl⟩

variable (id quantization) in
/-- A pull whose file is placed goes on to the metadata and the row. -/
theorem pullFromUrl_of_placed (hhex : Hex X) (huuid : ∀ u, '/' ∉ (X.uuidText u).toList)
    (hnone : s.files (inBlobs s.dataDir (pullPart X m.tmp)) = none)
    (hprepare : m.prepareFails = none) (hcreate : m.createFails = none)
    (hplaced : m.stops = none ∧ m.placeFails = none) :
    ∃ manifest, manifest.sha256 = X.sha256 m.content ∧
      (s.pullFromUrl X m id quantization).1 =
        if m.metadataFails = none then
          ((s.placed X m.content).insert m.rowFails id manifest).1
        else s.placed X m.content := by
  have hplace := place_eq hhex (notMem_pullPart huuid m.tmp) (dot_mem_pullPart X m.tmp) hnone
    m.content
  unfold pullFromUrl
  rw [hprepare, hcreate, hplaced.1, hplaced.2]
  dsimp only
  rw [blobAbsolutePath, show (s.put (inBlobs s.dataDir (pullPart X m.tmp))
    (some m.content)).dataDir = s.dataDir from rfl, blobPathChecked_of_hex hhex]
  dsimp only
  rw [hplace]
  cases m.metadataFails with
  | some e => exact ⟨⟨X.sha256 m.content, 0, none, "", none⟩, rfl, rfl⟩
  | none => exact ⟨_, rfl, rfl⟩

/-- **A pull** leaves what corresponds exactly when it is clean. -/
theorem pullFromUrl_corresponds_iff (h : s.Corresponds X) (hhex : Hex X)
    (huuid : ∀ u, '/' ∉ (X.uuidText u).toList) :
    (s.pullFromUrl X m id quantization).1.Corresponds X ↔
      s.Clean X (.pull m id quantization) := by
  have hslash := notMem_pullPart huuid m.tmp
  have hdot := dot_mem_pullPart X m.tmp
  have hnone := h.eq_none hhex hslash hdot
  rw [Clean]
  -- What fails before the temporary file is there leaves the store as it was.
  cases hprepare : m.prepareFails with
  | some e =>
      have hsame : (s.pullFromUrl X m id quantization).1 = s := by
        unfold pullFromUrl
        rw [hprepare]
      rw [hsame]
      exact iff_of_true h fun hprepare' => by cases hprepare'
  | none =>
      cases hcreate : m.createFails with
      | some e =>
          have hsame : (s.pullFromUrl X m id quantization).1 = s := by
            unfold pullFromUrl
            rw [hprepare, hcreate]
          rw [hsame]
          exact iff_of_true h fun _ hcreate' => by cases hcreate'
      | none =>
          -- The whole download is placed, or the partial file stays behind.
          by_cases hplaced : m.stops = none ∧ m.placeFails = none
          · obtain ⟨manifest, hsha, hpull⟩ :=
              pullFromUrl_of_placed id quantization hhex huuid hnone hprepare hcreate hplaced
            rw [hpull]
            have hrest : ((none : Option String) = none → (none : Option String) = none →
                m.stops = none ∧ m.placeFails = none ∧
                  (s.Held X m.content ∨ m.metadataFails = none ∧ s.Accepts id m.rowFails)) ↔
                s.Held X m.content ∨ m.metadataFails = none ∧ s.Accepts id m.rowFails := by
              constructor
              · intro hall
                exact (hall rfl rfl).2.2
              · intro hone _ _
                exact ⟨hplaced.1, hplaced.2, hone⟩
            rw [hrest]
            -- With the metadata read, the insert decides as in an import.
            by_cases hmetadata : m.metadataFails = none
            · rw [if_pos hmetadata, insert_placed_corresponds_iff h hhex hsha id m.rowFails,
                and_iff_right hmetadata]
            · rw [if_neg hmetadata, placed_corresponds_iff h hhex, or_iff_left]
              exact fun hboth => hmetadata hboth.1
          · obtain ⟨bytes, hpull⟩ :=
              pullFromUrl_of_left s id quantization hhex hprepare hcreate hplaced
            rw [hpull]
            refine iff_of_false (not_corresponds_left hhex hslash hdot bytes) fun hall => ?_
            obtain ⟨hstops, hplace, -⟩ := hall rfl rfl
            exact hplaced ⟨hstops, hplace⟩

end Pull

/-! ## Removing -/

section Remove

variable {m : RemoveMoment} {id : ModelId}

theorem digest_deleteRow (s : BlobStore) (id : ModelId) (sha256 : String) :
    Digest (s.deleteRow id).db sha256 ↔
      ∃ other ∈ s.db.rows, other.1 ≠ id ∧ other.2.sha256 = sha256 := by
  have hmem : ∀ row, row ∈ (s.deleteRow id).db.rows ↔ row ∈ s.db.rows ∧ row.1 ≠ id := by
    intro row
    rw [Ne, ← decide_eq_false_iff_not]
    exact Table.mem_deleteWhere
  constructor
  · rintro ⟨row, hrow, hsha⟩
    exact ⟨row, ((hmem row).mp hrow).1, ((hmem row).mp hrow).2, hsha⟩
  · rintro ⟨row, hrow, hid, hsha⟩
    exact ⟨row, (hmem row).mpr ⟨hrow, hid⟩, hsha⟩

/-- Only the digest of the row that goes can be lost. -/
theorem digest_deleteRow_of_ne {row : ModelId × ModelManifest} (hrow : s.db.get id = some row)
    {sha256 : String} (hne : sha256 ≠ row.2.sha256) :
    Digest (s.deleteRow id).db sha256 ↔ Digest s.db sha256 := by
  rw [digest_deleteRow]
  constructor
  · rintro ⟨other, hother, -, hsha⟩
    exact ⟨other, hother, hsha⟩
  · rintro ⟨other, hother, rfl⟩
    refine ⟨other, hother, fun hid => hne ?_, rfl⟩
    obtain ⟨hmem, hkey⟩ := Table.get_eq_some.mp hrow
    rw [s.db.eq_of_key_eq hother hmem (hid.trans hkey.symm)]

theorem deleteRow_of_eq_none (h : s.db.get id = none) (hs : s.Corresponds X) :
    (s.deleteRow id).Corresponds X := by
  refine hs.of_digests fun sha256 => (digest_deleteRow s id sha256).trans ?_
  constructor
  · rintro ⟨other, hother, -, hsha⟩
    exact ⟨other, hother, hsha⟩
  · rintro ⟨other, hother, hsha⟩
    exact ⟨other, hother, Table.get_eq_none.mp h other hother, hsha⟩

theorem removeBlob_of_digest {sha256 : String} (h : Digest s.db sha256) :
    s.removeBlob m sha256 = s := by
  obtain ⟨row, hrow, hsha⟩ := h
  rw [removeBlob, if_neg]
  rw [List.isEmpty_iff, List.filter_eq_nil_iff]
  intro hall
  exact hall row hrow (beq_iff_eq.mpr hsha)

theorem removeBlob_of_not_digest {sha256 : String} (hhex : isSha256Hex sha256 = true)
    (h : ¬ Digest s.db sha256) :
    s.removeBlob m sha256 =
      if m.unlinkFails = none then s.put (blobFile s.dataDir sha256) none else s := by
  have hempty : (s.db.rows.filter fun row => row.2.sha256 == sha256).isEmpty = true := by
    rw [List.isEmpty_iff, List.filter_eq_nil_iff]
    intro row hrow hsha
    exact h ⟨row, hrow, beq_iff_eq.mp hsha⟩
  rw [removeBlob, if_pos hempty, blobAbsolutePath, blobPathChecked, if_pos hhex]
  cases m.unlinkFails <;> rfl

/-- **A removal** leaves what corresponds exactly when it is clean. -/
theorem remove_corresponds_iff (h : s.Corresponds X) (hhex : Hex X) :
    (s.remove m id).1.Corresponds X ↔ s.Clean X (.remove m id) := by
  rw [Clean]
  unfold remove
  -- A row that cannot be read or deleted is still there, and so is its blob.
  cases m.getFails with
  | some e => exact iff_of_true h fun hget => by cases hget
  | none =>
      cases m.deleteFails with
      | some e => exact iff_of_true h fun _ hdelete => by cases hdelete
      | none =>
          dsimp only
          cases hrow : s.db.get id with
          | none =>
              exact iff_of_true (deleteRow_of_eq_none hrow h) fun _ _ row hrow' => by cases hrow'
          | some row =>
              have hsha := h.hex hhex (Table.get_eq_some.mp hrow).1
              have hfile := ((h.names _).mpr ⟨row, (Table.get_eq_some.mp hrow).1, rfl⟩).2
              -- The condition, at the one row that was found.
              have hclean : ((none : Option String) = none → (none : Option String) = none →
                  ∀ row', some row = some row' →
                    (∃ other ∈ s.db.rows, other.1 ≠ id ∧ other.2.sha256 = row'.2.sha256) ∨
                      m.listFails = none ∧ m.unlinkFails = none) ↔
                  Digest (s.deleteRow id).db row.2.sha256 ∨
                    m.listFails = none ∧ m.unlinkFails = none := by
                rw [digest_deleteRow]
                constructor
                · intro hall
                  exact hall rfl rfl row rfl
                · intro hone _ _ row' hrow'
                  rw [← Option.some.inj hrow']
                  exact hone
              rw [hclean]
              by_cases hother : Digest (s.deleteRow id).db row.2.sha256
              · -- Another row has the digest: the file stays either way.
                have hkept : (s.deleteRow id).Corresponds X := by
                  refine h.of_digests fun sha256 => ?_
                  by_cases hsame : sha256 = row.2.sha256
                  · rw [hsame]
                    exact iff_of_true hother ⟨row, (Table.get_eq_some.mp hrow).1, rfl⟩
                  · exact digest_deleteRow_of_ne hrow hsame
                refine iff_of_true ?_ (.inl hother)
                cases m.listFails with
                | some e => exact hkept
                | none =>
                    dsimp only
                    rw [removeBlob_of_digest hother]
                    exact hkept
              -- The blob belongs to no row any more, so it has to go.
              · have horphan : ¬ (s.deleteRow id).Corresponds X :=
                  not_corresponds_orphan hsha hfile hother
                rw [or_iff_right hother]
                cases m.listFails with
                | some e => exact iff_of_false horphan fun hboth => by cases hboth.1
                | none =>
                    dsimp only
                    rw [removeBlob_of_not_digest hsha hother, and_iff_right rfl]
                    by_cases hunlink : m.unlinkFails = none
                    · rw [if_pos hunlink]
                      refine iff_of_true ?_ hunlink
                      refine h.put hsha ?_ (iff_of_false hother Bool.false_ne_true) ?_
                      · intro content hcontent
                        cases hcontent
                      · intro sha' hne
                        exact digest_deleteRow_of_ne hrow hne
                    · rw [if_neg hunlink]
                      exact iff_of_false horphan hunlink

end Remove

/-! ## Runs -/

theorem next_corresponds_iff (h : s.Corresponds X) (hhex : Hex X)
    (huuid : ∀ u, '/' ∉ (X.uuidText u).toList) (c : Call) :
    (s.next X c).Corresponds X ↔ s.Clean X c := by
  cases c with
  | importFile m id quantization =>
      exact importFromFile_corresponds_iff h hhex huuid id quantization
  | pull m id quantization => exact pullFromUrl_corresponds_iff h hhex huuid
  | remove m id => exact remove_corresponds_iff h hhex

/-- **Rows and files.**  From a store whose files are those of its rows, they are after every
    call of a run exactly when every call is clean in the state it comes in. -/
theorem along_corresponds_iff (hhex : Hex X) (huuid : ∀ u, '/' ∉ (X.uuidText u).toList)
    (h : s.Corresponds X) (calls : List Call) :
    Run.Along (step X) (fun s c => ∀ s', step X s c = some s' → s'.Corresponds X) s calls ↔
      Run.Along (step X) (fun s c => s.Clean X c) s calls := by
  refine Run.along_iff_of_exact (fun s c hs => ?_) h calls
  rw [← next_corresponds_iff hs hhex huuid c]
  constructor
  · intro hkept
    exact hkept _ rfl
  · intro hnext s' hs'
    rw [← Option.some.inj hs']
    exact hnext

/-- Where rows and files correspond, the file of every model verifies. -/
theorem Corresponds.blobPathVerified (h : s.Corresponds X) (hhex : Hex X) {id : ModelId}
    {row : ModelId × ModelManifest} (hrow : s.db.get id = some row) :
    s.modelStore.blobPathVerified X none id = .ok (blobFile s.dataDir row.2.sha256) := by
  have hmem := (Table.get_eq_some.mp hrow).1
  obtain ⟨hslash, hfile⟩ := (h.names _).mpr ⟨row, hmem, rfl⟩
  obtain ⟨content, hcontent⟩ := Option.isSome_iff_exists.mp hfile
  rw [blobPathVerified_eq_ok]
  refine ⟨rfl, row.2, ?_, h.hex hhex hmem, ⟨content, hcontent, ?_⟩, rfl⟩
  · change (s.db.get id).map Prod.snd = some row.2
    rw [hrow]
    rfl
  · exact h.contents _ content (slash_notMem_of_blobName hslash) hcontent

/-! ## A store -/

theorem slash_notMem_sample (u : Uuid) : '/' ∉ (External.sample.uuidText u).toList := by
  change '/' ∉ (String.ofList ('+' :: List.replicate u.toNat '1')).toList
  rw [String.toList_ofList, List.mem_cons, List.mem_replicate]
  rintro (hplus | ⟨-, hone⟩)
  · exact absurd hplus (by decide)
  · exact absurd hone (by decide)

/-- Without models. -/
def fresh (dataDir : Path) : BlobStore := ⟨dataDir, Table.empty, fun _ => none⟩

theorem corresponds_fresh (X : External) (dataDir : Path) : (fresh dataDir).Corresponds X := by
  constructor
  · intro name
    refine iff_of_false ?_ ?_
    · rintro ⟨-, hfile⟩
      exact Bool.false_ne_true hfile
    · rintro ⟨row, hrow, -⟩
      exact List.not_mem_nil hrow
  · intro sha256 content _ hcontent
    cases hcontent

def tinyId : ModelId := ⟨"tiny", "1"⟩

/-- An import of the content that meets no failure. -/
def importOf (content : Bytes) : ImportMoment :=
  ⟨.ok content, none, 0, none, none, none, false, none⟩

def tinyCalls : List Call :=
  [.importFile (importOf abcBytes) tinyId none, .remove ⟨none, none, none, none⟩ tinyId]

theorem along_corresponds_tiny :
    Run.Along (step External.sample)
      (fun s c => ∀ s', step External.sample s c = some s' → s'.Corresponds External.sample)
      (fresh "/data".toList) tinyCalls :=
  (along_corresponds_iff isSha256Hex_sample slash_notMem_sample
    (corresponds_fresh External.sample "/data".toList) tinyCalls).mpr
    ⟨fun _ _ _ _ => .inr ⟨rfl, rfl⟩, fun _ _ => ⟨fun _ _ _ _ => .inr ⟨rfl, rfl⟩,
      fun _ _ => trivial⟩⟩

/-- The model is there. -/
def tinyStore : BlobStore :=
  (fresh "/data".toList).next External.sample (.importFile (importOf abcBytes) tinyId none)

theorem corresponds_tinyStore : tinyStore.Corresponds External.sample := by
  refine (next_corresponds_iff (corresponds_fresh _ _) isSha256Hex_sample slash_notMem_sample
    _).mpr ?_
  exact fun _ _ _ _ => .inr ⟨rfl, rfl⟩

theorem digests_tinyStore : tinyStore.db.rows.map (fun row => (row.1, row.2.sha256)) =
    [(tinyId, abcSha256)] := by
  decide +kernel

/-- A second import under the name leaves a file without a row. -/
theorem not_along_corresponds_again :
    ¬ ∀ (s : BlobStore) (calls : List Call), s.Corresponds External.sample →
      Run.Along (step External.sample)
        (fun s c => ∀ s', step External.sample s c = some s' → s'.Corresponds External.sample)
        s calls := by
  intro h
  have hkept := (h tinyStore [.importFile (importOf []) tinyId none] corresponds_tinyStore).1 _ rfl
  have hclean := (next_corresponds_iff corresponds_tinyStore isSha256Hex_sample
    slash_notMem_sample _).mp hkept
  have hrow : ∀ row ∈ tinyStore.db.rows, row.1 = tinyId ∧ row.2.sha256 = abcSha256 := by
    intro row hrow
    have hpair := List.mem_map_of_mem (f := fun row => (row.1, row.2.sha256)) hrow
    rw [digests_tinyStore, List.mem_singleton] at hpair
    exact Prod.mk.inj hpair
  rcases hclean [] rfl rfl rfl with hheld | hfree
  · obtain ⟨row, hmem, hsha⟩ := hheld
    rw [(hrow row hmem).2] at hsha
    exact absurd hsha (by decide +kernel)
  · have hlen : tinyStore.db.rows ≠ [] := by
      intro hempty
      have hdigests := digests_tinyStore
      rw [hempty] at hdigests
      cases hdigests
    obtain ⟨row, hmem⟩ := List.exists_mem_of_ne_nil _ hlen
    exact Table.get_eq_none.mp hfree.1 row hmem (hrow row hmem).1

end BlobStore

end Maranode.Store
