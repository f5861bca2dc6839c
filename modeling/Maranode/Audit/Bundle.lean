/-
  Maranode.Audit.Bundle

  `bundle.rs`: the evidence bundle, a zip of the log, what `verify_log` made of it, and a
  manifest with their digests.

  The log is read for the zip, and once more by `verify_log`.  Whether a bundle is what it
  says it is (`Evident`) is a matter of its members alone.
-/
import Maranode.Audit.Export
import Maranode.Common.Ed25519
import Maranode.Lib.Json.Pretty

namespace Maranode.Audit

open Lib Lib.Json Common

/-- zip: an archive of members, each with its name, and the members of an archive.
    Writing fails for what does not fit the format. -/
structure ZipArchive where
  write : List (String × Bytes) → Option Bytes
  read : Bytes → Option (List (String × Bytes))
  read_write : ∀ ms bytes, write ms = some bytes → read bytes = some ms

variable (X : External)

/-! ## create_bundle_with_attestation -/

def violationJson (v : ViolationDetail) : Value :=
  .obj (X.value.members [("seq", .num (NumLit.ofNat v.seq)), ("detail", .str v.detail)])

/-- `integrity.json`. -/
def integrityJson (result : VerifyResult) (verifiedAt : DateTime) : Value :=
  .obj (X.value.members
    [("verified_at", .str (X.toRfc3339 verifiedAt)),
      ("entries_checked", .num (NumLit.ofNat result.entriesChecked)),
      ("ok", .bool result.ok),
      ("first_violation", (result.firstViolation.map (violationJson X)).getD .null)])

def fileJson (file : String × Bytes) : Value :=
  .obj (X.value.members [("name", .str file.1), ("sha256", .str (X.sha256 file.2))])

/-- `manifest.json`. -/
def manifestJson (workspace : Option String) (files : List (String × Bytes))
    (createdAt : DateTime) : Value :=
  .obj (X.value.members
    ([("created_at", .str (X.toRfc3339 createdAt)), ("files", .arr (files.map (fileJson X)))] ++
      (workspace.map fun slug => ("workspace", Value.str slug)).toList))

/-- The members that are listed in the manifest. -/
def evidenceFiles (attestation : Option Bytes) (log : Bytes) (result : VerifyResult)
    (verifiedAt : DateTime) : List (String × Bytes) :=
  [("audit.jsonl", log), ("integrity.json", toVecPretty (integrityJson X result verifiedAt))] ++
    (attestation.map fun ar => ("attestation.json", ar)).toList

/-- The members of the bundle. -/
def bundleMembers (E : Ed25519) (workspace : Option String) (signingKey : Option (ByteArr 32))
    (attestation : Option Bytes) (log : Bytes) (result : VerifyResult)
    (verifiedAt createdAt : DateTime) : List (String × Bytes) :=
  let files := evidenceFiles X attestation log result verifiedAt
  let manifest := toVecPretty (manifestJson X workspace files createdAt)
  files ++ ("manifest.json", manifest) ::
    match signingKey with
    | some sk =>
        [("manifest.sig", Text.encode (Hex.encode (E.sign sk manifest).1)),
          ("signing_key.pub", Text.encode (Hex.encode (E.verifyingKey sk).1))]
    | none => []

/-! ## What a bundle says -/

/-- The manifest, and what it is signed with. -/
def sealNames : List String := ["manifest.json", "manifest.sig", "signing_key.pub"]

/-- The members that are evidence. -/
def evidence (members : List (String × Bytes)) : List (String × Bytes) :=
  members.filter fun m => m.1 ∉ sealNames

def readFile (v : Value) : Option (String × String) :=
  (asStr (index v "name")).bind fun name =>
    (asStr (index v "sha256")).map fun sha256 => (name, sha256)

/-- The names and digests in a manifest. -/
def listedFiles (manifest : Bytes) : Option (List (String × String)) :=
  (ofSlice manifest).bind fun v =>
    match index v "files" with
    | .arr vs => vs.mapM readFile
    | _ => none

/-- The manifest lists the digests of exactly the members that are evidence; the result is
    that of `verify_log` on the log in the bundle, which has all the lines. -/
structure Evident (key : Bytes) (lines : List Text) (members : List (String × Bytes)) :
    Prop where
  listed : (members.lookup "manifest.json").bind listedFiles
    = some ((evidence members).map fun m => (m.1, X.sha256 m.2))
  verified : ∃ log content verifiedAt, members.lookup "audit.jsonl" = some log ∧
    Text.decode log = some content ∧
    members.lookup "integrity.json"
      = some (toVecPretty (integrityJson X (verifyContent X content key) verifiedAt))
  complete : ∃ log content, members.lookup "audit.jsonl" = some log ∧
    Text.decode log = some content ∧ ∀ l ∈ lines, l ∈ contentLines content

/-! ## What create_bundle says -/

variable {X}

/-- Reading what was written, one after the other. -/
theorem mapM_map_of_forall {α β γ : Type} {f : β → Option γ} {g : α → β} {k : α → γ}
    (h : ∀ a, f (g a) = some (k a)) (l : List α) : (l.map g).mapM f = some (l.map k) := by
  induction l with
  | nil => rfl
  | cons a l ih =>
      rw [List.map_cons, List.mapM_cons, h, ih]
      rfl

variable {E : Ed25519} {workspace : Option String} {signingKey : Option (ByteArr 32)}
  {attestation : Option Bytes} {log : Bytes} {result : VerifyResult}
  {verifiedAt createdAt : DateTime}

theorem evidence_bundleMembers :
    evidence (bundleMembers X E workspace signingKey attestation log result verifiedAt createdAt)
      = evidenceFiles X attestation log result verifiedAt := by
  cases attestation <;> cases signingKey <;> rfl

theorem lookup_log :
    (bundleMembers X E workspace signingKey attestation log result verifiedAt
      createdAt).lookup "audit.jsonl" = some log := rfl

theorem lookup_integrity :
    (bundleMembers X E workspace signingKey attestation log result verifiedAt
      createdAt).lookup "integrity.json"
      = some (toVecPretty (integrityJson X result verifiedAt)) := rfl

theorem lookup_manifest :
    (bundleMembers X E workspace signingKey attestation log result verifiedAt
      createdAt).lookup "manifest.json"
      = some (toVecPretty (manifestJson X workspace
        (evidenceFiles X attestation log result verifiedAt) createdAt)) := by
  cases attestation <;> rfl

theorem index_members {fs : List (String × Value)} (hnames : (fs.map Prod.fst).Nodup)
    (name : String) :
    index (.obj (X.value.members fs)) name = (occ name fs).head?.getD .null := by
  rw [index, X.value.occ_members _ _ hnames]

theorem index_integrityJson (result : VerifyResult) (verifiedAt : DateTime) :
    index (integrityJson X result verifiedAt) "entries_checked"
        = .num (NumLit.ofNat result.entriesChecked) ∧
      index (integrityJson X result verifiedAt) "ok" = .bool result.ok := by
  have hnames : (["verified_at", "entries_checked", "ok", "first_violation"] :
      List String).Nodup := by decide
  constructor
  · rw [integrityJson, index_members]
    · rfl
    · exact hnames
  · rw [integrityJson, index_members]
    · rfl
    · exact hnames

/-- The result can be read off the file. -/
theorem result_of_integrityJson {result' : VerifyResult} {verifiedAt' : DateTime}
    (h : toVecPretty (integrityJson X result verifiedAt)
      = toVecPretty (integrityJson X result' verifiedAt')) :
    result.entriesChecked = result'.entriesChecked ∧ result.ok = result'.ok := by
  have hvalue := congrArg ofSlice h
  rw [ofSlice_toVecPretty, ofSlice_toVecPretty, Option.some.injEq] at hvalue
  obtain ⟨hchecked, hok⟩ := index_integrityJson (X := X) result verifiedAt
  obtain ⟨hchecked', hok'⟩ := index_integrityJson (X := X) result' verifiedAt'
  rw [hvalue, hchecked', Value.num.injEq] at hchecked
  rw [hvalue, hok', Value.bool.injEq] at hok
  refine ⟨?_, hok.symm⟩
  have hread := congrArg NumLit.toNat? hchecked
  rw [NumLit.toNat?_ofNat, NumLit.toNat?_ofNat] at hread
  exact (Option.some.inj hread).symm

theorem readFile_fileJson (file : String × Bytes) :
    readFile (fileJson X file) = some (file.1, X.sha256 file.2) := by
  have hnames : (([("name", Value.str file.1), ("sha256", .str (X.sha256 file.2))] :
      List (String × Value)).map Prod.fst).Nodup := by
    show ["name", "sha256"].Nodup
    decide
  rw [readFile, fileJson, index_members hnames, index_members hnames]
  rfl

theorem listedFiles_manifestJson (files : List (String × Bytes)) :
    listedFiles (toVecPretty (manifestJson X workspace files createdAt))
      = some (files.map fun m => (m.1, X.sha256 m.2)) := by
  have hfiles : index (manifestJson X workspace files createdAt) "files"
      = .arr (files.map (fileJson X)) := by
    rw [manifestJson, index_members]
    · rfl
    · cases workspace with
      | none => show ["created_at", "files"].Nodup; decide
      | some slug => show ["created_at", "files", "workspace"].Nodup; decide
  rw [listedFiles, ofSlice_toVecPretty, Option.bind_some, hfiles]
  exact mapM_map_of_forall readFile_fileJson files

/-- **One bundle.**  What `create_bundle` writes is evident when the log it has read is the
    one that was verified, and has the lines. -/
theorem evident_bundleMembers {key : Bytes} {lines : List Text} {content : Text}
    (hcontent : Text.decode log = some content)
    (hresult : result = verifyContent X content key)
    (hlines : ∀ l ∈ lines, l ∈ contentLines content) :
    Evident X key lines (bundleMembers X E workspace signingKey attestation log result verifiedAt
      createdAt) where
  listed := by
    rw [lookup_manifest, Option.bind_some, listedFiles_manifestJson, evidence_bundleMembers]
  verified := ⟨log, content, verifiedAt, lookup_log, hcontent, by rw [lookup_integrity, hresult]⟩
  complete := ⟨log, content, lookup_log, hcontent, hlines⟩

/-! ## An instance -/

def memberValue (m : String × Bytes) : Value :=
  .arr [.str m.1, .str (String.ofList (Hex.encode m.2))]

def memberOfValue : Value → Option (String × Bytes)
  | .arr [.str name, .str hex] => (Hex.decode hex.toList).map fun bytes => (name, bytes)
  | _ => none

theorem memberOfValue_memberValue (m : String × Bytes) :
    memberOfValue (memberValue m) = some m := by
  rw [memberValue, memberOfValue, String.toList_ofList, Hex.decode_encode]
  rfl

/-- Archives as texts. -/
def ZipArchive.sample : ZipArchive where
  write ms := some (toVec (.arr (ms.map memberValue)))
  read bytes :=
    (ofSlice bytes).bind fun v =>
      match v with
      | .arr vs => vs.mapM memberOfValue
      | _ => none
  read_write := by
    intro ms bytes h
    rw [← Option.some.inj h, ofSlice_toVec, Option.bind_some]
    exact (mapM_map_of_forall memberOfValue_memberValue ms).trans (congrArg some (List.map_id ms))

end Maranode.Audit
