/-
  Maranode.Common.Classification

  `classification.rs`: labels of collections, clearances of workspaces, and the file the
  policy is kept in.

  A `HashMap` has no order that means anything.  Here it is a list without repeated keys,
  and two policies are the same when they answer every lookup alike (`Same`).
-/
import Maranode.Common.Receipt
import Maranode.Lib.Json.Pretty
import Mathlib.Data.List.AList

namespace Maranode.Common

open Lib Lib.Json

/-! ## Labels -/

inductive DataLabel where
  | isPublic
  | restricted
  | confidential
  | pii
  | phi
  deriving DecidableEq

def DataLabel.asStr : DataLabel → String
  | .isPublic => "PUBLIC"
  | .restricted => "RESTRICTED"
  | .confidential => "CONFIDENTIAL"
  | .pii => "PII"
  | .phi => "PHI"

/-- The derived `Debug`. -/
def DataLabel.debug : DataLabel → String
  | .isPublic => "Public"
  | .restricted => "Restricted"
  | .confidential => "Confidential"
  | .pii => "Pii"
  | .phi => "Phi"

def DataLabel.level : DataLabel → Nat
  | .isPublic => 0
  | .restricted => 1
  | .confidential => 2
  | .pii => 3
  | .phi => 4

/-- The derived `PartialOrd`. -/
instance : LT DataLabel := ⟨fun a b => a.level < b.level⟩

instance (a b : DataLabel) : Decidable (a < b) := Nat.decLt a.level b.level

/-- `rename_all = "SCREAMING_SNAKE_CASE"`. -/
def DataLabel.ofName : String → Option DataLabel
  | "PUBLIC" => some .isPublic
  | "RESTRICTED" => some .restricted
  | "CONFIDENTIAL" => some .confidential
  | "PII" => some .pii
  | "PHI" => some .phi
  | _ => none

theorem DataLabel.ofName_asStr (l : DataLabel) : ofName l.asStr = some l := by
  cases l <;> rfl

/-! ## Policies -/

structure CollectionPolicy where
  label : DataLabel
  blockOnViolation : Bool
  deriving DecidableEq

structure WorkspacePolicy where
  maxClearance : DataLabel
  deriving DecidableEq

/-- `HashMap<String, T>`. -/
abbrev StrMap (α : Type) := AList fun _ : String => α

structure ClassificationPolicy where
  collections : StrMap CollectionPolicy
  workspaces : StrMap WorkspacePolicy

/-- `Default`. -/
def ClassificationPolicy.empty : ClassificationPolicy := ⟨∅, ∅⟩

structure ViolationInfo where
  collection : String
  requiredLabel : DataLabel
  workspaceClearance : DataLabel
  block : Bool

namespace ClassificationPolicy

def workspaceClearance (p : ClassificationPolicy) (workspaceSlug : String) : DataLabel :=
  ((p.workspaces.lookup workspaceSlug).map (·.maxClearance)).getD .isPublic

def checkAccess (p : ClassificationPolicy) (workspaceSlug collection : String) :
    Option ViolationInfo :=
  let clearance := p.workspaceClearance workspaceSlug
  match p.collections.lookup collection with
  | some colPolicy =>
      if clearance < colPolicy.label then
        some
          { collection
            requiredLabel := colPolicy.label
            workspaceClearance := clearance
            block := colPolicy.blockOnViolation }
      else none
  | none => none

def setCollectionLabel (p : ClassificationPolicy) (collection : String) (label : DataLabel)
    (blockOnViolation : Bool) : ClassificationPolicy :=
  { p with collections := p.collections.insert collection { label, blockOnViolation } }

def checkAllCollections (p : ClassificationPolicy) (workspaceSlug : String) :
    List ViolationInfo :=
  let clearance := p.workspaceClearance workspaceSlug
  (p.collections.entries.filter fun e => clearance < e.2.label).map fun e =>
    { collection := e.1
      requiredLabel := e.2.label
      workspaceClearance := clearance
      block := e.2.blockOnViolation }

/-- The same answer to every lookup. -/
structure Same (p q : ClassificationPolicy) : Prop where
  collections : ∀ c, p.collections.lookup c = q.collections.lookup c
  workspaces : ∀ w, p.workspaces.lookup w = q.workspaces.lookup w

theorem Same.refl (p : ClassificationPolicy) : p.Same p := ⟨fun _ => rfl, fun _ => rfl⟩

theorem Same.symm {p q : ClassificationPolicy} (h : p.Same q) : q.Same p :=
  ⟨fun c => (h.collections c).symm, fun w => (h.workspaces w).symm⟩

theorem Same.trans {p q r : ClassificationPolicy} (h : p.Same q) (h' : q.Same r) : p.Same r :=
  ⟨fun c => (h.collections c).trans (h'.collections c),
    fun w => (h.workspaces w).trans (h'.workspaces w)⟩

theorem Same.of_eq {p q : ClassificationPolicy} (h : p = q) : p.Same q := h ▸ .refl p

end ClassificationPolicy

/-! ## The file -/

section Codecs

variable (X : External)

/-- The members of an object as a map, a later one replacing an earlier of its name. -/
def StrMap.ofMembers {α : Type} (dec : Value → Option α) : List (String × Value) →
    Option (StrMap α)
  | [] => some ∅
  | (k, v) :: fs =>
      (dec v).bind fun a => (ofMembers dec fs).map fun m => if k ∈ m then m else m.insert k a

theorem StrMap.ofMembers_entries {α : Type} (c : Codec X.readF32 α) (S : Serializer X.readF32)
    (m : StrMap α) :
    ofMembers c.dec (m.entries.map fun e => (e.1, c.enc S e.2)) = some m := by
  obtain ⟨entries, hnodup⟩ := m
  induction entries with
  | nil => rfl
  | cons e entries ih =>
      obtain ⟨k, a⟩ := e
      have hkeys := List.nodupKeys_cons.mp hnodup
      rw [List.map_cons, ofMembers, c.dec_enc, Option.bind_some, ih hkeys.2, Option.map_some]
      have hk : k ∉ (⟨entries, hkeys.2⟩ : StrMap α) := hkeys.1
      rw [if_neg hk, AList.insert_of_notMem hk]

/-- A map as an object. -/
def StrMap.codec {α : Type} (c : Codec X.readF32 α) : Codec X.readF32 (StrMap α) where
  enc S m := .obj (m.entries.map fun e => (e.1, c.enc S e.2))
  dec
    | .obj fs => ofMembers c.dec fs
    | _ => none
  dec_enc S m := ofMembers_entries X c S m
  ne_null _ _ h := by cases h

def DataLabel.codec : Codec X.readF32 DataLabel :=
  unitEnum X DataLabel.asStr DataLabel.ofName DataLabel.ofName_asStr

def CollectionPolicy.codec : Codec X.readF32 CollectionPolicy where
  enc S p := .obj (S.members [
    ("label", (DataLabel.codec X).enc S p.label),
    ("block_on_violation", X.bool.enc S p.blockOnViolation)])
  dec v := (structMembers ["label", "block_on_violation"] 1 v).bind fun fs =>
    CollectionPolicy.mk <$> (DataLabel.codec X).field "label" fs
      <*> X.bool.fieldOr true "block_on_violation" fs
  dec_enc S p := by
    simp [structMembers, Codec.field, Codec.fieldOr, S.occ_members]
  ne_null _ _ h := by cases h

def WorkspacePolicy.codec : Codec X.readF32 WorkspacePolicy where
  enc S p := .obj (S.members [("max_clearance", (DataLabel.codec X).enc S p.maxClearance)])
  dec v := (structMembers ["max_clearance"] 1 v).bind fun fs =>
    WorkspacePolicy.mk <$> (DataLabel.codec X).field "max_clearance" fs
  dec_enc S p := by
    simp [structMembers, Codec.field, S.occ_members]
  ne_null _ _ h := by cases h

def ClassificationPolicy.codec : Codec X.readF32 ClassificationPolicy where
  enc S p := .obj (S.members [
    ("collections", (StrMap.codec X (CollectionPolicy.codec X)).enc S p.collections),
    ("workspaces", (StrMap.codec X (WorkspacePolicy.codec X)).enc S p.workspaces)])
  dec v := (structMembers ["collections", "workspaces"] 0 v).bind fun fs =>
    ClassificationPolicy.mk
      <$> (StrMap.codec X (CollectionPolicy.codec X)).fieldOr ∅ "collections" fs
      <*> (StrMap.codec X (WorkspacePolicy.codec X)).fieldOr ∅ "workspaces" fs
  dec_enc S p := by
    simp [structMembers, Codec.fieldOr, S.occ_members]
  ne_null _ _ h := by cases h

end Codecs

end Maranode.Common
