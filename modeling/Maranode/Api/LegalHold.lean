/-
  Maranode.Api.LegalHold

  `hold.rs` and the readers of `legal_hold.rs`: which audit entries a legal hold
  covers.

  The directory of hold files is the list of the records that parse, in the order
  the directory is read.
-/
import Maranode.Common.External

namespace Maranode.Api

/-- `hold::HoldRecord`. -/
structure HoldRecord where
  id : String
  placedAt : DateTime
  placedBy : String
  reason : String
  seqFrom : Nat
  seqTo : Nat
  expiresAt : Option DateTime
  holdKeyPubkey : String
  placementSig : String
  releasedAt : Option DateTime
  releasedBy : Option String
  releaseSig : Option String
  tpmSealed : Bool

/-- `HoldRecord::is_active`, asked at `now`. -/
def HoldRecord.isActive (h : HoldRecord) (now : DateTime) : Bool :=
  if h.releasedAt.isSome then false
  else
    match h.expiresAt with
    | some exp => decide (now < exp)
    | none => true

/-- `HoldRecord::covers_seq`. -/
def HoldRecord.coversSeq (h : HoldRecord) (now : DateTime) (seq : Nat) : Bool :=
  h.isActive now && decide (h.seqFrom ≤ seq) && decide (seq ≤ h.seqTo)

/-- `list_holds`. -/
def listHolds (files : List HoldRecord) : List HoldRecord :=
  files.mergeSort fun h k => decide (h.placedAt ≤ k.placedAt)

/-- `is_seq_held`. -/
def isSeqHeld (files : List HoldRecord) (now : DateTime) (seq : Nat) : Bool :=
  (listHolds files).any (·.coversSeq now seq)

/-- The test of `guard_retention_delete`'s loop. -/
def HoldRecord.overlaps (h : HoldRecord) (now : DateTime) (seqFrom seqTo : Nat) : Bool :=
  h.isActive now && decide (seqFrom ≤ h.seqTo) && decide (h.seqFrom ≤ seqTo)

/-- `guard_retention_delete`. -/
def guardRetentionDelete (files : List HoldRecord) (now : DateTime) (seqFrom seqTo : Nat) :
    Except String Unit :=
  match (listHolds files).find? (·.overlaps now seqFrom seqTo) with
  | some h =>
      .error (s!"cannot delete audit entries {seqFrom}-{seqTo}: " ++
        s!"legal hold '{h.id}' covers seq {h.seqFrom}-{h.seqTo} (reason: {h.reason})")
  | none => .ok ()

theorem mem_listHolds {files : List HoldRecord} {h : HoldRecord} :
    h ∈ listHolds files ↔ h ∈ files := List.mem_mergeSort

theorem isSeqHeld_iff {files : List HoldRecord} {now : DateTime} {seq : Nat} :
    isSeqHeld files now seq = true ↔ ∃ h ∈ files, h.coversSeq now seq = true := by
  simp only [isSeqHeld, List.any_eq_true, mem_listHolds]

/-- The guard for one entry passes exactly when the entry is not held. -/
theorem guardRetentionDelete_eq_ok_iff {files : List HoldRecord} {now : DateTime} {seq : Nat} :
    guardRetentionDelete files now seq seq = .ok () ↔ isSeqHeld files now seq = false := by
  have hsame : ∀ h : HoldRecord, h.overlaps now seq seq = h.coversSeq now seq := by
    intro h
    rw [HoldRecord.overlaps, HoldRecord.coversSeq, Bool.and_right_comm]
  rw [guardRetentionDelete, isSeqHeld]
  simp only [hsame]
  split
  · next h hfind =>
      have hcovers := List.find?_some (p := fun h : HoldRecord => h.coversSeq now seq) hfind
      have hany : (listHolds files).any (·.coversSeq now seq) = true :=
        List.any_eq_true.mpr ⟨h, List.mem_of_find?_eq_some hfind, hcovers⟩
      simp [hany]
  · next hfind => simpa using hfind

end Maranode.Api
