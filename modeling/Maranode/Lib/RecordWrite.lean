/-
  Maranode.Lib.RecordWrite

  How a write of a record's file ends, for a program that reads the file afterwards.

  `fs::write` empties the file first.  One that fails before leaves the file alone, and
  one that fails later leaves the front of the new record, which is not read
  (`load_write`).
-/
import Maranode.Lib.FileWrite
import Maranode.Lib.RecordFile

namespace Lib

/-- Done, refused with the file as it was, or cut off, which leaves nothing that is
    read. -/
inductive RecordWrite where
  | written
  | refused (error : String)
  | cutOff (error : String)

namespace RecordWrite

variable {α : Type}

/-- What is read afterwards, where `old` was read before. -/
def result (w : RecordWrite) (old : Option α) (new : α) : Option α :=
  match w with
  | .written => some new
  | .refused _ => old
  | .cutOff _ => none

/-- The file afterwards: whether it is there, and what is read of it. -/
def file (w : RecordWrite) (old : Option (Option α)) (new : α) : Option (Option α) :=
  match w with
  | .written => some (some new)
  | .refused _ => old
  | .cutOff _ => some none

def error : RecordWrite → Option String
  | .written => none
  | .refused e => some e
  | .cutOff e => some e

/-- What is read is what was read before. -/
def NoChange (w : RecordWrite) (old : Option α) (new : α) : Prop :=
  match w with
  | .written => old = some new
  | .refused _ => True
  | .cutOff _ => old = none

theorem result_eq_iff {w : RecordWrite} {old : Option α} {new : α} :
    w.result old new = old ↔ w.NoChange old new := by
  cases w with
  | written => exact eq_comm
  | refused => exact iff_of_true rfl trivial
  | cutOff => exact eq_comm

theorem map_result {β : Type} (w : RecordWrite) (old : Option α) (new : α) (f : α → β) :
    (w.result old new).map f = w.result (old.map f) (f new) := by
  cases w <;> rfl

/-- The end that a fault makes of a write of these bytes. -/
def ofFault (fault : FileWrite.Fault) (bytes : Bytes) : RecordWrite :=
  match fault with
  | .none => .written
  | .opening e => .refused e
  | .after n e => if n < bytes.length then .cutOff e else .written

/-- **Faults.**  A write with a fault ends in one of the three ways. -/
theorem load_write (F : RecordFile α) (fault : FileWrite.Fault) (old : Option Bytes) (a : α) :
    F.load (FileWrite.write fault old (F.write a)).1 =
      (ofFault fault (F.write a)).result (F.load old) a := by
  rcases fault.passes_or (F.write a) with hpass | ⟨e, rfl⟩ | ⟨n, e, rfl, hlt⟩
  · have hwritten : ofFault fault (F.write a) = .written := by
      cases fault with
      | none => rfl
      | opening e => exact hpass.elim
      | after n e => exact if_neg (Nat.not_lt.mpr hpass)
    rw [hwritten, FileWrite.write_of_passes hpass]
    exact F.read_write a
  · rfl
  · have hcut : ofFault (.after n e) (F.write a) = .cutOff e := if_pos hlt
    rw [hcut, FileWrite.write_of_torn e hlt]
    exact F.read_take a n hlt

end RecordWrite

end Lib
