/-
  Maranode.Lib.RecordFile

  One record in one file, overwritten in place.

  The writer opens the file, which empties it, and writes; a crash leaves the file as it
  was or with the first bytes of the new record.  `load_overwrite_iff` says which of
  these the reader takes for the old record or the new one.
-/
import Maranode.Lib.Json.Pretty
import Maranode.Lib.Json.Codec

namespace Lib

open Json

/-- How a record is written and read.  A record that is cut off is not read. -/
structure RecordFile (α : Type) where
  write : α → Bytes
  read : Bytes → Option α
  read_write : ∀ a, read (write a) = some a
  read_take : ∀ a n, n < (write a).length → read ((write a).take n) = none

/-- Where the writer stops: before it opens the file, or with that many bytes written. -/
inductive CrashPoint where
  | notOpened
  | after (written : Nat)
  deriving DecidableEq

/-- The file the writer leaves. -/
def CrashPoint.overwrite (c : CrashPoint) (old : Option Bytes) (new : Bytes) : Option Bytes :=
  match c with
  | .notOpened => old
  | .after written => some (new.take written)

/-- The file is as it was, or the write is complete. -/
def CrashPoint.Clean (c : CrashPoint) (new : Bytes) : Prop :=
  match c with
  | .notOpened => True
  | .after written => new.length ≤ written

instance (c : CrashPoint) (new : Bytes) : Decidable (c.Clean new) := by
  cases c <;> unfold CrashPoint.Clean <;> infer_instance

namespace RecordFile

variable {α : Type} (F : RecordFile α)

/-- What the reader makes of a file that may be missing. -/
def load (file : Option Bytes) : Option α := file.bind F.read

theorem load_overwrite_of_clean {c : CrashPoint} {a : α} (h : c.Clean (F.write a))
    (old : Option Bytes) :
    F.load (c.overwrite old (F.write a)) = F.load old ∨
      F.load (c.overwrite old (F.write a)) = some a := by
  cases c with
  | notOpened => exact .inl rfl
  | after written =>
      right
      show F.read ((F.write a).take written) = some a
      rw [List.take_of_length_le h, F.read_write]

theorem load_overwrite_of_not_clean {c : CrashPoint} {a : α} (h : ¬ c.Clean (F.write a))
    (old : Option Bytes) : F.load (c.overwrite old (F.write a)) = none := by
  cases c with
  | notOpened => exact absurd trivial h
  | after written =>
      show F.read ((F.write a).take written) = none
      exact F.read_take a written (Nat.lt_of_not_le h)

/-- **Old or new.**  After a crash the reader has the old record or the new one exactly
    when the write was not cut off, or there was no record before. -/
theorem load_overwrite_iff (c : CrashPoint) (old : Option Bytes) (a : α) :
    (F.load (c.overwrite old (F.write a)) = F.load old ∨
        F.load (c.overwrite old (F.write a)) = some a) ↔
      c.Clean (F.write a) ∨ F.load old = none := by
  by_cases h : c.Clean (F.write a)
  · exact iff_of_true (F.load_overwrite_of_clean h old) (.inl h)
  · rw [F.load_overwrite_of_not_clean h old]
    simp [h, eq_comm]

end RecordFile

/-- A type written as a JSON object, indented. -/
def Json.Codec.recordFile {read : NumLit → Option F32} {α : Type} (c : Codec read α)
    (S : Serializer read) (hobj : ∀ a, ∃ fs, c.enc S a = .obj fs) : RecordFile α where
  write a := toVecPretty (c.enc S a)
  read bytes := (ofSlice bytes).bind c.dec
  read_write a := by rw [ofSlice_toVecPretty, Option.bind_some, c.dec_enc]
  read_take a n h := by
    obtain ⟨fs, hfs⟩ := hobj a
    rw [hfs] at h ⊢
    rw [ofSlice_take h, Option.bind_none]

end Lib
