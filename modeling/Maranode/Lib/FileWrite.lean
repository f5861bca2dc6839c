/-
  Maranode.Lib.FileWrite

  Writing whole files, and appending to them, when a write may fail.

  A write that replaces a file truncates it first, so one that fails on the way leaves the
  front of the new content, and one that fails at opening leaves the file alone.
-/
import Maranode.Lib.Text

namespace Lib.FileWrite

/-- Where a write fails: when the file is opened, or once some bytes are written. -/
inductive Fault where
  | none
  | opening (e : String)
  | after (n : Nat) (e : String)
  deriving DecidableEq

/-- The file after `write_all`, and what the caller is told.  `front` stays in front. -/
def put (front : Bytes) (old : Option Bytes) (bytes : Bytes) :
    Fault → Option Bytes × Except String Unit
  | .none => (some (front ++ bytes), .ok ())
  | .opening e => (old, .error e)
  | .after n e =>
      if n < bytes.length then (some (front ++ bytes.take n), .error e)
      else (some (front ++ bytes), .ok ())

/-- `fs::write`. -/
def write (fault : Fault) (old : Option Bytes) (bytes : Bytes) :
    Option Bytes × Except String Unit :=
  put [] old bytes fault

/-- Opened with `create` and `append`. -/
def append (fault : Fault) (old : Option Bytes) (bytes : Bytes) :
    Option Bytes × Except String Unit :=
  put (old.getD []) old bytes fault

/-- The write of these bytes succeeds. -/
def Fault.Passes (fault : Fault) (bytes : Bytes) : Prop :=
  match fault with
  | .none => True
  | .opening _ => False
  | .after n _ => bytes.length ≤ n

instance (fault : Fault) (bytes : Bytes) : Decidable (fault.Passes bytes) := by
  cases fault <;> rw [Fault.Passes] <;> infer_instance

variable {fault : Fault} {front bytes : Bytes} {old : Option Bytes}

/-- A write passes, fails at opening, or leaves the file short. -/
theorem Fault.passes_or (fault : Fault) (bytes : Bytes) :
    fault.Passes bytes ∨ (∃ e, fault = .opening e) ∨
      ∃ n e, fault = .after n e ∧ n < bytes.length := by
  cases fault with
  | none => exact .inl trivial
  | opening e => exact .inr (.inl ⟨e, rfl⟩)
  | after n e =>
      rcases Nat.lt_or_ge n bytes.length with hlt | hge
      · exact .inr (.inr ⟨n, e, rfl, hlt⟩)
      · exact .inl hge

theorem put_of_passes (h : fault.Passes bytes) :
    put front old bytes fault = (some (front ++ bytes), .ok ()) := by
  cases fault with
  | none => rfl
  | opening e => exact h.elim
  | after n e => exact if_neg (Nat.not_lt.mpr h)

theorem put_of_torn {n : Nat} (e : String) (h : n < bytes.length) :
    put front old bytes (.after n e) = (some (front ++ bytes.take n), .error e) :=
  if_pos h

theorem write_none : write .none old bytes = (some bytes, .ok ()) := rfl

theorem write_of_passes (h : fault.Passes bytes) :
    write fault old bytes = (some bytes, .ok ()) := by
  rw [write, put_of_passes h, List.nil_append]

theorem write_of_torn {n : Nat} (e : String) (h : n < bytes.length) :
    write (.after n e) old bytes = (some (bytes.take n), .error e) := by
  rw [write, put_of_torn e h, List.nil_append]

end Lib.FileWrite
