/-
  Maranode.Lib.Checked

  Machine arithmetic and indexing of Rust, which may stop a function.

  A build that checks stops where a number does not fit, and one that does not wraps around;
  both stop at an index that is out of range.  Lists stand for slices, and a slice is at most
  `isize::MAX` bytes.
-/
import Maranode.Lib.Text

namespace Lib.Checked

/-- Why a function does not return a value: it bails out, or it panics. -/
inductive Stop where
  | bail (message : String)
  | overflow
  | outOfRange
  deriving DecidableEq

def isizeMax : Nat := 2 ^ 63 - 1

/-- `&[u8]`. -/
abbrev Slice := { bs : Bytes // bs.length ≤ isizeMax }

variable {α : Type} (checks : Bool)

/-- The function panicked. -/
def Panics (out : Except Stop α) : Prop := out = .error .overflow ∨ out = .error .outOfRange

/-- `a + b` of numbers below `bound`. -/
def add (bound a b : Nat) : Except Stop Nat :=
  if a + b < bound then .ok (a + b)
  else if checks then .error .overflow
  else .ok ((a + b) % bound)

def mul (bound a b : Nat) : Except Stop Nat :=
  if a * b < bound then .ok (a * b)
  else if checks then .error .overflow
  else .ok ((a * b) % bound)

def sub (bound a b : Nat) : Except Stop Nat :=
  if b ≤ a then .ok (a - b)
  else if checks then .error .overflow
  else .ok ((bound + a - b) % bound)

/-- `+`, `*` and `-` on `usize`. -/
abbrev addUsize := add checks (2 ^ 64)

abbrev mulUsize := mul checks (2 ^ 64)

abbrev subUsize := sub checks (2 ^ 64)

/-- `a + b` on `i32`. -/
def addI32 (a b : Int) : Except Stop Int :=
  if -2 ^ 31 ≤ a + b ∧ a + b < 2 ^ 31 then .ok (a + b)
  else if checks then .error .overflow
  else .ok ((a + b).bmod (2 ^ 32))

/-- `xs[i]`. -/
def index (xs : List α) (i : Nat) : Except Stop α :=
  match xs[i]? with
  | some x => .ok x
  | none => .error .outOfRange

/-- `xs[start..stop]`. -/
def slice (xs : List α) (start stop : Nat) : Except Stop (List α) :=
  if start ≤ stop ∧ stop ≤ xs.length then .ok ((xs.drop start).take (stop - start))
  else .error .outOfRange

/-- `xs.split_at(mid)`. -/
def splitAt (xs : List α) (mid : Nat) : Except Stop (List α × List α) :=
  if mid ≤ xs.length then .ok (xs.take mid, xs.drop mid) else .error .outOfRange

/-- A function that bails out with its errors and does not panic. -/
def bails (out : Except String α) : Except Stop α := out.mapError .bail

variable {checks} {bound a b : Nat}

theorem ok_bind {ε β : Type} (x : α) (f : α → Except ε β) : (Except.ok x >>= f) = f x := rfl

theorem add_of_lt (h : a + b < bound) : add checks bound a b = .ok (a + b) := if_pos h

theorem addUsize_of_lt (h : a + b < 2 ^ 64) : addUsize checks a b = .ok (a + b) := add_of_lt h

theorem mul_of_lt (h : a * b < bound) : mul checks bound a b = .ok (a * b) := if_pos h

theorem mulUsize_of_lt (h : a * b < 2 ^ 64) : mulUsize checks a b = .ok (a * b) := mul_of_lt h

theorem sub_of_le (h : b ≤ a) : sub checks bound a b = .ok (a - b) := if_pos h

theorem subUsize_of_le (h : b ≤ a) : subUsize checks a b = .ok (a - b) := sub_of_le h

theorem add_of_le (h : bound ≤ a + b) : add true bound a b = .error .overflow := by
  rw [add, if_neg (by omega), if_pos rfl]

theorem addI32_of_lt {a b : Int} (hlo : -2 ^ 31 ≤ a + b) (hhi : a + b < 2 ^ 31) :
    addI32 checks a b = .ok (a + b) := if_pos ⟨hlo, hhi⟩

/-- A build that does not check goes on. -/
theorem addI32_cases (checks : Bool) (a b : Int) :
    (∃ c, addI32 checks a b = .ok c) ∨ checks = true ∧ addI32 checks a b = .error .overflow := by
  rw [addI32]
  split
  · exact .inl ⟨_, rfl⟩
  · cases checks with
    | true => exact .inr ⟨rfl, rfl⟩
    | false => exact .inl ⟨_, rfl⟩

theorem index_of_getElem? {xs : List α} {i : Nat} {x : α} (h : xs[i]? = some x) :
    index xs i = .ok x := by
  rw [index, h]

theorem index_of_lt {xs : List α} {i : Nat} (h : i < xs.length) : index xs i = .ok xs[i] :=
  index_of_getElem? (List.getElem?_eq_getElem h)

/-- The next elements, from a position on. -/
theorem slice_add {xs : List α} {start n : Nat} (h : start + n ≤ xs.length) :
    slice xs start (start + n) = .ok ((xs.drop start).take n) := by
  rw [slice, if_pos ⟨Nat.le_add_right start n, h⟩, Nat.add_sub_cancel_left]

theorem slice_append (xs ys zs : List α) :
    slice (xs ++ (ys ++ zs)) xs.length (xs.length + ys.length) = .ok ys := by
  have hle : xs.length + ys.length ≤ (xs ++ (ys ++ zs)).length := by
    rw [List.length_append, List.length_append]
    omega
  rw [slice_add hle, List.drop_left, List.take_left]

/-- `xs[start..]`. -/
theorem slice_rest (xs ys : List α) :
    slice (xs ++ ys) xs.length (xs ++ ys).length = .ok ys := by
  have h := slice_append xs ys []
  rwa [List.append_nil, ← List.length_append] at h

theorem splitAt_append (xs ys : List α) : splitAt (xs ++ ys) xs.length = .ok (xs, ys) := by
  have hle : xs.length ≤ (xs ++ ys).length := by
    rw [List.length_append]
    omega
  rw [splitAt, if_pos hle, List.take_left, List.drop_left]

/-! ## Decoders -/

/-- A decoder undoes an encoder, whatever the encoder draws: it reads what was written and
    what counts as the same, and bails out of everything else. -/
structure Undoes {ι α β : Type} (same : β → β → Prop) (enc : ι → α → Except String β)
    (dec : β → Except Stop α) : Prop where
  reads : ∀ i x b b', enc i x = .ok b → same b b' → dec b' = .ok x
  refuses : ∀ b', (∀ i x b, enc i x = .ok b → ¬ same b b') →
    ∃ message, dec b' = .error (.bail message)

/-- A decoder that does not panic, and reads a value from what was written of it. -/
theorem Undoes.of_bails {ι α β : Type} {same : β → β → Prop} {enc : ι → α → Except String β}
    {dec : β → Except Stop α} {read : β → Except String α} (hdec : ∀ b, dec b = bails (read b))
    (hread : ∀ b' x, read b' = .ok x ↔ ∃ i b, enc i x = .ok b ∧ same b b') :
    Undoes same enc dec where
  reads i x b b' henc hsame := by
    rw [hdec, (hread b' x).mpr ⟨i, b, henc, hsame⟩]
    rfl
  refuses b' hnone := by
    rw [hdec]
    cases h : read b' with
    | error message => exact ⟨message, rfl⟩
    | ok x =>
        obtain ⟨i, b, henc, hsame⟩ := (hread b' x).mp h
        exact absurd hsame (hnone i x b henc)

/-- What is read is what was written, as it was written. -/
theorem Undoes.eq_of_bails {ι α β : Type} {enc : ι → α → Except String β}
    {dec : β → Except Stop α} {read : β → Except String α} (hdec : ∀ b, dec b = bails (read b))
    (hread : ∀ b x, read b = .ok x ↔ ∃ i, enc i x = .ok b) : Undoes Eq enc dec := by
  refine .of_bails hdec fun b x => (hread b x).trans (exists_congr fun i => ?_)
  constructor
  · intro h
    exact ⟨b, h, rfl⟩
  · rintro ⟨_, h, rfl⟩
    exact h

end Lib.Checked
