/-
  Maranode.Lib.Offsets

  Byte offsets into a text, as `str` has them.

  An offset is on a character boundary when a front of the text has that many bytes
  (`splitAt_eq_some_iff`); slicing anywhere else stops the function.  What `str::find` returns
  is the offset of the first occurrence, and so on a boundary.
-/
import Maranode.Lib.Checked
import Maranode.Lib.Find

namespace Lib.Offsets

open Lib.Checked

/-- `str::len`. -/
def byteLen (cs : Text) : Nat := (Text.encode cs).length

@[simp] theorem byteLen_nil : byteLen [] = 0 := rfl

@[simp] theorem byteLen_cons (c : Char) (cs : Text) :
    byteLen (c :: cs) = c.utf8Size + byteLen cs := by
  rw [byteLen, Text.encode_cons, List.length_append, String.length_utf8EncodeChar, byteLen]

@[simp] theorem byteLen_append (cs ds : Text) : byteLen (cs ++ ds) = byteLen cs + byteLen ds := by
  rw [byteLen, Text.encode_append, List.length_append, byteLen, byteLen]

theorem byteLen_pos {cs : Text} (h : cs ≠ []) : 0 < byteLen cs := by
  obtain ⟨c, cs, rfl⟩ := List.exists_cons_of_ne_nil h
  have hsize := c.utf8Size_pos
  rw [byteLen_cons]
  omega

/-! ## Boundaries -/

/-- The text before and behind an offset that is on a character boundary. -/
def splitAt : Text → Nat → Option (Text × Text)
  | cs, 0 => some ([], cs)
  | [], _ + 1 => none
  | c :: cs, n + 1 =>
      if c.utf8Size ≤ n + 1 then
        (splitAt cs (n + 1 - c.utf8Size)).map fun parts => (c :: parts.1, parts.2)
      else none

theorem splitAt_byteLen (as bs : Text) : splitAt (as ++ bs) (byteLen as) = some (as, bs) := by
  induction as with
  | nil => rw [List.nil_append, byteLen_nil, splitAt]
  | cons a as ih =>
      have hsize := a.utf8Size_pos
      obtain ⟨n, hn⟩ : ∃ n, byteLen (a :: as) = n + 1 :=
        Nat.exists_eq_succ_of_ne_zero (Nat.ne_of_gt (byteLen_pos (List.cons_ne_nil a as)))
      have hle : a.utf8Size ≤ n + 1 := by
        rw [← hn, byteLen_cons]
        exact Nat.le_add_right _ _
      have hrest : n + 1 - a.utf8Size = byteLen as := by
        rw [← hn, byteLen_cons, Nat.add_sub_cancel_left]
      rw [hn, List.cons_append, splitAt, if_pos hle, hrest, ih]
      rfl

/-- The boundaries are where a front of the text ends. -/
theorem splitAt_eq_some_iff {cs as bs : Text} {n : Nat} :
    splitAt cs n = some (as, bs) ↔ as ++ bs = cs ∧ byteLen as = n := by
  constructor
  · intro h
    induction cs generalizing n as with
    | nil =>
        cases n with
        | zero =>
            obtain ⟨rfl, rfl⟩ := Prod.mk.inj (Option.some.inj h)
            exact ⟨rfl, rfl⟩
        | succ n => cases h
    | cons c cs ih =>
        cases n with
        | zero =>
            obtain ⟨rfl, rfl⟩ := Prod.mk.inj (Option.some.inj h)
            exact ⟨rfl, rfl⟩
        | succ n =>
            rw [splitAt] at h
            split at h
            · next hle =>
                obtain ⟨⟨as', bs'⟩, hrest, heq⟩ := Option.map_eq_some_iff.mp h
                obtain ⟨rfl, rfl⟩ := Prod.mk.inj heq
                obtain ⟨rfl, hlen⟩ := ih hrest
                refine ⟨rfl, ?_⟩
                rw [byteLen_cons, hlen]
                omega
            · cases h
  · rintro ⟨rfl, rfl⟩
    exact splitAt_byteLen as bs

/-- `&s[n..]`. -/
def sliceFrom (cs : Text) (n : Nat) : Except Stop Text :=
  match splitAt cs n with
  | some parts => .ok parts.2
  | none => .error .outOfRange

/-- `&s[..n]`. -/
def sliceTo (cs : Text) (n : Nat) : Except Stop Text :=
  match splitAt cs n with
  | some parts => .ok parts.1
  | none => .error .outOfRange

theorem sliceFrom_byteLen (as bs : Text) : sliceFrom (as ++ bs) (byteLen as) = .ok bs := by
  rw [sliceFrom, splitAt_byteLen]

theorem sliceTo_byteLen (as bs : Text) : sliceTo (as ++ bs) (byteLen as) = .ok as := by
  rw [sliceTo, splitAt_byteLen]

/-! ## Searching -/

/-- `str::find`. -/
def findOffset (needle hay : Text) : Option Nat :=
  (find needle hay).map fun i => byteLen (hay.take i)

theorem findOffset_of_none {needle hay : Text} (h : find needle hay = none) :
    findOffset needle hay = none := by
  rw [findOffset, h]
  rfl

/-- Around what is found stands the rest of the text. -/
theorem findOffset_of_some {needle hay : Text} {i : Nat} (h : find needle hay = some i) :
    findOffset needle hay = some (byteLen (hay.take i)) ∧
      hay = hay.take i ++ (needle ++ hay.drop (i + needle.length)) := by
  refine ⟨by rw [findOffset, h]; rfl, ?_⟩
  obtain ⟨rest, hrest⟩ := (prefix_drop_of_find h).1
  have hbehind : rest = hay.drop (i + needle.length) := by
    rw [← List.drop_drop, ← hrest, List.drop_left]
  rw [← hbehind, hrest, List.take_append_drop]

end Lib.Offsets
