/-
  Maranode.Lib.Inodes

  Files that several programs have open at the same time.

  A path names an inode.  A program that has a file open keeps the inode, also when the
  path is unlinked; another one that opens the path then gets an inode of its own.  What
  a program wrote is there as long as its inode has no other name and its path no other
  inode (`Owns`).
-/
import Maranode.Lib.Text
import Mathlib.Logic.Function.Basic

namespace Lib

structure Inodes (P : Type) where
  named : P → Option Nat
  data : Nat → Bytes
  /-- The first inode not yet used. -/
  next : Nat
  lt_next : ∀ p i, named p = some i → i < next
  inj : ∀ p q i, named p = some i → named q = some i → p = q

/-- Bytes written at an offset; a gap in front of it reads as zeros. -/
def overlay (old : Bytes) (offset : Nat) (piece : Bytes) : Bytes :=
  old.take offset ++ List.replicate (offset - old.length) 0 ++ piece ++
    old.drop (offset + piece.length)

/-- The next piece behind the front of some content. -/
theorem overlay_take {bytes : Bytes} {done : Nat} (hdone : done ≤ bytes.length) (n : Nat) :
    overlay (bytes.take done) done ((bytes.drop done).take n)
      = bytes.take (done + ((bytes.drop done).take n).length) := by
  have hgap : done - (bytes.take done).length = 0 := by
    rw [List.length_take, Nat.min_eq_left hdone, Nat.sub_self]
  have hrest : (bytes.take done).drop (done + ((bytes.drop done).take n).length) = [] := by
    refine List.drop_eq_nil_of_le ?_
    rw [List.length_take]
    omega
  have hpiece : (bytes.drop done).take ((bytes.drop done).take n).length
      = (bytes.drop done).take n := by
    rw [List.length_take, List.take_eq_take_iff]
    omega
  rw [overlay, hgap, hrest, List.replicate_zero, List.append_nil, List.append_nil, List.take_take,
    Nat.min_self, List.take_add, hpiece]

namespace Inodes

variable {P : Type} [DecidableEq P]

/-- No file at all. -/
def empty : Inodes P where
  named := fun _ => none
  data := fun _ => []
  next := 0
  lt_next _ _ h := by cases h
  inj _ _ _ h := by cases h

/-- `write(true).create(true).truncate(true)`: the file and the inode that was opened. -/
def create (fs : Inodes P) (p : P) : Inodes P × Nat :=
  match fs.named p with
  | some i => ({ fs with data := Function.update fs.data i [] }, i)
  | none =>
      ({ named := Function.update fs.named p (some fs.next)
         data := Function.update fs.data fs.next []
         next := fs.next + 1
         lt_next := by
           intro q i h
           by_cases hq : q = p
           · rw [hq, Function.update_self] at h
             rw [← Option.some.inj h]
             exact Nat.lt_succ_self _
           · rw [Function.update_of_ne hq] at h
             exact Nat.lt_succ_of_lt (fs.lt_next q i h)
         inj := by
           -- The new inode has no name yet.
           have hnew : ∀ q, fs.named q ≠ some fs.next := fun q h =>
             Nat.lt_irrefl _ (fs.lt_next q _ h)
           intro q r i hq hr
           by_cases hqp : q = p
           · by_cases hrp : r = p
             · rw [hqp, hrp]
             · rw [hqp, Function.update_self] at hq
               rw [Function.update_of_ne hrp, ← hq] at hr
               exact absurd hr (hnew r)
           · by_cases hrp : r = p
             · rw [hrp, Function.update_self] at hr
               rw [Function.update_of_ne hqp, ← hr] at hq
               exact absurd hq (hnew q)
             · rw [Function.update_of_ne hqp] at hq
               rw [Function.update_of_ne hrp] at hr
               exact fs.inj q r i hq hr },
        fs.next)

/-- A write through an open file, at an offset. -/
def pwrite (fs : Inodes P) (i offset : Nat) (piece : Bytes) : Inodes P :=
  { fs with data := Function.update fs.data i (overlay (fs.data i) offset piece) }

/-- `fs::read`. -/
def read (fs : Inodes P) (p : P) : Option Bytes := (fs.named p).map fs.data

/-- `fs::remove_file`; without such a file nothing happens. -/
def unlink (fs : Inodes P) (p : P) : Inodes P where
  named := Function.update fs.named p none
  data := fs.data
  next := fs.next
  lt_next := by
    intro q i h
    by_cases hq : q = p
    · rw [hq, Function.update_self] at h
      cases h
    · rw [Function.update_of_ne hq] at h
      exact fs.lt_next q i h
  inj := by
    intro q r i hq hr
    by_cases hqp : q = p
    · rw [hqp, Function.update_self] at hq
      cases hq
    · by_cases hrp : r = p
      · rw [hrp, Function.update_self] at hr
        cases hr
      · rw [Function.update_of_ne hqp] at hq
        rw [Function.update_of_ne hrp] at hr
        exact fs.inj q r i hq hr

/-! ## Who a file belongs to -/

/-- The inode has no other name than the path, and the path names no other inode. -/
structure Owns (fs : Inodes P) (i : Nat) (p : P) : Prop where
  lt : i < fs.next
  only : ∀ q, fs.named q = some i → q = p
  sole : ∀ j, fs.named p = some j → j = i

variable {fs : Inodes P} {i j : Nat} {p q : P}

/-- What was opened is empty and belongs to who opened it. -/
theorem owns_create : (fs.create p).1.Owns (fs.create p).2 p ∧
    (fs.create p).1.data (fs.create p).2 = [] := by
  unfold create
  split
  · next k hk =>
      refine ⟨⟨fs.lt_next p k hk, fun q hq => fs.inj q p k hq hk, fun l hl => ?_⟩,
        Function.update_self ..⟩
      exact Option.some.inj (hl.symm.trans hk)
  · next hnone =>
      refine ⟨⟨Nat.lt_succ_self _, fun q hq => ?_, fun l hl => ?_⟩, Function.update_self ..⟩
      · by_contra hne
        dsimp only at hq
        rw [Function.update_of_ne hne] at hq
        exact Nat.lt_irrefl _ (fs.lt_next q _ hq)
      · dsimp only at hl
        rw [Function.update_self] at hl
        exact (Option.some.inj hl).symm

/-- What is opened, written and read by one program. -/
theorem read_pwrite_create (bytes : Bytes) :
    ((fs.create p).1.pwrite (fs.create p).2 0 bytes).read p = some bytes := by
  have hnamed : (fs.create p).1.named p = some (fs.create p).2 := by
    unfold create
    split
    · next k hk => exact hk
    · exact Function.update_self ..
  have hdata : ((fs.create p).1.pwrite (fs.create p).2 0 bytes).data (fs.create p).2
      = overlay ((fs.create p).1.data (fs.create p).2) 0 bytes := Function.update_self ..
  have hwhole := overlay_take (Nat.zero_le bytes.length) bytes.length
  rw [List.take_zero, List.drop_zero, List.take_length, Nat.zero_add, List.take_length] at hwhole
  rw [read, pwrite, hnamed, Option.map_some]
  exact congrArg some (hdata.trans ((congrArg (overlay · 0 bytes) owns_create.2).trans hwhole))

/-- Another path is opened. -/
theorem Owns.create (h : fs.Owns i p) (hpq : p ≠ q) :
    (fs.create q).1.Owns i p ∧ (fs.create q).1.data i = fs.data i ∧ i ≠ (fs.create q).2 := by
  unfold Inodes.create
  split
  · next k hk =>
      have hne : i ≠ k := fun heq => hpq (h.only q (hk.trans (congrArg some heq.symm))).symm
      exact ⟨⟨h.lt, h.only, h.sole⟩, Function.update_of_ne hne .., hne⟩
  · next hnone =>
      have hne : i ≠ fs.next := Nat.ne_of_lt h.lt
      refine ⟨⟨Nat.lt_succ_of_lt h.lt, fun r hr => ?_, fun l hl => ?_⟩,
        Function.update_of_ne hne .., hne⟩
      · dsimp only at hr
        by_cases hrq : r = q
        · rw [hrq, Function.update_self] at hr
          exact absurd (Option.some.inj hr).symm hne
        · rw [Function.update_of_ne hrq] at hr
          exact h.only r hr
      · dsimp only at hl
        rw [Function.update_of_ne hpq] at hl
        exact h.sole l hl

omit [DecidableEq P] in
/-- A write through any open file. -/
theorem Owns.pwrite (h : fs.Owns i p) (j offset : Nat) (piece : Bytes) :
    (fs.pwrite j offset piece).Owns i p := ⟨h.lt, h.only, h.sole⟩

omit [DecidableEq P] in
theorem data_pwrite_of_ne (hij : i ≠ j) (offset : Nat) (piece : Bytes) :
    (fs.pwrite j offset piece).data i = fs.data i := Function.update_of_ne hij ..

/-- Any path is unlinked. -/
theorem Owns.unlink (h : fs.Owns i p) (q : P) : (fs.unlink q).Owns i p := by
  have hnamed : ∀ r j, (fs.unlink q).named r = some j → fs.named r = some j := by
    intro r j hr
    rw [Inodes.unlink] at hr
    dsimp only at hr
    by_cases hrq : r = q
    · rw [hrq, Function.update_self] at hr
      cases hr
    · rwa [Function.update_of_ne hrq] at hr
  exact ⟨h.lt, fun r hr => h.only r (hnamed r i hr), fun j hj => h.sole j (hnamed p j hj)⟩

omit [DecidableEq P] in
/-- What is read at the path is what is in the inode. -/
theorem Owns.read (h : fs.Owns i p) {bytes : Bytes} (hread : fs.read p = some bytes) :
    bytes = fs.data i := by
  obtain ⟨j, hj, rfl⟩ := Option.map_eq_some_iff.mp hread
  rw [h.sole j hj]

end Inodes

end Lib
