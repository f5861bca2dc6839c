/-
  Maranode.Lib.Reader

  Little-endian numbers, and reading from the front of a byte string.

  A reader is what is left to read.  Reading a number that was written gives it back with
  whatever follows left over, and a reader that passes one piece passes a row of them.
-/
import Maranode.Lib.Text

namespace Lib.Reader

/-! ## Little-endian numbers -/

/-- The low `w` bytes of a number, the lowest first. -/
def littleEndian : Nat → Nat → Bytes
  | 0, _ => []
  | w + 1, n => UInt8.ofNat n :: littleEndian w (n / 256)

/-- The number of some bytes, the lowest first. -/
def number : Bytes → Nat
  | [] => 0
  | b :: bs => b.toNat + 256 * number bs

@[simp] theorem length_littleEndian (w n : Nat) : (littleEndian w n).length = w := by
  induction w generalizing n with
  | zero => rfl
  | succ w ih => rw [littleEndian, List.length_cons, ih]

theorem number_littleEndian {w n : Nat} (h : n < 256 ^ w) : number (littleEndian w n) = n := by
  induction w generalizing n with
  | zero =>
      rw [Nat.pow_zero] at h
      rw [littleEndian, number]
      omega
  | succ w ih =>
      have hrest : n / 256 < 256 ^ w := by
        rw [Nat.pow_succ] at h
        exact Nat.div_lt_of_lt_mul (by rwa [Nat.mul_comm] at h)
      have hlow : (UInt8.ofNat n).toNat = n % 256 := UInt8.toNat_ofNat'
      rw [littleEndian, number, ih hrest, hlow]
      omega

theorem number_append (bs cs : Bytes) :
    number (bs ++ cs) = number bs + 256 ^ bs.length * number cs := by
  induction bs with
  | nil =>
      rw [List.nil_append, number, List.length_nil, Nat.pow_zero]
      omega
  | cons b bs ih =>
      rw [List.cons_append, number, number, ih, List.length_cons, Nat.pow_succ, Nat.mul_add,
        ← Nat.add_assoc, ← Nat.mul_assoc, Nat.mul_comm 256 (256 ^ bs.length)]

theorem number_lt (bs : Bytes) : number bs < 256 ^ bs.length := by
  induction bs with
  | nil => exact Nat.one_pos
  | cons b bs ih =>
      have hb : b.toNat < 256 := b.toNat_lt
      rw [number, List.length_cons, Nat.pow_succ]
      omega

/-- Only zero bytes are worth nothing. -/
theorem number_eq_zero {bs : Bytes} : number bs = 0 ↔ bs = List.replicate bs.length 0 := by
  induction bs with
  | nil => exact iff_of_true rfl rfl
  | cons b bs ih =>
      rw [number, List.length_cons, List.replicate_succ, List.cons.injEq, ← ih, ← UInt8.toNat_inj]
      change b.toNat + 256 * number bs = 0 ↔ b.toNat = 0 ∧ number bs = 0
      omega

/-! ## Reading -/

/-- `read_exact`: the next bytes and what is left, if there are as many. -/
def readExact (n : Nat) (r : Bytes) : Option (Bytes × Bytes) :=
  if n ≤ r.length then some (r.take n, r.drop n) else none

theorem readExact_append {n : Nat} {bs : Bytes} (h : bs.length = n) (rest : Bytes) :
    readExact n (bs ++ rest) = some (bs, rest) := by
  subst h
  have hle : bs.length ≤ (bs ++ rest).length := by
    rw [List.length_append]
    omega
  rw [readExact, if_pos hle, List.take_left, List.drop_left]

theorem readExact_eq_some {n : Nat} {r bs rest : Bytes} :
    readExact n r = some (bs, rest) ↔ bs.length = n ∧ r = bs ++ rest := by
  constructor
  · intro h
    rw [readExact] at h
    split at h
    · next hle =>
        obtain ⟨rfl, rfl⟩ := Prod.mk.inj (Option.some.inj h)
        exact ⟨List.length_take_of_le hle, (List.take_append_drop n r).symm⟩
    · cases h
  · rintro ⟨hlen, rfl⟩
    exact readExact_append hlen rest

/-- `read_u32` and `read_u64`, by their width. -/
def readNumber (w : Nat) (r : Bytes) : Option (Nat × Bytes) :=
  (readExact w r).map fun out => (number out.1, out.2)

theorem readNumber_append {w n : Nat} (h : n < 256 ^ w) (rest : Bytes) :
    readNumber w (littleEndian w n ++ rest) = some (n, rest) := by
  rw [readNumber, readExact_append (length_littleEndian w n), Option.map_some,
    number_littleEndian h]

/-- Read past `n` pieces, one after the other. -/
def times (skip : Bytes → Option Bytes) : Nat → Bytes → Option Bytes
  | 0, r => some r
  | n + 1, r => (skip r).bind (times skip n)

/-- What reads past a piece exactly when it is `ok` reads past a row of pieces exactly when
    all are.  A piece is only read where enough is left, which `bound` says. -/
theorem times_flatMap {α : Type} {skip : Bytes → Option Bytes} {piece : α → Bytes} {ok : α → Bool}
    {bound : Nat} (hskip : ∀ a rest, (piece a ++ rest).length ≤ bound →
      skip (piece a ++ rest) = if ok a then some rest else none)
    (as : List α) {rest : Bytes} (hbound : (as.flatMap piece ++ rest).length ≤ bound) :
    times skip as.length (as.flatMap piece ++ rest) =
      if as.all ok then some rest else none := by
  induction as with
  | nil => rfl
  | cons a as ih =>
      rw [List.flatMap_cons, List.append_assoc] at hbound ⊢
      have hrest : (as.flatMap piece ++ rest).length ≤ bound := by
        rw [List.length_append] at hbound
        omega
      rw [List.length_cons, times, hskip a _ hbound, List.all_cons]
      cases ok a with
      | false => rfl
      | true =>
          rw [if_pos rfl, Option.bind_some, ih hrest, Bool.true_and]

end Lib.Reader
