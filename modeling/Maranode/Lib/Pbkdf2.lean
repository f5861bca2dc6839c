/-
  Maranode.Lib.Pbkdf2

  The function `F` of PBKDF2 (RFC 8018, section 5.2), over any pseudorandom function.

  `u` is the chain `U_1, U_2, ...`, and `f` is the xor of its first links.  A loop that keeps
  the last link and the xor so far has `f_succ` as its step.
-/
import Maranode.Lib.Text

namespace Lib.Pbkdf2

/-! ## Blocks -/

/-- As many octets as the pseudorandom function returns. -/
abbrev Block (hLen : Nat) := { bs : Bytes // bs.length = hLen }

variable {hLen : Nat}

def Block.zero : Block hLen := ⟨List.replicate hLen 0, List.length_replicate⟩

def Block.xor (a b : Block hLen) : Block hLen :=
  ⟨List.zipWith (· ^^^ ·) a.1 b.1, by rw [List.length_zipWith, a.2, b.2, Nat.min_self]⟩

theorem zipWith_xor_zero (bs : Bytes) :
    List.zipWith (· ^^^ ·) (List.replicate bs.length 0) bs = bs := by
  induction bs with
  | nil => rfl
  | cons b bs ih =>
      rw [List.length_cons, List.replicate_succ, List.zipWith_cons_cons, ih, UInt8.zero_xor]

theorem Block.zero_xor (a : Block hLen) : Block.zero.xor a = a := by
  obtain ⟨bs, rfl⟩ := a
  exact Subtype.ext (zipWith_xor_zero bs)

/-- `U_1 xor ... xor U_c`. -/
def xorAll (blocks : List (Block hLen)) : Block hLen := blocks.foldl Block.xor Block.zero

theorem xorAll_append_singleton (blocks : List (Block hLen)) (b : Block hLen) :
    xorAll (blocks ++ [b]) = (xorAll blocks).xor b := by
  rw [xorAll, List.foldl_append]
  rfl

/-! ## The chain -/

/-- `INT (i)`: four octets, the most significant one first. -/
def int4 (i : Nat) : Bytes :=
  [UInt8.ofNat (i / 2 ^ 24), UInt8.ofNat (i / 2 ^ 16), UInt8.ofNat (i / 2 ^ 8), UInt8.ofNat i]

variable (prf : Bytes → Block hLen) (salt : Bytes) (i : Nat)

/-- `U_c`, from `c = 1` on. -/
def u : Nat → Block hLen
  | 0 => Block.zero
  | 1 => prf (salt ++ int4 i)
  | c + 2 => prf (u (c + 1)).1

/-- `F (P, S, c, i)`, with `prf` the function under the password. -/
def f (c : Nat) : Block hLen := xorAll ((List.range c).map fun j => u prf salt i (j + 1))

theorem f_succ (c : Nat) : f prf salt i (c + 1) = (f prf salt i c).xor (u prf salt i (c + 1)) := by
  rw [f, List.range_succ, List.map_append, List.map_singleton, xorAll_append_singleton, f]

theorem f_one : f prf salt i 1 = u prf salt i 1 := by
  rw [f_succ]
  exact Block.zero_xor _

end Lib.Pbkdf2
