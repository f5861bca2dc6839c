/-
  Maranode.Lib.Digits

  Numbers in decimal of a fixed width, and the order of texts made of them.

  Texts are compared character by character.  Numbers of one width compare as texts the way
  they do as numbers (`padded_lt_padded`), and a text in front decides when it has one width
  (`append_lt_append_of_lt`).
-/
import Maranode.Lib.Text

namespace Lib.Digits

/-! ## The order of lists -/

/-- Of two lists that begin with lists of one length, those decide. -/
theorem append_lt_append_of_lt {α : Type} [LT α] {as bs : List α} (hlen : as.length = bs.length)
    (h : as < bs) (cs ds : List α) : as ++ cs < bs ++ ds := by
  induction as generalizing bs with
  | nil =>
      rw [List.length_nil] at hlen
      rw [List.eq_nil_of_length_eq_zero hlen.symm] at h
      exact absurd h (List.not_lt_nil _)
  | cons a as ih =>
      cases bs with
      | nil => exact absurd h (List.not_lt_nil _)
      | cons b bs =>
          rw [List.length_cons, List.length_cons] at hlen
          rw [List.cons_append, List.cons_append]
          rcases List.cons_lt_cons_iff.mp h with hhead | ⟨rfl, htail⟩
          · exact List.cons_lt_cons_iff.mpr (.inl hhead)
          · exact List.cons_lt_cons_iff.mpr (.inr ⟨rfl, ih (Nat.succ.inj hlen) htail⟩)

/-! ## Digits -/

theorem digitChar_lt {m n : Nat} (h : m < n) (hn : n < 10) : Nat.digitChar m < Nat.digitChar n := by
  interval_cases n <;> interval_cases m <;> decide

/-- A digit comes after a plus sign. -/
theorem plus_lt_digitChar {n : Nat} (hn : n < 10) : '+' < Nat.digitChar n := by
  interval_cases n <;> decide

/-- A digit comes after a minus sign. -/
theorem minus_lt_digitChar {n : Nat} (hn : n < 10) : '-' < Nat.digitChar n := by
  interval_cases n <;> decide

def digitValue (c : Char) : Nat := c.toNat - 48

theorem digitValue_digitChar {n : Nat} (hn : n < 10) : digitValue (Nat.digitChar n) = n := by
  interval_cases n <;> rfl

/-! ## Numbers of a width -/

/-- The last digits of a number, as many as the width. -/
def padded : Nat → Nat → Text
  | 0, _ => []
  | w + 1, n => padded w (n / 10) ++ [Nat.digitChar (n % 10)]

@[simp] theorem length_padded (w n : Nat) : (padded w n).length = w := by
  induction w generalizing n with
  | zero => rfl
  | succ w ih => rw [padded, List.length_append, ih, List.length_singleton]

/-- Numbers of one width compare as texts the way they do as numbers. -/
theorem padded_lt_padded {w m n : Nat} (h : m < n) (hn : n < 10 ^ w) :
    padded w m < padded w n := by
  induction w generalizing m n with
  | zero => omega
  | succ w ih =>
      have htens : n / 10 < 10 ^ w := by omega
      rw [padded, padded]
      by_cases hlt : m / 10 < n / 10
      · have hlen : (padded w (m / 10)).length = (padded w (n / 10)).length := by
          rw [length_padded, length_padded]
        exact append_lt_append_of_lt hlen (ih hlt htens) _ _
      · have hsame : m / 10 = n / 10 := by omega
        have hdigit : m % 10 < n % 10 := by omega
        rw [hsame]
        refine List.append_left_lt (List.cons_lt_cons_iff.mpr (.inl ?_))
        exact digitChar_lt hdigit (Nat.mod_lt n (by omega))

/-- Texts with a number of one width in front: the number decides, or else what follows. -/
theorem field_lt {w m n : Nat} {xs ys : Text} (hn : n < 10 ^ w)
    (h : m < n ∨ m = n ∧ xs < ys) : padded w m ++ xs < padded w n ++ ys := by
  rcases h with hlt | ⟨rfl, hrest⟩
  · have hlen : (padded w m).length = (padded w n).length := by
      rw [length_padded, length_padded]
    exact append_lt_append_of_lt hlen (padded_lt_padded hlt hn) xs ys
  · exact List.append_left_lt hrest

theorem cons_lt_cons {c : Char} {xs ys : Text} (h : xs < ys) : c :: xs < c :: ys :=
  List.cons_lt_cons_iff.mpr (.inr ⟨rfl, h⟩)

/-- The digits in front, and those that follow. -/
theorem padded_add (w k n : Nat) :
    padded (w + k) n = padded w (n / 10 ^ k) ++ padded k (n % 10 ^ k) := by
  induction k generalizing n with
  | zero => rw [Nat.pow_zero, Nat.div_one, Nat.add_zero, padded, List.append_nil]
  | succ k ih =>
      have hdiv : n / 10 / 10 ^ k = n / 10 ^ (k + 1) := by
        rw [Nat.div_div_eq_div_mul, Nat.pow_succ']
      have hmod : n / 10 % 10 ^ k = n % 10 ^ (k + 1) / 10 := by
        rw [Nat.pow_succ', Nat.mod_mul_right_div_self]
      have hlast : n % 10 ^ (k + 1) % 10 = n % 10 := by
        rw [Nat.pow_succ', Nat.mod_mul_right_mod]
      rw [← Nat.add_assoc, padded, ih, padded, hdiv, hmod, hlast, List.append_assoc]

/-- A number that is not empty begins with a digit. -/
theorem exists_padded_eq_cons (w n : Nat) :
    ∃ d rest, padded (w + 1) n = Nat.digitChar d :: rest ∧ d < 10 := by
  induction w generalizing n with
  | zero => exact ⟨n % 10, [], rfl, Nat.mod_lt n (by omega)⟩
  | succ w ih =>
      obtain ⟨d, rest, hrest, hd⟩ := ih (n / 10)
      refine ⟨d, rest ++ [Nat.digitChar (n % 10)], ?_, hd⟩
      rw [padded, hrest, List.cons_append]

/-- The number some digits are. -/
def value (cs : Text) : Nat := cs.foldl (fun n c => 10 * n + digitValue c) 0

theorem value_append_singleton (cs : Text) (c : Char) :
    value (cs ++ [c]) = 10 * value cs + digitValue c := by
  rw [value, List.foldl_append]
  rfl

theorem value_padded {w n : Nat} (hn : n < 10 ^ w) : value (padded w n) = n := by
  induction w generalizing n with
  | zero =>
      have hzero : n = 0 := by omega
      rw [hzero]
      rfl
  | succ w ih =>
      have htens : n / 10 < 10 ^ w := by omega
      rw [padded, value_append_singleton, ih htens, digitValue_digitChar (Nat.mod_lt n (by omega))]
      omega

theorem isDigit_digitChar {n : Nat} (hn : n < 10) : (Nat.digitChar n).isDigit = true := by
  interval_cases n <;> rfl

theorem isDigit_of_mem_padded {w n : Nat} {c : Char} (h : c ∈ padded w n) :
    c.isDigit = true := by
  induction w generalizing n with
  | zero => exact absurd h List.not_mem_nil
  | succ w ih =>
      rcases List.mem_append.mp h with hmem | hmem
      · exact ih hmem
      · rw [List.mem_singleton.mp hmem]
        exact isDigit_digitChar (Nat.mod_lt n (by omega))

/-- The digits in front of something that is none. -/
theorem takeWhile_padded (w n : Nat) {c : Char} (hc : c.isDigit = false) (cs : Text) :
    (padded w n ++ c :: cs).takeWhile Char.isDigit = padded w n := by
  rw [List.takeWhile_append_of_pos fun _ => isDigit_of_mem_padded,
    List.takeWhile_cons_of_neg (by rw [hc]; exact Bool.false_ne_true), List.append_nil]

end Lib.Digits
