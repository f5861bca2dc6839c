/-
  Maranode.Lib.TextOrder

  UTF-8 keeps the order of the characters: two texts compare byte by byte the way they
  compare character by character (`encode_lt_encode_iff`).
-/
import Maranode.Lib.Text

namespace Lib.Text

/-! ## One character -/

/-- The numbers differ somewhere, and the first that differs is smaller. -/
def FirstLess : List Nat → List Nat → Prop
  | m :: ms, n :: ns => m < n ∨ m = n ∧ FirstLess ms ns
  | _, _ => False

/-- The bytes of a character, as numbers. -/
def codeUnits (v : Nat) : List Nat :=
  if v ≤ 0x7f then [v]
  else if v ≤ 0x7ff then [v / 64 % 0x20 + 0xc0, v % 0x40 + 0x80]
  else if v ≤ 0xffff then [v / 4096 % 0x10 + 0xe0, v / 64 % 0x40 + 0x80, v % 0x40 + 0x80]
  else [v / 262144 % 0x08 + 0xf0, v / 4096 % 0x40 + 0x80, v / 64 % 0x40 + 0x80, v % 0x40 + 0x80]

theorem utf8EncodeChar_eq_map (c : Char) :
    String.utf8EncodeChar c = (codeUnits c.val.toNat).map UInt8.ofNat := by
  rw [String.utf8EncodeChar, codeUnits]
  split_ifs <;> rfl

theorem codeUnits_lt_byte (v : Nat) : ∀ n ∈ codeUnits v, n < 256 := by
  rw [codeUnits]
  split_ifs <;> simp only [List.forall_mem_cons, List.not_mem_nil, false_implies, implies_true,
    and_true] <;> omega

/-- **A smaller character has the smaller bytes.**  A shorter sequence has a smaller first
    byte, and two of one length spell the number from the top. -/
theorem codeUnits_firstLess {v w : Nat} (h : v < w) (hw : w < 0x110000) :
    FirstLess (codeUnits v) (codeUnits w) := by
  have hsecond : ∀ n, n / 4096 = n / 64 / 64 := fun n => (Nat.div_div_eq_div_mul n 64 64).symm
  have hthird : ∀ n, n / 262144 = n / 64 / 64 / 64 := by
    intro n
    rw [Nat.div_div_eq_div_mul, Nat.div_div_eq_div_mul]
  rw [codeUnits, codeUnits]
  split_ifs <;> simp only [FirstLess, and_false, or_false, hsecond, hthird] <;> omega

theorem val_lt (c : Char) : c.val.toNat < 0x110000 := by
  rcases c.valid with h | h
  · exact Nat.lt_trans h (by decide)
  · exact h.2

/-! ## Texts -/

/-- What comes behind the first byte that differs does not matter. -/
theorem append_lt_append_of_firstLess {ms ns : List Nat} (h : FirstLess ms ns)
    (hm : ∀ m ∈ ms, m < 256) (hn : ∀ n ∈ ns, n < 256) (r r' : Bytes) :
    ms.map UInt8.ofNat ++ r < ns.map UInt8.ofNat ++ r' := by
  induction ms generalizing ns with
  | nil => exact h.elim
  | cons m ms ih =>
      cases ns with
      | nil => exact h.elim
      | cons n ns =>
          obtain ⟨hm, hms⟩ := List.forall_mem_cons.mp hm
          obtain ⟨hn, hns⟩ := List.forall_mem_cons.mp hn
          rw [List.map_cons, List.map_cons, List.cons_append, List.cons_append,
            List.cons_lt_cons_iff]
          rcases h with hlt | ⟨rfl, hrest⟩
          · left
            rwa [UInt8.lt_iff_toNat_lt, UInt8.toNat_ofNat_of_lt' hm, UInt8.toNat_ofNat_of_lt' hn]
          · exact .inr ⟨rfl, ih hrest hms hns⟩

theorem encode_cons_lt_of_lt {c d : Char} (h : c < d) (cs ds : Text) :
    encode (c :: cs) < encode (d :: ds) := by
  rw [encode_cons, encode_cons, utf8EncodeChar_eq_map, utf8EncodeChar_eq_map]
  exact append_lt_append_of_firstLess (codeUnits_firstLess h (val_lt d)) (codeUnits_lt_byte _)
    (codeUnits_lt_byte _) _ _

theorem encode_lt_encode {cs ds : Text} (h : cs < ds) : encode cs < encode ds := by
  induction cs generalizing ds with
  | nil =>
      cases ds with
      | nil => exact absurd h (List.not_lt_nil _)
      | cons d ds =>
          obtain ⟨b, r, hd, -⟩ := utf8EncodeChar_eq_cons d
          rw [encode_nil, encode_cons, hd]
          exact List.nil_lt_cons _ _
  | cons c cs ih =>
      cases ds with
      | nil => exact absurd h (List.not_lt_nil _)
      | cons d ds =>
          rcases List.cons_lt_cons_iff.mp h with hlt | ⟨rfl, hrest⟩
          · exact encode_cons_lt_of_lt hlt cs ds
          · rw [encode_cons, encode_cons]
            exact List.append_left_lt (ih hrest)

/-- **The bytes of two texts compare the way the characters do.** -/
theorem encode_lt_encode_iff {cs ds : Text} : encode cs < encode ds ↔ cs < ds := by
  refine ⟨fun h => ?_, encode_lt_encode⟩
  by_contra hle
  rcases List.le_iff_lt_or_eq.mp (List.not_lt.mp hle) with hlt | rfl
  · exact List.lt_asymm h (encode_lt_encode hlt)
  · exact List.lt_irrefl _ h

end Lib.Text
