/-
  Maranode.Lib.Code

  Codes in which no code is the beginning of another: what is coded one after the other
  can be told apart without separators.
-/
import Mathlib.Data.List.Basic

namespace Lib

variable {α β : Type} {code : α → List β}

/-- No code begins with the code of something else, and none is empty. -/
structure IsPrefixCode (code : α → List β) : Prop where
  eq_of_prefix : ∀ a b, code a <+: code b → a = b
  ne_nil : ∀ a, code a ≠ []

namespace IsPrefixCode

/-- The first of what is coded, and the rest. -/
theorem append_inj (h : IsPrefixCode code) {a b : α} {xs ys : List β}
    (heq : code a ++ xs = code b ++ ys) : a = b ∧ xs = ys := by
  have hab : a = b := by
    rcases List.prefix_or_prefix_of_prefix (List.prefix_append (code a) xs)
      (heq ▸ List.prefix_append (code b) ys) with hpre | hpre
    · exact h.eq_of_prefix a b hpre
    · exact (h.eq_of_prefix b a hpre).symm
  subst hab
  exact ⟨rfl, List.append_cancel_left heq⟩

/-- **Coding without separators.**  Lists that are coded alike are the same. -/
theorem flatMap_injective (h : IsPrefixCode code) :
    Function.Injective fun as : List α => as.flatMap code := by
  intro as
  induction as with
  | nil =>
      intro bs heq
      cases bs with
      | nil => rfl
      | cons b bs =>
          have hnil : code b ++ bs.flatMap code = [] := heq.symm
          exact absurd (List.append_eq_nil_iff.mp hnil).1 (h.ne_nil b)
  | cons a as ih =>
      intro bs heq
      cases bs with
      | nil =>
          have hnil : code a ++ as.flatMap code = [] := heq
          exact absurd (List.append_eq_nil_iff.mp hnil).1 (h.ne_nil a)
      | cons b bs =>
          obtain ⟨rfl, hrest⟩ := h.append_inj heq
          rw [ih hrest]

end IsPrefixCode

end Lib
