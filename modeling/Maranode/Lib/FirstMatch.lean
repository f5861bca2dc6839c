/-
  Maranode.Lib.FirstMatch

  Lists of rules of which the first that matches decides, over a policy for what no rule
  matches.

  Where all rules that match say the same, their order does not matter
  (`verdict_eq_iff_of_uniform`).
-/
import Mathlib.Data.List.Basic

namespace Lib.FirstMatch

variable {ρ α : Type} (target : ρ → Option α)

/-- What the first rule that matches says; `target` is what a rule says of what is at hand,
    when it matches. -/
def verdict (policy : α) : List ρ → α
  | [] => policy
  | rule :: rules => (target rule).getD (verdict policy rules)

variable {target} {policy : α} {rules : List ρ}

theorem verdict_cons_of_some {rule : ρ} {a : α} (h : target rule = some a) :
    verdict target policy (rule :: rules) = a := by
  rw [verdict, h, Option.getD_some]

theorem verdict_cons_of_none {rule : ρ} (h : target rule = none) :
    verdict target policy (rule :: rules) = verdict target policy rules := by
  rw [verdict, h, Option.getD_none]

/-- Rules that say `a` when they match, over another policy. -/
theorem verdict_eq_iff_of_uniform {a : α}
    (huniform : ∀ rule ∈ rules, ∀ b, target rule = some b → b = a) (hpolicy : policy ≠ a) :
    verdict target policy rules = a ↔ ∃ rule ∈ rules, target rule = some a := by
  induction rules with
  | nil => exact iff_of_false hpolicy nofun
  | cons rule rules ih =>
      obtain ⟨hrule, hrules⟩ := List.forall_mem_cons.mp huniform
      rw [List.exists_mem_cons_iff]
      cases htarget : target rule with
      | none =>
          rw [verdict_cons_of_none htarget, ih hrules]
          exact (or_iff_right nofun).symm
      | some b =>
          obtain rfl := hrule b htarget
          exact iff_of_true (verdict_cons_of_some htarget) (.inl rfl)

end Lib.FirstMatch
