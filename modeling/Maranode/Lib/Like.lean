/-
  Maranode.Lib.Like

  `LIKE` of SQLite, over texts without NUL.

  `%` stands for any text and `_` for any character; letters of ASCII match in either case.
  A pattern that ends in `%` and has no wildcard before it asks how a text begins.
-/
import Mathlib.Data.List.Infix

namespace Lib.Like

/-- `s LIKE p`. -/
def like : List Char → List Char → Bool
  | [], s => s.isEmpty
  | c :: p, s =>
      if c = '%' then s.tails.any (like p)
      else
        match s with
        | [] => false
        | x :: s => (c = '_' || c.toLower == x.toLower) && like p s

/-- The character stands for itself. -/
def Literal (c : Char) : Prop := c ≠ '%' ∧ c ≠ '_'

variable {p s lit : List Char} {c x : Char}

theorem like_percent : like ('%' :: p) s = true ↔ ∃ t, t <:+ s ∧ like p t = true := by
  rw [like.eq_def]
  dsimp only
  rw [if_pos rfl, List.any_eq_true]
  simp only [List.mem_tails]

/-- Nothing but `%` takes what is left. -/
theorem like_any (s : List Char) : like ['%'] s = true :=
  like_percent.mpr ⟨[], List.nil_suffix, rfl⟩

theorem like_literal (hc : Literal c) :
    like (c :: p) s = true ↔ ∃ x t, s = x :: t ∧ c.toLower = x.toLower ∧ like p t = true := by
  rw [like.eq_def]
  dsimp only
  rw [if_neg hc.1]
  cases s with
  | nil =>
      refine iff_of_false Bool.false_ne_true ?_
      rintro ⟨x, t, ⟨⟩, -⟩
  | cons x s =>
      dsimp only
      rw [decide_eq_false hc.2, Bool.false_or, Bool.and_eq_true, beq_iff_eq]
      constructor
      · rintro ⟨hsame, hrest⟩
        exact ⟨x, s, rfl, hsame, hrest⟩
      · rintro ⟨x', t, heq, hsame, hrest⟩
        obtain ⟨rfl, rfl⟩ := List.cons_eq_cons.mp heq
        exact ⟨hsame, hrest⟩

/-- Literals, up to the case of letters, and then the rest of the pattern. -/
theorem like_literals_append (hlit : ∀ c ∈ lit, Literal c) :
    like (lit ++ p) s = true ↔
      ∃ a t, s = a ++ t ∧ a.map Char.toLower = lit.map Char.toLower ∧ like p t = true := by
  induction lit generalizing s with
  | nil =>
      constructor
      · intro h
        exact ⟨[], s, rfl, rfl, h⟩
      · rintro ⟨a, t, rfl, hempty, h⟩
        rw [List.map_nil, List.map_eq_nil_iff] at hempty
        rwa [hempty]
  | cons c lit ih =>
      have hrest : ∀ c ∈ lit, Literal c := fun c hc => hlit c (List.mem_cons_of_mem _ hc)
      rw [List.cons_append, like_literal (hlit c List.mem_cons_self)]
      constructor
      · rintro ⟨x, s', rfl, hsame, hlike⟩
        obtain ⟨a, t, rfl, hmap, htail⟩ := (ih hrest).mp hlike
        refine ⟨x :: a, t, rfl, ?_, htail⟩
        rw [List.map_cons, List.map_cons, hmap, hsame]
      · rintro ⟨a, t, rfl, hmap, htail⟩
        cases a with
        | nil => cases hmap
        | cons x a =>
            rw [List.map_cons, List.map_cons] at hmap
            obtain ⟨hhead, hmap⟩ := List.cons_eq_cons.mp hmap
            exact ⟨x, a ++ t, rfl, hhead.symm, (ih hrest).mpr ⟨a, t, rfl, hmap, htail⟩⟩

/-- How a text begins, up to the case of letters. -/
theorem like_begins (hlit : ∀ c ∈ lit, Literal c) :
    like (lit ++ ['%']) s = true ↔ lit.map Char.toLower <+: s.map Char.toLower := by
  rw [like_literals_append hlit]
  constructor
  · rintro ⟨a, t, rfl, hmap, -⟩
    rw [List.map_append, hmap]
    exact List.prefix_append _ _
  · rintro ⟨rest, hrest⟩
    obtain ⟨a, t, rfl, ha, -⟩ := List.map_eq_append_iff.mp hrest.symm
    exact ⟨a, t, rfl, ha, like_any t⟩

/-- How a text begins, when no letter of it or of the pattern is a capital. -/
theorem like_begins_lower (hlit : ∀ c ∈ lit, Literal c) (hlow : ∀ c ∈ lit, c.toLower = c)
    (hs : ∀ x ∈ s, x.toLower = x) : like (lit ++ ['%']) s = true ↔ lit <+: s := by
  rw [like_begins hlit, List.map_congr_left hlow, List.map_congr_left hs, List.map_id',
    List.map_id']

end Lib.Like
