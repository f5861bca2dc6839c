/-
  Maranode.Lib.Separated

  A list of texts kept as one text: the items are written with a separator between
  them, and read back by splitting, trimming and dropping what is empty then.

  Reading gives the pieces of each item in turn (`parse_render`), so an item comes back
  as it was written exactly when it is its own only piece (`parse_of_plain`).
-/
import Maranode.Lib.Encoding
import Mathlib.Data.List.TakeWhile

namespace Lib

namespace Text

/-! ## Trimming -/

theorem head_dropWhile {p : Char → Bool} {cs : Text} {c : Char}
    (h : (cs.dropWhile p).head? = some c) : p c = false := by
  have hnot := List.head?_dropWhile_not p cs
  rw [h] at hnot
  simpa using hnot

theorem dropWhile_eq_self_of_head {p : Char → Bool} {cs : Text}
    (h : ∀ c, cs.head? = some c → p c = false) : cs.dropWhile p = cs := by
  cases cs with
  | nil => rfl
  | cons c cs => exact List.dropWhile_cons_of_neg (by rw [h c rfl]; exact Bool.false_ne_true)

/-- What is dropped in front of a text is white, and so are the ends of what is trimmed. -/
theorem trim_sublist (cs : Text) : (trim cs).Sublist cs := by
  have hback : (trim cs).Sublist (cs.dropWhile isWhite) := by
    rw [trim, ← List.reverse_sublist, List.reverse_reverse]
    exact List.dropWhile_sublist isWhite
  exact hback.trans (List.dropWhile_sublist isWhite)

/-- Nothing is left of white space only. -/
theorem trim_eq_nil_iff {cs : Text} : trim cs = [] ↔ ∀ c ∈ cs, isWhite c = true := by
  rw [trim, List.reverse_eq_nil_iff, List.dropWhile_eq_nil_iff]
  constructor
  · intro h
    cases hcs : cs.dropWhile isWhite with
    | nil => exact List.dropWhile_eq_nil_iff.mp hcs
    | cons c rest =>
        -- The first character that is left would be white and not white.
        have hwhite := h c (List.mem_reverse.mpr (hcs ▸ List.mem_cons_self))
        have hnot : isWhite c = false := head_dropWhile (by rw [hcs]; rfl)
        rw [hnot] at hwhite
        cases hwhite
  · intro h c hc
    exact h c ((List.dropWhile_sublist isWhite).subset (List.mem_reverse.mp hc))

/-- Trimming twice is trimming once. -/
theorem trim_trim (cs : Text) : trim (trim cs) = trim cs := by
  have hlast : (trim cs).reverse.dropWhile isWhite = (trim cs).reverse := by
    rw [trim, List.reverse_reverse]
    exact dropWhile_eq_self_of_head fun c hc => head_dropWhile hc
  have hfirst : (trim cs).dropWhile isWhite = trim cs := by
    refine dropWhile_eq_self_of_head fun c hc => ?_
    -- The first character of a trimmed text is the first one that is not white.
    have hprefix : trim cs <+: cs.dropWhile isWhite := by
      rw [trim, ← List.reverse_suffix, List.reverse_reverse]
      exact List.dropWhile_suffix isWhite
    obtain ⟨rest, hrest⟩ := hprefix
    have hhead : (cs.dropWhile isWhite).head? = some c := by
      rw [← hrest, List.head?_append, hc]
      rfl
    exact head_dropWhile hhead
  rw [trim, hfirst, hlast, List.reverse_reverse]

end Text

/-! ## Writing and reading -/

namespace Separated

/-- The items with the separator between them. -/
def render (sep : Char) (items : List Text) : Text := [sep].intercalate items

/-- The pieces between separators, trimmed, without the empty ones. -/
def parse (sep : Char) (cs : Text) : List Text :=
  ((cs.splitOn sep).map Text.trim).filter fun piece => !piece.isEmpty

variable {sep : Char} {cs piece : Text} {items : List Text}

theorem render_cons_cons (item item' : Text) (items : List Text) :
    render sep (item :: item' :: items) = item ++ sep :: render sep (item' :: items) := by
  rw [render, List.intercalate_cons_cons, List.append_assoc]
  rfl

theorem mem_render {c : Char} (h : c ∈ render sep items) : c = sep ∨ ∃ item ∈ items, c ∈ item := by
  induction items with
  | nil => cases h
  | cons item items ih =>
      cases items with
      | nil =>
          rw [render, List.intercalate_singleton] at h
          exact .inr ⟨item, List.mem_cons_self, h⟩
      | cons item' items =>
          rw [render_cons_cons, List.mem_append, List.mem_cons] at h
          rcases h with h | h | h
          · exact .inr ⟨item, List.mem_cons_self, h⟩
          · exact .inl h
          · obtain hc | ⟨other, hother, hc⟩ := ih h
            · exact .inl hc
            · exact .inr ⟨other, List.mem_cons_of_mem _ hother, hc⟩

@[simp] theorem parse_nil : parse sep [] = [] := rfl

theorem parse_append_cons (xs ys : Text) :
    parse sep (xs ++ sep :: ys) = parse sep xs ++ parse sep ys := by
  rw [parse, List.splitOn_append_cons_self, List.map_append, List.filter_append]
  rfl

/-- Reading what was written gives the pieces of each item. -/
theorem parse_render (items : List Text) :
    parse sep (render sep items) = items.flatMap (parse sep) := by
  induction items with
  | nil => rfl
  | cons item items ih =>
      cases items with
      | nil => rw [render, List.intercalate_singleton, List.flatMap_singleton]
      | cons item' items =>
          rw [render_cons_cons, parse_append_cons, ih, List.flatMap_cons (x := item)]

/-- A text that is trimmed and has no separator is its own piece. -/
theorem parse_of_plain (hsep : sep ∉ cs) (htrim : Text.trim cs = cs) (hne : cs ≠ []) :
    parse sep cs = [cs] := by
  rw [parse, List.splitOn_eq_singleton hsep, List.map_singleton, htrim]
  exact List.filter_eq_self.mpr fun _ h => by simpa [List.mem_singleton.mp h] using hne

/-- Between separators there is no separator, and nothing that was not there. -/
theorem mem_of_mem_splitOn (h : piece ∈ cs.splitOn sep) : sep ∉ piece ∧ piece ⊆ cs := by
  induction cs generalizing piece with
  | nil =>
      obtain rfl := List.mem_singleton.mp h
      exact ⟨List.not_mem_nil, List.nil_subset _⟩
  | cons c cs ih =>
      have hrest : ∀ q ∈ cs.splitOn sep, sep ∉ q ∧ q ⊆ c :: cs := fun q hq =>
        ⟨(ih hq).1, List.subset_cons_of_subset c (ih hq).2⟩
      rw [List.splitOn_cons_eq_if_modifyHead] at h
      split at h
      · rcases List.mem_cons.mp h with rfl | h
        · exact ⟨List.not_mem_nil, List.nil_subset _⟩
        · exact hrest piece h
      · next hc =>
          cases hsplit : cs.splitOn sep with
          | nil => exact absurd hsplit (List.splitOn_ne_nil sep cs)
          | cons first others =>
              rw [hsplit] at h hrest
              rcases List.mem_cons.mp h with rfl | h
              · obtain ⟨hfirst, hsub⟩ := hrest first List.mem_cons_self
                refine ⟨fun hmem => ?_, List.cons_subset.mpr ⟨List.mem_cons_self, hsub⟩⟩
                rcases List.mem_cons.mp hmem with rfl | hmem
                · exact hc (beq_self_eq_true sep)
                · exact hfirst hmem
              · exact hrest piece (List.mem_cons_of_mem _ h)

/-- A piece is trimmed and has no separator, and its characters are those of the text. -/
theorem mem_of_mem_parse (h : piece ∈ parse sep cs) :
    sep ∉ piece ∧ Text.trim piece = piece ∧ piece ⊆ cs := by
  obtain ⟨h, -⟩ := List.mem_filter.mp h
  obtain ⟨part, hpart, rfl⟩ := List.mem_map.mp h
  obtain ⟨hsep, hsub⟩ := mem_of_mem_splitOn hpart
  have htrim := (Text.trim_sublist part).subset
  exact ⟨fun hmem => hsep (htrim hmem), Text.trim_trim part, fun _ hc => hsub (htrim hc)⟩

/-- Nothing comes back of a text of separators and white space. -/
theorem parse_eq_nil_iff :
    parse sep cs = [] ↔ ∀ c ∈ cs, c = sep ∨ Text.isWhite c = true := by
  have hparts : parse sep cs = [] ↔ ∀ part ∈ cs.splitOn sep, Text.trim part = [] := by
    simp [parse, List.filter_eq_nil_iff]
  rw [hparts]
  constructor
  · intro h c hc
    -- The text is its parts with the separators between them.
    have hrender : c ∈ render sep (cs.splitOn sep) := by
      rwa [render, List.intercalate_splitOn]
    obtain rfl | ⟨part, hpart, hmem⟩ := mem_render hrender
    · exact .inl rfl
    · exact .inr (Text.trim_eq_nil_iff.mp (h part hpart) c hmem)
  · intro h part hpart
    rw [Text.trim_eq_nil_iff]
    intro c hc
    obtain ⟨hsep, hsub⟩ := mem_of_mem_splitOn hpart
    exact (h c (hsub hc)).resolve_left fun heq => hsep (heq ▸ hc)

end Separated

end Lib
