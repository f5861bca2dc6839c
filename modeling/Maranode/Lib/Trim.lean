/-
  Maranode.Lib.Trim

  Trimming a text.

  What is left of a text stands behind its indent, and white space is behind it
  (`exists_trim`): it has every character that is not white (`black_span`), and starts and ends
  with one.  So what is left of a part is in what is left of the whole (`trim_infix`), and
  neither trimming nor reading lines takes more than white space (`black_trim`, `black_lines`).
-/
import Maranode.Lib.Separated
import Mathlib.Data.List.Basic

namespace Lib.Text

/-! ## The end of a text -/

/-- `str::trim_end`. -/
def trimEnd (cs : Text) : Text := (cs.reverse.dropWhile isWhite).reverse

/-- Only white space goes. -/
theorem trimEnd_append_white (cs : Text) : ∃ white, trimEnd cs ++ white = cs ∧
    ∀ c ∈ white, isWhite c = true := by
  refine ⟨(cs.reverse.takeWhile isWhite).reverse, ?_, fun c hc => ?_⟩
  · rw [trimEnd, ← List.reverse_append, List.takeWhile_append_dropWhile, List.reverse_reverse]
  · exact List.mem_takeWhile_imp (List.mem_reverse.mp hc)

/-- Nothing goes in front of a character that is not white. -/
theorem trimEnd_append_cons {c : Char} (hc : isWhite c = false) (as bs : Text) :
    trimEnd (as ++ c :: bs) = as ++ c :: trimEnd bs := by
  have hsplit : (as ++ c :: bs).reverse = bs.reverse ++ c :: as.reverse := by
    rw [List.reverse_append, List.reverse_cons, List.append_assoc]
    rfl
  rw [trimEnd, hsplit, List.dropWhile_append]
  split
  · next hall =>
      rw [List.isEmpty_iff] at hall
      rw [List.dropWhile_cons_of_neg (by rw [hc]; exact Bool.false_ne_true), trimEnd, hall,
        List.reverse_cons, List.reverse_reverse, List.reverse_nil]
  · rw [List.reverse_append, List.reverse_cons, List.reverse_reverse, List.append_assoc, trimEnd]
    rfl

/-! ## Where a trimmed text stands -/

/-- The white space in front of a text. -/
def indent (cs : Text) : Nat := (cs.takeWhile isWhite).length

theorem trim_eq_trimEnd (cs : Text) : trim cs = trimEnd (cs.dropWhile isWhite) := rfl

theorem drop_indent (cs : Text) : cs.drop (indent cs) = cs.dropWhile isWhite := by
  rw [indent]
  nth_rewrite 2 [← List.takeWhile_append_dropWhile (p := isWhite) (l := cs)]
  exact List.drop_left

/-- Behind the white space in front of a text is what is trimmed of it, and white space. -/
theorem exists_trim (cs : Text) : ∃ white, cs.drop (indent cs) = trim cs ++ white ∧
    ∀ c ∈ white, isWhite c = true := by
  obtain ⟨white, hwhite, hall⟩ := trimEnd_append_white (cs.dropWhile isWhite)
  refine ⟨white, ?_, hall⟩
  rw [trim_eq_trimEnd, hwhite, drop_indent]

theorem indent_le (cs : Text) : indent cs ≤ cs.length :=
  (List.takeWhile_sublist isWhite).length_le

theorem indent_add_le (cs : Text) : indent cs + (trim cs).length ≤ cs.length := by
  obtain ⟨white, hdrop, -⟩ := exists_trim cs
  have hlen := congrArg List.length hdrop
  have hle := indent_le cs
  rw [List.length_append, List.length_drop] at hlen
  omega

theorem take_drop_indent (cs : Text) : (cs.drop (indent cs)).take (trim cs).length = trim cs := by
  obtain ⟨white, hdrop, -⟩ := exists_trim cs
  rw [hdrop, List.take_left]

theorem isWhite_of_lt_indent {cs : Text} {i : Nat} {c : Char} (hc : cs[i]? = some c)
    (hi : i < indent cs) : isWhite c = true := by
  rw [← List.takeWhile_append_dropWhile (p := isWhite) (l := cs),
    List.getElem?_append_left hi] at hc
  exact List.mem_takeWhile_imp (List.mem_of_getElem? hc)

/-- A character that is not white is left when the text is trimmed. -/
theorem black_span {cs : Text} {i : Nat} {c : Char} (hc : cs[i]? = some c)
    (hblack : isWhite c = false) : indent cs ≤ i ∧ i < indent cs + (trim cs).length := by
  have hi : indent cs ≤ i := by
    by_contra hlt
    rw [isWhite_of_lt_indent hc (Nat.lt_of_not_le hlt)] at hblack
    cases hblack
  refine ⟨hi, ?_⟩
  obtain ⟨white, hdrop, hwhite⟩ := exists_trim cs
  by_contra hge
  have hafter : (trim cs ++ white)[i - indent cs]? = some c := by
    rw [← hdrop, List.getElem?_drop, Nat.add_sub_cancel' hi, hc]
  rw [List.getElem?_append_right (by omega)] at hafter
  rw [hwhite c (List.mem_of_getElem? hafter)] at hblack
  cases hblack

/-- What is left of a text does not start with white space. -/
theorem exists_black {cs : Text} (h : trim cs ≠ []) :
    ∃ c, cs[indent cs]? = some c ∧ isWhite c = false := by
  have hne : cs.dropWhile isWhite ≠ [] := by
    intro hnil
    rw [trim, hnil] at h
    exact h rfl
  obtain ⟨c, rest, hcs⟩ := List.exists_cons_of_ne_nil hne
  refine ⟨c, ?_, head_dropWhile (by rw [hcs]; rfl)⟩
  rw [← List.head?_drop, drop_indent, hcs]
  rfl

theorem trim_eq_cons {cs : Text} (h : trim cs ≠ []) :
    ∃ c rest, trim cs = c :: rest ∧ isWhite c = false := by
  obtain ⟨white, hdrop, -⟩ := exists_trim cs
  obtain ⟨c, rest, htrim⟩ := List.exists_cons_of_ne_nil h
  have hhead : (cs.dropWhile isWhite).head? = some c := by
    rw [← drop_indent, hdrop, htrim]
    rfl
  exact ⟨c, rest, htrim, head_dropWhile hhead⟩

theorem trim_eq_append {cs : Text} (h : trim cs ≠ []) :
    ∃ front d, trim cs = front ++ [d] ∧ isWhite d = false := by
  rw [trim] at h ⊢
  obtain ⟨d, rest, hrest⟩ := List.exists_cons_of_ne_nil fun hnil => h (congrArg List.reverse hnil)
  refine ⟨rest.reverse, d, ?_, head_dropWhile (by rw [hrest]; rfl)⟩
  rw [hrest, List.reverse_cons]

theorem dropWhile_append_cons {c : Char} (hc : isWhite c = false) (as bs : Text) :
    (as ++ c :: bs).dropWhile isWhite = as.dropWhile isWhite ++ c :: bs := by
  have hstop : (c :: bs).dropWhile isWhite = c :: bs :=
    List.dropWhile_cons_of_neg (by rw [hc]; exact Bool.false_ne_true)
  rw [List.dropWhile_append]
  split
  · next hnil => rw [List.isEmpty_iff.mp hnil, hstop, List.nil_append]
  · rfl

/-- What is left of a part is in what is left of the whole. -/
theorem trim_infix (as cs bs : Text) : trim cs <:+: trim (as ++ (cs ++ bs)) := by
  by_cases hne : trim cs = []
  · rw [hne]
    exact List.nil_infix
  · obtain ⟨white, hdrop, -⟩ := exists_trim cs
    obtain ⟨c, rest, htrim, hc⟩ := trim_eq_cons hne
    obtain ⟨front, d, hlast, hd⟩ := trim_eq_append hne
    have hcs : cs = cs.take (indent cs) ++ (trim cs ++ white) := by
      rw [← hdrop, List.take_append_drop]
    have hall : as ++ (cs ++ bs) = as ++ cs.take (indent cs) ++ (trim cs ++ (white ++ bs)) := by
      nth_rewrite 1 [hcs]
      simp only [List.append_assoc]
    have hfront : (as ++ (cs ++ bs)).dropWhile isWhite =
        (as ++ cs.take (indent cs)).dropWhile isWhite ++ (trim cs ++ (white ++ bs)) := by
      rw [hall, htrim]
      exact dropWhile_append_cons hc _ _
    have hback : trimEnd ((as ++ cs.take (indent cs)).dropWhile isWhite ++
        (trim cs ++ (white ++ bs))) =
        (as ++ cs.take (indent cs)).dropWhile isWhite ++ (trim cs ++ trimEnd (white ++ bs)) := by
      have hcons := trimEnd_append_cons hd
        ((as ++ cs.take (indent cs)).dropWhile isWhite ++ front) (white ++ bs)
      rw [hlast]
      simpa only [List.append_assoc, List.singleton_append] using hcons
    rw [trim_eq_trimEnd (as ++ (cs ++ bs)), hfront, hback]
    exact ⟨_, _, List.append_assoc _ _ _⟩

/-! ## White space left out -/

/-- A text without its white space. -/
def black (cs : Text) : Text := cs.filter fun c => !isWhite c

@[simp] theorem black_nil : black [] = [] := rfl

@[simp] theorem black_append (cs ds : Text) : black (cs ++ ds) = black cs ++ black ds :=
  List.filter_append cs ds

theorem black_of_white {cs : Text} (h : ∀ c ∈ cs, isWhite c = true) : black cs = [] := by
  refine List.filter_eq_nil_iff.mpr fun c hc => ?_
  rw [h c hc]
  exact Bool.false_ne_true

/-- Trimming takes white space. -/
@[simp] theorem black_trim (cs : Text) : black (trim cs) = black cs := by
  obtain ⟨white, hdrop, hwhite⟩ := exists_trim cs
  have hfront : black (cs.take (indent cs)) = [] := by
    refine black_of_white fun c hc => ?_
    obtain ⟨i, hi, hget⟩ := List.mem_take_iff_getElem.mp hc
    exact isWhite_of_lt_indent (List.getElem?_eq_some_iff.mpr ⟨by omega, hget⟩) (by omega)
  have hsplit : cs = cs.take (indent cs) ++ (trim cs ++ white) := by
    rw [← hdrop, List.take_append_drop]
  have hblack := congrArg black hsplit
  rw [black_append, black_append, hfront, black_of_white hwhite, List.append_nil] at hblack
  exact hblack.symm

theorem black_eq_nil_of_trim {cs : Text} (h : trim cs = []) : black cs = [] := by
  rw [← black_trim, h, black_nil]

/-- A carriage return at the end of a line is white space. -/
theorem black_stripCr (l : Text) : black (stripCr l) = black l := by
  rw [stripCr]
  split
  · next hcr =>
      have hl := List.dropLast_append_getLast? '\r' hcr
      nth_rewrite 2 [← hl]
      rw [black_append]
      exact (List.append_nil _).symm
  · rfl

theorem black_linesFrom (acc cs : Text) :
    black (joinLines (linesFrom acc cs)) = black acc ++ black cs := by
  induction cs generalizing acc with
  | nil =>
      rw [linesFrom]
      split
      · next hacc => rw [hacc]; rfl
      · simp [joinLines, black, isWhite]
  | cons c cs ih =>
      rw [linesFrom]
      split
      · next hc =>
          have hbreak : black ['\n'] = [] := by decide
          rw [joinLines_cons, hc, ← List.singleton_append, black_append, black_append,
            black_stripCr, ih, ← List.singleton_append (l := cs), black_append, hbreak]
          rfl
      · rw [ih, black_append, List.append_assoc, ← black_append]
        rfl

/-- Reading lines loses white space only. -/
theorem black_lines (cs : Text) : black (joinLines (lines cs)) = black cs := by
  rw [lines, black_linesFrom]
  rfl

end Lib.Text
