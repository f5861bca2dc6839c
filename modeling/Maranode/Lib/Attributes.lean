/-
  Maranode.Lib.Attributes

  Log lines with attributes `key=value`.

  In one format blanks stand between the attributes and a backslash takes its meaning
  from an equals sign in a value; a reader finds a key in front of each equals sign that
  has kept it (`keysOf_intercalate`).  In the other a tab stands between them, and
  neither values nor keys have one (`tabKeysOf_intercalate`).
-/
import Maranode.Lib.Text

namespace Lib.Attributes

/-! ## Lines -/

/-- The pieces between line feeds that have something in them. -/
def records (t : Text) : List Text := (t.splitOn '\n').filter fun l => !l.isEmpty

@[simp] theorem records_nil : records [] = [] := rfl

theorem records_append_newline {l : Text} (hl : '\n' ∉ l) (hne : l ≠ []) (t : Text) :
    records (l ++ '\n' :: t) = l :: records t := by
  have hfilter : [l].filter (fun l => !l.isEmpty) = [l] :=
    List.filter_eq_self.mpr fun _ h => by simpa [List.mem_singleton.mp h] using hne
  rw [records, List.splitOn_append_cons_self, List.splitOn_eq_singleton hl, List.filter_append,
    hfilter, List.singleton_append, records]

theorem records_of_notMem {l : Text} (hl : '\n' ∉ l) (hne : l ≠ []) : records l = [l] := by
  rw [records, List.splitOn_eq_singleton hl]
  exact List.filter_eq_self.mpr fun _ h => by simpa [List.mem_singleton.mp h] using hne

/-- One line for each thing that is written. -/
theorem records_flatMap {α : Type} {line : α → Text} (h : ∀ a, '\n' ∉ line a ∧ line a ≠ [])
    (as : List α) : records (as.flatMap fun a => line a ++ ['\n']) = as.map line := by
  induction as with
  | nil => rfl
  | cons a as ih =>
      rw [List.flatMap_cons, List.append_assoc, List.singleton_append,
        records_append_newline (h a).1 (h a).2, ih, List.map_cons]

/-! ## Escapes -/

/-- The pieces between separators, those after a backslash apart. -/
def splitUnescaped (sep : Char) (acc : Text) : Text → List Text
  | [] => [acc]
  | '\\' :: c :: cs => splitUnescaped sep (acc ++ ['\\', c]) cs
  | c :: cs =>
      if c = sep then acc :: splitUnescaped sep [] cs
      else splitUnescaped sep (acc ++ [c]) cs

theorem splitUnescaped_escape (sep : Char) (acc : Text) (c : Char) (cs : Text) :
    splitUnescaped sep acc ('\\' :: c :: cs) = splitUnescaped sep (acc ++ ['\\', c]) cs := by
  rw [splitUnescaped]

theorem splitUnescaped_cons {c : Char} (hc : c ≠ '\\') (sep : Char) (acc cs : Text) :
    splitUnescaped sep acc (c :: cs) =
      if c = sep then acc :: splitUnescaped sep [] cs else splitUnescaped sep (acc ++ [c]) cs := by
  rw [splitUnescaped]
  rintro d ds rfl
  exact absurd rfl hc

theorem splitUnescaped_ne_nil (sep : Char) (acc cs : Text) : splitUnescaped sep acc cs ≠ [] := by
  fun_induction splitUnescaped sep acc cs with
  | case1 acc => exact List.cons_ne_nil _ _
  | case2 acc c cs ih => exact ih
  | case3 acc cs _ _ => exact List.cons_ne_nil _ _
  | case4 acc c cs _ _ ih => exact ih

/-- No separator in it stands for itself, whatever is around it. -/
def Escaped (sep : Char) (w : Text) : Prop :=
  ∀ acc rest, splitUnescaped sep acc (w ++ rest) = splitUnescaped sep (acc ++ w) rest

variable {sep : Char} {w w' : Text}

theorem escaped_nil : Escaped sep [] := fun acc rest => by rw [List.nil_append, List.append_nil]

theorem Escaped.append (h : Escaped sep w) (h' : Escaped sep w') : Escaped sep (w ++ w') :=
  fun acc rest => by rw [List.append_assoc, h, h', List.append_assoc]

theorem escaped_escape (c : Char) : Escaped sep ['\\', c] :=
  fun acc rest => splitUnescaped_escape sep acc c rest

theorem escaped_singleton {c : Char} (hsep : c ≠ sep) (hc : c ≠ '\\') : Escaped sep [c] :=
  fun acc rest => by rw [List.singleton_append, splitUnescaped_cons hc, if_neg hsep]

theorem escaped_flatMap {f : Char → Text} {s : Text} (h : ∀ c ∈ s, Escaped sep (f c)) :
    Escaped sep (s.flatMap f) := by
  induction s with
  | nil => exact escaped_nil
  | cons c s ih =>
      rw [List.flatMap_cons]
      exact (h c List.mem_cons_self).append (ih fun d hd => h d (List.mem_cons_of_mem _ hd))

theorem escaped_of_notMem (hsep : sep ∉ w) (hback : '\\' ∉ w) : Escaped sep w := by
  have h : Escaped sep (w.flatMap fun c => [c]) := escaped_flatMap fun c hc =>
    escaped_singleton (fun heq => hsep (heq ▸ hc)) (fun heq => hback (heq ▸ hc))
  rwa [List.flatMap_singleton'] at h

/-- What follows the first separator that no backslash stands in front of. -/
def dropField (sep : Char) : Text → Text
  | [] => []
  | '\\' :: _ :: cs => dropField sep cs
  | c :: cs => if c = sep then cs else dropField sep cs

theorem dropField_append (hsep : sep ∉ w) (hback : '\\' ∉ w) (hne : sep ≠ '\\') (rest : Text) :
    dropField sep (w ++ sep :: rest) = rest := by
  have hcons : ∀ (c : Char) (cs : Text), c ≠ '\\' →
      dropField sep (c :: cs) = if c = sep then cs else dropField sep cs := by
    intro c cs hc
    rw [dropField]
    rintro d ds rfl
    exact absurd rfl hc
  induction w with
  | nil => rw [List.nil_append, hcons _ _ hne, if_pos rfl]
  | cons c w ih =>
      have hc : c ≠ '\\' := fun heq => hback (heq ▸ List.mem_cons_self)
      have hc' : c ≠ sep := fun heq => hsep (heq ▸ List.mem_cons_self)
      rw [List.cons_append, hcons _ _ hc, if_neg hc']
      exact ih (fun hmem => hsep (List.mem_cons_of_mem _ hmem))
        (fun hmem => hback (List.mem_cons_of_mem _ hmem))

/-! ## Keys -/

/-- What stands in front of the first equals sign. -/
def keyOf (part : Text) : Text := part.takeWhile fun c => c != '='

theorem keyOf_append {k : Text} (hk : '=' ∉ k) (v : Text) : keyOf (k ++ '=' :: v) = k := by
  have hne : ∀ c ∈ k, (c != '=') = true := fun c hc =>
    bne_iff_ne.mpr fun heq => hk (heq ▸ hc)
  rw [keyOf, List.takeWhile_append_of_pos hne,
    List.takeWhile_cons_of_neg (by decide), List.append_nil]

/-! ### Between blanks -/

/-- What follows the last blank. -/
def lastWord (t : Text) : Text := (t.reverse.takeWhile fun c => c != ' ').reverse

/-- A key in front of each equals sign that stands for itself. -/
def keysOf (t : Text) : List Text := (splitUnescaped '=' [] t).dropLast.map lastWord

/-- An attribute whose only equals sign that stands for itself is the one after the key. -/
def IsAttribute (part : Text) : Prop :=
  ∃ k v, part = k ++ '=' :: v ∧ ('=' ∉ k ∧ '\\' ∉ k ∧ ' ' ∉ k) ∧ Escaped '=' v

/-- A key and its equals sign. -/
def IsKeyPrefix (t : Text) : Prop :=
  t.getLast? = some '=' ∧ '=' ∉ t.dropLast ∧ '\\' ∉ t.dropLast ∧ ' ' ∉ t.dropLast

instance (t : Text) : Decidable (IsKeyPrefix t) := inferInstanceAs (Decidable (_ ∧ _))

theorem IsKeyPrefix.isAttribute {t v : Text} (h : IsKeyPrefix t) (hv : Escaped '=' v) :
    IsAttribute (t ++ v) := by
  obtain ⟨k, rfl⟩ := List.getLast?_eq_some_iff.mp h.1
  have hk := h.2
  rw [List.dropLast_concat] at hk
  exact ⟨k, v, by rw [List.append_assoc, List.singleton_append], hk, hv⟩

theorem lastWord_append {k acc : Text} (hk : ' ' ∉ k) (hacc : acc = [] ∨ acc.getLast? = some ' ') :
    lastWord (acc ++ k) = k := by
  have hne : ∀ c ∈ k.reverse, (c != ' ') = true := fun c hc =>
    bne_iff_ne.mpr fun heq => hk (heq ▸ List.mem_reverse.mp hc)
  rw [lastWord, List.reverse_append, List.takeWhile_append_of_pos hne, List.reverse_append,
    List.reverse_reverse]
  rcases hacc with rfl | hlast
  · rfl
  · obtain ⟨init, rfl⟩ := List.getLast?_eq_some_iff.mp hlast
    rw [List.reverse_append, List.reverse_singleton, List.singleton_append,
      List.takeWhile_cons_of_neg (by decide)]
    rfl

/-- Each attribute is found, from wherever the last one ended. -/
theorem keys_splitUnescaped {parts : List Text} (hparts : ∀ p ∈ parts, IsAttribute p)
    (hne : parts ≠ []) {last : Text} (hlast : Escaped '=' last) {acc : Text}
    (hacc : acc = [] ∨ acc.getLast? = some ' ') :
    (splitUnescaped '=' acc ([' '].intercalate parts ++ last)).dropLast.map lastWord =
      parts.map keyOf := by
  induction parts generalizing acc with
  | nil => exact absurd rfl hne
  | cons p parts ih =>
      obtain ⟨⟨k, v, rfl, hk, hv⟩, hrest⟩ := List.forall_mem_cons.mp hparts
      -- The key has no sign of its own, so the first sign is the one behind it.
      have hhead : ∀ t, splitUnescaped '=' acc (k ++ '=' :: v ++ t) =
          (acc ++ k) :: splitUnescaped '=' v t := by
        intro t
        rw [List.append_assoc, escaped_of_notMem hk.1 hk.2.1 acc, List.cons_append,
          splitUnescaped_cons (by decide), if_pos rfl, hv [] t, List.nil_append]
      cases parts with
      -- Behind the last attribute the rest of the text has no sign.
      | nil =>
          have hend : splitUnescaped '=' v last = [v ++ last] := by
            have := hlast v []
            rwa [List.append_nil, splitUnescaped] at this
          rw [List.intercalate_singleton, hhead, hend, List.dropLast_cons_cons,
            List.dropLast_singleton, List.map_singleton, List.map_singleton,
            lastWord_append hk.2.2 hacc, keyOf_append hk.1]
      | cons q parts =>
          -- The next key is found behind the blank that ends this value.
          have hnext : (splitUnescaped '=' (v ++ [' '])
              ([' '].intercalate (q :: parts) ++ last)).dropLast.map lastWord =
                (q :: parts).map keyOf :=
            ih hrest (List.cons_ne_nil q parts) (Or.inr List.getLast?_concat)
          have hne' := splitUnescaped_ne_nil '=' (v ++ [' ']) ([' '].intercalate (q :: parts) ++ last)
          rw [List.intercalate_cons_cons, List.append_assoc, List.append_assoc, hhead,
            escaped_singleton (by decide) (by decide) v, List.dropLast_cons_of_ne_nil hne',
            List.map_cons, hnext, lastWord_append hk.2.2 hacc, List.map_cons, List.map_cons,
            List.map_cons, keyOf_append hk.1]

/-- **Keys between blanks.**  The reader finds the keys that were written, and no other. -/
theorem keysOf_intercalate {parts : List Text} (hparts : ∀ p ∈ parts, IsAttribute p)
    (hne : parts ≠ []) {last : Text} (hlast : Escaped '=' last) :
    keysOf ([' '].intercalate parts ++ last) = parts.map keyOf :=
  keys_splitUnescaped hparts hne hlast (Or.inl rfl)

/-! ### Between tabs -/

def tabKeysOf (t : Text) : List Text :=
  ((t.splitOn '\t').filter fun p => !p.isEmpty).map keyOf

/-- **Keys between tabs.**  The same, when no part has a tab. -/
theorem tabKeysOf_intercalate {parts : List Text} (hparts : ∀ p ∈ parts, '\t' ∉ p ∧ p ≠ []) :
    tabKeysOf ('\t' :: ['\t'].intercalate parts) = parts.map keyOf := by
  have hfilter : parts.filter (fun p => !p.isEmpty) = parts :=
    List.filter_eq_self.mpr fun p hp => by simpa using (hparts p hp).2
  cases parts with
  | nil => rfl
  | cons p parts =>
      rw [tabKeysOf, ← List.nil_append ('\t' :: _), List.splitOn_append_cons_self, List.splitOn_nil,
        List.splitOn_intercalate '\t' (fun l hl => (hparts l hl).1) (List.cons_ne_nil p parts),
        List.filter_append, hfilter]
      rfl

end Lib.Attributes
