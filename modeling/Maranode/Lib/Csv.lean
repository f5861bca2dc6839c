/-
  Maranode.Lib.Csv

  Comma-separated values, read in the manner of RFC 4180: a record ends at a line
  feed, a carriage return or both, and between quotes neither counts.

  A writer puts a field between quotes or leaves it bare.  What it wrote reads back
  (`read_write`) unless a bare field has a carriage return; each of those makes one
  record more, so the number of records already tells (`length_read_write_iff`).
-/
import Maranode.Lib.Text

namespace Lib.Csv

def quoteMark : Char := Char.ofNat 34

/-! ## The reader -/

/-- Where the reader is. -/
inductive Mode where
  /-- at the start of a record -/
  | fresh
  /-- likewise, and the last one ended in a carriage return -/
  | cr
  /-- at the start of another field -/
  | start
  | bare
  | quoted
  /-- after a quote in a quoted field -/
  | closing
  deriving DecidableEq

/-- The reader, with the field and the record it has so far. -/
def readFrom (mode : Mode) (field : Text) (row : List Text) : Text → List (List Text)
  | [] => if mode = .fresh ∨ mode = .cr then [] else [row ++ [field]]
  | c :: cs =>
      if mode = .quoted then
        if c = quoteMark then readFrom .closing field row cs
        else readFrom .quoted (field ++ [c]) row cs
      else if c = quoteMark ∧ mode = .closing then
        -- A quote after a quote stands for one.
        readFrom .quoted (field ++ [c]) row cs
      else if c = quoteMark ∧ mode ≠ .bare then readFrom .quoted field row cs
      else if c = ',' then readFrom .start [] (row ++ [field]) cs
      else if c = '\n' then
        if mode = .cr then readFrom .fresh [] [] cs
        else (row ++ [field]) :: readFrom .fresh [] [] cs
      else if c = '\r' then (row ++ [field]) :: readFrom .cr [] [] cs
      else readFrom .bare (field ++ [c]) row cs

def read (t : Text) : List (List Text) := readFrom .fresh [] [] t

example : read "a,\"b\"\"\n\"\r\n,c\rd".toList =
    [["a".toList, "b\"\n".toList], [[], "c".toList], ["d".toList]] := by decide

/-- How many records there are does not depend on what is in them. -/
theorem length_readFrom (mode : Mode) (field field' : Text) (row row' : List Text) (t : Text) :
    (readFrom mode field row t).length = (readFrom mode field' row' t).length := by
  induction t generalizing mode field field' row row' with
  | nil =>
      rw [readFrom, readFrom]
      split_ifs <;> rfl
  | cons c t ih =>
      rw [readFrom, readFrom]
      split_ifs
      · exact ih ..
      · exact ih ..
      · exact ih ..
      · exact ih ..
      · exact ih ..
      · rfl
      · rfl
      · rfl
      · exact ih ..

/-- A comma ends the field. -/
theorem readFrom_comma {mode : Mode} (h : mode ≠ .quoted) (field : Text) (row : List Text)
    (t : Text) : readFrom mode field row (',' :: t) = readFrom .start [] (row ++ [field]) t := by
  have hquote : ',' ≠ quoteMark := by decide
  rw [readFrom, if_neg h, if_neg fun hc => hquote hc.1, if_neg fun hc => hquote hc.1, if_pos rfl]

/-- A line feed ends the record, except after the carriage return that did. -/
theorem readFrom_newline {mode : Mode} (h : mode ≠ .quoted) (hcr : mode ≠ .cr) (field : Text)
    (row : List Text) (t : Text) :
    readFrom mode field row ('\n' :: t) = (row ++ [field]) :: read t := by
  have hquote : '\n' ≠ quoteMark := by decide
  rw [readFrom, if_neg h, if_neg fun hc => hquote hc.1, if_neg fun hc => hquote hc.1,
    if_neg (by decide), if_pos rfl, if_neg hcr, read]

/-! ## Fields -/

/-- Nothing in it has to be quoted, carriage returns apart. -/
def Bare (f : Text) : Prop := ',' ∉ f ∧ quoteMark ∉ f ∧ '\n' ∉ f

instance (f : Text) : Decidable (Bare f) := inferInstanceAs (Decidable (_ ∧ _))

theorem Bare.tail {c : Char} {f : Text} (h : Bare (c :: f)) : Bare f :=
  ⟨fun hc => h.1 (List.mem_cons_of_mem _ hc), fun hc => h.2.1 (List.mem_cons_of_mem _ hc),
    fun hc => h.2.2 (List.mem_cons_of_mem _ hc)⟩

/-- A character of a bare field that is no carriage return. -/
theorem Bare.readFrom_cons {c : Char} {f : Text} (h : Bare (c :: f)) (hc : c ≠ '\r')
    {mode : Mode} (hmode : mode ≠ .quoted) (field : Text) (row : List Text) (t : Text) :
    readFrom mode field row (c :: t) = readFrom .bare (field ++ [c]) row t := by
  have hcomma : c ≠ ',' := fun heq => h.1 (heq ▸ List.mem_cons_self)
  have hquote : c ≠ quoteMark := fun heq => h.2.1 (heq ▸ List.mem_cons_self)
  have hnewline : c ≠ '\n' := fun heq => h.2.2 (heq ▸ List.mem_cons_self)
  rw [readFrom, if_neg hmode, if_neg fun hq => hquote hq.1, if_neg fun hq => hquote hq.1,
    if_neg hcomma, if_neg hnewline, if_neg hc]

/-- A bare field without carriage returns is read as it stands. -/
theorem Bare.readFrom_append {f : Text} (h : Bare f) (hcr : '\r' ∉ f) {mode : Mode}
    (hmode : mode ≠ .quoted) (hmode' : mode ≠ .cr) (field : Text) (row : List Text) :
    ∃ mode' : Mode, mode' ≠ .quoted ∧ mode' ≠ .cr ∧
      ∀ t, readFrom mode field row (f ++ t) = readFrom mode' (field ++ f) row t := by
  induction f generalizing mode field with
  | nil => exact ⟨mode, hmode, hmode', fun t => by rw [List.append_nil, List.nil_append]⟩
  | cons c f ih =>
      have hc : c ≠ '\r' := fun heq => hcr (heq ▸ List.mem_cons_self)
      have hbare : Mode.bare ≠ .quoted ∧ Mode.bare ≠ .cr := by decide
      obtain ⟨mode', hq, hr, hread⟩ := ih h.tail (fun hmem => hcr (List.mem_cons_of_mem _ hmem))
        hbare.1 hbare.2 (field ++ [c])
      refine ⟨mode', hq, hr, fun t => ?_⟩
      rw [List.cons_append, h.readFrom_cons hc hmode, hread, List.append_assoc,
        List.singleton_append]

/-- Each carriage return of a bare field makes one record more. -/
theorem Bare.length_readFrom_append {f : Text} (h : Bare f) {mode : Mode}
    (hmode : mode ≠ .quoted) (field : Text) (row : List Text) (t : Text) :
    (readFrom mode field row (f ++ ',' :: t)).length =
      f.count '\r' + (readFrom .start [] [] t).length := by
  induction f generalizing mode field row with
  | nil =>
      rw [List.nil_append, readFrom_comma hmode, List.count_nil, Nat.zero_add]
      exact length_readFrom ..
  | cons c f ih =>
      by_cases hc : c = '\r'
      · subst hc
        have hquote : '\r' ≠ quoteMark := by decide
        rw [List.cons_append, readFrom, if_neg hmode, if_neg fun hq => hquote hq.1,
          if_neg fun hq => hquote hq.1, if_neg (by decide), if_neg (by decide), if_pos rfl,
          List.length_cons, ih h.tail (by decide), List.count_cons_self]
        omega
      · rw [List.cons_append, h.readFrom_cons hc hmode, ih h.tail (by decide),
          List.count_cons_of_ne hc]

/-- A field between quotes, each quote in it twice. -/
def quoted (f : Text) : Text :=
  quoteMark :: (f.flatMap (fun c => if c = quoteMark then [c, c] else [c]) ++ [quoteMark])

theorem length_lt_quoted (f : Text) : f.length < (quoted f).length := by
  have hle : f.length ≤
      (f.flatMap fun c => if c = quoteMark then [c, c] else [c]).length := by
    induction f with
    | nil => exact Nat.le_refl _
    | cons c f ih =>
        have hpos : 0 < (if c = quoteMark then [c, c] else [c]).length := by
          split_ifs <;> exact Nat.succ_pos _
        rw [List.flatMap_cons, List.length_append, List.length_cons]
        omega
  rw [quoted, List.length_cons, List.length_append, List.length_singleton]
  omega

theorem quoted_ne (f : Text) : quoted f ≠ f :=
  fun h => Nat.ne_of_gt (length_lt_quoted f) (congrArg List.length h)

theorem readFrom_quoted_body (f : Text) (field : Text) (row : List Text) (t : Text) :
    readFrom .quoted field row
        (f.flatMap (fun c => if c = quoteMark then [c, c] else [c]) ++ t) =
      readFrom .quoted (field ++ f) row t := by
  induction f generalizing field with
  | nil => rw [List.flatMap_nil, List.nil_append, List.append_nil]
  | cons c f ih =>
      rw [List.flatMap_cons, List.append_assoc, List.append_cons field c f]
      by_cases hc : c = quoteMark
      · have hmode : Mode.closing ≠ .quoted := by decide
        rw [if_pos hc, List.cons_append, readFrom, if_pos rfl, if_pos hc, List.cons_append,
          readFrom, if_neg hmode, if_pos ⟨hc, rfl⟩, List.nil_append, ih]
      · rw [if_neg hc, List.cons_append, readFrom, if_pos rfl, if_neg hc, List.nil_append, ih]

/-- Whatever is in it, a field between quotes is one field. -/
theorem readFrom_quoted {mode : Mode} (hquoted : mode ≠ .quoted) (hclosing : mode ≠ .closing)
    (hbare : mode ≠ .bare) (f : Text) (row : List Text) (t : Text) :
    readFrom mode [] row (quoted f ++ t) = readFrom .closing f row t := by
  rw [quoted, List.cons_append, readFrom, if_neg hquoted, if_neg fun hc => hclosing hc.2,
    if_pos ⟨rfl, hbare⟩, List.append_assoc, readFrom_quoted_body, List.nil_append,
    List.singleton_append, readFrom, if_pos rfl, if_pos rfl]

/-! ## Writing -/

/-- Fields with a comma between two of them, and a line feed. -/
def row (cols : List Text) : Text := [','].intercalate cols ++ ['\n']

theorem row_singleton (f : Text) : row [f] = f ++ ['\n'] := by
  rw [row, List.intercalate_singleton]

theorem row_cons_cons (f g : Text) (cols : List Text) :
    row (f :: g :: cols) = f ++ ',' :: row (g :: cols) := by
  rw [row, List.intercalate_cons_cons, row, List.append_assoc, List.append_assoc,
    List.singleton_append]

/-- A writer of fields puts quotes around at least what cannot be bare. -/
def IsEscape (escape : Text → Text) : Prop := ∀ f, escape f = quoted f ∨ escape f = f ∧ Bare f

section Escape

variable {escape : Text → Text}

/-- It stays in one piece: a carriage return in it is quoted. -/
def Unbroken (escape : Text → Text) (f : Text) : Prop := '\r' ∈ f → escape f = quoted f

/-- How many records more the reader finds. -/
def breaks (escape : Text → Text) (f : Text) : Nat := if escape f = f then f.count '\r' else 0

theorem breaks_eq_zero_iff (h : IsEscape escape) {f : Text} :
    breaks escape f = 0 ↔ Unbroken escape f := by
  rw [breaks]
  rcases h f with hq | ⟨hself, -⟩
  · rw [hq, if_neg (quoted_ne f)]
    exact iff_of_true rfl fun _ => hq
  · rw [if_pos hself, List.count_eq_zero]
    refine ⟨fun hnot hmem => absurd hmem hnot, fun hunbroken hmem => ?_⟩
    exact quoted_ne f ((hunbroken hmem).symm.trans hself)

/-- At the start of a field, of a record or not. -/
def Mode.Opens (mode : Mode) : Prop := mode = .fresh ∨ mode = .start

theorem readFrom_escape (h : IsEscape escape) {f : Text} (hf : Unbroken escape f) {mode : Mode}
    (hmode : mode.Opens) (row : List Text) :
    ∃ mode' : Mode, mode' ≠ .quoted ∧ mode' ≠ .cr ∧
      ∀ t, readFrom mode [] row (escape f ++ t) = readFrom mode' f row t := by
  have hne : mode ≠ .quoted ∧ mode ≠ .closing ∧ mode ≠ .bare ∧ mode ≠ .cr := by
    rcases hmode with rfl | rfl <;> decide
  obtain ⟨hquoted, hclosing, hbare, hcr⟩ := hne
  rcases h f with hq | ⟨hself, hf'⟩
  · refine ⟨.closing, by decide, by decide, fun t => ?_⟩
    rw [hq, readFrom_quoted hquoted hclosing hbare]
  · have hno : '\r' ∉ f := fun hmem => quoted_ne f ((hf hmem).symm.trans hself)
    obtain ⟨mode', hq, hr, hread⟩ := hf'.readFrom_append hno hquoted hcr [] row
    exact ⟨mode', hq, hr, fun t => by rw [hself, hread, List.nil_append]⟩

theorem length_readFrom_escape (h : IsEscape escape) (f : Text) {mode : Mode}
    (hmode : mode.Opens) (row : List Text) (t : Text) :
    (readFrom mode [] row (escape f ++ ',' :: t)).length =
      breaks escape f + (readFrom .start [] [] t).length := by
  have hne : mode ≠ .quoted ∧ mode ≠ .closing ∧ mode ≠ .bare := by
    rcases hmode with rfl | rfl <;> decide
  obtain ⟨hquoted, hclosing, hbare⟩ := hne
  rw [breaks]
  rcases h f with hq | ⟨hself, hf⟩
  · rw [hq, if_neg (quoted_ne f), readFrom_quoted hquoted hclosing hbare,
      readFrom_comma (by decide), Nat.zero_add]
    exact length_readFrom ..
  · rw [if_pos hself, hself, hf.length_readFrom_append hquoted]

/-- A record whose fields stay in one piece. -/
theorem readFrom_row (h : IsEscape escape) {cols : List Text} (hne : cols ≠ [])
    (hcols : ∀ f ∈ cols, Unbroken escape f) {mode : Mode} (hmode : mode.Opens)
    (before : List Text) (t : Text) :
    readFrom mode [] before (row (cols.map escape) ++ t) = (before ++ cols) :: read t := by
  induction cols generalizing mode before with
  | nil => exact absurd rfl hne
  | cons f cols ih =>
      obtain ⟨mode', hquoted, hcr, hread⟩ :=
        readFrom_escape h (hcols f List.mem_cons_self) hmode before
      cases cols with
      | nil =>
          rw [List.map_singleton, row_singleton, List.append_assoc, hread, List.singleton_append,
            readFrom_newline hquoted hcr]
      | cons g cols =>
          have hrest := ih (List.cons_ne_nil g cols)
            (fun f hf => hcols f (List.mem_cons_of_mem _ hf)) (Or.inr rfl) (before ++ [f])
          rw [List.map_cons, List.map_cons, row_cons_cons, List.append_assoc, hread,
            List.cons_append, readFrom_comma hquoted, ← List.map_cons, hrest,
            List.append_assoc, List.singleton_append]

/-- The number of records is one more than the breaks, as long as the last field is in
    one piece. -/
theorem length_readFrom_row (h : IsEscape escape) (cols : List Text) {last : Text}
    (hlast : Unbroken escape last) {mode : Mode} (hmode : mode.Opens) (before : List Text)
    (t : Text) :
    (readFrom mode [] before (row ((cols ++ [last]).map escape) ++ t)).length =
      (cols.map (breaks escape)).sum + 1 + (read t).length := by
  induction cols generalizing mode before with
  | nil =>
      have hrow := readFrom_row h (List.cons_ne_nil last [])
        (List.forall_mem_singleton.mpr hlast) hmode before t
      rw [List.nil_append, hrow, List.map_nil, List.sum_nil, List.length_cons, Nat.zero_add,
        Nat.add_comm]
  | cons f cols ih =>
      obtain ⟨g, gs, hg⟩ := List.exists_cons_of_ne_nil (List.concat_ne_nil last cols)
      have hrest := ih (Or.inr rfl) []
      rw [List.cons_append, hg, List.map_cons, List.map_cons, row_cons_cons, List.append_assoc,
        List.cons_append, length_readFrom_escape h f hmode, ← List.map_cons, ← hg, hrest,
        List.map_cons, List.sum_cons]
      omega

/-- Records one after the other. -/
def write (escape : Text → Text) (rows : List (List Text)) : Text :=
  rows.flatMap fun cols => row (cols.map escape)

/-- **What was written reads back**, when every field stays in one piece. -/
theorem read_write (h : IsEscape escape) {rows : List (List Text)}
    (hrows : ∀ cols ∈ rows, cols ≠ [] ∧ ∀ f ∈ cols, Unbroken escape f) :
    read (write escape rows) = rows := by
  induction rows with
  | nil => rfl
  | cons cols rows ih =>
      obtain ⟨hcols, hrest⟩ := List.forall_mem_cons.mp hrows
      have hfirst := readFrom_row h hcols.1 hcols.2 (Or.inl rfl) [] (write escape rows)
      rw [write, List.flatMap_cons, ← write, read, hfirst, List.nil_append, ih hrest]

/-- The last field of a record is there and stays in one piece. -/
def EndsUnbroken (escape : Text → Text) (cols : List Text) : Prop :=
  ∃ before last, cols = before ++ [last] ∧ Unbroken escape last

theorem length_read_write (h : IsEscape escape) {rows : List (List Text)}
    (hrows : ∀ cols ∈ rows, EndsUnbroken escape cols) :
    (read (write escape rows)).length =
      (rows.map fun cols => (cols.map (breaks escape)).sum).sum + rows.length := by
  induction rows with
  | nil => rfl
  | cons cols rows ih =>
      obtain ⟨⟨before, last, rfl, hlast⟩, hrest⟩ := List.forall_mem_cons.mp hrows
      have hzero := (breaks_eq_zero_iff h).mpr hlast
      have hfirst := length_readFrom_row h before hlast (Or.inl rfl) [] (write escape rows)
      rw [write, List.flatMap_cons, ← write, read, hfirst, ih hrest, List.map_cons, List.sum_cons,
        List.map_append, List.sum_append, List.map_singleton, List.sum_singleton, hzero,
        List.length_cons]
      omega

/-- **The number of records tells.**  There are as many as were written exactly when
    every field stays in one piece. -/
theorem length_read_write_iff (h : IsEscape escape) {rows : List (List Text)}
    (hrows : ∀ cols ∈ rows, EndsUnbroken escape cols) :
    (read (write escape rows)).length = rows.length ↔
      ∀ cols ∈ rows, ∀ f ∈ cols, Unbroken escape f := by
  have hsum : (read (write escape rows)).length = rows.length ↔
      (rows.map fun cols => (cols.map (breaks escape)).sum).sum = 0 := by
    rw [length_read_write h hrows]
    omega
  rw [hsum]
  simp only [List.sum_eq_zero_iff_forall_eq_nat, List.forall_mem_map, breaks_eq_zero_iff h]

end Escape

end Lib.Csv
