/-
  Maranode.Rag.Tables

  `enrich_with_tables` of `extract.rs`: lines with gaps in them, one after the other, are
  written as the rows of a Markdown table.

  A line without gaps is written as it is, and the cells of the others come in their order with
  markup between them (`threads_flushTable`).  The header has the cells of the first line and no
  more, and a bar in a cell is not escaped, so the table has as many cells in each row only where
  the first line is the longest and no cell has a bar (`wellFormed_iff`).
-/
import Maranode.Lib.Find
import Maranode.Lib.Separated
import Mathlib.Data.List.Chain

namespace Maranode.Rag

open Lib Lib.Text

/-! ## enrich_with_tables -/

/-- `line.split("  ")`. -/
def splitGaps : Text → List Text
  | [] => [[]]
  | [c] => [[c]]
  | c :: d :: cs =>
      if c = ' ' ∧ d = ' ' then [] :: splitGaps cs
      else (splitGaps (d :: cs)).modifyHead (c :: ·)

/-- The cells of a line. -/
def cellsOf (line : Text) : List Text :=
  ((splitGaps line).map trim).filter fun cell => !cell.isEmpty

/-- A line with gaps between cells. -/
def tableLike (line : Text) : Bool :=
  decide ((cellsOf line).length ≥ 2) && contains line "  ".toList

/-- Rows that are no table. -/
def plainRows (buf : List (List Text)) : Text :=
  buf.flatMap fun row => "  ".toList.intercalate row ++ ['\n']

/-- `cols`, the most cells of a row. -/
def columns (buf : List (List Text)) : Nat := (buf.map List.length).max?.getD 0

/-- A row of a table, with a line break. -/
def tableRow (cells : List Text) : Text :=
  "| ".toList ++ " | ".toList.intercalate cells ++ " |\n".toList

/-- The cells of a row, and empty ones as long as there are less than `cols`. -/
def padCells (cols : Nat) (row : List Text) : List Text :=
  row ++ List.replicate (cols - row.length) []

/-- What the closure writes. -/
def flushTable : List (List Text) → Text
  | header :: row :: rows =>
      let buf := header :: row :: rows
      let cols := columns buf
      if cols < 2 then plainRows buf
      else
        tableRow header ++ ('|' :: (List.replicate cols " --- |".toList).flatten ++ ['\n']) ++
          ((row :: rows).flatMap fun cells => tableRow (padCells cols cells)) ++ ['\n']
  | buf => plainRows buf

/-- The loop over the lines, with `out` and `table_buf`. -/
def enrichLoop (out : Text) (tableBuf : List (List Text)) : List Text → Text
  | [] => out ++ flushTable tableBuf
  | line :: rest =>
      if tableLike line then enrichLoop out (tableBuf ++ [cellsOf line]) rest
      else enrichLoop (out ++ flushTable tableBuf ++ line ++ ['\n']) [] rest

def enrichWithTables (text : Text) : Text := enrichLoop [] [] (lines text)

/-! ## Parts of a text -/

/-- A line that is not table-like, or lines that are, one after the other. -/
inductive Part where
  | line (line : Text)
  | block (rows : List Text)

namespace Part

def lines : Part → List Text
  | line l => [l]
  | block rows => rows

def cells : Part → List (List Text)
  | line _ => []
  | block rows => rows.map cellsOf

def render : Part → Text
  | line l => l ++ ['\n']
  | block rows => flushTable (rows.map cellsOf)

def isBlock : Part → Bool
  | line _ => false
  | block _ => true

end Part

/-- A table-like line joins the block it stands before. -/
def joinBlock (l : Text) : List Part → List Part
  | .block rows :: parts => .block (l :: rows) :: parts
  | parts => .block [l] :: parts

def addLine (l : Text) (parts : List Part) : List Part :=
  if tableLike l then joinBlock l parts else .line l :: parts

/-- The parts of a text. -/
def partsOf (ls : List Text) : List Part := ls.foldr addLine []

/-- What the parts of a text are. -/
structure IsParts (ls : List Text) (parts : List Part) : Prop where
  lines_eq : parts.flatMap Part.lines = ls
  line : ∀ l, .line l ∈ parts → tableLike l = false
  block : ∀ rows, .block rows ∈ parts → rows ≠ [] ∧ ∀ row ∈ rows, tableLike row = true
  maximal : parts.IsChain fun a b => ¬ (a.isBlock = true ∧ b.isBlock = true)

theorem joinBlock_of_head {parts : List Part} (h : ∀ part ∈ parts.head?, part.isBlock = false)
    (l : Text) : joinBlock l parts = .block [l] :: parts := by
  match parts, h with
  | [], _ => rfl
  | .line _ :: _, _ => rfl
  | .block _ :: _, h => exact Bool.noConfusion (h _ rfl)

namespace IsParts

variable {ls : List Text} {part : Part} {parts : List Part} {l : Text} {rows : List Text}

/-- A part that no block of the same kind stands behind. -/
theorem cons (h : IsParts ls parts) (hline : ∀ l, .line l = part → tableLike l = false)
    (hblock : ∀ rows, .block rows = part → rows ≠ [] ∧ ∀ row ∈ rows, tableLike row = true)
    (hmax : ∀ next ∈ parts.head?, ¬ (part.isBlock = true ∧ next.isBlock = true)) :
    IsParts (part.lines ++ ls) (part :: parts) := by
  refine ⟨?_, fun l hl => ?_, fun rows hrows => ?_, List.isChain_cons.mpr ⟨hmax, h.maximal⟩⟩
  · rw [List.flatMap_cons, h.lines_eq]
  · rcases List.mem_cons.mp hl with heq | hl
    · exact hline l heq
    · exact h.line l hl
  · rcases List.mem_cons.mp hrows with heq | hrows
    · exact hblock rows heq
    · exact h.block rows hrows

/-- What is behind the first part. -/
theorem tail (h : IsParts ls (part :: parts)) : ∃ rest, ls = part.lines ++ rest ∧
    IsParts rest parts ∧ ∀ next ∈ parts.head?, ¬ (part.isBlock = true ∧ next.isBlock = true) := by
  obtain ⟨hmax, hchain⟩ := List.isChain_cons.mp h.maximal
  refine ⟨parts.flatMap Part.lines, h.lines_eq.symm, ⟨rfl, fun l hl => ?_, fun rows hrows => ?_,
    hchain⟩, hmax⟩
  · exact h.line l (List.mem_cons_of_mem part hl)
  · exact h.block rows (List.mem_cons_of_mem part hrows)

theorem consLine (h : IsParts ls parts) (hl : tableLike l = false) :
    IsParts (l :: ls) (.line l :: parts) := by
  show IsParts ((Part.line l).lines ++ ls) _
  refine h.cons (fun m hm => ?_) (fun rows heq => ?_) fun next _ hboth => ?_
  · rwa [Part.line.inj hm]
  · cases heq
  · exact absurd hboth.1 Bool.false_ne_true

theorem consBlock (h : IsParts ls parts) (hne : rows ≠ [])
    (hrows : ∀ row ∈ rows, tableLike row = true)
    (hparts : ∀ next ∈ parts.head?, next.isBlock = false) :
    IsParts (rows ++ ls) (.block rows :: parts) := by
  show IsParts ((Part.block rows).lines ++ ls) _
  refine h.cons (fun l heq => ?_) (fun rows' heq => ?_) fun next hnext hboth => ?_
  · cases heq
  · rw [Part.block.inj heq]
    exact ⟨hne, hrows⟩
  · rw [hparts next hnext] at hboth
    exact absurd hboth.2 Bool.false_ne_true

theorem joinBlock (h : IsParts ls parts) (hl : tableLike l = true) :
    IsParts (l :: ls) (joinBlock l parts) := by
  match parts, h with
  | .block rows :: parts, h =>
      obtain ⟨rest, rfl, hrest, hmax⟩ := h.tail
      have hrows := (h.block rows List.mem_cons_self).2
      refine hrest.consBlock (List.cons_ne_nil l rows) (List.forall_mem_cons.mpr ⟨hl, hrows⟩) ?_
      intro next hnext
      have hnot := hmax next hnext
      cases hnext' : next.isBlock with
      | false => rfl
      | true => exact absurd ⟨rfl, hnext'⟩ hnot
  | [], h => exact h.consBlock (List.cons_ne_nil l []) (by simpa using hl) nofun
  | .line m :: parts, h =>
      refine h.consBlock (List.cons_ne_nil l []) (by simpa using hl) fun next hnext => ?_
      rw [← Option.some.inj hnext]
      rfl

theorem addLine (h : IsParts ls parts) (l : Text) : IsParts (l :: ls) (addLine l parts) := by
  rw [Rag.addLine]
  by_cases hl : tableLike l = true
  · rw [if_pos hl]
    exact h.joinBlock hl
  · rw [if_neg hl]
    exact h.consLine (Bool.not_eq_true _ ▸ hl)

end IsParts

theorem isParts_partsOf (ls : List Text) : IsParts ls (partsOf ls) := by
  induction ls with
  | nil => exact ⟨rfl, nofun, nofun, .nil⟩
  | cons l ls ih => exact ih.addLine l

/-- The block of lines that have no other table-like line behind them. -/
def blockOf (run : List Text) : List Part := if run = [] then [] else [.block run]

theorem foldr_addLine {run : List Text} (hrun : ∀ l ∈ run, tableLike l = true) {parts : List Part}
    (hparts : ∀ part ∈ parts.head?, part.isBlock = false) :
    run.foldr addLine parts = blockOf run ++ parts := by
  induction run with
  | nil => rfl
  | cons l run ih =>
      have hl : tableLike l = true := hrun l List.mem_cons_self
      rw [List.foldr_cons, ih fun m hm => hrun m (List.mem_cons_of_mem l hm), addLine, if_pos hl]
      cases run with
      | nil => exact joinBlock_of_head hparts l
      | cons m run => rfl

theorem render_blockOf (run : List Text) :
    (blockOf run).flatMap Part.render = flushTable (run.map cellsOf) := by
  cases run with
  | nil => rfl
  | cons l run => exact List.append_nil _

/-- The loop writes the parts, of which the first lines may be in the buffer. -/
theorem enrichLoop_eq (ls : List Text) (out : Text) {run : List Text}
    (hrun : ∀ l ∈ run, tableLike l = true) :
    enrichLoop out (run.map cellsOf) ls = out ++ (partsOf (run ++ ls)).flatMap Part.render := by
  -- The induction is on the lines; `run` is the table gathered so far.
  induction ls generalizing out run with
  | nil =>
      have hnone : ∀ part ∈ ([] : List Part).head?, part.isBlock = false := by simp
      rw [List.append_nil, partsOf, foldr_addLine hrun hnone, List.append_nil, render_blockOf]
      rfl
  | cons l ls ih =>
      -- One more row of the table.
      by_cases hl : tableLike l = true
      · have hrun' : ∀ m ∈ run ++ [l], tableLike m = true := by
          intro m hm
          rcases List.mem_append.mp hm with hm | hm
          · exact hrun m hm
          · rwa [List.mem_singleton.mp hm]
        have hbuf : run.map cellsOf ++ [cellsOf l] = (run ++ [l]).map cellsOf := by
          rw [List.map_append]
          rfl
        rw [enrichLoop, if_pos hl, hbuf, ih out hrun', List.append_assoc]
        rfl
      -- The line ends the table, which is given out before it.
      · have hnone : ∀ m ∈ ([] : List Text), tableLike m = true := nofun
        have hrest := ih (out ++ flushTable (run.map cellsOf) ++ l ++ ['\n']) hnone
        rw [List.map_nil, List.nil_append] at hrest
        have hfold : partsOf (run ++ l :: ls) = blockOf run ++ .line l :: partsOf ls := by
          rw [partsOf, List.foldr_append, List.foldr_cons, addLine, if_neg hl]
          refine foldr_addLine hrun fun part hpart => ?_
          rw [← Option.some.inj hpart]
          rfl
        rw [enrichLoop, if_neg hl, hrest, hfold, List.flatMap_append, render_blockOf,
          List.flatMap_cons]
        simp only [List.append_assoc, Part.render]

theorem enrichWithTables_eq (text : Text) :
    enrichWithTables text = (partsOf (lines text)).flatMap Part.render := by
  have hnone : ∀ m ∈ ([] : List Text), tableLike m = true := nofun
  exact enrichLoop_eq (lines text) [] hnone

/-! ## The cells and their markup -/

/-- Characters that are written between cells. -/
def Markup (text : Text) : Prop := ∀ c ∈ text, c ∈ " |-\n".toList

instance (text : Text) : Decidable (Markup text) := List.decidableBAll _ text

/-- The cells in their order, with markup around and between them. -/
def Threads : List Text → Text → Prop
  | [], text => Markup text
  | cell :: cells, text =>
      ∃ filler rest, text = filler ++ (cell ++ rest) ∧ Markup filler ∧ Threads cells rest

section Threads

variable {cells cells' : List Text} {text text' : Text}

theorem Markup.append (h : Markup text) (h' : Markup text') : Markup (text ++ text') := by
  intro c hc
  rcases List.mem_append.mp hc with hc | hc
  · exact h c hc
  · exact h' c hc

theorem Threads.prepend (hmarkup : Markup text) (h : Threads cells text') :
    Threads cells (text ++ text') := by
  cases cells with
  | nil => exact hmarkup.append h
  | cons cell cells =>
      obtain ⟨filler, rest, rfl, hfiller, hrest⟩ := h
      exact ⟨text ++ filler, rest, (List.append_assoc ..).symm, hmarkup.append hfiller, hrest⟩

theorem Threads.append (h : Threads cells text) (h' : Threads cells' text') :
    Threads (cells ++ cells') (text ++ text') := by
  induction cells generalizing text with
  | nil => exact h'.prepend h
  | cons cell cells ih =>
      obtain ⟨filler, rest, rfl, hfiller, hrest⟩ := h
      refine ⟨filler, rest ++ text', ?_, hfiller, ih hrest⟩
      simp only [List.append_assoc]

theorem Threads.append_markup (h : Threads cells text) (hmarkup : Markup text') :
    Threads cells (text ++ text') := by
  rw [← List.append_nil cells]
  exact h.append hmarkup

theorem threads_cell (cell : Text) : Threads [cell] cell :=
  ⟨[], [], (List.append_nil cell).symm, nofun, nofun⟩

theorem threads_intercalate {sep : Text} (hsep : Markup sep) (cells : List Text) :
    Threads cells (sep.intercalate cells) := by
  induction cells with
  | nil => exact nofun
  | cons cell cells ih =>
      cases cells with
      | nil =>
          rw [List.intercalate_singleton]
          exact threads_cell cell
      | cons cell' cells =>
          rw [List.intercalate_cons_cons, List.append_assoc]
          exact (threads_cell cell).append (ih.prepend hsep)

theorem threads_flatMap {f : List Text → Text} {buf : List (List Text)}
    (h : ∀ row ∈ buf, Threads row (f row)) : Threads buf.flatten (buf.flatMap f) := by
  induction buf with
  | nil => exact nofun
  | cons row buf ih =>
      rw [List.flatten_cons, List.flatMap_cons]
      exact (h row List.mem_cons_self).append (ih fun r hr => h r (List.mem_cons_of_mem row hr))

/-- Empty cells are markup only. -/
theorem Threads.of_append_empty (n : Nat) (h : Threads (cells ++ List.replicate n []) text) :
    Threads cells text := by
  induction cells generalizing text with
  | cons cell cells ih =>
      obtain ⟨filler, rest, rfl, hfiller, hrest⟩ := h
      exact ⟨filler, rest, rfl, hfiller, ih hrest⟩
  | nil =>
      induction n generalizing text with
      | zero => exact h
      | succ n ih =>
          obtain ⟨filler, rest, rfl, hfiller, hrest⟩ := h
          exact hfiller.append (ih hrest)

theorem threads_plainRows (buf : List (List Text)) : Threads buf.flatten (plainRows buf) :=
  threads_flatMap fun row _ => (threads_intercalate (by decide) row).append_markup (by decide)

theorem threads_tableRow (row : List Text) : Threads row (tableRow row) :=
  ((threads_intercalate (by decide) row).prepend (by decide)).append_markup (by decide)

theorem markup_separator (n : Nat) :
    Markup ('|' :: (List.replicate n " --- |".toList).flatten ++ ['\n']) := by
  have hbar : Markup ['|'] := by decide
  have hcells : Markup (List.replicate n " --- |".toList).flatten := by
    intro c hc
    obtain ⟨cell, hcell, hc⟩ := List.mem_flatten.mp hc
    rw [List.eq_of_mem_replicate hcell] at hc
    exact (by decide : Markup " --- |".toList) c hc
  exact (hbar.append hcells).append (by decide)

/-- The cells of the buffer are written in their order. -/
theorem threads_flushTable (buf : List (List Text)) : Threads buf.flatten (flushTable buf) := by
  match buf with
  | [] => exact threads_plainRows []
  | [row] => exact threads_plainRows [row]
  | header :: row :: rows =>
      rw [flushTable]
      split
      · exact threads_plainRows _
      · refine Threads.append_markup ?_ (by decide)
        refine ((threads_tableRow header).append_markup (markup_separator _)).append ?_
        exact threads_flatMap fun cells _ => (threads_tableRow (padCells _ cells)).of_append_empty _

end Threads

/-! ## Reading a table -/

/-- The cells of a row: what stands between bars, without the blanks around it. -/
def splitRow (line : Text) : List Text := ((line.splitOn '|').tail.dropLast).map trim

/-- A table as it is read: a header, a separator and rows with one number of cells, which are
    those of the lines, with empty ones behind them where a line has less. -/
def WellFormed (buf : List (List Text)) (text : Text) : Prop :=
  ∃ header separator rows cols, lines text = (header :: separator :: rows) ++ [[]] ∧
    (∀ line ∈ header :: separator :: rows, (splitRow line).length = cols) ∧
    (header :: rows).map splitRow = buf.map (padCells cols)

/-- The first row is the longest, and there are no bars. -/
def Neat (buf : List (List Text)) : Prop :=
  (∀ header ∈ buf.head?, ∀ row ∈ buf, row.length ≤ header.length) ∧
    ∀ row ∈ buf, ∀ cell ∈ row, '|' ∉ cell

/-- A row of the table, without the line break. -/
def rowLine (cells : List Text) : Text :=
  '|' :: cells.flatMap fun cell => ' ' :: (cell ++ [' ', '|'])

/-- What `table_buf` holds. -/
def IsRow (row : List Text) : Prop :=
  2 ≤ row.length ∧ ∀ cell ∈ row, trim cell = cell ∧ '\n' ∉ cell

section Tables

variable {cells header : List Text} {buf rest : List (List Text)} {cell line : Text} {cols : Nat}

/-- A cell, with the blanks and the bar behind it. -/
theorem intercalate_bars (h : cells ≠ []) :
    ' ' :: (" | ".toList.intercalate cells ++ [' ', '|']) =
      cells.flatMap fun cell => ' ' :: (cell ++ [' ', '|']) := by
  induction cells with
  | nil => exact absurd rfl h
  | cons cell cells ih =>
      cases cells with
      | nil => simp
      | cons cell' cells =>
          rw [List.flatMap_cons, ← ih (List.cons_ne_nil cell' cells), List.intercalate_cons_cons]
          simp

theorem tableRow_eq (h : cells ≠ []) : tableRow cells = rowLine cells ++ ['\n'] := by
  rw [rowLine, ← intercalate_bars h, tableRow]
  simp

theorem separator_eq (n : Nat) :
    '|' :: (List.replicate n " --- |".toList).flatten ++ ['\n'] =
      rowLine (List.replicate n "---".toList) ++ ['\n'] := by
  have hcells : (List.replicate n " --- |".toList).flatten =
      (List.replicate n "---".toList).flatMap fun cell => ' ' :: (cell ++ [' ', '|']) := by
    rw [List.flatMap_def, List.map_replicate]
    rfl
  rw [hcells, rowLine]

theorem columns_le_iff (buf : List (List Text)) (n : Nat) :
    columns buf ≤ n ↔ ∀ row ∈ buf, row.length ≤ n := by
  rw [columns]
  cases hmax : (buf.map List.length).max? with
  | none =>
      rw [List.max?_eq_none_iff, List.map_eq_nil_iff] at hmax
      simp [hmax]
  | some m =>
      rw [Option.getD_some, List.max?_le_iff hmax, List.forall_mem_map]

theorem length_le_columns (h : cells ∈ buf) : cells.length ≤ columns buf :=
  (columns_le_iff buf _).mp (Nat.le_refl _) cells h

theorem length_padCells (h : cells.length ≤ cols) : (padCells cols cells).length = cols := by
  rw [padCells, List.length_append, List.length_replicate]
  omega

theorem trim_append_blank (cell : Text) : trim (cell ++ [' ']) = trim cell := by
  cases hdrop : cell.dropWhile isWhite with
  | nil =>
      have hwhite := List.dropWhile_eq_nil_iff.mp hdrop
      rw [trim_eq_nil_iff.mpr hwhite, trim_eq_nil_iff]
      intro c hc
      rcases List.mem_append.mp hc with hc | hc
      · exact hwhite c hc
      · rw [List.mem_singleton.mp hc]
        decide
  | cons c rest =>
      rw [trim, trim, List.dropWhile_append, hdrop, if_neg (by simp), List.reverse_append]
      exact congrArg List.reverse (List.dropWhile_cons_of_pos (by decide))

/-- The blanks around a cell are trimmed. -/
theorem trim_pad (cell : Text) : trim (' ' :: (cell ++ [' '])) = trim cell := by
  rw [← trim_append_blank cell, trim, List.dropWhile_cons_of_pos (by decide), ← trim]

theorem splitOn_cells (h : ∀ cell ∈ cells, '|' ∉ cell) :
    (cells.flatMap fun cell => ' ' :: (cell ++ [' ', '|'])).splitOn '|' =
      cells.map (fun cell => ' ' :: (cell ++ [' '])) ++ [[]] := by
  induction cells with
  | nil => rfl
  | cons cell cells ih =>
      have hcell : '|' ∉ ' ' :: (cell ++ [' ']) := by
        have hbar := h cell List.mem_cons_self
        simp [hbar]
      have hsplit : ' ' :: (cell ++ [' ', '|']) = ' ' :: (cell ++ [' ']) ++ ['|'] := by simp
      rw [List.flatMap_cons, hsplit, List.append_assoc, List.singleton_append,
        List.splitOn_append_cons_self, List.splitOn_eq_singleton hcell,
        ih fun c hc => h c (List.mem_cons_of_mem cell hc)]
      rfl

/-- The cells of a row are read back, when they have no bars. -/
theorem splitRow_rowLine (h : ∀ cell ∈ cells, trim cell = cell ∧ '|' ∉ cell) :
    splitRow (rowLine cells) = cells := by
  have hsplit : (rowLine cells).splitOn '|' =
      [] :: (cells.map (fun cell => ' ' :: (cell ++ [' '])) ++ [[]]) := by
    rw [rowLine, ← splitOn_cells fun cell hcell => (h cell hcell).2]
    exact List.splitOn_append_cons_self [] _
  rw [splitRow, hsplit, List.tail_cons, List.dropLast_concat, List.map_map]
  have hpad : ∀ cell ∈ cells, (trim ∘ fun cell => ' ' :: (cell ++ [' '])) cell = id cell :=
    fun cell hcell => (trim_pad cell).trans (h cell hcell).1
  rw [List.map_congr_left hpad, List.map_id]

theorem bar_notMem_splitRow (h : cell ∈ splitRow line) : '|' ∉ cell := by
  obtain ⟨piece, hpiece, rfl⟩ := List.mem_map.mp h
  have hmem := List.mem_of_mem_tail (List.mem_of_mem_dropLast hpiece)
  exact fun hbar => (Separated.mem_of_mem_splitOn hmem).1 ((trim_sublist piece).subset hbar)

/-- The lines of a table of two rows or more. -/
def tableLines (header : List Text) (rest : List (List Text)) : List Text :=
  let cols := columns (header :: rest)
  rowLine header :: rowLine (List.replicate cols "---".toList) ::
    rest.map fun row => rowLine (padCells cols row)

theorem flushTable_eq (hbuf : ∀ row ∈ header :: rest, IsRow row) (hrest : rest ≠ []) :
    flushTable (header :: rest) = joinLines (tableLines header rest ++ [[]]) := by
  obtain ⟨row, rows, rfl⟩ := List.exists_cons_of_ne_nil hrest
  have hheader := (hbuf header List.mem_cons_self).1
  have hcols : ¬ columns (header :: row :: rows) < 2 := by
    have hle := length_le_columns (List.mem_cons_self (a := header) (l := row :: rows))
    omega
  have hrows : ((row :: rows).flatMap fun cells =>
      tableRow (padCells (columns (header :: row :: rows)) cells)) =
      joinLines ((row :: rows).map fun cells =>
        rowLine (padCells (columns (header :: row :: rows)) cells)) := by
    rw [joinLines, List.flatMap_map]
    refine List.flatMap_congr fun cells hcells => tableRow_eq ?_
    have hlen := (hbuf cells (List.mem_cons_of_mem header hcells)).1
    refine List.append_ne_nil_of_left_ne_nil (List.length_pos_iff.mp (by omega)) _
  rw [flushTable]
  rw [if_neg hcols, separator_eq, hrows, tableRow_eq, joinLines_append, tableLines]
  · simp
  · exact List.length_pos_iff.mp (by omega)

theorem isLine_rowLine (h : ∀ cell ∈ cells, '\n' ∉ cell) : IsLine (rowLine cells) := by
  have hnewline : '\n' ∉ rowLine cells := by
    rw [rowLine, List.mem_cons, List.mem_flatMap]
    rintro (hc | ⟨cell, hcell, hc⟩)
    · exact absurd hc (by decide)
    · have hnot := h cell hcell
      simp [hnot] at hc
  refine ⟨hnewline, ?_⟩
  rcases List.eq_nil_or_concat cells with rfl | ⟨cells', cell, rfl⟩
  · decide
  · have hlast : rowLine (cells'.concat cell) =
        rowLine cells' ++ ' ' :: (cell ++ [' ']) ++ ['|'] := by
      simp [rowLine]
    rw [hlast, List.getLast?_concat]
    decide

theorem mem_padCells (h : cell ∈ padCells cols cells) : cell ∈ cells ∨ cell = [] := by
  rcases List.mem_append.mp h with h | h
  · exact .inl h
  · exact .inr (List.eq_of_mem_replicate h)

theorem isLine_tableLines (hbuf : ∀ row ∈ header :: rest, IsRow row) :
    ∀ line ∈ tableLines header rest, IsLine line := by
  intro line hline
  rw [tableLines, List.mem_cons, List.mem_cons, List.mem_map] at hline
  rcases hline with rfl | rfl | ⟨row, hrow, rfl⟩
  · exact isLine_rowLine fun cell hcell => ((hbuf header List.mem_cons_self).2 cell hcell).2
  · refine isLine_rowLine fun cell hcell => ?_
    rw [List.eq_of_mem_replicate hcell]
    decide
  · refine isLine_rowLine fun cell hcell => ?_
    rcases mem_padCells hcell with hcell | rfl
    · exact ((hbuf row (List.mem_cons_of_mem header hrow)).2 cell hcell).2
    · exact List.not_mem_nil

theorem lines_flushTable (hbuf : ∀ row ∈ header :: rest, IsRow row) (hrest : rest ≠ []) :
    lines (flushTable (header :: rest)) = tableLines header rest ++ [[]] := by
  have hlines : ∀ line ∈ tableLines header rest ++ [[]], IsLine line := by
    intro line hline
    rcases List.mem_append.mp hline with hline | hline
    · exact isLine_tableLines hbuf line hline
    · rw [List.mem_singleton.mp hline]
      exact ⟨List.not_mem_nil, nofun⟩
  have hread := lines_joinLines_append hlines []
  rw [lines_nil, List.append_nil, List.append_nil] at hread
  rw [flushTable_eq hbuf hrest, hread]

theorem splitRow_separator (n : Nat) :
    splitRow (rowLine (List.replicate n "---".toList)) = List.replicate n "---".toList := by
  refine splitRow_rowLine fun cell hcell => ?_
  rw [List.eq_of_mem_replicate hcell]
  decide

theorem splitRow_padCells (hrow : IsRow cells) (hbars : ∀ cell ∈ cells, '|' ∉ cell) (n : Nat) :
    splitRow (rowLine (padCells n cells)) = padCells n cells := by
  refine splitRow_rowLine fun cell hcell => ?_
  rcases mem_padCells hcell with hcell | rfl
  · exact ⟨(hrow.2 cell hcell).1, hbars cell hcell⟩
  · exact ⟨rfl, List.not_mem_nil⟩

theorem padCells_self (h : cols ≤ cells.length) : padCells cols cells = cells := by
  rw [padCells, Nat.sub_eq_zero_of_le h]
  exact List.append_nil cells

/-- Where the rows that are written form a table. -/
theorem wellFormed_iff (hbuf : ∀ row ∈ header :: rest, IsRow row) (hrest : rest ≠ []) :
    WellFormed (header :: rest) (flushTable (header :: rest)) ↔ Neat (header :: rest) := by
  have hlines := lines_flushTable hbuf hrest
  have hheader := hbuf header List.mem_cons_self
  have hle := length_le_columns (List.mem_cons_self (a := header) (l := rest))
  have htrim : ∀ cell ∈ header, trim cell = cell := fun cell hcell => (hheader.2 cell hcell).1
  constructor
  -- The table read back has the same lines, so it is compared part by part.
  · rintro ⟨first, separator, rows, cols, htable, hlen, hsplit⟩
    rw [hlines, tableLines] at htable
    have hsame := List.append_cancel_right htable
    rw [List.cons.injEq, List.cons.injEq] at hsame
    obtain ⟨rfl, rfl, rfl⟩ := hsame
    have hcols := hlen _ (List.mem_cons_of_mem _ List.mem_cons_self)
    rw [splitRow_separator, List.length_replicate] at hcols
    subst hcols
    -- What is read has no bars, so the cells had none.
    have hbars : ∀ row ∈ header :: rest, ∀ cell ∈ row, '|' ∉ cell := by
      intro row hrow cell hcell
      have hmem : padCells (columns (header :: rest)) row ∈
          (header :: rest).map (padCells (columns (header :: rest))) := List.mem_map_of_mem hrow
      rw [← hsplit] at hmem
      obtain ⟨line, -, hline⟩ := List.mem_map.mp hmem
      have hread : cell ∈ splitRow line := by
        rw [hline]
        exact List.mem_append_left _ hcell
      exact bar_notMem_splitRow hread
    have hread := splitRow_rowLine fun cell hcell =>
      ⟨htrim cell hcell, hbars header List.mem_cons_self cell hcell⟩
    have hfirst := hlen _ List.mem_cons_self
    rw [hread] at hfirst
    refine ⟨fun h hh row hrow => ?_, hbars⟩
    rw [← Option.some.inj hh, hfirst]
    exact length_le_columns hrow
  -- Each line splits into its own cells, since no cell has a bar and the header is longest.
  · rintro ⟨hlongest, hbars⟩
    have hcols : columns (header :: rest) = header.length :=
      Nat.le_antisymm ((columns_le_iff _ _).mpr (hlongest header rfl)) hle
    have hfirst : splitRow (rowLine header) = header := splitRow_rowLine fun cell hcell =>
      ⟨htrim cell hcell, hbars header List.mem_cons_self cell hcell⟩
    have hrows : ∀ row ∈ rest, splitRow (rowLine (padCells (columns (header :: rest)) row)) =
        padCells (columns (header :: rest)) row := fun row hrow =>
      splitRow_padCells (hbuf row (List.mem_cons_of_mem header hrow))
        (hbars row (List.mem_cons_of_mem header hrow)) _
    refine ⟨_, _, _, columns (header :: rest), hlines, ?_, ?_⟩
    · intro line hline
      rw [List.mem_cons, List.mem_cons, List.mem_map] at hline
      rcases hline with rfl | rfl | ⟨row, hrow, rfl⟩
      · rw [hfirst, hcols]
      · rw [splitRow_separator, List.length_replicate]
      · rw [hrows row hrow, length_padCells (length_le_columns (List.mem_cons_of_mem header hrow))]
    · rw [List.map_cons, List.map_cons, hfirst, padCells_self hcols.le, List.map_map]
      exact congrArg (header :: ·) (List.map_congr_left hrows)

end Tables

/-! ## Tables of a text -/

theorem mem_of_mem_splitGaps {line piece : Text} (h : piece ∈ splitGaps line) : piece ⊆ line := by
  fun_induction splitGaps line generalizing piece with
  | case1 =>
      rw [List.mem_singleton.mp h]
      exact List.nil_subset _
  | case2 c =>
      rw [List.mem_singleton.mp h]
      exact List.Subset.refl _
  | case3 c d cs hblank ih =>
      rcases List.mem_cons.mp h with rfl | h
      · exact List.nil_subset _
      · exact List.subset_cons_of_subset c (List.subset_cons_of_subset d (ih h))
  | case4 c d cs hblank ih =>
      cases hpieces : splitGaps (d :: cs) with
      | nil =>
          rw [hpieces] at h
          cases h
      | cons first pieces =>
          rw [hpieces] at h ih
          rcases List.mem_cons.mp h with rfl | h
          · exact List.cons_subset_cons c (ih List.mem_cons_self)
          · exact List.subset_cons_of_subset c (ih (List.mem_cons_of_mem first h))

/-- The cells of a table-like line are a row. -/
theorem isRow_cellsOf {line : Text} (h : tableLike line = true) (hline : '\n' ∉ line) :
    IsRow (cellsOf line) := by
  rw [tableLike, Bool.and_eq_true] at h
  refine ⟨of_decide_eq_true h.1, fun cell hcell => ?_⟩
  obtain ⟨piece, hpiece, rfl⟩ := List.mem_map.mp (List.mem_filter.mp hcell).1
  refine ⟨trim_trim piece, fun hmem => hline ?_⟩
  exact mem_of_mem_splitGaps hpiece ((trim_sublist piece).subset hmem)

/-- **Tables in a text.**  A text is made of lines that are not table-like, which are written as
    they are, and of blocks of lines that are, of which the cells are written in their order.
    Every block of two lines or more comes out as a table of rows with as many cells each, which
    are read back from it, exactly when the first line of each such block has the most cells and
    none of their cells has a bar. -/
theorem enrichWithTables_iff (text : Text) :
    IsParts (lines text) (partsOf (lines text)) ∧
      enrichWithTables text = (partsOf (lines text)).flatMap Part.render ∧
      (∀ l, (Part.line l).render = l ++ ['\n']) ∧
      (∀ part ∈ partsOf (lines text), part.isBlock = true →
        Threads part.cells.flatten part.render) ∧
      ((∀ part ∈ partsOf (lines text), 2 ≤ part.cells.length →
          WellFormed part.cells part.render) ↔
        ∀ part ∈ partsOf (lines text), 2 ≤ part.cells.length → Neat part.cells) := by
  have hparts := isParts_partsOf (lines text)
  refine ⟨hparts, enrichWithTables_eq text, fun _ => rfl, fun part _ hblock => ?_,
    forall_congr' fun part => forall_congr' fun hpart => forall_congr' fun hlen => ?_⟩
  · cases part with
    | line l => exact Bool.noConfusion hblock
    | block rows => exact threads_flushTable (rows.map cellsOf)
  -- A single line is no table, so a block of rows is left.
  · cases part with
    | line l => exact absurd hlen (Nat.not_succ_le_zero 1)
    | block rows =>
        have hrows : ∀ row ∈ rows.map cellsOf, IsRow row := by
          intro row hrow
          obtain ⟨l, hl, rfl⟩ := List.mem_map.mp hrow
          have hmem : l ∈ lines text := by
            rw [← hparts.lines_eq]
            exact List.mem_flatMap.mpr ⟨.block rows, hpart, hl⟩
          exact isRow_cellsOf ((hparts.block rows hpart).2 l hl) (newline_notMem_of_mem_lines hmem)
        change 2 ≤ (rows.map cellsOf).length at hlen
        show WellFormed (rows.map cellsOf) (flushTable (rows.map cellsOf)) ↔
          Neat (rows.map cellsOf)
        match hbuf : rows.map cellsOf with
        | [] =>
            rw [hbuf] at hlen
            exact absurd hlen (Nat.not_succ_le_zero 1)
        | header :: rest =>
            rw [hbuf] at hlen hrows
            refine wellFormed_iff hrows fun hnil => ?_
            rw [hnil] at hlen
            exact absurd hlen (Nat.lt_irrefl 1)

/-- A header of two cells over a row of three. -/
theorem not_enrichWithTables : ¬ ∀ text : Text, ∀ part ∈ partsOf (lines text),
    2 ≤ part.cells.length → WellFormed part.cells part.render := by
  intro h
  have hparts : partsOf (lines "Part  Price\nBolt  2  each\n".toList) =
      [.block ["Part  Price".toList, "Bolt  2  each".toList]] := by rfl
  have hwell := h "Part  Price\nBolt  2  each\n".toList _ (hparts ▸ List.mem_singleton_self _)
    (by decide)
  have hrows : ∀ row ∈ [["Part".toList, "Price".toList],
      ["Bolt".toList, "2".toList, "each".toList]], IsRow row := by
    unfold IsRow
    decide
  have hneat := (wellFormed_iff hrows (List.cons_ne_nil _ _)).mp hwell
  exact absurd (hneat.1 _ rfl _ (List.mem_cons_of_mem _ List.mem_cons_self)) (by decide)

end Maranode.Rag
