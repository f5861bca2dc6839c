/-
  Maranode.Rag.CodeChunks

  `chunk_code` of `chunk.rs`: the units of a source file, packed into chunks.

  Lines become units at the end of a block of braces, or in front of a definition of Python.
  Nothing but white space is lost on the way (`Gathers`).  A chunk is as many units as fit, or
  one of the windows of a unit that is too long; so the chunks are groups of units, in their
  order, and every label is that of a unit of its group (`Packs`).
-/
import Maranode.Rag.Chunk
import Maranode.Rag.Engine

namespace Maranode.Rag

open Lib Lib.Checked Lib.Text

inductive CodeLang where
  | braces
  | python
  deriving DecidableEq

/-- `char::is_alphabetic` and `char::is_alphanumeric`. -/
structure CharClasses where
  isAlphabetic : Char → Bool
  isAlphanumeric : Char → Bool

/-! ## Units -/

/-- The units, with the lines that were gathered when they are not blank. -/
def pushUnit (units : List Text) (cur : Text) : List Text :=
  if trim cur = [] then units else units ++ [cur]

/-- How many braces a line opens, outside of strings and in front of a comment. -/
def braceDelta (checks : Bool) (inStr : Bool) (depth : Int) : Text → Except Stop Int
  | [] => .ok depth
  | c :: cs =>
      if inStr then
        if c = '\\' then
          match cs with
          | [] => .ok depth
          | _ :: cs => braceDelta checks true depth cs
        else braceDelta checks (c ≠ '"') depth cs
      else if c = '/' ∧ cs.head? = some '/' then .ok depth
      else if c = '"' then braceDelta checks true depth cs
      else if c = '{' then do braceDelta checks false (← addI32 checks depth 1) cs
      else if c = '}' then do braceDelta checks false (← addI32 checks depth (-1)) cs
      else braceDelta checks false depth cs

/-- The loop of `brace_units`: a line that ends a block or a statement outside of braces is the
    last one of its unit. -/
def braceLoop (checks : Bool) (units : List Text) (cur : Text) (depth : Int) :
    List Text → Except Stop (List Text)
  | [] => .ok (pushUnit units cur)
  | line :: rest => do
      let depth := max 0 (← addI32 checks depth (← braceDelta checks false 0 line))
      let cur := cur ++ line ++ ['\n']
      let last := (trimEnd line).getLast?
      if depth = 0 ∧ (last = some '}' ∨ last = some ';') then
        braceLoop checks (pushUnit units cur) [] depth rest
      else braceLoop checks units cur depth rest

def braceUnits (checks : Bool) (text : Text) : Except Stop (List Text) :=
  braceLoop checks [] [] 0 (lines text)

/-- `line.starts_with(char::is_whitespace)`. -/
def startsWhite (line : Text) : Bool := (line.head?.map isWhite).getD false

/-- `line.trim_start()`. -/
def trimStart (line : Text) : Text := line.dropWhile isWhite

def pyTopDef (line : Text) : Bool :=
  if startsWhite line then false
  else
    let t := trimStart line
    "def ".toList.isPrefixOf t || "class ".toList.isPrefixOf t ||
      "async def ".toList.isPrefixOf t || "@".toList.isPrefixOf t

/-- The loop of `python_units`: a definition that no decorator stands before starts a unit. -/
def pythonLoop (units : List Text) (cur : Text) (prevDecorator : Bool) : List Text → List Text
  | [] => pushUnit units cur
  | line :: rest =>
      let decorator := !startsWhite line && "@".toList.isPrefixOf (trimStart line)
      if pyTopDef line && !prevDecorator && !(trim cur).isEmpty then
        pythonLoop (pushUnit units cur) ([] ++ line ++ ['\n']) decorator rest
      else pythonLoop units (cur ++ line ++ ['\n']) decorator rest

def pythonUnits (text : Text) : List Text := pythonLoop [] [] false (lines text)

def codeUnits (checks : Bool) (lang : CodeLang) (text : Text) : Except Stop (List Text) :=
  match lang with
  | .braces => braceUnits checks text
  | .python => .ok (pythonUnits text)

/-! ## Labels -/

section Labels

variable (C : CharClasses)

def isWordChar (c : Char) : Bool := C.isAlphanumeric c || c == '_'

def isIdent (s : Text) : Bool :=
  match s with
  | c :: _ => (C.isAlphabetic c || c == '_') && s.all (isWordChar C)
  | [] => false

def keywords : CodeLang → List Text
  | .python => ["def".toList, "class".toList]
  | .braces =>
      ["fn".toList, "function".toList, "func".toList, "class".toList, "struct".toList,
        "enum".toList, "trait".toList, "interface".toList, "type".toList, "mod".toList,
        "impl".toList, "const".toList, "let".toList, "var".toList, "val".toList]

/-- The first name that a keyword stands before. -/
def firstName (lang : CodeLang) : List Text → Option Text
  | a :: b :: tokens =>
      if a ∈ keywords lang ∧ isIdent C b = true then some b else firstName lang (b :: tokens)
  | _ => none

def defName (lang : CodeLang) (line : Text) : Option Text :=
  firstName C lang ((line.splitOnP fun c => !isWordChar C c).filter fun s => !s.isEmpty)

/-- The name of the first definition in the first ten lines. -/
def symbolLabel (lang : CodeLang) (unit : Text) : Option Text :=
  ((lines unit).take 10).findSome? fun line =>
    let t := trim line
    if t.isEmpty || "//".toList.isPrefixOf t || "/*".toList.isPrefixOf t ||
        "*".toList.isPrefixOf t then none
    else defName C lang t

end Labels

/-! ## chunk_code -/

/-- A chunk of code, on page 1. -/
def codeChunk (text : Text) (label : Option Text) : RichChunk :=
  ⟨String.ofList text, 1, label.map String.ofList⟩

def mkChunk (buf : Text) (label : Option Text) : RichChunk := codeChunk (trim buf) label

/-- `out`, `buf` and `label`. -/
structure CodeState where
  out : List RichChunk
  buf : Text
  label : Option Text

namespace CodeState

/-- `out.push(mk_chunk(&buf, label.take()))` and `buf.clear()`. -/
def flush (s : CodeState) : CodeState := ⟨s.out ++ [mkChunk s.buf s.label], [], none⟩

variable (checks : Bool) (C : CharClasses) (fuel : Nat) (lang : CodeLang) (size overlap : Nat)

/-- A unit that is too long: its windows, with its own label. -/
def pushWindows (s : CodeState) (unit : Text) (pieces : List Text) : CodeState :=
  { s with out := s.out ++ pieces.map fun piece => codeChunk piece (symbolLabel C lang unit) }

/-- A unit that fits. -/
def pushWhole (s : CodeState) (unit : Text) : CodeState :=
  { s with buf := s.buf ++ unit
           label := if s.label.isNone then symbolLabel C lang unit else s.label }

/-- The body of the loop. -/
def step (s : CodeState) (unit : Text) : Except Stop (Option CodeState) :=
  if unit.length > size then
    let s := if trim s.buf ≠ [] then s.flush else { s with buf := [] }
    (chunkText checks fuel unit size overlap).map (Option.map (s.pushWindows C lang unit))
  else if s.buf ≠ [] ∧ s.buf.length + unit.length > size then
    .ok (some (s.flush.pushWhole C lang unit))
  else .ok (some (s.pushWhole C lang unit))

def loop (s : CodeState) : List Text → Except Stop (Option CodeState)
  | [] => .ok (some s)
  | unit :: units => do
      match ← s.step checks C fuel lang size overlap unit with
      | none => .ok none
      | some s => loop s units

/-- The chunks, with the last one. -/
def finish (s : CodeState) : List RichChunk :=
  if trim s.buf ≠ [] then s.flush.out else s.out

end CodeState

def chunkCode (checks : Bool) (C : CharClasses) (fuel : Nat) (text : Text) (lang : CodeLang)
    (size overlap : Nat) : Except Stop (Option (List RichChunk)) := do
  let units ← codeUnits checks lang text
  let s ← CodeState.loop checks C fuel lang size overlap ⟨[], [], none⟩ units
  .ok (s.map CodeState.finish)

/-! ## No line is lost -/

/-- Lines that went into units, and into what is gathered for the next one. -/
structure Gathers (ls units : List Text) (cur : Text) : Prop where
  black_eq : black (units.flatten ++ cur) = black (joinLines ls)
  length_le : (units.flatten ++ cur).length ≤ (joinLines ls).length
  not_blank : ∀ unit ∈ units, trim unit ≠ []

section Gathers

variable {checks : Bool} {ls units units' rest : List Text} {cur : Text} {depth : Int}

theorem gathers_nil : Gathers [] [] [] := ⟨rfl, Nat.le_refl _, nofun⟩

theorem Gathers.addLine (h : Gathers ls units cur) (line : Text) :
    Gathers (ls ++ [line]) units (cur ++ line ++ ['\n']) := by
  have hlines : joinLines (ls ++ [line]) = joinLines ls ++ (line ++ ['\n']) := by
    rw [joinLines_append, joinLines_cons, joinLines_nil]
  have hcur : units.flatten ++ (cur ++ line ++ ['\n']) =
      units.flatten ++ cur ++ (line ++ ['\n']) := by
    simp only [List.append_assoc]
  refine ⟨?_, ?_, h.not_blank⟩
  · rw [hlines, hcur, black_append, h.black_eq, black_append (joinLines ls)]
  · have hle := h.length_le
    simp only [hlines, hcur, List.length_append] at hle ⊢
    omega

/-- A unit is pushed, unless it is blank. -/
theorem Gathers.push (h : Gathers ls units cur) : Gathers ls (pushUnit units cur) [] := by
  rw [pushUnit]
  split
  · next hblank =>
      have hblack := h.black_eq
      have hle := h.length_le
      rw [black_append, black_eq_nil_of_trim hblank] at hblack
      rw [List.length_append] at hle
      refine ⟨?_, ?_, h.not_blank⟩
      · rw [black_append, hblack.symm]
        rfl
      · rw [List.append_nil]
        omega
  · next hne =>
      have hunits : (units ++ [cur]).flatten ++ [] = units.flatten ++ cur := by
        rw [List.flatten_append, List.flatten_singleton, List.append_nil]
      refine ⟨hunits ▸ h.black_eq, hunits ▸ h.length_le, fun unit hunit => ?_⟩
      rcases List.mem_append.mp hunit with hunit | hunit
      · exact h.not_blank unit hunit
      · rwa [List.mem_singleton.mp hunit]

theorem gathers_braceLoop (h : Gathers ls units cur)
    (hout : braceLoop checks units cur depth rest = .ok units') :
    Gathers (ls ++ rest) units' [] := by
  induction rest generalizing ls units cur depth with
  | nil =>
      obtain rfl := Except.ok.inj hout
      rw [List.append_nil]
      exact h.push
  | cons line rest ih =>
      rw [braceLoop] at hout
      cases hdelta : braceDelta checks false 0 line with
      | error e =>
          rw [hdelta] at hout
          cases hout
      | ok delta =>
          rw [hdelta, ok_bind] at hout
          cases hadd : addI32 checks depth delta with
          | error e =>
              rw [hadd] at hout
              cases hout
          | ok depth' =>
              rw [hadd, ok_bind] at hout
              dsimp only at hout
              rw [List.append_cons]
              split at hout
              · exact ih (h.addLine line).push hout
              · exact ih (h.addLine line) hout

theorem gathers_pythonLoop (prevDecorator : Bool) (h : Gathers ls units cur) :
    Gathers (ls ++ rest) (pythonLoop units cur prevDecorator rest) [] := by
  induction rest generalizing ls units cur prevDecorator with
  | nil =>
      rw [List.append_nil]
      exact h.push
  | cons line rest ih =>
      rw [pythonLoop, List.append_cons]
      split
      · exact ih _ (h.push.addLine line)
      · exact ih _ (h.addLine line)

theorem gathers_codeUnits {lang : CodeLang} {text : Text}
    (h : codeUnits checks lang text = .ok units) : Gathers (lines text) units [] := by
  cases lang with
  | braces => exact gathers_braceLoop gathers_nil h
  | python =>
      obtain rfl := Except.ok.inj h
      exact gathers_pythonLoop false gathers_nil

end Gathers

/-! ## Counting braces -/

section Braces

variable {checks inStr : Bool} {depth depth' : Int} {m n : Nat} {cs : Text}
  {out : Except Stop Int} {units rest : List Text} {cur : Text}

/-- Only the count can stop, in a build that checks. -/
theorem braceDelta_cases (checks inStr : Bool) (depth : Int) (cs : Text) :
    (∃ d, braceDelta checks inStr depth cs = .ok d) ∨
      checks = true ∧ braceDelta checks inStr depth cs = .error .overflow := by
  fun_induction braceDelta checks inStr depth cs with
  | case1 inStr depth => exact .inl ⟨depth, rfl⟩
  | case2 depth => exact .inl ⟨depth, rfl⟩
  | case3 depth c cs ih => exact ih
  | case4 depth c cs hc ih => exact ih
  | case5 inStr depth => exact .inl ⟨depth, rfl⟩
  | case6 inStr depth cs _ _ ih => exact ih
  | case7 inStr depth cs _ _ _ ih =>
      obtain ⟨d, hd⟩ | ⟨hchecks, hd⟩ := addI32_cases checks depth 1
      · rw [hd, ok_bind]
        exact ih d
      · rw [hd]
        exact .inr ⟨hchecks, rfl⟩
  | case8 inStr depth cs _ _ _ _ ih =>
      obtain ⟨d, hd⟩ | ⟨hchecks, hd⟩ := addI32_cases checks depth (-1)
      · rw [hd, ok_bind]
        exact ih d
      · rw [hd]
        exact .inr ⟨hchecks, rfl⟩
  | case9 inStr depth c cs _ _ _ _ _ ih => exact ih

/-- A count that is at most `n` away. -/
def Within (depth : Int) (n : Nat) (out : Except Stop Int) : Prop :=
  ∃ d, out = .ok d ∧ depth - n ≤ d ∧ d ≤ depth + n

theorem within_self (depth : Int) (n : Nat) : Within depth n (.ok depth) :=
  ⟨depth, rfl, by omega, by omega⟩

theorem Within.mono (h : Within depth' m out) (hlo : depth - n ≤ depth' - m)
    (hhi : depth' + m ≤ depth + n) : Within depth n out := by
  obtain ⟨d, hd, hdlo, hdhi⟩ := h
  exact ⟨d, hd, by omega, by omega⟩

variable (checks inStr) in
/-- A line changes the count by no more than its length. -/
theorem within_braceDelta (hlo : -2 ^ 31 ≤ depth - cs.length) (hhi : depth + cs.length < 2 ^ 31) :
    Within depth cs.length (braceDelta checks inStr depth cs) := by
  fun_induction braceDelta checks inStr depth cs with
  | case1 inStr depth => exact within_self depth _
  | case2 depth => exact within_self depth _
  | case3 depth c cs ih =>
      rw [List.length_cons, List.length_cons] at hlo hhi ⊢
      exact (ih (by omega) (by omega)).mono (by omega) (by omega)
  | case4 depth c cs hc ih =>
      rw [List.length_cons] at hlo hhi ⊢
      exact (ih (by omega) (by omega)).mono (by omega) (by omega)
  | case5 inStr depth => exact within_self depth _
  | case6 inStr depth cs _ _ ih =>
      rw [List.length_cons] at hlo hhi ⊢
      exact (ih (by omega) (by omega)).mono (by omega) (by omega)
  | case7 inStr depth cs _ _ _ ih =>
      rw [List.length_cons] at hlo hhi ⊢
      rw [addI32_of_lt (by omega) (by omega), ok_bind]
      exact (ih (depth + 1) (by omega) (by omega)).mono (by omega) (by omega)
  | case8 inStr depth cs _ _ _ _ ih =>
      rw [List.length_cons] at hlo hhi ⊢
      rw [addI32_of_lt (by omega) (by omega), ok_bind]
      exact (ih (depth + -1) (by omega) (by omega)).mono (by omega) (by omega)
  | case9 inStr depth c cs _ _ _ _ _ ih =>
      rw [List.length_cons] at hlo hhi ⊢
      exact (ih (by omega) (by omega)).mono (by omega) (by omega)

theorem braceLoop_cases (checks : Bool) (units : List Text) (cur : Text) (depth : Int)
    (rest : List Text) :
    (∃ out, braceLoop checks units cur depth rest = .ok out) ∨
      checks = true ∧ braceLoop checks units cur depth rest = .error .overflow := by
  induction rest generalizing units cur depth with
  | nil => exact .inl ⟨_, rfl⟩
  | cons line rest ih =>
      rw [braceLoop]
      obtain ⟨delta, hdelta⟩ | ⟨hchecks, hdelta⟩ := braceDelta_cases checks false 0 line
      · obtain ⟨d, hd⟩ | ⟨hchecks, hd⟩ := addI32_cases checks depth delta
        · rw [hdelta, ok_bind, hd, ok_bind]
          dsimp only
          split
          · exact ih _ _ _
          · exact ih _ _ _
        · rw [hdelta, ok_bind, hd]
          exact .inr ⟨hchecks, rfl⟩
      · rw [hdelta]
        exact .inr ⟨hchecks, rfl⟩

/-- The depth is at most the number of characters that were read. -/
theorem braceLoop_of_fits (hpos : 0 ≤ depth)
    (hfits : depth + (joinLines rest).length ≤ 2 ^ 31) :
    ∃ out, braceLoop checks units cur depth rest = .ok out := by
  induction rest generalizing units cur depth with
  | nil => exact ⟨_, rfl⟩
  | cons line rest ih =>
      rw [joinLines_cons, List.length_append, List.length_cons] at hfits
      have hline : (0 : Int) + line.length < 2 ^ 31 := by omega
      obtain ⟨delta, hdelta, hlo, hhi⟩ := within_braceDelta checks false (by omega) hline
      rw [braceLoop, hdelta, ok_bind, addI32_of_lt (by omega) (by omega), ok_bind]
      dsimp only
      split
      · exact ih (by omega) (by omega)
      · exact ih (by omega) (by omega)

/-- A build that checks can stop at a text with more braces than an `i32` counts. -/
theorem codeUnits_cases (checks : Bool) (lang : CodeLang) (text : Text) :
    (∃ units, codeUnits checks lang text = .ok units) ∨
      checks = true ∧ 2 ^ 31 ≤ text.length ∧ codeUnits checks lang text = .error .overflow := by
  cases lang with
  | python => exact .inl ⟨_, rfl⟩
  | braces =>
      by_cases hlen : text.length < 2 ^ 31
      · have hlines := length_joinLines_lines text
        exact .inl (braceLoop_of_fits (Int.le_refl 0) (by omega))
      · obtain hok | ⟨hchecks, herr⟩ := braceLoop_cases checks [] [] 0 (lines text)
        · exact .inl hok
        · exact .inr ⟨hchecks, Nat.le_of_not_lt hlen, herr⟩

end Braces

/-! ## Windows that do not overlap -/

section Windows

variable {text : Text} {size overlap start : Nat} {cut : Cut} {cuts : List Cut}

theorem Cut.IsWindow.black_text (h : cut.IsWindow text size) :
    black cut.text = black (cut.piece text) := by
  rw [h.text_eq, black_trim]

/-- A window, and what is behind it. -/
theorem Cut.IsWindow.drop_eq (h : cut.IsWindow text size) :
    text.drop cut.start = cut.piece text ++ text.drop cut.stop := by
  have hlt := h.lt
  rw [← List.take_append_drop (cut.stop - cut.start) (text.drop cut.start), List.drop_drop,
    Nat.add_sub_cancel' hlt.le, Cut.piece]

theorem flatten_cutTexts (cuts : List Cut) :
    (cutTexts cuts).flatten = (cuts.map Cut.text).flatten :=
  List.flatten_filter_not_isEmpty

/-- Windows that do not overlap have every character once. -/
theorem Windows.black_flatten (h : Windows text size 0 start cuts) (hne : cuts ≠ []) :
    black (cuts.map Cut.text).flatten = black (text.drop start) := by
  induction cuts generalizing start with
  | nil => exact absurd rfl hne
  | cons a cuts ih =>
      have hfirst : a.start = start := h.first
      have ha := h.each a List.mem_cons_self
      rw [List.map_cons, List.flatten_cons, black_append, ha.black_text, ← hfirst, ha.drop_eq,
        black_append]
      refine congrArg (black (a.piece text) ++ ·) ?_
      cases cuts with
      | nil =>
          have hlast : a.stop = text.length := h.last
          rw [hlast, List.drop_length]
          rfl
      | cons b cuts =>
          obtain ⟨hlt, hle, hge⟩ := (List.isChain_cons_cons.mp h.chain).1
          have hstart : b.start = a.stop := Nat.le_antisymm hle hge
          rw [ih h.tail (List.cons_ne_nil b cuts), hstart]

/-- What `chunk_text` makes of a unit. -/
theorem chunkText_unit (checks : Bool) (text : Chars) (size overlap more : Nat) :
    ∃ pieces, chunkText checks (text.val.length + more) text size overlap = .ok (some pieces) ∧
      (∀ piece ∈ pieces, piece.length ≤ max size 1 ∧ piece <:+: text.val) ∧
      (overlap = 0 → black pieces.flatten = black text.val) := by
  obtain ⟨cuts, hcuts, hwindows⟩ := cutText_spec checks text size overlap more
  refine ⟨cutTexts cuts, ?_, fun piece hpiece => ?_, ?_⟩
  · rw [chunkText, hcuts]
    rfl
  · obtain ⟨cut, hcut, rfl⟩ := List.mem_map.mp (List.mem_filter.mp hpiece).1
    have hwindow := hwindows.each cut hcut
    refine ⟨hwindow.length_text_le, ?_⟩
    rw [← hwindow.text_at_place]
    exact (List.take_prefix _ _).isInfix.trans (List.drop_suffix _ _).isInfix
  · rintro rfl
    rw [Nat.zero_min] at hwindows
    rw [flatten_cutTexts]
    by_cases hne : cuts = []
    · have hlast : (cuts.getLast?.map Cut.stop).getD 0 = text.val.length := hwindows.last
      rw [hne] at hlast
      rw [hne, List.length_eq_zero_iff.mp hlast.symm]
      rfl
    · exact hwindows.black_flatten hne

end Windows

/-! ## Groups of units -/

/-- The units of a chunk, or the windows of a unit that is too long. -/
inductive Group where
  | whole (units : List Text)
  | windows (unit : Text) (pieces : List Text)

namespace Group

def units : Group → List Text
  | whole units => units
  | windows unit _ => [unit]

def chunks (C : CharClasses) (lang : CodeLang) : Group → List RichChunk
  | whole units => [mkChunk units.flatten (units.findSome? (symbolLabel C lang))]
  | windows unit pieces => pieces.map fun piece => codeChunk piece (symbolLabel C lang unit)

/-- The units of a chunk fit in it, and only what is too long is cut. -/
def Fits (checks : Bool) (fuel size overlap : Nat) : Group → Prop
  | whole units => units.flatten.length ≤ size
  | windows unit pieces =>
      size < unit.length ∧ chunkText checks fuel unit size overlap = .ok (some pieces)

end Group

section Packs

variable {checks : Bool} {C : CharClasses} {fuel size overlap : Nat} {lang : CodeLang}
  {groups : List Group} {pending units : List Text} {unit : Text} {s : CodeState}

/-- The chunks so far are those of the groups, and the buffer has the units that are pending. -/
structure Packs (checks : Bool) (C : CharClasses) (fuel : Nat) (lang : CodeLang)
    (size overlap : Nat) (groups : List Group) (pending : List Text) (s : CodeState) : Prop where
  out : s.out = groups.flatMap (Group.chunks C lang)
  buf : s.buf = pending.flatten
  label : s.label = pending.findSome? (symbolLabel C lang)
  room : pending.flatten.length ≤ size
  fits : ∀ group ∈ groups, group.Fits checks fuel size overlap
  not_blank : ∀ unit ∈ pending, trim unit ≠ []

variable (checks C fuel size overlap lang) in
theorem packs_nil : Packs checks C fuel lang size overlap [] [] ⟨[], [], none⟩ :=
  ⟨rfl, rfl, rfl, Nat.zero_le size, nofun, nofun⟩

/-- A buffer with units in it is not blank. -/
theorem trim_flatten_eq_nil_iff (h : ∀ unit ∈ pending, trim unit ≠ []) :
    trim pending.flatten = [] ↔ pending = [] := by
  constructor
  · intro hblank
    cases pending with
    | nil => rfl
    | cons unit rest =>
        refine absurd (trim_eq_nil_iff.mpr fun c hc => ?_) (h unit List.mem_cons_self)
        exact trim_eq_nil_iff.mp hblank c (List.mem_append_left _ hc)
  · rintro rfl
    rfl

namespace Packs

theorem flush (h : Packs checks C fuel lang size overlap groups pending s) :
    Packs checks C fuel lang size overlap (groups ++ [.whole pending]) [] s.flush := by
  refine ⟨?_, rfl, rfl, Nat.zero_le size, fun group hgroup => ?_, nofun⟩
  · rw [CodeState.flush, h.out, h.buf, h.label, List.flatMap_append, List.flatMap_singleton]
    rfl
  · rcases List.mem_append.mp hgroup with hgroup | hgroup
    · exact h.fits group hgroup
    · rw [List.mem_singleton.mp hgroup]
      exact h.room

theorem pushWhole (h : Packs checks C fuel lang size overlap groups pending s)
    (hunit : trim unit ≠ []) (hroom : pending.flatten.length + unit.length ≤ size) :
    Packs checks C fuel lang size overlap groups (pending ++ [unit])
      (s.pushWhole C lang unit) where
  out := h.out
  buf := by
    rw [CodeState.pushWhole, h.buf, List.flatten_append, List.flatten_singleton]
  label := by
    rw [CodeState.pushWhole, h.label, List.findSome?_append, List.findSome?_singleton]
    cases pending.findSome? (symbolLabel C lang) with
    | none => rfl
    | some label => rfl
  room := by
    rwa [List.flatten_append, List.flatten_singleton, List.length_append]
  fits := h.fits
  not_blank u hu := by
    rcases List.mem_append.mp hu with hu | hu
    · exact h.not_blank u hu
    · rwa [List.mem_singleton.mp hu]

theorem pushWindows (h : Packs checks C fuel lang size overlap groups [] s)
    (hlong : size < unit.length) {pieces : List Text}
    (hpieces : chunkText checks fuel unit size overlap = .ok (some pieces)) :
    Packs checks C fuel lang size overlap (groups ++ [.windows unit pieces]) []
      (s.pushWindows C lang unit pieces) := by
  refine ⟨?_, h.buf, h.label, h.room, fun group hgroup => ?_, nofun⟩
  · rw [CodeState.pushWindows, h.out, List.flatMap_append, List.flatMap_singleton]
    rfl
  · rcases List.mem_append.mp hgroup with hgroup | hgroup
    · exact h.fits group hgroup
    · rw [List.mem_singleton.mp hgroup]
      exact ⟨hlong, hpieces⟩

/-- What is in the buffer becomes a chunk, if there is something. -/
theorem flush_all (h : Packs checks C fuel lang size overlap groups pending s) :
    ∃ groups', Packs checks C fuel lang size overlap groups' []
        (if trim s.buf ≠ [] then s.flush else { s with buf := [] }) ∧
      groups'.flatMap Group.units = groups.flatMap Group.units ++ pending := by
  have hblank : trim s.buf = [] ↔ pending = [] := by
    rw [h.buf]
    exact trim_flatten_eq_nil_iff h.not_blank
  by_cases hpending : pending = []
  · rw [if_neg fun hne => hne (hblank.mpr hpending)]
    subst hpending
    exact ⟨groups, ⟨h.out, rfl, h.label, h.room, h.fits, nofun⟩, (List.append_nil _).symm⟩
  · rw [if_pos fun hnil => hpending (hblank.mp hnil)]
    refine ⟨groups ++ [.whole pending], h.flush, ?_⟩
    rw [List.flatMap_append, List.flatMap_singleton]
    rfl

/-- One unit. -/
theorem step (h : Packs checks C fuel lang size overlap groups pending s) (hunit : trim unit ≠ [])
    (hchunk : ∃ pieces, chunkText checks fuel unit size overlap = .ok (some pieces)) :
    ∃ s' groups' pending', s.step checks C fuel lang size overlap unit = .ok (some s') ∧
      Packs checks C fuel lang size overlap groups' pending' s' ∧
      groups'.flatMap Group.units ++ pending' =
        groups.flatMap Group.units ++ pending ++ [unit] := by
  rw [CodeState.step]
  -- A unit over the size is cut into windows; what was gathered before is given out first.
  by_cases hlong : unit.length > size
  · obtain ⟨pieces, hpieces⟩ := hchunk
    obtain ⟨groups', hflush, hunits⟩ := h.flush_all
    rw [if_pos hlong]
    refine ⟨_, _, [], ?_, hflush.pushWindows hlong hpieces, ?_⟩
    · rw [hpieces]
      rfl
    · rw [List.append_nil, List.flatMap_append, hunits, List.flatMap_singleton]
      rfl
  · rw [if_neg hlong]
    -- It would overfill the buffer, so the buffer is given out and begins with it.
    by_cases hfull : s.buf ≠ [] ∧ s.buf.length + unit.length > size
    · rw [if_pos hfull]
      refine ⟨_, _, [] ++ [unit], rfl, h.flush.pushWhole hunit (by simpa using hlong), ?_⟩
      rw [List.flatMap_append, List.flatMap_singleton]
      rfl
    -- There is room, and it joins the buffer.
    · rw [if_neg hfull]
      have hroom : pending.flatten.length + unit.length ≤ size := by
        rw [h.buf] at hfull
        by_cases hnil : pending.flatten = []
        · rw [hnil, List.length_nil, Nat.zero_add]
          exact Nat.le_of_not_lt hlong
        · exact Nat.le_of_not_lt fun hgt => hfull ⟨hnil, hgt⟩
      exact ⟨_, groups, _, rfl, h.pushWhole hunit hroom, (List.append_assoc _ _ _).symm⟩

/-- The loop over the units. -/
theorem loop (h : Packs checks C fuel lang size overlap groups pending s)
    (hunits : ∀ unit ∈ units, trim unit ≠ [] ∧
      ∃ pieces, chunkText checks fuel unit size overlap = .ok (some pieces)) :
    ∃ s' groups' pending', s.loop checks C fuel lang size overlap units = .ok (some s') ∧
      Packs checks C fuel lang size overlap groups' pending' s' ∧
      groups'.flatMap Group.units ++ pending' = groups.flatMap Group.units ++ pending ++ units := by
  induction units generalizing s groups pending with
  | nil => exact ⟨s, groups, pending, rfl, h, (List.append_nil _).symm⟩
  | cons unit units ih =>
      obtain ⟨hunit, hchunk⟩ := hunits unit List.mem_cons_self
      obtain ⟨s₁, groups₁, pending₁, hstep, h₁, heq₁⟩ := h.step hunit hchunk
      obtain ⟨s', groups', pending', hloop, h', heq'⟩ :=
        ih h₁ fun u hu => hunits u (List.mem_cons_of_mem unit hu)
      refine ⟨s', groups', pending', ?_, h', ?_⟩
      · rw [CodeState.loop, hstep, ok_bind]
        exact hloop
      · rw [heq', heq₁, List.append_assoc, List.singleton_append]

theorem finish (h : Packs checks C fuel lang size overlap groups pending s) :
    ∃ groups' : List Group, s.finish = groups'.flatMap (Group.chunks C lang) ∧
      (∀ group ∈ groups', group.Fits checks fuel size overlap) ∧
      groups'.flatMap Group.units = groups.flatMap Group.units ++ pending := by
  obtain ⟨groups', hflush, hunits⟩ := h.flush_all
  refine ⟨groups', ?_, hflush.fits, hunits⟩
  rw [CodeState.finish, ← hflush.out]
  split
  · rfl
  · rfl

end Packs

end Packs

/-! ## The chunks of a source file -/

/-- A source of which the text fits in a `Vec<char>`, with one more line break. -/
abbrev Source := { cs : Text // 4 * (cs.length + 1) ≤ isizeMax }

section Chunks

variable {checks : Bool} {C : CharClasses} {fuel size overlap : Nat} {lang : CodeLang}
  {units : List Text} {unit : Text} {group : Group}

theorem infix_flatten (h : unit ∈ units) :
    ∃ front back, units.flatten = front ++ (unit ++ back) := by
  obtain ⟨before, after, rfl⟩ := List.append_of_mem h
  refine ⟨before.flatten, after.flatten, ?_⟩
  rw [List.flatten_append, List.flatten_cons]

/-- What is in the chunks of a group: labels and texts are those of its units. -/
structure Group.Shows (C : CharClasses) (lang : CodeLang) (size overlap : Nat) (group : Group) :
    Prop where
  length_le : ∀ chunk ∈ group.chunks C lang, chunk.text.length ≤ max size 1
  label : ∀ chunk ∈ group.chunks C lang, ∀ label, chunk.section_ = some label →
    ∃ unit ∈ group.units, symbolLabel C lang unit = some label.toList ∧
      (trim unit <:+: chunk.text.toList ∨ chunk.text.toList <:+: unit)
  whole : ∀ unit ∈ group.units, unit.length ≤ size →
    ∃ chunk, group.chunks C lang = [chunk] ∧ trim unit <:+: chunk.text.toList
  black_eq : overlap = 0 → black ((group.chunks C lang).map (·.text.toList)).flatten =
    black group.units.flatten

theorem section_eq_some {text : Text} {label : Option Text} {name : String}
    (h : (codeChunk text label).section_ = some name) : label = some name.toList := by
  obtain ⟨l, hl, rfl⟩ := Option.map_eq_some_iff.mp h
  rw [hl, String.toList_ofList]

theorem toList_codeChunk (text : Text) (label : Option Text) :
    (codeChunk text label).text.toList = text := String.toList_ofList

theorem length_codeChunk (text : Text) (label : Option Text) :
    (codeChunk text label).text.length = text.length := by
  rw [← String.length_toList, toList_codeChunk]

theorem shows_whole (h : units.flatten.length ≤ size) :
    (Group.whole units).Shows C lang size overlap := by
  have htrim : ∀ unit ∈ units, trim unit <:+: trim units.flatten := by
    intro unit hunit
    obtain ⟨front, back, hsplit⟩ := infix_flatten hunit
    rw [hsplit]
    exact trim_infix front unit back
  refine ⟨fun chunk hchunk => ?_, fun chunk hchunk label hlabel => ?_, fun unit hunit _ => ?_,
    fun _ => ?_⟩
  · rw [List.mem_singleton.mp hchunk, mkChunk, length_codeChunk]
    have hle := indent_add_le units.flatten
    omega
  · rw [List.mem_singleton.mp hchunk] at hlabel ⊢
    obtain ⟨unit, hunit, hname⟩ := List.exists_of_findSome?_eq_some (section_eq_some hlabel)
    refine ⟨unit, hunit, hname, .inl ?_⟩
    rw [mkChunk, toList_codeChunk]
    exact htrim unit hunit
  · refine ⟨_, rfl, ?_⟩
    rw [mkChunk, toList_codeChunk]
    exact htrim unit hunit
  · show black [(mkChunk _ _).text.toList].flatten = _
    rw [mkChunk, toList_codeChunk, List.flatten_singleton, black_trim]
    rfl

theorem shows_windows (hlong : size < unit.length) (hchars : 4 * unit.length ≤ isizeMax)
    (hfuel : unit.length ≤ fuel) {pieces : List Text}
    (h : chunkText checks fuel unit size overlap = .ok (some pieces)) :
    (Group.windows unit pieces).Shows C lang size overlap := by
  obtain ⟨pieces', hpieces', hpiece, hblack⟩ :=
    chunkText_unit checks ⟨unit, hchars⟩ size overlap (fuel - unit.length)
  rw [Nat.add_sub_cancel' hfuel, h] at hpieces'
  obtain rfl := Option.some.inj (Except.ok.inj hpieces')
  have hmem : ∀ chunk ∈ (Group.windows unit pieces).chunks C lang, ∃ piece ∈ pieces,
      chunk = codeChunk piece (symbolLabel C lang unit) := by
    intro chunk hchunk
    obtain ⟨piece, hin, rfl⟩ := List.mem_map.mp hchunk
    exact ⟨piece, hin, rfl⟩
  refine ⟨fun chunk hchunk => ?_, fun chunk hchunk label hlabel => ?_,
    fun u hu hle => ?_, fun hoverlap => ?_⟩
  · obtain ⟨piece, hin, rfl⟩ := hmem chunk hchunk
    rw [length_codeChunk]
    exact (hpiece piece hin).1
  · obtain ⟨piece, hin, rfl⟩ := hmem chunk hchunk
    refine ⟨unit, List.mem_singleton_self unit, section_eq_some hlabel, .inr ?_⟩
    rw [toList_codeChunk]
    exact (hpiece piece hin).2
  · rw [List.mem_singleton.mp hu] at hle
    omega
  · have htexts : ((Group.windows unit pieces).chunks C lang).map (·.text.toList) = pieces := by
      rw [Group.chunks, List.map_map]
      refine (List.map_congr_left fun piece _ => ?_).trans (List.map_id pieces)
      exact toList_codeChunk piece _
    rw [htexts, hblack hoverlap, Group.units, List.flatten_singleton]

theorem Group.Fits.shows (h : group.Fits checks fuel size overlap)
    (hunits : ∀ unit ∈ group.units, 4 * unit.length ≤ isizeMax ∧ unit.length ≤ fuel) :
    group.Shows C lang size overlap := by
  cases group with
  | whole units => exact shows_whole h
  | windows unit pieces =>
      obtain ⟨hchars, hfuel⟩ := hunits unit (List.mem_singleton_self unit)
      exact shows_windows h.1 hchars hfuel h.2

/-- All characters of the groups are in their chunks. -/
theorem black_groups {groups : List Group}
    (h : ∀ group ∈ groups, group.Shows C lang size 0) :
    black ((groups.flatMap (Group.chunks C lang)).map (·.text.toList)).flatten =
      black (groups.flatMap Group.units).flatten := by
  induction groups with
  | nil => rfl
  | cons group groups ih =>
      rw [List.flatMap_cons, List.flatMap_cons, List.map_append, List.flatten_append,
        List.flatten_append, black_append, black_append,
        (h group List.mem_cons_self).black_eq rfl,
        ih fun g hg => h g (List.mem_cons_of_mem group hg)]

theorem length_le_flatten (h : unit ∈ units) : unit.length ≤ units.flatten.length := by
  obtain ⟨front, back, hsplit⟩ := infix_flatten h
  rw [hsplit, List.length_append, List.length_append]
  omega

/-- **Chunks of code.**  The chunks are those of groups of units, in the order of the units, and
    what is in them is in their units: a chunk is no longer than the size, its label is that of a
    unit that is in it, and a unit that fits is in one chunk.  Without overlap they have every
    character of the text that is not white, once and in its order.  Only a build that checks
    stops, at a text with more characters than an `i32` counts braces. -/
theorem chunkCode_packs (checks : Bool) (C : CharClasses) (text : Source) (lang : CodeLang)
    (size overlap more : Nat) :
    (∃ units, ∃ groups : List Group, codeUnits checks lang text = .ok units ∧
      groups.flatMap Group.units = units ∧ (∀ unit ∈ units, trim unit ≠ []) ∧
      chunkCode checks C (text.val.length + 1 + more) text lang size overlap =
        .ok (some (groups.flatMap (Group.chunks C lang))) ∧
      (∀ group ∈ groups, group.Shows C lang size overlap) ∧
      (overlap = 0 →
        black ((groups.flatMap (Group.chunks C lang)).map (·.text.toList)).flatten =
          black text)) ∨
    checks = true ∧ 2 ^ 31 ≤ text.val.length ∧
      chunkCode checks C (text.val.length + 1 + more) text lang size overlap =
        .error .overflow := by
  -- The cutting into units either goes through or overflows its counter of braces.
  obtain ⟨units, hunits⟩ | ⟨hchecks, hlen, herr⟩ := codeUnits_cases checks lang text.val
  · have hgathers := gathers_codeUnits hunits
    have hlength := hgathers.length_le
    rw [List.append_nil] at hlength
    have hlines := length_joinLines_lines text.val
    have hsource : 4 * (text.val.length + 1) ≤ isizeMax := text.property
    -- Each unit is a piece of the text, so it is short enough to be cut into windows.
    have hunit : ∀ unit ∈ units,
        4 * unit.length ≤ isizeMax ∧ unit.length ≤ text.val.length + 1 := by
      intro unit hmem
      have hle := length_le_flatten hmem
      omega
    have hloop : ∀ unit ∈ units, trim unit ≠ [] ∧ ∃ pieces,
        chunkText checks (text.val.length + 1 + more) unit size overlap = .ok (some pieces) := by
      intro unit hmem
      obtain ⟨hchars, hle⟩ := hunit unit hmem
      obtain ⟨pieces, hpieces, -⟩ := chunkText_unit checks ⟨unit, hchars⟩ size overlap
        (text.val.length + 1 + more - unit.length)
      rw [Nat.add_sub_cancel' (Nat.le_trans hle (Nat.le_add_right _ more))] at hpieces
      exact ⟨hgathers.not_blank unit hmem, pieces, hpieces⟩
    -- The loop packs the units, and the flush at the end gives out the last buffer.
    obtain ⟨s, groups₁, pending, hs, hpacks, hdone⟩ :=
      (packs_nil checks C (text.val.length + 1 + more) size overlap lang).loop hloop
    obtain ⟨groups, hout, hfits, hgroups⟩ := hpacks.finish
    have hall : groups.flatMap Group.units = units := by
      rw [hgroups, hdone]
      rfl
    have hshows : ∀ group ∈ groups, group.Shows C lang size overlap := by
      intro group hgroup
      refine (hfits group hgroup).shows fun unit hmem => ?_
      have hin : unit ∈ units := by
        rw [← hall]
        exact List.mem_flatMap.mpr ⟨group, hgroup, hmem⟩
      exact ⟨(hunit unit hin).1, Nat.le_trans (hunit unit hin).2 (Nat.le_add_right _ more)⟩
    refine .inl ⟨units, groups, hunits, hall, hgathers.not_blank, ?_, hshows, fun hoverlap => ?_⟩
    · rw [chunkCode, hunits, ok_bind, hs, ok_bind, Option.map_some, hout]
    -- Without overlap every character of a window is there once.
    · subst hoverlap
      have hblack := hgathers.black_eq
      rw [List.append_nil, black_lines] at hblack
      rw [black_groups hshows, hall, hblack]
  · refine .inr ⟨hchecks, hlen, ?_⟩
    rw [chunkCode, herr]
    rfl

end Chunks

end Maranode.Rag
