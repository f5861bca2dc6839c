/-
  Maranode.Rag.Chunk

  `chunk_text` of `chunk.rs`: windows over the characters of a text, and what is left of each
  when it is trimmed.

  A window ends behind a break in its last two fifths, or where it is full, and the next one
  starts a few characters before that.  Every start is behind the one before it, so the loop
  comes to the end of the text, and no character is passed over (`cutLoop_spec`).
-/
import Maranode.Lib.Checked
import Maranode.Lib.Trim
import Mathlib.Data.List.Chain

namespace Maranode.Rag

open Lib Lib.Checked Lib.Text

/-- What a `Vec<char>` can hold: a `char` is four bytes. -/
abbrev Chars := { cs : Text // 4 * cs.length ≤ isizeMax }

/-! ## find_break -/

section Break

variable (checks : Bool) (chars : Text) (start : Nat)

/-- `for i in (lo..lo + n).rev()`, until one is found. -/
def searchBack (p : Nat → Except Stop Bool) (lo : Nat) : Nat → Except Stop (Option Nat)
  | 0 => .ok none
  | n + 1 => do
      let found ← p (lo + n)
      if found then .ok (some (lo + n)) else searchBack p lo n

/-- A blank line. -/
def paragraphAt (i : Nat) : Except Stop Bool := do
  let c ← index chars i
  if c = '\n' ∧ i > start then do
    let before ← index chars (← subUsize checks i 1)
    .ok (before == '\n')
  else .ok false

def sentenceAt (i : Nat) : Except Stop Bool := do
  let c ← index chars i
  if c = '.' ∨ c = '!' ∨ c = '?' ∨ c = '…' then do
    let next ← addUsize checks i 1
    .ok ((chars[next]?.map isWhite).getD true)
  else .ok false

def spaceAt (i : Nat) : Except Stop Bool := do
  let c ← index chars i
  .ok (isWhite c)

/-- The three searches, one after the other. -/
def findBreak (hardEnd : Nat) : Except Stop Nat := do
  let window ← subUsize checks hardEnd start
  let minLen := (← mulUsize checks window 6) / 10
  let lo ← addUsize checks start minLen
  match ← searchBack (paragraphAt checks chars start) lo (hardEnd - lo) with
  | some i => addUsize checks i 1
  | none =>
      match ← searchBack (sentenceAt checks chars) lo (hardEnd - lo) with
      | some i => addUsize checks i 1
      | none =>
          match ← searchBack (spaceAt chars) lo (hardEnd - lo) with
          | some i => addUsize checks i 1
          | none => .ok hardEnd

end Break

/-! ## chunk_text -/

/-- A window, and its text when it is trimmed. -/
structure Cut where
  start : Nat
  stop : Nat
  text : Text

/-- Where a window ends: `hard_end` and `end`. -/
def cutEnd (checks : Bool) (chars : Text) (size start : Nat) : Except Stop Nat := do
  let full ← addUsize checks start size
  if min full chars.length = chars.length then .ok (min full chars.length)
  else findBreak checks chars start (min full chars.length)

/-- The body of the loop: a window, and where the next one starts. -/
def nextCut (checks : Bool) (chars : Text) (size overlap start : Nat) :
    Except Stop (Cut × Option Nat) := do
  let stop ← cutEnd checks chars size start
  let piece ← slice chars start stop
  .ok (⟨start, stop, trim piece⟩,
    if stop ≥ chars.length then none
    else some (if stop - overlap > start then stop - overlap else stop))

/-- The loop, as long as there is fuel. -/
def cutLoop (checks : Bool) (chars : Text) (size overlap : Nat) :
    Nat → Nat → Except Stop (Option (List Cut))
  | 0, _ => .ok none
  | fuel + 1, start =>
      if start < chars.length then do
        match ← nextCut checks chars size overlap start with
        | (cut, none) => .ok (some [cut])
        | (cut, some next) =>
            (cutLoop checks chars size overlap fuel next).map (Option.map (cut :: ·))
      else .ok (some [])

/-- The windows; a text that is short enough is one. -/
def cutText (checks : Bool) (fuel : Nat) (text : Text) (size overlap : Nat) :
    Except Stop (Option (List Cut)) :=
  let size := max size 1
  let overlap := min overlap (size - 1)
  if text = [] then .ok (some [])
  else if text.length ≤ size then .ok (some [⟨0, text.length, trim text⟩])
  else cutLoop checks text size overlap fuel 0

/-- What is left of windows that are not blank. -/
def cutTexts (cuts : List Cut) : List Text :=
  (cuts.map Cut.text).filter fun text => !text.isEmpty

def chunkText (checks : Bool) (fuel : Nat) (text : Text) (size overlap : Nat) :
    Except Stop (Option (List Text)) :=
  (cutText checks fuel text size overlap).map (Option.map cutTexts)

/-! ## A break is inside of its window -/

section Spec

variable {checks : Bool} {chars : Chars} {start hardEnd : Nat}

theorem searchBack_ok {p : Nat → Except Stop Bool} {lo n : Nat}
    (h : ∀ i, i < lo + n → ∃ b, p i = .ok b) :
    ∃ found, searchBack p lo n = .ok found ∧ ∀ i, found = some i → lo ≤ i ∧ i < lo + n := by
  induction n with
  | zero => exact ⟨none, rfl, nofun⟩
  | succ n ih =>
      obtain ⟨b, hb⟩ := h (lo + n) (by omega)
      rw [searchBack, hb, ok_bind]
      cases b with
      | true =>
          refine ⟨some (lo + n), rfl, fun i hi => ?_⟩
          obtain rfl := Option.some.inj hi
          omega
      | false =>
          obtain ⟨found, hfound, hin⟩ := ih fun i hi => h i (by omega)
          refine ⟨found, hfound, fun i hi => ?_⟩
          have hi := hin i hi
          omega

theorem lt_of_lt_length (chars : Chars) {start : Nat} (hlen : start ≤ chars.val.length) :
    start * 6 + 6 < 2 ^ 64 := by
  have hchars : 4 * chars.val.length ≤ 2 ^ 63 - 1 := chars.property
  omega

theorem paragraphAt_ok {i : Nat} (h : i < chars.val.length) :
    ∃ b, paragraphAt checks chars start i = .ok b := by
  rw [paragraphAt, index_of_lt h, ok_bind]
  split
  · next hi =>
      have hbefore : i - 1 < chars.val.length := by omega
      rw [subUsize_of_le (Nat.one_le_of_lt hi.2), ok_bind, index_of_lt hbefore]
      exact ⟨_, rfl⟩
  · exact ⟨false, rfl⟩

theorem sentenceAt_ok {i : Nat} (h : i < chars.val.length) :
    ∃ b, sentenceAt checks chars i = .ok b := by
  have hi := lt_of_lt_length chars (Nat.le_of_lt h)
  rw [sentenceAt, index_of_lt h, ok_bind]
  split
  · rw [addUsize_of_lt (by omega)]
    exact ⟨_, rfl⟩
  · exact ⟨false, rfl⟩

theorem spaceAt_ok {i : Nat} (h : i < chars.val.length) : ∃ b, spaceAt chars i = .ok b := by
  rw [spaceAt, index_of_lt h]
  exact ⟨_, rfl⟩

variable (checks) in
/-- None of the searches goes wrong, and the break is behind the start of the window. -/
theorem findBreak_spec (hstart : start < hardEnd) (hend : hardEnd ≤ chars.val.length) :
    ∃ stop, findBreak checks chars start hardEnd = .ok stop ∧ start < stop ∧ stop ≤ hardEnd := by
  have hbound := lt_of_lt_length chars hend
  -- The three searches run over the same places, and what they find is not the last one's end.
  have hsearch : ∀ p : Nat → Except Stop Bool,
      (∀ i, i < chars.val.length → ∃ b, p i = .ok b) →
      ∃ found, searchBack p (start + (hardEnd - start) * 6 / 10)
          (hardEnd - (start + (hardEnd - start) * 6 / 10)) = .ok found ∧
        ∀ i, found = some i → addUsize checks i 1 = .ok (i + 1) ∧ start < i + 1 ∧
          i + 1 ≤ hardEnd := by
    intro p hp
    have hrange : ∀ i, i < start + (hardEnd - start) * 6 / 10 +
        (hardEnd - (start + (hardEnd - start) * 6 / 10)) → ∃ b, p i = .ok b :=
      fun i hi => hp i (by omega)
    obtain ⟨found, hfound, hin⟩ := searchBack_ok hrange
    refine ⟨found, hfound, fun i hi => ?_⟩
    have hi := hin i hi
    exact ⟨addUsize_of_lt (by omega), by omega, by omega⟩
  obtain ⟨paragraph, hparagraph, hpar⟩ :=
    hsearch (paragraphAt checks chars start) fun i hi => paragraphAt_ok hi
  obtain ⟨sentence, hsentence, hsen⟩ :=
    hsearch (sentenceAt checks chars) fun i hi => sentenceAt_ok hi
  obtain ⟨space, hspace, hspa⟩ := hsearch (spaceAt chars) fun i hi => spaceAt_ok hi
  -- The lower end of the search does not overflow, so the three searches follow.
  rw [findBreak, subUsize_of_le (Nat.le_of_lt hstart), ok_bind, mulUsize_of_lt (by omega), ok_bind]
  dsimp only
  rw [addUsize_of_lt (by omega), ok_bind, hparagraph, ok_bind]
  cases paragraph with
  | some i =>
      obtain ⟨hadd, hi⟩ := hpar i rfl
      exact ⟨i + 1, hadd, hi⟩
  | none =>
      dsimp only
      rw [hsentence, ok_bind]
      cases sentence with
      | some i =>
          obtain ⟨hadd, hi⟩ := hsen i rfl
          exact ⟨i + 1, hadd, hi⟩
      | none =>
          dsimp only
          rw [hspace, ok_bind]
          cases space with
          | some i =>
              obtain ⟨hadd, hi⟩ := hspa i rfl
              exact ⟨i + 1, hadd, hi⟩
          | none => exact ⟨hardEnd, rfl, hstart, Nat.le_refl hardEnd⟩

/-- The part of a text that a window shows. -/
def Cut.piece (text : Text) (cut : Cut) : Text := (text.drop cut.start).take (cut.stop - cut.start)

/-- What every window of a text is. -/
structure Cut.IsWindow (text : Text) (size : Nat) (cut : Cut) : Prop where
  lt : cut.start < cut.stop
  full : cut.stop ≤ cut.start + size
  inside : cut.stop ≤ text.length
  text_eq : cut.text = trim (cut.piece text)

/-- The next window starts behind the start of this one, and before its end. -/
def Follows (overlap : Nat) (a b : Cut) : Prop :=
  a.start < b.start ∧ b.start ≤ a.stop ∧ a.stop ≤ b.start + overlap

/-- The windows from a position to the end of the text. -/
structure Windows (text : Text) (size overlap start : Nat) (cuts : List Cut) : Prop where
  first : (cuts.head?.map Cut.start).getD 0 = start
  last : (cuts.getLast?.map Cut.stop).getD 0 = text.length
  each : ∀ cut ∈ cuts, cut.IsWindow text size
  chain : cuts.IsChain (Follows overlap)

variable {size overlap : Nat}

variable (checks) in
theorem cutEnd_spec (hstart : start < chars.val.length) (hpos : 0 < size)
    (hsize : size < chars.val.length) :
    ∃ stop, cutEnd checks chars size start = .ok stop ∧ start < stop ∧ stop ≤ start + size ∧
      stop ≤ chars.val.length := by
  have hbound := lt_of_lt_length chars hsize.le
  have hbound' := lt_of_lt_length chars hstart.le
  rw [cutEnd, addUsize_of_lt (by omega), ok_bind]
  split
  · exact ⟨_, rfl, by omega, by omega, by omega⟩
  · have hfull : start < min (start + size) chars.val.length := by omega
    have hend : min (start + size) chars.val.length ≤ chars.val.length := Nat.min_le_right _ _
    obtain ⟨stop, hstop, hlt, hle⟩ := findBreak_spec checks hfull hend
    exact ⟨stop, hstop, hlt, by omega, by omega⟩

variable (checks overlap) in
/-- One window: it is the last one, or the next one follows it. -/
theorem nextCut_spec (hstart : start < chars.val.length) (hpos : 0 < size)
    (hsize : size < chars.val.length) :
    ∃ cut next, nextCut checks chars size overlap start = .ok (cut, next) ∧ cut.start = start ∧
      cut.IsWindow chars size ∧
      match next with
      | none => cut.stop = chars.val.length
      | some n => start < n ∧ n ≤ cut.stop ∧ cut.stop ≤ n + overlap ∧ n < chars.val.length := by
  obtain ⟨stop, hstop, hlt, hfull, hinside⟩ := cutEnd_spec checks hstart hpos hsize
  have hpiece : slice chars.val start stop = .ok ((chars.val.drop start).take (stop - start)) :=
    if_pos ⟨hlt.le, hinside⟩
  rw [nextCut, hstop, ok_bind, hpiece, ok_bind]
  refine ⟨_, _, rfl, rfl, ⟨hlt, hfull, hinside, rfl⟩, ?_⟩
  by_cases hlast : stop ≥ chars.val.length
  · rw [if_pos hlast]
    exact Nat.le_antisymm hinside hlast
  · rw [if_neg hlast]
    -- An overlap that leaves no progress is left out.
    show start < ite _ _ _ ∧ ite _ _ _ ≤ stop ∧ stop ≤ ite _ _ _ + overlap ∧ ite _ _ _ < _
    split <;> omega

variable (checks overlap) in
/-- The loop comes to the end of the text. -/
theorem cutLoop_spec (hpos : 0 < size) (hsize : size < chars.val.length) (fuel : Nat)
    (hstart : start < chars.val.length) (hfuel : chars.val.length ≤ start + fuel) :
    ∃ cuts, cutLoop checks chars size overlap fuel start = .ok (some cuts) ∧ cuts ≠ [] ∧
      Windows chars size overlap start cuts := by
  -- The induction is on the fuel, which is the text that is left.
  induction fuel generalizing start with
  | zero => omega
  | succ fuel ih =>
      obtain ⟨cut, next, hnext, hcut, hwindow, hend⟩ :=
        nextCut_spec checks overlap hstart hpos hsize
      rw [cutLoop, if_pos hstart, hnext, ok_bind]
      -- The last window ends the loop.
      cases next with
      | none =>
          refine ⟨[cut], rfl, List.cons_ne_nil _ _, hcut, hend, ?_, .singleton cut⟩
          rintro c hc
          rw [List.mem_singleton.mp hc]
          exact hwindow
      | some n =>
          -- The next window begins inside the text and behind this one's start.
          obtain ⟨hn, hstop, hoverlap, hlt⟩ := hend
          obtain ⟨cuts, hcuts, hne, hrest⟩ := ih hlt (by omega)
          obtain ⟨b, bs, rfl⟩ := List.exists_cons_of_ne_nil hne
          have hb : b.start = n := hrest.first
          refine ⟨cut :: b :: bs, ?_, List.cons_ne_nil _ _, hcut, ?_, ?_, ?_⟩
          · dsimp only
            rw [hcuts]
            rfl
          · rw [List.getLast?_cons_cons]
            exact hrest.last
          · intro c hc
            rcases List.mem_cons.mp hc with rfl | hc
            · exact hwindow
            · exact hrest.each c hc
          · refine List.isChain_cons_cons.mpr ⟨⟨?_, ?_, ?_⟩, hrest.chain⟩ <;> omega

/-- The windows of any text, with enough fuel. -/
theorem cutText_spec (checks : Bool) (chars : Chars) (size overlap more : Nat) :
    ∃ cuts, cutText checks (chars.val.length + more) chars size overlap = .ok (some cuts) ∧
      Windows chars (max size 1) (min overlap (max size 1 - 1)) 0 cuts := by
  rw [cutText]
  split
  · next hnil => exact ⟨[], rfl, rfl, by rw [hnil]; rfl, nofun, .nil⟩
  · next hne =>
      have hpos := List.length_pos_iff.mpr hne
      split
      · next hshort =>
          refine ⟨_, rfl, rfl, rfl, ?_, .singleton _⟩
          intro cut hcut
          rw [List.mem_singleton.mp hcut]
          refine ⟨hpos, ?_, Nat.le_refl _, ?_⟩
          · rw [Nat.zero_add]
            exact hshort
          · rw [Cut.piece, List.drop_zero, Nat.sub_zero, List.take_length]
      · next hlong =>
          obtain ⟨cuts, hcuts, -, hwindows⟩ := cutLoop_spec checks (min overlap (max size 1 - 1))
            (Nat.lt_of_lt_of_le Nat.zero_lt_one (Nat.le_max_right size 1))
            (Nat.lt_of_not_le hlong) (chars.val.length + more) hpos (by omega)
          exact ⟨cuts, hcuts, hwindows⟩

end Spec

/-! ## Where the chunks stand -/

section Places

variable {text : Text} {size overlap start : Nat} {cut a b : Cut} {cuts : List Cut}

/-- Where the chunk of a window starts. -/
def Cut.place (text : Text) (cut : Cut) : Nat := cut.start + indent (cut.piece text)

/-- The chunks, each with the place where it starts. -/
def placed (text : Text) (cuts : List Cut) : List (Nat × Text) :=
  (cuts.filter fun cut => !cut.text.isEmpty).map fun cut => (cut.place text, cut.text)

theorem map_snd_placed (text : Text) (cuts : List Cut) :
    (placed text cuts).map Prod.snd = cutTexts cuts := by
  rw [placed, cutTexts, List.map_map, List.filter_map]
  rfl

theorem mem_placed {p : Nat × Text} (h : p ∈ placed text cuts) :
    ∃ cut ∈ cuts, cut.text ≠ [] ∧ p = (cut.place text, cut.text) := by
  obtain ⟨cut, hcut, rfl⟩ := List.mem_map.mp h
  rw [List.mem_filter] at hcut
  exact ⟨cut, hcut.1, by simpa using hcut.2, rfl⟩

theorem getElem?_piece {i : Nat} (hi : cut.start + i < cut.stop) :
    (cut.piece text)[i]? = text[cut.start + i]? := by
  rw [Cut.piece, List.getElem?_take_of_lt (by omega), List.getElem?_drop]

namespace Cut.IsWindow

theorem length_piece (h : cut.IsWindow text size) :
    (cut.piece text).length = cut.stop - cut.start := by
  have hinside := h.inside
  rw [piece, List.length_take, List.length_drop]
  omega

theorem place_add_le (h : cut.IsWindow text size) :
    cut.place text + cut.text.length ≤ cut.stop := by
  have hle := indent_add_le (cut.piece text)
  have hlt := h.lt
  rw [h.length_piece, ← h.text_eq] at hle
  rw [place]
  omega

theorem length_text_le (h : cut.IsWindow text size) : cut.text.length ≤ size := by
  have hplace := h.place_add_le
  have hfull := h.full
  rw [place] at hplace
  omega

theorem trim_text (h : cut.IsWindow text size) : trim cut.text = cut.text := by
  rw [h.text_eq, trim_trim]

/-- A chunk is the part of the text that starts at its place. -/
theorem text_at_place (h : cut.IsWindow text size) :
    (text.drop (cut.place text)).take cut.text.length = cut.text := by
  have hplace := h.place_add_le
  have htake := take_drop_indent (cut.piece text)
  rw [← h.text_eq, piece, List.drop_take, List.take_take, List.drop_drop] at htake
  rw [Nat.min_eq_left] at htake
  · exact htake
  · show cut.text.length ≤ cut.stop - cut.start - indent (cut.piece text)
    rw [place] at hplace
    omega

/-- What is not white in a window is in its chunk. -/
theorem black_in_text (h : cut.IsWindow text size) {i : Nat} {c : Char} (hc : text[i]? = some c)
    (hblack : isWhite c = false) (hlo : cut.start ≤ i) (hhi : i < cut.stop) :
    cut.place text ≤ i ∧ i < cut.place text + cut.text.length := by
  obtain ⟨k, rfl⟩ := Nat.exists_eq_add_of_le hlo
  rw [← getElem?_piece hhi] at hc
  have hspan := black_span hc hblack
  rw [← h.text_eq] at hspan
  rw [place]
  omega

/-- The chunk starts with what is not white. -/
theorem black_at_place (h : cut.IsWindow text size) (hne : cut.text ≠ []) :
    ∃ c, text[cut.place text]? = some c ∧ isWhite c = false := by
  have hplace := h.place_add_le
  have hpos := List.length_pos_iff.mpr hne
  rw [h.text_eq] at hne
  obtain ⟨c, hc, hblack⟩ := exists_black hne
  refine ⟨c, ?_, hblack⟩
  rw [← hc, place, getElem?_piece]
  rw [place] at hplace
  omega

/-- The chunk of a window that starts later does not start earlier. -/
theorem place_le (ha : a.IsWindow text size) (hb : b.IsWindow text size) (hne : a.text ≠ [])
    (hne' : b.text ≠ []) (hlt : a.start < b.start) : a.place text ≤ b.place text := by
  obtain ⟨c, hc, hblack⟩ := hb.black_at_place hne'
  have hbstart : b.start ≤ b.place text := Nat.le_add_right _ _
  have hastop := ha.place_add_le
  have hpos := List.length_pos_iff.mpr hne
  by_contra hgt
  -- Then it starts in the window before, in front of the chunk of that.
  have hspan := ha.black_in_text hc hblack (by omega) (by omega)
  omega

end Cut.IsWindow

namespace Windows

theorem tail (h : Windows text size overlap start (a :: b :: cuts)) :
    Windows text size overlap b.start (b :: cuts) where
  first := rfl
  last := by
    have hlast := h.last
    rwa [List.getLast?_cons_cons] at hlast
  each cut hcut := h.each cut (List.mem_cons_of_mem a hcut)
  chain := (List.isChain_cons_cons.mp h.chain).2

/-- No character is passed over. -/
theorem exists_window {i : Nat} (h : Windows text size overlap start cuts) (hlo : start ≤ i)
    (hhi : i < text.length) : ∃ cut ∈ cuts, cut.start ≤ i ∧ i < cut.stop := by
  induction cuts generalizing start with
  | nil =>
      have hlast : 0 = text.length := h.last
      omega
  | cons a cuts ih =>
      have hfirst : a.start = start := h.first
      by_cases hstop : i < a.stop
      · exact ⟨a, List.mem_cons_self, by omega, hstop⟩
      · cases cuts with
        | nil =>
            have hlast : a.stop = text.length := h.last
            omega
        | cons b cuts =>
            have hfollows := (List.isChain_cons_cons.mp h.chain).1
            obtain ⟨cut, hcut, hspan⟩ := ih h.tail (hfollows.2.1.trans (Nat.le_of_not_lt hstop))
            exact ⟨cut, List.mem_cons_of_mem a hcut, hspan⟩

theorem starts_lt (h : Windows text size overlap start cuts) :
    cuts.Pairwise fun a b => a.start < b.start := by
  have hchain : cuts.IsChain fun a b => a.start < b.start := h.chain.imp fun _ _ hab => hab.1
  have htrans : Trans (fun a b : Cut => a.start < b.start) (fun a b : Cut => a.start < b.start)
      fun a b : Cut => a.start < b.start := ⟨Nat.lt_trans⟩
  exact List.isChain_iff_pairwise.mp hchain

theorem places_le (h : Windows text size overlap start cuts) :
    ((placed text cuts).map Prod.fst).Pairwise (· ≤ ·) := by
  rw [placed, List.map_map, List.pairwise_map]
  have hsorted : (cuts.filter fun cut => !cut.text.isEmpty).Pairwise fun a b => a.start < b.start :=
    h.starts_lt.sublist List.filter_sublist
  refine hsorted.imp_of_mem fun ha hb hlt => ?_
  rw [List.mem_filter] at ha hb
  exact (h.each _ ha.1).place_le (h.each _ hb.1) (by simpa using ha.2) (by simpa using hb.2) hlt

theorem black_placed (h : Windows text size overlap 0 cuts) {i : Nat} {c : Char}
    (hc : text[i]? = some c) (hblack : isWhite c = false) :
    ∃ p ∈ placed text cuts, p.1 ≤ i ∧ i < p.1 + p.2.length := by
  obtain ⟨hi, -⟩ := List.getElem?_eq_some_iff.mp hc
  obtain ⟨cut, hcut, hlo, hhi⟩ := h.exists_window (Nat.zero_le i) hi
  have hspan := (h.each cut hcut).black_in_text hc hblack hlo hhi
  refine ⟨(cut.place text, cut.text), List.mem_map_of_mem (List.mem_filter.mpr ⟨hcut, ?_⟩), hspan⟩
  have hne : cut.text ≠ [] := by
    intro hnil
    rw [hnil, List.length_nil] at hspan
    omega
  simpa using hne

end Windows

/-- **Chunks of a text.**  With fuel for as many windows as there are characters,
    `chunk_text` returns, whatever the size and the overlap are and whether or not the build
    checks.  The windows go from the start of the text to its end, and each one starts behind
    the start of the one before it, at most the overlap before its end.  The chunks are what
    is left of them: they are trimmed, fit, stand in the order of the text, and have every
    character of it that is not white. -/
theorem chunkText_covers (checks : Bool) (text : Chars) (size overlap more : Nat) :
    ∃ cuts, cutText checks (text.val.length + more) text size overlap = .ok (some cuts) ∧
      Windows text (max size 1) (min overlap (max size 1 - 1)) 0 cuts ∧
      chunkText checks (text.val.length + more) text size overlap =
        .ok (some ((placed text cuts).map Prod.snd)) ∧
      (∀ p ∈ placed text cuts, p.2 ≠ [] ∧ trim p.2 = p.2 ∧ p.2.length ≤ max size 1 ∧
        (text.val.drop p.1).take p.2.length = p.2) ∧
      ((placed text cuts).map Prod.fst).Pairwise (· ≤ ·) ∧
      ∀ i c, text.val[i]? = some c → isWhite c = false →
        ∃ p ∈ placed text cuts, p.1 ≤ i ∧ i < p.1 + p.2.length := by
  obtain ⟨cuts, hcuts, hwindows⟩ := cutText_spec checks text size overlap more
  refine ⟨cuts, hcuts, hwindows, ?_, ?_, hwindows.places_le, fun i c => hwindows.black_placed⟩
  · rw [chunkText, hcuts, map_snd_placed]
    rfl
  · intro p hp
    obtain ⟨cut, hcut, hne, rfl⟩ := mem_placed hp
    have hwindow := hwindows.each cut hcut
    exact ⟨hne, hwindow.trim_text, hwindow.length_text_le, hwindow.text_at_place⟩

end Places

end Maranode.Rag
