/-
  Maranode.Lib.LineFeed

  Lines that arrive in pieces.

  A reader keeps what has no line break yet and handles every line once it is there.  A line
  may make it leave the rest for the next piece.  However the text was cut, the lines are
  handled in order, each once (`feed_all`).
-/
import Maranode.Lib.Text

namespace Lib.Text

/-- The first line without its line break, and what is behind it. -/
def cutLine : Text → Option (Text × Text)
  | [] => none
  | c :: cs => if c = '\n' then some ([], cs) else (cutLine cs).map fun p => (c :: p.1, p.2)

theorem cutLine_eq_none {cs : Text} : cutLine cs = none ↔ '\n' ∉ cs := by
  induction cs with
  | nil => exact iff_of_true rfl List.not_mem_nil
  | cons c cs ih =>
      rw [cutLine, List.mem_cons, not_or]
      split
      · next hc => exact iff_of_false (Option.some_ne_none _) fun h => h.1 hc.symm
      · next hc => rw [Option.map_eq_none_iff, ih, and_iff_right (Ne.symm hc)]

theorem cutLine_eq_some {cs line rest : Text} (h : cutLine cs = some (line, rest)) :
    cs = line ++ '\n' :: rest ∧ '\n' ∉ line := by
  induction cs generalizing line with
  | nil => cases h
  | cons c cs ih =>
      rw [cutLine] at h
      split at h
      · next hc =>
          obtain ⟨rfl, rfl⟩ := Prod.mk.inj (Option.some.inj h)
          exact ⟨by rw [hc, List.nil_append], List.not_mem_nil⟩
      · next hc =>
          obtain ⟨⟨line', rest'⟩, hcut, hpair⟩ := Option.map_eq_some_iff.mp h
          obtain ⟨rfl, rfl⟩ := Prod.mk.inj hpair
          obtain ⟨rfl, hno⟩ := ih hcut
          refine ⟨List.cons_append .., fun hmem => ?_⟩
          rcases List.mem_cons.mp hmem with hnl | hmem
          · exact hc hnl.symm
          · exact hno hmem

section Feed

variable {σ : Type} (f : σ → Text → σ × Bool)

/-- Handle the lines that are there; `true` leaves the rest where it is. -/
def drain (buf : Text) (s : σ) : Text × σ :=
  match _h : cutLine buf with
  | none => (buf, s)
  | some p =>
      if (f s p.1).2 then (p.2, (f s p.1).1)
      else drain p.2 (f s p.1).1
termination_by buf.length
decreasing_by
  have hbuf := congrArg List.length (@cutLine_eq_some _ p.1 p.2 _h).1
  rw [List.length_append, List.length_cons] at hbuf
  omega

/-- A piece arrives. -/
def feed (st : Text × σ) (piece : Text) : Text × σ := drain f (st.1 ++ piece) st.2

/-- The lines, one after the other. -/
def handleAll (s : σ) (ls : List Text) : σ := ls.foldl (fun s line => (f s line).1) s

/-- One of the lines leaves the rest. -/
def Stopped (s : σ) (done : List Text) : Prop :=
  ∃ front line back, done = front ++ line :: back ∧
    (f (handleAll f s front) line).2 = true

/-- Some lines of the text have been handled; where a line is left one of them left it. -/
structure Fed (s : σ) (text : Text) (st : Text × σ) (done : List Text) : Prop where
  text : text = joinLines done ++ st.1
  lines : ∀ line ∈ done, '\n' ∉ line
  state : st.2 = handleAll f s done
  stopped : '\n' ∈ st.1 → Stopped f s done

variable {f} {s : σ} {text buf : Text} {st : Text × σ} {done : List Text}

theorem handleAll_append (s : σ) (ls ms : List Text) :
    handleAll f s (ls ++ ms) = handleAll f (handleAll f s ls) ms :=
  List.foldl_append

/-- The lines in the buffer are handled behind those that are done. -/
theorem fed_drain (s : σ) (buf : Text) :
    ∃ ls, buf = joinLines ls ++ (drain f buf s).1 ∧ (∀ line ∈ ls, '\n' ∉ line) ∧
      (drain f buf s).2 = handleAll f s ls ∧
      ('\n' ∈ (drain f buf s).1 → Stopped f s ls) := by
  induction buf, s using drain.induct (f := f) with
  -- No line end in the buffer.
  | case1 buf s hnone =>
      rw [drain]
      split
      · exact ⟨[], rfl, fun line h => absurd h List.not_mem_nil, rfl,
          fun h => absurd h (cutLine_eq_none.mp hnone)⟩
      · next p hp =>
          rw [hnone] at hp
          cases hp
  -- The line stops the reader, and what is behind it stays in the buffer.
  | case2 buf s p hp hstop =>
      obtain ⟨hbuf, hno⟩ := @cutLine_eq_some _ p.1 p.2 hp
      have hdrain : drain f buf s = (p.2, (f s p.1).1) := by
        rw [drain]
        split
        · next hnone =>
            rw [hp] at hnone
            cases hnone
        · next q hq =>
            obtain rfl := Option.some.inj (hp.symm.trans hq)
            rw [if_pos hstop]
      rw [hdrain]
      refine ⟨[p.1], ?_, List.forall_mem_singleton.mpr hno, rfl,
        fun _ => ⟨[], p.1, [], rfl, hstop⟩⟩
      rw [joinLines_cons, joinLines_nil, List.append_assoc]
      exact hbuf
  -- The line goes through, and the rest is drained like any buffer.
  | case3 buf s p hp hgo ih =>
      obtain ⟨hbuf, hno⟩ := @cutLine_eq_some _ p.1 p.2 hp
      have hdrain : drain f buf s = drain f p.2 (f s p.1).1 := by
        rw [drain]
        split
        · next hnone =>
            rw [hp] at hnone
            cases hnone
        · next q hq =>
            obtain rfl := Option.some.inj (hp.symm.trans hq)
            rw [if_neg hgo]
      rw [hdrain]
      obtain ⟨ls, hls, hall, hstate, hstop⟩ := ih
      refine ⟨p.1 :: ls, ?_, List.forall_mem_cons.mpr ⟨hno, hall⟩, hstate, fun hmem => ?_⟩
      · rw [joinLines_cons, List.append_assoc, List.cons_append, ← hls]
        exact hbuf
      · obtain ⟨front, line, back, rfl, hline⟩ := hstop hmem
        exact ⟨p.1 :: front, line, back, rfl, hline⟩

/-- A piece arrives behind what has been read. -/
theorem Fed.feed (h : Fed f s text st done) (piece : Text) :
    ∃ ls, Fed f s (text ++ piece) (feed f st piece) (done ++ ls) := by
  obtain ⟨ls, hls, hall, hstate, hstop⟩ := fed_drain (f := f) st.2 (st.1 ++ piece)
  refine ⟨ls, ?_, ?_, ?_, fun hmem => ?_⟩
  · rw [h.text, joinLines_append, List.append_assoc, List.append_assoc, hls]
    rfl
  · intro line hline
    rcases List.mem_append.mp hline with hline | hline
    · exact h.lines line hline
    · exact hall line hline
  · rw [handleAll_append, ← h.state]
    exact hstate
  · obtain ⟨front, line, back, rfl, hline⟩ := hstop hmem
    refine ⟨done ++ front, line, back, List.append_assoc .. |>.symm, ?_⟩
    rw [handleAll_append, ← h.state]
    exact hline

theorem Fed.foldl (h : Fed f s text st done) (pieces : List Text) :
    ∃ done', Fed f s (text ++ pieces.flatten) (pieces.foldl (Text.feed f) st) done' := by
  induction pieces generalizing text st done with
  | nil =>
      rw [List.flatten_nil, List.append_nil]
      exact ⟨done, h⟩
  | cons piece pieces ih =>
      obtain ⟨ls, hls⟩ := h.feed piece
      rw [List.flatten_cons, ← List.append_assoc]
      exact ih hls

theorem fed_nil (s : σ) : Fed f s [] ([], s) [] where
  text := rfl
  lines _ h := absurd h List.not_mem_nil
  state := rfl
  stopped h := absurd h List.not_mem_nil

/-- Lines that are in front of lines are the first of them. -/
theorem exists_of_joinLines {done lines : List Text} {rest : Text}
    (hdone : ∀ line ∈ done, '\n' ∉ line) (hlines : ∀ line ∈ lines, '\n' ∉ line)
    (h : joinLines lines = joinLines done ++ rest) :
    ∃ back, lines = done ++ back ∧ rest = joinLines back := by
  induction done generalizing lines with
  | nil => exact ⟨lines, rfl, h.symm⟩
  | cons line done ih =>
      obtain ⟨hline, hdone'⟩ := List.forall_mem_cons.mp hdone
      cases lines with
      | nil =>
          rw [joinLines_nil, joinLines_cons, List.append_assoc, List.cons_append] at h
          exact absurd h.symm (List.append_ne_nil_of_right_ne_nil _ (List.cons_ne_nil _ _))
      | cons line' lines =>
          obtain ⟨hline', hothers⟩ := List.forall_mem_cons.mp hlines
          rw [joinLines_cons, joinLines_cons, List.append_assoc, List.cons_append] at h
          have hcut : ∀ (l r : Text), '\n' ∉ l → cutLine (l ++ '\n' :: r) = some (l, r) := by
            intro l r hl
            induction l with
            | nil => rfl
            | cons c l ihl =>
                have hc : ¬ c = '\n' := fun hc => hl (hc ▸ List.mem_cons_self)
                rw [List.cons_append, cutLine, if_neg hc,
                  ihl fun hmem => hl (List.mem_cons_of_mem _ hmem)]
                rfl
          have hboth := congrArg cutLine h
          rw [hcut _ _ hline', hcut _ _ hline] at hboth
          obtain ⟨rfl, hrest⟩ := Prod.mk.inj (Option.some.inj hboth)
          obtain ⟨back, rfl, hback⟩ := ih hdone' hothers hrest
          exact ⟨back, rfl, hback⟩

/-- **Lines in pieces.**  A text of lines, of which none does anything behind one that leaves
    the rest, is handled line by line, wherever it is cut. -/
theorem feed_all {pieces lines : List Text} (hlines : ∀ line ∈ lines, '\n' ∉ line)
    (hpieces : pieces.flatten = joinLines lines)
    (hquiet : ∀ front line back, lines = front ++ line :: back →
      (f (handleAll f s front) line).2 = true → ∀ l ∈ back, ∀ t, (f t l).1 = t) :
    (pieces.foldl (feed f) ([], s)).2 = handleAll f s lines := by
  -- Drained: a front of the lines, and what is left of the text.
  obtain ⟨done, hdone⟩ := (fed_nil (f := f) s).foldl pieces
  rw [List.nil_append] at hdone
  obtain ⟨back, rfl, hback⟩ :=
    exists_of_joinLines hdone.lines hlines (hpieces.symm.trans hdone.text)
  rw [hdone.state, handleAll_append]
  cases back with
  | nil => rfl
  -- A line end is left in the buffer, so a line among those handled stopped the reader.
  | cons l ls =>
      have hmem : '\n' ∈ (pieces.foldl (feed f) ([], s)).1 := by
        rw [hback, joinLines_cons]
        exact List.mem_append_right l List.mem_cons_self
      obtain ⟨front, line, rest, rfl, hstop⟩ := hdone.stopped hmem
      have hall := hquiet front line (rest ++ l :: ls)
        (by rw [List.append_assoc, List.cons_append]) hstop
      -- Lines that change nothing can be handled or not.
      have hnoop : ∀ (ms : List Text) (t : σ), (∀ m ∈ ms, ∀ t, (f t m).1 = t) →
          handleAll f t ms = t := by
        intro ms
        induction ms with
        | nil => exact fun _ _ => rfl
        | cons m ms ih =>
            intro t hms
            obtain ⟨hm, hms⟩ := List.forall_mem_cons.mp hms
            rw [handleAll, List.foldl_cons, hm t]
            exact ih t hms
      exact (hnoop _ _ fun m hm => hall m (List.mem_append_right rest hm)).symm

end Feed

end Lib.Text
