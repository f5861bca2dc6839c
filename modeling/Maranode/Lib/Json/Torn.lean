/-
  Maranode.Lib.Json.Torn

  Texts that were cut off while being written.  A proper prefix of a written
  object is not a JSON text (`parse_eq_none_of_prefix`), and neither the prefix
  nor the whole object becomes one when another object is written right after it
  (`parse_prefix_append`): what the prefix leaves open stays open, and inside a
  string the brace and quote that open the second object close that string in
  front of a letter.
-/
import Maranode.Lib.Json.RoundTrip

namespace Lib.Json

/-! ## A complete value takes only whitespace, or more of a number -/

/-- The text read so far may already be a whole JSON text. -/
def Settled (s : State) : Prop := (∃ v, s = (.after v, [])) ∨ ∃ acc, s = (.num acc, [])

/-- What a whole JSON text can be extended by. -/
def isTrailer (c : Char) : Bool := isWs c || isNumChar c

theorem settled_of_finish {s : State} {v : Value} (h : finish s = some v) : Settled s := by
  obtain ⟨m, k⟩ := s
  cases m <;> cases k <;> simp only [finish, reduceCtorEq] at h
  case after.nil w => exact .inl ⟨w, rfl⟩
  case num.nil acc => exact .inr ⟨acc, rfl⟩

theorem Settled.step {s s' : State} {c : Char} (hs : Settled s) (h : step s c = some s') :
    isTrailer c = true ∧ Settled s' := by
  have hafter : ∀ w, stepAfter w [] c = some s' → isTrailer c = true ∧ Settled s' := by
    intro w hw
    unfold stepAfter at hw
    split at hw
    · next hws => exact ⟨by simp [isTrailer, hws], .inl ⟨w, (Option.some.inj hw).symm⟩⟩
    · cases hw
  rcases hs with ⟨v, rfl⟩ | ⟨acc, rfl⟩
  · exact hafter v h
  · simp only [Json.step] at h
    split at h
    · next hnum =>
        exact ⟨by simp [isTrailer, hnum], .inr ⟨acc ++ [c], (Option.some.inj h).symm⟩⟩
    · obtain ⟨n, -, hn⟩ := Option.bind_eq_some_iff.mp h
      exact hafter _ hn

theorem Settled.run {s s' : State} {cs : Text} (hs : Settled s) (h : run s cs = some s') :
    ∀ c ∈ cs, isTrailer c = true := by
  induction cs generalizing s with
  | nil => simp
  | cons c cs ih =>
      obtain ⟨mid, hmid, hrest⟩ := Option.bind_eq_some_iff.mp h
      obtain ⟨hc, hsettled⟩ := hs.step hmid
      intro d hd
      rcases List.mem_cons.mp hd with rfl | hd
      · exact hc
      · exact ih hsettled hrest d hd

theorem renderFields_eq_concat (fs : List (String × Value)) :
    ∃ cs, renderFields fs = cs ++ ['}'] := by
  induction fs with
  | nil => exact ⟨[], by rw [renderFields]; rfl⟩
  | cons f fs ih =>
      obtain ⟨key, v⟩ := f
      obtain ⟨cs, hcs⟩ := ih
      exact ⟨',' :: (renderStr key ++ ':' :: (render v ++ cs)), by simp [renderFields, hcs]⟩

/-- A written object opens with a brace and ends with one. -/
theorem render_obj_eq (fs : List (String × Value)) :
    ∃ cs, render (.obj fs) = '{' :: (cs ++ ['}']) := by
  rcases fs with - | ⟨⟨key, v⟩, fs⟩
  · exact ⟨[], by rw [render]; rfl⟩
  · obtain ⟨cs, hcs⟩ := renderFields_eq_concat fs
    exact ⟨renderStr key ++ ':' :: (render v ++ cs), by simp [render, hcs]⟩

/-- The reader's state after a prefix of a written object. -/
theorem run_prefix_obj {fs : List (String × Value)} {p u : Text}
    (h : render (.obj fs) = p ++ u) : ∃ s, run (.value, []) p = some s ∧
      (run s u).isSome = true := by
  have hp := parse_render (.obj fs)
  rw [h, parse, accept_append] at hp
  obtain ⟨s, hs, hacc⟩ := Option.bind_eq_some_iff.mp hp
  obtain ⟨s', hs', -⟩ := Option.bind_eq_some_iff.mp hacc
  exact ⟨s, hs, by rw [hs']; rfl⟩

/-- The part of a JSON text before a closing brace is not a JSON text. -/
theorem parse_eq_none_of_rest {p u : Text} {v : Value} (h : parse (p ++ u) = some v)
    (hu : '}' ∈ u) : parse p = none := by
  rw [parse, accept_append] at h
  obtain ⟨s, hs, hacc⟩ := Option.bind_eq_some_iff.mp h
  obtain ⟨s', hs', -⟩ := Option.bind_eq_some_iff.mp hacc
  by_contra hne
  obtain ⟨w, hw⟩ := Option.ne_none_iff_exists'.mp hne
  rw [parse, accept, hs] at hw
  exact absurd ((settled_of_finish hw).run hs' _ hu) (by decide)

/-- The last character of a text is in every part that was cut off its end. -/
theorem mem_of_append_eq_concat {p u cs : Text} {c : Char} (h : p ++ u = cs ++ [c])
    (hu : u ≠ []) : c ∈ u := by
  have hlast : (p ++ u).getLast? = some c := by rw [h, List.getLast?_concat]
  rw [List.getLast?_append, List.getLast?_eq_some_getLast hu] at hlast
  exact Option.some.inj hlast ▸ List.getLast_mem hu

/-- A written object with its end cut off is not a JSON text. -/
theorem parse_eq_none_of_prefix {fs : List (String × Value)} {p u : Text}
    (h : render (.obj fs) = p ++ u) (hu : u ≠ []) : parse p = none := by
  obtain ⟨cs, hcs⟩ := render_obj_eq fs
  have hparse := parse_render (.obj fs)
  have hlast : p ++ u = ('{' :: cs) ++ ['}'] := h.symm.trans hcs
  rw [h] at hparse
  exact parse_eq_none_of_rest hparse (mem_of_append_eq_concat hlast hu)

/-! ## Inside an object -/

/-- The state of a text that opened with a bracket: either some container is
    open, or the whole value has been read. -/
def Inside : State → Prop
  | (.after _, _) => True
  | (.lit rest _, k) => k ≠ [] ∧ '{' ∉ rest
  | (_, k) => k ≠ []

theorem Inside.of_ne_nil {m : Mode} {k : List Frame} (hk : k ≠ [])
    (hlit : ∀ rest v, m = .lit rest v → '{' ∉ rest) : Inside (m, k) := by
  cases m <;> first | exact hk | trivial | exact ⟨hk, hlit _ _ rfl⟩

theorem inside_stepValue {k : List Frame} {c : Char} {s : State} (hk : k ≠ [])
    (h : stepValue k c = some s) : Inside s := by
  unfold stepValue at h
  split_ifs at h <;> cases h <;>
    first
      | exact List.cons_ne_nil _ _
      | exact hk
      | exact ⟨hk, by decide⟩

theorem inside_stepAfter {v : Value} {k : List Frame} {c : Char} {s : State}
    (h : stepAfter v k c = some s) : Inside s := by
  rcases k with - | ⟨f, k⟩
  · simp only [stepAfter] at h
    split_ifs at h
    cases h; trivial
  · cases f <;> simp only [stepAfter] at h <;> split_ifs at h <;> cases h <;>
      first | trivial | exact List.cons_ne_nil _ _

theorem Inside.step {s s' : State} {c : Char} (hs : Inside s) (h : step s c = some s') :
    Inside s' := by
  -- By the mode of the reader; only a closing step can leave the value it is inside of.
  obtain ⟨m, k⟩ := s
  cases m with
  | value =>
      simp only [Json.step] at h
      split_ifs at h
      · cases h; exact hs
      · exact inside_stepValue hs h
  | valueOrClose =>
      simp only [Json.step] at h
      split_ifs at h
      · cases h; exact hs
      · rcases k with - | ⟨f, k⟩
        · cases h
        · cases f <;> cases h
          trivial
      · exact inside_stepValue hs h
  | keyOrClose =>
      simp only [Json.step] at h
      split_ifs at h
      · cases h; exact hs
      · rcases k with - | ⟨f, k⟩
        · cases h
        · cases f <;> cases h
          trivial
      · cases h; exact hs
  | key =>
      simp only [Json.step] at h
      split_ifs at h <;> cases h <;> exact hs
  | colon key =>
      simp only [Json.step] at h
      split_ifs at h
      · cases h; exact hs
      · rcases k with - | ⟨f, k⟩
        · cases h
        · cases f <;> cases h
          exact List.cons_ne_nil _ _
  | after v => exact inside_stepAfter h
  -- The quote ends the string: a key waits for its colon, a value is one more element.
  | str isKey acc =>
      simp only [Json.step] at h
      split_ifs at h
      · cases h
        cases isKey
        · trivial
        · exact hs
      · cases h; exact hs
      · cases h; exact hs
  | esc isKey acc =>
      simp only [Json.step] at h
      split_ifs at h
      · cases h; exact hs
      · obtain ⟨d, -, rfl⟩ := Option.map_eq_some_iff.mp h
        exact hs
  -- A code point that is complete goes back into the string it is in.
  | uni isKey acc hi n code =>
      obtain ⟨d, -, hd⟩ := Option.bind_eq_some_iff.mp h
      split_ifs at hd
      · obtain ⟨m, hm, rfl⟩ := Option.map_eq_some_iff.mp hd
        refine .of_ne_nil hs ?_
        rintro rest v rfl
        unfold closeUni at hm
        split at hm <;> split_ifs at hm <;> cases hm
      · cases hd; exact hs
  | surr isKey acc hi =>
      simp only [Json.step] at h
      split_ifs at h
      cases h; exact hs
  | surrEsc isKey acc hi =>
      simp only [Json.step] at h
      split_ifs at h
      cases h; exact hs
  -- A number ends at the first character that is not its own, and that one closes or not.
  | num acc =>
      simp only [Json.step] at h
      split_ifs at h
      · cases h; exact hs
      · obtain ⟨n, -, hn⟩ := Option.bind_eq_some_iff.mp h
        exact inside_stepAfter hn
  | lit rest v =>
      obtain ⟨hk, hrest⟩ := hs
      simp only [Json.step] at h
      split at h
      · split_ifs at h
        cases h; trivial
      · split_ifs at h
        cases h
        exact ⟨hk, fun hmem => hrest (List.mem_cons_of_mem _ hmem)⟩
      · cases h

theorem Inside.run {s s' : State} {cs : Text} (hs : Inside s) (h : run s cs = some s') :
    Inside s' := by
  induction cs generalizing s with
  | nil => cases h; exact hs
  | cons c cs ih =>
      obtain ⟨mid, hmid, hrest⟩ := Option.bind_eq_some_iff.mp h
      exact ih (hs.step hmid) hrest

/-! ## A second object after a cut-off one -/

/-- A character that no complete token may be followed by. -/
def isWordChar (c : Char) : Bool := c.isAlpha

theorem step_closeStr_word (isKey : Bool) (acc : Text) (k : List Frame) {c : Char}
    (hc : isWordChar c = true) : step (closeStr isKey acc, k) c = none := by
  have hne : ∀ d : Char, isWordChar d = false → c ≠ d := by
    rintro d hd rfl
    exact absurd hc (by simp [hd])
  have hws : isWs c = false := by
    simp only [isWs, Bool.or_eq_false_iff, beq_eq_false_iff_ne]
    exact ⟨⟨⟨hne _ (by decide), hne _ (by decide)⟩, hne _ (by decide)⟩, hne _ (by decide)⟩
  cases isKey with
  | true => simp [closeStr, hws, hne ':' (by decide)]
  | false =>
      simp only [closeStr, Bool.false_eq_true, if_false, Json.step, stepAfter, hws]
      rcases k with - | ⟨f, k⟩
      · rfl
      · cases f <;> simp [hne ',' (by decide), hne ']' (by decide), hne '}' (by decide)]

/-- A written object whose first name begins with a letter, read from a state
    inside another text, never completes that text. -/
theorem accept_inside_obj {s : State} (hs : Inside s) {t : Text} {c : Char} {v : Value}
    (ht : render v = t) (hopen : ∃ cs, t = '{' :: quote :: c :: cs)
    (hc : isWordChar c = true) : accept s t = none := by
  obtain ⟨cs, hopen⟩ := hopen
  -- In value position the object is read whole, and the frame around it is still open.
  have hvalue : ∀ k, k ≠ [] → accept (.value, k) t = none := by
    intro k hk
    have h := @accept_render v k [] trivial
    rw [List.append_nil, ht] at h
    rw [h, accept_nil]
    cases k with
    | nil => exact absurd rfl hk
    | cons f k => rfl
  -- Everywhere else but in a string the opening brace is refused at once.
  have hbrace : ∀ s : State, step s '{' = none → accept s t = none := by
    intro s hstep
    rw [hopen]
    exact accept_cons_of_step_none hstep _
  obtain ⟨m, k⟩ := s
  cases m with
  | value => exact hvalue k hs
  | valueOrClose =>
      have h := accept_valueOrClose_render v k []
      rw [List.append_nil, ht] at h
      rw [h]
      exact hvalue k hs
  | keyOrClose => exact hbrace _ rfl
  | key => exact hbrace _ rfl
  | colon key => exact hbrace _ rfl
  | after w =>
      apply hbrace
      rcases k with - | ⟨f, k⟩
      · rfl
      · cases f <;> rfl
  -- In a string the brace is text, the quote ends it and a word character may not follow.
  | str isKey acc =>
      have h1 : step (.str isKey acc, k) '{' = some (.str isKey (acc ++ ['{']), k) := rfl
      have h2 : step (.str isKey (acc ++ ['{']), k) quote
          = some (closeStr isKey (acc ++ ['{']), k) := rfl
      rw [hopen, accept_cons_of_step h1, accept_cons_of_step h2]
      exact accept_cons_of_step_none (step_closeStr_word isKey _ k hc) _
  | esc isKey acc => exact hbrace _ rfl
  | uni isKey acc hi n code => exact hbrace _ rfl
  | surr isKey acc hi => exact hbrace _ rfl
  | surrEsc isKey acc hi => exact hbrace _ rfl
  | num acc =>
      apply hbrace
      have hnum : isNumChar '{' = false := by decide
      simp only [Json.step, hnum, Bool.false_eq_true, if_false]
      cases NumLit.ofText? acc with
      | none => rfl
      | some n =>
          rcases k with - | ⟨f, k⟩
          · rfl
          · cases f <;> rfl
  | lit rest w =>
      obtain ⟨-, hrest⟩ := hs
      apply hbrace
      rcases rest with - | ⟨d, rest⟩
      · rfl
      · have hd : '{' ≠ d := by
          rintro rfl
          exact hrest (List.mem_cons_self ..)
        cases rest <;> simp [hd]

theorem isWordChar_escapeChar {c : Char} (hc : isWordChar c = true) : escapeChar c = [c] := by
  have hne : ∀ d : Char, isWordChar d = false → c ≠ d := by
    rintro d hd rfl
    exact absurd hc (by simp [hd])
  have h32 : ¬ c.toNat < 32 := by
    intro hlt
    have hall : ∀ n < 32, isWordChar (Char.ofNat n) = false := by decide
    have hcn := hall c.toNat hlt
    rw [Char.ofNat_toNat] at hcn
    exact absurd hc (by simp [hcn])
  unfold escapeChar
  rw [if_neg (hne _ (by decide)), if_neg (hne _ (by decide)), if_neg (hne _ (by decide)),
    if_neg (hne _ (by decide)), if_neg (hne _ (by decide)), if_neg (by omega),
    if_neg (by omega), if_neg h32]

/-- **No object repairs a cut-off one.**  A non-empty prefix of a written object,
    the whole included, followed by an object whose first name begins with a
    letter is not a JSON text. -/
theorem parse_prefix_append {fs gs : List (String × Value)} {p u : Text} {key : String}
    {v : Value} {c : Char} {cs : Text} (h : render (.obj fs) = p ++ u) (hp : p ≠ [])
    (hkey : key.toList = c :: cs) (hc : isWordChar c = true) :
    parse (p ++ render (.obj ((key, v) :: gs))) = none := by
  obtain ⟨s, hs, -⟩ := run_prefix_obj h
  have hinside : Inside s := by
    obtain ⟨body, hbody⟩ := render_obj_eq fs
    rw [hbody] at h
    rcases p with - | ⟨d, p⟩
    · exact absurd rfl hp
    · obtain ⟨rfl, -⟩ := List.cons.inj h
      have hstart : Inside (.keyOrClose, [.obj []]) := List.cons_ne_nil _ _
      exact hstart.run hs
  rw [parse, accept_append, hs, Option.bind_some]
  refine accept_inside_obj hinside rfl ?_ hc
  rw [render, renderStr, hkey, List.flatMap_cons, isWordChar_escapeChar hc]
  exact ⟨_, rfl⟩

end Lib.Json
