/-
  Maranode.Lib.Json.RoundTrip

  Reading back what the writer wrote gives the value written (`parse_render`), so
  the writer is injective (`render_injective`), and the text it writes has no
  line break (`newline_notMem_render`).
-/
import Maranode.Lib.Json.Parse

namespace Lib.Json

/-! ## Strings -/

theorem hexVal_hexDigit {n : Nat} (h : n < 16) : hexVal (hexDigit n) = some n := by
  interval_cases n <;> decide

theorem hexVal_zero : hexVal '0' = some 0 := by decide

/-- The four hex digits of a control character, read from the start of `\u`. -/
theorem accept_uni_control {c : Char} (hc : c.toNat < 32) (isKey : Bool) (acc : Text)
    (k : List Frame) (rest : Text) :
    accept (.uni isKey acc none 0 0, k)
        ('0' :: '0' :: hexDigit (c.toNat / 16) :: hexDigit (c.toNat % 16) :: rest)
      = accept (.str isKey (acc ++ [c]), k) rest := by
  have hhi : hexVal (hexDigit (c.toNat / 16)) = some (c.toNat / 16) :=
    hexVal_hexDigit (by omega)
  have hlo : hexVal (hexDigit (c.toNat % 16)) = some (c.toNat % 16) :=
    hexVal_hexDigit (by omega)
  have hcode : ((0 * 16 + 0) * 16 + 0) * 16 + c.toNat / 16 = c.toNat / 16 := by omega
  have hval : (c.toNat / 16) * 16 + c.toNat % 16 = c.toNat := by omega
  rw [accept_cons_of_step (t := (.uni isKey acc none 1 0, k)) (by simp [hexVal_zero]),
    accept_cons_of_step (t := (.uni isKey acc none 2 0, k)) (by simp [hexVal_zero]),
    accept_cons_of_step (t := (.uni isKey acc none 3 (c.toNat / 16), k))
      (by simp [hhi]),
    accept_cons_of_step (t := (.str isKey (acc ++ [c]), k))]
  simp only [step, hlo, Option.bind_some, if_true, hval, closeUni]
  rw [if_neg (by omega), if_neg (by omega), Char.ofNat_toNat]
  rfl

/-- One escaped character is read back as itself. -/
theorem accept_escapeChar (isKey : Bool) (acc : Text) (k : List Frame) (c : Char)
    (rest : Text) :
    accept (.str isKey acc, k) (escapeChar c ++ rest)
      = accept (.str isKey (acc ++ [c]), k) rest := by
  have hesc : ∀ d : Char, unescape d = some c → d ≠ 'u' →
      accept (.str isKey acc, k) ('\\' :: d :: rest)
        = accept (.str isKey (acc ++ [c]), k) rest := by
    intro d hd hu
    have hbs : '\\' ≠ quote := by decide
    rw [accept_cons_of_step (t := (.esc isKey acc, k)) (by simp [hbs]),
      accept_cons_of_step (t := (.str isKey (acc ++ [c]), k)) (by simp [hu, hd])]
  unfold escapeChar
  -- The escapes in the order in which `escapeChar` tries them.
  split
  · next h => exact hesc quote (by rw [h]; decide) (by decide)
  split
  · next h => exact hesc '\\' (by rw [h]; decide) (by decide)
  split
  · next h => exact hesc 'n' (by rw [h]; decide) (by decide)
  split
  · next h => exact hesc 'r' (by rw [h]; decide) (by decide)
  split
  · next h => exact hesc 't' (by rw [h]; decide) (by decide)
  split
  -- Backspace and form feed are told by their numbers.
  · next h =>
      have hc : Char.ofNat 8 = c := by rw [← h, Char.ofNat_toNat]
      exact hesc 'b' (by rw [← hc]; decide) (by decide)
  split
  · next h =>
      have hc : Char.ofNat 12 = c := by rw [← h, Char.ofNat_toNat]
      exact hesc 'f' (by rw [← hc]; decide) (by decide)
  split
  -- Any other control character is written in hexadecimal digits.
  · next h =>
      have hbs : '\\' ≠ quote := by decide
      simp only [List.cons_append, List.nil_append]
      rw [accept_cons_of_step (t := (.esc isKey acc, k)) (by simp [hbs]),
        accept_cons_of_step (t := (.uni isKey acc none 0 0, k)) (by simp)]
      exact accept_uni_control h isKey acc k rest
  -- Every other character stands for itself.
  · next hq hb _ _ _ _ _ h32 =>
      exact accept_cons_of_step (by simp only [step, if_neg hq, if_neg hb, if_neg h32]) rest

theorem accept_escape (isKey : Bool) (acc : Text) (k : List Frame) (cs rest : Text) :
    accept (.str isKey acc, k) (cs.flatMap escapeChar ++ rest)
      = accept (.str isKey (acc ++ cs), k) rest := by
  induction cs generalizing acc with
  | nil => simp
  | cons c cs ih =>
      rw [List.flatMap_cons, List.append_assoc, accept_escapeChar, ih, List.append_assoc,
        List.singleton_append]

/-- A written string, read from just after its opening quote. -/
theorem accept_strBody (isKey : Bool) (s : String) (k : List Frame) (rest : Text) :
    accept (.str isKey [], k) (s.toList.flatMap escapeChar ++ quote :: rest)
      = accept (closeStr isKey s.toList, k) rest := by
  rw [accept_escape, List.nil_append]
  exact accept_cons_of_step (by simp) rest

theorem renderStr_append (s : String) (rest : Text) :
    renderStr s ++ rest = quote :: (s.toList.flatMap escapeChar ++ quote :: rest) := by
  simp [renderStr]

theorem isWs_quote : isWs quote = false := by decide

/-- A member name and its colon, where a name may stand. -/
theorem accept_key {m : Mode} (hm : m = .keyOrClose ∨ m = .key) (key : String)
    (fs : List (String × Value)) (k : List Frame) (rest : Text) :
    accept (m, .obj fs :: k) (renderStr key ++ ':' :: rest)
      = accept (.value, .field fs key :: k) rest := by
  have hopen : step (m, .obj fs :: k) quote = some (.str true [], .obj fs :: k) := by
    have hbrace : quote ≠ '}' := by decide
    rcases hm with rfl | rfl
    · simp [isWs_quote, hbrace]
    · simp [isWs_quote]
  have hcolon : isWs ':' = false := by decide
  rw [renderStr_append, accept_cons_of_step hopen, accept_strBody]
  simp only [closeStr, if_true, String.ofList_toList]
  exact accept_cons_of_step (by simp [hcolon]) rest

/-! ## Numbers -/

/-- What follows cannot be taken for more of a number. -/
def NoNumHead : Text → Prop
  | [] => True
  | c :: _ => isNumChar c = false

theorem accept_num_append {cs : Text} (h : ∀ c ∈ cs, isNumChar c = true) (acc : Text)
    (k : List Frame) (rest : Text) :
    accept (.num acc, k) (cs ++ rest) = accept (.num (acc ++ cs), k) rest := by
  induction cs generalizing acc with
  | nil => simp
  | cons c cs ih =>
      have hc : isNumChar c = true := h c (List.mem_cons_self ..)
      rw [List.cons_append, accept_cons_of_step (by simp only [step, hc, if_true]; rfl),
        ih fun d hd => h d (List.mem_cons_of_mem _ hd), List.append_assoc,
        List.singleton_append]

/-- A complete literal is a complete value, to whatever may follow one. -/
theorem accept_num_text (n : NumLit) (k : List Frame) {rest : Text} (h : NoNumHead rest) :
    accept (.num n.text, k) rest = accept (.after (.num n), k) rest := by
  cases rest with
  | nil =>
      rw [accept_nil, accept_nil]
      cases k <;> simp [finish]
  | cons c cs =>
      have hc : isNumChar c = false := h
      rw [accept_cons, accept_cons]
      simp [hc]

theorem accept_render_num (n : NumLit) (k : List Frame) {rest : Text} (h : NoNumHead rest) :
    accept (.value, k) (n.text ++ rest) = accept (.after (.num n), k) rest := by
  obtain ⟨c, cs, hcs, hc⟩ := n.text_eq_cons
  have hnum : ∀ d ∈ c :: cs, isNumChar d = true := hcs ▸ n.isNumChar_of_mem
  have hstep : step (.value, k) c = some (.num [c], k) := by
    have hcn : c = '-' ∨ c.isDigit = true := hc
    have hne : ∀ d : Char, isNumChar d = false → d ≠ '-' → c ≠ d := by
      rintro d hd - rfl
      exact absurd (hnum c (List.mem_cons_self ..)) (by simp [hd])
    have hws : isWs c = false := by
      simp only [isWs, Bool.or_eq_false_iff, beq_eq_false_iff_ne]
      exact ⟨⟨⟨hne ' ' (by decide) (by decide), hne '\n' (by decide) (by decide)⟩,
        hne '\t' (by decide) (by decide)⟩, hne '\r' (by decide) (by decide)⟩
    simp only [step, hws, Bool.false_eq_true, if_false, stepValue,
      if_neg (hne '{' (by decide) (by decide)), if_neg (hne '[' (by decide) (by decide)),
      if_neg (hne quote (by decide) (by decide)), if_neg (hne 't' (by decide) (by decide)),
      if_neg (hne 'f' (by decide) (by decide)), if_neg (hne 'n' (by decide) (by decide)),
      if_pos hcn]
  rw [hcs, List.cons_append, accept_cons_of_step hstep,
    accept_num_append fun d hd => hnum d (List.mem_cons_of_mem _ hd), List.singleton_append,
    ← hcs]
  exact accept_num_text n k h

/-! ## Values -/

theorem noNumHead_renderElems (xs : List Value) (rest : Text) :
    NoNumHead (renderElems xs ++ rest) := by
  cases xs <;> simp only [renderElems, List.cons_append, NoNumHead] <;> decide

theorem noNumHead_renderFields (fs : List (String × Value)) (rest : Text) :
    NoNumHead (renderFields fs ++ rest) := by
  rcases fs with - | ⟨⟨k, v⟩, fs⟩ <;>
    simp only [renderFields, List.cons_append, NoNumHead] <;> decide

/-- A written value does not open with whitespace or a closing bracket, so it is
    read the same where an array may still close. -/
theorem accept_valueOrClose_render (v : Value) (k : List Frame) (rest : Text) :
    accept (.valueOrClose, k) (render v ++ rest) = accept (.value, k) (render v ++ rest) := by
  have hhead : ∀ c cs, render v ++ rest = c :: cs → isWs c = false → c ≠ ']' →
      accept (.valueOrClose, k) (render v ++ rest)
        = accept (.value, k) (render v ++ rest) := by
    intro c cs hcs hws hbr
    rw [hcs, accept_cons, accept_cons]
    simp [hws, hbr]
  -- No value begins with a blank or with a closing bracket.
  cases v with
  | null => exact hhead 'n' _ (by rw [render]; rfl) (by decide) (by decide)
  | bool b =>
      cases b with
      | true => exact hhead 't' _ (by rw [render]; rfl) (by decide) (by decide)
      | false => exact hhead 'f' _ (by rw [render]; rfl) (by decide) (by decide)
  | num n =>
      obtain ⟨c, cs, hcs, hc⟩ := n.text_eq_cons
      have hcn : isNumChar c = true := n.isNumChar_of_mem c (hcs ▸ List.mem_cons_self ..)
      have hne : ∀ d : Char, isNumChar d = false → c ≠ d := by
        rintro d hd rfl
        exact absurd hcn (by simp [hd])
      refine hhead c (cs ++ rest) (by simp [render, hcs]) ?_ (hne _ (by decide))
      simp only [isWs, Bool.or_eq_false_iff, beq_eq_false_iff_ne]
      exact ⟨⟨⟨hne ' ' (by decide), hne '\n' (by decide)⟩, hne '\t' (by decide)⟩,
        hne '\r' (by decide)⟩
  | str s => exact hhead quote _ (by rw [render, renderStr_append]) (by decide) (by decide)
  | arr xs =>
      cases xs with
      | nil => exact hhead '[' _ (by rw [render]; rfl) (by decide) (by decide)
      | cons x xs => exact hhead '[' _ (by rw [render]; rfl) (by decide) (by decide)
  | obj fs =>
      rcases fs with - | ⟨⟨key, v⟩, fs⟩
      · exact hhead '{' _ (by rw [render]; rfl) (by decide) (by decide)
      · exact hhead '{' _ (by rw [render]; rfl) (by decide) (by decide)

mutual

/-- A written value is read as that value, in any context that may follow it. -/
theorem accept_render : ∀ (v : Value) (k : List Frame) {rest : Text}, NoNumHead rest →
    accept (.value, k) (render v ++ rest) = accept (.after v, k) rest
  | .null, k, rest, _ => by
      rw [render]
      rfl
  | .bool true, k, rest, _ => by
      rw [render]
      rfl
  | .bool false, k, rest, _ => by
      rw [render]
      rfl
  | .num n, k, rest, h => by
      rw [render]
      exact accept_render_num n k h
  | .str s, k, rest, _ => by
      have hopen : step (.value, k) quote = some (.str false [], k) := rfl
      rw [render, renderStr_append, accept_cons_of_step hopen, accept_strBody]
      simp [closeStr]
  | .arr [], k, rest, _ => by
      rw [render]
      rfl
  | .arr (x :: xs), k, rest, _ => by
      have hopen : step (.value, k) '[' = some (.valueOrClose, .arr [] :: k) := rfl
      rw [render, List.cons_append, List.append_assoc, accept_cons_of_step hopen,
        accept_valueOrClose_render, accept_render x _ (noNumHead_renderElems xs rest),
        accept_renderElems xs x [] k rest, List.nil_append]
  | .obj [], k, rest, _ => by
      rw [render]
      rfl
  | .obj ((key, v) :: fs), k, rest, _ => by
      have hopen : step (.value, k) '{' = some (.keyOrClose, .obj [] :: k) := rfl
      rw [render, List.cons_append, List.append_assoc, List.cons_append, List.append_assoc,
        accept_cons_of_step hopen, accept_key (.inl rfl),
        accept_render v _ (noNumHead_renderFields fs rest),
        accept_renderFields fs key v [] k rest, List.nil_append]

theorem accept_renderElems : ∀ (xs : List Value) (v : Value) (done : List Value)
    (k : List Frame) (rest : Text),
    accept (.after v, .arr done :: k) (renderElems xs ++ rest)
      = accept (.after (.arr (done ++ v :: xs)), k) rest
  | [], v, done, k, rest => by
      rw [renderElems]
      rfl
  | x :: xs, v, done, k, rest => by
      have hcomma : step (.after v, .arr done :: k) ','
          = some (.value, .arr (done ++ [v]) :: k) := rfl
      rw [renderElems, List.cons_append, List.append_assoc, accept_cons_of_step hcomma,
        accept_render x _ (noNumHead_renderElems xs rest), accept_renderElems xs,
        List.append_assoc, List.singleton_append]

theorem accept_renderFields : ∀ (fs : List (String × Value)) (key : String) (v : Value)
    (done : List (String × Value)) (k : List Frame) (rest : Text),
    accept (.after v, .field done key :: k) (renderFields fs ++ rest)
      = accept (.after (.obj (done ++ (key, v) :: fs)), k) rest
  | [], key, v, done, k, rest => by
      rw [renderFields]
      rfl
  | (key', v') :: fs, key, v, done, k, rest => by
      have hcomma : step (.after v, .field done key :: k) ','
          = some (.key, .obj (done ++ [(key, v)]) :: k) := rfl
      rw [renderFields, List.cons_append, List.append_assoc, List.cons_append,
        List.append_assoc, accept_cons_of_step hcomma, accept_key (.inr rfl),
        accept_render v' _ (noNumHead_renderFields fs rest), accept_renderFields fs,
        List.append_assoc, List.singleton_append]

end

/-- Reading back a written value. -/
theorem parse_render (v : Value) : parse (render v) = some v := by
  have h := @accept_render v [] [] trivial
  rw [List.append_nil] at h
  rw [parse, h]
  rfl

theorem render_injective {v w : Value} (h : render v = render w) : v = w := by
  have hv := parse_render v
  rw [h, parse_render] at hv
  exact (Option.some.inj hv).symm

/-! ## A written value is one line -/

/-- Every character of a written text is printable or beyond ASCII: the control
    characters are all escaped. -/
def Printable (cs : Text) : Prop := ∀ c ∈ cs, 32 ≤ c.toNat

instance (cs : Text) : Decidable (Printable cs) :=
  List.decidableBAll (fun c : Char => 32 ≤ c.toNat) cs

theorem Printable.append {cs ds : Text} (hc : Printable cs) (hd : Printable ds) :
    Printable (cs ++ ds) := by
  intro c hmem
  rcases List.mem_append.mp hmem with h | h
  · exact hc c h
  · exact hd c h

theorem Printable.cons {c : Char} {cs : Text} (hc : 32 ≤ c.toNat) (hcs : Printable cs) :
    Printable (c :: cs) := by
  intro d hmem
  rcases List.mem_cons.mp hmem with rfl | h
  · exact hc
  · exact hcs d h

theorem printable_nil : Printable [] := by simp [Printable]

theorem le_toNat_hexDigit {n : Nat} (h : n < 16) : 32 ≤ (hexDigit n).toNat := by
  interval_cases n <;> decide

theorem printable_escapeChar (c : Char) : Printable (escapeChar c) := by
  unfold escapeChar
  split
  · decide
  split
  · decide
  split
  · decide
  split
  · decide
  split
  · decide
  split
  · decide
  split
  · decide
  split
  · next h =>
      have hhi : 32 ≤ (hexDigit (c.toNat / 16)).toNat := le_toNat_hexDigit (by omega)
      have hlo : 32 ≤ (hexDigit (c.toNat % 16)).toNat := le_toNat_hexDigit (by omega)
      exact .cons (by decide) (.cons (by decide) (.cons (by decide) (.cons (by decide)
        (.cons hhi (.cons hlo printable_nil)))))
  · next h => exact .cons (by omega) printable_nil

theorem printable_renderStr (s : String) : Printable (renderStr s) := by
  refine .cons (by decide) (.append ?_ (.cons (by decide) printable_nil))
  intro c hc
  obtain ⟨d, -, hd⟩ := List.mem_flatMap.mp hc
  exact printable_escapeChar d c hd

theorem le_toNat_of_isNumChar {c : Char} (h : isNumChar c = true) : 32 ≤ c.toNat := by
  simp only [isNumChar, Bool.or_eq_true, beq_iff_eq] at h
  rcases h with ((((h | rfl) | rfl) | rfl) | rfl) | rfl
  · have hle : '0' ≤ c := by
      simp only [Char.isDigit, Bool.and_eq_true, decide_eq_true_eq] at h
      exact h.1
    have : '0'.toNat ≤ c.toNat := hle
    exact Nat.le_trans (by decide) this
  all_goals decide

mutual

theorem printable_render : ∀ v : Value, Printable (render v)
  | .null => by rw [render]; decide
  | .bool true => by rw [render]; decide
  | .bool false => by rw [render]; decide
  | .num n => by
      rw [render]
      exact fun c hc => le_toNat_of_isNumChar (n.isNumChar_of_mem c hc)
  | .str s => by rw [render]; exact printable_renderStr s
  | .arr [] => by rw [render]; decide
  | .arr (x :: xs) => by
      rw [render]
      exact .cons (by decide) (.append (printable_render x) (printable_renderElems xs))
  | .obj [] => by rw [render]; decide
  | .obj ((k, v) :: fs) => by
      rw [render]
      exact .cons (by decide) (.append (printable_renderStr k)
        (.cons (by decide) (.append (printable_render v) (printable_renderFields fs))))

theorem printable_renderElems : ∀ xs : List Value, Printable (renderElems xs)
  | [] => by rw [renderElems]; decide
  | x :: xs => by
      rw [renderElems]
      exact .cons (by decide) (.append (printable_render x) (printable_renderElems xs))

theorem printable_renderFields : ∀ fs : List (String × Value), Printable (renderFields fs)
  | [] => by rw [renderFields]; decide
  | (k, v) :: fs => by
      rw [renderFields]
      exact .cons (by decide) (.append (printable_renderStr k)
        (.cons (by decide) (.append (printable_render v) (printable_renderFields fs))))

end

theorem newline_notMem_render (v : Value) : '\n' ∉ render v := by
  intro h
  have := printable_render v _ h
  exact absurd this (by decide)

end Lib.Json
