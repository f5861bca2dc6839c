/-
  Maranode.Lib.Json.Basic

  JSON values and the compact writer (RFC 8259).

  An object keeps its members as they were written, repetitions and order
  included: a reader that rejects a repeated name and one that keeps the last
  are only told apart by such texts.  A number keeps its literal; what integer
  or float the literal denotes is decided by whoever asks for one
  (`NumLit.toNat?` here, a float parser elsewhere).
-/
import Maranode.Lib.Text

namespace Lib.Json

/-! ## Number literals -/

/-- Where the number grammar of RFC 8259 §6 stands after a prefix of a literal. -/
inductive NumSt where
  | start
  | minus
  | zero
  | int
  | dot
  | frac
  | exp
  | expSign
  | expDigits
  deriving DecidableEq, Repr

def isExpMark (c : Char) : Bool := c == 'e' || c == 'E'

def NumSt.step : NumSt → Char → Option NumSt
  | .start, c =>
      if c = '-' then some .minus
      else if c = '0' then some .zero
      else if c.isDigit then some .int else none
  | .minus, c =>
      if c = '0' then some .zero else if c.isDigit then some .int else none
  | .zero, c =>
      if c = '.' then some .dot else if isExpMark c then some .exp else none
  | .int, c =>
      if c.isDigit then some .int
      else if c = '.' then some .dot
      else if isExpMark c then some .exp else none
  | .dot, c => if c.isDigit then some .frac else none
  | .frac, c =>
      if c.isDigit then some .frac else if isExpMark c then some .exp else none
  | .exp, c =>
      if c = '+' ∨ c = '-' then some .expSign
      else if c.isDigit then some .expDigits else none
  | .expSign, c => if c.isDigit then some .expDigits else none
  | .expDigits, c => if c.isDigit then some .expDigits else none

def NumSt.run : NumSt → Text → Option NumSt
  | st, [] => some st
  | st, c :: cs => (st.step c).bind (·.run cs)

def NumSt.accepts : NumSt → Bool
  | .zero | .int | .frac | .expDigits => true
  | .start | .minus | .dot | .exp | .expSign => false

/-- The text is a JSON number. -/
def isNumber (cs : Text) : Bool := (NumSt.start.run cs).any NumSt.accepts

/-- A character that can occur in a number literal. -/
def isNumChar (c : Char) : Bool :=
  c.isDigit || c == '-' || c == '+' || c == '.' || c == 'e' || c == 'E'

theorem NumSt.isNumChar_of_step {st st' : NumSt} {c : Char}
    (h : st.step c = some st') : isNumChar c = true := by
  have hzero : c = '0' → c.isDigit = true := by rintro rfl; decide
  cases st <;> simp only [NumSt.step, isExpMark, isNumChar] at h ⊢ <;> grind

theorem NumSt.isNumChar_of_run {st st' : NumSt} {cs : Text}
    (h : st.run cs = some st') : ∀ c ∈ cs, isNumChar c = true := by
  induction cs generalizing st with
  | nil => simp
  | cons c cs ih =>
      simp only [NumSt.run, Option.bind_eq_some_iff] at h
      obtain ⟨mid, hstep, hrun⟩ := h
      intro d hd
      rcases List.mem_cons.mp hd with rfl | hd
      · exact NumSt.isNumChar_of_step hstep
      · exact ih hrun d hd

/-- A number literal: a text of the number grammar. -/
structure NumLit where
  text : Text
  ok : isNumber text = true
  deriving DecidableEq

def NumLit.ofText? (cs : Text) : Option NumLit :=
  if h : isNumber cs = true then some ⟨cs, h⟩ else none

@[simp] theorem NumLit.ofText?_text (n : NumLit) : NumLit.ofText? n.text = some n := by
  simp [NumLit.ofText?, n.ok]

theorem NumLit.isNumChar_of_mem (n : NumLit) : ∀ c ∈ n.text, isNumChar c = true := by
  have h := n.ok
  simp only [isNumber, Option.any_eq_true] at h
  obtain ⟨st, hrun, -⟩ := h
  exact NumSt.isNumChar_of_run hrun

/-- A literal opens with a minus sign or a digit. -/
theorem NumLit.text_eq_cons (n : NumLit) :
    ∃ c cs, n.text = c :: cs ∧ (c = '-' ∨ c.isDigit = true) := by
  have h := n.ok
  cases htext : n.text with
  | nil => rw [htext] at h; exact absurd h (by decide)
  | cons c cs =>
      refine ⟨c, cs, rfl, ?_⟩
      rw [htext] at h
      simp only [isNumber, NumSt.run, NumSt.step] at h
      by_cases hc : c = '-'
      · exact .inl hc
      · by_cases h0 : c = '0'
        · exact .inr (by rw [h0]; decide)
        · refine .inr ?_
          by_contra hd
          simp [hc, h0, hd] at h

/-! ## Natural numbers as literals -/

theorem NumSt.run_int_digits {cs : Text} (h : ∀ c ∈ cs, c.isDigit = true) :
    NumSt.int.run cs = some .int := by
  induction cs with
  | nil => rfl
  | cons c cs ih =>
      have hc : c.isDigit = true := h c (List.mem_cons_self ..)
      simp only [NumSt.run, NumSt.step, hc, if_true, Option.bind_some]
      exact ih fun d hd => h d (List.mem_cons_of_mem _ hd)

/-- The decimal digits of a positive number do not open with a zero. -/
theorem toDigits_eq_cons_of_pos {n : Nat} (hn : 0 < n) :
    ∃ c cs, Nat.toDigits 10 n = c :: cs ∧ c ≠ '0' := by
  induction n using Nat.strongRecOn with
  | _ n ih =>
      by_cases hlt : n < 10
      · refine ⟨n.digitChar, [], Nat.toDigits_of_lt_base hlt, ?_⟩
        interval_cases n <;> decide
      · obtain ⟨c, cs, hcs, hc⟩ := ih (n / 10) (by omega) (by omega)
        refine ⟨c, cs ++ [(n % 10).digitChar], ?_, hc⟩
        rw [Nat.toDigits_of_base_le (by omega) (by omega), hcs, List.cons_append]

theorem isNumber_toDigits (n : Nat) : isNumber (Nat.toDigits 10 n) = true := by
  rcases Nat.eq_zero_or_pos n with rfl | hn
  · decide
  · obtain ⟨c, cs, hcs, hc⟩ := toDigits_eq_cons_of_pos hn
    have hdig : ∀ d ∈ c :: cs, d.isDigit = true := fun d hd =>
      Nat.isDigit_of_mem_toDigits (b := 10) (n := n) (by decide) (by decide) (hcs ▸ hd)
    have hcd : c.isDigit = true := hdig c (List.mem_cons_self ..)
    have hminus : c ≠ '-' := by rintro rfl; exact absurd hcd (by decide)
    rw [hcs]
    simp only [isNumber, NumSt.run, NumSt.step, hminus, hc, hcd, if_true, if_false,
      Option.bind_some]
    rw [NumSt.run_int_digits fun d hd => hdig d (List.mem_cons_of_mem _ hd)]
    rfl

/-- The literal an integer writer emits for a natural number. -/
def NumLit.ofNat (n : Nat) : NumLit := ⟨Nat.toDigits 10 n, isNumber_toDigits n⟩

/-- The natural number a literal without sign, fraction or exponent denotes. -/
def NumLit.toNat? (l : NumLit) : Option Nat :=
  if l.text.all Char.isDigit then some (Nat.ofDigitChars 10 l.text 0) else none

@[simp] theorem NumLit.toNat?_ofNat (n : Nat) : (NumLit.ofNat n).toNat? = some n := by
  have hall : (Nat.toDigits 10 n).all Char.isDigit = true :=
    List.all_eq_true.mpr fun c hc =>
      Nat.isDigit_of_mem_toDigits (by decide) (by decide) hc
  simp [NumLit.toNat?, NumLit.ofNat, hall, Nat.ofDigitChars_ten_toDigits]

/-! ## Values and the compact writer -/

inductive Value where
  | null
  | bool (b : Bool)
  | num (n : NumLit)
  | str (s : String)
  | arr (xs : List Value)
  | obj (fs : List (String × Value))

/-- The double quote that opens and closes a string. -/
def quote : Char := Char.ofNat 34

def hexDigit (n : Nat) : Char :=
  if n < 10 then Char.ofNat (48 + n) else Char.ofNat (87 + n)

/-- A string character as the writer emits it: the two-character escapes, the
    `\u00xx` form for the other control characters, and itself otherwise. -/
def escapeChar (c : Char) : Text :=
  if c = quote then ['\\', quote]
  else if c = '\\' then ['\\', '\\']
  else if c = '\n' then ['\\', 'n']
  else if c = '\r' then ['\\', 'r']
  else if c = '\t' then ['\\', 't']
  else if c.toNat = 8 then ['\\', 'b']
  else if c.toNat = 12 then ['\\', 'f']
  else if c.toNat < 32 then
    ['\\', 'u', '0', '0', hexDigit (c.toNat / 16), hexDigit (c.toNat % 16)]
  else [c]

def renderStr (s : String) : Text :=
  quote :: (s.toList.flatMap escapeChar ++ [quote])

mutual

/-- The compact text of a value. -/
def render : Value → Text
  | .null => ['n', 'u', 'l', 'l']
  | .bool true => ['t', 'r', 'u', 'e']
  | .bool false => ['f', 'a', 'l', 's', 'e']
  | .num n => n.text
  | .str s => renderStr s
  | .arr [] => ['[', ']']
  | .arr (x :: xs) => '[' :: (render x ++ renderElems xs)
  | .obj [] => ['{', '}']
  | .obj ((k, v) :: fs) => '{' :: (renderStr k ++ ':' :: (render v ++ renderFields fs))

/-- The elements after the first, with the closing bracket. -/
def renderElems : List Value → Text
  | [] => [']']
  | x :: xs => ',' :: (render x ++ renderElems xs)

/-- The members after the first, with the closing brace. -/
def renderFields : List (String × Value) → Text
  | [] => ['}']
  | (k, v) :: fs => ',' :: (renderStr k ++ ':' :: (render v ++ renderFields fs))

end

end Lib.Json
