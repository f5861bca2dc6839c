/-
  Maranode.Lib.Json.Parse

  The reader, as a machine that takes one character at a time.

  A state is what the machine is in the middle of (`Mode`) and the containers
  still open around it (`Frame`, innermost first).  Reading character by
  character makes the state after a prefix independent of what follows, which is
  what the statements about cut-off texts (`Lib.Json.Torn`) rest on; a
  recursive-descent reader would have to be cut open for them.

  The reader follows RFC 8259: whitespace between tokens, the escapes with
  surrogate pairs, no unescaped control character in a string, nothing but
  whitespace after the value.
-/
import Maranode.Lib.Json.Basic

namespace Lib.Json

/-- A container whose closing bracket has not been read. -/
inductive Frame where
  /-- An array with the elements read so far. -/
  | arr (xs : List Value)
  /-- An object with the members read so far. -/
  | obj (fs : List (String × Value))
  /-- An object whose next member's name and colon have been read. -/
  | field (fs : List (String × Value)) (key : String)

inductive Mode where
  | value
  /-- After `[`. -/
  | valueOrClose
  /-- After `{`. -/
  | keyOrClose
  /-- After a comma in an object. -/
  | key
  | colon (key : String)
  | after (v : Value)
  /-- Inside a string, which is a member name when `isKey`. -/
  | str (isKey : Bool) (acc : Text)
  /-- After a backslash. -/
  | esc (isKey : Bool) (acc : Text)
  /-- After `\u` and `n` hex digits of value `code`; `hi` is the high surrogate
      this escape has to complete, when there is one. -/
  | uni (isKey : Bool) (acc : Text) (hi : Option Nat) (n code : Nat)
  /-- After the escape of a high surrogate. -/
  | surr (isKey : Bool) (acc : Text) (hi : Nat)
  /-- After the backslash that follows a high surrogate. -/
  | surrEsc (isKey : Bool) (acc : Text) (hi : Nat)
  | num (acc : Text)
  /-- Inside `true`, `false` or `null`, with `rest` still to come. -/
  | lit (rest : Text) (v : Value)

abbrev State := Mode × List Frame

def isWs (c : Char) : Bool := c == ' ' || c == '\n' || c == '\t' || c == '\r'

def hexVal (c : Char) : Option Nat :=
  if c.isDigit then some (c.toNat - 48)
  else if 'a' ≤ c ∧ c ≤ 'f' then some (c.toNat - 87)
  else if 'A' ≤ c ∧ c ≤ 'F' then some (c.toNat - 55)
  else none

/-- The character a two-character escape stands for. -/
def unescape (c : Char) : Option Char :=
  if c = quote then some quote
  else if c = '\\' then some '\\'
  else if c = '/' then some '/'
  else if c = 'n' then some '\n'
  else if c = 'r' then some '\r'
  else if c = 't' then some '\t'
  else if c = 'b' then some (Char.ofNat 8)
  else if c = 'f' then some (Char.ofNat 12)
  else none

/-- A string has been closed: a member name awaits its colon, any other string is
    a value. -/
def closeStr (isKey : Bool) (acc : Text) : Mode :=
  if isKey then .colon (String.ofList acc) else .after (.str (String.ofList acc))

/-- Four hex digits have been read. -/
def closeUni (isKey : Bool) (acc : Text) (hi : Option Nat) (code : Nat) : Option Mode :=
  match hi with
  | none =>
      if 0xD800 ≤ code ∧ code < 0xDC00 then some (.surr isKey acc code)
      else if 0xDC00 ≤ code ∧ code < 0xE000 then none
      else some (.str isKey (acc ++ [Char.ofNat code]))
  | some h =>
      if 0xDC00 ≤ code ∧ code < 0xE000 then
        some (.str isKey
          (acc ++ [Char.ofNat (0x10000 + (h - 0xD800) * 0x400 + (code - 0xDC00))]))
      else none

/-- The first character of a value. -/
def stepValue (k : List Frame) (c : Char) : Option State :=
  if c = '{' then some (.keyOrClose, .obj [] :: k)
  else if c = '[' then some (.valueOrClose, .arr [] :: k)
  else if c = quote then some (.str false [], k)
  else if c = 't' then some (.lit ['r', 'u', 'e'] (.bool true), k)
  else if c = 'f' then some (.lit ['a', 'l', 's', 'e'] (.bool false), k)
  else if c = 'n' then some (.lit ['u', 'l', 'l'] .null, k)
  else if c = '-' ∨ c.isDigit = true then some (.num [c], k)
  else none

/-- The character after a complete value `v`. -/
def stepAfter (v : Value) (k : List Frame) (c : Char) : Option State :=
  if isWs c then some (.after v, k)
  else match k with
    | .arr xs :: k =>
        if c = ',' then some (.value, .arr (xs ++ [v]) :: k)
        else if c = ']' then some (.after (.arr (xs ++ [v])), k)
        else none
    | .field fs key :: k =>
        if c = ',' then some (.key, .obj (fs ++ [(key, v)]) :: k)
        else if c = '}' then some (.after (.obj (fs ++ [(key, v)])), k)
        else none
    | .obj _ :: _ | [] => none

def step : State → Char → Option State
  | (.value, k), c => if isWs c then some (.value, k) else stepValue k c
  | (.valueOrClose, k), c =>
      if isWs c then some (.valueOrClose, k)
      else if c = ']' then
        match k with
        | .arr xs :: k => some (.after (.arr xs), k)
        | _ => none
      else stepValue k c
  | (.keyOrClose, k), c =>
      if isWs c then some (.keyOrClose, k)
      else if c = '}' then
        match k with
        | .obj fs :: k => some (.after (.obj fs), k)
        | _ => none
      else if c = quote then some (.str true [], k)
      else none
  | (.key, k), c =>
      if isWs c then some (.key, k)
      else if c = quote then some (.str true [], k) else none
  | (.colon key, k), c =>
      if isWs c then some (.colon key, k)
      else if c = ':' then
        match k with
        | .obj fs :: k => some (.value, .field fs key :: k)
        | _ => none
      else none
  | (.after v, k), c => stepAfter v k c
  | (.str isKey acc, k), c =>
      if c = quote then some (closeStr isKey acc, k)
      else if c = '\\' then some (.esc isKey acc, k)
      else if c.toNat < 32 then none
      else some (.str isKey (acc ++ [c]), k)
  | (.esc isKey acc, k), c =>
      if c = 'u' then some (.uni isKey acc none 0 0, k)
      else (unescape c).map fun d => (.str isKey (acc ++ [d]), k)
  | (.uni isKey acc hi n code, k), c =>
      (hexVal c).bind fun d =>
        if n = 3 then (closeUni isKey acc hi (code * 16 + d)).map (·, k)
        else some (.uni isKey acc hi (n + 1) (code * 16 + d), k)
  | (.surr isKey acc hi, k), c =>
      if c = '\\' then some (.surrEsc isKey acc hi, k) else none
  | (.surrEsc isKey acc hi, k), c =>
      if c = 'u' then some (.uni isKey acc (some hi) 0 0, k) else none
  | (.num acc, k), c =>
      if isNumChar c then some (.num (acc ++ [c]), k)
      else (NumLit.ofText? acc).bind fun n => stepAfter (.num n) k c
  | (.lit rest v, k), c =>
      match rest with
      | [d] => if c = d then some (.after v, k) else none
      | d :: rest => if c = d then some (.lit rest v, k) else none
      | [] => none

-- One equation for each mode.
attribute [simp] step

/-- The value read when the text ends in this state. -/
def finish : State → Option Value
  | (.after v, []) => some v
  | (.num acc, []) => (NumLit.ofText? acc).map .num
  | _ => none

/-- The state after a prefix. -/
def run : State → Text → Option State
  | s, [] => some s
  | s, c :: cs => (step s c).bind (run · cs)

/-- Read to the end from a state. -/
def accept (s : State) (cs : Text) : Option Value := (run s cs).bind finish

/-- The value a text denotes, when it is a JSON text. -/
def parse (cs : Text) : Option Value := accept (.value, []) cs

/-! ## How runs compose -/

theorem run_append (s : State) (cs ds : Text) :
    run s (cs ++ ds) = (run s cs).bind (run · ds) := by
  induction cs generalizing s with
  | nil => rfl
  | cons c cs ih =>
      simp only [List.cons_append, run]
      cases step s c with
      | none => rfl
      | some s' => simp only [Option.bind_some, ih]

theorem accept_nil (s : State) : accept s [] = finish s := rfl

theorem accept_cons (s : State) (c : Char) (cs : Text) :
    accept s (c :: cs) = (step s c).bind (accept · cs) := by
  simp only [accept, run]
  cases step s c <;> rfl

theorem accept_append (s : State) (cs ds : Text) :
    accept s (cs ++ ds) = (run s cs).bind (accept · ds) := by
  simp only [accept, run_append]
  cases run s cs <;> rfl

theorem accept_cons_of_step {s t : State} {c : Char} (h : step s c = some t) (cs : Text) :
    accept s (c :: cs) = accept t cs := by
  rw [accept_cons, h]
  rfl

theorem accept_cons_of_step_none {s : State} {c : Char} (h : step s c = none) (cs : Text) :
    accept s (c :: cs) = none := by
  rw [accept_cons, h]
  rfl

end Lib.Json
