/-
  Maranode.Lib.FilterText

  The texts of search filters (RFC 4515), as far as an equality test goes: an attribute
  description (RFC 4512), and an assertion value, in which a backslash and two hex digits
  stand for a byte.

  A value that is escaped is read as it was, whatever it was.
-/
import Maranode.Lib.Separated
import Maranode.Lib.Encoding

namespace Lib.Filter

/-! ## Values -/

/-- A character that stands for itself. -/
def isNormal (c : Char) : Bool :=
  c != '\x00' && c != '(' && c != ')' && c != '*' && c != '\\'

/-- `valueencoding`: the bytes a value stands for. -/
def valueOf : Text → Option Bytes
  | [] => some []
  | c :: cs =>
      if c = '\\' then
        match cs with
        | x :: y :: rest =>
            (Hex.decode [x, y]).bind fun b => (valueOf rest).map fun bs => b ++ bs
        | _ => none
      else if isNormal c then (valueOf cs).map fun bs => Text.encode [c] ++ bs
      else none

def escapeChar (c : Char) : Text :=
  if isNormal c then [c] else '\\' :: Hex.encode (Text.encode [c])

def escape (cs : Text) : Text := cs.flatMap escapeChar

theorem eq_of_not_isNormal {c : Char} (h : isNormal c = false) :
    c = '\x00' ∨ c = '(' ∨ c = ')' ∨ c = '*' ∨ c = '\\' := by
  simp only [isNormal, Bool.and_eq_false_iff, bne_eq_false_iff_eq] at h
  tauto

/-- A character that is escaped is the first of the value. -/
theorem valueOf_escapeChar (c : Char) (rest : Text) :
    valueOf (escapeChar c ++ rest) = (valueOf rest).map fun bs => Text.encode [c] ++ bs := by
  cases hnormal : isNormal c with
  | true =>
      have hne : c ≠ '\\' := by
        rintro rfl
        cases hnormal
      rw [escapeChar, hnormal, if_pos rfl, List.singleton_append, valueOf.eq_def]
      dsimp only
      rw [if_neg hne, hnormal, if_pos rfl]
  | false =>
      have hspecial : ∀ {x y : Char} {b : UInt8}, escapeChar c = ['\\', x, y] →
          Hex.decode [x, y] = some [b] → Text.encode [c] = [b] →
          valueOf (escapeChar c ++ rest) =
            (valueOf rest).map fun bs => Text.encode [c] ++ bs := by
        intro x y b hescape hdecode hencode
        rw [hescape, hencode]
        show valueOf ('\\' :: x :: y :: rest) = _
        rw [valueOf.eq_def]
        dsimp only
        rw [if_pos rfl, hdecode]
        rfl
      rcases eq_of_not_isNormal hnormal with rfl | rfl | rfl | rfl | rfl
      · exact hspecial (x := '0') (y := '0') (b := 0x00) (by decide) (by decide) (by decide)
      · exact hspecial (x := '2') (y := '8') (b := 0x28) (by decide) (by decide) (by decide)
      · exact hspecial (x := '2') (y := '9') (b := 0x29) (by decide) (by decide) (by decide)
      · exact hspecial (x := '2') (y := 'a') (b := 0x2a) (by decide) (by decide) (by decide)
      · exact hspecial (x := '5') (y := 'c') (b := 0x5c) (by decide) (by decide) (by decide)

/-- **Escaping.**  An escaped value stands for the bytes of the text. -/
theorem valueOf_escape (cs : Text) : valueOf (escape cs) = some (Text.encode cs) := by
  induction cs with
  | nil => rfl
  | cons c cs ih =>
      rw [escape, List.flatMap_cons, valueOf_escapeChar, ← escape, ih, Option.map_some,
        ← Text.encode_append, List.singleton_append]

/-! ## Attributes -/

/-- `keychar`. -/
def isKeyChar (c : Char) : Bool := c.isAlphanum || c == '-'

/-- `descr`. -/
def isDescr (t : Text) : Bool := t.head?.any Char.isAlpha && t.all isKeyChar

/-- `number`: no zero in front of other digits. -/
def isNumber (t : Text) : Bool :=
  !t.isEmpty && t.all Char.isDigit && (t.head? != some '0' || t.length == 1)

/-- `numericoid`. -/
def isNumericOid (t : Text) : Bool :=
  decide (2 ≤ (t.splitOn '.').length) && (t.splitOn '.').all isNumber

/-- `option`. -/
def isOption (t : Text) : Bool := !t.isEmpty && t.all isKeyChar

/-- `attributedescription`: a type, and options after semicolons. -/
def isAttribute (t : Text) : Bool :=
  match t.splitOn ';' with
  | [] => false
  | type :: options => (isDescr type || isNumericOid type) && options.all isOption

/-- The characters of an attribute description. -/
def isAttributeChar (c : Char) : Bool := isKeyChar c || c == '.' || c == ';'

theorem isAttributeChar_of_isKeyChar {c : Char} (h : isKeyChar c = true) :
    isAttributeChar c = true := by
  rw [isAttributeChar, h, Bool.true_or, Bool.true_or]

theorem all_isAttributeChar_of_parts (sep : Char) {t : Text} (hsep : isAttributeChar sep = true)
    (h : ∀ part ∈ t.splitOn sep, part.all isAttributeChar = true) :
    t.all isAttributeChar = true := by
  have hrender : Separated.render sep (t.splitOn sep) = t := List.intercalate_splitOn sep
  rw [List.all_eq_true]
  intro c hc
  rw [← hrender] at hc
  rcases Separated.mem_render hc with rfl | ⟨part, hpart, hmem⟩
  · exact hsep
  · exact List.all_eq_true.mp (h part hpart) c hmem

theorem all_isAttributeChar_of_isNumericOid {t : Text} (h : isNumericOid t = true) :
    t.all isAttributeChar = true := by
  rw [isNumericOid, Bool.and_eq_true, List.all_eq_true] at h
  refine all_isAttributeChar_of_parts '.' (by decide) fun part hpart => ?_
  have hnumber := h.2 part hpart
  rw [isNumber, Bool.and_eq_true, Bool.and_eq_true, List.all_eq_true] at hnumber
  refine List.all_eq_true.mpr fun c hc => isAttributeChar_of_isKeyChar ?_
  rw [isKeyChar, Char.isAlphanum, hnumber.1.2 c hc, Bool.or_true, Bool.true_or]

theorem all_isAttributeChar {t : Text} (h : isAttribute t = true) :
    t.all isAttributeChar = true := by
  have hkeys : ∀ {part : Text}, part.all isKeyChar = true → part.all isAttributeChar = true :=
    fun hpart => List.all_eq_true.mpr fun c hc =>
      isAttributeChar_of_isKeyChar (List.all_eq_true.mp hpart c hc)
  refine all_isAttributeChar_of_parts ';' (by decide) fun part hpart => ?_
  rw [isAttribute] at h
  split at h
  · cases h
  · next type options hsplit =>
      rw [Bool.and_eq_true, Bool.or_eq_true, List.all_eq_true] at h
      rw [hsplit] at hpart
      rcases List.mem_cons.mp hpart with rfl | hoption
      · rcases h.1 with hdescr | hoid
        · rw [isDescr, Bool.and_eq_true] at hdescr
          exact hkeys hdescr.2
        · exact all_isAttributeChar_of_isNumericOid hoid
      · have hoption := h.2 part hoption
        rw [isOption, Bool.and_eq_true] at hoption
        exact hkeys hoption.2

end Lib.Filter
