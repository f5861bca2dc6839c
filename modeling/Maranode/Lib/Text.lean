/-
  Maranode.Lib.Text

  Text files: UTF-8 and lines.

  Two facts carry the rest of the development.  Reading back the lines that were
  written, one per line break, gives those lines (`lines_joinLines_append`).  And
  a byte string cut in the middle of a character stays undecodable when ASCII is
  written after it, so a prefix of an encoded text that decodes together with
  such a continuation was cut between characters (`exists_take_of_decode`).
-/
import Mathlib.Tactic.Common
import Mathlib.Tactic.IntervalCases

namespace Lib

/-- Text as the list of its characters. -/
abbrev Text := List Char

abbrev Bytes := List UInt8

namespace Text

/-! ## UTF-8 -/

def encode (cs : Text) : Bytes := cs.flatMap String.utf8EncodeChar

def decode (bs : Bytes) : Option Text := bs.toByteArray.utf8Decode?.map Array.toList

@[simp] theorem encode_nil : encode [] = [] := rfl

theorem encode_cons (c : Char) (cs : Text) :
    encode (c :: cs) = String.utf8EncodeChar c ++ encode cs := rfl

@[simp] theorem encode_append (cs ds : Text) : encode (cs ++ ds) = encode cs ++ encode ds :=
  List.flatMap_append

theorem toByteArray_encode (cs : Text) : (encode cs).toByteArray = cs.utf8Encode := rfl

@[simp] theorem decode_encode (cs : Text) : decode (encode cs) = some cs := by
  simp [decode, toByteArray_encode]

theorem encode_eq_of_decode {bs : Bytes} {cs : Text} (h : decode bs = some cs) :
    encode cs = bs := by
  obtain ⟨a, ha, rfl⟩ := Option.map_eq_some_iff.mp h
  have hget := ByteArray.utf8Encode_get_utf8Decode? (b := bs.toByteArray) (h := by simp [ha])
  simp only [ha, Option.get_some] at hget
  rw [← toByteArray_encode] at hget
  exact List.toByteArray_inj.mp hget

/-- A character is at least one byte. -/
theorem length_le_length_encode (cs : Text) : cs.length ≤ (encode cs).length := by
  induction cs with
  | nil => exact Nat.le_refl _
  | cons c cs ih =>
      have hc : 0 < (String.utf8EncodeChar c).length := by
        rw [String.length_utf8EncodeChar]
        exact c.utf8Size_pos
      rw [encode_cons, List.length_append, List.length_cons]
      omega

theorem encode_injective {cs ds : Text} (h : encode cs = encode ds) : cs = ds := by
  have hc := decode_encode cs
  rw [h, decode_encode] at hc
  exact (Option.some.inj hc).symm

@[simp] theorem encode_eq_nil {cs : Text} : encode cs = [] ↔ cs = [] := by
  constructor
  · intro h
    exact encode_injective (h.trans encode_nil.symm)
  · rintro rfl
    rfl

/-! ### Where a character's bytes can be cut

The first byte of a character tells how many bytes it has, and the bytes after
the first are never ASCII. -/

/-- How many bytes follow a lead byte. -/
def tailLength (b : UInt8) : Nat :=
  if b.toNat < 128 then 0 else if b.toNat < 224 then 1 else if b.toNat < 240 then 2 else 3

theorem utf8EncodeChar_eq_cons (c : Char) :
    ∃ b r, String.utf8EncodeChar c = b :: r ∧ r.length = tailLength b ∧
      ∀ x ∈ r, 128 ≤ x.toNat := by
  have hv : c.val.toNat < 0x110000 := by
    rcases c.valid with h | h <;> simp only [UInt32.toNat] at h ⊢ <;> omega
  unfold String.utf8EncodeChar
  generalize c.val.toNat = v at hv
  have hof : ∀ n : Nat, n < 256 → (UInt8.ofNat n).toNat = n :=
    fun n hn => UInt8.toNat_ofNat_of_lt' hn
  -- A byte of the tail is a continuation byte.
  have htail : ∀ n : Nat, 128 ≤ (UInt8.ofNat (n % 0x40 + 0x80)).toNat := by
    intro n
    rw [hof _ (by omega)]
    omega
  dsimp only
  -- One, two, three or four bytes, and the tail is as long as the first byte says.
  split_ifs with h1 h2 h3
  · refine ⟨_, _, rfl, ?_, by simp⟩
    rw [tailLength, hof _ (by omega), if_pos (by omega)]
    rfl
  · refine ⟨_, _, rfl, ?_, by simpa using htail v⟩
    rw [tailLength, hof _ (by omega), if_neg (by omega),
      if_pos (by omega)]
    rfl
  · refine ⟨_, _, rfl, ?_, by simpa using ⟨htail (v / 64), htail v⟩⟩
    rw [tailLength, hof _ (by omega), if_neg (by omega),
      if_neg (by omega), if_pos (by omega)]
    rfl
  · refine ⟨_, _, rfl, ?_, by simpa using ⟨htail (v / 4096), htail (v / 64), htail v⟩⟩
    rw [tailLength, hof _ (by omega), if_neg (by omega),
      if_neg (by omega), if_neg (by omega)]
    rfl

/-- The bytes of a first character determine it. -/
theorem head_eq_of_encode_eq {c d : Char} {ds : Text} {r : Bytes}
    (h : String.utf8EncodeChar c ++ r = encode (d :: ds)) : c = d ∧ r = encode ds := by
  rw [encode_cons] at h
  have hbytes : (String.utf8EncodeChar c).toByteArray ++ r.toByteArray
      = (String.utf8EncodeChar d).toByteArray ++ (encode ds).toByteArray := by
    rw [← List.toByteArray_append, h, List.toByteArray_append]
  have hcd : some c = some d := by
    rw [← ByteArray.utf8DecodeChar?_utf8EncodeChar_append (b := r.toByteArray), hbytes,
      ByteArray.utf8DecodeChar?_utf8EncodeChar_append]
  obtain rfl := Option.some.inj hcd
  exact ⟨rfl, List.append_cancel_left h⟩

/-- **Cuts that decode are between characters.**  If a prefix `p` of an encoded
    text decodes together with a continuation `q` that does not open with a
    continuation byte, then `p` encodes the characters before the cut. -/
theorem exists_take_of_decode {l ys : Text} {p q : Bytes} (hp : p <+: encode l)
    (hq : ∀ b r, q = b :: r → b.toNat < 128) (h : p ++ q = encode ys) :
    ∃ n ds, p = encode (l.take n) ∧ q = encode ds ∧ ys = l.take n ++ ds := by
  induction l generalizing p ys with
  | nil =>
      obtain rfl : p = [] := List.prefix_nil.mp hp
      exact ⟨0, ys, rfl, h, rfl⟩
  | cons c l ih =>
      rcases p with - | ⟨b, p⟩
      · exact ⟨0, ys, rfl, h, rfl⟩
      rcases ys with - | ⟨d, ys⟩
      · simp at h
      obtain ⟨b1, r, hr, hrlen, -⟩ := utf8EncodeChar_eq_cons c
      obtain ⟨b2, s, hs, hslen, hscont⟩ := utf8EncodeChar_eq_cons d
      rw [encode_cons, hr, List.cons_append, List.cons_prefix_cons] at hp
      obtain ⟨rfl, hp⟩ := hp
      have hbytes : b :: (p ++ q) = b2 :: (s ++ encode ys) := by
        rw [← List.cons_append, h, encode_cons, hs, List.cons_append]
      obtain ⟨rfl, htl⟩ := List.cons.inj hbytes
      by_cases hlen : r.length ≤ p.length
      · -- The cut is after this character: peel it off both texts.
        obtain ⟨p', rfl⟩ : r <+: p :=
          List.prefix_of_prefix_length_le (List.prefix_append r _) hp hlen
        have hhead : String.utf8EncodeChar c ++ (p' ++ q) = encode (d :: ys) := by
          rw [hr, ← h]
          simp
        obtain ⟨rfl, hrest⟩ := head_eq_of_encode_eq hhead
        have hp' : p' <+: encode l := (List.prefix_append_right_inj r).mp hp
        obtain ⟨n, ds, rfl, hqs, rfl⟩ := ih hp' hrest
        refine ⟨n + 1, ds, ?_, hqs, rfl⟩
        rw [List.take_succ_cons, encode_cons, hr, List.cons_append]
      · -- The cut is inside this character, so `q` would open with one of its tail bytes.
        exfalso
        have hlt : p.length < s.length := by omega
        rcases q with - | ⟨x, q⟩
        · have hl := congrArg List.length htl
          simp only [List.append_nil, List.length_append] at hl
          omega
        · have hx : x ∈ s := by
            have hget := congrArg (·[p.length]?) htl
            simp only [List.getElem?_append_right (Nat.le_refl _), Nat.sub_self,
              List.getElem?_cons_zero, List.getElem?_append_left hlt] at hget
            exact List.mem_of_getElem? hget.symm
          have h1 := hscont x hx
          have h2 := hq x q rfl
          omega

/-! ## Lines -/

/-- Drop the carriage return of a `\r\n` line ending. -/
def stripCr (l : Text) : Text := if l.getLast? = some '\r' then l.dropLast else l

def linesFrom (acc : Text) : Text → List Text
  | [] => if acc = [] then [] else [acc]
  | c :: cs =>
      if c = '\n' then stripCr acc :: linesFrom [] cs else linesFrom (acc ++ [c]) cs

/-- The lines of a text: the last one may lack its line break, and a text that ends
    with a line break has no empty last line. -/
def lines (cs : Text) : List Text := linesFrom [] cs

/-- One line break after each line. -/
def joinLines (ls : List Text) : Text := ls.flatMap (· ++ ['\n'])

/-- A line that survives being written and read: no line break in it and no
    carriage return at its end. -/
def IsLine (l : Text) : Prop := '\n' ∉ l ∧ l.getLast? ≠ some '\r'

theorem linesFrom_append_newline {l : Text} (hnl : '\n' ∉ l) (acc rest : Text) :
    linesFrom acc (l ++ '\n' :: rest) = stripCr (acc ++ l) :: linesFrom [] rest := by
  induction l generalizing acc with
  | nil => simp [linesFrom]
  | cons c l ih =>
      have hc : c ≠ '\n' := fun hc => hnl (hc ▸ List.mem_cons_self ..)
      rw [List.cons_append, linesFrom, if_neg hc,
        ih fun hmem => hnl (List.mem_cons_of_mem _ hmem), List.append_assoc,
        List.singleton_append]

theorem lines_cons_line {l : Text} (hl : IsLine l) (rest : Text) :
    lines (l ++ '\n' :: rest) = l :: lines rest := by
  rw [lines, linesFrom_append_newline hl.1, List.nil_append, stripCr, if_neg hl.2, lines]

theorem linesFrom_of_notMem {l : Text} (hnl : '\n' ∉ l) (acc : Text) :
    linesFrom acc l = if acc ++ l = [] then [] else [acc ++ l] := by
  induction l generalizing acc with
  | nil => simp [linesFrom]
  | cons c l ih =>
      have hc : c ≠ '\n' := fun hc => hnl (hc ▸ List.mem_cons_self ..)
      rw [linesFrom, if_neg hc, ih fun hmem => hnl (List.mem_cons_of_mem _ hmem)]
      simp

/-- A text without a line break is one line. -/
theorem lines_of_notMem {l : Text} (hnl : '\n' ∉ l) (hne : l ≠ []) : lines l = [l] := by
  rw [lines, linesFrom_of_notMem hnl, List.nil_append, if_neg hne]

@[simp] theorem lines_nil : lines [] = [] := rfl

@[simp] theorem joinLines_nil : joinLines [] = [] := rfl

@[simp] theorem joinLines_cons (l : Text) (ls : List Text) :
    joinLines (l :: ls) = l ++ '\n' :: joinLines ls := by
  simp [joinLines]

theorem joinLines_append (ls ms : List Text) :
    joinLines (ls ++ ms) = joinLines ls ++ joinLines ms := List.flatMap_append

/-- Lines that were written, and whatever follows them. -/
theorem lines_joinLines_append {ls : List Text} (h : ∀ l ∈ ls, IsLine l) (rest : Text) :
    lines (joinLines ls ++ rest) = ls ++ lines rest := by
  induction ls with
  | nil => rfl
  | cons l ls ih =>
      rw [joinLines_cons, List.append_assoc, List.cons_append,
        lines_cons_line (h l (List.mem_cons_self ..)),
        ih fun m hm => h m (List.mem_cons_of_mem _ hm), List.cons_append]

theorem newline_notMem_linesFrom {cs line : Text} (acc : Text) (hacc : '\n' ∉ acc)
    (h : line ∈ linesFrom acc cs) : '\n' ∉ line := by
  induction cs generalizing acc with
  | nil =>
      rw [linesFrom] at h
      split at h
      · cases h
      · rwa [List.mem_singleton.mp h]
  | cons c cs ih =>
      rw [linesFrom] at h
      split at h
      · rcases List.mem_cons.mp h with rfl | h
        · rw [stripCr]
          split
          · exact fun hmem => hacc ((List.dropLast_sublist acc).subset hmem)
          · exact hacc
        · exact ih [] List.not_mem_nil h
      · next hc =>
          refine ih (acc ++ [c]) (fun hmem => ?_) h
          rcases List.mem_append.mp hmem with hmem | hmem
          · exact hacc hmem
          · exact hc (List.mem_singleton.mp hmem).symm

/-- A line has no line break. -/
theorem newline_notMem_of_mem_lines {cs line : Text} (h : line ∈ lines cs) : '\n' ∉ line :=
  newline_notMem_linesFrom [] List.not_mem_nil h

theorem length_stripCr_le (l : Text) : (stripCr l).length ≤ l.length := by
  rw [stripCr]
  split
  · rw [List.length_dropLast]
    omega
  · exact Nat.le_refl _

theorem length_joinLines_linesFrom (acc cs : Text) :
    (joinLines (linesFrom acc cs)).length ≤ acc.length + cs.length + 1 := by
  induction cs generalizing acc with
  | nil =>
      rw [linesFrom]
      split
      · exact Nat.zero_le _
      · simp [joinLines]
  | cons c cs ih =>
      rw [linesFrom]
      split
      · have hrest := ih []
        have hcr := length_stripCr_le acc
        rw [joinLines_cons, List.length_append, List.length_cons, List.length_cons]
        rw [List.length_nil] at hrest
        omega
      · have hrest := ih (acc ++ [c])
        rw [List.length_append, List.length_singleton] at hrest
        rw [List.length_cons]
        omega

/-- Only the last line may come without a line break. -/
theorem length_joinLines_lines (cs : Text) : (joinLines (lines cs)).length ≤ cs.length + 1 := by
  have hle := length_joinLines_linesFrom [] cs
  rw [List.length_nil, Nat.zero_add] at hle
  exact hle

/-- The Unicode `White_Space` property. -/
def isWhitespace (c : Char) : Bool :=
  let n := c.toNat
  (9 ≤ n && n ≤ 13) || n == 0x20 || n == 0x85 || n == 0xA0 || n == 0x1680 ||
    (0x2000 ≤ n && n ≤ 0x200A) || n == 0x2028 || n == 0x2029 || n == 0x202F ||
    n == 0x205F || n == 0x3000

/-- Nothing is left of the line when it is trimmed. -/
def isBlank (l : Text) : Bool := l.all isWhitespace

end Text

end Lib
