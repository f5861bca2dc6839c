/-
  Maranode.Lib.Encoding

  Bytes as text: hex, and base64 (RFC 4648) with padding, as keys and signatures are
  stored and sent.

  Both decoders read back what the encoder wrote.  The base64 decoder is the strict
  one: whole groups of four, padding at the end only, and no bits left over, so it reads
  nothing else (`Base64.encode_of_decode`).  The hex decoder also reads upper case
  (`Hex.decode_eq_some_iff`).
-/
import Maranode.Lib.Sha256
import Mathlib.Tactic.NormNum

namespace Lib

/-! ## Trimming -/

namespace Text

/-- Unicode `White_Space`, as `char::is_whitespace` has it. -/
def isWhite (c : Char) : Bool :=
  let n := c.toNat
  decide (9 ≤ n ∧ n ≤ 13) || n == 0x20 || n == 0x85 || n == 0xA0 || n == 0x1680 ||
    decide (0x2000 ≤ n ∧ n ≤ 0x200A) || n == 0x2028 || n == 0x2029 || n == 0x202F ||
    n == 0x205F || n == 0x3000

/-- `str::trim`. -/
def trim (cs : Text) : Text := ((cs.dropWhile isWhite).reverse.dropWhile isWhite).reverse

theorem dropWhile_isWhite {cs : Text} (h : ∀ c ∈ cs, isWhite c = false) :
    cs.dropWhile isWhite = cs := by
  cases cs with
  | nil => rfl
  | cons c cs => rw [List.dropWhile_cons_of_neg (by simp [h c List.mem_cons_self])]

/-- Text without white space is left alone. -/
theorem trim_of_forall {cs : Text} (h : ∀ c ∈ cs, isWhite c = false) : trim cs = cs := by
  have hrev : ∀ c ∈ cs.reverse, isWhite c = false := fun c hc => h c (List.mem_reverse.mp hc)
  rw [trim, dropWhile_isWhite h, dropWhile_isWhite hrev, List.reverse_reverse]

end Text

/-! ## Hex -/

/-- The numbers of the characters of a range. -/
theorem toNat_of_range {c lo hi : Char} (h : lo ≤ c ∧ c ≤ hi) {m n : Nat} (hm : lo.toNat = m)
    (hn : hi.toNat = n) : m ≤ c.toNat ∧ c.toNat ≤ n := by
  rw [← hm, ← hn]
  exact ⟨UInt32.le_iff_toNat_le.mp h.1, UInt32.le_iff_toNat_le.mp h.2⟩

theorem toNat_ofNat_byte {n : Nat} (h : n < 256) : (UInt8.ofNat n).toNat = n :=
  UInt8.toNat_ofNat_of_lt' h

namespace Hex

/-- The characters of one byte. -/
def ofByte (b : UInt8) : Text := [Nat.digitChar (b.toNat / 16), Nat.digitChar (b.toNat % 16)]

/-- `hex::encode`, as characters. -/
def encode (bs : Bytes) : Text := bs.flatMap ofByte

def value (c : Char) : Option Nat :=
  if '0' ≤ c ∧ c ≤ '9' then some (c.toNat - 48)
  else if 'a' ≤ c ∧ c ≤ 'f' then some (c.toNat - 87)
  else if 'A' ≤ c ∧ c ≤ 'F' then some (c.toNat - 55)
  else none

/-- `hex::decode`: either case, an even number of digits. -/
def decode : Text → Option Bytes
  | [] => some []
  | [_] => none
  | c :: d :: cs =>
      (value c).bind fun x => (value d).bind fun y =>
        (decode cs).map fun bs => UInt8.ofNat (16 * x + y) :: bs

theorem value_digitChar {n : Nat} (h : n < 16) : value (Nat.digitChar n) = some n := by
  interval_cases n <;> decide

theorem isWhite_digitChar {n : Nat} (h : n < 16) : Text.isWhite (Nat.digitChar n) = false := by
  interval_cases n <;> decide

theorem decode_encode (bs : Bytes) : decode (encode bs) = some bs := by
  induction bs with
  | nil => rfl
  | cons b bs ih =>
      have hb := b.toNat_lt
      have hval : 16 * (b.toNat / 16) + b.toNat % 16 = b.toNat := by omega
      rw [encode, List.flatMap_cons, ofByte, List.cons_append, List.cons_append, List.nil_append,
        decode, value_digitChar (by omega), value_digitChar (by omega), Option.bind_some,
        Option.bind_some, ← encode, ih, Option.map_some, hval, UInt8.ofNat_toNat]

theorem length_encode (bs : Bytes) : (encode bs).length = 2 * bs.length := by
  induction bs with
  | nil => rfl
  | cons b bs ih =>
      have hbyte : (ofByte b).length = 2 := rfl
      rw [encode, List.flatMap_cons, List.length_append, hbyte, List.length_cons]
      rw [encode] at ih
      omega

theorem isWhite_of_mem_encode (bs : Bytes) : ∀ c ∈ encode bs, Text.isWhite c = false := by
  intro c hc
  obtain ⟨b, -, hc⟩ := List.mem_flatMap.mp hc
  have hb := b.toNat_lt
  rw [ofByte, List.mem_cons, List.mem_singleton] at hc
  rcases hc with rfl | rfl
  · exact isWhite_digitChar (by omega)
  · exact isWhite_digitChar (by omega)

/-- Whatever the case of a digit, it has one value. -/
theorem value_toLower (c : Char) : value c.toLower = value c := by
  by_cases hupper : 65 ≤ c.toNat ∧ c.toNat ≤ 90
  · obtain ⟨hlo, hhi⟩ := hupper
    rw [← Char.ofNat_toNat c]
    interval_cases c.toNat <;> decide
  · have hsame : c.toLower = c := dif_neg hupper
    rw [hsame]

theorem digitChar_of_value {c : Char} {n : Nat} (h : value c = some n) :
    Nat.digitChar n = c.toLower ∧ n < 16 := by
  rw [value] at h
  rw [← Char.ofNat_toNat c]
  split at h
  · next hdigit =>
      obtain ⟨hlo, hhi⟩ := toNat_of_range hdigit (m := 48) (n := 57) rfl rfl
      obtain rfl := Option.some.inj h
      interval_cases c.toNat <;> decide
  · split at h
    · next hlower =>
        obtain ⟨hlo, hhi⟩ := toNat_of_range hlower (m := 97) (n := 102) rfl rfl
        obtain rfl := Option.some.inj h
        interval_cases c.toNat <;> decide
    · split at h
      · next hupper =>
          obtain ⟨hlo, hhi⟩ := toNat_of_range hupper (m := 65) (n := 70) rfl rfl
          obtain rfl := Option.some.inj h
          interval_cases c.toNat <;> decide
      · cases h

theorem decode_map_toLower (cs : Text) : decode (cs.map Char.toLower) = decode cs := by
  induction cs using decode.induct with
  | case1 => rfl
  | case2 c => rfl
  | case3 c d cs ih =>
      rw [List.map_cons, List.map_cons, decode, decode, value_toLower, value_toLower, ih]

/-- **What decodes**: the hex of the bytes, in any letter case. -/
theorem decode_eq_some_iff {cs : Text} {bs : Bytes} :
    decode cs = some bs ↔ cs.map Char.toLower = encode bs := by
  constructor
  · intro h
    induction cs using decode.induct generalizing bs with
    | case1 =>
        rw [decode] at h
        rw [← Option.some.inj h]
        rfl
    | case2 c =>
        rw [decode] at h
        cases h
    | case3 c d cs ih =>
        rw [decode] at h
        obtain ⟨x, hx, h⟩ := Option.bind_eq_some_iff.mp h
        obtain ⟨y, hy, h⟩ := Option.bind_eq_some_iff.mp h
        obtain ⟨bs', hbs', rfl⟩ := Option.map_eq_some_iff.mp h
        obtain ⟨hc, hx16⟩ := digitChar_of_value hx
        obtain ⟨hd, hy16⟩ := digitChar_of_value hy
        have hhigh : (16 * x + y) / 16 = x := by omega
        have hlow : (16 * x + y) % 16 = y := by omega
        rw [List.map_cons, List.map_cons, encode, List.flatMap_cons, ofByte,
          toNat_ofNat_byte (by omega), hhigh, hlow, hc, hd, ih hbs']
        rfl
  · intro h
    rw [← decode_map_toLower, h, decode_encode]

end Hex

/-! ## Numbers in hex -/

theorem digitChar_inj {m n : Nat} (hm : m < 16) (hn : n < 16)
    (h : Nat.digitChar m = Nat.digitChar n) : m = n := by
  have hval := Hex.value_digitChar hm
  rw [h, Hex.value_digitChar hn] at hval
  exact (Option.some.inj hval).symm

/-- Different numbers have different hex digits. -/
theorem toDigits_hex_injective {m n : Nat} (h : Nat.toDigits 16 m = Nat.toDigits 16 n) : m = n := by
  induction m using Nat.strongRecOn generalizing n with
  | ind m ih =>
      have hbase : 1 < 16 := by omega
      have hpos : ∀ k, (Nat.toDigits 16 k).length ≠ 0 := fun k =>
        Nat.pos_iff_ne_zero.mp Nat.length_toDigits_pos
      by_cases hm : m < 16 <;> by_cases hn : n < 16
      · rw [Nat.toDigits_of_lt_base hm, Nat.toDigits_of_lt_base hn, List.singleton_inj] at h
        exact digitChar_inj hm hn h
      · rw [Nat.toDigits_of_lt_base hm, Nat.toDigits_of_base_le hbase (by omega)] at h
        have hlen := congrArg List.length h
        simp only [List.length_singleton, List.length_append] at hlen
        exact absurd (by omega) (hpos (n / 16))
      · rw [Nat.toDigits_of_lt_base hn, Nat.toDigits_of_base_le hbase (by omega)] at h
        have hlen := congrArg List.length h
        simp only [List.length_singleton, List.length_append] at hlen
        exact absurd (by omega) (hpos (m / 16))
      · have hle : 16 ≤ m := by omega
        have hle' : 16 ≤ n := by omega
        rw [Nat.toDigits_of_base_le hbase hle, Nat.toDigits_of_base_le hbase hle'] at h
        obtain ⟨hinit, hlast⟩ := List.append_inj' h rfl
        have hdiv := ih (m / 16) (by omega) hinit
        have hmod := digitChar_inj (by omega) (by omega) (List.singleton_inj.mp hlast)
        omega

/-! ## Base64 -/

namespace Base64

/-- The character of a six-bit value. -/
def ofSextet (n : Nat) : Char :=
  if n < 26 then Char.ofNat (65 + n)
  else if n < 52 then Char.ofNat (71 + n)
  else if n < 62 then Char.ofNat (n - 4)
  else if n = 62 then '+'
  else '/'

def sextet (c : Char) : Option Nat :=
  if 'A' ≤ c ∧ c ≤ 'Z' then some (c.toNat - 65)
  else if 'a' ≤ c ∧ c ≤ 'z' then some (c.toNat - 71)
  else if '0' ≤ c ∧ c ≤ '9' then some (c.toNat + 4)
  else if c = '+' then some 62
  else if c = '/' then some 63
  else none

/-- `STANDARD.encode`. -/
def encode : Bytes → Text
  | [] => []
  | [a] => [ofSextet (a.toNat / 4), ofSextet (a.toNat % 4 * 16), '=', '=']
  | [a, b] =>
      [ofSextet (a.toNat / 4), ofSextet (a.toNat % 4 * 16 + b.toNat / 16),
        ofSextet (b.toNat % 16 * 4), '=']
  | a :: b :: c :: bs =>
      ofSextet (a.toNat / 4) :: ofSextet (a.toNat % 4 * 16 + b.toNat / 16) ::
        ofSextet (b.toNat % 16 * 4 + c.toNat / 64) :: ofSextet (c.toNat % 64) :: encode bs

theorem length_le_length_encode (bs : Bytes) : bs.length ≤ (encode bs).length := by
  fun_induction encode bs with
  | case1 => exact Nat.le_refl _
  | case2 a => simp
  | case3 a b => simp
  | case4 a b c bs ih =>
      simp only [List.length_cons]
      omega

/-- The three bytes of four sextets. -/
def joinSextets (x y z w : Nat) : Bytes :=
  [UInt8.ofNat (x * 4 + y / 16), UInt8.ofNat (y % 16 * 16 + z / 4), UInt8.ofNat (z % 4 * 64 + w)]

/-- `STANDARD.decode`. -/
def decode : Text → Option Bytes
  | [] => some []
  | a :: b :: c :: d :: cs =>
      (sextet a).bind fun x => (sextet b).bind fun y =>
        if d = '=' ∧ cs = [] then
          if c = '=' then
            if y % 16 = 0 then some ((joinSextets x y 0 0).take 1) else none
          else
            (sextet c).bind fun z =>
              if z % 4 = 0 then some ((joinSextets x y z 0).take 2) else none
        else
          (sextet c).bind fun z => (sextet d).bind fun w =>
            (decode cs).map fun bs => joinSextets x y z w ++ bs
  | _ => none

theorem sextet_ofSextet {n : Nat} (h : n < 64) : sextet (ofSextet n) = some n := by
  interval_cases n <;> decide

theorem ofSextet_ne_pad {n : Nat} (h : n < 64) : ofSextet n ≠ '=' := by
  interval_cases n <;> decide

theorem isWhite_ofSextet {n : Nat} (h : n < 64) : Text.isWhite (ofSextet n) = false := by
  interval_cases n <;> decide

theorem joinSextets_split (a b c : UInt8) :
    joinSextets (a.toNat / 4) (a.toNat % 4 * 16 + b.toNat / 16) (b.toNat % 16 * 4 + c.toNat / 64)
      (c.toNat % 64) = [a, b, c] := by
  have ha := a.toNat_lt
  have hb := b.toNat_lt
  have hc := c.toNat_lt
  have h1 : a.toNat / 4 * 4 + (a.toNat % 4 * 16 + b.toNat / 16) / 16 = a.toNat := by omega
  have h2 : (a.toNat % 4 * 16 + b.toNat / 16) % 16 * 16 + (b.toNat % 16 * 4 + c.toNat / 64) / 4
      = b.toNat := by omega
  have h3 : (b.toNat % 16 * 4 + c.toNat / 64) % 4 * 64 + c.toNat % 64 = c.toNat := by omega
  rw [joinSextets, h1, h2, h3, UInt8.ofNat_toNat, UInt8.ofNat_toNat, UInt8.ofNat_toNat]

theorem decode_encode (bs : Bytes) : decode (encode bs) = some bs := by
  induction bs using encode.induct with
  | case1 => rfl
  -- One byte: two sextets and two signs of padding.
  | case2 a =>
      have ha := a.toNat_lt
      have hjoin := joinSextets_split a 0 0
      rw [show (0 : UInt8).toNat = 0 from rfl, Nat.zero_div, Nat.zero_mod, Nat.add_zero] at hjoin
      rw [encode, decode, sextet_ofSextet (by omega), Option.bind_some,
        sextet_ofSextet (by omega), Option.bind_some, if_pos ⟨rfl, rfl⟩, if_pos rfl,
        if_pos (by omega), hjoin]
      rfl
  -- Two bytes: three sextets and one sign of padding.
  | case3 a b =>
      have ha := a.toNat_lt
      have hb := b.toNat_lt
      have hjoin := joinSextets_split a b 0
      rw [show (0 : UInt8).toNat = 0 from rfl, Nat.zero_div, Nat.zero_mod, Nat.add_zero] at hjoin
      rw [encode, decode, sextet_ofSextet (by omega), Option.bind_some,
        sextet_ofSextet (by omega), Option.bind_some, if_pos ⟨rfl, rfl⟩,
        if_neg (ofSextet_ne_pad (by omega)), sextet_ofSextet (by omega), Option.bind_some,
        if_pos (by omega), hjoin]
      rfl
  -- Three bytes make four sextets, and the rest goes on.
  | case4 a b c bs ih =>
      have ha := a.toNat_lt
      have hb := b.toNat_lt
      have hc := c.toNat_lt
      rw [encode, decode, sextet_ofSextet (by omega), Option.bind_some,
        sextet_ofSextet (by omega), Option.bind_some,
        if_neg (fun h => ofSextet_ne_pad (by omega) h.1), sextet_ofSextet (by omega),
        Option.bind_some, sextet_ofSextet (by omega), Option.bind_some, ih, Option.map_some,
        joinSextets_split]
      rfl

theorem isWhite_of_mem_encode (bs : Bytes) : ∀ c ∈ encode bs, Text.isWhite c = false := by
  have hpad : Text.isWhite '=' = false := by decide
  induction bs using encode.induct with
  | case1 => exact fun _ hc => nomatch hc
  | case2 a =>
      have ha := a.toNat_lt
      simp only [encode, List.forall_mem_cons]
      exact ⟨isWhite_ofSextet (by omega), isWhite_ofSextet (by omega), hpad, hpad, nofun⟩
  | case3 a b =>
      have ha := a.toNat_lt
      have hb := b.toNat_lt
      simp only [encode, List.forall_mem_cons]
      exact ⟨isWhite_ofSextet (by omega), isWhite_ofSextet (by omega),
        isWhite_ofSextet (by omega), hpad, nofun⟩
  | case4 a b c bs ih =>
      have ha := a.toNat_lt
      have hb := b.toNat_lt
      have hc := c.toNat_lt
      simp only [encode, List.forall_mem_cons]
      exact ⟨isWhite_ofSextet (by omega), isWhite_ofSextet (by omega),
        isWhite_ofSextet (by omega), isWhite_ofSextet (by omega), ih⟩

theorem ofSextet_of_sextet {c : Char} {n : Nat} (h : sextet c = some n) :
    ofSextet n = c ∧ n < 64 := by
  rw [sextet] at h
  rw [← Char.ofNat_toNat c]
  -- Five ranges of characters, each mapped back by its own bounds.
  split at h
  · next hupper =>
      obtain ⟨hlo, hhi⟩ := toNat_of_range hupper (m := 65) (n := 90) rfl rfl
      obtain rfl := Option.some.inj h
      interval_cases c.toNat <;> decide
  · split at h
    · next hlower =>
        obtain ⟨hlo, hhi⟩ := toNat_of_range hlower (m := 97) (n := 122) rfl rfl
        obtain rfl := Option.some.inj h
        interval_cases c.toNat <;> decide
    · split at h
      · next hdigit =>
          obtain ⟨hlo, hhi⟩ := toNat_of_range hdigit (m := 48) (n := 57) rfl rfl
          obtain rfl := Option.some.inj h
          interval_cases c.toNat <;> decide
      · split at h
        · next hplus =>
            obtain rfl := Option.some.inj h
            rw [hplus]
            decide
        · split at h
          · next hslash =>
              obtain rfl := Option.some.inj h
              rw [hslash]
              decide
          · cases h

/-- The bytes of one group, encoded again. -/
theorem encode_joinSextets {x y z w : Nat} (hx : x < 64) (hy : y < 64) (hz : z < 64) (hw : w < 64)
    (bs : Bytes) :
    encode (joinSextets x y z w ++ bs) =
      ofSextet x :: ofSextet y :: ofSextet z :: ofSextet w :: encode bs := by
  have h1 : (x * 4 + y / 16) / 4 = x := by omega
  have h2 : (x * 4 + y / 16) % 4 * 16 + (y % 16 * 16 + z / 4) / 16 = y := by omega
  have h3 : (y % 16 * 16 + z / 4) % 16 * 4 + (z % 4 * 64 + w) / 64 = z := by omega
  have h4 : (z % 4 * 64 + w) % 64 = w := by omega
  rw [joinSextets, List.cons_append, List.cons_append, List.cons_append, List.nil_append, encode,
    toNat_ofNat_byte (by omega), toNat_ofNat_byte (by omega), toNat_ofNat_byte (by omega), h1, h2,
    h3, h4]

/-- **What decodes** is the encoding of the bytes. -/
theorem encode_of_decode {cs : Text} {bs : Bytes} (h : decode cs = some bs) : encode bs = cs := by
  induction cs using decode.induct generalizing bs with
  | case1 =>
      rw [decode] at h
      rw [← Option.some.inj h]
      rfl
  | case2 a b c d cs ih =>
      rw [decode] at h
      obtain ⟨x, hx, h⟩ := Option.bind_eq_some_iff.mp h
      obtain ⟨y, hy, h⟩ := Option.bind_eq_some_iff.mp h
      obtain ⟨ha, hx64⟩ := ofSextet_of_sextet hx
      obtain ⟨hb, hy64⟩ := ofSextet_of_sextet hy
      -- Only the last four characters may have padding.
      by_cases hlast : d = '=' ∧ cs = []
      · rw [if_pos hlast] at h
        obtain ⟨hd, hcs⟩ := hlast
        by_cases hpad : c = '='
        · rw [if_pos hpad] at h
          split at h
          -- The bits that no byte takes are zero, or the text was refused.
          · next hbits =>
              -- So the sextets come back from the one byte.
              have h1 : (x * 4 + y / 16) / 4 = x := by omega
              have h2 : (x * 4 + y / 16) % 4 * 16 = y := by omega
              obtain rfl := Option.some.inj h
              rw [joinSextets, List.take_succ_cons, List.take_zero, encode,
                toNat_ofNat_byte (by omega), h1, h2, ha, hb, hpad, hd, hcs]
          · cases h
        · rw [if_neg hpad] at h
          obtain ⟨z, hz, h⟩ := Option.bind_eq_some_iff.mp h
          obtain ⟨hc, hz64⟩ := ofSextet_of_sextet hz
          split at h
          · next hbits =>
              have h1 : (x * 4 + y / 16) / 4 = x := by omega
              have h2 : (x * 4 + y / 16) % 4 * 16 + (y % 16 * 16 + z / 4) / 16 = y := by omega
              have h3 : (y % 16 * 16 + z / 4) % 16 * 4 = z := by omega
              obtain rfl := Option.some.inj h
              rw [joinSextets, List.take_succ_cons, List.take_succ_cons, List.take_zero, encode,
                toNat_ofNat_byte (by omega), toNat_ofNat_byte (by omega), h1, h2, h3, ha, hb, hc, hd,
                hcs]
          · cases h
      -- Four characters without padding are three whole bytes.
      · rw [if_neg hlast] at h
        obtain ⟨z, hz, h⟩ := Option.bind_eq_some_iff.mp h
        obtain ⟨w, hw, h⟩ := Option.bind_eq_some_iff.mp h
        obtain ⟨bs', hbs', rfl⟩ := Option.map_eq_some_iff.mp h
        obtain ⟨hc, hz64⟩ := ofSextet_of_sextet hz
        obtain ⟨hd, hw64⟩ := ofSextet_of_sextet hw
        rw [encode_joinSextets hx64 hy64 hz64 hw64, ih hbs', ha, hb, hc, hd]
  | case3 cs hnil hcons =>
      rw [decode] at h
      · cases h
      · exact hnil
      · exact hcons

end Base64

end Lib
