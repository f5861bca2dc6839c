/-
  Maranode.Lib.Lossy

  `String::from_utf8_lossy`, and texts that are read in pieces.

  What is no character becomes one replacement character, for as many bytes as could have
  started one.  Pieces that are read one by one give the text that was cut exactly when no
  cut is inside a character (`flatten_lossy_iff`).
-/
import Maranode.Lib.TextOrder

namespace Lib.Text

/-! ## The next character -/

/-- A byte that does not start a character. -/
def isContinuation (b : UInt8) : Bool := decide (0x80 ≤ b.toNat ∧ b.toNat ≤ 0xbf)

/-- The bytes of a character with this first byte; 0 when there is none. -/
def charWidth (b : UInt8) : Nat :=
  let v := b.toNat
  if v < 0x80 then 1
  else if v < 0xc2 then 0
  else if v < 0xe0 then 2
  else if v < 0xf0 then 3
  else if v < 0xf5 then 4
  else 0

/-- What may follow the first byte. -/
def secondByte (b x : UInt8) : Bool :=
  if b.toNat = 0xe0 then decide (0xa0 ≤ x.toNat ∧ x.toNat ≤ 0xbf)
  else if b.toNat = 0xed then decide (0x80 ≤ x.toNat ∧ x.toNat ≤ 0x9f)
  else if b.toNat = 0xf0 then decide (0x90 ≤ x.toNat ∧ x.toNat ≤ 0xbf)
  else if b.toNat = 0xf4 then decide (0x80 ≤ x.toNat ∧ x.toNat ≤ 0x8f)
  else isContinuation x

/-- `left` more bytes after `n`: whether they are there, and how many were taken. -/
def takeTail : Nat → Nat → Bytes → Bool × Nat
  | 0, n, _ => (true, n)
  | _ + 1, n, [] => (false, n)
  | left + 1, n, x :: r => if isContinuation x then takeTail left (n + 1) r else (false, n)

/-- Whether the text starts with a character, and the bytes of it or of what is replaced. -/
def nextChar : Bytes → Bool × Nat
  | [] => (true, 0)
  | b :: r =>
      match charWidth b with
      | 0 => (false, 1)
      | 1 => (true, 1)
      | width + 2 =>
          match r with
          | [] => (false, 1)
          | x :: r => if secondByte b x then takeTail width 2 r else (false, 1)

def codePoint : Bytes → Nat
  | [a] => a.toNat
  | [a, b] => a.toNat % 32 * 64 + b.toNat % 64
  | [a, b, c] => a.toNat % 16 * 4096 + b.toNat % 64 * 64 + c.toNat % 64
  | [a, b, c, d] =>
      a.toNat % 8 * 262144 + b.toNat % 64 * 4096 + c.toNat % 64 * 64 + d.toNat % 64
  | _ => 0

/-- The bytes taken at the end of `takeTail` continue a character. -/
theorem takeTail_spec (left n : Nat) (r : Bytes) :
    n ≤ (takeTail left n r).2 ∧
      ∀ x ∈ r.take ((takeTail left n r).2 - n), isContinuation x = true := by
  induction left generalizing n r with
  | zero =>
      rw [takeTail, Nat.sub_self, List.take_zero]
      exact ⟨Nat.le_refl n, fun x hx => absurd hx List.not_mem_nil⟩
  | succ left ih =>
      cases r with
      | nil =>
          rw [takeTail, List.take_nil]
          exact ⟨Nat.le_refl n, fun x hx => absurd hx List.not_mem_nil⟩
      | cons y r =>
          rw [takeTail]
          split
          · next hy =>
              obtain ⟨hle, hall⟩ := ih (n + 1) r
              refine ⟨by omega, fun x hx => ?_⟩
              have hsucc : (takeTail left (n + 1) r).2 - n
                  = (takeTail left (n + 1) r).2 - (n + 1) + 1 := by omega
              rw [hsucc, List.take_succ_cons] at hx
              rcases List.mem_cons.mp hx with rfl | hx
              · exact hy
              · exact hall x hx
          · rw [Nat.sub_self, List.take_zero]
            exact ⟨Nat.le_refl n, fun x hx => absurd hx List.not_mem_nil⟩

theorem isContinuation_of_secondByte {b x : UInt8} (h : secondByte b x = true) :
    isContinuation x = true := by
  rw [secondByte] at h
  rw [isContinuation, decide_eq_true_eq]
  split at h
  · rw [decide_eq_true_eq] at h
    omega
  · split at h
    · rw [decide_eq_true_eq] at h
      omega
    · split at h
      · rw [decide_eq_true_eq] at h
        omega
      · split at h
        · rw [decide_eq_true_eq] at h
          omega
        · rwa [isContinuation, decide_eq_true_eq] at h

/-- What is taken starts anywhere and goes on with continuation bytes; one of those in
    front is taken alone. -/
theorem nextChar_spec (b : UInt8) (r : Bytes) :
    ∃ n, (nextChar (b :: r)).2 = n + 1 ∧ (∀ x ∈ r.take n, isContinuation x = true) ∧
      (isContinuation b = true → n = 0) := by
  -- One byte alone: a character of its own or a broken one.
  have hone : ∀ p : Bool × Nat, p.2 = 1 → nextChar (b :: r) = p →
      ∃ n, (nextChar (b :: r)).2 = n + 1 ∧ (∀ x ∈ r.take n, isContinuation x = true) ∧
        (isContinuation b = true → n = 0) := by
    intro p hp heq
    refine ⟨0, by rw [heq, hp], fun x hx => ?_, fun _ => rfl⟩
    rw [List.take_zero] at hx
    exact absurd hx List.not_mem_nil
  cases hw : charWidth b with
  | zero => exact hone (false, 1) rfl (by rw [nextChar, hw])
  | succ w =>
      cases w with
      | zero => exact hone (true, 1) rfl (by rw [nextChar, hw])
      | succ width =>
          cases r with
          | nil => exact hone (false, 1) rfl (by rw [nextChar, hw])
          | cons x r =>
              cases hx : secondByte b x with
              | false => exact hone (false, 1) rfl (by rw [nextChar, hw]; dsimp only; rw [hx]; rfl)
              -- The second byte fits, so the tail is taken as far as it goes on.
              | true =>
                  have hnext : nextChar (b :: x :: r) = takeTail width 2 r := by
                    rw [nextChar, hw]
                    dsimp only
                    rw [if_pos hx]
                  obtain ⟨hle, hall⟩ := takeTail_spec width 2 r
                  refine ⟨(takeTail width 2 r).2 - 1, by rw [hnext]; omega, fun y hy => ?_,
                    fun hb => ?_⟩
                  · have hsucc : (takeTail width 2 r).2 - 1 = (takeTail width 2 r).2 - 2 + 1 := by
                      omega
                    rw [hsucc, List.take_succ_cons] at hy
                    rcases List.mem_cons.mp hy with rfl | hy
                    · exact isContinuation_of_secondByte hx
                    · exact hall y hy
                  · -- A continuation byte starts no character.
                    exfalso
                    rw [isContinuation, decide_eq_true_eq] at hb
                    rw [charWidth] at hw
                    split_ifs at hw <;> omega

/-- `String::from_utf8_lossy`. -/
def lossy : Bytes → Text
  | [] => []
  | b :: r =>
      (if (nextChar (b :: r)).1 then
        Char.ofNat (codePoint ((b :: r).take (nextChar (b :: r)).2))
      else Char.ofNat 0xfffd) :: lossy ((b :: r).drop (nextChar (b :: r)).2)
termination_by bs => bs.length
decreasing_by
  obtain ⟨n, hn, -⟩ := nextChar_spec b r
  rw [hn, List.length_drop, List.length_cons]
  omega

/-! ## A character that is whole -/

theorem toNat_ofNat_mod {n : Nat} (h : n < 256) : (UInt8.ofNat n).toNat = n :=
  UInt8.toNat_ofNat_of_lt' h

theorem secondByte_eq_true {b x : UInt8} (hx : isContinuation x = true)
    (he0 : b.toNat = 0xe0 → 0xa0 ≤ x.toNat) (hed : b.toNat = 0xed → x.toNat ≤ 0x9f)
    (hf0 : b.toNat = 0xf0 → 0x90 ≤ x.toNat) (hf4 : b.toNat = 0xf4 → x.toNat ≤ 0x8f) :
    secondByte b x = true := by
  have hrange := hx
  rw [isContinuation, decide_eq_true_eq] at hrange
  rw [secondByte]
  split_ifs with h1 h2 h3 h4
  · exact decide_eq_true ⟨he0 h1, hrange.2⟩
  · exact decide_eq_true ⟨hrange.1, hed h2⟩
  · exact decide_eq_true ⟨hf0 h3, hrange.2⟩
  · exact decide_eq_true ⟨hrange.1, hf4 h4⟩
  · exact hx

theorem takeTail_append {t : Bytes} (h : ∀ x ∈ t, isContinuation x = true) (n : Nat) (r : Bytes) :
    takeTail t.length n (t ++ r) = (true, n + t.length) := by
  induction t generalizing n with
  | nil => rfl
  | cons x t ih =>
      obtain ⟨hx, ht⟩ := List.forall_mem_cons.mp h
      rw [List.length_cons, List.cons_append, takeTail, if_pos hx, ih ht, Nat.add_assoc,
        Nat.add_comm 1]

/-- Bytes that are a character, whatever comes behind them. -/
structure Whole (bs : Bytes) (v : Nat) : Prop where
  cons : ∃ b t, bs = b :: t ∧ isContinuation b = false ∧ ∀ x ∈ t, isContinuation x = true
  next : ∀ r, nextChar (bs ++ r) = (true, bs.length)
  point : codePoint bs = v

theorem isContinuation_ofNat (n : Nat) :
    isContinuation (UInt8.ofNat (n % 0x40 + 0x80)) = true := by
  rw [isContinuation, toNat_ofNat_mod (by omega)]
  exact decide_eq_true ⟨by omega, by omega⟩

theorem isContinuation_lead {n : Nat} (hn : n < 256) (h : n < 0x80 ∨ 0xc0 ≤ n) :
    isContinuation (UInt8.ofNat n) = false := by
  rw [isContinuation, toNat_ofNat_mod hn]
  exact decide_eq_false (by omega)

theorem secondByte_ofNat {n m : Nat} (hn : n < 256) (he0 : n = 0xe0 → 0x20 ≤ m % 0x40)
    (hed : n = 0xed → m % 0x40 ≤ 0x1f) (hf0 : n = 0xf0 → 0x10 ≤ m % 0x40)
    (hf4 : n = 0xf4 → m % 0x40 ≤ 0xf) :
    secondByte (UInt8.ofNat n) (UInt8.ofNat (m % 0x40 + 0x80)) = true := by
  have hsecond := toNat_ofNat_mod (n := m % 0x40 + 0x80) (by omega)
  refine secondByte_eq_true (isContinuation_ofNat m) ?_ ?_ ?_ ?_ <;>
    rw [toNat_ofNat_mod hn, hsecond] <;> omega

/-- More than one byte. -/
theorem whole_of_tail {n m v : Nat} {t : Bytes} (hn : n < 256) (hlead : 0xc0 ≤ n)
    (hw : charWidth (UInt8.ofNat n) = t.length + 2)
    (hs : secondByte (UInt8.ofNat n) (UInt8.ofNat (m % 0x40 + 0x80)) = true)
    (ht : ∀ x ∈ t, isContinuation x = true)
    (hpoint : codePoint (UInt8.ofNat n :: UInt8.ofNat (m % 0x40 + 0x80) :: t) = v) :
    Whole (UInt8.ofNat n :: UInt8.ofNat (m % 0x40 + 0x80) :: t) v where
  cons := by
    refine ⟨_, _, rfl, isContinuation_lead hn (.inr hlead), fun x hx => ?_⟩
    rcases List.mem_cons.mp hx with rfl | hx
    · exact isContinuation_ofNat m
    · exact ht x hx
  next r := by
    rw [List.cons_append, List.cons_append, nextChar, hw]
    dsimp only
    rw [if_pos hs, takeTail_append ht, List.length_cons, List.length_cons, Nat.add_comm]
  point := hpoint

theorem whole_codeUnits {v : Nat} (hv : v < 0xd800 ∨ 0xdfff < v ∧ v < 0x110000) :
    Whole ((codeUnits v).map UInt8.ofNat) v := by
  rw [codeUnits]
  -- One, two, three or four bytes, by the size of the number.
  split_ifs with h1 h2 h3
  · have hb := toNat_ofNat_mod (n := v) (by omega)
    refine ⟨⟨_, [], rfl, isContinuation_lead (by omega) (by omega),
      fun x hx => absurd hx List.not_mem_nil⟩, fun r => ?_, hb⟩
    have hw : charWidth (UInt8.ofNat v) = 1 := by
      rw [charWidth, hb, if_pos (by omega)]
    rw [List.map_singleton, List.singleton_append, nextChar, hw]
    rfl
  · have hb := toNat_ofNat_mod (n := v / 64 % 0x20 + 0xc0) (by omega)
    have hx := toNat_ofNat_mod (n := v % 0x40 + 0x80) (by omega)
    refine whole_of_tail (by omega) (by omega) ?_
      (secondByte_ofNat (by omega) (by omega) (by omega) (by omega) (by omega))
      (fun x hx => absurd hx List.not_mem_nil) ?_
    · rw [charWidth, hb, if_neg (by omega), if_neg (by omega), if_pos (by omega)]
      rfl
    · change _ % 32 * 64 + _ % 64 = v
      rw [hb, hx]
      omega
  · have hb := toNat_ofNat_mod (n := v / 4096 % 0x10 + 0xe0) (by omega)
    have hx := toNat_ofNat_mod (n := v / 64 % 0x40 + 0x80) (by omega)
    have hy := toNat_ofNat_mod (n := v % 0x40 + 0x80) (by omega)
    refine whole_of_tail (by omega) (by omega) ?_
      (secondByte_ofNat (by omega) (by omega) (by omega) (by omega) (by omega))
      (List.forall_mem_singleton.mpr (isContinuation_ofNat v)) ?_
    · rw [charWidth, hb, if_neg (by omega), if_neg (by omega), if_neg (by omega),
        if_pos (by omega)]
      rfl
    · change _ % 16 * 4096 + _ % 64 * 64 + _ % 64 = v
      rw [hb, hx, hy]
      omega
  · have hb := toNat_ofNat_mod (n := v / 262144 % 0x08 + 0xf0) (by omega)
    have hx := toNat_ofNat_mod (n := v / 4096 % 0x40 + 0x80) (by omega)
    have hy := toNat_ofNat_mod (n := v / 64 % 0x40 + 0x80) (by omega)
    have hz := toNat_ofNat_mod (n := v % 0x40 + 0x80) (by omega)
    refine whole_of_tail (by omega) (by omega) ?_
      (secondByte_ofNat (by omega) (by omega) (by omega) (by omega) (by omega)) ?_ ?_
    · rw [charWidth, hb, if_neg (by omega), if_neg (by omega), if_neg (by omega),
        if_neg (by omega), if_pos (by omega)]
      rfl
    · exact List.forall_mem_cons.mpr ⟨isContinuation_ofNat (v / 64),
        List.forall_mem_singleton.mpr (isContinuation_ofNat v)⟩
    · change _ % 8 * 262144 + _ % 64 * 4096 + _ % 64 * 64 + _ % 64 = v
      rw [hb, hx, hy, hz]
      omega

/-- **A whole character.**  It is taken as it is; its first byte starts it and the others
    continue it. -/
theorem whole_utf8EncodeChar (c : Char) : Whole (String.utf8EncodeChar c) c.toNat := by
  rw [utf8EncodeChar_eq_map]
  exact whole_codeUnits c.valid

theorem lossy_nil : lossy [] = [] := by rw [lossy]

theorem lossy_utf8EncodeChar_append (c : Char) (r : Bytes) :
    lossy (String.utf8EncodeChar c ++ r) = c :: lossy r := by
  obtain ⟨⟨b, t, hbytes, -⟩, hnext, hpoint⟩ := whole_utf8EncodeChar c
  rw [hbytes] at hnext hpoint ⊢
  rw [List.cons_append, lossy, ← List.cons_append, hnext, if_pos rfl, List.take_left, hpoint,
    List.drop_left, Char.ofNat_toNat]

/-- What is valid is read as it is. -/
theorem lossy_encode_append (cs : Text) (r : Bytes) : lossy (encode cs ++ r) = cs ++ lossy r := by
  induction cs with
  | nil => rfl
  | cons c cs ih =>
      rw [encode_cons, List.append_assoc, lossy_utf8EncodeChar_append, ih, List.cons_append]

theorem lossy_encode (cs : Text) : lossy (encode cs) = cs := by
  have h := lossy_encode_append cs []
  rwa [List.append_nil, lossy_nil, List.append_nil] at h

/-! ## How many characters there are -/

/-- The bytes that start something. -/
def starts (bs : Bytes) : Nat := bs.countP fun b => !isContinuation b

theorem starts_append (bs ds : Bytes) : starts (bs ++ ds) = starts bs + starts ds :=
  List.countP_append

theorem starts_of_continuations {bs : Bytes} (h : ∀ b ∈ bs, isContinuation b = true) :
    starts bs = 0 := by
  refine List.countP_eq_zero.mpr fun b hb hno => ?_
  rw [h b hb] at hno
  exact Bool.false_ne_true hno

theorem starts_encode (cs : Text) : starts (encode cs) = cs.length := by
  induction cs with
  | nil => rfl
  | cons c cs ih =>
      obtain ⟨b, t, hbytes, hb, ht⟩ := (whole_utf8EncodeChar c).cons
      have hone : starts (b :: t) = 1 := by
        rw [← List.singleton_append, starts_append, starts_of_continuations ht, starts,
          List.countP_singleton, hb]
        rfl
      rw [encode_cons, hbytes, starts_append, hone, ih, List.length_cons, Nat.add_comm]

/-- A text that is cut inside a character, at its start. -/
def CutsIn : Bytes → Prop
  | [] => False
  | b :: _ => isContinuation b = true

instance : (bs : Bytes) → Decidable (CutsIn bs)
  | [] => inferInstanceAs (Decidable False)
  | b :: _ => inferInstanceAs (Decidable (isContinuation b = true))

/-- Nothing that starts is lost, and what starts with the rest of a character has more. -/
theorem starts_le_length_lossy (bs : Bytes) :
    starts bs ≤ (lossy bs).length ∧ (CutsIn bs → starts bs < (lossy bs).length) := by
  induction bs using lossy.induct with
  | case1 => exact ⟨Nat.zero_le _, fun h => h.elim⟩
  | case2 b r ih =>
      obtain ⟨n, hn, hall, hcont⟩ := nextChar_spec b r
      rw [hn, List.drop_succ_cons] at ih
      have hsplit : starts r = starts (r.drop n) := by
        conv_lhs => rw [← List.take_append_drop n r]
        rw [starts_append, starts_of_continuations hall, Nat.zero_add]
      have hcons : starts (b :: r) = starts [b] + starts r := by
        rw [← starts_append, List.singleton_append]
      rw [lossy, hn, List.drop_succ_cons, List.length_cons, hcons, hsplit]
      have hle := ih.1
      constructor
      · have hone : starts [b] ≤ 1 := List.countP_le_length
        omega
      · intro hb
        have hzero : starts [b] = 0 := starts_of_continuations (fun x hx => by
          rw [List.mem_singleton.mp hx]
          exact hb)
        omega

/-! ## Pieces -/

/-- A text that is cut between characters. -/
theorem exists_cut {cs : Text} {p q : Bytes} (h : p ++ q = encode cs) (hq : ¬ CutsIn q) :
    ∃ ds es, p = encode ds ∧ q = encode es ∧ cs = ds ++ es := by
  induction cs generalizing p with
  | nil =>
      rw [encode_nil, List.append_eq_nil_iff] at h
      exact ⟨[], [], h.1, h.2, rfl⟩
  | cons c cs ih =>
      obtain ⟨b, t, hbytes, -, ht⟩ := (whole_utf8EncodeChar c).cons
      rw [encode_cons, hbytes] at h
      -- The cut lies inside or behind the first character, or at its end.
      rcases List.append_eq_append_iff.mp h with ⟨mid, hmid, hrest⟩ | ⟨mid, hmid, hrest⟩
      · cases mid with
        | nil =>
            rw [List.append_nil] at hmid
            rw [List.nil_append] at hrest
            exact ⟨[c], cs, by rw [← hmid, encode_cons, hbytes, encode_nil, List.append_nil],
              hrest, rfl⟩
        | cons x mid =>
            -- The rest of the character is in front of what is left.
            cases p with
            | nil =>
                refine ⟨[], c :: cs, rfl, ?_, rfl⟩
                rw [encode_cons, hbytes, ← h, List.nil_append]
            | cons a p =>
                exfalso
                rw [List.cons_append] at hmid
                have hx : x ∈ t := by
                  rw [(List.cons.inj hmid).2]
                  exact List.mem_append_right p List.mem_cons_self
                refine hq ?_
                rw [hrest]
                exact ht x hx
      -- The cut is further on, and the rest is cut there.
      · obtain ⟨ds, es, hds, hes, rfl⟩ := ih hrest.symm
        exact ⟨c :: ds, es, by rw [hmid, encode_cons, hbytes, hds], hes, rfl⟩

theorem not_cutsIn_flatten {chunks : List Bytes} (h : ∀ chunk ∈ chunks, ¬ CutsIn chunk) :
    ¬ CutsIn chunks.flatten := by
  induction chunks with
  | nil => exact id
  | cons chunk chunks ih =>
      obtain ⟨hchunk, hchunks⟩ := List.forall_mem_cons.mp h
      rw [List.flatten_cons]
      cases chunk with
      | nil => exact ih hchunks
      | cons b r => exact hchunk

/-- **Reading in pieces.**  The pieces give the text exactly when no piece starts inside a
    character. -/
theorem flatten_lossy_iff {cs : Text} {chunks : List Bytes} (h : chunks.flatten = encode cs) :
    (chunks.map lossy).flatten = cs ↔ ∀ chunk ∈ chunks, ¬ CutsIn chunk := by
  constructor
  -- A chunk that is cut into gives a character more than the text has.
  · intro heq chunk hchunk hcut
    have hle : ∀ l : List Bytes, starts l.flatten ≤ (l.map lossy).flatten.length ∧
        (chunk ∈ l → starts l.flatten < (l.map lossy).flatten.length) := by
      intro l
      induction l with
      | nil => exact ⟨Nat.le_refl _, fun hno => absurd hno List.not_mem_nil⟩
      | cons d l ih =>
          rw [List.flatten_cons, List.map_cons, List.flatten_cons, starts_append,
            List.length_append]
          obtain ⟨hd, hdlt⟩ := starts_le_length_lossy d
          refine ⟨Nat.add_le_add hd ih.1, fun hmem => ?_⟩
          rcases List.mem_cons.mp hmem with rfl | hmem
          · exact Nat.add_lt_add_of_lt_of_le (hdlt hcut) ih.1
          · exact Nat.add_lt_add_of_le_of_lt hd (ih.2 hmem)
    -- So the whole would be longer than it is.
    have hlt := (hle chunks).2 hchunk
    rw [h, starts_encode, heq] at hlt
    exact Nat.lt_irrefl _ hlt
  -- Every chunk begins where a character does, so each is decoded on its own.
  · intro hall
    induction chunks generalizing cs with
    | nil =>
        rw [List.flatten_nil] at h
        rw [encode_eq_nil.mp h.symm]
        rfl
    | cons chunk chunks ih =>
        obtain ⟨-, hrest⟩ := List.forall_mem_cons.mp hall
        rw [List.flatten_cons] at h
        obtain ⟨ds, es, rfl, hes, rfl⟩ := exists_cut h (not_cutsIn_flatten hrest)
        rw [List.map_cons, List.flatten_cons, lossy_encode, ih hes hrest]

end Lib.Text
