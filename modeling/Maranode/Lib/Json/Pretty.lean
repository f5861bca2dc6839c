/-
  Maranode.Lib.Json.Pretty

  The indented writer: two spaces for each level, one line for each member or element.

  The reader skips the white space between tokens, so what is written so reads back
  (`parse_pretty`), and an object that was cut off does not (`ofSlice_take`).
-/
import Maranode.Lib.Json.Torn

namespace Lib.Json

/-! ## Writing -/

/-- A line break, and the indentation of a level. -/
def newline (level : Nat) : Text := '\n' :: List.replicate (2 * level) ' '

mutual

/-- The text of a value at a level. -/
def pretty (level : Nat) : Value → Text
  | .arr (x :: xs) =>
      '[' :: (newline (level + 1) ++ (pretty (level + 1) x ++ prettyElems level xs))
  | .obj ((k, v) :: fs) =>
      '{' :: (newline (level + 1) ++
        (renderStr k ++ ':' :: ' ' :: (pretty (level + 1) v ++ prettyFields level fs)))
  | .arr [] => ['[', ']']
  | .obj [] => ['{', '}']
  | .null => render .null
  | .bool b => render (.bool b)
  | .num n => render (.num n)
  | .str s => render (.str s)

/-- The elements after the first, with the closing bracket. -/
def prettyElems (level : Nat) : List Value → Text
  | [] => newline level ++ [']']
  | x :: xs => ',' :: (newline (level + 1) ++ (pretty (level + 1) x ++ prettyElems level xs))

/-- The members after the first, with the closing brace. -/
def prettyFields (level : Nat) : List (String × Value) → Text
  | [] => newline level ++ ['}']
  | (k, v) :: fs =>
      ',' :: (newline (level + 1) ++
        (renderStr k ++ ':' :: ' ' :: (pretty (level + 1) v ++ prettyFields level fs)))

end

/-! ## White space -/

/-- Between tokens the reader skips white space. -/
def SkipsWhite (m : Mode) : Prop :=
  ∀ k c, isWs c = true → step (m, k) c = some (m, k)

theorem skipsWhite_value : SkipsWhite .value := fun _ _ h => if_pos h

theorem skipsWhite_valueOrClose : SkipsWhite .valueOrClose := fun _ _ h => if_pos h

theorem skipsWhite_keyOrClose : SkipsWhite .keyOrClose := fun _ _ h => if_pos h

theorem skipsWhite_key : SkipsWhite .key := fun _ _ h => if_pos h

theorem skipsWhite_after (v : Value) : SkipsWhite (.after v) := fun _ _ h => if_pos h

theorem SkipsWhite.accept_append {m : Mode} (hm : SkipsWhite m) {cs : Text}
    (h : ∀ c ∈ cs, isWs c = true) (k : List Frame) (rest : Text) :
    accept (m, k) (cs ++ rest) = accept (m, k) rest := by
  induction cs with
  | nil => rfl
  | cons c cs ih =>
      rw [List.cons_append, accept_cons_of_step (hm k c (h c List.mem_cons_self))]
      exact ih fun d hd => h d (List.mem_cons_of_mem _ hd)

theorem isWs_of_mem_newline {level : Nat} : ∀ c ∈ newline level, isWs c = true := by
  intro c hc
  rcases List.mem_cons.mp hc with rfl | hc
  · decide
  · rw [List.eq_of_mem_replicate hc]
    decide

theorem SkipsWhite.accept_newline {m : Mode} (hm : SkipsWhite m) (level : Nat) (k : List Frame)
    (rest : Text) : accept (m, k) (newline level ++ rest) = accept (m, k) rest :=
  hm.accept_append isWs_of_mem_newline k rest

/-! ## Reading back -/

theorem noNumHead_newline (level : Nat) (rest : Text) : NoNumHead (newline level ++ rest) := by
  show isNumChar '\n' = false
  decide

theorem noNumHead_prettyElems (level : Nat) (xs : List Value) (rest : Text) :
    NoNumHead (prettyElems level xs ++ rest) := by
  cases xs with
  | nil =>
      rw [prettyElems, List.append_assoc]
      exact noNumHead_newline level _
  | cons x xs =>
      rw [prettyElems]
      show isNumChar ',' = false
      decide

theorem noNumHead_prettyFields (level : Nat) (fs : List (String × Value)) (rest : Text) :
    NoNumHead (prettyFields level fs ++ rest) := by
  rcases fs with - | ⟨⟨key, v⟩, fs⟩
  · rw [prettyFields, List.append_assoc]
    exact noNumHead_newline level _
  · rw [prettyFields]
    show isNumChar ',' = false
    decide

/-- An array that may still close takes a value that does not start like its end. -/
theorem accept_valueOrClose_pretty (level : Nat) (v : Value) (k : List Frame) (rest : Text) :
    accept (.valueOrClose, k) (pretty level v ++ rest)
      = accept (.value, k) (pretty level v ++ rest) := by
  have hbracket : ∀ c cs, isWs c = false → c ≠ ']' →
      accept (.valueOrClose, k) (c :: cs) = accept (.value, k) (c :: cs) := by
    intro c cs hws hbr
    rw [accept_cons, accept_cons]
    simp [hws, hbr]
  cases v with
  | null => exact accept_valueOrClose_render .null k rest
  | bool b => exact accept_valueOrClose_render (.bool b) k rest
  | num n => exact accept_valueOrClose_render (.num n) k rest
  | str s => exact accept_valueOrClose_render (.str s) k rest
  | arr xs =>
      cases xs with
      | nil => exact hbracket '[' _ (by decide) (by decide)
      | cons x xs => exact hbracket '[' _ (by decide) (by decide)
  | obj fs =>
      rcases fs with - | ⟨⟨key, v⟩, fs⟩
      · exact hbracket '{' _ (by decide) (by decide)
      · exact hbracket '{' _ (by decide) (by decide)

/-- A member's name, its colon and the space after it. -/
theorem accept_key_space {m : Mode} (hm : m = .keyOrClose ∨ m = .key) (key : String)
    (fs : List (String × Value)) (k : List Frame) (rest : Text) :
    accept (m, .obj fs :: k) (renderStr key ++ ':' :: ' ' :: rest)
      = accept (.value, .field fs key :: k) rest := by
  rw [accept_key hm]
  exact accept_cons_of_step rfl rest

mutual

/-- An indented value is read as that value. -/
theorem accept_pretty : ∀ (level : Nat) (v : Value) (k : List Frame) {rest : Text},
    NoNumHead rest → accept (.value, k) (pretty level v ++ rest) = accept (.after v, k) rest
  | level, .null, k, rest, h => accept_render .null k h
  | level, .bool b, k, rest, h => accept_render (.bool b) k h
  | level, .num n, k, rest, h => accept_render (.num n) k h
  | level, .str s, k, rest, h => accept_render (.str s) k h
  | level, .arr [], k, rest, _ => rfl
  | level, .obj [], k, rest, _ => rfl
  | level, .arr (x :: xs), k, rest, _ => by
      have hopen : step (.value, k) '[' = some (.valueOrClose, .arr [] :: k) := rfl
      rw [pretty, List.cons_append, List.append_assoc, List.append_assoc,
        accept_cons_of_step hopen, skipsWhite_valueOrClose.accept_newline,
        accept_valueOrClose_pretty, accept_pretty (level + 1) x _ (noNumHead_prettyElems ..),
        accept_prettyElems level xs x [] k rest, List.nil_append]
  | level, .obj ((key, v) :: fs), k, rest, _ => by
      have hopen : step (.value, k) '{' = some (.keyOrClose, .obj [] :: k) := rfl
      rw [pretty, List.cons_append, List.append_assoc, List.append_assoc, List.cons_append,
        List.cons_append, List.append_assoc, accept_cons_of_step hopen,
        skipsWhite_keyOrClose.accept_newline, accept_key_space (.inl rfl),
        accept_pretty (level + 1) v _ (noNumHead_prettyFields ..),
        accept_prettyFields level fs key v [] k rest, List.nil_append]

theorem accept_prettyElems : ∀ (level : Nat) (xs : List Value) (v : Value) (done : List Value)
    (k : List Frame) (rest : Text),
    accept (.after v, .arr done :: k) (prettyElems level xs ++ rest)
      = accept (.after (.arr (done ++ v :: xs)), k) rest
  | level, [], v, done, k, rest => by
      rw [prettyElems, List.append_assoc, (skipsWhite_after v).accept_newline]
      rfl
  | level, x :: xs, v, done, k, rest => by
      have hcomma : step (.after v, .arr done :: k) ','
          = some (.value, .arr (done ++ [v]) :: k) := rfl
      rw [prettyElems, List.cons_append, List.append_assoc, List.append_assoc,
        accept_cons_of_step hcomma, skipsWhite_value.accept_newline,
        accept_pretty (level + 1) x _ (noNumHead_prettyElems ..),
        accept_prettyElems level xs, List.append_assoc, List.singleton_append]

theorem accept_prettyFields : ∀ (level : Nat) (fs : List (String × Value)) (key : String)
    (v : Value) (done : List (String × Value)) (k : List Frame) (rest : Text),
    accept (.after v, .field done key :: k) (prettyFields level fs ++ rest)
      = accept (.after (.obj (done ++ (key, v) :: fs)), k) rest
  | level, [], key, v, done, k, rest => by
      rw [prettyFields, List.append_assoc, (skipsWhite_after v).accept_newline]
      rfl
  | level, (key', v') :: fs, key, v, done, k, rest => by
      have hcomma : step (.after v, .field done key :: k) ','
          = some (.key, .obj (done ++ [(key, v)]) :: k) := rfl
      rw [prettyFields, List.cons_append, List.append_assoc, List.append_assoc,
        List.cons_append, List.cons_append, List.append_assoc, accept_cons_of_step hcomma,
        skipsWhite_key.accept_newline, accept_key_space (.inr rfl),
        accept_pretty (level + 1) v' _ (noNumHead_prettyFields ..),
        accept_prettyFields level fs, List.append_assoc, List.singleton_append]

end

/-- Reading back an indented value. -/
theorem parse_pretty (level : Nat) (v : Value) : parse (pretty level v) = some v := by
  have h := @accept_pretty level v [] [] trivial
  rw [List.append_nil] at h
  rw [parse, h]
  rfl

/-! ## Files -/

/-- `serde_json::to_vec_pretty`. -/
def toVecPretty (v : Value) : Bytes := Text.encode (pretty 0 v)

/-- `serde_json::from_slice`, up to the value. -/
def ofSlice (bytes : Bytes) : Option Value := (Text.decode bytes).bind parse

theorem ofSlice_toVecPretty (v : Value) : ofSlice (toVecPretty v) = some v := by
  rw [ofSlice, toVecPretty, Text.decode_encode, Option.bind_some, parse_pretty]

theorem prettyFields_eq_concat (level : Nat) (fs : List (String × Value)) :
    ∃ cs, prettyFields level fs = cs ++ ['}'] := by
  induction fs with
  | nil => exact ⟨newline level, by rw [prettyFields]⟩
  | cons f fs ih =>
      obtain ⟨key, v⟩ := f
      obtain ⟨cs, hcs⟩ := ih
      refine ⟨',' :: (newline (level + 1) ++ (renderStr key ++ ':' :: ' ' ::
        (pretty (level + 1) v ++ cs))), ?_⟩
      simp [prettyFields, hcs]

/-- An indented object ends with its brace. -/
theorem pretty_obj_eq_concat (level : Nat) (fs : List (String × Value)) :
    ∃ cs, pretty level (.obj fs) = cs ++ ['}'] := by
  rcases fs with - | ⟨⟨key, v⟩, fs⟩
  · exact ⟨['{'], rfl⟩
  · obtain ⟨cs, hcs⟩ := prettyFields_eq_concat level fs
    refine ⟨'{' :: (newline (level + 1) ++ (renderStr key ++ ':' :: ' ' ::
      (pretty (level + 1) v ++ cs))), ?_⟩
    simp [pretty, hcs]

/-- A text no front of which parses does not parse as bytes either when some are cut off. -/
theorem ofSlice_take_of_front {cs : Text} (hfront : ∀ p u, cs = p ++ u → u ≠ [] → parse p = none)
    {n : Nat} (h : n < (Text.encode cs).length) : ofSlice ((Text.encode cs).take n) = none := by
  rw [ofSlice, Option.bind_eq_none_iff]
  intro ys hys
  -- What decodes was cut between two characters.
  have hbytes : (Text.encode cs).take n ++ [] = Text.encode ys := by
    rw [List.append_nil, Text.encode_eq_of_decode hys]
  obtain ⟨m, ds, hcut, hds, rfl⟩ := Text.exists_take_of_decode
    (List.take_prefix n _) (fun _ _ hnil => absurd hnil (List.cons_ne_nil _ _).symm) hbytes
  obtain rfl : ds = [] := Text.encode_eq_nil.mp hds.symm
  rw [List.append_nil]
  have hsplit := List.take_append_drop m cs
  refine hfront _ _ hsplit.symm fun hnil => ?_
  rw [hnil, List.append_nil] at hsplit
  rw [hsplit] at hcut
  have hlen := congrArg List.length hcut
  rw [List.length_take] at hlen
  omega

/-- **Cut-off files.**  The bytes of an object with some cut off at the end do not parse. -/
theorem ofSlice_take {fs : List (String × Value)} {n : Nat}
    (h : n < (toVecPretty (.obj fs)).length) :
    ofSlice ((toVecPretty (.obj fs)).take n) = none := by
  refine ofSlice_take_of_front (fun p u hsplit hu => ?_) h
  obtain ⟨cs, hcs⟩ := pretty_obj_eq_concat 0 fs
  have hparse := parse_pretty 0 (.obj fs)
  rw [hsplit] at hparse
  exact parse_eq_none_of_rest hparse (mem_of_append_eq_concat (hsplit.symm.trans hcs) hu)

/-- `serde_json::to_vec`. -/
def toVec (v : Value) : Bytes := Text.encode (render v)

theorem ofSlice_toVec (v : Value) : ofSlice (toVec v) = some v := by
  rw [ofSlice, toVec, Text.decode_encode, Option.bind_some, parse_render]

theorem ofSlice_take_toVec {fs : List (String × Value)} {n : Nat}
    (h : n < (toVec (.obj fs)).length) : ofSlice ((toVec (.obj fs)).take n) = none :=
  ofSlice_take_of_front (fun _ _ hsplit hu => parse_eq_none_of_prefix hsplit hu) h

end Lib.Json
