/-
  Maranode.Lib.Json.Codec

  Typed values as JSON, in the manner of a derive-based framework: one
  description of a type's members drives several serializers.

  A `Serializer` says how floats are written and what becomes of the member list
  of a struct: the text serializer emits it as it stands (`keepMembers`), the one
  that builds a value collects it into a sorted map (`sortMembers`).  A `Codec`
  reads back what it wrote under every serializer; the law is a field, so a codec
  of a struct is built from the codecs of its members.

  Readers look members up by name, ignore names they do not know and refuse a
  name that occurs twice.
-/
import Maranode.Lib.Json.RoundTrip
import Mathlib.Data.List.Nodup
import Mathlib.Data.List.Perm.Basic

namespace Lib.Json

/-! ## Members by name -/

/-- The values a name occurs with. -/
def occ (name : String) (fs : List (String × Value)) : List Value :=
  fs.filterMap fun f => if f.1 = name then some f.2 else none

@[simp] theorem occ_nil (name : String) : occ name [] = [] := rfl

@[simp] theorem occ_cons (name k : String) (v : Value) (fs : List (String × Value)) :
    occ name ((k, v) :: fs) = if k = name then v :: occ name fs else occ name fs := by
  by_cases h : k = name <;> simp [occ, h]

@[simp] theorem occ_append (name : String) (fs gs : List (String × Value)) :
    occ name (fs ++ gs) = occ name fs ++ occ name gs := List.filterMap_append

theorem occ_eq_nil {name : String} {fs : List (String × Value)}
    (h : name ∉ fs.map Prod.fst) : occ name fs = [] := by
  simp only [occ, List.filterMap_eq_nil_iff]
  intro f hf
  have hne : f.1 ≠ name := by
    rintro rfl
    exact h (List.mem_map_of_mem hf)
  simp [hne]

theorem length_occ_le_one (name : String) {fs : List (String × Value)}
    (h : (fs.map Prod.fst).Nodup) : (occ name fs).length ≤ 1 := by
  induction fs with
  | nil => simp
  | cons f fs ih =>
      obtain ⟨k, v⟩ := f
      rw [List.map_cons, List.nodup_cons] at h
      rw [occ_cons]
      split
      · next hk =>
          subst hk
          simp [occ_eq_nil h.1]
      · exact ih h.2

/-- A name that occurs at most once is looked up the same in any order. -/
theorem occ_eq_of_perm {name : String} {fs gs : List (String × Value)} (hp : fs.Perm gs)
    (hn : (gs.map Prod.fst).Nodup) : occ name fs = occ name gs := by
  have hperm : (occ name fs).Perm (occ name gs) := hp.filterMap _
  have hlen := length_occ_le_one name hn
  rcases hocc : occ name gs with - | ⟨v, vs⟩
  · rw [hocc] at hperm
    exact hperm.eq_nil
  · rw [hocc] at hlen hperm
    obtain rfl : vs = [] := List.eq_nil_of_length_eq_zero (by simpa using hlen)
    exact List.perm_singleton.mp hperm

/-- A member that is left out when there is nothing to write. -/
def optMember (name : String) : Option Value → List (String × Value)
  | none => []
  | some v => [(name, v)]

@[simp] theorem occ_optMember (name k : String) (o : Option Value) :
    occ name (optMember k o) = if k = name then o.toList else [] := by
  cases o <;> by_cases h : k = name <;> simp [optMember, h]

/-! ## Serializers -/

section Serializers

variable {F : Type} (read : NumLit → Option F)

/-- What one serializer does with floats and with the members of a struct.  `read`
    is the float reader its literals are meant for. -/
structure Serializer where
  float : F → NumLit
  members : List (String × Value) → List (String × Value)
  read_float : ∀ x, read (float x) = some x
  occ_members : ∀ (fs : List (String × Value)) (name : String),
    (fs.map Prod.fst).Nodup → occ name (members fs) = occ name fs

/-- Put a member into a map sorted by name, in place of one of the same name. -/
def insertMember (k : String) (v : Value) :
    List (String × Value) → List (String × Value)
  | [] => [(k, v)]
  | (k', v') :: fs =>
      if k = k' then (k, v) :: fs
      else if k < k' then (k, v) :: (k', v') :: fs
      else (k', v') :: insertMember k v fs

/-- The members as a sorted map, a later one replacing an earlier of its name. -/
def sortMembers (fs : List (String × Value)) : List (String × Value) :=
  fs.foldl (fun m f => insertMember f.1 f.2 m) []

theorem insertMember_perm {k : String} {m : List (String × Value)} (v : Value)
    (h : k ∉ m.map Prod.fst) : (insertMember k v m).Perm ((k, v) :: m) := by
  induction m with
  | nil => exact List.Perm.refl _
  | cons f m ih =>
      obtain ⟨k', v'⟩ := f
      rw [List.map_cons, List.mem_cons, not_or] at h
      rw [insertMember, if_neg h.1]
      split
      · exact List.Perm.refl _
      · exact ((ih h.2).cons _).trans (List.Perm.swap ..)

theorem sortMembers_perm {fs : List (String × Value)} (h : (fs.map Prod.fst).Nodup) :
    (sortMembers fs).Perm fs := by
  have hfold : ∀ (gs m : List (String × Value)), ((m ++ gs).map Prod.fst).Nodup →
      (gs.foldl (fun m f => insertMember f.1 f.2 m) m).Perm (m ++ gs) := by
    intro gs
    induction gs with
    | nil => intro m _; simp
    | cons g gs ih =>
        intro m hm
        obtain ⟨k, v⟩ := g
        have hk : k ∉ m.map Prod.fst := by
          rw [List.map_append, List.nodup_append] at hm
          intro hmem
          exact hm.2.2 k hmem k (List.mem_cons_self ..) rfl
        have hins := insertMember_perm v hk
        have hall : (insertMember k v m ++ gs).Perm (m ++ (k, v) :: gs) :=
          (hins.append_right gs).trans List.perm_middle.symm
        have hnodup : ((insertMember k v m ++ gs).map Prod.fst).Nodup :=
          ((hall.map Prod.fst).nodup_iff).mpr hm
        exact (ih _ hnodup).trans hall
  simpa [sortMembers] using hfold fs [] (by simpa using h)

theorem occ_sortMembers {fs : List (String × Value)} (h : (fs.map Prod.fst).Nodup)
    (name : String) : occ name (sortMembers fs) = occ name fs :=
  occ_eq_of_perm (sortMembers_perm h) h

/-- The serializer that writes text: members as they stand. -/
def Serializer.text (float : F → NumLit) (h : ∀ x, read (float x) = some x) :
    Serializer read where
  float := float
  members := id
  read_float := h
  occ_members := fun _ _ _ => rfl

/-- The serializer that builds a value: members in a sorted map. -/
def Serializer.value (float : F → NumLit) (h : ∀ x, read (float x) = some x) :
    Serializer read where
  float := float
  members := sortMembers
  read_float := h
  occ_members := fun _ name hn => occ_sortMembers hn name

/-! ## Codecs -/

/-- How a type is written and read.  What is written is never `null`, so that an
    absent value can be. -/
structure Codec (α : Type) where
  enc : Serializer read → α → Value
  dec : Value → Option α
  dec_enc : ∀ S a, dec (enc S a) = some a
  ne_null : ∀ S a, enc S a ≠ .null

variable {read}

attribute [simp] Codec.dec_enc Codec.ne_null

namespace Codec

variable {α : Type}

theorem enc_injective (c : Codec read α) (S : Serializer read) {a b : α}
    (h : c.enc S a = c.enc S b) : a = b := by
  have ha := c.dec_enc S a
  rw [h, c.dec_enc] at ha
  exact (Option.some.inj ha).symm

/-- `null` for an absent value. -/
def encOpt (c : Codec read α) (S : Serializer read) : Option α → Value
  | none => .null
  | some a => c.enc S a

/-- A required member. -/
def one (c : Codec read α) : List Value → Option α
  | [v] => c.dec v
  | _ => none

/-- A member that may be missing or `null`. -/
def optional (c : Codec read α) : List Value → Option (Option α)
  | [] => some none
  | [.null] => some none
  | [v] => (c.dec v).map some
  | _ => none

/-- A member with a default. -/
def oneOr (c : Codec read α) (dflt : α) : List Value → Option α
  | [] => some dflt
  | [v] => c.dec v
  | _ => none

def field (c : Codec read α) (name : String) (fs : List (String × Value)) : Option α :=
  c.one (occ name fs)

def fieldOpt (c : Codec read α) (name : String) (fs : List (String × Value)) :
    Option (Option α) :=
  c.optional (occ name fs)

def fieldOr (c : Codec read α) (dflt : α) (name : String) (fs : List (String × Value)) :
    Option α :=
  c.oneOr dflt (occ name fs)

@[simp] theorem one_enc (c : Codec read α) (S : Serializer read) (a : α) :
    c.one [c.enc S a] = some a := c.dec_enc S a

@[simp] theorem one_nil (c : Codec read α) : c.one [] = none := rfl

@[simp] theorem one_cons_cons (c : Codec read α) (v w : Value) (vs : List Value) :
    c.one (v :: w :: vs) = none := rfl

@[simp] theorem oneOr_enc (c : Codec read α) (S : Serializer read) (d a : α) :
    c.oneOr d [c.enc S a] = some a := c.dec_enc S a

theorem optional_of_ne_null (c : Codec read α) {v : Value} (h : v ≠ .null) :
    c.optional [v] = (c.dec v).map some := by
  cases v <;> first | rfl | exact absurd rfl h

@[simp] theorem optional_encOpt (c : Codec read α) (S : Serializer read) (o : Option α) :
    c.optional [c.encOpt S o] = some o := by
  cases o with
  | none => rfl
  | some a => rw [encOpt, c.optional_of_ne_null (c.ne_null S a), c.dec_enc]; rfl

@[simp] theorem optional_toList (c : Codec read α) (S : Serializer read) (o : Option α) :
    c.optional (o.map (c.enc S)).toList = some o := by
  cases o with
  | none => rfl
  | some a =>
      simp only [Option.map_some, Option.toList_some]
      rw [c.optional_of_ne_null (c.ne_null S a), c.dec_enc]; rfl

/-! ### Scalars -/

def str : Codec read String where
  enc _ s := .str s
  dec
    | .str s => some s
    | _ => none
  dec_enc _ _ := rfl
  ne_null _ _ := nofun

def bool : Codec read Bool where
  enc _ b := .bool b
  dec
    | .bool b => some b
    | _ => none
  dec_enc _ _ := rfl
  ne_null _ _ := nofun

/-- The natural number below a bound that a literal denotes. -/
def natBelow (bound : Nat) : Value → Option Nat
  | .num l => l.toNat?.bind fun n => if n < bound then some n else none
  | _ => none

theorem natBelow_ofNat {bound n : Nat} (h : n < bound) :
    natBelow bound (.num (NumLit.ofNat n)) = some n := by
  simp [natBelow, h]

def u8 : Codec read UInt8 where
  enc _ n := .num (NumLit.ofNat n.toNat)
  dec v := (natBelow (2 ^ 8) v).map UInt8.ofNat
  dec_enc _ n := by simp [natBelow_ofNat n.toNat_lt]
  ne_null _ _ := nofun

def u16 : Codec read UInt16 where
  enc _ n := .num (NumLit.ofNat n.toNat)
  dec v := (natBelow (2 ^ 16) v).map UInt16.ofNat
  dec_enc _ n := by simp [natBelow_ofNat n.toNat_lt]
  ne_null _ _ := nofun

def u32 : Codec read UInt32 where
  enc _ n := .num (NumLit.ofNat n.toNat)
  dec v := (natBelow (2 ^ 32) v).map UInt32.ofNat
  dec_enc _ n := by simp [natBelow_ofNat n.toNat_lt]
  ne_null _ _ := nofun

def u64 : Codec read UInt64 where
  enc _ n := .num (NumLit.ofNat n.toNat)
  dec v := (natBelow (2 ^ 64) v).map UInt64.ofNat
  dec_enc _ n := by simp [natBelow_ofNat n.toNat_lt]
  ne_null _ _ := nofun

def float : Codec read F where
  enc S x := .num (S.float x)
  dec
    | .num l => read l
    | _ => none
  dec_enc S x := S.read_float x
  ne_null _ _ := nofun

/-- A value carried as a string that a parser takes back. -/
def viaStr (print : α → String) (parse : String → Option α)
    (h : ∀ a, parse (print a) = some a) : Codec read α where
  enc _ a := .str (print a)
  dec
    | .str s => parse s
    | _ => none
  dec_enc _ a := h a
  ne_null _ _ := nofun

/-! ### Lists and structs -/

def list (c : Codec read α) : Codec read (List α) where
  enc S xs := .arr (xs.map (c.enc S))
  dec
    | .arr vs => vs.mapM c.dec
    | _ => none
  dec_enc S xs := by
    simp only
    induction xs with
    | nil => rfl
    | cons x xs ih =>
        rw [List.map_cons, List.mapM_cons, ih, c.dec_enc]
        rfl
  ne_null _ _ := nofun

end Codec

/-- The members of a struct, which may also come as an array in the order of its
    fields, of which the first `need` have no default. -/
def structMembers (names : List String) (need : Nat) : Value → Option (List (String × Value))
  | .obj fs => some fs
  | .arr vs => if need ≤ vs.length ∧ vs.length ≤ names.length then some (names.zip vs) else none
  | _ => none

/-- A variant of an externally tagged enum: a bare name, or the only member of an
    object. -/
def variantOf : Value → Option (String × Value)
  | .str s => some (s, .null)
  | .obj [(k, v)] => some (k, v)
  | _ => none

end Serializers

end Lib.Json
