/-
  Maranode.Lib.Path

  POSIX paths: joining, and where a path leads.

  A path leads through its names, one level up for every `..`.  Whether a name joined to a
  directory stays inside it is decided by the name's own climb: the levels it goes up from
  where it starts, and the names it comes down by after that (`inside_join_iff`).
  Symbolic links are not followed.
-/
import Maranode.Lib.Text
import Mathlib.Data.List.TakeDrop

namespace Lib

/-- A path as the text it is written as. -/
abbrev Path := Text

namespace Path

/-! ## Joining -/

def isAbsolute (p : Path) : Bool := p.head? == some '/'

/-- `Path::join`: an absolute path replaces what it is joined to. -/
def join (base p : Path) : Path :=
  if isAbsolute p then p
  else if base.isEmpty || base.getLast? == some '/' then base ++ p
  else base ++ '/' :: p

/-- `Path::parent`, of a path that ends in a name. -/
def above (p : Path) : Path := (p.reverse.dropWhile (· != '/')).tail.reverse

/-- The names of a path; empty ones and `.` stand for nothing. -/
def names (p : Path) : List Text :=
  (p.splitOn '/').filter fun name => !(name.isEmpty || name == ['.'])

theorem names_append_cons (p q : Path) : names (p ++ '/' :: q) = names p ++ names q := by
  rw [names, List.splitOn_append_cons_self, List.filter_append]
  rfl

theorem names_concat (p : Path) : names (p ++ ['/']) = names p := by
  rw [names_append_cons]
  exact List.append_nil _

theorem join_of_isAbsolute {base p : Path} (h : isAbsolute p = true) : join base p = p := by
  rw [join, if_pos h]

/-- A relative path is walked from where the base leads. -/
theorem names_join {base p : Path} (h : isAbsolute p = false) :
    names (join base p) = names base ++ names p := by
  rw [join, h, if_neg Bool.false_ne_true]
  split
  · next hend =>
      rw [Bool.or_eq_true, List.isEmpty_iff, beq_iff_eq] at hend
      rcases hend with rfl | hlast
      · rfl
      · obtain ⟨init, rfl⟩ : ∃ init, base = init ++ ['/'] := by
          obtain ⟨init, hinit⟩ := List.getLast?_eq_some_iff.mp hlast
          exact ⟨init, hinit⟩
        rw [List.append_assoc, List.singleton_append, names_append_cons, names_concat]
  · rw [names_append_cons]

theorem isAbsolute_join {base p : Path} (h : isAbsolute p = false) :
    isAbsolute (join base p) = isAbsolute base := by
  rw [join, h, if_neg Bool.false_ne_true]
  cases base with
  | nil => exact h
  | cons c base =>
      split
      · rfl
      · rfl

/-! ## Where a path leads -/

/-- `..` -/
def parent : Text := ['.', '.']

/-- One level up, where there is one, or one name down. -/
def walk (dir : List Text) (name : Text) : List Text :=
  if name = parent then dir.dropLast else dir ++ [name]

/-- Where a path leads, read in the directory `cwd`. -/
def resolve (cwd : List Text) (p : Path) : List Text :=
  (names p).foldl walk (if isAbsolute p then [] else cwd)

/-- The path leads to something below the directory. -/
def Inside (cwd : List Text) (dir p : Path) : Prop :=
  ∃ rest, rest ≠ [] ∧ resolve cwd p = resolve cwd dir ++ rest

theorem resolve_join (cwd : List Text) {base p : Path} (h : isAbsolute p = false) :
    resolve cwd (join base p) = (names p).foldl walk (resolve cwd base) := by
  rw [resolve, resolve, isAbsolute_join h, names_join h, List.foldl_append]

/-! ## Climbs -/

/-- The levels a walk has gone up from its start, and the names it came down by since. -/
def climbStep (c : Nat × List Text) (name : Text) : Nat × List Text :=
  if name = parent then
    if c.2.isEmpty then (c.1 + 1, []) else (c.1, c.2.dropLast)
  else (c.1, c.2 ++ [name])

def climb (p : Path) : Nat × List Text := (names p).foldl climbStep (0, [])

/-- Where a climb ends that starts in a directory. -/
def climbed (dir : List Text) (c : Nat × List Text) : List Text :=
  dir.take (dir.length - c.1) ++ c.2

theorem walk_climbed (dir : List Text) (c : Nat × List Text) (name : Text) :
    walk (climbed dir c) name = climbed dir (climbStep c name) := by
  rw [walk, climbStep]
  split
  · cases hdown : c.2 with
    | nil =>
        have hup : dir.length - (c.1 + 1) = dir.length - c.1 - 1 := by omega
        rw [climbed, climbed, hdown, List.append_nil, List.isEmpty_nil, if_pos rfl,
          List.append_nil, hup, List.dropLast_eq_take, List.take_take, List.length_take]
        congr 1
        omega
    | cons down downs =>
        have hne : c.2 ≠ [] := by
          rw [hdown]
          exact List.cons_ne_nil _ _
        rw [List.isEmpty_cons, if_neg Bool.false_ne_true, climbed, climbed, ← hdown,
          List.dropLast_append_of_ne_nil hne]
  · rw [climbed, climbed, List.append_assoc]

theorem foldl_walk (dir : List Text) (ns : List Text) (c : Nat × List Text) :
    ns.foldl walk (climbed dir c) = climbed dir (ns.foldl climbStep c) := by
  induction ns generalizing c with
  | nil => rfl
  | cons name ns ih => rw [List.foldl_cons, List.foldl_cons, walk_climbed, ih]

/-- A relative path leads where its climb ends. -/
theorem resolve_join_eq_climbed (cwd : List Text) {base p : Path} (h : isAbsolute p = false) :
    resolve cwd (join base p) = climbed (resolve cwd base) (climb p) := by
  have hstart : climbed (resolve cwd base) (0, []) = resolve cwd base := by
    rw [climbed, List.append_nil, Nat.sub_zero, List.take_length]
  rw [resolve_join cwd h, climb, ← foldl_walk, hstart]

/-- A climb that does not leave the directory, or comes back into it by the names of the
    levels it went up. -/
def Returns (dir : List Text) (c : Nat × List Text) : Prop :=
  ∃ rest, rest ≠ [] ∧ c.2 = dir.drop (dir.length - c.1) ++ rest

theorem climbed_eq_append_iff {dir : List Text} {c : Nat × List Text} {rest : List Text} :
    climbed dir c = dir ++ rest ↔ c.2 = dir.drop (dir.length - c.1) ++ rest := by
  have hsplit := List.take_append_drop (dir.length - c.1) dir
  rw [climbed]
  constructor
  · intro h
    have hsame : dir.take (dir.length - c.1) ++ c.2 =
        dir.take (dir.length - c.1) ++ (dir.drop (dir.length - c.1) ++ rest) := by
      rw [h, ← List.append_assoc, hsplit]
    exact List.append_cancel_left hsame
  · intro h
    rw [h, ← List.append_assoc, hsplit]

/-- What keeps a name inside the directory it is joined to: it is relative and its climb
    returns, or it is absolute and leads into the directory. -/
def Stays (cwd : List Text) (dir p : Path) : Prop :=
  if isAbsolute p then Inside cwd dir p else Returns (resolve cwd dir) (climb p)

/-- **Joined names.** -/
theorem inside_join_iff {cwd : List Text} {base p : Path} :
    Inside cwd base (join base p) ↔ Stays cwd base p := by
  rw [Stays]
  cases h : isAbsolute p with
  | true => rw [join_of_isAbsolute h, if_pos rfl]
  | false =>
      rw [if_neg Bool.false_ne_true, Inside, resolve_join_eq_climbed cwd h, Returns]
      constructor
      · rintro ⟨rest, hne, hrest⟩
        exact ⟨rest, hne, climbed_eq_append_iff.mp hrest⟩
      · rintro ⟨rest, hne, hrest⟩
        exact ⟨rest, hne, climbed_eq_append_iff.mpr hrest⟩

/-- A single name is a climb of its own. -/
theorem names_of_notMem {p : Path} (h : '/' ∉ p) (hne : p ≠ []) (hdot : p ≠ ['.']) :
    names p = [p] := by
  have hkeep : (!(p.isEmpty || p == ['.'])) = true := by
    rw [Bool.not_eq_true', Bool.or_eq_false_iff, List.isEmpty_eq_false_iff]
    exact ⟨hne, beq_false_of_ne hdot⟩
  rw [names, List.splitOn_eq_singleton h, List.filter_cons]
  exact if_pos hkeep

theorem isAbsolute_of_notMem {p : Path} (h : '/' ∉ p) : isAbsolute p = false := by
  cases p with
  | nil => rfl
  | cons c p =>
      have hc : c ≠ '/' := fun heq => h (heq ▸ List.mem_cons_self)
      exact beq_false_of_ne fun heq => hc (Option.some.inj heq)

/-- What every file name does: it stays where it is put. -/
theorem inside_join_of_notMem {cwd : List Text} {base p : Path} (h : '/' ∉ p) (hne : p ≠ [])
    (hdot : p ≠ ['.']) (hparent : p ≠ parent) : Inside cwd base (join base p) := by
  rw [inside_join_iff, Stays, isAbsolute_of_notMem h, if_neg Bool.false_ne_true]
  have hclimb : climb p = (0, [p]) := by
    rw [climb, names_of_notMem h hne hdot, List.foldl_cons, List.foldl_nil, climbStep,
      if_neg hparent]
    rfl
  refine ⟨[p], List.cons_ne_nil _ _, ?_⟩
  rw [hclimb, Nat.sub_zero, List.drop_length, List.nil_append]

/-- A file name, nothing else. -/
def IsFileName (p : Path) : Prop := '/' ∉ p ∧ p ≠ [] ∧ p ≠ ['.'] ∧ p ≠ parent

instance (p : Path) : Decidable (IsFileName p) := inferInstanceAs (Decidable (_ ∧ _))

theorem stays_of_isFileName {cwd : List Text} {dir p : Path} (h : IsFileName p) :
    Stays cwd dir p :=
  inside_join_iff.mp (inside_join_of_notMem h.1 h.2.1 h.2.2.1 h.2.2.2)

end Path

end Lib
