/-
  Maranode.Lib.FileCalls

  Programs that call the file system, and the files they touch.

  A file is touched when a call reads, writes or deletes it; a call that fails to touches
  nothing.  Every touched file comes with the directories it is meant to be in, and a
  program keeps to them when each is inside the one before (`Keeps`).
-/
import Maranode.Lib.Path
import Mathlib.Data.List.Chain

namespace Lib

/-- What the calls of a program meet. -/
structure FileSystem where
  present : Path → Bool
  content : Path → Except String Bytes
  mkdir : Path → Except String Unit
  opens : Path → Except String Unit
  writes : Path → Except String Unit
  removes : Path → Except String Unit

namespace FileSystem

variable (fs : FileSystem) (made path : Path)

def written : Except String Unit := (fs.opens path).bind fun _ => fs.writes path

/-- How a save ends that makes the directories first. -/
def saved : Except String Unit := (fs.mkdir made).bind fun _ => fs.written path

/-- Such a save opens the file. -/
def Touches : Prop := (fs.mkdir made).isOk = true ∧ (fs.opens path).isOk = true

end FileSystem

/-- Why a program panics: a text is cut inside a character, or something overflows. -/
inductive Halt where
  | slice
  | overflow
  deriving DecidableEq

/-- The files that were touched, each after the directories it is meant to be in, and how
    the program ended. -/
structure Ran (α : Type) where
  touched : List (List Path)
  ended : Except Halt α

section Ran

variable {α β : Type}

/-- What runs next runs on the value, unless there was a panic. -/
def Ran.next (r : Ran α) (f : α → Ran β) : Ran β :=
  match r.ended with
  | .error h => ⟨r.touched, .error h⟩
  | .ok a => ⟨r.touched ++ (f a).touched, (f a).ended⟩

theorem Ran.next_of_ok {r : Ran α} {a : α} (h : r.ended = .ok a) (f : α → Ran β) :
    r.next f = ⟨r.touched ++ (f a).touched, (f a).ended⟩ := by
  rw [next, h]

theorem Ran.next_of_halts {r : Ran α} {h : Halt} (hend : r.ended = .error h) (f : α → Ran β) :
    r.next f = ⟨r.touched, .error h⟩ := by
  rw [next, hend]

end Ran

def FileM (α : Type) := FileSystem → Ran α

namespace FileM

variable {α β : Type}

instance : Monad FileM where
  pure a _ := ⟨[], .ok a⟩
  bind p f fs := (p fs).next fun a => f a fs

/-! ## Calls -/

def halt (h : Halt) : FileM α := fun _ => ⟨[], .error h⟩

/-- `Path::exists`. -/
def present (path : Path) : FileM Bool := fun fs => ⟨[], .ok (fs.present path)⟩

/-- `fs::create_dir_all`. -/
def createDirAll (path : Path) : FileM (Except String Unit) := fun fs => ⟨[], .ok (fs.mkdir path)⟩

/-- `fs::read`. -/
def read (within : List Path) (path : Path) : FileM (Except String Bytes) := fun fs =>
  ⟨if (fs.content path).isOk then [within ++ [path]] else [], .ok (fs.content path)⟩

/-- `fs::write`: the file is touched when it is opened. -/
def write (within : List Path) (path : Path) : FileM (Except String Unit) := fun fs =>
  ⟨if (fs.opens path).isOk then [within ++ [path]] else [],
    .ok (fs.written path)⟩

/-- `fs::remove_file`. -/
def remove (within : List Path) (path : Path) : FileM (Except String Unit) := fun fs =>
  ⟨if (fs.removes path).isOk then [within ++ [path]] else [], .ok (fs.removes path)⟩

/-- `create_dir_all`, and then a file in `dir`. -/
def save (made dir : Path) (name : Text) : FileM (Except String Unit) := do
  match ← createDirAll made with
  | .error e => pure (.error e)
  | .ok _ => write [dir] (Path.join dir name)

/-! ## Keeping to the directories -/

/-- Every file that is touched is where it is meant to be, and no text is cut inside a
    character. -/
def Keeps (cwd : List Text) (p : FileM α) (fs : FileSystem) : Prop :=
  (∀ file ∈ (p fs).touched, file.IsChain (Path.Inside cwd)) ∧ (p fs).ended ≠ .error .slice

variable {cwd : List Text} {fs : FileSystem} {p : FileM α} {f : α → FileM β} {within : List Path}
  {path : Path}

theorem keeps_pure (a : α) : Keeps cwd (pure a : FileM α) fs :=
  ⟨fun _ h => absurd h List.not_mem_nil, nofun⟩

theorem keeps_halt {h : Halt} : Keeps cwd (halt h : FileM α) fs ↔ h ≠ .slice := by
  constructor
  · rintro ⟨-, hend⟩ rfl
    exact hend rfl
  · exact fun hne => ⟨fun _ h => absurd h List.not_mem_nil, fun hend => hne (Except.error.inj hend)⟩

theorem bind_apply (p : FileM α) (f : α → FileM β) (fs : FileSystem) :
    (p >>= f) fs = (p fs).next fun a => f a fs := rfl

theorem ended_bind {a : α} (h : (p fs).ended = .ok a) :
    ((p >>= f) fs).ended = (f a fs).ended := by
  rw [bind_apply, Ran.next_of_ok h]

/-- A program goes on with its value. -/
theorem keeps_bind {a : α} (h : (p fs).ended = .ok a) :
    Keeps cwd (p >>= f) fs ↔ Keeps cwd p fs ∧ Keeps cwd (f a) fs := by
  rw [Keeps, Keeps, Keeps, bind_apply, Ran.next_of_ok h]
  simp only [List.forall_mem_append, h]
  constructor
  · rintro ⟨⟨hp, hf⟩, hend⟩
    exact ⟨⟨hp, nofun⟩, hf, hend⟩
  · rintro ⟨⟨hp, -⟩, hf, hend⟩
    exact ⟨⟨hp, hf⟩, hend⟩

/-- A panic ends the program. -/
theorem keeps_bind_of_halts {h : Halt} (hend : (p fs).ended = .error h) :
    Keeps cwd (p >>= f) fs ↔ Keeps cwd p fs := by
  rw [Keeps, Keeps, bind_apply, Ran.next_of_halts hend, hend]
  refine and_congr_right fun _ => not_congr ⟨fun h' => ?_, fun h' => ?_⟩
  · rw [Except.error.inj h']
  · rw [Except.error.inj h']

theorem Keeps.of_bind (h : Keeps cwd (p >>= f) fs) : Keeps cwd p fs := by
  cases hend : (p fs).ended with
  | error e => exact (keeps_bind_of_halts hend).mp h
  | ok a => exact ((keeps_bind hend).mp h).1

/-- What comes last touches nothing, whatever the value. -/
theorem keeps_bind_of_forall (h : ∀ a, Keeps cwd (f a) fs) :
    Keeps cwd (p >>= f) fs ↔ Keeps cwd p fs := by
  cases hend : (p fs).ended with
  | error h => exact keeps_bind_of_halts hend
  | ok a =>
      rw [keeps_bind hend]
      exact and_iff_left (h a)

theorem forall_mem_touched {touches : Bool} {file : List Path} {P : List Path → Prop} :
    (∀ file' ∈ (if touches then [file] else []), P file') ↔ (touches = true → P file) := by
  cases touches with
  | false => exact ⟨fun _ h => absurd h Bool.false_ne_true, fun _ _ h => absurd h List.not_mem_nil⟩
  | true =>
      rw [if_pos rfl, List.forall_mem_singleton]
      exact ⟨fun h _ => h, fun h => h rfl⟩

theorem keeps_present : Keeps cwd (present path) fs :=
  ⟨fun _ h => absurd h List.not_mem_nil, nofun⟩

theorem keeps_createDirAll : Keeps cwd (createDirAll path) fs :=
  ⟨fun _ h => absurd h List.not_mem_nil, nofun⟩

theorem keeps_read :
    Keeps cwd (read within path) fs ↔
      ((fs.content path).isOk = true → (within ++ [path]).IsChain (Path.Inside cwd)) := by
  rw [Keeps, read, forall_mem_touched]
  exact and_iff_left nofun

theorem keeps_write :
    Keeps cwd (write within path) fs ↔
      ((fs.opens path).isOk = true → (within ++ [path]).IsChain (Path.Inside cwd)) := by
  rw [Keeps, write, forall_mem_touched]
  exact and_iff_left nofun

theorem keeps_remove :
    Keeps cwd (remove within path) fs ↔
      ((fs.removes path).isOk = true → (within ++ [path]).IsChain (Path.Inside cwd)) := by
  rw [Keeps, remove, forall_mem_touched]
  exact and_iff_left nofun

/-- A file that was looked for in a directory by name. -/
theorem isChain_join {dir : Path} {name : Text} :
    [dir, Path.join dir name].IsChain (Path.Inside cwd) ↔ Path.Stays cwd dir name := by
  rw [List.isChain_pair, Path.inside_join_iff]

theorem keeps_readIn {dir : Path} {name : Text} :
    Keeps cwd (read [dir] (Path.join dir name)) fs ↔
      ((fs.content (Path.join dir name)).isOk = true → Path.Stays cwd dir name) := by
  rw [keeps_read]
  exact imp_congr_right fun _ => isChain_join

theorem keeps_writeIn {dir : Path} {name : Text} :
    Keeps cwd (write [dir] (Path.join dir name)) fs ↔
      ((fs.opens (Path.join dir name)).isOk = true → Path.Stays cwd dir name) := by
  rw [keeps_write]
  exact imp_congr_right fun _ => isChain_join

theorem keeps_removeIn {dir : Path} {name : Text} :
    Keeps cwd (remove [dir] (Path.join dir name)) fs ↔
      ((fs.removes (Path.join dir name)).isOk = true → Path.Stays cwd dir name) := by
  rw [keeps_remove]
  exact imp_congr_right fun _ => isChain_join

theorem ended_save {made dir : Path} {name : Text} :
    (save made dir name fs).ended = .ok (fs.saved made (Path.join dir name)) := by
  rw [save, ended_bind rfl, FileSystem.saved]
  cases fs.mkdir made with
  | error e => rfl
  | ok _ => rfl

theorem keeps_save {made dir : Path} {name : Text} :
    Keeps cwd (save made dir name) fs ↔
      (fs.Touches made (Path.join dir name) → Path.Stays cwd dir name) := by
  rw [save, keeps_bind rfl, FileSystem.Touches]
  cases fs.mkdir made with
  | error e => exact iff_of_true ⟨keeps_createDirAll, keeps_pure _⟩ fun h => absurd h.1 nofun
  | ok _ =>
      rw [and_iff_right keeps_createDirAll]
      dsimp only
      rw [keeps_writeIn]
      exact ⟨fun h ht => h ht.2, fun h ht => h ⟨rfl, ht⟩⟩

end FileM

end Lib
