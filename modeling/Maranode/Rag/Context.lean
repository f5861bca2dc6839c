/-
  Maranode.Rag.Context

  `build_context_prompt` of `engine.rs`: the blocks of the retrieved chunks, numbered from 1,
  as long as they fit; the first one is there in any case.

  White space at the end of the last block is not.  What the prompt of more chunks has
  beyond that of fewer ones starts with the number of the next (`contextPrompt_append`), so
  the prompt says how many chunks it has.
-/
import Maranode.Lib.Path
import Maranode.Lib.Trim

namespace Lib

namespace Path

/-- `Path::file_name`: the last name, unless it goes up. -/
def fileName (p : Path) : Option Text := (names p).getLast?.filter (· != parent)

/-- What comes before the last dot of a name. -/
def beforeDot (name : Text) : Text := (name.reverse.dropWhile (· != '.')).tail.reverse

/-- `Path::file_stem`, of a name: it is the name when there is no dot, or only in front. -/
def fileStem (name : Text) : Text :=
  if '.' ∈ name ∧ beforeDot name ≠ [] then beforeDot name else name

end Path

end Lib

namespace Maranode.Rag

open Lib

/-! ## Blocks -/

/-- What the context prompt reads of a chunk. -/
structure CitedChunk where
  source : String
  title : Option String
  section_ : Option String
  pageNumber : Nat
  text : String

def sourceDisplayName (source : String) : Option String :=
  (Path.fileName source.toList).bind fun name =>
    let stem := Path.fileStem name
    if stem ≠ [] ∧ stem ≠ source.toList then some (String.ofList stem) else none

namespace CitedChunk

variable (c : CitedChunk)

def loc : String :=
  match c.section_, c.pageNumber with
  | some sec, 0 => sec
  | none, 0 => ""
  | some sec, p => s!"{sec}, p.{p}"
  | none, p => s!"p.{p}"

def displayName : String := (c.title.or (sourceDisplayName c.source)).getD c.source

def cite (i : Nat) : String :=
  if c.loc = "" then s!"[{i + 1}] \"{c.displayName}\""
  else s!"[{i + 1}] \"{c.displayName}\", {c.loc}"

/-- The block of the chunk at an index. -/
def block (i : Nat) : String := c.cite i ++ "\n" ++ c.text ++ "\n\n"

end CitedChunk

/-- The blocks of all chunks. -/
def blocksFrom (i : Nat) : List CitedChunk → List String
  | [] => []
  | c :: cs => c.block i :: blocksFrom (i + 1) cs

def totalLength (blocks : List String) : Nat := (blocks.map String.utf8ByteSize).sum

/-! ## The prompt -/

def contextHeader : String :=
  "The following CONTEXT comes from the user's documents. " ++
  "Prefer information from the CONTEXT when it is relevant to the question. " ++
  "When you use information from the CONTEXT, cite the source number, e.g. [1] or [1, p.5]. " ++
  "You may also draw on your general knowledge to give a complete and helpful answer — " ++
  "just make clear which parts come from the documents and which from general knowledge. " ++
  "If the CONTEXT contains nothing relevant to the question, answer normally without citing.\n\n" ++
  "CONTEXT:\n"

/-- The loop over the chunks, from an index on. -/
def contextLoop (maxContextChars i : Nat) (context : String) (used : Nat) :
    List CitedChunk → String
  | [] => context
  | c :: cs =>
      let block := c.block i
      if used + block.utf8ByteSize > maxContextChars ∧ context ≠ "" then context
      else contextLoop maxContextChars (i + 1) (context ++ block) (used + block.utf8ByteSize) cs

def buildContextPrompt (maxContextChars : Nat) (chunks : List CitedChunk) : Option String :=
  if chunks.isEmpty then none
  else
    some (contextHeader ++ String.ofList
      (Text.trimEnd (contextLoop maxContextChars 0 "" 0 chunks).toList))

/-- The prompt with the first `m` chunks. -/
def contextPrompt (chunks : List CitedChunk) (m : Nat) : String :=
  contextHeader ++ String.ofList (Text.trimEnd (String.join ((blocksFrom 0 chunks).take m)).toList)

/-! ## What fits -/

/-- How many blocks fit behind those that use up some of the room. -/
def fitting (maxContextChars used : Nat) : List String → Nat
  | [] => 0
  | b :: bs =>
      if used + b.utf8ByteSize > maxContextChars then 0
      else fitting maxContextChars (used + b.utf8ByteSize) bs + 1

theorem totalLength_cons (b : String) (bs : List String) :
    totalLength (b :: bs) = b.utf8ByteSize + totalLength bs := by
  rw [totalLength, List.map_cons, List.sum_cons]
  rfl

theorem fitting_le_length (maxContextChars used : Nat) (bs : List String) :
    fitting maxContextChars used bs ≤ bs.length := by
  induction bs generalizing used with
  | nil => exact Nat.le_refl 0
  | cons b bs ih =>
      rw [fitting, List.length_cons]
      split
      · exact Nat.zero_le _
      · exact Nat.succ_le_succ (ih _)

/-- What was taken fits. -/
theorem used_add_fitting_le {maxContextChars used : Nat} (bs : List String)
    (h : used ≤ maxContextChars) :
    used + totalLength (bs.take (fitting maxContextChars used bs)) ≤ maxContextChars := by
  induction bs generalizing used with
  | nil => exact h
  | cons b bs ih =>
      rw [fitting]
      split
      · exact h
      · next hfits =>
          rw [List.take_succ_cons, totalLength_cons, ← Nat.add_assoc]
          exact ih (Nat.le_of_not_gt hfits)

/-- One block more does not, nor do several. -/
theorem lt_of_fitting_lt {maxContextChars used k : Nat} (bs : List String)
    (h : fitting maxContextChars used bs < k) (hk : k ≤ bs.length) :
    maxContextChars < used + totalLength (bs.take k) := by
  induction bs generalizing used k with
  | nil => exact absurd (Nat.lt_of_lt_of_le h hk) (Nat.not_lt_zero _)
  | cons b bs ih =>
      obtain ⟨j, rfl⟩ := Nat.exists_eq_add_one.mpr (Nat.zero_lt_of_lt h)
      rw [List.take_succ_cons, totalLength_cons, ← Nat.add_assoc]
      rw [fitting] at h
      split at h
      · next hover => omega
      · exact ih (Nat.lt_of_succ_lt_succ h) (Nat.le_of_succ_le_succ hk)

/-- Behind some text, the loop adds the blocks that fit. -/
theorem contextLoop_of_ne {context : String} (h : context ≠ "") (maxContextChars i used : Nat)
    (cs : List CitedChunk) :
    contextLoop maxContextChars i context used cs
      = context ++ String.join
          ((blocksFrom i cs).take (fitting maxContextChars used (blocksFrom i cs))) := by
  induction cs generalizing i context used with
  | nil => exact (String.append_empty).symm
  | cons c cs ih =>
      rw [contextLoop, blocksFrom, fitting]
      by_cases hover : used + (c.block i).utf8ByteSize > maxContextChars
      · rw [if_pos ⟨hover, h⟩, if_pos hover]
        exact (String.append_empty).symm
      · have hne : context ++ c.block i ≠ "" := by
          intro hempty
          rw [← String.toList_inj, String.toList_append] at hempty
          exact h (String.toList_inj.mp (List.append_eq_nil_iff.mp hempty).1)
        rw [if_neg fun hboth => hover hboth.1, if_neg hover, ih hne, List.take_succ_cons,
          String.join_cons, String.append_assoc]

/-- How many chunks are in the prompt. -/
def promptCount (maxContextChars : Nat) (chunks : List CitedChunk) : Nat :=
  match blocksFrom 0 chunks with
  | [] => 0
  | b :: bs => fitting maxContextChars b.utf8ByteSize bs + 1

theorem block_ne_empty (c : CitedChunk) (i : Nat) : c.block i ≠ "" := by
  intro h
  have hlist := congrArg String.toList h
  rw [CitedChunk.block, String.toList_append] at hlist
  exact absurd (List.append_eq_nil_iff.mp hlist).2 (by decide)

theorem length_blocksFrom (i : Nat) (cs : List CitedChunk) :
    (blocksFrom i cs).length = cs.length := by
  induction cs generalizing i with
  | nil => rfl
  | cons c cs ih => rw [blocksFrom, List.length_cons, ih, List.length_cons]

theorem buildContextPrompt_eq {chunks : List CitedChunk} (h : chunks ≠ [])
    (maxContextChars : Nat) :
    buildContextPrompt maxContextChars chunks
      = some (contextPrompt chunks (promptCount maxContextChars chunks)) := by
  cases chunks with
  | nil => exact absurd rfl h
  | cons c cs =>
      have hsome : (c :: cs).isEmpty ≠ true := Bool.false_ne_true
      rw [buildContextPrompt, if_neg hsome, contextLoop]
      have hfirst : ¬ (0 + (c.block 0).utf8ByteSize > maxContextChars ∧ ("" : String) ≠ "") :=
        fun hboth => hboth.2 rfl
      rw [if_neg hfirst, String.empty_append, contextLoop_of_ne (block_ne_empty c 0),
        contextPrompt, promptCount, blocksFrom, Nat.zero_add]
      dsimp only
      rw [List.take_succ_cons, String.join_cons]

/-- The first chunk is in the prompt, and as many as fit. -/
theorem promptCount_spec {chunks : List CitedChunk} (h : chunks ≠ []) (maxContextChars : Nat) :
    0 < promptCount maxContextChars chunks ∧
      promptCount maxContextChars chunks ≤ chunks.length ∧
      (totalLength ((blocksFrom 0 chunks).take (promptCount maxContextChars chunks))
          ≤ maxContextChars ∨ promptCount maxContextChars chunks = 1) ∧
      ∀ k, promptCount maxContextChars chunks < k → k ≤ chunks.length →
        maxContextChars < totalLength ((blocksFrom 0 chunks).take k) := by
  cases chunks with
  | nil => exact absurd rfl h
  | cons c cs =>
      rw [← length_blocksFrom 0 (c :: cs), promptCount, blocksFrom]
      dsimp only
      have hle := fitting_le_length maxContextChars (c.block 0).utf8ByteSize (blocksFrom 1 cs)
      refine ⟨Nat.succ_pos _, Nat.succ_le_succ hle, ?_, fun k hk hlen => ?_⟩
      · by_cases hfirst : (c.block 0).utf8ByteSize ≤ maxContextChars
        · left
          rw [List.take_succ_cons, totalLength_cons]
          exact used_add_fitting_le _ hfirst
        · right
          cases hrest : blocksFrom 1 cs with
          | nil => rfl
          | cons b bs =>
              rw [fitting, if_pos (by omega)]
      · obtain ⟨j, rfl⟩ := Nat.exists_eq_add_one.mpr (Nat.zero_lt_of_lt hk)
        rw [List.take_succ_cons, totalLength_cons]
        exact lt_of_fitting_lt _ (Nat.lt_of_succ_lt_succ hk) (Nat.le_of_succ_le_succ hlen)

/-! ## Prompts of more and of fewer chunks -/

/-- A block starts with its number in brackets. -/
theorem toList_block (c : CitedChunk) (i : Nat) :
    ∃ d rest, (c.block i).toList = '[' :: d :: rest ∧ d.isDigit = true := by
  have hcite : ∃ rest, (c.cite i).toList = '[' :: (Nat.toDigits 10 (i + 1) ++ rest) := by
    have hnumber : (toString (i + 1)).toList = Nat.toDigits 10 (i + 1) := Nat.toList_repr
    rw [CitedChunk.cite]
    split <;>
    · simp only [String.toList_append, List.append_assoc, hnumber]
      exact ⟨_, rfl⟩
  obtain ⟨rest, hrest⟩ := hcite
  cases hdigits : Nat.toDigits 10 (i + 1) with
  | nil => exact absurd hdigits Nat.toDigits_ne_nil
  | cons d ds =>
      have hd : d.isDigit = true :=
        Nat.isDigit_of_mem_toDigits (b := 10) (n := i + 1) (by decide) (by decide)
          (hdigits ▸ List.mem_cons_self)
      refine ⟨d, ds ++ rest ++ "\n".toList ++ c.text.toList ++ "\n\n".toList, ?_, hd⟩
      rw [CitedChunk.block, String.toList_append, String.toList_append, String.toList_append, hrest,
        hdigits]
      rfl

theorem getElem?_blocksFrom (i m : Nat) (cs : List CitedChunk) :
    (blocksFrom i cs)[m]? = (cs[m]?).map fun c => c.block (i + m) := by
  induction cs generalizing i m with
  | nil => rfl
  | cons c cs ih =>
      cases m with
      | zero => rfl
      | succ m =>
          rw [blocksFrom, List.getElem?_cons_succ, ih, List.getElem?_cons_succ,
            Nat.add_right_comm i 1 m]
          rfl

theorem join_take_add (blocks : List String) (m k : Nat) :
    String.join (blocks.take (m + k))
      = String.join (blocks.take m) ++ String.join ((blocks.drop m).take k) := by
  rw [List.take_add, String.join_append]

theorem isWhite_of_isDigit {d : Char} (h : d.isDigit = true) : Text.isWhite d = false := by
  have hrange : 48 ≤ d.toNat ∧ d.toNat ≤ 57 := by
    rw [Char.isDigit, Bool.and_eq_true, decide_eq_true_iff, decide_eq_true_iff] at h
    exact h
  rw [Text.isWhite]
  simp only [Bool.or_eq_false_iff, decide_eq_false_iff_not, beq_eq_false_iff_ne]
  omega

/-- Beyond the prompt of fewer chunks there is white space, and then the next number. -/
theorem contextPrompt_append {chunks : List CitedChunk} {m n : Nat} (hm : m < n)
    (hn : n ≤ chunks.length) :
    ∃ white d rest, (contextPrompt chunks n).toList
        = (contextPrompt chunks m).toList ++ (white ++ '[' :: d :: rest) ∧
      (∀ c ∈ white, Text.isWhite c = true) ∧ d.isDigit = true := by
  obtain ⟨k, rfl⟩ := Nat.exists_eq_add_of_lt hm
  obtain ⟨white, hwhite, hall⟩ :=
    Text.trimEnd_append_white (String.join ((blocksFrom 0 chunks).take m)).toList
  obtain ⟨d, rest, hblock, hd⟩ := toList_block (chunks.get ⟨m, by omega⟩) m
  have hnext : ((blocksFrom 0 chunks).drop m).take (k + 1)
      = (chunks.get ⟨m, by omega⟩).block m :: ((blocksFrom 0 chunks).drop (m + 1)).take k := by
    have hget : (blocksFrom 0 chunks)[m]? = some ((chunks.get ⟨m, by omega⟩).block m) := by
      rw [getElem?_blocksFrom, Nat.zero_add, List.getElem?_eq_getElem (by omega)]
      rfl
    rw [List.drop_eq_getElem?_toList_append, hget]
    rfl
  refine ⟨white, d, Text.trimEnd (rest ++
    (String.join (((blocksFrom 0 chunks).drop (m + 1)).take k)).toList), ?_, hall, hd⟩
  have hbracket : Text.isWhite '[' = false := by decide
  rw [contextPrompt, contextPrompt, Nat.add_assoc, join_take_add, hnext, String.join_cons]
  simp only [String.toList_append, String.toList_ofList, hblock, List.cons_append]
  rw [Text.trimEnd_append_cons hbracket]
  have hdigit := Text.trimEnd_append_cons (isWhite_of_isDigit hd) []
    (rest ++ (String.join (((blocksFrom 0 chunks).drop (m + 1)).take k)).toList)
  rw [List.nil_append, List.nil_append] at hdigit
  rw [hdigit, List.append_assoc, ← List.append_assoc (Text.trimEnd _), hwhite]

/-- The prompt of fewer chunks does not start with that of more. -/
theorem not_prefix_contextPrompt {chunks : List CitedChunk} {m n : Nat} (hm : m < n)
    (hn : n ≤ chunks.length) :
    ¬ (contextPrompt chunks n).toList <+: (contextPrompt chunks m).toList := by
  obtain ⟨white, d, rest, happend, -⟩ := contextPrompt_append hm hn
  intro hpre
  have hlen := hpre.length_le
  rw [happend, List.length_append, List.length_append, List.length_cons] at hlen
  omega

end Maranode.Rag
