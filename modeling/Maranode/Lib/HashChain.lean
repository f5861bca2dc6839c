/-
  Maranode.Lib.HashChain

  Logs whose entries are numbered and carry the tag of their predecessor.

  `Linked n h es`: the entries of `es` are numbered from `n` on, the first one
  points back to `h`, every later one to the tag before it, and every entry
  passes its own check.  The facts below are about what such a log determines: a
  linked log made of entries of a linked log is a block of it
  (`Linked.infix_of_subset`), and a part of a linked log is linked exactly when
  it is a block (`Linked.of_infix`).
-/
import Mathlib.Data.List.Infix
import Mathlib.Data.List.Range
import Mathlib.Tactic.Common

namespace Lib.HashChain

variable {ε τ : Type} (seq : ε → Nat) (prev tag : ε → τ) (ok : ε → Prop)

def Linked : Nat → τ → List ε → Prop
  | _, _, [] => True
  | n, h, e :: es => seq e = n ∧ prev e = h ∧ ok e ∧ Linked (n + 1) (tag e) es

/-- The tag the next entry has to point back to. -/
def lastTag (h : τ) (es : List ε) : τ := (es.getLast?.map tag).getD h

@[simp] theorem lastTag_nil (h : τ) : lastTag tag h [] = h := rfl

@[simp] theorem lastTag_cons (h : τ) (e : ε) (es : List ε) :
    lastTag tag h (e :: es) = lastTag tag (tag e) es := by
  cases es with
  | nil => rfl
  | cons f fs => simp [lastTag, List.getLast?_cons]

theorem lastTag_concat (h : τ) (es : List ε) (e : ε) :
    lastTag tag h (es ++ [e]) = tag e := by
  simp [lastTag]

theorem lastTag_append (h : τ) (es fs : List ε) :
    lastTag tag h (es ++ fs) = lastTag tag (lastTag tag h es) fs := by
  induction es generalizing h with
  | nil => rfl
  | cons e es ih => rw [List.cons_append, lastTag_cons, ih, lastTag_cons]

variable {seq prev tag ok}

theorem linked_append {n : Nat} {h : τ} {es fs : List ε} :
    Linked seq prev tag ok n h (es ++ fs) ↔
      Linked seq prev tag ok n h es ∧
        Linked seq prev tag ok (n + es.length) (lastTag tag h es) fs := by
  induction es generalizing n h with
  | nil => simp [Linked]
  | cons e es ih =>
      have hn : n + 1 + es.length = n + (es.length + 1) := by omega
      simp only [List.cons_append, Linked, ih, lastTag_cons, List.length_cons, hn]
      tauto

/-- Appending the next entry. -/
theorem Linked.concat {n : Nat} {h : τ} {es : List ε} {e : ε}
    (hes : Linked seq prev tag ok n h es) (hseq : seq e = n + es.length)
    (hprev : prev e = lastTag tag h es) (hok : ok e) :
    Linked seq prev tag ok n h (es ++ [e]) :=
  linked_append.mpr ⟨hes, hseq, hprev, hok, trivial⟩

theorem Linked.map_seq {n : Nat} {h : τ} {es : List ε}
    (hes : Linked seq prev tag ok n h es) : es.map seq = List.range' n es.length := by
  induction es generalizing n h with
  | nil => rfl
  | cons e es ih =>
      obtain ⟨hseq, -, -, hrest⟩ := hes
      rw [List.map_cons, hseq, ih hrest, List.length_cons, List.range'_succ]

theorem Linked.ok_of_mem {n : Nat} {h : τ} {es : List ε}
    (hes : Linked seq prev tag ok n h es) : ∀ e ∈ es, ok e := by
  induction es generalizing n h with
  | nil => simp
  | cons e es ih =>
      obtain ⟨-, -, hok, hrest⟩ := hes
      simpa using ⟨hok, ih hrest⟩

/-- The number of an entry is its place. -/
theorem Linked.seq_getElem? {n : Nat} {h : τ} {es : List ε}
    (hes : Linked seq prev tag ok n h es) {i : Nat} {e : ε} (hi : es[i]? = some e) :
    seq e = n + i := by
  have hmap := hes.map_seq
  have hget := congrArg (·[i]?) hmap
  have hlt : i < es.length := by
    by_contra hge
    rw [List.getElem?_eq_none (by omega)] at hi
    cases hi
  simp only [List.getElem?_map, hi, Option.map_some, List.getElem?_range', hlt] at hget
  simpa using hget

theorem Linked.seq_bounds {n : Nat} {h : τ} {es : List ε}
    (hes : Linked seq prev tag ok n h es) {e : ε} (he : e ∈ es) :
    n ≤ seq e ∧ seq e < n + es.length := by
  obtain ⟨i, hi⟩ := List.mem_iff_getElem?.mp he
  have hlt : i < es.length := (List.getElem?_eq_some_iff.mp hi).1
  have := hes.seq_getElem? hi
  omega

/-- Numbers increase strictly. -/
theorem Linked.pairwise {n : Nat} {h : τ} {es : List ε}
    (hes : Linked seq prev tag ok n h es) : es.Pairwise (seq · < seq ·) := by
  induction es generalizing n h with
  | nil => exact List.Pairwise.nil
  | cons e es ih =>
      obtain ⟨hseq, -, -, hrest⟩ := hes
      refine List.Pairwise.cons ?_ (ih hrest)
      intro f hf
      have := (hrest.seq_bounds hf).1
      omega

/-- Every entry after the first points back to the one before it. -/
theorem Linked.isChain {n : Nat} {h : τ} {es : List ε}
    (hes : Linked seq prev tag ok n h es) : es.IsChain fun e f => prev f = tag e := by
  induction es generalizing n h with
  | nil => exact List.IsChain.nil
  | cons e es ih =>
      obtain ⟨-, -, -, hrest⟩ := hes
      cases es with
      | nil => exact List.IsChain.singleton e
      | cons f fs => exact List.IsChain.cons_cons hrest.2.1 (ih hrest)

/-- An entry points back to the tag before its place. -/
theorem Linked.prev_getElem? {n : Nat} {h : τ} {es : List ε}
    (hes : Linked seq prev tag ok n h es) {i : Nat} {e : ε} (hi : es[i]? = some e) :
    prev e = lastTag tag h (es.take i) := by
  obtain ⟨hlt, hget⟩ := List.getElem?_eq_some_iff.mp hi
  have hsplit : es = es.take i ++ e :: es.drop (i + 1) := by
    rw [← hget, ← List.drop_eq_getElem_cons hlt, List.take_append_drop]
  rw [hsplit, linked_append] at hes
  exact hes.2.2.1

/-- Two entries of one linked log with one number are the same entry. -/
theorem Linked.eq_of_seq_eq {n : Nat} {h : τ} {es : List ε}
    (hes : Linked seq prev tag ok n h es) {e f : ε} (he : e ∈ es) (hf : f ∈ es)
    (hseq : seq e = seq f) : e = f := by
  obtain ⟨i, hi⟩ := List.mem_iff_getElem?.mp he
  obtain ⟨j, hj⟩ := List.mem_iff_getElem?.mp hf
  have h1 := hes.seq_getElem? hi
  have h2 := hes.seq_getElem? hj
  obtain rfl : i = j := by omega
  exact Option.some.inj (hi.symm.trans hj)

/-- A block of a linked log is linked from its own first entry. -/
theorem Linked.of_infix {n : Nat} {h : τ} {es fs : List ε}
    (hes : Linked seq prev tag ok n h es) (hfs : fs <:+: es) :
    ∃ m g, Linked seq prev tag ok m g fs ∧ ∀ e, fs.head? = some e →
      m = seq e ∧ g = prev e ∧ (m = n → g = h) := by
  obtain ⟨a, b, rfl⟩ := hfs
  rw [List.append_assoc, linked_append] at hes
  obtain ⟨-, hmid⟩ := hes
  rw [linked_append] at hmid
  refine ⟨n + a.length, lastTag tag h a, hmid.1, ?_⟩
  intro e he
  cases fs with
  | nil => simp at he
  | cons f fs =>
      simp only [List.head?_cons, Option.some.injEq] at he
      subst he
      obtain ⟨⟨hseq, hprev, -, -⟩, -⟩ := hmid
      refine ⟨hseq.symm, hprev.symm, fun hn => ?_⟩
      obtain rfl : a = [] := List.eq_nil_of_length_eq_zero (by omega)
      rfl

/-- **Blocks.**  A linked log whose entries all belong to a linked log is a block of
    it: numbers give places, so consecutive numbers are consecutive places. -/
theorem Linked.infix_of_subset {ok' : ε → Prop} {n m : Nat} {h g : τ} {es fs : List ε}
    (hes : Linked seq prev tag ok n h es) (hfs : Linked seq prev tag ok' m g fs)
    (hsub : ∀ e ∈ fs, e ∈ es) : fs <:+: es := by
  cases fs with
  | nil => exact List.nil_infix
  | cons f fs =>
      have hm : n ≤ m := by
        have := (hes.seq_bounds (hsub f (List.mem_cons_self ..))).1
        obtain ⟨hseq, -⟩ := hfs
        omega
      have hdrop : (f :: fs) <+: es.drop (m - n) := by
        rw [List.prefix_iff_getElem?]
        intro i hi
        have hget : (f :: fs)[i]? = some (f :: fs)[i] := List.getElem?_eq_getElem hi
        have hseq := hfs.seq_getElem? hget
        obtain ⟨j, hj⟩ := List.mem_iff_getElem?.mp (hsub _ (List.mem_of_getElem? hget))
        have hseq' := hes.seq_getElem? hj
        rw [List.getElem?_drop]
        obtain rfl : j = m - n + i := by omega
        exact hj
      exact hdrop.isInfix.trans (List.drop_suffix _ _).isInfix

end Lib.HashChain
