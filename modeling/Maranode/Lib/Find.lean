/-
  Maranode.Lib.Find

  The first occurrence of a list in another, as `str::find` and a search over windows of
  bytes return it.

  What is searched for often starts with a mark that does not come again in it (the `<` of
  a tag).  Appending a text that starts with the mark then changes no search, unless what is
  searched for is in that text (`find_append_of_mark`).
-/
import Mathlib.Data.List.Infix

namespace Lib

variable {α : Type} [DecidableEq α]

/-- The position of the first occurrence. -/
def find (needle : List α) : List α → Option Nat
  | [] => if needle = [] then some 0 else none
  | a :: hay => if needle <+: a :: hay then some 0 else (find needle hay).map (· + 1)

/-- `str::contains`. -/
def contains (hay needle : List α) : Bool := (find needle hay).isSome

variable {needle hay suf : List α}

theorem find_eq_some_zero (h : needle <+: hay) : find needle hay = some 0 := by
  cases hay with
  | nil => rw [find, if_pos (List.prefix_nil.mp h)]
  | cons a hay => rw [find, if_pos h]

theorem find_cons_of_ne {a : α} (h : ¬ needle <+: a :: hay) :
    find needle (a :: hay) = (find needle hay).map (· + 1) := by
  rw [find, if_neg h]

/-- Nothing is found exactly where there is nothing. -/
theorem find_eq_none_iff : find needle hay = none ↔ ¬ needle <:+: hay := by
  induction hay with
  | nil =>
      rw [find, List.infix_nil]
      split
      · next h => exact iff_of_false (fun hnone => nomatch hnone) (not_not.mpr h)
      · next h => exact iff_of_true rfl h
  | cons a hay ih =>
      rw [List.infix_cons_iff, not_or]
      by_cases hpre : needle <+: a :: hay
      · rw [find_eq_some_zero hpre]
        exact iff_of_false (fun hnone => nomatch hnone) fun h => h.1 hpre
      · rw [find_cons_of_ne hpre, Option.map_eq_none_iff, ih]
        exact ⟨fun h => ⟨hpre, h⟩, And.right⟩

theorem find_drop_eq_none (h : find needle hay = none) (k : Nat) :
    find needle (hay.drop k) = none := by
  rw [find_eq_none_iff] at h ⊢
  exact fun hin => h (hin.trans (List.drop_suffix k hay).isInfix)

/-- What is found is in the list. -/
theorem prefix_drop_of_find {i : Nat} (h : find needle hay = some i) :
    needle <+: hay.drop i ∧ i ≤ hay.length := by
  induction hay generalizing i with
  | nil =>
      rw [find] at h
      split at h
      · next hnil =>
          obtain rfl := Option.some.inj h
          exact ⟨hnil ▸ List.prefix_rfl, Nat.le_refl 0⟩
      · cases h
  | cons a hay ih =>
      by_cases hpre : needle <+: a :: hay
      · rw [find_eq_some_zero hpre] at h
        obtain rfl := Option.some.inj h
        exact ⟨hpre, Nat.zero_le _⟩
      · rw [find_cons_of_ne hpre] at h
        obtain ⟨j, hj, rfl⟩ := Option.map_eq_some_iff.mp h
        obtain ⟨hdrop, hle⟩ := ih hj
        refine ⟨hdrop, ?_⟩
        rw [List.length_cons]
        omega

/-- The first occurrence stays the first one. -/
theorem find_append_of_some {i : Nat} (h : find needle hay = some i) (suf : List α) :
    find needle (hay ++ suf) = some i := by
  induction hay generalizing i with
  | nil =>
      rw [find] at h
      split at h
      · next hnil =>
          rw [← h]
          exact find_eq_some_zero (hnil ▸ List.nil_prefix)
      · cases h
  | cons a hay ih =>
      rw [List.cons_append]
      by_cases hpre : needle <+: a :: hay
      · rw [find_eq_some_zero hpre] at h
        rw [← h]
        exact find_eq_some_zero (hpre.trans (List.prefix_append (a :: hay) suf))
      -- No occurrence at this place, so the one found is further on.
      · rw [find_cons_of_ne hpre] at h
        obtain ⟨j, hj, rfl⟩ := Option.map_eq_some_iff.mp h
        by_cases hlonger : needle <+: a :: (hay ++ suf)
        · -- an occurrence across the end would be one before it
          have hlen : (a :: hay).length < needle.length := by
            by_contra hle
            exact hpre (List.prefix_of_prefix_length_le hlonger
              (List.prefix_append (a :: hay) suf) (Nat.le_of_not_lt hle))
          obtain ⟨hdrop, hj'⟩ := prefix_drop_of_find hj
          have hle := hdrop.length_le
          rw [List.length_drop] at hle
          rw [List.length_cons] at hlen
          omega
        · rw [find_cons_of_ne hlonger, ih hj]
          rfl

/-- There is no occurrence before the first one. -/
theorem le_of_find {i j : Nat} (h : find needle hay = some i) (hj : needle <+: hay.drop j)
    (hlen : j ≤ hay.length) : i ≤ j := by
  induction hay generalizing i j with
  | nil =>
      rw [List.length_nil] at hlen
      have hle := (prefix_drop_of_find h).2
      rw [List.length_nil] at hle
      omega
  | cons a hay ih =>
      by_cases hpre : needle <+: a :: hay
      · rw [find_eq_some_zero hpre] at h
        rw [← Option.some.inj h]
        exact Nat.zero_le j
      · rw [find_cons_of_ne hpre] at h
        obtain ⟨i, hi, rfl⟩ := Option.map_eq_some_iff.mp h
        cases j with
        | zero => exact absurd hj hpre
        | succ j => exact Nat.succ_le_succ (ih hi hj (Nat.le_of_succ_le_succ hlen))

/-! ## Matches -/

/-- The matches in a list that starts at position `pos`, without its first `skip` elements: each
    is the first occurrence behind the one before. -/
def matchesFrom (needle : List α) : (pos skip : Nat) → List α → List Nat
  | _, _, [] => []
  | pos, skip + 1, _ :: hay => matchesFrom needle (pos + 1) skip hay
  | pos, 0, a :: hay =>
      if needle <+: a :: hay then pos :: matchesFrom needle (pos + 1) (needle.length - 1) hay
      else matchesFrom needle (pos + 1) 0 hay

/-- The positions of `str::match_indices`, of a list that is not empty. -/
def matchIndices (needle hay : List α) : List Nat := matchesFrom needle 0 0 hay

theorem matchesFrom_skip (pos skip : Nat) (hay : List α) :
    matchesFrom needle pos skip hay = matchesFrom needle (pos + skip) 0 (hay.drop skip) := by
  induction hay generalizing pos skip with
  | nil => rw [List.drop_nil, matchesFrom, matchesFrom]
  | cons a hay ih =>
      cases skip with
      | zero => rfl
      | succ skip =>
          have hpos : pos + 1 + skip = pos + (skip + 1) := by omega
          rw [matchesFrom, ih, hpos, List.drop_succ_cons]

theorem matchesFrom_of_find_none {pos : Nat} (h : find needle hay = none) :
    matchesFrom needle pos 0 hay = [] := by
  induction hay generalizing pos with
  | nil => rfl
  | cons a hay ih =>
      have hnot := find_eq_none_iff.mp h
      rw [List.infix_cons_iff, not_or] at hnot
      rw [matchesFrom, if_neg hnot.1]
      exact ih (find_eq_none_iff.mpr hnot.2)

/-- The first match is the first occurrence, and the search goes on behind it. -/
theorem matchesFrom_of_find {pos i : Nat} (hneedle : needle ≠ [])
    (h : find needle hay = some i) :
    matchesFrom needle pos 0 hay =
      (pos + i) :: matchesFrom needle (pos + i + needle.length) 0
        (hay.drop (i + needle.length)) := by
  induction hay generalizing pos i with
  | nil =>
      rw [find, if_neg hneedle] at h
      cases h
  | cons a hay ih =>
      by_cases hpre : needle <+: a :: hay
      · rw [find_eq_some_zero hpre] at h
        obtain rfl := Option.some.inj h
        obtain ⟨n, hn⟩ : ∃ n, needle.length = n + 1 :=
          Nat.exists_eq_succ_of_ne_zero (Nat.ne_of_gt (List.length_pos_iff.mpr hneedle))
        have hpos : pos + 1 + n = pos + 0 + (n + 1) := by omega
        rw [matchesFrom, if_pos hpre, matchesFrom_skip, hn, Nat.add_sub_cancel, hpos,
          Nat.zero_add, List.drop_succ_cons, Nat.add_zero]
      · rw [find_cons_of_ne hpre] at h
        obtain ⟨j, hj, rfl⟩ := Option.map_eq_some_iff.mp h
        have hpos : pos + 1 + j = pos + (j + 1) := by omega
        have hdrop : j + 1 + needle.length = j + needle.length + 1 := by omega
        rw [matchesFrom, if_neg hpre, ih hj, hpos, hdrop, List.drop_succ_cons]

/-- Behind an occurrence less is left. -/
theorem length_behind_lt {i : Nat} (hneedle : needle ≠ []) (h : find needle hay = some i) :
    (hay.drop (i + needle.length)).length < hay.length := by
  have hpos := List.length_pos_iff.mpr hneedle
  have hin := (prefix_drop_of_find h).1.length_le
  rw [List.length_drop] at hin ⊢
  omega

/-- A match is an occurrence. -/
theorem prefix_of_mem_matchesFrom {pos p : Nat} (hneedle : needle ≠ [])
    (h : p ∈ matchesFrom needle pos 0 hay) :
    ∃ i, p = pos + i ∧ needle <+: hay.drop i := by
  induction hlen : hay.length using Nat.strong_induction_on generalizing hay pos with
  | _ n ih =>
      cases hfind : find needle hay with
      | none =>
          rw [matchesFrom_of_find_none hfind] at h
          cases h
      | some i =>
          rw [matchesFrom_of_find hneedle hfind] at h
          obtain ⟨hpre, hle⟩ := prefix_drop_of_find hfind
          rcases List.mem_cons.mp h with rfl | h
          · exact ⟨i, rfl, hpre⟩
          · have hless : (hay.drop (i + needle.length)).length < n :=
              hlen ▸ length_behind_lt hneedle hfind
            obtain ⟨j, rfl, hj⟩ := ih _ hless h rfl
            rw [List.drop_drop] at hj
            exact ⟨i + needle.length + j, by omega, hj⟩

/-- Where no two occurrences overlap, all of them are matches. -/
theorem mem_matchesFrom {pos i : Nat} (hneedle : needle ≠ [])
    (hapart : ∀ j k, j < k → needle <+: hay.drop j → needle <+: hay.drop k →
      j + needle.length ≤ k) (h : needle <+: hay.drop i) :
    pos + i ∈ matchesFrom needle pos 0 hay := by
  -- The search goes on behind each match, in a shorter text.
  induction hlen : hay.length using Nat.strong_induction_on generalizing hay pos i with
  | _ n ih =>
      have hneedlePos := List.length_pos_iff.mpr hneedle
      have hinside : i ≤ hay.length := by
        have hin := h.length_le
        rw [List.length_drop] at hin
        omega
      -- The needle occurs, so something is found.
      cases hfind : find needle hay with
      | none =>
          refine absurd (h.isInfix.trans (List.drop_suffix i hay).isInfix) ?_
          exact find_eq_none_iff.mp hfind
      -- What is found first is this occurrence or one before it.
      | some first =>
          obtain ⟨hpre, -⟩ := prefix_drop_of_find hfind
          have hle := le_of_find hfind h hinside
          rw [matchesFrom_of_find hneedle hfind]
          rcases Nat.lt_or_eq_of_le hle with hlt | rfl
          · -- behind the first match
            have hbehind := hapart first i hlt hpre h
            have hless : (hay.drop (first + needle.length)).length < n :=
              hlen ▸ length_behind_lt hneedle hfind
            -- From behind the first match this occurrence is still whole.
            have hrest : needle <+: (hay.drop (first + needle.length)).drop
                (i - (first + needle.length)) := by
              rw [List.drop_drop, Nat.add_sub_cancel' hbehind]
              exact h
            have hapart' : ∀ j k, j < k →
                needle <+: (hay.drop (first + needle.length)).drop j →
                needle <+: (hay.drop (first + needle.length)).drop k → j + needle.length ≤ k := by
              intro j k hjk hj hk
              rw [List.drop_drop] at hj hk
              have hle := hapart _ _ (Nat.add_lt_add_left hjk _) hj hk
              omega
            have hmem := @ih _ hless _ (pos + first + needle.length) _ hapart' hrest rfl
            have hpos : pos + first + needle.length + (i - (first + needle.length)) = pos + i := by
              omega
            rw [hpos] at hmem
            exact List.mem_cons_of_mem _ hmem
          · exact List.mem_cons_self

omit [DecidableEq α] in
/-- Lists that end with an element they have only there do not overlap. -/
theorem apart_of_mark {front : List α} {mark : α} (hmark : mark ∉ front) {j k : Nat}
    (hjk : j < k) (hj : front ++ [mark] <+: hay.drop j) (hk : front ++ [mark] <+: hay.drop k) :
    j + (front ++ [mark]).length ≤ k := by
  rw [List.length_append, List.length_singleton]
  by_contra hlt
  -- The mark of the first one is inside of the second.
  have hfirst : hay[j + front.length]? = some mark := by
    obtain ⟨rest, hrest⟩ := hj
    rw [← List.getElem?_drop, ← hrest, List.append_assoc,
      List.getElem?_append_right (Nat.le_refl _), Nat.sub_self]
    rfl
  obtain ⟨rest, hrest⟩ := hk
  have hsecond : hay[j + front.length]? = front[j + front.length - k]? := by
    have hsplit : j + front.length = k + (j + front.length - k) := by omega
    nth_rewrite 1 [hsplit]
    rw [← List.getElem?_drop, ← hrest, List.append_assoc, List.getElem?_append_left (by omega)]
  rw [hfirst] at hsecond
  exact hmark (List.mem_of_getElem? hsecond.symm)

/-! ## Marks -/

/-- The list starts with the mark, which does not come again in it. -/
def Marked (mark : α) (l : List α) : Prop := ∃ rest, l = mark :: rest ∧ mark ∉ rest

/-- An occurrence cannot reach into a list that starts with the mark. -/
theorem prefix_append_iff_of_mark {mark a : α} (hneedle : Marked mark needle) :
    needle <+: a :: hay ++ mark :: suf ↔ needle <+: a :: hay := by
  obtain ⟨rest, rfl, hrest⟩ := hneedle
  constructor
  · intro h
    -- Otherwise the occurrence crosses the end and takes in the mark behind it.
    by_contra hnot
    have hlen : (a :: hay).length < (mark :: rest).length := by
      by_contra hle
      exact hnot (List.prefix_of_prefix_length_le h (List.prefix_append _ _)
        (Nat.le_of_not_lt hle))
    -- so the second mark is in what is searched for
    obtain ⟨t, ht⟩ := List.prefix_of_prefix_length_le (List.prefix_append (a :: hay) (mark :: suf)) h
      hlen.le
    have hshort : t ≠ [] := by
      rintro rfl
      rw [List.append_nil] at ht
      rw [ht] at hlen
      exact Nat.lt_irrefl _ hlen
    obtain ⟨b, t, rfl⟩ := List.exists_cons_of_ne_nil hshort
    have hb : b = mark := by
      rw [← ht] at h
      have hsuf := (List.prefix_append_right_inj (a :: hay)).mp h
      exact (List.cons_prefix_cons.mp hsuf).1
    have hmem : mark ∈ rest := by
      rw [List.cons_append] at ht
      rw [← (List.cons.inj ht).2, hb]
      exact List.mem_append_right _ List.mem_cons_self
    exact hrest hmem
  · intro h
    exact h.trans (List.prefix_append (a :: hay) (mark :: suf))

/-- Appending a text that starts with the mark changes no search for what is not in it. -/
theorem find_append_of_mark {mark : α} (hneedle : Marked mark needle)
    (hsuf : find needle (mark :: suf) = none) (hay : List α) :
    find needle (hay ++ mark :: suf) = find needle hay := by
  induction hay with
  | nil =>
      obtain ⟨rest, rfl, -⟩ := hneedle
      rw [List.nil_append, hsuf]
      rfl
  | cons a hay ih =>
      by_cases hpre : needle <+: a :: hay
      · rw [find_eq_some_zero hpre]
        exact find_eq_some_zero ((prefix_append_iff_of_mark hneedle).mpr hpre)
      · have hlonger : ¬ needle <+: a :: (hay ++ mark :: suf) :=
          fun h => hpre ((prefix_append_iff_of_mark hneedle).mp h)
        rw [List.cons_append, find_cons_of_ne hlonger, find_cons_of_ne hpre, ih]

omit [DecidableEq α] in
/-- What has no mark in it is on one side of a mark. -/
theorem infix_append_cons_iff {mark : α} (hmark : mark ∉ needle) (xs ys : List α) :
    needle <:+: xs ++ mark :: ys ↔ needle <:+: xs ∨ needle <:+: ys := by
  constructor
  · rintro ⟨s, t, h⟩
    rw [List.append_assoc] at h
    rcases List.append_eq_append_iff.mp h with ⟨as, rfl, has⟩ | ⟨bs, rfl, hbs⟩
    · -- the match starts in front of the mark, so it ends there
      rcases List.append_eq_append_iff.mp has with ⟨cs, rfl, -⟩ | ⟨cs, hcs, hrest⟩
      · exact .inl ⟨s, cs, by rw [List.append_assoc]⟩
      · cases cs with
        | nil => exact .inl ⟨s, [], by rw [hcs, List.append_nil, List.append_nil]⟩
        | cons c cs =>
            rw [List.cons_append, List.cons.injEq] at hrest
            rw [hcs, hrest.1] at hmark
            exact absurd (List.mem_append_right _ List.mem_cons_self) hmark
    · cases bs with
      | nil =>
          cases needle with
          | nil => exact .inl List.nil_infix
          | cons a needle =>
              rw [List.nil_append, List.cons_append, List.cons.injEq] at hbs
              rw [hbs.1] at hmark
              exact absurd List.mem_cons_self hmark
      | cons b bs =>
          rw [List.cons_append, List.cons.injEq] at hbs
          exact .inr ⟨bs, t, by rw [List.append_assoc, hbs.2]⟩
  · rintro (h | h)
    · exact h.trans (List.prefix_append xs _).isInfix
    · exact h.trans ((List.suffix_cons mark ys).trans (List.suffix_append xs _)).isInfix

omit [DecidableEq α] in
/-- Pieces that each end in a mark. -/
theorem infix_flatMap_iff {β : Type} {mark : α} (hmark : mark ∉ needle) (hne : needle ≠ [])
    (piece : β → List α) (bs : List β) :
    needle <:+: bs.flatMap (fun b => piece b ++ [mark]) ↔ ∃ b ∈ bs, needle <:+: piece b := by
  induction bs with
  | nil =>
      rw [List.flatMap_nil, List.infix_nil]
      exact iff_of_false hne nofun
  | cons b bs ih =>
      rw [List.flatMap_cons, List.append_assoc, List.singleton_append,
        infix_append_cons_iff hmark, ih, List.exists_mem_cons_iff]

end Lib
