/-
  Maranode.Lib.Table

  Tables with a primary key.

  The rows are a list in which no key is repeated; a value that repeats one cannot be built.
  What a statement does to a table is said by what it does to the row of each key (`get`).
-/
import Mathlib.Data.List.Nodup
import Mathlib.Logic.Function.Basic

namespace Lib

structure Table {κ ρ : Type} (key : ρ → κ) where
  rows : List ρ
  nodup : (rows.map key).Nodup

namespace Table

variable {κ ρ : Type} {key : ρ → κ}

/-- Two rows of one key are the same. -/
theorem eq_of_key_eq (t : Table key) {r s : ρ} (hr : r ∈ t.rows) (hs : s ∈ t.rows)
    (h : key r = key s) : r = s :=
  List.inj_on_of_nodup_map t.nodup hr hs h

def empty : Table key := ⟨[], List.nodup_nil⟩

theorem nodup_filter (t : Table key) (p : ρ → Bool) : ((t.rows.filter p).map key).Nodup :=
  t.nodup.sublist (List.filter_sublist.map key)

/-- `DELETE ... WHERE`. -/
def deleteWhere (t : Table key) (p : ρ → Bool) : Table key :=
  ⟨t.rows.filter fun r => !p r, t.nodup_filter _⟩

theorem mem_deleteWhere {t : Table key} {p : ρ → Bool} {r : ρ} :
    r ∈ (t.deleteWhere p).rows ↔ r ∈ t.rows ∧ p r = false := by
  rw [deleteWhere, List.mem_filter, Bool.not_eq_true']

variable [DecidableEq κ]

/-- The row of a key. -/
def get (t : Table key) (k : κ) : Option ρ := t.rows.find? fun r => decide (key r = k)

theorem get_eq_some {t : Table key} {k : κ} {r : ρ} :
    t.get k = some r ↔ r ∈ t.rows ∧ key r = k := by
  constructor
  · intro h
    have hkey := List.find?_some (p := fun r => decide (key r = k)) h
    exact ⟨List.mem_of_find?_eq_some h, of_decide_eq_true hkey⟩
  · rintro ⟨hmem, hkey⟩
    cases hfound : t.get k with
    | none => exact absurd (decide_eq_true hkey) (List.find?_eq_none.mp hfound r hmem)
    | some s =>
        have hkey' := List.find?_some (p := fun r => decide (key r = k)) hfound
        have hsame : key s = key r := (of_decide_eq_true hkey').trans hkey.symm
        rw [t.eq_of_key_eq (List.mem_of_find?_eq_some hfound) hmem hsame]

theorem get_eq_none {t : Table key} {k : κ} : t.get k = none ↔ ∀ r ∈ t.rows, key r ≠ k := by
  rw [get, List.find?_eq_none]
  exact forall₂_congr fun r _ => not_congr decide_eq_true_iff

theorem get_empty (k : κ) : (empty : Table key).get k = none := rfl

/-- Two tables that hold the same rows have the same row for each key. -/
theorem get_eq_of_mem {t t' : Table key} {k : κ}
    (h : ∀ r, key r = k → (r ∈ t.rows ↔ r ∈ t'.rows)) : t.get k = t'.get k := by
  ext r
  rw [get_eq_some, get_eq_some]
  constructor
  · rintro ⟨hmem, hkey⟩
    exact ⟨(h r hkey).mp hmem, hkey⟩
  · rintro ⟨hmem, hkey⟩
    exact ⟨(h r hkey).mpr hmem, hkey⟩

/-! ## DELETE -/

theorem get_deleteWhere (t : Table key) (p : ρ → Bool) (k : κ) :
    (t.deleteWhere p).get k = (t.get k).filter fun r => !p r := by
  ext r
  rw [get_eq_some, mem_deleteWhere, Option.filter_eq_some_iff, get_eq_some, Bool.not_eq_true']
  exact and_right_comm

/-- `DELETE` of one key. -/
theorem get_deleteKey (t : Table key) {p : ρ → Bool} {k : κ}
    (h : ∀ r, p r = decide (key r = k)) :
    (t.deleteWhere p).get = Function.update t.get k none := by
  funext j
  rw [get_deleteWhere]
  cases hr : t.get j with
  | none =>
      by_cases hj : j = k
      · rw [hj, Function.update_self, Option.filter_none]
      · rw [Function.update_of_ne hj, hr, Option.filter_none]
  | some r =>
      have hkey := (get_eq_some.mp hr).2
      rw [Option.filter_some, h, hkey]
      by_cases hj : j = k
      · rw [hj, Function.update_self, decide_eq_true rfl]
        rfl
      · rw [Function.update_of_ne hj, hr, decide_eq_false hj]
        rfl

/-! ## INSERT -/

theorem nodup_concat (t : Table key) {r : ρ} (h : t.get (key r) = none) :
    ((t.rows ++ [r]).map key).Nodup := by
  rw [List.map_append, List.map_singleton, List.nodup_append]
  refine ⟨t.nodup, List.nodup_singleton _, ?_⟩
  intro k hk k' hk' heq
  obtain ⟨s, hs, rfl⟩ := List.mem_map.mp hk
  rw [List.mem_singleton.mp hk'] at heq
  exact get_eq_none.mp h s hs heq

/-- `INSERT`, which fails when the key is there. -/
def insert (t : Table key) (r : ρ) : Option (Table key) :=
  if h : t.get (key r) = none then some ⟨t.rows ++ [r], t.nodup_concat h⟩ else none

theorem insert_eq_some {t t' : Table key} {r : ρ} (h : t.insert r = some t') :
    t.get (key r) = none ∧ t'.rows = t.rows ++ [r] := by
  rw [insert] at h
  split at h
  · next hnone =>
      rw [← Option.some.inj h]
      exact ⟨hnone, rfl⟩
  · cases h

theorem exists_insert {t : Table key} {r : ρ} (h : t.get (key r) = none) :
    ∃ t', t.insert r = some t' :=
  ⟨_, dif_pos h⟩

theorem get_of_insert {t t' : Table key} {r : ρ} (h : t.insert r = some t') :
    t'.get = Function.update t.get (key r) (some r) := by
  obtain ⟨-, hrows⟩ := insert_eq_some h
  funext k
  by_cases hk : k = key r
  · rw [hk, Function.update_self, get_eq_some, hrows]
    exact ⟨List.mem_append_right _ (List.mem_singleton_self r), rfl⟩
  · rw [Function.update_of_ne hk]
    refine get_eq_of_mem fun s hs => ?_
    rw [hrows, List.mem_append, List.mem_singleton]
    refine or_iff_left ?_
    rintro rfl
    exact hk hs.symm

/-- `INSERT OR REPLACE`, which takes the place of the row that has the key. -/
def put (t : Table key) (r : ρ) : Table key where
  rows := (t.deleteWhere fun s => decide (key s = key r)).rows ++ [r]
  nodup := nodup_concat _ (by
    rw [t.get_deleteKey fun _ => rfl]
    exact Function.update_self ..)

theorem get_put (t : Table key) (r : ρ) :
    (t.put r).get = Function.update t.get (key r) (some r) := by
  funext k
  by_cases hk : k = key r
  · rw [hk, Function.update_self, get_eq_some]
    exact ⟨List.mem_append_right _ (List.mem_singleton_self r), rfl⟩
  · rw [Function.update_of_ne hk]
    refine get_eq_of_mem fun s hs => ?_
    rw [put, List.mem_append, List.mem_singleton, mem_deleteWhere, decide_eq_false_iff_not]
    refine ⟨fun h => h.elim And.left fun hsame => ?_, fun h => .inl ⟨h, fun hsame => ?_⟩⟩
    · rw [hsame] at hs
      exact absurd hs.symm hk
    · exact hk (hs.symm.trans hsame)

/-! ## UPDATE -/

theorem nodup_map_update (t : Table key) (k : κ) {f : ρ → ρ} (hf : ∀ r, key (f r) = key r) :
    ((t.rows.map fun r => if key r = k then f r else r).map key).Nodup := by
  have hkeys : (t.rows.map fun r => if key r = k then f r else r).map key = t.rows.map key := by
    rw [List.map_map]
    refine List.map_congr_left fun r _ => ?_
    rw [Function.comp_apply]
    split
    · exact hf r
    · rfl
  rw [hkeys]
  exact t.nodup

/-- `UPDATE ... SET ... WHERE` the key is `k`; the key is not set. -/
def update (t : Table key) (k : κ) (f : ρ → ρ) (hf : ∀ r, key (f r) = key r) : Table key :=
  ⟨t.rows.map fun r => if key r = k then f r else r, t.nodup_map_update k hf⟩

theorem get_update (t : Table key) (k : κ) {f : ρ → ρ} (hf : ∀ r, key (f r) = key r) :
    (t.update k f hf).get = Function.update t.get k ((t.get k).map f) := by
  funext j
  ext s
  rw [get_eq_some, update, List.mem_map]
  by_cases hj : j = k
  · rw [hj, Function.update_self, Option.map_eq_some_iff]
    constructor
    · rintro ⟨⟨r, hr, rfl⟩, hkey⟩
      by_cases hrk : key r = k
      · rw [if_pos hrk]
        exact ⟨r, get_eq_some.mpr ⟨hr, hrk⟩, rfl⟩
      · rw [if_neg hrk] at hkey
        exact absurd hkey hrk
    · rintro ⟨r, hr, rfl⟩
      obtain ⟨hmem, hrk⟩ := get_eq_some.mp hr
      exact ⟨⟨r, hmem, if_pos hrk⟩, (hf r).trans hrk⟩
  · rw [Function.update_of_ne hj, get_eq_some]
    constructor
    · rintro ⟨⟨r, hr, rfl⟩, hkey⟩
      by_cases hrk : key r = k
      · rw [if_pos hrk, hf r, hrk] at hkey
        exact absurd hkey.symm hj
      · rw [if_neg hrk] at hkey ⊢
        exact ⟨hr, hkey⟩
    · rintro ⟨hmem, hkey⟩
      have hsk : key s ≠ k := fun h => hj (hkey.symm.trans h)
      exact ⟨⟨s, hmem, if_neg hsk⟩, hkey⟩

/-- Only the row of the key counts. -/
theorem update_congr {t : Table key} {k : κ} {f g : ρ → ρ} (hf : ∀ r, key (f r) = key r)
    (hg : ∀ r, key (g r) = key r) (h : ∀ r, t.get k = some r → f r = g r) :
    t.update k f hf = t.update k g hg := by
  have hrows : (t.rows.map fun r => if key r = k then f r else r) =
      t.rows.map fun r => if key r = k then g r else r := by
    refine List.map_congr_left fun r hr => ?_
    by_cases hk : key r = k
    · rw [if_pos hk, if_pos hk, h r (get_eq_some.mpr ⟨hr, hk⟩)]
    · rw [if_neg hk, if_neg hk]
  rw [update, update]
  congr

/-- Without such a row nothing is set. -/
theorem update_of_get_eq_none {t : Table key} {k : κ} (h : t.get k = none) {f : ρ → ρ}
    (hf : ∀ r, key (f r) = key r) : t.update k f hf = t := by
  have hrows : (t.rows.map fun r => if key r = k then f r else r) = t.rows := by
    calc (t.rows.map fun r => if key r = k then f r else r)
        = t.rows.map id := List.map_congr_left fun r hr => if_neg (get_eq_none.mp h r hr)
      _ = t.rows := List.map_id _
  rw [update]
  congr

/-! ## SELECT -/

/-- The rows of one key that have a property, each with what is selected for it. -/
theorem flatMap_rows {β : Type} (t : Table key) (k : κ) (f : ρ → List β)
    (hf : ∀ r, key r ≠ k → f r = []) : t.rows.flatMap f = ((t.get k).map f).getD [] := by
  obtain ⟨rows, hnodup⟩ := t
  rw [get]
  dsimp only
  induction rows with
  | nil => rfl
  | cons r rows ih =>
      rw [List.map_cons, List.nodup_cons] at hnodup
      rw [List.flatMap_cons]
      by_cases hr : key r = k
      · have hrest : rows.flatMap f = [] := by
          rw [List.flatMap_eq_nil_iff]
          intro s hs
          refine hf s fun hsk => hnodup.1 ?_
          rw [hr, ← hsk]
          exact List.mem_map_of_mem hs
        have hfound : (r :: rows).find? (fun r => decide (key r = k)) = some r :=
          List.find?_cons_of_pos (decide_eq_true hr)
        rw [hfound, hrest, List.append_nil]
        rfl
      · have hskip : (r :: rows).find? (fun r => decide (key r = k)) =
            rows.find? fun r => decide (key r = k) :=
          List.find?_cons_of_neg fun h => hr (of_decide_eq_true h)
        rw [hskip, hf r hr, List.nil_append]
        exact ih hnodup.2

/-! ## UNIQUE -/

/-- No two rows have the same value in a column. -/
def Unique {γ : Type} (t : Table key) (col : ρ → γ) : Prop := (t.rows.map col).Nodup

section Unique

variable {γ : Type} {t t' : Table key} {col : ρ → γ}

omit [DecidableEq κ] in
theorem unique_empty : (empty : Table key).Unique col := List.nodup_nil

omit [DecidableEq κ] in
theorem Unique.eq_of_col_eq (h : t.Unique col) {r s : ρ} (hr : r ∈ t.rows) (hs : s ∈ t.rows)
    (hcol : col r = col s) : r = s :=
  List.inj_on_of_nodup_map h hr hs hcol

omit [DecidableEq κ] in
theorem Unique.deleteWhere (h : t.Unique col) (p : ρ → Bool) : (t.deleteWhere p).Unique col :=
  h.sublist (List.filter_sublist.map col)

/-- After an `INSERT`, when the value is new. -/
theorem unique_insert_iff {r : ρ} (hinsert : t.insert r = some t') :
    t'.Unique col ↔ t.Unique col ∧ ∀ s ∈ t.rows, col s ≠ col r := by
  rw [Unique, (insert_eq_some hinsert).2, List.map_append, List.map_singleton, List.nodup_append]
  simp only [List.nodup_singleton, true_and, List.mem_singleton, forall_eq, List.forall_mem_map]
  rfl

theorem map_col_update {k : κ} {f : ρ → ρ} (hf : ∀ r, key (f r) = key r)
    (hcol : ∀ r ∈ t.rows, key r = k → col (f r) = col r) :
    (t.update k f hf).rows.map col = t.rows.map col := by
  rw [update, List.map_map]
  refine List.map_congr_left fun r hr => ?_
  rw [Function.comp_apply]
  split
  · next hk => exact hcol r hr hk
  · rfl

/-- After an `UPDATE` that leaves the column as it is. -/
theorem unique_update_iff {k : κ} {f : ρ → ρ} (hf : ∀ r, key (f r) = key r)
    (hcol : ∀ r ∈ t.rows, key r = k → col (f r) = col r) :
    (t.update k f hf).Unique col ↔ t.Unique col := by
  rw [Unique, map_col_update hf hcol, Unique]

/-- After an `UPDATE` that sets it to a value no other row has. -/
theorem Unique.update (h : t.Unique col) {k : κ} {f : ρ → ρ} (hf : ∀ r, key (f r) = key r)
    {c : γ} (hset : ∀ r, col (f r) = c) (hother : ∀ r ∈ t.rows, key r ≠ k → col r ≠ c) :
    (t.update k f hf).Unique col := by
  refine (List.nodup_map_iff_inj_on (t.update k f hf).nodup.of_map).mpr ?_
  intro r hr s hs hcol
  rw [Table.update, List.mem_map] at hr hs
  obtain ⟨r, hr, rfl⟩ := hr
  obtain ⟨s, hs, rfl⟩ := hs
  by_cases hrk : key r = k
  · by_cases hsk : key s = k
    · rw [t.eq_of_key_eq hr hs (hrk.trans hsk.symm)]
    · rw [if_pos hrk, if_neg hsk, hset] at hcol
      exact absurd hcol.symm (hother s hs hsk)
  · by_cases hsk : key s = k
    · rw [if_neg hrk, if_pos hsk, hset] at hcol
      exact absurd hcol (hother r hr hrk)
    · rw [if_neg hrk, if_neg hsk] at hcol ⊢
      exact h.eq_of_col_eq hr hs hcol

omit [DecidableEq κ] in
/-- The row that a look at a unique column finds. -/
theorem Unique.find?_eq_some [DecidableEq γ] (h : t.Unique col) {c : γ} {r : ρ} :
    (t.rows.find? fun s => col s == c) = some r ↔ r ∈ t.rows ∧ col r = c := by
  constructor
  · intro hfound
    have hcol := List.find?_some (p := fun s => col s == c) hfound
    exact ⟨List.mem_of_find?_eq_some hfound, beq_iff_eq.mp hcol⟩
  · rintro ⟨hr, hcol⟩
    cases hfound : t.rows.find? fun s => col s == c with
    | none => exact absurd (beq_iff_eq.mpr hcol) (List.find?_eq_none.mp hfound r hr)
    | some s =>
        have hsame := List.find?_some (p := fun s => col s == c) hfound
        rw [h.eq_of_col_eq (List.mem_of_find?_eq_some hfound) hr
          ((beq_iff_eq.mp hsame).trans hcol.symm)]

end Unique

end Table

end Lib
