/-
  Maranode.Store.Allowlist

  Whether a workspace that was stored comes back allowing the same models.

  The column holds the items with commas between them, and reading it gives the pieces of
  each item in turn (`modelAllowlist_of_comesBack`).  An item that is blank is lost, and a
  list that lost all its items allows every model.
-/
import Maranode.Common.Receipt
import Maranode.Store.WorkspaceDb

namespace Maranode.Store

open Lib Maranode.Common WorkspaceDb

/-! ## The column -/

theorem parseAllowlist_joinAllowlist (items : List String) :
    parseAllowlist (joinAllowlist items) = items.flatMap parseAllowlist := by
  rw [parseAllowlist, joinAllowlist, String.toList_ofList, Separated.parse_render,
    List.flatMap_map, List.map_flatMap]
  rfl

/-- A piece of an item: trimmed, without a comma, its characters those of the item. -/
theorem of_mem_parseAllowlist {item piece : String} (h : piece ∈ parseAllowlist item) :
    ',' ∉ piece.toList ∧ Text.trim piece.toList = piece.toList ∧ piece.toList ⊆ item.toList := by
  obtain ⟨cs, hcs, rfl⟩ := List.mem_map.mp h
  rw [String.toList_ofList]
  exact Separated.mem_of_mem_parse hcs

theorem parseAllowlist_of_plain {item : String} (hcomma : ',' ∉ item.toList)
    (htrim : Text.trim item.toList = item.toList) (hne : item.toList ≠ []) :
    parseAllowlist item = [item] := by
  rw [parseAllowlist, Separated.parse_of_plain hcomma htrim hne, List.map_singleton,
    String.ofList_toList]

theorem parseAllowlist_eq_nil_iff {item : String} :
    parseAllowlist item = [] ↔ ∀ c ∈ item.toList, c = ',' ∨ Text.isWhite c = true := by
  rw [parseAllowlist, List.map_eq_nil_iff, Separated.parse_eq_nil_iff]

/-! ## What comes back -/

section ComesBack

variable (X : External) (G : Aead)

/-- The workspace was stored: it was created, or updated where there was one. -/
def Stored (db : WorkspaceDb) (ws : Workspace) (db' : WorkspaceDb) : Prop :=
  (∃ random accepted, create X G random accepted db ws = .ok db') ∨
    ∃ accepted, update accepted db ws = .ok (true, db')

/-- The workspace `ws` comes back by its slug, or in the list. -/
def ComesBack (db : WorkspaceDb) (slug : String) (ws : Workspace) : Prop :=
  (∃ newV4 now, db.getBySlug X newV4 now slug = some ws) ∨
    ∃ fresh, ws ∈ db.list X fresh ∧ ws.slug = slug

variable {X G} {db db' : WorkspaceDb} {ws ws' : Workspace}

/-- What storing leaves: the workspace has a row, and it holds the joined list. -/
theorem rows_of_stored (h : Stored X G db ws db') :
    (∃ row ∈ db'.conn.rows, row.slug = ws.slug) ∧
      ∀ row ∈ db'.conn.rows, row.slug = ws.slug →
        row.modelAllowlist = joinAllowlist ws.modelAllowlist := by
  obtain ⟨random, accepted, h⟩ | ⟨accepted, h⟩ := h
  · obtain ⟨row, hslug, hlist, hfresh, hrows⟩ := rows_of_create h
    rw [hrows]
    refine ⟨⟨row, List.mem_append_right _ (List.mem_singleton_self row), hslug⟩, ?_⟩
    intro row' hrow' hslug'
    rcases List.mem_append.mp hrow' with hrow' | hrow'
    · exact absurd hslug' (hfresh row' hrow')
    · rw [List.mem_singleton.mp hrow', hlist]
  · obtain ⟨⟨row, hrow, hslug⟩, hrows⟩ := rows_of_update h
    rw [hrows]
    refine ⟨⟨setRow ws row, List.mem_map.mpr ⟨row, hrow, if_pos hslug⟩, hslug⟩, ?_⟩
    intro row' hrow' hslug'
    obtain ⟨old, -, rfl⟩ := List.mem_map.mp hrow'
    split
    · rfl
    · next hne =>
        rw [if_neg hne] at hslug'
        exact absurd hslug' hne

theorem comesBack_row (h : ComesBack X db' ws.slug ws') :
    ∃ row ∈ db'.conn.rows, row.slug = ws.slug ∧
      ws'.modelAllowlist = parseAllowlist row.modelAllowlist := by
  obtain ⟨newV4, now, h⟩ | ⟨fresh, hmem, hslug⟩ := h
  · rw [getBySlug, Table.find, Option.map_eq_some_iff] at h
    obtain ⟨row, hfind, rfl⟩ := h
    exact ⟨row, List.mem_of_find?_eq_some hfind, by simpa using List.find?_some hfind, rfl⟩
  · rw [WorkspaceDb.list, List.mem_map] at hmem
    obtain ⟨⟨row, i⟩, hrow, rfl⟩ := hmem
    exact ⟨row, List.mem_mergeSort.mp (List.fst_mem_of_mem_zipIdx hrow), hslug, rfl⟩

/-- The pieces of each item come back. -/
theorem modelAllowlist_of_comesBack (h : Stored X G db ws db')
    (hback : ComesBack X db' ws.slug ws') :
    ws'.modelAllowlist = ws.modelAllowlist.flatMap parseAllowlist := by
  obtain ⟨row, hrow, hslug, hlist⟩ := comesBack_row hback
  rw [hlist, (rows_of_stored h).2 row hrow hslug, parseAllowlist_joinAllowlist]

theorem exists_comesBack (h : Stored X G db ws db') : ∃ ws', ComesBack X db' ws.slug ws' := by
  obtain ⟨⟨row, hrow, hslug⟩, -⟩ := rows_of_stored h
  cases hfind : db'.conn.find ws.slug with
  | none =>
      rw [Table.find, List.find?_eq_none] at hfind
      exact absurd (beq_iff_eq.mpr hslug) (hfind row hrow)
  | some found =>
      exact ⟨_, .inl ⟨0, 0, by rw [getBySlug, hfind]; rfl⟩⟩

end ComesBack

/-! ## The models that are allowed -/

theorem allowsModel_eq_true {ws : Workspace} {s : String} :
    ws.allowsModel s = true ↔ ws.modelAllowlist = [] ∨ s ∈ ws.modelAllowlist := by
  simp [Workspace.allowsModel]

/-- A list that is not empty does not allow every model. -/
theorem exists_not_allowed (items : List String) : ∃ m : ModelId, m.display ∉ items := by
  obtain ⟨n, hn⟩ : ∃ n, ∀ item ∈ items, item.length ≤ n := by
    induction items with
    | nil => exact ⟨0, List.forall_mem_nil _⟩
    | cons item items ih =>
        obtain ⟨n, hn⟩ := ih
        refine ⟨max item.length n, List.forall_mem_cons.mpr ⟨Nat.le_max_left _ _, ?_⟩⟩
        exact fun other hother => (hn other hother).trans (Nat.le_max_right _ _)
  -- The name alone is as long as every item.
  refine ⟨⟨String.ofList (List.replicate n 'm'), ""⟩, fun hmem => ?_⟩
  have hlen := hn _ hmem
  simp [ModelId.display] at hlen

/-- What the column keeps: the list is empty, or one of its items has a character besides
    commas and white space, and the items that name a model have no comma in them and no
    white space around them. -/
def Lossless (items : List String) : Prop :=
  items = [] ∨
    (∃ item ∈ items, ∃ c ∈ item.toList, c ≠ ',' ∧ Text.isWhite c = false) ∧
      ∀ item ∈ items, ':' ∈ item.toList →
        ',' ∉ item.toList ∧ Text.trim item.toList = item.toList

/-- Nothing comes back of a list of commas and white space. -/
theorem flatMap_parseAllowlist_ne_nil_iff {items : List String} :
    items.flatMap parseAllowlist ≠ [] ↔
      ∃ item ∈ items, ∃ c ∈ item.toList, c ≠ ',' ∧ Text.isWhite c = false := by
  simp only [Ne, List.flatMap_eq_nil_iff, parseAllowlist_eq_nil_iff, not_forall, not_or,
    Bool.not_eq_true, exists_prop]

/-- An item that names a model comes back exactly when it is a piece of its own. -/
theorem plain_of_mem_flatMap {items : List String} {item : String}
    (h : item ∈ items.flatMap parseAllowlist) :
    ',' ∉ item.toList ∧ Text.trim item.toList = item.toList := by
  obtain ⟨other, -, hpiece⟩ := List.mem_flatMap.mp h
  exact ⟨(of_mem_parseAllowlist hpiece).1, (of_mem_parseAllowlist hpiece).2.1⟩

/-- When every item that names a model is plain, the same models are named. -/
theorem mem_flatMap_iff_of_plain {items : List String}
    (hplain : ∀ item ∈ items, ':' ∈ item.toList →
      ',' ∉ item.toList ∧ Text.trim item.toList = item.toList) (m : ModelId) :
    m.display ∈ items.flatMap parseAllowlist ↔ m.display ∈ items := by
  rw [List.mem_flatMap]
  constructor
  · rintro ⟨item, hitem, hpiece⟩
    -- The piece has a colon, so the item has one, and is its own only piece.
    have hcolon : ':' ∈ item.toList := (of_mem_parseAllowlist hpiece).2.2 m.colon_mem_display
    obtain ⟨hcomma, htrim⟩ := hplain item hitem hcolon
    rw [parseAllowlist_of_plain hcomma htrim (List.ne_nil_of_mem hcolon)] at hpiece
    rwa [List.mem_singleton.mp hpiece]
  · intro hmem
    obtain ⟨hcomma, htrim⟩ := hplain _ hmem m.colon_mem_display
    refine ⟨m.display, hmem, ?_⟩
    rw [parseAllowlist_of_plain hcomma htrim (List.ne_nil_of_mem m.colon_mem_display)]
    exact List.mem_singleton_self _

/-- **The allowlist in the database.**  A workspace that was stored comes back allowing the
    same models exactly when its list is lossless. -/
theorem allowsModel_kept_iff (X : External) (G : Aead) {db db' : WorkspaceDb} {ws : Workspace}
    (h : Stored X G db ws db') :
    (∀ ws', ComesBack X db' ws.slug ws' →
      ∀ m : ModelId, ws'.allowsModel m.display = ws.allowsModel m.display) ↔
      Lossless ws.modelAllowlist := by
  -- The row comes back with the parsed column, whatever that holds.
  obtain ⟨back, hback⟩ := exists_comesBack h
  constructor
  · intro hkept
    have hlist := modelAllowlist_of_comesBack h hback
    have hsame : ∀ m : ModelId, back.modelAllowlist = [] ∨ m.display ∈ back.modelAllowlist ↔
        ws.modelAllowlist = [] ∨ m.display ∈ ws.modelAllowlist := fun m => by
      rw [← allowsModel_eq_true, ← allowsModel_eq_true, hkept back hback m]
    by_cases hnil : ws.modelAllowlist = []
    · exact .inl hnil
    · -- Some model is not allowed, so not all items were lost.
      obtain ⟨m, hm⟩ := exists_not_allowed ws.modelAllowlist
      have hne : back.modelAllowlist ≠ [] := fun hback =>
        ((hsame m).mp (.inl hback)).elim hnil hm
      refine .inr ⟨flatMap_parseAllowlist_ne_nil_iff.mp (hlist ▸ hne), ?_⟩
      intro item hitem hcolon
      obtain ⟨m, rfl⟩ := ModelId.exists_display_eq hcolon
      exact plain_of_mem_flatMap (hlist ▸ ((hsame m).mpr (.inr hitem)).resolve_left hne)
  -- Nothing was lost, so membership is the same on both lists.
  · intro hlossless ws' hback' m
    have hlist := modelAllowlist_of_comesBack h hback'
    rw [Bool.eq_iff_iff, allowsModel_eq_true, allowsModel_eq_true, hlist]
    obtain hnil | ⟨hsome, hplain⟩ := hlossless
    · rw [hnil, List.flatMap_nil]
    · have hne := flatMap_parseAllowlist_ne_nil_iff.mpr hsome
      have hne' : ws.modelAllowlist ≠ [] := fun hnil => hne (by rw [hnil, List.flatMap_nil])
      rw [mem_flatMap_iff_of_plain hplain, or_iff_right hne, or_iff_right hne']

/-- A workspace for one department. -/
def clinic (items : List String) : Workspace where
  id := 1
  slug := "clinic"
  name := "Clinic"
  apiKeyHash := none
  modelAllowlist := items
  rateLimitRpm := none
  systemPrompt := none
  createdAt := 0
  netNamespace := false
  maxConcurrentRequests := none
  maxModels := none
  maxMemoryBytes := none
  dek := none

/-- A database without workspaces and without a master key. -/
def WorkspaceDb.empty : WorkspaceDb := ⟨⟨[], List.nodup_nil, List.nodup_nil⟩, none⟩

/-- What is filled where a result is applied. -/
def WorkspaceDb.Random.zero : Random where
  nonce := filled 12 0
  dek := filled 32 0

/-- The database after the workspace was created. -/
def clinicDb (items : List String) : WorkspaceDb where
  conn :=
    { rows := [newRow External.sample (clinic items) (generateDek .zero)]
      ids := List.nodup_singleton _
      slugs := List.nodup_singleton _ }
  kek := none

theorem create_clinic (items : List String) :
    create External.sample Aead.sample .zero true .empty (clinic items) = .ok (clinicDb items) :=
  rfl

/-- Two models that are listed are allowed when the workspace comes back, and no other. -/
theorem allowsModel_kept_clinic :
    (∃ ws', ComesBack External.sample (clinicDb ["llama3.2:3b", "qwen2.5:7b"]) "clinic" ws') ∧
      ∀ ws', ComesBack External.sample (clinicDb ["llama3.2:3b", "qwen2.5:7b"]) "clinic" ws' →
        ∀ m : ModelId, ws'.allowsModel m.display
          = (clinic ["llama3.2:3b", "qwen2.5:7b"]).allowsModel m.display := by
  have hstored : Stored External.sample Aead.sample .empty (clinic ["llama3.2:3b", "qwen2.5:7b"])
      (clinicDb ["llama3.2:3b", "qwen2.5:7b"]) := .inl ⟨_, _, create_clinic _⟩
  refine ⟨exists_comesBack hstored,
    (allowsModel_kept_iff External.sample Aead.sample hstored).mpr (.inr ⟨?_, ?_⟩)⟩
  · exact ⟨"llama3.2:3b", List.mem_cons_self, 'l', by decide, by decide, by decide⟩
  · decide

/-- A list with one blank item comes back allowing a model that is not listed. -/
theorem allowlist_widened :
    ∃ db' ws', create External.sample Aead.sample .zero true .empty (clinic [" "]) = .ok db' ∧
      db'.getBySlug External.sample 0 0 "clinic" = some ws' ∧
      (clinic [" "]).allowsModel (ModelId.mk "llama3.2" "3b").display = false ∧
      ws'.allowsModel (ModelId.mk "llama3.2" "3b").display = true := by
  refine ⟨clinicDb [" "], _, create_clinic _, rfl, by decide, ?_⟩
  decide

end Maranode.Store
