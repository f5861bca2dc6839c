/-
  Maranode.Inference.Schedules

  The cache of models under calls that overlap.

  `get_or_load` gives the lock of the cache away while it reads a file, and `load_model` takes
  it once more to register the id.  The cache never holds more models than it may
  (`bounded_of_run`).  What the ids stand for is another matter: a model can be gone before its
  id is registered, and unloading one id takes the model from all others (`schedules_iff`).
-/
import Maranode.Inference.Cache
import Maranode.Lib.Run

namespace Maranode.Inference

open Lib Lib.Run

deriving instance DecidableEq for CachedModel

/-! ## The critical sections -/

namespace ModelCache

variable (c : ModelCache)

/-- `by_path.insert`; the entry of an overlapping load of the same file is replaced. -/
def put (path : String) (now : Nat) : ModelCache :=
  { c with byPath := (c.byPath.filter fun entry => entry.path != path) ++ [⟨path, now⟩] }

/-- The second section of `get_or_load`. -/
def store (maxLoadedModels : Nat) (path : String) (now : Nat) : ModelCache :=
  if maxLoadedModels > 0 ∧ (c.put path now).byPath.length > maxLoadedModels then
    (c.put path now).evictLru path
  else c.put path now

/-- The last section of `load_model`. -/
def register (modelId path : String) : ModelCache :=
  { c with idToPath := (modelId, path) :: c.idToPath.filter fun id => id.1 != modelId }

/-- `unload_model`. -/
def unload (modelId : String) : ModelCache :=
  match c.idToPath.find? fun id => id.1 == modelId with
  | none => c
  | some found =>
      { byPath := c.byPath.filter fun entry => entry.path != found.2
        idToPath := c.idToPath.filter fun id => id.1 != modelId }

end ModelCache

/-- A call of `get_or_load`; one by `load_model` has an id. -/
structure LoadCall where
  path : String
  modelId : Option String

/-- The cache while nobody holds its lock: the calls that read a file, and the ids of those
    that have got their model and not registered it. -/
structure CacheState where
  cache : ModelCache
  loading : List LoadCall
  registering : List (String × String)

inductive CacheOp where
  | lookup (call : LoadCall) (now : Nat)
  /-- The file of a call has been read. -/
  | loaded (i now : Nat)
  /-- It could not be read, or the call was given up. -/
  | fail (i : Nat)
  | register (i : Nat)
  /-- A call was given up before its id was registered. -/
  | giveUp (i : Nat)
  | unload (modelId : String)
  /-- The map is walked in another order. -/
  | rehash (byPath : List CachedModel)

namespace CacheState

def empty : CacheState := ⟨⟨[], []⟩, [], []⟩

/-- A call has got its model. -/
def got (s : CacheState) (call : LoadCall) (cache : ModelCache) : CacheState :=
  { s with
    cache
    registering := s.registering ++ (call.modelId.map fun id => (id, call.path)).toList }

def step (maxLoadedModels : Nat) (s : CacheState) : CacheOp → Option CacheState
  | .lookup call now =>
      some (if s.cache.holds call.path then s.got call (s.cache.touch call.path now)
        else { s with loading := s.loading ++ [call] })
  | .loaded i now =>
      s.loading[i]?.map fun call =>
        { s with loading := s.loading.eraseIdx i }.got call
          (s.cache.store maxLoadedModels call.path now)
  | .fail i => s.loading[i]?.map fun _ => { s with loading := s.loading.eraseIdx i }
  | .register i =>
      s.registering[i]?.map fun id =>
        { s with
          cache := s.cache.register id.1 id.2
          registering := s.registering.eraseIdx i }
  | .giveUp i => s.registering[i]?.map fun _ => { s with registering := s.registering.eraseIdx i }
  | .unload modelId => some { s with cache := s.cache.unload modelId }
  | .rehash byPath =>
      if byPath.Perm s.cache.byPath then some { s with cache := { s.cache with byPath } } else none

end CacheState

/-! ## Calls that do not overlap -/

section Sequential

variable {e : LlamaCppEngine} {runs : EngineRuns}

theorem put_of_not_holds {c : ModelCache} {path : String} (h : c.holds path = false) (now : Nat) :
    c.put path now = c.insert path now := by
  have hall : ∀ entry ∈ c.byPath, (entry.path != path) = true := by
    intro entry hentry
    rw [bne_iff_ne]
    intro hpath
    rw [ModelCache.holds_eq_true.mpr ⟨entry, hentry, hpath⟩] at h
    cases h
  rw [ModelCache.put, ModelCache.insert, List.filter_eq_self.mpr hall]

/-- The sections of a call, one after the other, are `load_model` and the `get_or_load` in
    it. -/
theorem loadModel_run {path : String} (h : e.Loads runs path) (modelId : String) :
    ∃ ops, run (CacheState.step e.maxLoadedModels) ⟨e.cache, [], []⟩ ops =
      some ⟨(e.loadModel runs modelId path).1.cache, [], []⟩ := by
  cases hholds : e.cache.holds path with
  | true =>
      refine ⟨[.lookup ⟨path, some modelId⟩ runs.loadedAt, .register 0], ?_⟩
      rw [LlamaCppEngine.loadModel, LlamaCppEngine.getOrLoad_of_holds hholds, run,
        CacheState.step, if_pos hholds]
      rfl
  | false =>
      have hload : runs.loadFromFile path = .ok () :=
        h.resolve_left (by rw [hholds]; exact Bool.false_ne_true)
      refine ⟨[.lookup ⟨path, some modelId⟩ runs.loadedAt, .loaded 0 runs.loadedAt,
        .register 0], ?_⟩
      rw [LlamaCppEngine.loadModel, LlamaCppEngine.getOrLoad, hholds, if_neg Bool.false_ne_true,
        hload, run, CacheState.step, hholds, if_neg Bool.false_ne_true]
      show some (CacheState.mk ((e.cache.store _ path _).register modelId path) [] []) = _
      rw [ModelCache.store, put_of_not_holds hholds]
      dsimp only
      split
      · rfl
      · rfl

end Sequential

/-! ## How many models are kept -/

/-- One entry for each path, and no more than there may be. -/
structure Bounded (k : Nat) (c : ModelCache) : Prop where
  paths : (c.byPath.map (·.path)).Nodup
  atMost : c.byPath.length ≤ k

section Bounds

variable {k : Nat} {c : ModelCache} {path : String} {now : Nat}

theorem map_path_touch (c : ModelCache) (path : String) (now : Nat) :
    (c.touch path now).byPath.map (·.path) = c.byPath.map (·.path) := by
  show (c.byPath.map _).map _ = _
  rw [List.map_map]
  refine List.map_congr_left fun entry _ => ?_
  show (if entry.path = path then { entry with lastUsed := now } else entry).path = _
  split
  · rfl
  · rfl

theorem nodup_put (h : (c.byPath.map (·.path)).Nodup) :
    ((c.put path now).byPath.map (·.path)).Nodup := by
  show (((c.byPath.filter _) ++ [_]).map _).Nodup
  rw [List.map_append, List.nodup_append]
  refine ⟨h.sublist (List.filter_sublist.map _), List.nodup_singleton _, ?_⟩
  intro other hother own hown
  obtain ⟨entry, hentry, rfl⟩ := List.mem_map.mp hother
  rw [List.mem_filter, bne_iff_ne] at hentry
  rw [List.mem_singleton.mp hown]
  exact hentry.2

/-- One entry at most comes to the others. -/
theorem length_put_le : (c.put path now).byPath.length ≤ c.byPath.length + 1 := by
  show ((c.byPath.filter _) ++ [_]).length ≤ _
  rw [List.length_append, List.length_singleton]
  exact Nat.add_le_add_right (List.length_filter_le _ _) 1

/-- Where there is another model than the one just loaded, one goes. -/
theorem length_evictLru_lt (h : ∃ entry ∈ c.byPath, entry.path ≠ path) :
    (c.evictLru path).byPath.length < c.byPath.length := by
  rw [ModelCache.evictLru]
  obtain ⟨entry, hentry, hne⟩ := h
  have hother : entry ∈ c.byPath.filter fun entry => entry.path != path := by
    rw [List.mem_filter, bne_iff_ne]
    exact ⟨hentry, hne⟩
  cases hvictim : (c.byPath.filter fun entry => entry.path != path).argmin
      CachedModel.lastUsed with
  | none =>
      rw [List.argmin_eq_none.mp hvictim] at hother
      cases hother
  | some victim =>
      have hmem := List.mem_of_mem_filter (List.argmin_mem hvictim)
      apply List.length_filter_lt_length_iff_exists.mpr
      exact ⟨victim, hmem, by simp⟩

theorem exists_other (hpaths : (c.byPath.map (·.path)).Nodup) (h : 1 < c.byPath.length)
    (path : String) : ∃ entry ∈ c.byPath, entry.path ≠ path := by
  by_contra hall
  push Not at hall
  have hconst : c.byPath.map (·.path) = List.replicate c.byPath.length path := by
    rw [List.eq_replicate_iff, List.length_map]
    refine ⟨rfl, fun other hother => ?_⟩
    obtain ⟨entry, hentry, rfl⟩ := List.mem_map.mp hother
    exact hall entry hentry
  rw [hconst, List.nodup_replicate] at hpaths
  omega

theorem nodup_evictLru (h : (c.byPath.map (·.path)).Nodup) :
    ((c.evictLru path).byPath.map (·.path)).Nodup := by
  rw [ModelCache.evictLru]
  split
  · exact h
  · exact h.sublist (List.filter_sublist.map _)

theorem bounded_store (hk : 0 < k) (h : Bounded k c) : Bounded k (c.store k path now) := by
  have hpaths : ((c.put path now).byPath.map (·.path)).Nodup := nodup_put h.paths
  have hput : (c.put path now).byPath.length ≤ c.byPath.length + 1 := length_put_le
  have hold := h.atMost
  rw [ModelCache.store]
  split
  · next hfull =>
      have hlt := length_evictLru_lt (exists_other hpaths (by omega) path)
      exact ⟨nodup_evictLru hpaths, by omega⟩
  · next hroom => exact ⟨hpaths, by omega⟩

theorem bounded_unload (h : Bounded k c) (modelId : String) : Bounded k (c.unload modelId) := by
  rw [ModelCache.unload]
  split
  · exact h
  · exact ⟨h.paths.sublist (List.filter_sublist.map _),
      Nat.le_trans (List.length_filter_le _ _) h.atMost⟩

end Bounds

/-! ## What the ids stand for -/

/-- Every id stands for a model that is kept. -/
def IdsKept (c : ModelCache) : Prop := ∀ id ∈ c.idToPath, c.holds id.2 = true

instance (c : ModelCache) : Decidable (IdsKept c) := inferInstanceAs (Decidable (∀ _ ∈ _, _))

section Ids

variable {c : ModelCache} {path : String} {now : Nat}

theorem holds_put_iff {other : String} :
    (c.put path now).holds other = true ↔ c.holds other = true ∨ other = path := by
  rw [ModelCache.holds_eq_true, ModelCache.holds_eq_true]
  constructor
  · rintro ⟨entry, hentry, rfl⟩
    rcases List.mem_append.mp hentry with hold | hnew
    · exact .inl ⟨entry, List.mem_of_mem_filter hold, rfl⟩
    · rw [List.mem_singleton.mp hnew]
      exact .inr rfl
  · intro h
    by_cases hpath : other = path
    · exact ⟨⟨path, now⟩, List.mem_append_right _ (List.mem_singleton_self _), hpath.symm⟩
    · obtain ⟨entry, hentry, rfl⟩ := h.resolve_right hpath
      refine ⟨entry, List.mem_append_left _ (List.mem_filter.mpr ⟨hentry, ?_⟩), rfl⟩
      rw [bne_iff_ne]
      exact hpath

/-- What is kept of the entries when a path goes. -/
theorem holds_filter_iff {byPath : List CachedModel} {ids : List (String × String)}
    {gone other : String} :
    (ModelCache.mk (byPath.filter fun entry => entry.path != gone) ids).holds other = true ↔
      (ModelCache.mk byPath ids).holds other = true ∧ other ≠ gone := by
  rw [ModelCache.holds_eq_true, ModelCache.holds_eq_true]
  constructor
  · rintro ⟨entry, hentry, rfl⟩
    rw [List.mem_filter, bne_iff_ne] at hentry
    exact ⟨⟨entry, hentry.1, rfl⟩, hentry.2⟩
  · rintro ⟨⟨entry, hentry, rfl⟩, hne⟩
    refine ⟨entry, List.mem_filter.mpr ⟨hentry, ?_⟩, rfl⟩
    rw [bne_iff_ne]
    exact hne

theorem idsKept_touch (h : IdsKept c) : IdsKept (c.touch path now) :=
  fun id hid => ModelCache.holds_touch (h id hid)

theorem idsKept_put (h : IdsKept c) : IdsKept (c.put path now) :=
  fun id hid => holds_put_iff.mpr (.inl (h id hid))

/-- The ids of a model go with it. -/
theorem idsKept_evictLru (h : IdsKept c) : IdsKept (c.evictLru path) := by
  rw [ModelCache.evictLru]
  split
  · exact h
  · next victim _ =>
      intro id hid
      rw [List.mem_filter, bne_iff_ne] at hid
      exact holds_filter_iff.mpr ⟨h id hid.1, hid.2⟩

theorem idsKept_store {maxLoadedModels : Nat} (h : IdsKept c) :
    IdsKept (c.store maxLoadedModels path now) := by
  rw [ModelCache.store]
  split
  · exact idsKept_evictLru (idsKept_put h)
  · exact idsKept_put h

/-- An id that is registered has to find its model. -/
theorem idsKept_register_iff (h : IdsKept c) (modelId path : String) :
    IdsKept (c.register modelId path) ↔ c.holds path = true := by
  constructor
  · intro hkept
    exact hkept (modelId, path) (List.mem_cons_self ..)
  · intro hholds id hid
    rcases List.mem_cons.mp hid with rfl | hold
    · exact hholds
    · exact h id (List.mem_of_mem_filter hold)

/-- A model that is unloaded must not be that of another id. -/
theorem idsKept_unload_iff (h : IdsKept c) (modelId : String) :
    IdsKept (c.unload modelId) ↔
      ∀ own, (c.idToPath.find? fun id => id.1 == modelId) = some own →
        ∀ id ∈ c.idToPath, id.1 ≠ modelId → id.2 ≠ own.2 := by
  rw [ModelCache.unload]
  cases hfind : c.idToPath.find? fun id => id.1 == modelId with
  | none => exact iff_of_true h nofun
  | some own =>
      dsimp only
      constructor
      · rintro hkept own' hown' id hid hne
        obtain rfl := Option.some.inj hown'
        have hmem : id ∈ c.idToPath.filter fun id => id.1 != modelId := by
          rw [List.mem_filter, bne_iff_ne]
          exact ⟨hid, hne⟩
        exact (holds_filter_iff.mp (hkept id hmem)).2
      · intro hothers id hid
        rw [List.mem_filter, bne_iff_ne] at hid
        exact holds_filter_iff.mpr ⟨h id hid.1, hothers own rfl id hid.1 hid.2⟩

theorem holds_perm {byPath : List CachedModel} (hperm : byPath.Perm c.byPath) (path : String) :
    ModelCache.holds { c with byPath } path = c.holds path := by
  rw [Bool.eq_iff_iff, ModelCache.holds_eq_true, ModelCache.holds_eq_true]
  simp only [hperm.mem_iff]

end Ids

/-! ## Schedules -/

namespace CacheState

variable {k : Nat} {s s' : CacheState}

/-- After the operation every id stands for a model that is kept; and one that unloads an id
    leaves the models of all others. -/
def Keeps (k : Nat) (s : CacheState) (op : CacheOp) : Prop :=
  ∀ s', step k s op = some s' →
    IdsKept s'.cache ∧
      ∀ modelId, op = .unload modelId → ∀ id ∈ s.cache.idToPath, id.1 ≠ modelId →
        s.cache.holds id.2 = true → s'.cache.holds id.2 = true

/-- An id that is registered finds its model, and no two ids share the model of one that is
    unloaded. -/
def Careful (s : CacheState) : CacheOp → Prop
  | .register i => ∀ id, s.registering[i]? = some id → s.cache.holds id.2 = true
  | .unload modelId => ∀ own, (s.cache.idToPath.find? fun id => id.1 == modelId) = some own →
      ∀ id ∈ s.cache.idToPath, id.1 ≠ modelId → id.2 ≠ own.2
  | _ => True

instance (s : CacheState) : (op : CacheOp) → Decidable (Careful s op)
  | .register i =>
      inferInstanceAs (Decidable (∀ id ∈ s.registering[i]?, s.cache.holds id.2 = true))
  | .unload modelId =>
      inferInstanceAs (Decidable (∀ own ∈ s.cache.idToPath.find? fun id => id.1 == modelId,
        ∀ id ∈ s.cache.idToPath, id.1 ≠ modelId → id.2 ≠ own.2))
  | .lookup .. | .loaded .. | .fail _ | .giveUp _ | .rehash _ => .isTrue trivial

theorem bounded_step (hk : 0 < k) {op : CacheOp} (h : Bounded k s.cache)
    (hstep : step k s op = some s') : Bounded k s'.cache := by
  cases op with
  | lookup call now =>
      obtain rfl := Option.some.inj hstep
      split
      -- A hit only changes the moment of use.
      · refine ⟨?_, ?_⟩
        · exact (map_path_touch s.cache call.path now).symm ▸ h.paths
        · show (s.cache.byPath.map _).length ≤ k
          rw [List.length_map]
          exact h.atMost
      · exact h
  | loaded i now =>
      obtain ⟨call, -, rfl⟩ := Option.map_eq_some_iff.mp hstep
      exact bounded_store hk h
  | fail i =>
      obtain ⟨call, -, rfl⟩ := Option.map_eq_some_iff.mp hstep
      exact h
  | register i =>
      obtain ⟨id, -, rfl⟩ := Option.map_eq_some_iff.mp hstep
      exact ⟨h.paths, h.atMost⟩
  | giveUp i =>
      obtain ⟨id, -, rfl⟩ := Option.map_eq_some_iff.mp hstep
      exact h
  | unload modelId =>
      obtain rfl := Option.some.inj hstep
      exact bounded_unload h modelId
  | rehash byPath =>
      rw [step] at hstep
      split at hstep
      -- Rehashing permutes the entries, which neither bound notices.
      · next hperm =>
          obtain rfl := Option.some.inj hstep
          exact ⟨(hperm.map _).nodup_iff.mpr h.paths, hperm.length_eq ▸ h.atMost⟩
      · cases hstep

/-- **The bound.**  Whatever the calls do, no more models are kept than may be. -/
theorem bounded_of_run (hk : 0 < k) {ops : List CacheOp} (h : run (step k) empty ops = some s) :
    s.cache.byPath.length ≤ k := by
  have hstart : Bounded k empty.cache := ⟨List.nodup_nil, Nat.zero_le k⟩
  have hend := invariant_of_run (I := fun s => Bounded k s.cache)
    (fun _ _ _ => bounded_step hk) hstart h
  exact hend.atMost

/-- One operation keeps the ids exactly when it is careful. -/
theorem idsKept_step_iff (k : Nat) (s : CacheState) (op : CacheOp) (h : IdsKept s.cache) :
    (∀ s', step k s op = some s' → IdsKept s'.cache) ↔ Careful s op := by
  cases op with
  | lookup call now =>
      refine iff_of_true (fun s' hstep => ?_) trivial
      obtain rfl := Option.some.inj hstep
      split
      · exact idsKept_touch h
      · exact h
  | loaded i now =>
      refine iff_of_true (fun s' hstep => ?_) trivial
      obtain ⟨call, -, rfl⟩ := Option.map_eq_some_iff.mp hstep
      exact idsKept_store h
  | fail i =>
      refine iff_of_true (fun s' hstep => ?_) trivial
      obtain ⟨call, -, rfl⟩ := Option.map_eq_some_iff.mp hstep
      exact h
  -- Registering an id is a step that may name a path that is not held.
  | register i =>
      constructor
      · intro hkept id hid
        have hstep : step k s (.register i) = some { s with
            cache := s.cache.register id.1 id.2
            registering := s.registering.eraseIdx i } := by
          rw [step, hid]
          rfl
        exact (idsKept_register_iff h id.1 id.2).mp (hkept _ hstep)
      · intro hcareful s' hstep
        obtain ⟨id, hid, rfl⟩ := Option.map_eq_some_iff.mp hstep
        exact (idsKept_register_iff h id.1 id.2).mpr (hcareful id hid)
  | giveUp i =>
      refine iff_of_true (fun s' hstep => ?_) trivial
      obtain ⟨id, -, rfl⟩ := Option.map_eq_some_iff.mp hstep
      exact h
  -- Unloading drops a path, and every id of it has to go with it.
  | unload modelId =>
      rw [Careful, ← idsKept_unload_iff h]
      constructor
      · intro hkept
        exact hkept _ rfl
      · intro hkept s' hstep
        obtain rfl := Option.some.inj hstep
        exact hkept
  | rehash byPath =>
      refine iff_of_true (fun s' hstep => ?_) trivial
      rw [step] at hstep
      split at hstep
      · next hperm =>
          obtain rfl := Option.some.inj hstep
          intro id hid
          exact (holds_perm hperm id.2).trans (h id hid)
      · cases hstep

/-- The ids that an unloading leaves are those of the others. -/
theorem mem_unload {c : ModelCache} {modelId : String} {id : String × String}
    (hid : id ∈ c.idToPath) (hne : id.1 ≠ modelId) : id ∈ (c.unload modelId).idToPath := by
  rw [ModelCache.unload]
  split
  · exact hid
  · rw [List.mem_filter, bne_iff_ne]
    exact ⟨hid, hne⟩

/-- Where all ids are kept, an unloading has left the models of the others. -/
theorem keeps_iff (k : Nat) (s : CacheState) (op : CacheOp) :
    Keeps k s op ↔ ∀ s', step k s op = some s' → IdsKept s'.cache := by
  refine forall_congr' fun s' => imp_congr_right fun hstep => ?_
  refine ⟨And.left, fun hkept => ⟨hkept, ?_⟩⟩
  rintro modelId rfl id hid hne -
  obtain rfl := Option.some.inj hstep
  exact hkept id (mem_unload hid hne)

/-- **All schedules.**  In every run no more models are kept than may be.  All along it the
    ids stand for models that are kept, and unloading one leaves the models of the others,
    exactly when every id that is registered finds its model, and no model that is unloaded
    has another id. -/
theorem schedules_iff (k : Nat) (hk : 0 < k) (ops : List CacheOp) :
    (∀ s, run (step k) empty ops = some s → s.cache.byPath.length ≤ k) ∧
      (Along (step k) (Keeps k) empty ops ↔ Along (step k) Careful empty ops) := by
  have hstart : IdsKept empty.cache := nofun
  have hexact : Along (step k) (fun s op => ∀ s', step k s op = some s' → IdsKept s'.cache)
      empty ops ↔ Along (step k) Careful empty ops :=
    along_iff_of_exact (I := fun s => IdsKept s.cache)
      (fun s op h => idsKept_step_iff k s op h) hstart ops
  refine ⟨fun s hrun => bounded_of_run hk hrun, Iff.trans ?_ hexact⟩
  constructor
  · exact Along.mono fun s op => (keeps_iff k s op).mp
  · exact Along.mono fun s op => (keeps_iff k s op).mpr

/-! ## Two ids -/

/-- Two files are loaded at the same time, and one id is unloaded. -/
def twoFiles : List CacheOp :=
  [.lookup ⟨"llama.gguf", some "a"⟩ 0, .lookup ⟨"phi.gguf", some "b"⟩ 1, .loaded 1 2,
    .loaded 0 3, .register 1, .register 0, .unload "a"]

theorem schedules_twoFiles :
    (∀ s, run (step 2) empty twoFiles = some s → s.cache.byPath.length ≤ 2) ∧
      Along (step 2) (Keeps 2) empty twoFiles := by
  obtain ⟨hbound, hkeeps⟩ := schedules_iff 2 (by decide) twoFiles
  refine ⟨hbound, hkeeps.mpr ?_⟩
  decide

/-- Both ids are loaded from one file, one after the other, and one of them is unloaded. -/
def sharedFile : List CacheOp :=
  [.lookup ⟨"llama.gguf", some "a"⟩ 0, .loaded 0 1, .register 0,
    .lookup ⟨"llama.gguf", some "b"⟩ 2, .register 0, .unload "a"]

/-- What is left of the cache. -/
def sharedEnd : CacheState := ⟨⟨[], [("b", "llama.gguf")]⟩, [], []⟩

/-- The other id then stands for a model that is gone. -/
theorem not_schedules :
    ¬ ∀ (k : Nat) (ops : List CacheOp) (s : CacheState), 0 < k →
      run (step k) empty ops = some s → IdsKept s.cache := by
  intro h
  have hkept := h 2 sharedFile sharedEnd (by decide) rfl
  exact absurd hkept (by decide)

end CacheState

end Maranode.Inference
