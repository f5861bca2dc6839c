/-
  Maranode.Inference.Cache

  The models that the llama.cpp engine keeps in memory: by the path of their file, with the
  time of the last use, and the path that each loaded id stands for.

  A model that is kept is not read again, and when there is one too many, the least recently
  used of the others goes.  Reading a file and generating from it are parameters, and so is
  the capacity of the queue in front of the engine.
-/
import Maranode.Inference.Llama
import Mathlib.Data.List.MinMax

namespace Maranode.Inference

/-! ## The cache -/

/-- An entry of `by_path`, as far as the cache is concerned. -/
structure CachedModel where
  path : String
  lastUsed : Nat

/-- `ModelCache`, in the order the maps are walked in. -/
structure ModelCache where
  byPath : List CachedModel
  idToPath : List (String × String)

namespace ModelCache

variable (c : ModelCache) (path : String) (now : Nat)

/-- `by_path.contains_key`. -/
def holds : Bool := c.byPath.any fun entry => entry.path == path

/-- The use of a model that is kept. -/
def touch : ModelCache :=
  { c with byPath := c.byPath.map fun entry =>
      if entry.path = path then { entry with lastUsed := now } else entry }

/-- `by_path.insert`, of a model that was not kept. -/
def insert : ModelCache := { c with byPath := c.byPath ++ [⟨path, now⟩] }

def evictLru (justLoaded : String) : ModelCache :=
  match (c.byPath.filter fun entry => entry.path != justLoaded).argmin CachedModel.lastUsed with
  | none => c
  | some victim =>
      { byPath := c.byPath.filter fun entry => entry.path != victim.path
        idToPath := c.idToPath.filter fun id => id.2 != victim.path }

variable {c path now}

theorem holds_eq_true : c.holds path = true ↔ ∃ entry ∈ c.byPath, entry.path = path := by
  rw [holds, List.any_eq_true]
  simp only [beq_iff_eq]

theorem holds_touch {other : String} (h : c.holds path = true) :
    (c.touch other now).holds path = true := by
  obtain ⟨entry, hmem, hpath⟩ := holds_eq_true.mp h
  refine holds_eq_true.mpr ⟨_, List.mem_map_of_mem hmem, ?_⟩
  split
  · exact hpath
  · exact hpath

theorem holds_insert : (c.insert path now).holds path = true :=
  holds_eq_true.mpr ⟨⟨path, now⟩, List.mem_append_right _ (List.mem_singleton_self _), rfl⟩

/-- The model that was just loaded does not go. -/
theorem holds_evictLru (h : c.holds path = true) : (c.evictLru path).holds path = true := by
  rw [evictLru]
  split
  · exact h
  · next victim hvictim =>
      have hmem := List.argmin_mem hvictim
      rw [List.mem_filter, bne_iff_ne] at hmem
      obtain ⟨entry, hentry, hpath⟩ := holds_eq_true.mp h
      refine holds_eq_true.mpr ⟨entry, List.mem_filter.mpr ⟨hentry, ?_⟩, hpath⟩
      rw [bne_iff_ne, hpath]
      exact hmem.2.symm

end ModelCache

/-! ## The engine -/

structure LlamaCppEngine where
  cache : ModelCache
  maxLoadedModels : Nat

/-- What calls of the engine meet: the clock, the model files as llama.cpp reads them, the
    capacity of the queue, and what is generated. -/
structure EngineRuns where
  loadedAt : Nat
  usedAt : InferenceRequest → Nat
  loadFromFile : String → Except String Unit
  checkCapacity : InferenceRequest → Except String Unit
  generateSync : InferenceRequest → Except String InferenceResponse

namespace LlamaCppEngine

variable (e : LlamaCppEngine) (runs : EngineRuns)

/-- `get_or_load`, without the model it returns. -/
def getOrLoad (now : Nat) (path : String) : LlamaCppEngine × Except String Unit :=
  if e.cache.holds path then ({ e with cache := e.cache.touch path now }, .ok ())
  else
    match runs.loadFromFile path with
    | .error msg => (e, .error msg)
    | .ok _ =>
        let cache := e.cache.insert path now
        if e.maxLoadedModels > 0 ∧ cache.byPath.length > e.maxLoadedModels then
          ({ e with cache := cache.evictLru path }, .ok ())
        else ({ e with cache := cache }, .ok ())

/-- `load_model`. -/
def loadModel (modelId path : String) : LlamaCppEngine × Except String Unit :=
  match e.getOrLoad runs runs.loadedAt path with
  | (e', .error msg) => (e', .error msg)
  | (e', .ok _) =>
      ({ e' with cache := { e'.cache with
          idToPath := (modelId, path) :: e'.cache.idToPath.filter fun id => id.1 != modelId } },
        .ok ())

/-- `generate`, of the engine behind its queue. -/
def generate (req : InferenceRequest) : LlamaCppEngine × Except String InferenceResponse :=
  match runs.checkCapacity req with
  | .error msg => (e, .error msg)
  | .ok _ =>
      match e.getOrLoad runs (runs.usedAt req) req.modelPath with
      | (e', .error msg) => (e', .error msg)
      | (e', .ok _) => (e', runs.generateSync req)

end LlamaCppEngine

/-- What a request is answered while its model is kept. -/
def EngineRuns.answer (runs : EngineRuns) (req : InferenceRequest) :
    Except String InferenceResponse :=
  match runs.checkCapacity req with
  | .error msg => .error msg
  | .ok _ => runs.generateSync req

/-- The model of a path is kept, or can be read. -/
def LlamaCppEngine.Loads (e : LlamaCppEngine) (runs : EngineRuns) (path : String) : Prop :=
  e.cache.holds path = true ∨ runs.loadFromFile path = .ok ()

namespace LlamaCppEngine

variable {e : LlamaCppEngine} {runs : EngineRuns} {path : String} {now : Nat}

theorem getOrLoad_of_holds (h : e.cache.holds path = true) :
    e.getOrLoad runs now path = ({ e with cache := e.cache.touch path now }, .ok ()) := by
  rw [getOrLoad, if_pos h]

/-- What loads is kept, and what does not was not. -/
theorem getOrLoad_cases (e : LlamaCppEngine) (runs : EngineRuns) (now : Nat) (path : String) :
    (∃ e', e.getOrLoad runs now path = (e', .ok ()) ∧ e.Loads runs path ∧
      e'.cache.holds path = true) ∨
    ∃ msg, e.getOrLoad runs now path = (e, .error msg) ∧ ¬ e.Loads runs path ∧
      e.cache.holds path = false := by
  cases hholds : e.cache.holds path with
  | true => exact .inl ⟨_, getOrLoad_of_holds hholds, .inl hholds, ModelCache.holds_touch hholds⟩
  | false =>
      rw [getOrLoad, hholds, if_neg Bool.false_ne_true]
      cases hload : runs.loadFromFile path with
      | error msg =>
          refine .inr ⟨msg, rfl, ?_, rfl⟩
          rintro (hkept | hread)
          · rw [hholds] at hkept
            cases hkept
          · rw [hload] at hread
            cases hread
      | ok _ =>
          dsimp only
          split
          · exact .inl ⟨_, rfl, .inr hload, ModelCache.holds_evictLru ModelCache.holds_insert⟩
          · exact .inl ⟨_, rfl, .inr hload, ModelCache.holds_insert⟩

theorem loadModel_cases (e : LlamaCppEngine) (runs : EngineRuns) (modelId path : String) :
    (∃ e', e.loadModel runs modelId path = (e', .ok ()) ∧ e.Loads runs path ∧
      e'.cache.holds path = true) ∨
    ∃ msg, e.loadModel runs modelId path = (e, .error msg) ∧ ¬ e.Loads runs path ∧
      e.cache.holds path = false := by
  rw [loadModel]
  rcases e.getOrLoad_cases runs runs.loadedAt path with ⟨e', hrun, hloads, hholds⟩ |
    ⟨msg, hrun, hloads, hholds⟩
  · rw [hrun]
    exact .inl ⟨_, rfl, hloads, hholds⟩
  · rw [hrun]
    exact .inr ⟨msg, rfl, hloads, hholds⟩

/-- A request to a model that is kept is answered, and the model stays. -/
theorem generate_of_holds {req : InferenceRequest} (h : e.cache.holds req.modelPath = true) :
    ∃ e', e.generate runs req = (e', runs.answer req) ∧
      e'.cache.holds req.modelPath = true := by
  rw [generate, EngineRuns.answer]
  cases runs.checkCapacity req with
  | error msg => exact ⟨e, rfl, h⟩
  | ok _ =>
      dsimp only
      rw [getOrLoad_of_holds h]
      exact ⟨_, rfl, ModelCache.holds_touch h⟩

end LlamaCppEngine

end Maranode.Inference
