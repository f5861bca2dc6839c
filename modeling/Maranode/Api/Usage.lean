/-
  Maranode.Api.Usage

  `state.rs` and `routes/chat.rs`: what the requests in flight use of the quotas of their
  workspaces.

  A request is admitted under one lock, and its `UsageGuard` gives back what it took: the
  guard goes with the handler or with the stream it returned, however these end, and then
  spawns a task that takes the lock.  The counters are `u32`s in the source; none of them
  is more than the requests in flight (`CountersBelow`).
-/
import Maranode.Lib.Run
import Maranode.Store.WorkspaceDb
import Mathlib.Algebra.BigOperators.Group.List.Basic
import Mathlib.Algebra.Order.BigOperators.Group.List

namespace Maranode.Api

open Lib Lib.Run Store

/-! ## Usage -/

/-- An entry of `active_models`. -/
structure ActiveModel where
  key : String
  sizeBytes : Nat
  inFlight : Nat
  deriving DecidableEq

/-- `active_models` is a map: no key has two entries. -/
structure WorkspaceUsage where
  concurrent : Nat
  activeModels : List ActiveModel
  keys : (activeModels.map (·.key)).Nodup

/-- The quotas of a workspace.  The database holds no `max_memory_bytes` that is no signed
    64-bit integer. -/
structure Quotas where
  maxConcurrentRequests : Option UInt32
  maxModels : Option UInt32
  maxMemoryBytes : Option UInt64
  fits : WorkspaceDb.fitsInteger maxMemoryBytes = true

/-- `u64::saturating_add`. -/
def saturatingAddU64 (a b : Nat) : Nat := min (a + b) (2 ^ 64 - 1)

def ActiveModel.bump (key : String) (m : ActiveModel) : ActiveModel :=
  if m.key = key then { m with inFlight := m.inFlight + 1 } else m

def ActiveModel.lower (key : String) (m : ActiveModel) : ActiveModel :=
  if m.key = key then { m with inFlight := m.inFlight - 1 } else m

/-- An entry that `release` leaves in the map. -/
def ActiveModel.stays (key : String) (m : ActiveModel) : Bool := m.key != key || m.inFlight != 0

theorem ActiveModel.bump_key (key : String) (m : ActiveModel) : (m.bump key).key = m.key := by
  rw [bump]
  split
  · rfl
  · rfl

theorem ActiveModel.lower_key (key : String) (m : ActiveModel) : (m.lower key).key = m.key := by
  rw [lower]
  split
  · rfl
  · rfl

theorem ActiveModel.bump_sizeBytes (key : String) (m : ActiveModel) :
    (m.bump key).sizeBytes = m.sizeBytes := by
  rw [bump]
  split
  · rfl
  · rfl

theorem ActiveModel.lower_sizeBytes (key : String) (m : ActiveModel) :
    (m.lower key).sizeBytes = m.sizeBytes := by
  rw [lower]
  split
  · rfl
  · rfl

theorem map_key_bump (key : String) (l : List ActiveModel) :
    (l.map (ActiveModel.bump key)).map (·.key) = l.map (·.key) := by
  rw [List.map_map]
  exact List.map_congr_left fun m _ => m.bump_key key

theorem map_key_lower (key : String) (l : List ActiveModel) :
    (l.map (ActiveModel.lower key)).map (·.key) = l.map (·.key) := by
  rw [List.map_map]
  exact List.map_congr_left fun m _ => m.lower_key key

namespace WorkspaceUsage

def empty : WorkspaceUsage := ⟨0, [], List.nodup_nil⟩

def memoryBytes (u : WorkspaceUsage) : Nat := (u.activeModels.map (·.sizeBytes)).sum

def modelCount (u : WorkspaceUsage) : Nat := u.activeModels.length

/-- `contains_key`. -/
def contains (u : WorkspaceUsage) (key : String) : Bool := u.activeModels.any (·.key == key)

theorem nodup_bump (u : WorkspaceUsage) (key : String) :
    ((u.activeModels.map (ActiveModel.bump key)).map (·.key)).Nodup := by
  rw [map_key_bump]
  exact u.keys

theorem nodup_concat {u : WorkspaceUsage} {key : String} (h : ¬ u.contains key = true)
    (size : Nat) : ((u.activeModels ++ [ActiveModel.mk key size 1]).map (·.key)).Nodup := by
  rw [List.map_append, List.map_singleton]
  refine List.nodup_append.mpr ⟨u.keys, List.nodup_singleton _, ?_⟩
  intro k hk k' hk' heq
  obtain ⟨m, hm, hmk⟩ := List.mem_map.mp hk
  rw [List.mem_singleton.mp hk'] at heq
  exact h (List.any_eq_true.mpr ⟨m, hm, beq_iff_eq.mpr (hmk.trans heq)⟩)

theorem nodup_lower (u : WorkspaceUsage) (key : String) :
    (((u.activeModels.map (ActiveModel.lower key)).filter
      (ActiveModel.stays key)).map (·.key)).Nodup := by
  have hsub := (List.filter_sublist (p := ActiveModel.stays key)
    (l := u.activeModels.map (ActiveModel.lower key))).map (·.key)
  rw [map_key_lower] at hsub
  exact u.keys.sublist hsub

def acquire (u : WorkspaceUsage) (key : String) (size : Nat) : WorkspaceUsage :=
  if h : u.contains key = true then
    { concurrent := u.concurrent + 1
      activeModels := u.activeModels.map (ActiveModel.bump key)
      keys := u.nodup_bump key }
  else
    { concurrent := u.concurrent + 1
      activeModels := u.activeModels ++ [⟨key, size, 1⟩]
      keys := nodup_concat h size }

def release (u : WorkspaceUsage) (key : String) : WorkspaceUsage where
  concurrent := u.concurrent - 1
  activeModels := (u.activeModels.map (ActiveModel.lower key)).filter (ActiveModel.stays key)
  keys := u.nodup_lower key

/-- The three checks of `run`, under the lock. -/
def check (u : WorkspaceUsage) (q : Quotas) (slug key : String) (size : Nat) :
    Except String Unit :=
  let isNew := !u.contains key
  if q.maxConcurrentRequests.any fun max => max.toNat ≤ u.concurrent then
    .error (s!"workspace '{slug}' concurrent request limit of " ++
      s!"{(q.maxConcurrentRequests.getD 0).toNat} exceeded")
  else if isNew && q.maxModels.any fun max => max.toNat ≤ u.modelCount then
    .error (s!"workspace '{slug}' simultaneous model limit of " ++
      s!"{(q.maxModels.getD 0).toNat} exceeded")
  else if isNew && q.maxMemoryBytes.any fun max =>
      max.toNat < saturatingAddU64 u.memoryBytes size then
    .error (s!"workspace '{slug}' memory quota of " ++
      s!"{(q.maxMemoryBytes.getD 0).toNat} bytes would be exceeded")
  else .ok ()

end WorkspaceUsage

/-! ## Requests -/

/-- Where a request is, and with it its guard: in the handler, in the stream that was
    returned, in the task that releases it, or gone. -/
inductive RequestPhase where
  | refused (err : String)
  | handling
  | streaming
  | releasing
  | released
  deriving DecidableEq

structure AdmittedRequest where
  slug : String
  modelKey : String
  phase : RequestPhase
  deriving DecidableEq

/-- The request was admitted, and what it took is not given back yet. -/
def AdmittedRequest.unreleased (r : AdmittedRequest) : Bool :=
  r.phase = .handling || r.phase = .streaming || r.phase = .releasing

/-- The request holds a slot of the workspace. -/
def AdmittedRequest.holdsSlot (slug : String) (r : AdmittedRequest) : Bool :=
  r.unreleased && r.slug == slug

/-- The request holds the model in the workspace. -/
def AdmittedRequest.holdsModel (slug key : String) (r : AdmittedRequest) : Bool :=
  r.holdsSlot slug && r.modelKey == key

/-- How the handler ends without a stream that holds the guard: it returns a response or an
    error, or the client drops it. -/
inductive HandlerExit where
  | returned
  | failed
  | dropped
  deriving DecidableEq

/-- How a stream ends. -/
inductive StreamExit where
  | finished
  | dropped
  deriving DecidableEq

inductive UsageOp where
  | admission (slug modelKey : String)
  | endHandler (i : Nat) (exit : HandlerExit)
  | stream (i : Nat)
  | endStream (i : Nat) (exit : StreamExit)
  | release (i : Nat)
  deriving DecidableEq

/-- `workspace_usage`, a slug without an entry being an empty one, and the requests. -/
structure UsageSys where
  usage : String → WorkspaceUsage
  requests : List AdmittedRequest

namespace UsageSys

def start : UsageSys := ⟨fun _ => .empty, []⟩

/-- The request, when it is in that phase. -/
def request (s : UsageSys) (i : Nat) (phase : RequestPhase) : Option AdmittedRequest :=
  s.requests[i]?.filter (·.phase = phase)

def setPhase (s : UsageSys) (i : Nat) (r : AdmittedRequest) (phase : RequestPhase) : UsageSys :=
  { s with requests := s.requests.set i { r with phase } }

variable (quotas : String → Quotas) (size : String → UInt64)

def admission (s : UsageSys) (slug modelKey : String) : UsageSys :=
  match (s.usage slug).check (quotas slug) slug modelKey (size modelKey).toNat with
  | .error e => { s with requests := s.requests ++ [⟨slug, modelKey, .refused e⟩] }
  | .ok () =>
      { usage := Function.update s.usage slug
          ((s.usage slug).acquire modelKey (size modelKey).toNat)
        requests := s.requests ++ [⟨slug, modelKey, .handling⟩] }

/-- One step of one request; `none` when it is not there. -/
def step (s : UsageSys) : UsageOp → Option UsageSys
  | .admission slug modelKey => some (s.admission quotas size slug modelKey)
  | .endHandler i _ => (s.request i .handling).map fun r => s.setPhase i r .releasing
  | .stream i => (s.request i .handling).map fun r => s.setPhase i r .streaming
  | .endStream i _ => (s.request i .streaming).map fun r => s.setPhase i r .releasing
  | .release i =>
      (s.request i .releasing).map fun r =>
        { s.setPhase i r .released with
          usage := Function.update s.usage r.slug ((s.usage r.slug).release r.modelKey) }

/-- The admitted requests of a workspace whose release has not run. -/
def unreleased (s : UsageSys) (slug : String) : Nat :=
  s.requests.countP (AdmittedRequest.holdsSlot slug)

/-- What the usage of a workspace says is what its requests use, and within its quotas. -/
structure WithinQuotas (q : Quotas) (size : String → UInt64) (u : WorkspaceUsage)
    (unreleased : Nat) : Prop where
  inFlight : u.concurrent = (u.activeModels.map (·.inFlight)).sum
  unreleased : u.concurrent = unreleased
  concurrent : ∀ max, q.maxConcurrentRequests = some max → u.concurrent ≤ max.toNat
  models : ∀ max, q.maxModels = some max → u.modelCount ≤ max.toNat
  sizes : ∀ m ∈ u.activeModels, m.sizeBytes = (size m.key).toNat
  memory : ∀ max, q.maxMemoryBytes = some max → u.memoryBytes ≤ max.toNat

/-- No counter of a workspace is more than that many requests. -/
structure CountersBelow (u : WorkspaceUsage) (requests : Nat) : Prop where
  concurrent : u.concurrent ≤ requests
  inFlight : ∀ m ∈ u.activeModels, m.inFlight ≤ requests
  models : u.modelCount ≤ requests

/-- A release finds what it counts down. -/
def Counted (s : UsageSys) : UsageOp → Prop
  | .release i => ∀ r, s.request i .releasing = some r →
      0 < (s.usage r.slug).concurrent ∧
        ∃ m ∈ (s.usage r.slug).activeModels, m.key = r.modelKey ∧ 0 < m.inFlight
  | _ => True

end UsageSys

/-! ## Sums over the active models -/

section Models

variable {key : String} {l : List ActiveModel}

/-- Without an entry of the key nothing changes. -/
theorem map_lower_of_notMem (h : ∀ m ∈ l, m.key ≠ key) : l.map (ActiveModel.lower key) = l := by
  have hsame : l.map (ActiveModel.lower key) = l.map id :=
    List.map_congr_left fun m hm => if_neg (h m hm)
  rw [hsame, List.map_id]

theorem filter_stays_of_notMem (h : ∀ m ∈ l, m.key ≠ key) :
    l.filter (ActiveModel.stays key) = l := by
  refine List.filter_eq_self.mpr fun m hm => ?_
  rw [ActiveModel.stays, bne_iff_ne.mpr (h m hm)]
  rfl

theorem map_bump_of_notMem (h : ∀ m ∈ l, m.key ≠ key) : l.map (ActiveModel.bump key) = l := by
  have hsame : l.map (ActiveModel.bump key) = l.map id :=
    List.map_congr_left fun m hm => if_neg (h m hm)
  rw [hsame, List.map_id]

theorem ne_of_nodup {m : ActiveModel} (h : ((m :: l).map (·.key)).Nodup) (hm : m.key = key) :
    ∀ m' ∈ l, m'.key ≠ key := by
  intro m' hm' heq
  rw [List.map_cons, List.nodup_cons] at h
  exact h.1 (List.mem_map.mpr ⟨m', hm', heq.trans hm.symm⟩)

/-- One request more. -/
theorem sum_bump (hkeys : (l.map (·.key)).Nodup) (hmem : ∃ m ∈ l, m.key = key) :
    ((l.map (ActiveModel.bump key)).map (·.inFlight)).sum = (l.map (·.inFlight)).sum + 1 := by
  induction l with
  | nil =>
      obtain ⟨m, hm, -⟩ := hmem
      cases hm
  | cons m l ih =>
      rw [List.map_cons, List.map_cons, List.sum_cons, List.map_cons, List.sum_cons]
      by_cases hm : m.key = key
      · have hrest := ne_of_nodup hkeys hm
        rw [map_bump_of_notMem hrest, ActiveModel.bump, if_pos hm]
        dsimp only
        omega
      · have hmem' : ∃ m ∈ l, m.key = key := by
          obtain ⟨m', hm', hkey⟩ := hmem
          rcases List.mem_cons.mp hm' with rfl | hl
          · exact absurd hkey hm
          · exact ⟨m', hl, hkey⟩
        have hsum := ih (List.nodup_cons.mp hkeys).2 hmem'
        rw [ActiveModel.bump, if_neg hm]
        omega

/-- One request less: an entry that is left out counted none. -/
theorem sum_release (hkeys : (l.map (·.key)).Nodup)
    (hmem : ∃ m ∈ l, m.key = key ∧ 0 < m.inFlight) :
    (((l.map (ActiveModel.lower key)).filter (ActiveModel.stays key)).map (·.inFlight)).sum + 1
      = (l.map (·.inFlight)).sum := by
  induction l with
  | nil =>
      obtain ⟨m, hm, -⟩ := hmem
      cases hm
  | cons m l ih =>
      rw [List.map_cons, List.map_cons, List.sum_cons]
      -- Keys are there once, so the sum goes down in one entry only.
      by_cases hm : m.key = key
      · have hrest := ne_of_nodup hkeys hm
        have hpos : 0 < m.inFlight := by
          obtain ⟨m', hm', hkey, hpos⟩ := hmem
          rcases List.mem_cons.mp hm' with rfl | hl
          · exact hpos
          · exact absurd hkey (hrest m' hl)
        rw [map_lower_of_notMem hrest, List.filter_cons, filter_stays_of_notMem hrest,
          ActiveModel.lower, if_pos hm, ActiveModel.stays]
        -- The last request of the model: the entry goes.
        by_cases hone : m.inFlight - 1 = 0
        · have hout : (m.key != key || m.inFlight - 1 != 0) = false := by
            rw [hone, hm]
            simp
          rw [hout, if_neg Bool.false_ne_true]
          omega
        · have hin : (m.key != key || m.inFlight - 1 != 0) = true := by
            rw [bne_iff_ne.mpr hone, Bool.or_true]
          rw [hin, if_pos rfl, List.map_cons, List.sum_cons]
          dsimp only
          omega
      -- The entry is further on.
      · have hmem' : ∃ m ∈ l, m.key = key ∧ 0 < m.inFlight := by
          obtain ⟨m', hm', hkey, hpos⟩ := hmem
          rcases List.mem_cons.mp hm' with rfl | hl
          · exact absurd hkey hm
          · exact ⟨m', hl, hkey, hpos⟩
        have hin : ActiveModel.stays key m = true := by
          rw [ActiveModel.stays, bne_iff_ne.mpr hm]
          rfl
        have hsum := ih (List.nodup_cons.mp hkeys).2 hmem'
        rw [ActiveModel.lower, if_neg hm, List.filter_cons, if_pos hin, List.map_cons,
          List.sum_cons]
        omega

/-- What is left keeps its sizes. -/
theorem sizes_release_sublist (key : String) (l : List ActiveModel) :
    (((l.map (ActiveModel.lower key)).filter (ActiveModel.stays key)).map (·.sizeBytes)).Sublist
      (l.map (·.sizeBytes)) := by
  have hsizes : (l.map (ActiveModel.lower key)).map (·.sizeBytes) = l.map (·.sizeBytes) := by
    rw [List.map_map]
    exact List.map_congr_left fun m _ => m.lower_sizeBytes key
  rw [← hsizes]
  exact List.filter_sublist.map _

end Models

/-! ## The checks -/

namespace WorkspaceUsage

variable {u : WorkspaceUsage} {q : Quotas} {slug key : String} {size : Nat}

theorem contains_iff : u.contains key = true ↔ ∃ m ∈ u.activeModels, m.key = key := by
  rw [contains, List.any_eq_true]
  simp only [beq_iff_eq]

/-- A sum that stays below the quota has not been cut off. -/
theorem add_le_of_saturatingAddU64 {max a b : Nat} (hmax : max < 2 ^ 63)
    (h : saturatingAddU64 a b ≤ max) : a + b ≤ max := by
  rw [saturatingAddU64] at h
  omega

theorem Quotas.memory_lt {max : UInt64} (h : q.maxMemoryBytes = some max) :
    max.toNat < 2 ^ 63 := by
  have hfits := q.fits
  rw [h] at hfits
  exact of_decide_eq_true hfits

/-- What is admitted stays within the quotas. -/
theorem check_eq_ok (h : u.check q slug key size = .ok ()) :
    (∀ max, q.maxConcurrentRequests = some max → u.concurrent + 1 ≤ max.toNat) ∧
      (¬ u.contains key = true →
        (∀ max, q.maxModels = some max → u.modelCount + 1 ≤ max.toNat) ∧
        ∀ max, q.maxMemoryBytes = some max → u.memoryBytes + size ≤ max.toNat) := by
  rw [check] at h
  split at h
  · cases h
  · next hconcurrent =>
      split at h
      · cases h
      · next hmodels =>
          split at h
          · cases h
          · next hmemory =>
              refine ⟨fun max hmax => ?_, fun hnew => ⟨fun max hmax => ?_, fun max hmax => ?_⟩⟩
              · rw [hmax, Option.any_some, decide_eq_true_eq] at hconcurrent
                omega
              · have hnew' : (!u.contains key) = true := by simpa using hnew
                rw [hmax, hnew', Option.any_some, Bool.true_and, decide_eq_true_eq] at hmodels
                omega
              · have hnew' : (!u.contains key) = true := by simpa using hnew
                rw [hmax, hnew', Option.any_some, Bool.true_and, decide_eq_true_eq] at hmemory
                exact add_le_of_saturatingAddU64 (Quotas.memory_lt hmax) (by omega)

end WorkspaceUsage

/-! ## The accounts of a workspace -/

/-- Every entry counts the requests that hold its model, and every request that holds a
    model has an entry. -/
structure Accounts (q : Quotas) (size : String → UInt64) (u : WorkspaceUsage) (slug : String)
    (requests : List AdmittedRequest) : Prop where
  within : UsageSys.WithinQuotas q size u (requests.countP (AdmittedRequest.holdsSlot slug))
  counts : ∀ m ∈ u.activeModels,
    m.inFlight = requests.countP (AdmittedRequest.holdsModel slug m.key) ∧ 0 < m.inFlight
  present : ∀ r ∈ requests, r.holdsSlot slug = true → ∃ m ∈ u.activeModels, m.key = r.modelKey

namespace Accounts

variable {q : Quotas} {size : String → UInt64} {u : WorkspaceUsage} {slug key : String}
  {requests requests' : List AdmittedRequest} {r r' : AdmittedRequest} {i : Nat}

/-- Requests that hold the same. -/
theorem of_counts (h : Accounts q size u slug requests)
    (hslots : requests'.countP (AdmittedRequest.holdsSlot slug)
      = requests.countP (AdmittedRequest.holdsSlot slug))
    (hmodels : ∀ key, requests'.countP (AdmittedRequest.holdsModel slug key)
      = requests.countP (AdmittedRequest.holdsModel slug key))
    (hmem : ∀ r' ∈ requests', r'.holdsSlot slug = true →
      ∃ r ∈ requests, r.holdsSlot slug = true ∧ r.modelKey = r'.modelKey) :
    Accounts q size u slug requests' where
  within := by
    rw [hslots]
    exact h.within
  counts := by
    intro m hm
    rw [hmodels]
    exact h.counts m hm
  present := by
    intro r' hr' hholds
    obtain ⟨r, hr, hslot, hkey⟩ := hmem r' hr' hholds
    rw [← hkey]
    exact h.present r hr hslot

/-- A request that holds nothing here. -/
theorem concat_of_not (h : Accounts q size u slug requests) (hr : r.holdsSlot slug = false) :
    Accounts q size u slug (requests ++ [r]) := by
  have hmodel : ∀ key, r.holdsModel slug key = false := by
    intro key
    rw [AdmittedRequest.holdsModel, hr]
    rfl
  apply h.of_counts
  · rw [List.countP_append, List.countP_singleton, hr]
    rfl
  · intro key
    rw [List.countP_append, List.countP_singleton, hmodel]
    rfl
  · intro r' hr' hholds
    rcases List.mem_append.mp hr' with hold | hnew
    · exact ⟨r', hold, hholds, rfl⟩
    · rw [List.mem_singleton.mp hnew, hr] at hholds
      cases hholds

/-- A request that goes on holding what it held, or nothing here. -/
theorem set_of_same (h : Accounts q size u slug requests) (hi : requests[i]? = some r)
    (hslug : r'.holdsSlot slug = r.holdsSlot slug) (hkey : r'.modelKey = r.modelKey) :
    Accounts q size u slug (requests.set i r') := by
  have hmodel : ∀ key, r'.holdsModel slug key = r.holdsModel slug key := by
    intro key
    rw [AdmittedRequest.holdsModel, AdmittedRequest.holdsModel, hslug, hkey]
  apply h.of_counts
  · have hset := Run.countP_set_add (AdmittedRequest.holdsSlot slug) hi r'
    rw [hslug] at hset
    omega
  · intro key
    have hset := Run.countP_set_add (AdmittedRequest.holdsModel slug key) hi r'
    rw [hmodel] at hset
    omega
  · intro d hd hholds
    rcases List.mem_or_eq_of_mem_set hd with hold | rfl
    · exact ⟨d, hold, hholds, rfl⟩
    · exact ⟨r, List.mem_of_getElem? hi, hslug.symm.trans hholds, hkey.symm⟩

/-- Nobody holds a model without an entry. -/
theorem countP_eq_zero (h : Accounts q size u slug requests) (hnew : ¬ u.contains key = true) :
    requests.countP (AdmittedRequest.holdsModel slug key) = 0 := by
  refine List.countP_eq_zero.mpr fun r hr hholds => hnew ?_
  rw [AdmittedRequest.holdsModel, Bool.and_eq_true, beq_iff_eq] at hholds
  obtain ⟨m, hm, hkey⟩ := h.present r hr hholds.1
  exact WorkspaceUsage.contains_iff.mpr ⟨m, hm, hkey.trans hholds.2⟩

theorem countP_slot_concat (hslot : r.holdsSlot slug = true) :
    (requests ++ [r]).countP (AdmittedRequest.holdsSlot slug)
      = requests.countP (AdmittedRequest.holdsSlot slug) + 1 := by
  rw [List.countP_append, List.countP_singleton, hslot]
  rfl

theorem countP_model_concat (hslot : r.holdsSlot slug = true) (hkey : r.modelKey = key)
    (key' : String) :
    (requests ++ [r]).countP (AdmittedRequest.holdsModel slug key')
      = requests.countP (AdmittedRequest.holdsModel slug key') + if key = key' then 1 else 0 := by
  rw [List.countP_append, List.countP_singleton, AdmittedRequest.holdsModel, hslot, hkey]
  by_cases heq : key = key'
  · simp [heq]
  · simp [heq]

/-- A request is admitted, and its model is active already. -/
theorem acquire_active (h : Accounts q size u slug requests)
    (hconcurrent : ∀ max, q.maxConcurrentRequests = some max → u.concurrent + 1 ≤ max.toNat)
    (hhas : u.contains key = true) (hslot : r.holdsSlot slug = true) (hkey : r.modelKey = key) :
    Accounts q size (u.acquire key (size key).toNat) slug (requests ++ [r]) := by
  have hunreleased := h.within.unreleased
  have hsum := h.within.inFlight
  rw [WorkspaceUsage.acquire, dif_pos hhas]
  obtain ⟨m, hm, hmkey⟩ := WorkspaceUsage.contains_iff.mp hhas
  have hsum' := sum_bump u.keys ⟨m, hm, hmkey⟩
  constructor
  · constructor
    · show u.concurrent + 1 = _
      rw [hsum', ← hsum]
    · show u.concurrent + 1 = _
      rw [countP_slot_concat hslot, ← hunreleased]
    -- The check under the lock, which counts this request.
    · exact hconcurrent
    · intro max hmax
      show (u.activeModels.map (ActiveModel.bump key)).length ≤ _
      rw [List.length_map]
      exact h.within.models max hmax
    -- Entries keep their sizes, so nothing else of the quotas changes.
    · intro m' hm'
      obtain ⟨m, hm, rfl⟩ := List.mem_map.mp hm'
      rw [ActiveModel.bump_sizeBytes, ActiveModel.bump_key]
      exact h.within.sizes m hm
    · intro max hmax
      have hsizes : (u.activeModels.map (ActiveModel.bump key)).map (·.sizeBytes)
          = u.activeModels.map (·.sizeBytes) := by
        rw [List.map_map]
        exact List.map_congr_left fun m _ => m.bump_sizeBytes key
      show (List.map _ _).sum ≤ _
      rw [hsizes]
      exact h.within.memory max hmax
  -- One more request in flight, and one more that holds this model.
  · intro m' hm'
    obtain ⟨m, hm, rfl⟩ := List.mem_map.mp hm'
    obtain ⟨hcount, hpos⟩ := h.counts m hm
    rw [ActiveModel.bump_key, countP_model_concat hslot hkey, ActiveModel.bump]
    by_cases heq : m.key = key
    · rw [if_pos heq, if_pos heq.symm]
      dsimp only
      omega
    · rw [if_neg heq, if_neg (Ne.symm heq)]
      omega
  -- Every request that holds a model finds its entry, the new one included.
  · intro r' hr' hholds
    have hentry : ∃ m ∈ u.activeModels, m.key = r'.modelKey := by
      rcases List.mem_append.mp hr' with hold | hnew
      · exact h.present r' hold hholds
      · rw [List.mem_singleton.mp hnew, hkey]
        exact ⟨m, hm, hmkey⟩
    obtain ⟨m', hm', hmkey'⟩ := hentry
    exact ⟨_, List.mem_map_of_mem hm', (m'.bump_key key).trans hmkey'⟩

/-- A request is admitted, and its model becomes active. -/
theorem acquire_new (h : Accounts q size u slug requests)
    (hconcurrent : ∀ max, q.maxConcurrentRequests = some max → u.concurrent + 1 ≤ max.toNat)
    (hmodels : ∀ max, q.maxModels = some max → u.modelCount + 1 ≤ max.toNat)
    (hmemory : ∀ max, q.maxMemoryBytes = some max →
      u.memoryBytes + (size key).toNat ≤ max.toNat)
    (hhas : ¬ u.contains key = true) (hslot : r.holdsSlot slug = true) (hkey : r.modelKey = key) :
    Accounts q size (u.acquire key (size key).toNat) slug (requests ++ [r]) := by
  have hunreleased := h.within.unreleased
  have hsum := h.within.inFlight
  -- Nobody holds a model without an entry.
  have hzero := h.countP_eq_zero hhas
  rw [WorkspaceUsage.acquire, dif_neg hhas]
  constructor
  · constructor
    · show u.concurrent + 1 = (List.map _ _).sum
      rw [List.map_append, List.sum_append, hsum]
      rfl
    · show u.concurrent + 1 = _
      rw [countP_slot_concat hslot, ← hunreleased]
    · exact hconcurrent
    · intro max hmax
      show (u.activeModels ++ [_]).length ≤ _
      rw [List.length_append]
      exact hmodels max hmax
    -- The sizes are those of the models; the new one was asked for before.
    · intro m' hm'
      rcases List.mem_append.mp hm' with hold | hnew
      · exact h.within.sizes m' hold
      · rw [List.mem_singleton.mp hnew]
    · intro max hmax
      show (List.map _ _).sum ≤ _
      rw [List.map_append, List.sum_append]
      exact hmemory max hmax
  · intro m' hm'
    rw [countP_model_concat hslot hkey]
    rcases List.mem_append.mp hm' with hold | hnew
    -- Another key, whose count is as before.
    · have hne : key ≠ m'.key := fun heq =>
        hhas (WorkspaceUsage.contains_iff.mpr ⟨m', hold, heq.symm⟩)
      rw [if_neg hne]
      exact h.counts m' hold
    · rw [List.mem_singleton.mp hnew]
      dsimp only
      rw [hzero, if_pos rfl]
      exact ⟨rfl, Nat.one_pos⟩
  · intro r' hr' hholds
    rcases List.mem_append.mp hr' with hold | hnew
    · obtain ⟨m, hm, hmkey⟩ := h.present r' hold hholds
      exact ⟨m, List.mem_append_left _ hm, hmkey⟩
    · rw [List.mem_singleton.mp hnew, hkey]
      exact ⟨_, List.mem_append_right _ (List.mem_singleton_self _), rfl⟩

/-- A request is admitted. -/
theorem acquire (h : Accounts q size u slug requests)
    (hcheck : u.check q slug key (size key).toNat = .ok ()) (hslot : r.holdsSlot slug = true)
    (hkey : r.modelKey = key) :
    Accounts q size (u.acquire key (size key).toNat) slug (requests ++ [r]) := by
  obtain ⟨hconcurrent, hroom⟩ := WorkspaceUsage.check_eq_ok hcheck
  by_cases hhas : u.contains key = true
  · exact h.acquire_active hconcurrent hhas hslot hkey
  · obtain ⟨hmodels, hmemory⟩ := hroom hhas
    exact h.acquire_new hconcurrent hmodels hmemory hhas hslot hkey

/-- Every active model has a request in flight, and these are among those of the
    workspace. -/
theorem countersBelow (h : Accounts q size u slug requests) :
    UsageSys.CountersBelow u (requests.countP (AdmittedRequest.holdsSlot slug)) where
  concurrent := h.within.unreleased.le
  inFlight m hm := by
    rw [(h.counts m hm).1]
    refine List.countP_mono_left fun r _ hr => ?_
    rw [AdmittedRequest.holdsModel, Bool.and_eq_true] at hr
    exact hr.1
  models := by
    rw [← h.within.unreleased, h.within.inFlight, WorkspaceUsage.modelCount,
      ← List.length_map (·.inFlight)]
    refine List.length_le_sum_of_one_le _ fun n hn => ?_
    obtain ⟨m, hm, rfl⟩ := List.mem_map.mp hn
    exact (h.counts m hm).2

/-- What a release finds: its request is counted, and so is its model. -/
theorem counted (h : Accounts q size u slug requests) (hi : requests[i]? = some r)
    (hslot : r.holdsSlot slug = true) :
    0 < u.concurrent ∧ ∃ m ∈ u.activeModels, m.key = r.modelKey ∧ 0 < m.inFlight := by
  have hmem : r ∈ requests := List.mem_of_getElem? hi
  constructor
  · rw [h.within.unreleased, List.countP_pos_iff]
    exact ⟨r, hmem, hslot⟩
  · obtain ⟨m, hm, hkey⟩ := h.present r hmem hslot
    exact ⟨m, hm, hkey, (h.counts m hm).2⟩

/-- The requests that hold a model, once one of them holds nothing. -/
theorem countP_model_set (hi : requests[i]? = some r) (hslot : r.holdsSlot slug = true)
    (hgone : r'.holdsSlot slug = false) (key : String) :
    (requests.set i r').countP (AdmittedRequest.holdsModel slug key)
        + (if r.modelKey = key then 1 else 0)
      = requests.countP (AdmittedRequest.holdsModel slug key) := by
  have hset := Run.countP_set_add (AdmittedRequest.holdsModel slug key) hi r'
  rw [AdmittedRequest.holdsModel, AdmittedRequest.holdsModel, hslot, hgone] at hset
  by_cases heq : r.modelKey = key
  · simpa [heq] using hset
  · have hbeq : (r.modelKey == key) = false := beq_false_of_ne heq
    simpa [hbeq, heq] using hset

theorem within_release (h : Accounts q size u slug requests) (hi : requests[i]? = some r)
    (hslot : r.holdsSlot slug = true) (hgone : r'.holdsSlot slug = false) :
    UsageSys.WithinQuotas q size (u.release r.modelKey)
      ((requests.set i r').countP (AdmittedRequest.holdsSlot slug)) := by
  -- One request less holds a slot.
  have hslots := Run.countP_set_add (AdmittedRequest.holdsSlot slug) hi r'
  rw [hslot, hgone, Bool.toNat_true, Bool.toNat_false] at hslots
  have hunreleased := h.within.unreleased
  have hsum := h.within.inFlight
  -- The release finds its entry, which has not gone down to zero.
  have hsum' := sum_release u.keys (h.counted hi hslot).2
  -- Entries go, and none grows.
  have hsizes := sizes_release_sublist r.modelKey u.activeModels
  constructor
  · show u.concurrent - 1 = (List.map _ (List.filter _ _)).sum
    omega
  · show u.concurrent - 1 = _
    omega
  · intro max hmax
    have hle := h.within.concurrent max hmax
    show u.concurrent - 1 ≤ _
    omega
  · intro max hmax
    have hle := h.within.models max hmax
    have hlen := hsizes.length_le
    rw [List.length_map, List.length_map] at hlen
    show (List.filter _ _).length ≤ _
    exact hlen.trans hle
  · intro m' hm'
    obtain ⟨m, hm, rfl⟩ := List.mem_map.mp (List.mem_of_mem_filter hm')
    rw [ActiveModel.lower_sizeBytes, ActiveModel.lower_key]
    exact h.within.sizes m hm
  · intro max hmax
    show (List.map _ (List.filter _ _)).sum ≤ _
    exact hsizes.sum_le_sum (fun _ _ => Nat.zero_le _) |>.trans (h.within.memory max hmax)

/-- A request gives back what it took. -/
theorem release (h : Accounts q size u slug requests) (hi : requests[i]? = some r)
    (hslot : r.holdsSlot slug = true) (hgone : r'.holdsSlot slug = false) :
    Accounts q size (u.release r.modelKey) slug (requests.set i r') where
  within := h.within_release hi hslot hgone
  counts := by
    intro m' hm'
    -- Entries that stay, each with one request less if it is this model's.
    obtain ⟨hm', hstays⟩ := List.mem_filter.mp hm'
    obtain ⟨m, hm, rfl⟩ := List.mem_map.mp hm'
    obtain ⟨hcount, hpos⟩ := h.counts m hm
    have hmodel := countP_model_set hi hslot hgone m.key
    rw [ActiveModel.stays, ActiveModel.lower_key] at hstays
    rw [ActiveModel.lower_key]
    rw [ActiveModel.lower] at hstays ⊢
    by_cases heq : m.key = r.modelKey
    · rw [if_pos heq] at hstays ⊢
      rw [if_pos heq.symm] at hmodel
      have hleft : m.inFlight - 1 ≠ 0 := by simpa [heq] using hstays
      dsimp only
      omega
    · rw [if_neg heq]
      rw [if_neg (Ne.symm heq)] at hmodel
      omega
  present := by
    intro d hd hholds
    -- Nobody has come to hold anything.
    have hold : d ∈ requests := by
      rcases List.mem_or_eq_of_mem_set hd with hold | rfl
      · exact hold
      · rw [hgone] at hholds
        cases hholds
    obtain ⟨m, hm, hkey⟩ := h.present d hold hholds
    -- Somebody still holds the model, so its entry stays.
    have hstill : 0 < (requests.set i r').countP (AdmittedRequest.holdsModel slug m.key) := by
      refine List.countP_pos_iff.mpr ⟨d, hd, ?_⟩
      rw [AdmittedRequest.holdsModel, hholds, hkey, beq_self_eq_true]
      rfl
    refine ⟨m.lower r.modelKey, List.mem_filter.mpr ⟨List.mem_map_of_mem hm, ?_⟩,
      (m.lower_key r.modelKey).trans hkey⟩
    have hmodel := countP_model_set hi hslot hgone m.key
    have hcount := (h.counts m hm).1
    rw [ActiveModel.stays, ActiveModel.lower]
    by_cases heq : m.key = r.modelKey
    · rw [if_pos heq.symm] at hmodel
      have hleft : m.inFlight - 1 ≠ 0 := by omega
      rw [if_pos heq]
      simpa using .inr hleft
    · rw [if_neg heq, bne_iff_ne.mpr heq]
      rfl

end Accounts

namespace UsageSys

variable {quotas : String → Quotas} {size : String → UInt64} {s s' : UsageSys} {i : Nat}
  {r : AdmittedRequest} {slug : String}

/-- The accounts of all workspaces. -/
def Accounted (quotas : String → Quotas) (size : String → UInt64) (s : UsageSys) : Prop :=
  ∀ slug, Accounts (quotas slug) size (s.usage slug) slug s.requests

theorem accounted_start : Accounted quotas size start := fun _ =>
  { within :=
      { inFlight := rfl
        unreleased := rfl
        concurrent := fun _ _ => Nat.zero_le _
        models := fun _ _ => Nat.zero_le _
        sizes := nofun
        memory := fun _ _ => Nat.zero_le _ }
    counts := nofun
    present := nofun }

theorem request_eq_some {phase : RequestPhase} :
    s.request i phase = some r ↔ s.requests[i]? = some r ∧ r.phase = phase := by
  rw [request, Option.filter_eq_some_iff, decide_eq_true_eq]

theorem accounted_admit (h : Accounted quotas size s) (slug key : String) :
    Accounted quotas size (s.admission quotas size slug key) := by
  intro slug'
  rw [admission]
  cases hcheck : (s.usage slug).check (quotas slug) slug key (size key).toNat with
  | error e => exact (h slug').concat_of_not rfl
  | ok _ =>
      by_cases heq : slug' = slug
      · subst heq
        dsimp only
        rw [Function.update_self]
        refine (h slug').acquire hcheck ?_ rfl
        rw [AdmittedRequest.holdsSlot, beq_self_eq_true]
        rfl
      · dsimp only
        rw [Function.update_of_ne heq]
        refine (h slug').concat_of_not ?_
        rw [AdmittedRequest.holdsSlot, beq_false_of_ne (Ne.symm heq), Bool.and_false]

/-- The guard moves on and holds what it held. -/
theorem accounted_setPhase (h : Accounted quotas size s) (hi : s.requests[i]? = some r)
    {phase : RequestPhase}
    (hsame : ({ r with phase } : AdmittedRequest).unreleased = r.unreleased) :
    Accounted quotas size (s.setPhase i r phase) := by
  intro slug'
  refine (h slug').set_of_same hi ?_ rfl
  rw [AdmittedRequest.holdsSlot, AdmittedRequest.holdsSlot, hsame]

theorem accounted_release (h : Accounted quotas size s) (hi : s.requests[i]? = some r)
    (hphase : r.phase = .releasing) :
    Accounted quotas size
      { s.setPhase i r .released with
        usage := Function.update s.usage r.slug ((s.usage r.slug).release r.modelKey) } := by
  have hheld : r.unreleased = true := by
    rw [AdmittedRequest.unreleased, hphase]
    rfl
  have hgone : ∀ slug, ({ r with phase := .released } : AdmittedRequest).holdsSlot slug = false :=
    fun _ => rfl
  intro slug'
  by_cases heq : slug' = r.slug
  · subst heq
    dsimp only
    rw [Function.update_self]
    refine (h r.slug).release hi ?_ (hgone r.slug)
    rw [AdmittedRequest.holdsSlot, hheld, beq_self_eq_true]
    rfl
  · dsimp only
    rw [Function.update_of_ne heq]
    refine (h slug').set_of_same hi ?_ rfl
    rw [hgone, AdmittedRequest.holdsSlot, beq_false_of_ne (Ne.symm heq), Bool.and_false]

/-- One step keeps the accounts, and a release finds what it counts down. -/
theorem accounted_step (h : Accounted quotas size s) {op : UsageOp}
    (hs' : s.step quotas size op = some s') : Accounted quotas size s' := by
  cases op with
  | admission slug key =>
      obtain rfl := Option.some.inj hs'
      exact accounted_admit h slug key
  | endHandler i _ =>
      obtain ⟨r, hr, rfl⟩ := Option.map_eq_some_iff.mp hs'
      obtain ⟨hi, hphase⟩ := request_eq_some.mp hr
      exact accounted_setPhase h hi (by simp [AdmittedRequest.unreleased, hphase])
  | stream i =>
      obtain ⟨r, hr, rfl⟩ := Option.map_eq_some_iff.mp hs'
      obtain ⟨hi, hphase⟩ := request_eq_some.mp hr
      exact accounted_setPhase h hi (by simp [AdmittedRequest.unreleased, hphase])
  | endStream i _ =>
      obtain ⟨r, hr, rfl⟩ := Option.map_eq_some_iff.mp hs'
      obtain ⟨hi, hphase⟩ := request_eq_some.mp hr
      exact accounted_setPhase h hi (by simp [AdmittedRequest.unreleased, hphase])
  | release i =>
      obtain ⟨r, hr, rfl⟩ := Option.map_eq_some_iff.mp hs'
      obtain ⟨hi, hphase⟩ := request_eq_some.mp hr
      exact accounted_release h hi hphase

theorem counted_of_accounted (h : Accounted quotas size s) (op : UsageOp) : s.Counted op := by
  cases op with
  | release i =>
      intro r hr
      obtain ⟨hi, hphase⟩ := request_eq_some.mp hr
      refine (h r.slug).counted hi ?_
      rw [AdmittedRequest.holdsSlot, AdmittedRequest.unreleased, hphase, beq_self_eq_true]
      rfl
  | _ => trivial

/-- **Quotas.**  However the requests of all workspaces are admitted and end, the usage of
    every workspace is that of its requests and within its quotas, no release finds a
    count at zero, and no counter is more than the requests in flight. -/
theorem run_within_quotas (quotas : String → Quotas) (size : String → UInt64)
    (ops : List UsageOp) :
    Along (step quotas size) Counted start ops ∧
      ∀ s, run (step quotas size) start ops = some s → ∀ slug,
        WithinQuotas (quotas slug) size (s.usage slug) (s.unreleased slug) ∧
          CountersBelow (s.usage slug) (s.unreleased slug) := by
  have hstep : ∀ s op s', Accounted quotas size s → s.step quotas size op = some s' →
      Accounted quotas size s' := fun _ _ _ h hs' => accounted_step h hs'
  constructor
  · have hall : Along (step quotas size) (fun _ _ => True) start ops :=
      along_of_forall (fun _ _ _ => trivial) start
    exact hall.imp_of_invariant (fun s op s' h _ => hstep s op s' h)
      (fun s op h _ => counted_of_accounted h op) accounted_start
  · intro s hrun slug
    have hacc : Accounted quotas size s := invariant_of_run hstep accounted_start hrun
    exact ⟨(hacc slug).within, (hacc slug).countersBelow⟩

end UsageSys

end Maranode.Api
