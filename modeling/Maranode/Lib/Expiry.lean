/-
  Maranode.Lib.Expiry

  Stores of entries that expire.

  A call sets the entry of a key, clears it or leaves it alone, so what a key holds after
  a history is what the last call that set it stored, if none cleared it since
  (`replay_eq_some_iff`).  A store may drop what has expired whenever it likes: it stays
  `Purged` from the one that drops nothing, and the two agree on everything alive.
-/
import Mathlib.Data.List.Induction
import Mathlib.Data.Option.Basic
import Mathlib.Logic.Function.Basic
import Mathlib.Order.Defs.PartialOrder

namespace Lib.Expiry

/-! ## Histories -/

section Histories

variable {ω ε : Type}

/-- What a call does to the entry of a key. -/
inductive Effect (ε : Type) where
  | set (e : ε)
  | clear
  | keep

def Effect.apply : Effect ε → Option ε → Option ε
  | .set e, _ => some e
  | .clear, _ => none
  | .keep, o => o

def Effect.map {ε' : Type} (f : ε → ε') : Effect ε → Effect ε'
  | .set e => .set (f e)
  | .clear => .clear
  | .keep => .keep

theorem Effect.map_apply {ε' : Type} (f : ε → ε') (effect : Effect ε) (o : Option ε) :
    (effect.map f).apply (o.map f) = (effect.apply o).map f := by
  cases effect with
  | set e => rfl
  | clear => rfl
  | keep => rfl

/-- A call that clears an entry, or not. -/
theorem Effect.apply_clear {ε' : Type} (f : ε → ε') (c : Prop) [Decidable c] (o : Option ε') :
    ((if c then .clear else .keep : Effect ε).map f).apply o = if c then none else o := by
  split
  · rfl
  · rfl

/-- A call that sets an entry, or not. -/
theorem Effect.apply_set {ε' : Type} (f : ε → ε') (c : Prop) [Decidable c] (e : ε)
    (o : Option ε') :
    ((if c then .set e else .keep : Effect ε).map f).apply o = if c then some (f e) else o := by
  split
  · rfl
  · rfl

variable (effect : ω → Effect ε)

/-- The entry after a history that started without one. -/
def replay (os : List ω) : Option ε := os.foldl (fun entry o => (effect o).apply entry) none

variable {effect}

theorem replay_concat (os : List ω) (o : ω) :
    replay effect (os ++ [o]) = (effect o).apply (replay effect os) := by
  rw [replay, List.foldl_append]
  rfl

theorem replay_append_of_keep (os : List ω) {os' : List ω} (h : ∀ o ∈ os', effect o = .keep) :
    replay effect (os ++ os') = replay effect os := by
  induction os' using List.reverseRecOn with
  | nil => rw [List.append_nil]
  | append_singleton os' o ih =>
      have ho : effect o = .keep := h o (List.mem_append_right _ List.mem_cons_self)
      rw [← List.append_assoc, replay_concat, ho]
      exact ih fun o' ho' => h o' (List.mem_append_left _ ho')

/-- An entry that was cleared is gone until it is set again. -/
theorem replay_eq_none_of_clear {b c : List ω} {o : ω} (ho : effect o = .clear)
    (hc : ∀ o' ∈ c, ∀ e, effect o' ≠ .set e) : replay effect (b ++ o :: c) = none := by
  induction c using List.reverseRecOn with
  | nil =>
      rw [replay_concat, ho]
      rfl
  | append_singleton c o' ih =>
      have hsplit : b ++ o :: (c ++ [o']) = (b ++ o :: c) ++ [o'] := by
        rw [List.append_assoc, List.cons_append]
      have hrest := ih fun p hp => hc p (List.mem_append_left _ hp)
      rw [hsplit, replay_concat, hrest]
      cases ho' : effect o' with
      | set e =>
          have hmem : o' ∈ c ++ [o'] := List.mem_append_right _ (List.mem_singleton_self o')
          exact absurd ho' (hc o' hmem e)
      | clear => rfl
      | keep => rfl

/-- An entry is what the last call that set it stored, when none cleared it since. -/
theorem replay_eq_some_iff {os : List ω} {e : ε} :
    replay effect os = some e ↔
      ∃ b o c, os = b ++ o :: c ∧ effect o = .set e ∧ ∀ o' ∈ c, effect o' = .keep := by
  constructor
  · intro h
    -- The last outcome sets, clears or keeps; the induction is from the back.
    induction os using List.reverseRecOn with
    | nil => cases h
    | append_singleton os o ih =>
        rw [replay_concat] at h
        cases ho : effect o with
        | set e' =>
            rw [ho] at h
            obtain rfl := Option.some.inj h
            exact ⟨os, o, [], rfl, ho, fun _ hmem => absurd hmem List.not_mem_nil⟩
        | clear =>
            rw [ho] at h
            cases h
        | keep =>
            rw [ho] at h
            obtain ⟨b, p, c, hos, hp, hc⟩ := ih h
            refine ⟨b, p, c ++ [o], by rw [hos, List.append_assoc, List.cons_append], hp, ?_⟩
            intro o' ho'
            rcases List.mem_append.mp ho' with hmem | hmem
            · exact hc o' hmem
            · rw [List.mem_singleton.mp hmem]
              exact ho
  -- Nothing behind the setting outcome changes it any more.
  · rintro ⟨b, o, c, rfl, ho, hc⟩
    have hsplit : b ++ o :: c = (b ++ [o]) ++ c := by
      rw [List.append_assoc, List.singleton_append]
    rw [hsplit, replay_append_of_keep _ hc, replay_concat, ho]
    rfl

end Histories

/-! ## Purges -/

section Purges

variable {κ ε τ : Type}

/-- `kept` lacks nothing that `full` has but entries that have expired by `now`. -/
def Purged [LE τ] (expiry : ε → τ) (now : τ) (full kept : κ → Option ε) : Prop :=
  ∀ k, kept k = full k ∨ kept k = none ∧ ∀ e, full k = some e → expiry e ≤ now

variable [Preorder τ] {expiry : ε → τ} {now now' : τ} {full kept : κ → Option ε} {k : κ} {e : ε}

theorem Purged.refl (now : τ) (full : κ → Option ε) : Purged expiry now full full :=
  fun _ => .inl rfl

theorem Purged.mono (h : Purged expiry now full kept) (hle : now ≤ now') :
    Purged expiry now' full kept := by
  intro k
  rcases h k with hsame | ⟨hnone, hold⟩
  · exact .inl hsame
  · exact .inr ⟨hnone, fun e he => le_trans (hold e he) hle⟩

/-- What is kept is an entry. -/
theorem Purged.eq_some (h : Purged expiry now full kept) (hk : kept k = some e) :
    full k = some e := by
  rcases h k with hsame | ⟨hnone, -⟩
  · rw [← hsame, hk]
  · rw [hnone] at hk
    cases hk

/-- What has not expired is kept. -/
theorem Purged.of_live (h : Purged expiry now full kept) (hk : full k = some e)
    (hlive : now < expiry e) : kept k = some e := by
  rcases h k with hsame | ⟨-, hold⟩
  · rw [hsame, hk]
  · exact absurd (hold e hk) (not_le_of_gt hlive)

/-- More is dropped, all of it expired. -/
theorem Purged.retain (h : Purged expiry now full kept) {p : κ → ε → Bool}
    (hp : ∀ k e, p k e = false → expiry e ≤ now) :
    Purged expiry now full fun k => (kept k).filter (p k) := by
  intro k
  dsimp only
  cases hk : kept k with
  | none =>
      rcases h k with hsame | ⟨-, hold⟩
      · exact .inl (by rw [← hsame, hk, Option.filter_none])
      · exact .inr ⟨Option.filter_none _, hold⟩
  | some e =>
      have hfull := h.eq_some hk
      cases hpe : p k e with
      | true => exact .inl (by rw [Option.filter_some, if_pos hpe, hfull])
      | false =>
          have hdropped : (some e).filter (p k) = none := by
            rw [Option.filter_some, hpe, if_neg Bool.false_ne_true]
          refine .inr ⟨hdropped, ?_⟩
          intro e' he'
          rw [hfull] at he'
          rw [← Option.some.inj he']
          exact hp k e hpe

/-- The same entry of both is set or cleared. -/
theorem Purged.update [DecidableEq κ] (h : Purged expiry now full kept) (k : κ) (v : Option ε) :
    Purged expiry now (Function.update full k v) (Function.update kept k v) := by
  intro j
  by_cases hj : j = k
  · rw [hj, Function.update_self, Function.update_self]
    exact .inl rfl
  · rw [Function.update_of_ne hj, Function.update_of_ne hj]
    exact h j

/-- A call has the same effects on both. -/
theorem Purged.apply (h : Purged expiry now full kept) (effect : κ → Effect ε) :
    Purged expiry now (fun k => (effect k).apply (full k)) fun k => (effect k).apply (kept k) := by
  intro k
  cases hk : effect k with
  | set e => exact .inl (by simp only [hk, Effect.apply])
  | clear => exact .inl (by simp only [hk, Effect.apply])
  | keep =>
      simp only [hk, Effect.apply]
      exact h k

end Purges

end Lib.Expiry
