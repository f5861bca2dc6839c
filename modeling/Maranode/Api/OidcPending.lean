/-
  Maranode.Api.OidcPending

  `state.rs`: the logins between `oidc_login` and `oidc_callback`.

  An insert prunes what has expired, a take removes the entry it asks for.  Both read the
  clock under the lock of the map, so the calls of all clients are one sequence with times
  that do not decrease.
-/
import Maranode.Lib.Expiry
import Mathlib.Data.Nat.Basic

namespace Maranode.Api

open Lib.Expiry

/-! ## The map -/

/-- `std::time::Instant`, in nanoseconds. -/
abbrev Instant := Nat

/-- Ten minutes. -/
def OIDC_PENDING_TTL : Nat := 600 * 1000000000

structure OidcPendingState where
  pkceVerifierSecret : String
  nonceSecret : String
  expiresAt : Instant
  deriving DecidableEq

abbrev OidcPendingMap := String → Option OidcPendingState

def newOidcPending : OidcPendingMap := fun _ => none

/-- The entry of a login that starts at `now`. -/
def pendingEntry (pkceVerifierSecret nonceSecret : String) (now : Instant) :
    OidcPendingState where
  pkceVerifierSecret := pkceVerifierSecret
  nonceSecret := nonceSecret
  expiresAt := now + OIDC_PENDING_TTL

def oidcPendingInsert (map : OidcPendingMap)
    (stateToken pkceVerifierSecret nonceSecret : String) (now : Instant) : OidcPendingMap :=
  let guard : OidcPendingMap := fun k => (map k).filter fun v => decide (now < v.expiresAt)
  Function.update guard stateToken (some (pendingEntry pkceVerifierSecret nonceSecret now))

def oidcPendingTake (map : OidcPendingMap) (stateToken : String) (now : Instant) :
    OidcPendingMap × Option OidcPendingState :=
  match map stateToken with
  | none => (map, none)
  | some entry =>
      (Function.update map stateToken none, if entry.expiresAt < now then none else some entry)

/-! ## Calls -/

inductive OidcCall where
  | insert (stateToken pkceVerifierSecret nonceSecret : String)
  | take (stateToken : String)
  deriving DecidableEq

/-- The login a call is about. -/
def OidcCall.stateToken : OidcCall → String
  | .insert stateToken _ _ => stateToken
  | .take stateToken => stateToken

abbrev OidcCalls := List (Instant × OidcCall)

def pendingStep (map : OidcPendingMap) (call : Instant × OidcCall) : OidcPendingMap :=
  match call.2 with
  | .insert stateToken pkceVerifierSecret nonceSecret =>
      oidcPendingInsert map stateToken pkceVerifierSecret nonceSecret call.1
  | .take stateToken => (oidcPendingTake map stateToken call.1).1

def pendingAfter (calls : OidcCalls) : OidcPendingMap := calls.foldl pendingStep newOidcPending

/-- What a take at `now` returns after the calls. -/
def takenAfter (calls : OidcCalls) (stateToken : String) (now : Instant) :
    Option OidcPendingState :=
  (oidcPendingTake (pendingAfter calls) stateToken now).2

/-! ## Without the pruning -/

/-- What a call does to the entry of a token, apart from the pruning. -/
def OidcCall.effect (stateToken : String) (call : Instant × OidcCall) :
    Effect OidcPendingState :=
  if call.2.stateToken = stateToken then
    match call.2 with
    | .insert _ pkceVerifierSecret nonceSecret =>
        .set (pendingEntry pkceVerifierSecret nonceSecret call.1)
    | .take _ => .clear
  else .keep

theorem effect_eq_keep {stateToken : String} {call : Instant × OidcCall} :
    OidcCall.effect stateToken call = .keep ↔ call.2.stateToken ≠ stateToken := by
  rw [OidcCall.effect]
  split
  · next hsame =>
      refine ⟨fun hkeep => ?_, fun hne => absurd hsame hne⟩
      cases hcall : call.2 with
      | insert t v n =>
          rw [hcall] at hkeep
          cases hkeep
      | take t =>
          rw [hcall] at hkeep
          cases hkeep
  · next hne => exact ⟨fun _ => hne, fun _ => rfl⟩

/-- Only an insertion of the token sets its entry. -/
theorem effect_eq_set {stateToken : String} {call : Instant × OidcCall} {e : OidcPendingState}
    (h : OidcCall.effect stateToken call = .set e) :
    ∃ v n, call = (call.1, .insert stateToken v n) ∧ e = pendingEntry v n call.1 := by
  obtain ⟨now, call⟩ := call
  rw [OidcCall.effect] at h
  split at h
  · next hsame =>
      cases call with
      | insert t v n =>
          obtain rfl := Effect.set.inj h
          have ht : t = stateToken := hsame
          exact ⟨v, n, by rw [ht], rfl⟩
      | take t => cases h
  · cases h

theorem effect_insert (stateToken v n : String) (now : Instant) :
    OidcCall.effect stateToken (now, .insert stateToken v n) = .set (pendingEntry v n now) :=
  if_pos rfl

/-- The entries as they would be without the pruning. -/
def unpruned (calls : OidcCalls) : OidcPendingMap :=
  fun stateToken => replay (OidcCall.effect stateToken) calls

theorem unpruned_concat (calls : OidcCalls) (call : Instant × OidcCall) (k : String) :
    unpruned (calls ++ [call]) k = (OidcCall.effect k call).apply (unpruned calls k) :=
  replay_concat calls call

theorem unpruned_insert (calls : OidcCalls) (now : Instant) (t v n : String) :
    unpruned (calls ++ [(now, .insert t v n)])
      = Function.update (unpruned calls) t (some (pendingEntry v n now)) := by
  funext k
  rw [unpruned_concat]
  by_cases hk : k = t
  · rw [hk, effect_insert, Function.update_self]
    rfl
  · rw [effect_eq_keep.mpr (Ne.symm hk), Function.update_of_ne hk]
    rfl

theorem unpruned_take (calls : OidcCalls) (now : Instant) (t : String) :
    unpruned (calls ++ [(now, .take t)]) = Function.update (unpruned calls) t none := by
  funext k
  rw [unpruned_concat]
  by_cases hk : k = t
  · have heffect : OidcCall.effect k (now, .take t) = .clear := if_pos hk.symm
    rw [heffect, hk, Function.update_self]
    rfl
  · rw [effect_eq_keep.mpr (Ne.symm hk), Function.update_of_ne hk]
    rfl

theorem oidcPendingTake_fst (map : OidcPendingMap) (t : String) (now : Instant) :
    (oidcPendingTake map t now).1 = Function.update map t none := by
  rw [oidcPendingTake]
  cases hentry : map t with
  | none =>
      dsimp only
      rw [← hentry, Function.update_eq_self]
  | some entry => rfl

theorem pendingAfter_concat (calls : OidcCalls) (call : Instant × OidcCall) :
    pendingAfter (calls ++ [call]) = pendingStep (pendingAfter calls) call := by
  rw [pendingAfter, List.foldl_append]
  rfl

/-- One call keeps the map purged from the one without the pruning. -/
theorem purged_step {calls : OidcCalls} {call : Instant × OidcCall} {past : Instant}
    (h : Purged OidcPendingState.expiresAt past (unpruned calls) (pendingAfter calls))
    (hle : past ≤ call.1) :
    Purged OidcPendingState.expiresAt call.1 (unpruned (calls ++ [call]))
      (pendingAfter (calls ++ [call])) := by
  obtain ⟨now, call⟩ := call
  have hnow := h.mono hle
  rw [pendingAfter_concat]
  cases call with
  | insert t v n =>
      rw [unpruned_insert]
      refine (hnow.retain fun k e hp => ?_).update t _
      exact Nat.le_of_not_lt (of_decide_eq_false hp)
  | take t =>
      rw [unpruned_take]
      have hstep : pendingStep (pendingAfter calls) (now, .take t)
          = Function.update (pendingAfter calls) t none := oidcPendingTake_fst _ _ _
      rw [hstep]
      exact hnow.update t none

/-- After any calls the pruning has removed nothing that is alive at a later time. -/
theorem purged_pendingAfter {calls : OidcCalls} {now : Instant}
    (htimes : calls.Pairwise fun a b => a.1 ≤ b.1) (hnow : ∀ call ∈ calls, call.1 ≤ now) :
    Purged OidcPendingState.expiresAt now (unpruned calls) (pendingAfter calls) := by
  induction calls using List.reverseRecOn generalizing now with
  | nil => exact Purged.refl now _
  | append_singleton calls call ih =>
      rw [List.pairwise_append] at htimes
      obtain ⟨hcalls, -, hlast⟩ := htimes
      have hbefore := ih hcalls fun c hc => hlast c hc call (List.mem_singleton_self call)
      have hle : call.1 ≤ now := hnow call (List.mem_append_right _ (List.mem_singleton_self call))
      exact (purged_step hbefore (Nat.le_refl _)).mono hle

/-! ## Takes -/

theorem takenAfter_eq_some {calls : OidcCalls} {t : String} {now : Instant}
    {e : OidcPendingState} :
    takenAfter calls t now = some e ↔ pendingAfter calls t = some e ∧ now ≤ e.expiresAt := by
  rw [takenAfter, oidcPendingTake]
  cases hentry : pendingAfter calls t with
  | none =>
      refine ⟨fun h => (by cases h), ?_⟩
      rintro ⟨h, -⟩
      cases h
  | some entry =>
      dsimp only
      by_cases hold : entry.expiresAt < now
      · rw [if_pos hold]
        refine ⟨fun h => (by cases h), ?_⟩
        rintro ⟨heq, hle⟩
        rw [Option.some.inj heq] at hold
        exact absurd hle (Nat.not_le_of_lt hold)
      · rw [if_neg hold]
        refine ⟨fun heq => ⟨heq, ?_⟩, fun h => h.1⟩
        rw [← Option.some.inj heq]
        exact Nat.le_of_not_lt hold

/-- The calls end with an insertion of the token and calls about other tokens. -/
def LastInserted (calls : OidcCalls) (t v n : String) (at_ : Instant) : Prop :=
  ∃ b c, calls = b ++ (at_, .insert t v n) :: c ∧ ∀ call ∈ c, call.2.stateToken ≠ t

theorem unpruned_eq_some {calls : OidcCalls} {t : String} {e : OidcPendingState} :
    unpruned calls t = some e ↔
      ∃ v n at_, LastInserted calls t v n at_ ∧ e = pendingEntry v n at_ := by
  rw [unpruned, replay_eq_some_iff]
  constructor
  · rintro ⟨b, call, c, hcalls, hset, hkeep⟩
    obtain ⟨v, n, hcall, he⟩ := effect_eq_set hset
    refine ⟨v, n, call.1, ⟨b, c, ?_, fun o ho => effect_eq_keep.mp (hkeep o ho)⟩, he⟩
    rw [← hcall]
    exact hcalls
  · rintro ⟨v, n, at_, ⟨b, c, hcalls, hother⟩, he⟩
    refine ⟨b, (at_, .insert t v n), c, hcalls, ?_, fun o ho => effect_eq_keep.mpr (hother o ho)⟩
    rw [he]
    exact effect_insert t v n at_

/-- **Pending logins.**  A take returns what the latest insertion of its token stored, when
    no take asked for the token since and not later than ten minutes after it; within the
    ten minutes it does return it; and between two takes that return something for a token
    there is an insertion of it. -/
theorem pending_taken_once {calls : OidcCalls} (htimes : calls.Pairwise fun a b => a.1 ≤ b.1)
    {before after : OidcCalls} {t : String} {now : Instant}
    (hcalls : calls = before ++ (now, .take t) :: after) :
    (∀ e, takenAfter before t now = some e → ∃ v n at_, LastInserted before t v n at_ ∧
      e = pendingEntry v n at_ ∧ now ≤ at_ + OIDC_PENDING_TTL) ∧
    (∀ v n at_, LastInserted before t v n at_ → now < at_ + OIDC_PENDING_TTL →
      takenAfter before t now = some (pendingEntry v n at_)) ∧
    (∀ b at_ c, before = b ++ (at_, .take t) :: c → takenAfter before t now ≠ none →
      ∃ v n s, (s, OidcCall.insert t v n) ∈ c) := by
  rw [hcalls, List.pairwise_append] at htimes
  obtain ⟨hbefore, -, hlast⟩ := htimes
  -- What prune removes is expired, so before the end of its time an entry is what the calls
  -- made of it.
  have hpurged := purged_pendingAfter hbefore fun c hc => hlast c hc _ List.mem_cons_self
  have hreturned : ∀ e, takenAfter before t now = some e → ∃ v n at_,
      LastInserted before t v n at_ ∧ e = pendingEntry v n at_ ∧
      now ≤ at_ + OIDC_PENDING_TTL := by
    intro e he
    obtain ⟨hentry, hle⟩ := takenAfter_eq_some.mp he
    obtain ⟨v, n, at_, hinserted, rfl⟩ := unpruned_eq_some.mp (hpurged.eq_some hentry)
    exact ⟨v, n, at_, hinserted, rfl, hle⟩
  refine ⟨hreturned, ?_, ?_⟩
  · intro v n at_ hinserted hlive
    have hentry := unpruned_eq_some.mpr ⟨v, n, at_, hinserted, rfl⟩
    exact takenAfter_eq_some.mpr ⟨hpurged.of_live hentry hlive, Nat.le_of_lt hlive⟩
  · intro b at_ c hsplit hsome
    obtain ⟨e, he⟩ := Option.ne_none_iff_exists'.mp hsome
    have hentry := hpurged.eq_some (takenAfter_eq_some.mp he).1
    -- Between two takes of one state somebody inserted it again.
    by_contra hnone
    have hnoset : ∀ call ∈ c, ∀ e, OidcCall.effect t call ≠ .set e := by
      intro call hcall e hset
      obtain ⟨v, n, hinsert, -⟩ := effect_eq_set hset
      exact hnone ⟨v, n, call.1, by rw [← hinsert]; exact hcall⟩
    have hclear : OidcCall.effect t (at_, .take t) = .clear := if_pos rfl
    rw [hsplit, unpruned, replay_eq_none_of_clear hclear hnoset] at hentry
    cases hentry

/-- Two logins, of which the second prunes nothing; the first is taken within the ten
    minutes. -/
def twoLogins : OidcCalls :=
  [(0, .insert "csrf-1" "verifier-1" "nonce-1"), (5, .insert "csrf-2" "verifier-2" "nonce-2"),
    (10, .take "csrf-1")]

theorem pending_taken_once_twoLogins :
    takenAfter (twoLogins.take 2) "csrf-1" 10 = some (pendingEntry "verifier-1" "nonce-1" 0) := by
  have htimes : twoLogins.Pairwise fun a b => a.1 ≤ b.1 := by decide
  have htaken := @pending_taken_once twoLogins htimes (twoLogins.take 2) [] "csrf-1" 10 rfl
  refine htaken.2.1 "verifier-1" "nonce-1" 0 ⟨[], twoLogins.tail.take 1, rfl, ?_⟩ (by decide)
  intro call hcall
  rw [List.mem_singleton.mp hcall]
  exact of_decide_eq_true rfl

end Maranode.Api
