/-
  Maranode.Attestation.Lockout

  `seal.rs`: how often a passphrase can be tried.

  The counter file knows how many attempts failed since one succeeded, as far as five of
  them, and when the last one did (`Counted`); an attempt that is let through after five
  comes `LOCKOUT_SECS` after that.
-/
import Maranode.Attestation.Seal

namespace Maranode.Attestation

open Lib Lib.Json Lib.FileWrite

variable (X : External) (C : SealCrypto)

/-- A call for one purpose.  The sealed files and the tools may be other ones at each. -/
structure UnsealCall where
  run : UnsealRun
  tools : Tpm2Tools
  files : SealedFiles
  passphrase : String

def UnsealCall.attempt (call : UnsealCall) (file : Option Bytes) : Attempt :=
  Attestation.attempt X C call.tools call.run ⟨call.files, file⟩ call.passphrase

/-- The counter file that the call leaves. -/
def UnsealCall.next (call : UnsealCall) (file : Option Bytes) : Option Bytes :=
  (unsealKey X C call.tools call.run ⟨call.files, file⟩ call.passphrase).1.failCounter

/-- What the calls come to, one after the other. -/
def history (file : Option Bytes) : List UnsealCall → List (UnsealCall × Attempt)
  | [] => []
  | call :: calls => (call, call.attempt X C file) :: history (call.next X C file) calls

/-- The calls that got to decrypt and failed to. -/
def failedCalls (past : List (UnsealCall × Attempt)) : List UnsealCall :=
  past.filterMap fun
    | (call, .failed _) => some call
    | _ => none

variable {X C}

/-! ## The counter file -/

theorem readFailCounter_write (fc : FailCounter) (file : Option Bytes) :
    readFailCounter X (writeFailCounter X .none file fc) = fc := by
  rw [readFailCounter, writeFailCounter, write_none, Option.bind_some, counterBytes, ofSlice_toVec,
    Option.bind_some, Codec.dec_enc, Option.getD_some]

theorem toNat_saturatingSucc (n : UInt32) :
    (saturatingSucc n).toNat = min (n.toNat + 1) (2 ^ 32 - 1) := by
  rw [saturatingSucc]
  have hn := n.toNat_lt
  split
  · next h =>
      rw [UInt32.toNat_add, UInt32.toNat_one, Nat.mod_eq_of_lt h]
      omega
  · next h => omega

/-- An attempt that fails to decrypt was let through. -/
theorem checkDosLimit_of_failed {T : Tpm2Tools} {r : UnsealRun} {d : BlobDir} {w e : String}
    (h : attempt X C T r d w = .failed e) :
    checkDosLimit X d.failCounter r.checkedAt = .ok () := by
  rw [attempt] at h
  cases hcheck : checkDosLimit X d.failCounter r.checkedAt with
  | ok => rfl
  | error _ =>
      rw [hcheck] at h
      cases h

/-! ## What the counter counts -/

/-- The counter file after these failures, with no success since. -/
structure Counted (failed : List UnsealCall) (file : Option Bytes) : Prop where
  count : min failed.length UNSEAL_FAIL_LOCKOUT ≤ (readFailCounter X file).count.toNat
  last : ∀ prev, failed.getLast? = some prev →
    (readFailCounter X file).lastFailTs = prev.run.countedAt

theorem counted_nil (file : Option Bytes) : Counted (X := X) [] file where
  count := Nat.zero_le _
  last := by
    intro prev h
    cases h

/-- A failure is counted. -/
theorem Counted.failed {failed : List UnsealCall} {file : Option Bytes}
    (h : Counted (X := X) failed file) {call : UnsealCall} (hio : call.run.counter = .none)
    {e : String} (hfailed : call.attempt X C file = .failed e) :
    Counted (X := X) (failed ++ [call]) (call.next X C file) := by
  have hnext : readFailCounter X (call.next X C file) =
      ⟨saturatingSucc (readFailCounter X file).count, call.run.countedAt⟩ := by
    rw [UnsealCall.attempt] at hfailed
    rw [UnsealCall.next, unsealKey, hfailed]
    dsimp only [Attempt.counterAfter]
    rw [incrementFailCounter, hio, readFailCounter_write]
  constructor
  · have hcount := h.count
    rw [hnext, toNat_saturatingSucc, List.length_append, List.length_singleton]
    simp only [UNSEAL_FAIL_LOCKOUT] at hcount ⊢
    omega
  · intro prev hprev
    rw [List.getLast?_concat] at hprev
    rw [hnext, ← Option.some.inj hprev]

/-- A call that does not get to decrypt leaves the counter alone. -/
theorem next_of_refused {call : UnsealCall} {file : Option Bytes} {e : String}
    (h : call.attempt X C file = .refused e ∨ call.attempt X C file = .noMeta e) :
    call.next X C file = file := by
  rw [UnsealCall.attempt] at h
  rw [UnsealCall.next, unsealKey]
  rcases h with h | h <;> rw [h] <;> rfl

/-- **One call.**  What the counter knows, with one call more that does not succeed. -/
theorem Counted.next {failed : List UnsealCall} {file : Option Bytes}
    (h : Counted (X := X) failed file) {call : UnsealCall} (hio : call.run.counter = .none)
    (hnone : ∀ key, call.attempt X C file ≠ .unsealed key) :
    Counted (X := X) (failed ++ failedCalls [(call, call.attempt X C file)])
      (call.next X C file) := by
  cases hattempt : call.attempt X C file with
  | refused e =>
      rw [next_of_refused (.inl hattempt)]
      exact (List.append_nil failed).symm ▸ h
  | noMeta e =>
      rw [next_of_refused (.inr hattempt)]
      exact (List.append_nil failed).symm ▸ h
  | failed e => exact h.failed hio hattempt
  | unsealed key => exact absurd hattempt (hnone key)

theorem failedCalls_cons (d : UnsealCall × Attempt) (past : List (UnsealCall × Attempt)) :
    failedCalls (d :: past) = failedCalls [d] ++ failedCalls past := by
  rw [failedCalls, failedCalls, failedCalls, ← List.filterMap_append]
  rfl

/-- **A run.**  What the counter knows after calls none of which succeeds. -/
theorem Counted.history {during rest : List (UnsealCall × Attempt)}
    (hnone : ∀ d ∈ during, ∀ key, d.2 ≠ .unsealed key) {calls : List UnsealCall}
    (hio : ∀ call ∈ calls, call.run.counter = .none) {failed : List UnsealCall}
    {file : Option Bytes} (h : Counted (X := X) failed file)
    (hsplit : Attestation.history X C file calls = during ++ rest) :
    ∃ file' calls', Attestation.history X C file' calls' = rest ∧
      Counted (X := X) (failed ++ failedCalls during) file' := by
  induction during generalizing calls failed file with
  | nil => exact ⟨file, calls, hsplit, (List.append_nil failed).symm ▸ h⟩
  | cons d during ih =>
      cases calls with
      | nil => cases hsplit
      | cons call calls =>
          obtain ⟨rfl, hrest⟩ := List.cons.inj hsplit
          obtain ⟨hhead, htail⟩ := List.forall_mem_cons.mp hnone
          obtain ⟨hcall, hcalls⟩ := List.forall_mem_cons.mp hio
          rw [failedCalls_cons, ← List.append_assoc]
          exact ih htail hcalls (h.next hcall hhead) hrest

/-- The rest of a history is the history of the rest of the calls. -/
theorem history_eq_append {before rest : List (UnsealCall × Attempt)} {calls : List UnsealCall}
    {file : Option Bytes} (hsplit : history X C file calls = before ++ rest) :
    ∃ file' calls', history X C file' calls' = rest ∧ ∀ call ∈ calls', call ∈ calls := by
  induction before generalizing calls file with
  | nil => exact ⟨file, calls, hsplit, fun _ h => h⟩
  | cons d before ih =>
      cases calls with
      | nil => cases hsplit
      | cons call calls =>
          obtain ⟨-, hrest⟩ := List.cons.inj hsplit
          obtain ⟨file', calls', hhistory, hsub⟩ := ih hrest
          exact ⟨file', calls', hhistory, fun c hc => List.mem_cons_of_mem _ (hsub c hc)⟩

/-! ## The bound -/

/-- **Brute force.**  Once five attempts have failed since the last success, the next one
    that fails comes `LOCKOUT_SECS` after the one before it. -/
theorem failures_spaced {calls : List UnsealCall}
    (hio : ∀ call ∈ calls, call.run.counter = .none) {file : Option Bytes}
    {before during after : List (UnsealCall × Attempt)} {call prev : UnsealCall} {e : String}
    (hsplit : history X C file calls = before ++ (during ++ (call, .failed e) :: after))
    (hnone : ∀ d ∈ during, ∀ key, d.2 ≠ .unsealed key)
    (hfive : UNSEAL_FAIL_LOCKOUT ≤ (failedCalls during).length)
    (hprev : (failedCalls during).getLast? = some prev) :
    prev.run.countedAt.toNat + LOCKOUT_SECS ≤ call.run.checkedAt.toNat := by
  obtain ⟨file₁, calls₁, hsplit₁, hsub⟩ := history_eq_append hsplit
  obtain ⟨file₂, calls₂, hsplit₂, hcounted⟩ := (counted_nil file₁).history hnone
    (fun call hcall => hio call (hsub call hcall)) hsplit₁
  rw [List.nil_append] at hcounted
  cases calls₂ with
  | nil => cases hsplit₂
  | cons call₂ calls₂ =>
      obtain ⟨hpair, -⟩ := List.cons.inj hsplit₂
      obtain ⟨rfl, hfailed⟩ := Prod.mk.inj hpair
      have hcheck := checkDosLimit_eq_ok.mp (checkDosLimit_of_failed hfailed)
      have hcount := hcounted.count
      rw [Nat.min_eq_right hfive] at hcount
      have hspaced := hcheck hcount
      rw [hcounted.last prev hprev] at hspaced
      exact hspaced

theorem history_eq_zip (file : Option Bytes) (calls : List UnsealCall) :
    history X C file calls = calls.zip ((history X C file calls).map Prod.snd) := by
  induction calls generalizing file with
  | nil => rfl
  | cons call calls ih =>
      rw [history, List.map_cons, List.zip_cons_cons, ← ih]

/-- A guess at a time. -/
def guessAt (now : UInt64) : UnsealCall where
  run := ⟨now, now, .none⟩
  tools := .none
  files := holdKeyFiles
  passphrase := "guess"

def guessedWrong : Attempt :=
  .failed "software unseal failed — wrong passphrase or corrupted blob"

/-- Five wrong guesses in as many seconds, and a sixth after a minute. -/
theorem failures_spaced_sixGuesses : (guessAt 5).run.countedAt.toNat + LOCKOUT_SECS ≤
    (guessAt 65).run.checkedAt.toNat := by
  have hsplit : history External.sample SealCrypto.sample none
      (([1, 2, 3, 4, 5, 65] : List UInt64).map guessAt) =
        [] ++ (([1, 2, 3, 4, 5] : List UInt64).map (fun now => (guessAt now, guessedWrong)) ++
          (guessAt 65, guessedWrong) :: []) := by
    have hattempts : (history External.sample SealCrypto.sample none
        (([1, 2, 3, 4, 5, 65] : List UInt64).map guessAt)).map Prod.snd =
          List.replicate 6 guessedWrong := by
      decide +kernel
    rw [history_eq_zip, hattempts]
    rfl
  exact failures_spaced (by simp [guessAt]) hsplit (by simp [guessedWrong]) (by decide) rfl

end Maranode.Attestation
