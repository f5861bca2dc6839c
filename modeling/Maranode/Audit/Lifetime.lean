/-
  Maranode.Audit.Lifetime

  The numbers an audit directory hands out over its whole life.

  A running handle counts on, so numbers only repeat across a restart: `scan_tail`
  takes the next number from what it finds, and retention may have removed the
  newest entry together with everything else.
-/
import Maranode.Audit.System

namespace Maranode.Audit

open Lib Common

variable {X : External}

/-- Only the first entry of a chain points back to genesis, as long as no MAC is the
    genesis value. -/
theorem Inv.prevHmac_eq_genesis_iff {s : Sys} {L : Layout} (h : Inv X s L)
    (hmac : ∀ e ∈ s.written, e.hmac ≠ genesisHmac) {i : Nat} {e : AuditEntry}
    (hi : s.written[i]? = some e) : e.prevHmac = genesisHmac ↔ i = 0 := by
  rw [h.chained.prev_getElem? hi]
  constructor
  · intro hgen
    rcases List.eq_nil_or_concat (s.written.take i) with hnil | ⟨es, f, hes⟩
    · have hne : s.written ≠ [] := List.ne_nil_of_mem (List.mem_of_getElem? hi)
      exact (List.take_eq_nil_iff.mp hnil).resolve_right hne
    · -- The entry before it has a MAC of its own.
      rw [List.concat_eq_append] at hes
      rw [hes, HashChain.lastTag_concat] at hgen
      have hf : f ∈ s.written := List.mem_of_mem_take (i := i) (by simp [hes])
      exact absurd hgen (hmac f hf)
  · rintro rfl
    rfl

/-- **Numbers are used once.**  In every run whose restarts find the newest entry, no
    two entries written have one number, and only the first one points back to
    genesis. -/
theorem seq_unique_over_lifetime (rand : RandomKey) (ops : List Op)
    (hops : Run.Along (Sys.step X) (RestartOk X) (freshSys rand) ops) :
    ∃ s, ((Sys.fresh X rand).bind fun s₀ => Sys.run X s₀ ops) = some s ∧
      (s.written.map (·.seq)).Nodup ∧
      ((∀ e ∈ s.written, e.hmac ≠ genesisHmac) →
        ∀ i e, s.written[i]? = some e → (e.prevHmac = genesisHmac ↔ i = 0)) := by
  obtain ⟨s, hs, -, L, hinv⟩ := inv_run (X := X) rand hops
  refine ⟨s, ?_, ?_, fun hmac i e hi => hinv.prevHmac_eq_genesis_iff hmac hi⟩
  · rw [fresh_eq, Option.bind_some, hs]
  · rw [hinv.chained.map_seq]
    exact List.nodup_range'

theorem restartOk_appendTwice :
    Run.Along (Sys.step X) (RestartOk X) (freshSys zeroKey)
      (appendTwice ++ [.restart zeroKey]) := by
  refine ⟨trivial, fun s hs => ⟨trivial, fun t ht => ⟨?_, fun _ _ => trivial⟩⟩⟩
  obtain rfl : (freshSys zeroKey).wrote X (stopAt 0) = s := Option.some.inj hs
  obtain rfl : twoEntries X = t := Option.some.inj ht
  refine complete_twoEntries.tailRecorded fun e he => ?_
  obtain rfl := Option.some.inj he
  rfl

theorem hmac_ne_genesis_twoEntries :
    ∀ e ∈ (twoEntries External.sample).written, e.hmac ≠ genesisHmac := by
  decide +kernel

theorem seq_unique_over_lifetime_restart :
    ∃ s, ((Sys.fresh External.sample zeroKey).bind fun s₀ =>
        Sys.run External.sample s₀ (appendTwice ++ [.restart zeroKey])) = some s ∧
      (s.written.map (·.seq)).Nodup ∧
      ∀ i e, s.written[i]? = some e → (e.prevHmac = genesisHmac ↔ i = 0) := by
  obtain ⟨s, hs, hnodup, hgenesis⟩ :=
    seq_unique_over_lifetime (X := External.sample) zeroKey _ restartOk_appendTwice
  refine ⟨s, hs, hnodup, hgenesis ?_⟩
  -- The restart writes nothing.
  rw [fresh_eq, Option.bind_some, Sys.run, Run.run_append, ← Sys.run, run_appendTwice,
    Option.bind_some] at hs
  obtain ⟨t, ht, hnil⟩ := Option.bind_eq_some_iff.mp hs
  obtain rfl : t = s := Option.some.inj hnil
  rw [Sys.step_written ht]
  exact hmac_ne_genesis_twoEntries

/-- A restart that finds nothing recorded is at genesis again, whatever was written. -/
theorem Inv.restart_forgets {s : Sys} {L : Layout} (h : Inv X s L) (hnil : L.entries = [])
    (rand : RandomKey) :
    ∃ s', Sys.step X s (.restart rand) = some s' ∧ s'.written = s.written ∧
      s'.log.seq = 0 ∧ s'.log.lastHmac = genesisHmac := by
  obtain ⟨i, hi, -⟩ := h.holds.log
  have hload : loadOrGenerate s.disk rand = some (s.log.key, s.disk) := by
    simp [loadOrGenerate, loadKey, h.key, h.keyLen]
  rw [Sys.step, openLog, hload, Option.bind_some]
  simp only [h.holds.scanTail_empty hnil, Option.map_some, h.holds.openAppend hi]
  exact ⟨_, rfl, rfl, rfl, rfl⟩

/-- An entry is written, expires, is pruned; the daemon restarts and writes another. -/
def pruneAndRestart : List Op :=
  [.append (stopAt 0) newYearClock, .pruneLog 30 newYear, .restart zeroKey,
    .append (stopAt newYear) newYearClock]

/-- Both entries have number one and point back to genesis. -/
theorem pruneAndRestart_reuses_seq :
    ∃ s e f, ((Sys.fresh External.sample zeroKey).bind fun s₀ =>
        Sys.run External.sample s₀ pruneAndRestart) = some s ∧
      s.written = [e, f] ∧ e ≠ f ∧ e.seq = f.seq ∧
      e.prevHmac = genesisHmac ∧ f.prevHmac = genesisHmac := by
  have hfirst := inv_firstLayout (X := External.sample) zeroKey (stopAt 0)
  obtain ⟨s₁, hs₁, hinv, -⟩ := hfirst.step_prune rfl 30 newYear
  have hnil : ((firstLayout External.sample zeroKey (stopAt 0)).afterPrune 30 newYear).entries
      = [] := rfl
  obtain ⟨s₂, hs₂, hwritten, hseq, hlast⟩ := hinv.restart_forgets hnil zeroKey
  rw [Sys.step_written hs₁] at hwritten
  obtain ⟨s₃, hs₃⟩ : ∃ s₃, Sys.step External.sample s₂ (.append (stopAt newYear) newYearClock)
      = some s₃ := ⟨_, rfl⟩
  refine ⟨s₃, nextEntry External.sample (freshLog zeroKey) (stopAt 0),
    nextEntry External.sample s₂.log (stopAt newYear), ?_, ?_, ?_, ?_, rfl, hlast⟩
  · rw [fresh_eq, Option.bind_some, Sys.run, pruneAndRestart,
      Run.run_cons (step_append_freshSys ..), Run.run_cons hs₁, Run.run_cons hs₂,
      Run.run_cons hs₃, Run.run]
  · rw [Sys.step_written hs₃, hwritten]
    rfl
  · intro heq
    have hts : (0 : DateTime) = newYear := congrArg AuditEntry.ts heq
    exact absurd hts (by decide)
  · simp [nextEntry, chainEntry, hseq, freshLog]

end Maranode.Audit
