/-
  Maranode.Daemon.Baselines

  `baseline_check.rs`, and `lifecycle.rs` on the engine: a model is asked the questions of
  its baseline after it was loaded.

  The model has to be in the engine to be asked.  A check that refuses it leaves it there,
  and the two checks that end without a comparison, a signature that is wrong and a manifest
  that cannot be read, let the load go on.
-/
import Maranode.Common.Baseline
import Maranode.Daemon.Lifecycle
import Maranode.Inference.Cache

namespace Maranode.Daemon

open Lib Maranode.Common Maranode.Store Maranode.Inference

variable (X : External) (E : Ed25519) (errs : ApprovalToken.Errors)

/-! ## The checker -/

inductive DriftAction where
  | allow
  | warn
  | refuse
  deriving DecidableEq

def DriftAction.text : DriftAction → String
  | .allow => "allow"
  | .warn => "warn"
  | .refuse => "refuse"

structure BaselineChecker where
  baselinesDir : Path
  driftAction : DriftAction

/-- What a load with a baseline meets besides the database: the files, whether warnings are
    logged, and the engine's runs. -/
structure BaselineEnv where
  now : DateTime
  getFails : Nat → Option String
  tokens : TokenFiles
  baselines : Path → Option (Except String Bytes)
  warns : Bool
  runs : EngineRuns

structure CheckOutcome where
  engine : LlamaCppEngine
  logged : List (String × AuditEvent)
  /-- Nothing, when the check panics. -/
  result : Option (Except String Bool)

namespace BaselineChecker

variable (checker : BaselineChecker) (env : BaselineEnv) (id : ModelId) (path : Path)

def baselinePath (modelSha256 : String) : Path :=
  Path.join checker.baselinesDir (modelSha256.toList ++ ".mrn-baseline".toList)

/-- `Baseline::load`. -/
def loadBaseline : Except String Bytes → Except String Baseline
  | .error e => .error e
  | .ok bytes =>
      match Baseline.fromSlice X bytes with
      | none => .error (errs.json bytes)
      | some b => .ok b

/-- The request for a vector. -/
def request (vec : TestVector) (i : Nat) : InferenceRequest where
  requestId := s!"baseline-{id.display}-{i}"
  model := id
  modelPath := String.ofList path
  messages := [⟨.user, vec.prompt⟩]
  temperature := vec.temperature
  maxTokens := vec.maxTokens
  stopSequences := []
  stream := false
  seed := some vec.seed
  deterministic := true

/-- `&s[..8]` is a text. -/
def cutsAtEight (s : String) : Bool := (String.Pos.Raw.mk 8).isValid s

/-- The loop over the vectors, which counts those that passed and failed.  A warning shows
    the start of both digests. -/
def runVectors (e : LlamaCppEngine) (passed failed : Nat) :
    List (TestVector × Nat) → LlamaCppEngine × Option (Nat × Nat)
  | [] => (e, some (passed, failed))
  | (vec, i) :: rest =>
      match e.generate env.runs (request id path vec i) with
      | (e', .ok resp) =>
          let got := outputSha256 X resp.content
          if got = vec.expectedSha256 then runVectors e' (passed + 1) failed rest
          else if env.warns && !(cutsAtEight vec.expectedSha256 && cutsAtEight got) then (e', none)
          else runVectors e' passed (failed + 1) rest
      | (e', .error _) => runVectors e' passed (failed + 1) rest

def check (modelSha256 : String) (e : LlamaCppEngine) : CheckOutcome :=
  match env.baselines (checker.baselinePath modelSha256) with
  | none => ⟨e, [], some (.ok true)⟩
  | some file =>
      match loadBaseline X errs file with
      | .error msg => ⟨e, [], some (.error msg)⟩
      | .ok baseline =>
          match baseline.verify X E errs with
          | .error _ =>
              ⟨e, [("baseline", .modelDriftDetected id.display modelSha256
                (.ofNat baseline.vectors.length) "invalid_signature")], some (.ok false)⟩
          | .ok _ =>
              match runVectors X env id path e 0 0 baseline.vectors.zipIdx with
              | (e', none) => ⟨e', [], none⟩
              | (e', some (passed, failed)) =>
                  let checked := ("baseline", AuditEvent.modelBaselineChecked id.display
                    modelSha256 (.ofNat baseline.vectors.length) (.ofNat passed) (.ofNat failed)
                    baseline.signerPubkey)
                  if failed ≤ baseline.maxMismatches.toNat then ⟨e', [checked], some (.ok true)⟩
                  else
                    ⟨e', [checked, ("baseline", .modelDriftDetected id.display modelSha256
                        (.ofNat failed) checker.driftAction.text)],
                      some (match checker.driftAction with
                        | .refuse => .error (s!"BEHAVIORAL DRIFT detected for {id.display}: " ++
                            s!"{failed}/{baseline.vectors.length} vectors failed " ++
                            "— refusing to load (drift_action=refuse)")
                        | _ => .ok false)⟩

end BaselineChecker

/-! ## Loading on the engine -/

structure EngineOutcome where
  manager : LifecycleManager
  engine : LlamaCppEngine
  logged : List (String × AuditEvent)
  /-- Nothing, when the load panics. -/
  result : Option (Except String Unit)

/-- The environment of a load, of which the engine and the check are left out. -/
def BaselineEnv.toLoadEnv (env : BaselineEnv) (loadModel : String → Path → Except String Unit)
    (check : String → Path → Except String Bool) : LoadEnv where
  now := env.now
  getFails := env.getFails
  loadModel := loadModel
  check := check

namespace LifecycleManager

variable (m : LifecycleManager) (checker : BaselineChecker) (env : BaselineEnv) (id : ModelId)

/-- `blocked`, which does not ask the engine. -/
def tokenBlocked : Option (String × String) :=
  m.blocked X E errs env.tokens (env.toLoadEnv (fun _ _ => .ok ()) fun _ _ => .ok true) id

/-- The check, where there is one. -/
def checkOn (path : Path) (e : LlamaCppEngine) : CheckOutcome :=
  if m.baseline && m.audit then
    match m.store.get (env.getFails 2) id with
    | .ok (some manifest) => checker.check X E errs env id path manifest.sha256 e
    | _ => ⟨e, [], some (.ok true)⟩
  else ⟨e, [], some (.ok true)⟩

/-- `ensure_loaded`, with the engine. -/
def ensureLoadedOn (e : LlamaCppEngine) : EngineOutcome :=
  if m.loaded.contains id.display then ⟨m, e, [], some (.ok ())⟩
  else
    match m.store.blobPathVerified X (env.getFails 0) id with
    | .error msg => ⟨m, e, [], some (.error msg)⟩
    | .ok path =>
        match m.tokenBlocked X E errs env id with
        | some (sha256, reason) =>
            ⟨m, e,
              if m.audit then [("lifecycle", .modelLoadBlocked id.display sha256 reason)] else [],
              some (.error s!"model '{id.display}' load blocked: {reason}")⟩
        | none =>
            match e.loadModel env.runs id.display (String.ofList path) with
            | (e', .error msg) => ⟨m, e', [], some (.error msg)⟩
            | (e', .ok _) =>
                let checked := m.checkOn X E errs checker env id path e'
                match checked.result with
                | none => ⟨m, checked.engine, checked.logged, none⟩
                | some (.error msg) => ⟨m, checked.engine, checked.logged, some (.error msg)⟩
                | some (.ok _) =>
                    ⟨{ m with loaded := id.display :: m.loaded }, checked.engine, checked.logged,
                      some (.ok ())⟩

end LifecycleManager

/-! ## What a check comes to -/

namespace BaselineChecker

variable (checker : BaselineChecker) (env : BaselineEnv) (id : ModelId) (path : Path)

/-- The vector fails: its output has another digest, or there is none. -/
def fails (v : TestVector × Nat) : Bool :=
  match env.runs.answer (request id path v.1 v.2) with
  | .ok resp => decide (outputSha256 X resp.content ≠ v.1.expectedSha256)
  | .error _ => true

/-- The warning about the vector panics. -/
def panicsAt (v : TestVector × Nat) : Bool :=
  match env.runs.answer (request id path v.1 v.2) with
  | .ok resp =>
      decide (outputSha256 X resp.content ≠ v.1.expectedSha256) &&
        (env.warns && !(cutsAtEight v.1.expectedSha256 &&
          cutsAtEight (outputSha256 X resp.content)))
  | .error _ => false

/-- How many vectors of a baseline fail. -/
def failing (b : Baseline) : Nat := b.vectors.zipIdx.countP (fails X env id path)

/-- The baseline file of a digest holds the baseline. -/
def Has (sha256 : String) (b : Baseline) : Prop :=
  ∃ bytes, env.baselines (checker.baselinePath sha256) = some (.ok bytes) ∧
    Baseline.fromSlice X bytes = some b

/-- There is no baseline for the digest; or it is signed, it is of this digest, and no more
    vectors fail than it allows. -/
def Vouches (sha256 : String) : Prop :=
  env.baselines (checker.baselinePath sha256) = none ∨
    ∃ b, checker.Has X env sha256 b ∧ b.SelfSigned X E ∧ b.modelSha256 = sha256 ∧
      failing X env id path b ≤ b.maxMismatches.toNat

/-- There is a signed baseline for the digest, and a warning about one of its vectors
    panics. -/
def Panics (sha256 : String) : Prop :=
  ∃ b, checker.Has X env sha256 b ∧ b.SelfSigned X E ∧
    ∃ v ∈ b.vectors.zipIdx, panicsAt X env id path v = true

/-- The check lets through what the baseline vouches for, and refuses nothing: a refusal
    comes after the model was loaded. -/
def Settles (sha256 : String) (result : Option (Except String Bool)) : Prop :=
  (∀ passed, result = some (.ok passed) → checker.Vouches X E env id path sha256) ∧
    ∀ msg, result ≠ some (.error msg)

variable {X E errs checker env id path} {sha256 : String} {e : LlamaCppEngine}

theorem fails_error {v : TestVector × Nat} {msg : String}
    (h : env.runs.answer (request id path v.1 v.2) = .error msg) :
    fails X env id path v = true := by
  rw [fails, h]

theorem fails_ok {v : TestVector × Nat} {resp : InferenceResponse}
    (h : env.runs.answer (request id path v.1 v.2) = .ok resp) :
    fails X env id path v = decide (outputSha256 X resp.content ≠ v.1.expectedSha256) := by
  rw [fails, h]

theorem panicsAt_error {v : TestVector × Nat} {msg : String}
    (h : env.runs.answer (request id path v.1 v.2) = .error msg) :
    panicsAt X env id path v = false := by
  rw [panicsAt, h]

theorem panicsAt_ok {v : TestVector × Nat} {resp : InferenceResponse}
    (h : env.runs.answer (request id path v.1 v.2) = .ok resp) :
    panicsAt X env id path v =
      (decide (outputSha256 X resp.content ≠ v.1.expectedSha256) &&
        (env.warns && !(cutsAtEight v.1.expectedSha256 &&
          cutsAtEight (outputSha256 X resp.content)))) := by
  rw [panicsAt, h]

variable (X env id path) in
/-- What the loop over the vectors leaves: the model is kept, and either a warning panics or
    those that fail are counted. -/
structure Counted (failed : Nat) (vs : List (TestVector × Nat))
    (out : LlamaCppEngine × Option (Nat × Nat)) : Prop where
  keeps : out.1.cache.holds (String.ofList path) = true
  counts : (∃ v ∈ vs, panicsAt X env id path v = true) ∧ out.2 = none ∨
    (∀ v ∈ vs, panicsAt X env id path v = false) ∧
      ∃ passed, out.2 = some (passed, failed + vs.countP (fails X env id path))

/-- A vector before the others, that is counted as it should be. -/
theorem Counted.cons {failed : Nat} {v : TestVector × Nat} {vs : List (TestVector × Nat)}
    {out : LlamaCppEngine × Option (Nat × Nat)} (hquiet : panicsAt X env id path v = false)
    (h : Counted X env id path (failed + if fails X env id path v then 1 else 0) vs out) :
    Counted X env id path failed (v :: vs) out := by
  refine ⟨h.keeps, ?_⟩
  rcases h.counts with ⟨⟨w, hw, hpanics⟩, hout⟩ | ⟨hall, passed, hout⟩
  · exact .inl ⟨⟨w, List.mem_cons_of_mem _ hw, hpanics⟩, hout⟩
  · refine .inr ⟨List.forall_mem_cons.mpr ⟨hquiet, hall⟩, passed, ?_⟩
    rw [hout, List.countP_cons, Nat.add_assoc, Nat.add_comm (List.countP _ _)]

theorem counted_runVectors (vs : List (TestVector × Nat)) (passed failed : Nat)
    (hholds : e.cache.holds (String.ofList path) = true) :
    Counted X env id path failed vs (runVectors X env id path e passed failed vs) := by
  induction vs generalizing e passed failed with
  | nil => exact ⟨hholds, .inr ⟨fun v hv => absurd hv List.not_mem_nil, passed, rfl⟩⟩
  | cons v rest ih =>
      obtain ⟨vec, i⟩ := v
      -- The path is cached already, so the engine answers from it and goes on holding it.
      obtain ⟨e₁, hrun, hholds₁⟩ :=
        @LlamaCppEngine.generate_of_holds e env.runs (request id path vec i) hholds
      rw [runVectors, hrun]
      cases hanswer : env.runs.answer (request id path vec i) with
      -- An engine error is counted as a failed vector.
      | error msg =>
          have hpanics := @panicsAt_error X env id path (vec, i) msg hanswer
          have hfails := @fails_error X env id path (vec, i) msg hanswer
          dsimp only
          refine Counted.cons hpanics ?_
          rw [hfails]
          exact ih passed (failed + 1) hholds₁
      | ok resp =>
          have hfails := @fails_ok X env id path (vec, i) resp hanswer
          have hpanics := @panicsAt_ok X env id path (vec, i) resp hanswer
          dsimp only
          -- A wrong hash is a failed vector; the program may panic where it logs it.
          by_cases hsame : outputSha256 X resp.content = vec.expectedSha256
          · rw [decide_eq_false fun hne => hne hsame] at hfails hpanics
            rw [if_pos hsame]
            refine Counted.cons hpanics ?_
            rw [hfails]
            exact ih (passed + 1) failed hholds₁
          · rw [decide_eq_true hsame] at hfails hpanics
            rw [if_neg hsame]
            rw [Bool.true_and] at hpanics
            -- Slicing the two hashes for the warning panics, or the count goes on.
            split
            · next hwarned =>
                rw [hwarned] at hpanics
                exact ⟨hholds₁, .inl ⟨⟨_, List.mem_cons_self, hpanics⟩, rfl⟩⟩
            · next hwarned =>
                rw [Bool.eq_false_iff.mpr hwarned] at hpanics
                refine Counted.cons hpanics ?_
                rw [hfails]
                exact ih passed (failed + 1) hholds₁

theorem loadBaseline_eq_ok {file : Except String Bytes} {b : Baseline} :
    loadBaseline X errs file = .ok b ↔
      ∃ bytes, file = .ok bytes ∧ Baseline.fromSlice X bytes = some b := by
  rw [loadBaseline.eq_def]
  cases file with
  | error msg =>
      refine ⟨fun h => (by cases h), ?_⟩
      rintro ⟨bytes, hbytes, -⟩
      cases hbytes
  | ok bytes =>
      dsimp only
      constructor
      · intro h
        cases hparse : Baseline.fromSlice X bytes with
        | none =>
            rw [hparse] at h
            cases h
        | some b' =>
            rw [hparse] at h
            exact ⟨bytes, rfl, hparse.trans (congrArg some (Except.ok.inj h))⟩
      · rintro ⟨bytes', hbytes, hparse⟩
        rw [Except.ok.inj hbytes, hparse]

/-- A file that is there holds the baseline that is loaded from it. -/
theorem has_iff {file : Except String Bytes} {b : Baseline}
    (hfile : env.baselines (checker.baselinePath sha256) = some file) :
    checker.Has X env sha256 b ↔ loadBaseline X errs file = .ok b := by
  rw [loadBaseline_eq_ok, Has, hfile]
  simp only [Option.some.injEq]

variable {b : Baseline}

theorem Has.unique {b' : Baseline} (h : checker.Has X env sha256 b)
    (h' : checker.Has X env sha256 b') : b' = b := by
  obtain ⟨bytes, hbytes, hparse⟩ := h
  obtain ⟨bytes', hbytes', hparse'⟩ := h'
  rw [hbytes] at hbytes'
  rw [← Except.ok.inj (Option.some.inj hbytes'), hparse] at hparse'
  exact (Option.some.inj hparse').symm

theorem Has.vouches_iff (h : checker.Has X env sha256 b) :
    checker.Vouches X E env id path sha256 ↔
      b.SelfSigned X E ∧ b.modelSha256 = sha256 ∧
        failing X env id path b ≤ b.maxMismatches.toNat := by
  constructor
  · rintro (hnone | ⟨b', hhas, hgood⟩)
    · obtain ⟨bytes, hbytes, -⟩ := h
      rw [hbytes] at hnone
      cases hnone
    · rwa [h.unique hhas] at hgood
  · exact fun hgood => .inr ⟨b, h, hgood⟩

theorem Has.panics_iff (h : checker.Has X env sha256 b) :
    checker.Panics X E env id path sha256 ↔
      b.SelfSigned X E ∧ ∃ v ∈ b.vectors.zipIdx, panicsAt X env id path v = true := by
  constructor
  · rintro ⟨b', hhas, hpanics⟩
    rwa [h.unique hhas] at hpanics
  · exact fun hpanics => ⟨b, h, hpanics⟩

theorem settles_error {msg : String} :
    ¬ checker.Settles X E env id path sha256 (some (.error msg)) :=
  fun h => h.2 msg rfl

theorem settles_ok {passed : Bool} :
    checker.Settles X E env id path sha256 (some (.ok passed)) ↔
      checker.Vouches X E env id path sha256 := by
  refine ⟨fun h => h.1 passed rfl, fun h => ⟨fun _ _ => h, ?_⟩⟩
  intro msg hresult
  cases hresult

theorem settles_panicked : checker.Settles X E env id path sha256 none :=
  ⟨fun _ h => (by cases h), fun _ h => (by cases h)⟩

/-- When a check that refuses drift is right about a model that is kept; it stays kept. -/
theorem check_settles (hrefuse : checker.driftAction = .refuse)
    (hholds : e.cache.holds (String.ofList path) = true) :
    (checker.check X E errs env id path sha256 e).engine.cache.holds (String.ofList path) = true ∧
      (checker.Settles X E env id path sha256
          (checker.check X E errs env id path sha256 e).result ↔
        checker.Vouches X E env id path sha256 ∨ checker.Panics X E env id path sha256) := by
  rw [check]
  -- Without a baseline file there is nothing to refuse.
  cases hfile : env.baselines (checker.baselinePath sha256) with
  | none => exact ⟨hholds, settles_ok.trans (iff_of_true (.inl hfile) (.inl (.inl hfile)))⟩
  | some file =>
      dsimp only
      cases hload : loadBaseline X errs file with
      -- A file that cannot be read is an error, and it is no baseline of this model.
      | error msg =>
          refine ⟨hholds, iff_of_false settles_error ?_⟩
          have hnone : ∀ b, ¬ checker.Has X env sha256 b := by
            intro b hhas
            have hloaded := (@has_iff X errs checker env sha256 file b hfile).mp hhas
            rw [hload] at hloaded
            cases hloaded
          rintro ((habsent | ⟨b, hhas, -⟩) | ⟨b, hhas, -⟩)
          · rw [hfile] at habsent
            cases habsent
          · exact hnone b hhas
          · exact hnone b hhas
      | ok b =>
          have hhas : checker.Has X env sha256 b := (has_iff hfile).mpr hload
          rw [hhas.vouches_iff, hhas.panics_iff]
          dsimp only
          cases hverify : b.verify X E errs with
          -- An unverified baseline is reported with a warning and lets the load go on.
          | error msg =>
              have hunsigned : ¬ b.SelfSigned X E := by
                intro hsigned
                rw [Baseline.verify_eq_ok.mpr hsigned] at hverify
                cases hverify
              refine ⟨hholds, settles_ok.trans ?_⟩
              rw [hhas.vouches_iff]
              exact iff_of_false (fun h => hunsigned h.1)
                (fun h => hunsigned (h.elim And.left And.left))
          | ok _ =>
              have hsigned : b.SelfSigned X E := Baseline.verify_eq_ok.mp hverify
              dsimp only
              -- The vectors are run one by one, and they either panic or count the failures.
              obtain ⟨hkeeps, hcounts⟩ :=
                @counted_runVectors X env id path e b.vectors.zipIdx 0 0 hholds
              rcases hrun : runVectors X env id path e 0 0 b.vectors.zipIdx with ⟨e', out⟩
              rw [hrun] at hkeeps hcounts
              dsimp only at hkeeps hcounts
              rcases hcounts with ⟨hpanics, rfl⟩ | ⟨hquiet, passed, rfl⟩
              · exact ⟨hkeeps, iff_of_true settles_panicked (.inr ⟨hsigned, hpanics⟩)⟩
              · have hcalm : ¬ ∃ v ∈ b.vectors.zipIdx, panicsAt X env id path v = true := by
                  rintro ⟨v, hv, hpanics⟩
                  rw [hquiet v hv] at hpanics
                  cases hpanics
                have hfailing : 0 + b.vectors.zipIdx.countP (fails X env id path) =
                    failing X env id path b := Nat.zero_add _
                dsimp only
                rw [hfailing]
                -- Over the bound the action decides, and here it is to refuse.
                by_cases hle : failing X env id path b ≤ b.maxMismatches.toNat
                · rw [if_pos hle]
                  refine ⟨hkeeps, settles_ok.trans ?_⟩
                  rw [hhas.vouches_iff]
                  exact ⟨.inl, fun h => h.elim (fun hv => hv) fun hp => absurd hp.2 hcalm⟩
                · rw [if_neg hle, hrefuse]
                  exact ⟨hkeeps, iff_of_false settles_error fun h =>
                    h.elim (fun hv => hle hv.2.2) fun hp => hcalm hp.2⟩

end BaselineChecker

/-! ## What a load comes to -/

/-- The environment of a load, with what the engine says of the model, and what the check
    says of it once it is loaded. -/
def BaselineChecker.loadEnv (checker : BaselineChecker) (env : BaselineEnv) (id : ModelId)
    (e : LlamaCppEngine) : LoadEnv :=
  env.toLoadEnv (fun key path => (e.loadModel env.runs key (String.ofList path)).2)
    fun sha256 path =>
      (checker.check X E errs env id path sha256
        (e.loadModel env.runs id.display (String.ofList path)).1).result.getD (.ok true)

namespace LifecycleManager

variable (m : LifecycleManager) (checker : BaselineChecker) (env : BaselineEnv) (id : ModelId)
  (e : LlamaCppEngine)

/-- The engine has the model in memory. -/
def Keeps : Prop :=
  ∃ manifest, m.store.db id = some manifest ∧
    e.cache.holds (String.ofList (blobFile m.store.dataDir manifest.sha256)) = true

/-- The load gets to the engine. -/
def Reaches (path : Path) : Prop :=
  m.store.blobPathVerified X (env.getFails 0) id = .ok path ∧
    m.tokenBlocked X E errs env id = none

/-- A load that succeeds has the model vouched for, and one that fails leaves it neither in
    the engine nor in the list. -/
def ChecksBaseline : Prop :=
  ((m.ensureLoadedOn X E errs checker env id e).result = some (.ok ()) →
    ∃ manifest, m.store.db id = some manifest ∧
      checker.Vouches X E env id (blobFile m.store.dataDir manifest.sha256) manifest.sha256) ∧
  ∀ msg, (m.ensureLoadedOn X E errs checker env id e).result = some (.error msg) →
    ¬ m.Keeps id (m.ensureLoadedOn X E errs checker env id e).engine ∧
    (m.ensureLoadedOn X E errs checker env id e).manager.loaded.contains id.display = false

variable {X E errs m checker env id e}

theorem checkBaseline_eq {path : Path} {r : Except String Bool}
    (h : (m.checkOn X E errs checker env id path
      (e.loadModel env.runs id.display (String.ofList path)).1).result = some r) :
    m.checkBaseline (checker.loadEnv X E errs env id e) id path = r.map fun _ => () := by
  rw [checkOn] at h
  rw [checkBaseline]
  have hfails : (checker.loadEnv X E errs env id e).getFails 2 = env.getFails 2 := rfl
  rw [hfails]
  -- With the check switched off both sides let the load go on.
  split at h
  · next hset =>
      rw [if_pos hset]
      -- The row is read a second time; a failure or a missing row skips the check.
      cases hget : m.store.get (env.getFails 2) id with
      | error msg =>
          rw [hget] at h
          rw [← Option.some.inj h]
          rfl
      | ok row =>
          rw [hget] at h
          cases row with
          | none =>
              rw [← Option.some.inj h]
              rfl
          | some manifest =>
              dsimp only at h ⊢
              rw [BaselineChecker.loadEnv, BaselineEnv.toLoadEnv]
              dsimp only
              rw [h, Option.getD_some]
  · next hset =>
      rw [if_neg hset, ← Option.some.inj h]
      rfl

/-- A load that does not panic does to the manager what the load over an environment does. -/
theorem ensureLoadedOn_eq {r : Except String Unit}
    (h : (m.ensureLoadedOn X E errs checker env id e).result = some r) :
    (m.ensureLoaded X E errs env.tokens (checker.loadEnv X E errs env id e) id).manager =
        (m.ensureLoadedOn X E errs checker env id e).manager ∧
      (m.ensureLoaded X E errs env.tokens (checker.loadEnv X E errs env id e) id).result = r := by
  have hfails : (checker.loadEnv X E errs env id e).getFails 0 = env.getFails 0 := rfl
  have hblocked : m.blocked X E errs env.tokens (checker.loadEnv X E errs env id e) id =
      m.tokenBlocked X E errs env id := rfl
  rw [ensureLoaded, hfails, hblocked]
  rw [ensureLoadedOn] at h ⊢
  -- A loaded model is answered at once.
  split at h
  · next hlisted =>
      rw [if_pos hlisted, if_pos hlisted]
      exact ⟨rfl, Option.some.inj h⟩
  · next hlisted =>
      rw [if_neg hlisted, if_neg hlisted]
      -- The blob, the token and the engine's load come before the baseline.
      cases hblob : m.store.blobPathVerified X (env.getFails 0) id with
      | error msg =>
          rw [hblob] at h
          exact ⟨rfl, Option.some.inj h⟩
      | ok path =>
          rw [hblob] at h
          dsimp only at h ⊢
          cases htoken : m.tokenBlocked X E errs env id with
          | some block =>
              rw [htoken] at h
              exact ⟨rfl, Option.some.inj h⟩
          | none =>
              rw [htoken] at h
              dsimp only at h ⊢
              have hengine : (checker.loadEnv X E errs env id e).loadModel id.display path =
                  (e.loadModel env.runs id.display (String.ofList path)).2 := rfl
              have hchecked := @checkBaseline_eq X E errs m checker env id e path
              rw [hengine]
              rcases hrun : e.loadModel env.runs id.display (String.ofList path) with ⟨e', out⟩
              rw [hrun] at h hchecked
              cases out with
              | error msg => exact ⟨rfl, Option.some.inj h⟩
              | ok _ =>
                  dsimp only at h hchecked ⊢
                  -- The check does not panic here, so its result is that of the plain load.
                  cases hresult : (m.checkOn X E errs checker env id path e').result with
                  | none =>
                      rw [hresult] at h
                      cases h
                  | some r' =>
                      rw [hresult] at h
                      rw [hchecked hresult]
                      cases r' with
                      | error msg => exact ⟨rfl, Option.some.inj h⟩
                      | ok _ => exact ⟨rfl, Option.some.inj h⟩

theorem checkOn_settles {path : Path} {manifest : ModelManifest}
    (hbaseline : m.baseline = true) (haudit : m.audit = true)
    (hrefuse : checker.driftAction = .refuse) (hrow : m.store.db id = some manifest)
    (hholds : e.cache.holds (String.ofList path) = true) :
    (m.checkOn X E errs checker env id path e).engine.cache.holds (String.ofList path) = true ∧
      (checker.Settles X E env id path manifest.sha256
          (m.checkOn X E errs checker env id path e).result ↔
        checker.Vouches X E env id path manifest.sha256 ∨
          env.getFails 2 = none ∧ checker.Panics X E env id path manifest.sha256) := by
  rw [checkOn, hbaseline, haudit, Bool.and_self, if_pos rfl]
  cases hfails : env.getFails 2 with
  | some msg =>
      refine ⟨hholds, BaselineChecker.settles_ok.trans (or_iff_left ?_).symm⟩
      rintro ⟨h, -⟩
      cases h
  | none =>
      rw [ModelStore.get, hrow]
      dsimp only
      obtain ⟨hkeeps, hsettles⟩ :=
        @BaselineChecker.check_settles X E errs checker env id path manifest.sha256 e hrefuse
          hholds
      rw [hsettles]
      exact ⟨hkeeps, or_congr_right (and_iff_right rfl).symm⟩

variable (checker) in
/-- A load that does not get to the engine leaves everything as it was. -/
theorem ensureLoadedOn_stops (hload : m.loaded.contains id.display = false)
    (h : ∀ path, ¬ m.Reaches X E errs env id path) :
    ∃ logged msg, m.ensureLoadedOn X E errs checker env id e =
      ⟨m, e, logged, some (.error msg)⟩ := by
  rw [ensureLoadedOn, hload, if_neg Bool.false_ne_true]
  cases hblob : m.store.blobPathVerified X (env.getFails 0) id with
  | error msg => exact ⟨_, _, rfl⟩
  | ok path =>
      dsimp only
      cases htoken : m.tokenBlocked X E errs env id with
      | some block => exact ⟨_, _, rfl⟩
      | none => exact absurd ⟨hblob, htoken⟩ (h path)

variable (checker) in
/-- So does one of a model that the engine cannot load. -/
theorem ensureLoadedOn_unread {path : Path} (hload : m.loaded.contains id.display = false)
    (h : m.Reaches X E errs env id path) (hloads : ¬ e.Loads env.runs (String.ofList path)) :
    ∃ msg, m.ensureLoadedOn X E errs checker env id e = ⟨m, e, [], some (.error msg)⟩ := by
  rw [ensureLoadedOn, hload, if_neg Bool.false_ne_true, h.1]
  dsimp only
  rw [h.2]
  dsimp only
  rcases e.loadModel_cases env.runs id.display (String.ofList path) with
    ⟨e', -, hcan, -⟩ | ⟨msg, hrun, -, -⟩
  · exact absurd hcan hloads
  · rw [hrun]
    exact ⟨msg, rfl⟩

variable (checker) in
/-- A load that gets through the engine ends as the check does. -/
theorem ensureLoadedOn_checked {path : Path} (hload : m.loaded.contains id.display = false)
    (h : m.Reaches X E errs env id path) (hloads : e.Loads env.runs (String.ofList path)) :
    ∃ e', e'.cache.holds (String.ofList path) = true ∧
      (m.ensureLoadedOn X E errs checker env id e).engine =
        (m.checkOn X E errs checker env id path e').engine ∧
      (m.ensureLoadedOn X E errs checker env id e).result =
        (m.checkOn X E errs checker env id path e').result.map (Except.map fun _ => ()) := by
  rw [ensureLoadedOn, hload, if_neg Bool.false_ne_true, h.1]
  dsimp only
  rw [h.2]
  dsimp only
  rcases e.loadModel_cases env.runs id.display (String.ofList path) with
    ⟨e', hrun, -, hholds⟩ | ⟨msg, -, hcannot, -⟩
  · rw [hrun]
    refine ⟨e', hholds, ?_⟩
    dsimp only
    cases hresult : (m.checkOn X E errs checker env id path e').result with
    | none => exact ⟨rfl, rfl⟩
    | some r =>
        cases r with
        | error msg => exact ⟨rfl, rfl⟩
        | ok passed => exact ⟨rfl, rfl⟩
  · exact absurd hloads hcannot

theorem Keeps.holds {manifest : ModelManifest} (h : m.Keeps id e)
    (hrow : m.store.db id = some manifest) :
    e.cache.holds (String.ofList (blobFile m.store.dataDir manifest.sha256)) = true := by
  obtain ⟨manifest', hrow', hholds⟩ := h
  rw [hrow] at hrow'
  rwa [← Option.some.inj hrow'] at hholds

/-- A load that gets through the engine is checked when the check is right. -/
theorem checksBaseline_iff_settles {path : Path} {manifest : ModelManifest}
    (hload : m.loaded.contains id.display = false) (hbaseline : m.baseline = true)
    (haudit : m.audit = true) (hrefuse : checker.driftAction = .refuse)
    (hreach : m.Reaches X E errs env id path) (hloads : e.Loads env.runs (String.ofList path))
    (hrow : m.store.db id = some manifest)
    (hpath : path = blobFile m.store.dataDir manifest.sha256) :
    m.ChecksBaseline X E errs checker env id e ↔
      (checker.Vouches X E env id path manifest.sha256 ∨
        env.getFails 2 = none ∧ checker.Panics X E env id path manifest.sha256) := by
  obtain ⟨e', hholds, hengine, hresult⟩ := ensureLoadedOn_checked checker hload hreach hloads
  -- The load reaches the check, and the check keeps the blob in the engine's cache.
  obtain ⟨hkeeps, hsettles⟩ := @checkOn_settles X E errs m checker env id e' path manifest
    hbaseline haudit hrefuse hrow hholds
  have hkept : m.Keeps id (m.checkOn X E errs checker env id path e').engine := by
    rw [hpath] at hkeeps ⊢
    exact ⟨manifest, hrow, hkeeps⟩
  rw [← hsettles, ChecksBaseline, hengine, hresult]
  constructor
  -- From the outcome of the load back to what the check asked for.
  · rintro ⟨hok, herror⟩
    refine ⟨fun passed hpassed => ?_, fun msg hmsg => ?_⟩
    · rw [hpassed] at hok
      obtain ⟨manifest', hrow', hvouches⟩ := hok rfl
      rw [hrow] at hrow'
      rwa [← Option.some.inj hrow', ← hpath] at hvouches
    · rw [hmsg] at herror
      exact (herror msg rfl).1 hkept
  -- From what the check asked for to the outcome of the load.
  · rintro ⟨hok, herror⟩
    cases hchecked : (m.checkOn X E errs checker env id path e').result with
    | none => exact ⟨fun h => (by cases h), fun msg h => (by cases h)⟩
    | some r =>
        cases r with
        | error msg => exact absurd hchecked (herror msg)
        | ok passed =>
            refine ⟨fun _ => ⟨manifest, hrow, ?_⟩, fun msg h => (by cases h)⟩
            rw [← hpath]
            exact hok passed hchecked

/-- **Baselines.**  A load is checked exactly when, should it get to the engine and load the
    model there, there is nothing to hold against the model, or the check panics; and when,
    should it not get there, the engine did not have the model before. -/
theorem checksBaseline_iff (hload : m.loaded.contains id.display = false)
    (hbaseline : m.baseline = true) (haudit : m.audit = true)
    (hrefuse : checker.driftAction = .refuse) :
    m.ChecksBaseline X E errs checker env id e ↔
      (∀ path, m.Reaches X E errs env id path → e.Loads env.runs (String.ofList path) →
        ∃ manifest, m.store.db id = some manifest ∧
          (checker.Vouches X E env id path manifest.sha256 ∨
            env.getFails 2 = none ∧ checker.Panics X E env id path manifest.sha256)) ∧
      ((∀ path, ¬ m.Reaches X E errs env id path) → ¬ m.Keeps id e) := by
  -- At most one path is reached: the one that the store gives.
  by_cases hreaches : ∃ path, m.Reaches X E errs env id path
  · obtain ⟨path, hreach⟩ := hreaches
    obtain ⟨-, manifest, hrow, -, -, hpath⟩ := blobPathVerified_eq_ok.mp hreach.1
    have honly : ∀ path', m.Reaches X E errs env id path' → path' = path := by
      intro path' hreach'
      have hblob := hreach'.1
      rw [hreach.1] at hblob
      exact (Except.ok.inj hblob).symm
    have hsecond : (∀ path, ¬ m.Reaches X E errs env id path) → ¬ m.Keeps id e :=
      fun hnone => absurd hreach (hnone path)
    by_cases hloads : e.Loads env.runs (String.ofList path)
    · rw [checksBaseline_iff_settles hload hbaseline haudit hrefuse hreach hloads hrow hpath]
      constructor
      · refine fun hcond => ⟨fun path' hreach' _ => ⟨manifest, hrow, ?_⟩, hsecond⟩
        rw [honly path' hreach']
        exact hcond
      · rintro ⟨hcond, -⟩
        obtain ⟨manifest', hrow', hcond'⟩ := hcond path hreach hloads
        rw [hrow] at hrow'
        rwa [← Option.some.inj hrow'] at hcond'
    -- A path that the engine cannot load ends with an error before the check.
    · refine iff_of_true ?_ ⟨fun path' hreach' hloads' => ?_, hsecond⟩
      · obtain ⟨msg, hout⟩ := ensureLoadedOn_unread checker hload hreach hloads
        rw [ChecksBaseline, hout]
        refine ⟨fun h => (by cases h), fun msg' _ => ⟨fun hkept => hloads (.inl ?_), hload⟩⟩
        rw [hpath]
        exact hkept.holds hrow
      · rw [honly path' hreach'] at hloads'
        exact absurd hloads' hloads
  -- With no path reached the load stops before the engine.
  · have hnone : ∀ path, ¬ m.Reaches X E errs env id path :=
      fun path hreach => hreaches ⟨path, hreach⟩
    obtain ⟨logged, msg, hout⟩ := ensureLoadedOn_stops checker hload hnone
    rw [ChecksBaseline, hout]
    constructor
    · rintro ⟨-, herror⟩
      exact ⟨fun path hreach => absurd hreach (hnone path), fun _ => (herror msg rfl).1⟩
    · rintro ⟨-, hkept⟩
      exact ⟨fun h => (by cases h), fun msg' _ => ⟨hkept hnone, hload⟩⟩

/-! ## One model and one baseline file -/

def checkedManager : LifecycleManager :=
  { abcManager with baseline := true, requireApprovalToken := false }

def refusingChecker : BaselineChecker := ⟨"/data/baselines".toList, .refuse⟩

/-- A baseline of the model, to be signed: one vector, and no mismatch. -/
def abcBaseline : Baseline where
  schemaVersion := 1
  modelSha256 := abcSha256
  modelId := "abc:1"
  createdAt := 0
  vectors := [⟨"Say abc.", ⟨0, F32.finite_zero⟩, 0, 16, abcSha256⟩]
  maxMismatches := 0
  signerPubkey := ""
  signature := ""

def coldEngine : LlamaCppEngine := ⟨⟨[], []⟩, 0⟩

/-- The directory with one baseline in it, under the digest of the model, and an engine that
    answers every request alike. -/
def baselineEnv (b : Baseline) (answer : Except String InferenceResponse) : BaselineEnv where
  now := 0
  getFails _ := none
  tokens _ := none
  baselines path :=
    if path = refusingChecker.baselinePath abcSha256 then some (.ok (b.toVecPretty .sample))
    else none
  warns := true
  runs :=
    { loadedAt := 0, usedAt := fun _ => 0, loadFromFile := fun _ => .ok (),
      checkCapacity := fun _ => .ok (), generateSync := fun _ => answer }

def abcAnswer : InferenceResponse := ⟨"req-1", abcId, "abc", 3, 1, 10, .cpu, .stop⟩

variable {b : Baseline} {answer : Except String InferenceResponse}

theorem baselines_baselineEnv :
    (baselineEnv b answer).baselines (refusingChecker.baselinePath abcSha256) =
      some (.ok (b.toVecPretty .sample)) := by
  rw [baselineEnv]
  dsimp only
  rw [if_pos rfl]

theorem has_baselineEnv : refusingChecker.Has .sample (baselineEnv b answer) abcSha256 b :=
  ⟨_, baselines_baselineEnv, Baseline.fromSlice_toVecPretty _ _⟩

theorem reaches_abc :
    checkedManager.Reaches .sample tokenScheme plainErrors (baselineEnv b answer) abcId
      (blobFile abcStore.dataDir abcSha256) := by
  constructor
  · exact blobPathVerified_eq_ok.mpr ⟨rfl, abcManifest, proceeds_abc.row, proceeds_abc.digest,
      proceeds_abc.intact, rfl⟩
  · rw [tokenBlocked, blocked]
    exact if_neg Bool.false_ne_true

theorem checksBaseline_abc_iff :
    checkedManager.ChecksBaseline .sample tokenScheme plainErrors refusingChecker
        (baselineEnv b answer) abcId coldEngine ↔
      (refusingChecker.Vouches .sample tokenScheme (baselineEnv b answer) abcId
          (blobFile abcStore.dataDir abcSha256) abcManifest.sha256 ∨
        (baselineEnv b answer).getFails 2 = none ∧
          refusingChecker.Panics .sample tokenScheme (baselineEnv b answer) abcId
            (blobFile abcStore.dataDir abcSha256) abcManifest.sha256) := by
  have hload : checkedManager.loaded.contains abcId.display = false := rfl
  have hrow : checkedManager.store.db abcId = some abcManifest := abcStore_db
  have hloads : coldEngine.Loads (baselineEnv b answer).runs
      (String.ofList (blobFile abcStore.dataDir abcSha256)) := .inr rfl
  have hpath : blobFile abcStore.dataDir abcSha256 =
      blobFile checkedManager.store.dataDir abcManifest.sha256 := rfl
  have hbaseline : checkedManager.baseline = true := rfl
  have haudit : checkedManager.audit = true := rfl
  have hrefuse : refusingChecker.driftAction = .refuse := rfl
  exact checksBaseline_iff_settles hload hbaseline haudit hrefuse reaches_abc hloads hrow hpath

/-- The signed baseline. -/
def signedBaseline : Baseline := abcBaseline.sign .sample tokenScheme officerKey

theorem selfSigned_signedBaseline : signedBaseline.SelfSigned .sample tokenScheme :=
  Baseline.selfSigned_sign abcBaseline officerKey

theorem outputSha256_abc : outputSha256 .sample "abc" = abcSha256 := by
  have hbytes : Text.encode "abc".toList = abcBytes := by decide
  rw [outputSha256, hbytes, sha256_abcBytes]

theorem failing_abcAnswer (path : Path) :
    BaselineChecker.failing .sample (baselineEnv signedBaseline (.ok abcAnswer)) abcId path
      signedBaseline = 0 := by
  have hvectors : signedBaseline.vectors = abcBaseline.vectors := rfl
  have hanswer : ∀ req, (baselineEnv signedBaseline (.ok abcAnswer)).runs.answer req =
      .ok abcAnswer := fun _ => rfl
  have hsame : outputSha256 .sample abcAnswer.content = abcSha256 := outputSha256_abc
  rw [BaselineChecker.failing, hvectors, abcBaseline, List.zipIdx_singleton, List.countP_singleton,
    BaselineChecker.fails_ok (hanswer _), hsame]
  decide

theorem failing_error (path : Path) (msg : String) :
    BaselineChecker.failing .sample (baselineEnv signedBaseline (.error msg)) abcId path
      signedBaseline = 1 := by
  have hvectors : signedBaseline.vectors = abcBaseline.vectors := rfl
  have hanswer : ∀ req, (baselineEnv signedBaseline (.error msg)).runs.answer req =
      .error msg := fun _ => rfl
  rw [BaselineChecker.failing, hvectors, abcBaseline, List.zipIdx_singleton, List.countP_singleton,
    BaselineChecker.fails_error (hanswer _), if_pos rfl]

/-- With the signed baseline and the output it names, the load is checked. -/
theorem checksBaseline_signed :
    checkedManager.ChecksBaseline .sample tokenScheme plainErrors refusingChecker
      (baselineEnv signedBaseline (.ok abcAnswer)) abcId coldEngine := by
  have hload : checkedManager.loaded.contains abcId.display = false := rfl
  have hbaseline : checkedManager.baseline = true := rfl
  have haudit : checkedManager.audit = true := rfl
  have hrefuse : refusingChecker.driftAction = .refuse := rfl
  refine (checksBaseline_iff hload hbaseline haudit hrefuse).mpr
    ⟨fun path _ _ => ⟨abcManifest, abcStore_db, .inl (.inr ?_)⟩,
      fun hnone => absurd reaches_abc (hnone _)⟩
  refine ⟨signedBaseline, has_baselineEnv, selfSigned_signedBaseline, rfl, ?_⟩
  rw [failing_abcAnswer]
  exact Nat.zero_le _

/-- A model that drifted is refused, and stays in the engine; and with a baseline that
    nobody signed, the load succeeds. -/
theorem not_checksBaseline :
    ¬ checkedManager.ChecksBaseline .sample tokenScheme plainErrors refusingChecker
      (baselineEnv signedBaseline (.error "decode failed")) abcId coldEngine ∧
    ¬ checkedManager.ChecksBaseline .sample tokenScheme plainErrors refusingChecker
      (baselineEnv abcBaseline (.ok abcAnswer)) abcId coldEngine := by
  have hhas : ∀ {b answer}, refusingChecker.Has .sample (baselineEnv b answer)
      abcManifest.sha256 b := has_baselineEnv
  rw [checksBaseline_abc_iff, checksBaseline_abc_iff, hhas.vouches_iff, hhas.vouches_iff,
    hhas.panics_iff, hhas.panics_iff]
  constructor
  · rintro (⟨-, -, hfailing⟩ | ⟨-, -, v, -, hpanics⟩)
    · rw [failing_error] at hfailing
      exact absurd hfailing (by decide)
    · have hquiet := @BaselineChecker.panicsAt_error .sample
        (baselineEnv signedBaseline (.error "decode failed")) abcId
        (blobFile abcStore.dataDir abcSha256) v "decode failed" rfl
      rw [hquiet] at hpanics
      cases hpanics
  · have hunsigned : ¬ abcBaseline.SelfSigned .sample tokenScheme := by
      rintro ⟨vk, -, hvk, -⟩
      have hempty : Base64.decode abcBaseline.signerPubkey.toList = some [] := by decide
      rw [hempty] at hvk
      have hlength := vk.2
      rw [← Option.some.inj hvk] at hlength
      cases hlength
    exact fun h => hunsigned (h.elim And.left fun hp => hp.2.1)

end LifecycleManager

end Maranode.Daemon
