/-
  Maranode.Api.BreakGlass

  Break-glass credentials: `verify_and_consume_break_glass`, as the requests of an
  async server run it.

  Using a token reads all credentials, checks that the one with its hash is unused,
  and writes that one back as used.  No lock is held in between, so each of the three
  is a step of its own.
-/
import Maranode.Common.External
import Maranode.Lib.Run

namespace Maranode.Api

open Lib

variable (X : External)

/-! ## Credentials -/

structure BreakGlassCred where
  id : String
  purpose : String
  tokenHash : String
  createdAt : DateTime
  usedAt : Option DateTime
  usedBy : Option String

def BreakGlassCred.isUsed (c : BreakGlassCred) : Bool := c.usedAt.isSome

/-- `save_break_glass_cred`: the file is named after the id. -/
def saveBreakGlassCred (cred : BreakGlassCred) : List BreakGlassCred → List BreakGlassCred
  | [] => [cred]
  | c :: creds => if c.id = cred.id then cred :: creds else c :: saveBreakGlassCred cred creds

/-- The credential a token hash matches. -/
def matched (creds : List BreakGlassCred) (hash : String) : Option BreakGlassCred :=
  creds.find? fun c => c.tokenHash == hash

/-- The credential as its user leaves it. -/
def BreakGlassCred.consume (c : BreakGlassCred) (usedAt : DateTime) (usedBy : String) :
    BreakGlassCred :=
  { c with usedAt := some usedAt, usedBy := some usedBy }

/-! ## Requests -/

/-- A `bg_use` request, by its caller. -/
structure UseRequest where
  token : String
  usedBy : String

def UseRequest.hash (r : UseRequest) : String := X.sha256 (Text.encode r.token.toList)

inductive UseError where
  | notFound
  | alreadyUsed (usedAt : Option DateTime)

/-- How far a request is. -/
inductive UsePhase where
  | idle
  | read (req : UseRequest) (creds : List BreakGlassCred)
  | unused (req : UseRequest) (cred : BreakGlassCred)
  | refused (req : UseRequest) (err : UseError)
  | used (req : UseRequest) (cred : BreakGlassCred)

/-- The credential files, and how far each request is. -/
structure BreakGlass where
  creds : List BreakGlassCred
  phase : Nat → UsePhase

def BreakGlass.empty : BreakGlass where
  creds := []
  phase := fun _ => .idle

inductive UseStep where
  | generate (cred : BreakGlassCred)
  | read (i : Nat) (req : UseRequest)
  | check (i : Nat)
  | save (i : Nat) (usedAt : DateTime)

/-- The check, on what was read. -/
def checkUnused (req : UseRequest) (creds : List BreakGlassCred) : UsePhase :=
  match matched creds (req.hash X) with
  | none => .refused req .notFound
  | some cred => if cred.isUsed then .refused req (.alreadyUsed cred.usedAt) else .unused req cred

/-- One step of one request; `none` when the request is not at that step. -/
def BreakGlass.step (s : BreakGlass) : UseStep → Option BreakGlass
  | .generate cred => some { s with creds := saveBreakGlassCred cred s.creds }
  | .read i req =>
      match s.phase i with
      | .idle => some { s with phase := Function.update s.phase i (.read req s.creds) }
      | _ => none
  | .check i =>
      match s.phase i with
      | .read req creds =>
          some { s with phase := Function.update s.phase i (checkUnused X req creds) }
      | _ => none
  | .save i usedAt =>
      match s.phase i with
      | .unused req cred =>
          let cred := cred.consume usedAt req.usedBy
          some { creds := saveBreakGlassCred cred s.creds
                 phase := Function.update s.phase i (.used req cred) }
      | _ => none

/-! ## Single use -/

/-- The request has read the credentials and has yet to save or fail. -/
def UsePhase.Pending (hash : String) : UsePhase → Prop
  | .read req _ => req.hash X = hash
  | .unused req _ => req.hash X = hash
  | _ => False

/-- The request got through. -/
def UsePhase.Through (hash : String) : UsePhase → Prop
  | .used req _ => req.hash X = hash
  | _ => False

/-- At most one request gets through with a token, and the credential stays used by
    its caller. -/
structure SingleUse (s : BreakGlass) : Prop where
  once : ∀ i j hash, (s.phase i).Through X hash → (s.phase j).Through X hash → i = j
  kept : ∀ i req cred, s.phase i = .used req cred → ∃ c, matched s.creds (req.hash X) = some c ∧
    c.isUsed = true ∧ c.usedBy = some req.usedBy

/-- A request reads the credentials only while no other one with its token is between
    its read and its save, and a new credential has an id and a token of its own. -/
def OneAtATime (s : BreakGlass) : UseStep → Prop
  | .read _ req => ∀ j, ¬ (s.phase j).Pending X (req.hash X)
  | .generate cred => ∀ c ∈ s.creds, c.id ≠ cred.id ∧ c.tokenHash ≠ cred.tokenHash
  | _ => True

variable {X}

theorem mem_saveBreakGlassCred {cred c : BreakGlassCred} {creds : List BreakGlassCred}
    (h : c ∈ saveBreakGlassCred cred creds) : c = cred ∨ c ∈ creds := by
  induction creds with
  | nil => exact .inl (List.mem_singleton.mp h)
  | cons d ds ih =>
      rw [saveBreakGlassCred] at h
      split_ifs at h
      · rcases List.mem_cons.mp h with rfl | h
        · exact .inl rfl
        · exact .inr (List.mem_cons_of_mem _ h)
      · rcases List.mem_cons.mp h with rfl | h
        · exact .inr List.mem_cons_self
        · exact (ih h).imp_right (List.mem_cons_of_mem _)

/-- A save does not touch the credentials of other tokens. -/
theorem matched_save_of_ne (cred : BreakGlassCred) {creds : List BreakGlassCred} {hash : String}
    (hsame : ∀ c ∈ creds, c.id = cred.id → c.tokenHash = cred.tokenHash)
    (hne : cred.tokenHash ≠ hash) :
    matched (saveBreakGlassCred cred creds) hash = matched creds hash := by
  induction creds with
  | nil => simp [saveBreakGlassCred, matched, hne]
  | cons c cs ih =>
      obtain ⟨hc, hcs⟩ := List.forall_mem_cons.mp hsame
      rw [saveBreakGlassCred]
      split_ifs with hid
      · simp [matched, hne, hc hid]
      · rw [matched, matched, List.find?_cons, List.find?_cons]
        split
        · rfl
        · exact ih hcs

/-- A save is what its token matches from then on. -/
theorem matched_save_self {cred : BreakGlassCred} {creds : List BreakGlassCred}
    (hsame : ∀ c ∈ creds, c.tokenHash = cred.tokenHash → c.id = cred.id) :
    matched (saveBreakGlassCred cred creds) cred.tokenHash = some cred := by
  induction creds with
  | nil => simp [saveBreakGlassCred, matched]
  | cons c cs ih =>
      obtain ⟨hc, hcs⟩ := List.forall_mem_cons.mp hsame
      rw [saveBreakGlassCred]
      split_ifs with hid
      · simp [matched]
      · have hhash : (c.tokenHash == cred.tokenHash) = false :=
          beq_eq_false_iff_ne.mpr fun h => hid (hc h)
        rw [matched, List.find?_cons, hhash]
        exact ih hcs

theorem matched_eq_some {creds : List BreakGlassCred} {hash : String} {c : BreakGlassCred}
    (h : matched creds hash = some c) : c ∈ creds ∧ c.tokenHash = hash :=
  ⟨List.mem_of_find?_eq_some h,
    eq_of_beq (List.find?_some (p := fun c : BreakGlassCred => c.tokenHash == hash) h)⟩

/-! ## Requests that do not overlap -/

variable (X) in
/-- What a request found is still in the files. -/
def UsePhase.Fits (creds : List BreakGlassCred) : UsePhase → Prop
  | .read req found => ∀ cred, matched found (req.hash X) = some cred →
      matched creds (req.hash X) = some cred
  | .unused req cred => matched creds (req.hash X) = some cred ∧ cred.isUsed = false
  | .used req _ => ∃ c, matched creds (req.hash X) = some c ∧ c.isUsed = true ∧
      c.usedBy = some req.usedBy
  | _ => True

variable (X) in
/-- Two requests with one token are not both pending, and not both through. -/
structure UsePhase.Apart (p q : UsePhase) : Prop where
  pending : ∀ hash, p.Pending X hash → ¬ q.Pending X hash
  through : ∀ hash, p.Through X hash → ¬ q.Through X hash

theorem UsePhase.Apart.symm {p q : UsePhase} (h : p.Apart X q) : q.Apart X p :=
  ⟨fun hash hq hp => h.pending hash hp hq, fun hash hq hp => h.through hash hp hq⟩

variable (X) in
structure Serial (s : BreakGlass) : Prop where
  keyed : ∀ c ∈ s.creds, ∀ d ∈ s.creds, c.id = d.id ↔ c.tokenHash = d.tokenHash
  fits : ∀ i, (s.phase i).Fits X s.creds
  apart : ∀ i j, i ≠ j → (s.phase i).Apart X (s.phase j)

theorem serial_empty : Serial X BreakGlass.empty where
  keyed _ hc := nomatch hc
  fits _ := trivial
  apart _ _ _ := ⟨nofun, nofun⟩

theorem Serial.singleUse {s : BreakGlass} (h : Serial X s) : SingleUse X s where
  once := by
    intro i j hash hi hj
    by_contra hij
    exact (h.apart i j hij).through hash hi hj
  kept := by
    intro i req cred hi
    have hfits := h.fits i
    rw [hi] at hfits
    exact hfits

/-- Requests whose credential is where they found it are not disturbed. -/
theorem UsePhase.Fits.mono {creds creds' : List BreakGlassCred} {p : UsePhase}
    (h : p.Fits X creds)
    (hkeep : ∀ hash c, p.Pending X hash ∨ p.Through X hash → matched creds hash = some c →
      matched creds' hash = some c) : p.Fits X creds' := by
  cases p with
  | read req found => exact fun cred hcred => hkeep _ _ (.inl rfl) (h cred hcred)
  | unused req cred => exact ⟨hkeep _ _ (.inl rfl) h.1, h.2⟩
  | used req cred =>
      obtain ⟨c, hc, hused⟩ := h
      exact ⟨c, hkeep _ _ (.inr rfl) hc, hused⟩
  | _ => trivial

/-- A new credential changes nothing for the tokens that have one. -/
theorem Serial.generate {s : BreakGlass} (h : Serial X s) {cred : BreakGlassCred}
    (hnew : ∀ c ∈ s.creds, c.id ≠ cred.id ∧ c.tokenHash ≠ cred.tokenHash) :
    Serial X { s with creds := saveBreakGlassCred cred s.creds } where
  keyed := by
    intro c hc d hd
    rcases mem_saveBreakGlassCred hc with hcnew | hc <;>
      rcases mem_saveBreakGlassCred hd with hdnew | hd
    · rw [hcnew, hdnew]
      exact iff_of_true rfl rfl
    · rw [hcnew]
      exact iff_of_false (hnew d hd).1.symm (hnew d hd).2.symm
    · rw [hdnew]
      exact iff_of_false (hnew c hc).1 (hnew c hc).2
    · exact h.keyed c hc d hd
  fits := by
    intro i
    refine (h.fits i).mono fun hash c _ hc => ?_
    obtain ⟨hmem, rfl⟩ := matched_eq_some hc
    rw [matched_save_of_ne cred (fun d hd hid => absurd hid (hnew d hd).1) (hnew c hmem).2.symm, hc]
  apart := h.apart

/-- A request starts, with nobody else pending on its token. -/
theorem Serial.read {s : BreakGlass} (h : Serial X s) {i : Nat} {req : UseRequest}
    (halone : ∀ j, ¬ (s.phase j).Pending X (req.hash X)) :
    Serial X { s with phase := Function.update s.phase i (.read req s.creds) } where
  keyed := h.keyed
  fits := Run.forall_update h.fits fun _ hcred => hcred
  apart := by
    refine Run.pairwise_update (fun _ _ => UsePhase.Apart.symm) h.apart fun j _ => ?_
    refine ⟨fun hash hread hj => ?_, fun hash hread => nomatch hread⟩
    obtain rfl : req.hash X = hash := hread
    exact halone j hj

/-- The check is on what the files still have. -/
theorem Serial.check {s : BreakGlass} (h : Serial X s) {i : Nat} {req : UseRequest}
    {creds : List BreakGlassCred} (hi : s.phase i = .read req creds) :
    Serial X { s with phase := Function.update s.phase i (checkUnused X req creds) } := by
  have hread := h.fits i
  rw [hi] at hread
  have hfits : (checkUnused X req creds).Fits X s.creds := by
    rw [checkUnused]
    rcases hm : matched creds (req.hash X) with - | cred
    · trivial
    · dsimp only
      split_ifs with hused
      · trivial
      · exact ⟨hread cred hm, by simpa using hused⟩
  refine ⟨h.keyed, Run.forall_update h.fits hfits, ?_⟩
  refine Run.pairwise_update (fun _ _ => UsePhase.Apart.symm) h.apart fun j hj => ?_
  have hapart := h.apart i j hj.symm
  rw [hi] at hapart
  rw [checkUnused]
  rcases matched creds (req.hash X) with - | cred
  · exact ⟨nofun, nofun⟩
  · dsimp only
    split_ifs
    · exact ⟨nofun, nofun⟩
    · exact ⟨hapart.pending, fun _ hp => nomatch hp⟩

/-- The save is the first with its token. -/
theorem Serial.save {s : BreakGlass} (h : Serial X s) {i : Nat} {req : UseRequest}
    {cred : BreakGlassCred} (hi : s.phase i = .unused req cred) (usedAt : DateTime) :
    Serial X
      { creds := saveBreakGlassCred (cred.consume usedAt req.usedBy) s.creds
        phase := Function.update s.phase i (.used req (cred.consume usedAt req.usedBy)) } := by
  have hunused := h.fits i
  rw [hi] at hunused
  obtain ⟨hstored, hfresh⟩ := hunused
  obtain ⟨hmem, hhash⟩ := matched_eq_some hstored
  let cred' := cred.consume usedAt req.usedBy
  -- Everyone else is on another token.
  have hother : ∀ j, j ≠ i → ∀ hash, (s.phase j).Pending X hash ∨ (s.phase j).Through X hash →
      req.hash X ≠ hash := by
    rintro j hj hash (hp | ht) rfl
    · refine (h.apart i j hj.symm).pending _ ?_ hp
      rw [hi]
      rfl
    -- A use that is through found the credential used, and this one finds it fresh.
    · have hfits := h.fits j
      cases hphase : s.phase j with
      | used req' c =>
          rw [hphase] at ht hfits
          obtain ⟨c', hc', hused, -⟩ := hfits
          rw [show req'.hash X = req.hash X from ht, hstored, Option.some.injEq] at hc'
          rw [← hc', hfresh] at hused
          cases hused
      | _ =>
          rw [hphase] at ht
          exact ht
  -- Hashes are keys of the table, so the saved credential is the one its hash finds.
  have hself : matched (saveBreakGlassCred cred' s.creds) (req.hash X) = some cred' := by
    rw [← hhash]
    exact matched_save_self fun c hc heq => (h.keyed c hc cred hmem).mpr heq
  refine ⟨fun c hc d hd => ?_, fun j => ?_, ?_⟩
  -- Saving keeps every id with its hash.
  · have hsub : ∀ c ∈ saveBreakGlassCred cred' s.creds,
        ∃ c₀ ∈ s.creds, c₀.id = c.id ∧ c₀.tokenHash = c.tokenHash := by
      intro c hc
      rcases mem_saveBreakGlassCred hc with rfl | hc
      · exact ⟨cred, hmem, rfl, rfl⟩
      · exact ⟨c, hc, rfl, rfl⟩
    obtain ⟨c₀, hc₀, hcid, hchash⟩ := hsub c hc
    obtain ⟨d₀, hd₀, hdid, hdhash⟩ := hsub d hd
    rw [← hcid, ← hdid, ← hchash, ← hdhash]
    exact h.keyed c₀ hc₀ d₀ hd₀
  · dsimp only
    by_cases hj : j = i
    · subst hj
      rw [Function.update_self]
      exact ⟨cred', hself, rfl, rfl⟩
    · rw [Function.update_of_ne hj]
      refine (h.fits j).mono fun hash c hjhash hc => ?_
      have hne := hother j hj hash hjhash
      rw [← hhash] at hne
      exact (matched_save_of_ne cred'
        (fun c hc heq => (h.keyed c hc cred hmem).mp heq) hne).trans hc
  · refine Run.pairwise_update (fun _ _ => UsePhase.Apart.symm) h.apart fun j hj => ?_
    exact ⟨nofun, fun hash hthis hj' => hother j hj hash (.inr hj') hthis⟩

theorem Serial.step {s s' : BreakGlass} (h : Serial X s) {op : UseStep} (hop : OneAtATime X s op)
    (hs' : BreakGlass.step X s op = some s') : Serial X s' := by
  cases op with
  | generate cred =>
      obtain rfl := Option.some.inj hs'
      exact h.generate hop
  | read i req =>
      rcases hi : s.phase i <;> rw [BreakGlass.step, hi] at hs' <;> cases hs'
      exact h.read hop
  | check i =>
      rcases hi : s.phase i <;> rw [BreakGlass.step, hi] at hs' <;> cases hs'
      exact h.check hi
  | save i usedAt =>
      rcases hi : s.phase i <;> rw [BreakGlass.step, hi] at hs' <;> cases hs'
      exact h.save hi usedAt

/-- **Break-glass tokens.**  However the steps of any number of requests interleave, as
    long as those with one token take turns, at most one of them gets through, and the
    credential stays used by its caller. -/
theorem break_glass_single_use {ops : List UseStep} {s : BreakGlass}
    (hrun : Run.run (BreakGlass.step X) BreakGlass.empty ops = some s)
    (hturns : Run.Along (BreakGlass.step X) (OneAtATime X) BreakGlass.empty ops) :
    SingleUse X s := by
  have hserial : Serial X s :=
    Run.invariant_of_along (fun _ _ _ h hop hs' => h.step hop hs') serial_empty hturns hrun
  exact hserial.singleUse

/-! ## In turn, and at once -/

variable (X) in
/-- A credential and its token. -/
def exampleCred : BreakGlassCred where
  id := "8c1f0a52"
  purpose := "disaster recovery"
  tokenHash := X.sha256 (Text.encode "bg1_5f0c".toList)
  createdAt := 0
  usedAt := none
  usedBy := none

def useBy (usedBy : String) : UseRequest where
  token := "bg1_5f0c"
  usedBy := usedBy

theorem step_check {s : BreakGlass} {i : Nat} {req : UseRequest} {creds : List BreakGlassCred}
    (hi : s.phase i = .read req creds) {p : UsePhase} (hp : checkUnused X req creds = p) :
    BreakGlass.step X s (.check i) = some { s with phase := Function.update s.phase i p } := by
  rw [BreakGlass.step, hi, ← hp]

theorem checkUnused_exampleCred (usedBy : String) :
    checkUnused X (useBy usedBy) [exampleCred X] = .unused (useBy usedBy) (exampleCred X) := by
  simp [checkUnused, matched, exampleCred, UseRequest.hash, useBy, BreakGlassCred.isUsed]

theorem checkUnused_consumed (usedAt : DateTime) (usedBy usedBy' : String) :
    checkUnused X (useBy usedBy) [(exampleCred X).consume usedAt usedBy']
      = .refused (useBy usedBy) (.alreadyUsed (some usedAt)) := by
  simp [checkUnused, matched, exampleCred, UseRequest.hash, useBy, BreakGlassCred.isUsed,
    BreakGlassCred.consume]

variable (X) in
/-- Bob asks after Alice got through. -/
def inTurnSteps : List UseStep :=
  [.generate (exampleCred X), .read 0 (useBy "alice"), .check 0, .save 0 0,
    .read 1 (useBy "bob"), .check 1]

variable (X) in
/-- Bob asks before Alice's save. -/
def atOnceSteps : List UseStep :=
  [.generate (exampleCred X), .read 0 (useBy "alice"), .read 1 (useBy "bob"), .check 0, .check 1,
    .save 0 0, .save 1 0]

theorem run_inTurnSteps :
    (∃ s, Run.run (BreakGlass.step X) BreakGlass.empty (inTurnSteps X) = some s) ∧
      Run.Along (BreakGlass.step X) (OneAtATime X) BreakGlass.empty (inTurnSteps X) := by
  let cred := exampleCred X
  let used := cred.consume 0 "alice"
  let p₁ := Function.update (fun _ => UsePhase.idle) 0 (.read (useBy "alice") [cred])
  let p₂ := Function.update p₁ 0 (.unused (useBy "alice") cred)
  let p₃ := Function.update p₂ 0 (.used (useBy "alice") used)
  let p₄ := Function.update p₃ 1 (.read (useBy "bob") [used])
  have hcheck := step_check (X := X) (s := ⟨[cred], p₁⟩) (i := 0) rfl
    (checkUnused_exampleCred "alice")
  have hrefuse := step_check (X := X) (s := ⟨[used], p₄⟩) (i := 1) rfl
    (checkUnused_consumed 0 "bob" "alice")
  constructor
  · exact ⟨_, (Run.run_cons hcheck [.save 0 0, .read 1 (useBy "bob"), .check 1]).trans
      (Run.run_cons hrefuse [])⟩
  -- Only the two saves ask for anything of the other requests.
  · refine ⟨nofun, fun s hs => ⟨?_, fun s' hs' => ⟨trivial, fun s'' hs'' =>
      ⟨trivial, fun t ht => ⟨?_, fun _ _ => ⟨trivial, fun _ _ => trivial⟩⟩⟩⟩⟩⟩
    · obtain rfl := Option.some.inj hs
      exact fun _ hp => hp
    · obtain rfl := Option.some.inj hs
      obtain rfl := Option.some.inj hs'
      obtain rfl := Option.some.inj (hcheck.symm.trans hs'')
      obtain rfl := Option.some.inj ht
      -- Bob has only read by then; nobody holds the token unused.
      have hnone : ∀ j, ¬ (p₃ j).Pending X ((useBy "bob").hash X) := by
        intro j hp
        by_cases hj : j = 0
        · rw [hj] at hp
          exact hp
        · simp only [p₃, p₂, p₁, Function.update_of_ne hj] at hp
          exact hp
      exact hnone

theorem single_use_in_turn : ∃ s,
    Run.run (BreakGlass.step External.sample) BreakGlass.empty (inTurnSteps External.sample)
        = some s ∧ SingleUse External.sample s := by
  obtain ⟨⟨s, hrun⟩, hturns⟩ := run_inTurnSteps (X := External.sample)
  exact ⟨s, hrun, break_glass_single_use hrun hturns⟩

theorem run_atOnceSteps : ∃ s,
    Run.run (BreakGlass.step X) BreakGlass.empty (atOnceSteps X) = some s ∧
      (∃ cred, s.phase 0 = .used (useBy "alice") cred) ∧
      (∃ cred, s.phase 1 = .used (useBy "bob") cred) ∧
      s.creds.map (·.usedBy) = [some "bob"] := by
  let cred := exampleCred X
  let p₁ := Function.update (fun _ => UsePhase.idle) 0 (.read (useBy "alice") [cred])
  let p₂ := Function.update p₁ 1 (.read (useBy "bob") [cred])
  let p₃ := Function.update p₂ 0 (.unused (useBy "alice") cred)
  have hfirst := step_check (X := X) (s := ⟨[cred], p₂⟩) (i := 0) rfl
    (checkUnused_exampleCred "alice")
  have hsecond := step_check (X := X) (s := ⟨[cred], p₃⟩) (i := 1) rfl
    (checkUnused_exampleCred "bob")
  have hrun : Run.run (BreakGlass.step X) BreakGlass.empty (atOnceSteps X) = some _ :=
    (Run.run_cons hfirst [.check 1, .save 0 0, .save 1 0]).trans
      (Run.run_cons hsecond [.save 0 0, .save 1 0])
  exact ⟨_, hrun, ⟨_, rfl⟩, ⟨_, rfl⟩, rfl⟩

/-- Both get through, and the credential is Bob's in the end. -/
theorem double_use_at_once : ∃ s,
    Run.run (BreakGlass.step External.sample) BreakGlass.empty (atOnceSteps External.sample)
        = some s ∧ ¬ SingleUse External.sample s := by
  obtain ⟨s, hrun, ⟨c, hc⟩, ⟨d, hd⟩, -⟩ := run_atOnceSteps (X := External.sample)
  refine ⟨s, hrun, fun hsingle => ?_⟩
  have hsame := hsingle.once 0 1 ((useBy "alice").hash External.sample) (by rw [hc]; rfl)
    (by rw [hd]; rfl)
  exact absurd hsame (by decide)

end Maranode.Api
