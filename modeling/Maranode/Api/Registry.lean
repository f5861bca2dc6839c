/-
  Maranode.Api.Registry

  `routes/registry.rs`: model submissions and their approval tokens.

  A model has two files, the submission and the token.  Approve and revoke load the
  submission, change the token and save the submission; a submit saves a new one and
  may start a task that adds a ticket to it later.  None of this is locked, so the
  loads and saves of different requests interleave, and every write may fail.
-/
import Maranode.Common.Approval
import Maranode.Lib.RecordWrite
import Maranode.Lib.Run

namespace Maranode.Api

open Lib Common

variable (X : External) (E : Ed25519)

/-! ## Records and tokens -/

inductive SubmissionStatus where
  | pending
  | approved
  | revoked
  deriving DecidableEq

structure SubmissionRecord where
  submissionId : String
  modelId : String
  modelSha256 : String
  submittedBy : String
  submittedAt : DateTime
  note : Option String
  status : SubmissionStatus
  cmTicketId : Option String
  cmSystem : Option String

structure SubmitReq where
  modelId : String
  modelSha256 : String
  submittedBy : String
  note : Option String

/-- The record `submit` saves. -/
def SubmitReq.record (req : SubmitReq) (submissionId : String) (now : DateTime) :
    SubmissionRecord where
  submissionId := submissionId
  modelId := req.modelId
  modelSha256 := req.modelSha256
  submittedBy := req.submittedBy
  submittedAt := now
  note := req.note
  status := .pending
  cmTicketId := none
  cmSystem := none

structure ApproveReq where
  approvedBy : String
  note : Option String
  expiresInDays : Option Int

/-- The days of the request can be added to the clock. -/
def ApproveReq.expiryInRange (req : ApproveReq) (now : DateTime) : Bool :=
  req.expiresInDays.all fun d =>
    decide (minUtc ≤ now + d * (86400 * 1000000000) ∧ now + d * (86400 * 1000000000) ≤ maxUtc)

/-- The token `approve` issues, with the id, the clock readings and the key it took. -/
def ApproveReq.token (req : ApproveReq) (rec : SubmissionRecord) (sha256 tokenId : String)
    (expiryBase approvedAt : DateTime) (key : ByteArr 32) : ApprovalToken :=
  ApprovalToken.sign X E
    { tokenId
      modelId := rec.modelId
      modelSha256 := sha256
      approvedBy := req.approvedBy
      approvedAt
      expiresAt := req.expiresInDays.map fun d => expiryBase + d * (86400 * 1000000000)
      note := req.note.or rec.note
      signerPubkey := ""
      signature := "" }
    key

/-! ## Files and tasks -/

/-- The files by model, and the status the last completed submit, approve or revoke of
    it set.  A token's file may be there and not parse. -/
structure RegistryFiles where
  submission : String → Option SubmissionRecord
  token : String → Option (Option ApprovalToken)
  last : String → Option SubmissionStatus

/-- `save_submission`: the file is named after the record. -/
def RegistryFiles.saveSubmission (f : RegistryFiles) (rec : SubmissionRecord) (w : RecordWrite) :
    RegistryFiles :=
  { f with
    submission := Function.update f.submission rec.modelSha256
      (w.result (f.submission rec.modelSha256) rec) }

def RegistryFiles.setToken (f : RegistryFiles) (sha256 : String)
    (t : Option (Option ApprovalToken)) : RegistryFiles :=
  { f with token := Function.update f.token sha256 t }

/-- The save that ends an operation on a model. -/
def RegistryFiles.complete (f : RegistryFiles) (rec : SubmissionRecord) (w : RecordWrite) :
    RegistryFiles :=
  match w.error with
  | some _ => f.saveSubmission rec w
  | none =>
      { f.saveSubmission rec w with
        last := Function.update f.last rec.modelSha256 (some rec.status) }

/-- How far a request or a spawned task is.  `sha256` is the model of the request's
    path. -/
inductive RegistryTask where
  | idle
  | ticketWait (sha256 : String)
  | ticketLoaded (sha256 : String) (rec : SubmissionRecord)
  | approveLoaded (sha256 : String) (rec : SubmissionRecord) (token : ApprovalToken)
  | approveIssued (sha256 : String) (rec : SubmissionRecord)
  | revokeLoaded (sha256 : String) (rec : SubmissionRecord)
  | revokeRemoved (sha256 : String) (rec : SubmissionRecord)
  | refused (msg : String)
  | panicked
  | done

/-- After a write the request goes on, or is answered its error. -/
def RegistryTask.after (w : RecordWrite) (next : RegistryTask) : RegistryTask :=
  match w.error with
  | some e => .refused e
  | none => next

structure Registry where
  files : RegistryFiles
  task : Nat → RegistryTask

def Registry.empty : Registry where
  files := { submission := fun _ => none, token := fun _ => none, last := fun _ => none }
  task := fun _ => .idle

inductive RegistryStep where
  | submit (i : Nat) (req : SubmitReq) (submissionId : String) (now : DateTime) (configured : Bool)
      (w : RecordWrite)
  | ticketLoad (i : Nat) (ticket : Option (String × String))
  | ticketSave (i : Nat) (w : RecordWrite)
  | approveLoad (i : Nat) (sha256 : String) (req : ApproveReq) (tokenId : String)
      (expiryBase approvedAt : DateTime) (key : Except String (ByteArr 32))
  | approveIssue (i : Nat) (w : RecordWrite)
  | approveSave (i : Nat) (w : RecordWrite)
  | revokeLoad (i : Nat) (sha256 : String)
  | revokeRemove (i : Nat) (removed : Bool)
  | revokeSave (i : Nat) (w : RecordWrite)

/-- The answer for a model without a submission.  It quotes the first twelve bytes of
    the path's hash, which panics inside a character. -/
def noSubmission (sha256 : String) : RegistryTask :=
  match Text.decode ((Text.encode sha256.toList).take 12) with
  | some cs => .refused s!"no submission for sha256 {String.ofList cs}"
  | none => .panicked

/-- The spawned task has its ticket, or none, and loads the submission. -/
def RegistryFiles.loadForTicket (f : RegistryFiles) (sha256 : String) :
    Option (String × String) → RegistryTask
  | none => .done
  | some (ticketId, system) =>
      match f.submission sha256 with
      | none => .done
      | some rec =>
          .ticketLoaded sha256 { rec with cmTicketId := some ticketId, cmSystem := some system }

/-- `approve`, up to the token it is about to save. -/
def RegistryFiles.loadForApprove (f : RegistryFiles) (sha256 : String) (req : ApproveReq)
    (tokenId : String) (expiryBase approvedAt : DateTime) (key : Except String (ByteArr 32)) :
    RegistryTask :=
  match f.submission sha256 with
  | none => noSubmission sha256
  | some rec =>
      if rec.status = .revoked then .refused "submission already revoked"
      else
        match key with
        | .error e => .refused e
        | .ok key =>
            if req.expiryInRange expiryBase = false then .panicked
            else
              .approveLoaded sha256 rec
                (req.token X E rec sha256 tokenId expiryBase approvedAt key)

def RegistryFiles.loadForRevoke (f : RegistryFiles) (sha256 : String) : RegistryTask :=
  match f.submission sha256 with
  | none => noSubmission sha256
  | some rec => .revokeLoaded sha256 rec

def Registry.moveTo (s : Registry) (i : Nat) (t : RegistryTask) : Registry :=
  { s with task := Function.update s.task i t }

def Registry.setFiles (s : Registry) (files : RegistryFiles) : Registry := { s with files }

/-- One step of one request or task; `none` when it is not at that step. -/
def Registry.step (s : Registry) : RegistryStep → Option Registry
  | .submit i req submissionId now configured w =>
      match s.task i with
      | .idle =>
          let s := s.setFiles (s.files.complete (req.record submissionId now) w)
          some (s.moveTo i
            (.after w (if configured then .ticketWait req.modelSha256 else .done)))
      | _ => none
  | .ticketLoad i ticket =>
      match s.task i with
      | .ticketWait sha256 => some (s.moveTo i (s.files.loadForTicket sha256 ticket))
      | _ => none
  | .ticketSave i w =>
      match s.task i with
      -- `let _ = save_submission(..)`
      | .ticketLoaded _ rec => some ((s.setFiles (s.files.saveSubmission rec w)).moveTo i .done)
      | _ => none
  | .approveLoad i sha256 req tokenId expiryBase approvedAt key =>
      match s.task i with
      | .idle =>
          some (s.moveTo i
            (s.files.loadForApprove X E sha256 req tokenId expiryBase approvedAt key))
      | _ => none
  | .approveIssue i w =>
      match s.task i with
      | .approveLoaded sha256 rec token =>
          let s := s.setFiles (s.files.setToken sha256 (w.file (s.files.token sha256) token))
          some (s.moveTo i (.after w (.approveIssued sha256 rec)))
      | _ => none
  | .approveSave i w =>
      match s.task i with
      | .approveIssued _ rec =>
          let s := s.setFiles (s.files.complete { rec with status := .approved } w)
          some (s.moveTo i (.after w .done))
      | _ => none
  | .revokeLoad i sha256 =>
      match s.task i with
      | .idle => some (s.moveTo i (s.files.loadForRevoke sha256))
      | _ => none
  | .revokeRemove i removed =>
      match s.task i with
      -- `std::fs::remove_file(..).ok()`
      | .revokeLoaded sha256 rec =>
          let token := if removed then none else s.files.token sha256
          some ((s.setFiles (s.files.setToken sha256 token)).moveTo i (.revokeRemoved sha256 rec))
      | _ => none
  | .revokeSave i w =>
      match s.task i with
      | .revokeRemoved _ rec =>
          let s := s.setFiles (s.files.complete { rec with status := .revoked } w)
          some (s.moveTo i (.after w .done))
      | _ => none

/-! ## Settled models -/

/-- The stored submission is approved. -/
def RegistryFiles.Approved (f : RegistryFiles) (sha256 : String) : Prop :=
  ∃ rec, f.submission sha256 = some rec ∧ rec.status = .approved

/-- There is a token's file exactly when the submission is approved, and its status is
    what the last completed operation set. -/
structure RegistryFiles.Settled (f : RegistryFiles) (sha256 : String) : Prop where
  token : (f.token sha256).isSome = true ↔ f.Approved sha256
  last : (f.submission sha256).map (·.status) = f.last sha256

/-- The model whose submission the task has loaded and is yet to save. -/
def RegistryTask.holding : RegistryTask → Option String
  | .ticketLoaded sha256 _ => some sha256
  | .approveLoaded sha256 _ _ => some sha256
  | .approveIssued sha256 _ => some sha256
  | .revokeLoaded sha256 _ => some sha256
  | .revokeRemoved sha256 _ => some sha256
  | _ => none

/-- Nobody is between a load and a save of the model's submission. -/
def Registry.Quiet (s : Registry) (sha256 : String) : Prop :=
  ∀ i, (s.task i).holding ≠ some sha256

/-- A model is submitted or loaded only while nobody else is between a load and a save
    of it, and submitted only while it has no token.  A write that fails leaves the
    submission and the token as they fit together: one of a submission is cut off only
    where there is none, and one of a token only where there is one; an approve fails to
    save only what is approved already; a revoke saves when no token is left, and one
    that cannot save has left the token of an approved submission. -/
def Undisturbed (s : Registry) : RegistryStep → Prop
  | .submit _ req _ _ _ w =>
      match w with
      | .written => s.Quiet req.modelSha256 ∧ s.files.token req.modelSha256 = none
      | .refused _ => True
      | .cutOff _ => s.files.submission req.modelSha256 = none
  | .ticketLoad i _ => ∀ sha256, s.task i = .ticketWait sha256 → s.Quiet sha256
  | .ticketSave _ w => ∀ e, w ≠ .cutOff e
  | .approveLoad _ sha256 _ _ _ _ _ => s.Quiet sha256
  | .approveIssue i w =>
      ∀ sha256 rec token, s.task i = .approveLoaded sha256 rec token →
        ∀ e, w = .cutOff e → (s.files.token sha256).isSome = true
  | .approveSave i w =>
      ∀ sha256 rec, s.task i = .approveIssued sha256 rec →
        match w with
        | .written => True
        | .refused _ => s.files.Approved sha256
        | .cutOff _ => False
  | .revokeLoad _ sha256 => s.Quiet sha256
  | .revokeRemove _ _ => True
  | .revokeSave i w =>
      ∀ sha256 rec, s.task i = .revokeRemoved sha256 rec →
        match w with
        | .written => s.files.token sha256 = none
        | .refused _ => s.files.Approved sha256 → (s.files.token sha256).isSome = true
        | .cutOff _ => False

variable {X E}

/-! ## One step at one model -/

/-- The files are those of before, but for one model. -/
def RegistryFiles.SameAt (f f' : RegistryFiles) (sha256 : String) : Prop :=
  f'.submission sha256 = f.submission sha256 ∧ f'.token sha256 = f.token sha256 ∧
    f'.last sha256 = f.last sha256

theorem RegistryFiles.sameAt_saveSubmission (f : RegistryFiles) {rec : SubmissionRecord}
    (w : RecordWrite) {sha256 : String} (h : sha256 ≠ rec.modelSha256) :
    f.SameAt (f.saveSubmission rec w) sha256 :=
  ⟨Function.update_of_ne h _ _, rfl, rfl⟩

theorem RegistryFiles.sameAt_complete (f : RegistryFiles) {rec : SubmissionRecord}
    {sha256 : String} (h : sha256 ≠ rec.modelSha256) : f.SameAt (f.complete rec .written) sha256 :=
  ⟨Function.update_of_ne h _ _, rfl, Function.update_of_ne h _ _⟩

theorem RegistryFiles.sameAt_setToken (f : RegistryFiles) {sha256 sha256' : String}
    (t : Option (Option ApprovalToken)) (h : sha256 ≠ sha256') :
    f.SameAt (f.setToken sha256' t) sha256 :=
  ⟨rfl, Function.update_of_ne h _ _, rfl⟩

theorem RegistryFiles.token_setToken (f : RegistryFiles) (sha256 : String)
    (t : Option (Option ApprovalToken)) : (f.setToken sha256 t).token sha256 = t :=
  Function.update_self ..

theorem RegistryFiles.submission_complete (f : RegistryFiles) (rec : SubmissionRecord) :
    (f.complete rec .written).submission rec.modelSha256 = some rec := Function.update_self ..

theorem RegistryFiles.last_complete (f : RegistryFiles) (rec : SubmissionRecord) :
    (f.complete rec .written).last rec.modelSha256 = some rec.status := Function.update_self ..

theorem RegistryFiles.submission_saveSubmission (f : RegistryFiles) (rec : SubmissionRecord) :
    (f.saveSubmission rec .written).submission rec.modelSha256 = some rec :=
  Function.update_self ..

/-- A save that fails and spoils nothing. -/
theorem RegistryFiles.saveSubmission_of_noChange {f : RegistryFiles} {rec : SubmissionRecord}
    (w : RecordWrite) (h : w.NoChange (f.submission rec.modelSha256) rec) :
    f.saveSubmission rec w = f := by
  rw [saveSubmission, RecordWrite.result_eq_iff.mpr h, Function.update_eq_self]

theorem RegistryFiles.Settled.congr {f f' : RegistryFiles} {sha256 : String}
    (h : f.Settled sha256) (hsame : f.SameAt f' sha256) : f'.Settled sha256 := by
  obtain ⟨hsub, htok, hlast⟩ := hsame
  refine ⟨?_, ?_⟩
  · rw [RegistryFiles.Approved, hsub, htok]
    exact h.token
  · rw [hsub, hlast]
    exact h.last

/-- Another token's file in the place of one, or none in the place of none. -/
theorem RegistryFiles.Settled.setToken {f : RegistryFiles} {sha256 : String} (h : f.Settled sha256)
    {t : Option (Option ApprovalToken)} (ht : t.isSome = (f.token sha256).isSome) :
    (f.setToken sha256 t).Settled sha256 := by
  refine ⟨?_, h.last⟩
  rw [f.token_setToken, ht]
  exact h.token

/-- The status is what the last completed operation set. -/
def RegistryFiles.InOrder (f : RegistryFiles) (sha256 : String) : Prop :=
  (f.submission sha256).map (·.status) = f.last sha256

/-- What a task that holds a model relies on. -/
def RegistryTask.Fits (f : RegistryFiles) : RegistryTask → Prop
  | .ticketLoaded sha256 rec => rec.modelSha256 = sha256 ∧ f.Settled sha256 ∧
      (f.submission sha256).map (·.status) = some rec.status
  | .approveLoaded sha256 rec _ => rec.modelSha256 = sha256 ∧ f.Settled sha256
  | .approveIssued sha256 rec =>
      rec.modelSha256 = sha256 ∧ (f.token sha256).isSome = true ∧ f.InOrder sha256
  | .revokeLoaded sha256 rec => rec.modelSha256 = sha256 ∧ f.Settled sha256
  | .revokeRemoved sha256 rec =>
      rec.modelSha256 = sha256 ∧ ((f.token sha256).isSome = true → f.Approved sha256) ∧
        f.InOrder sha256
  | _ => True

theorem RegistryTask.Fits.congr {f f' : RegistryFiles} {t : RegistryTask} (h : t.Fits f)
    (hsame : ∀ sha256, t.holding = some sha256 → f.SameAt f' sha256) : t.Fits f' := by
  cases t with
  | ticketLoaded sha256 rec =>
      have hat := hsame sha256 rfl
      exact ⟨h.1, h.2.1.congr hat, by rw [hat.1]; exact h.2.2⟩
  | approveLoaded sha256 rec token => exact ⟨h.1, h.2.congr (hsame sha256 rfl)⟩
  | approveIssued sha256 rec =>
      obtain ⟨hsub, htok, hlast⟩ := hsame sha256 rfl
      rw [Fits, RegistryFiles.InOrder, hsub, htok, hlast]
      exact h
  | revokeLoaded sha256 rec => exact ⟨h.1, h.2.congr (hsame sha256 rfl)⟩
  | revokeRemoved sha256 rec =>
      obtain ⟨hsub, htok, hlast⟩ := hsame sha256 rfl
      rw [Fits, RegistryFiles.Approved, RegistryFiles.InOrder, hsub, htok, hlast]
      exact h
  | _ => trivial

/-- Two tasks do not hold the same model. -/
def RegistryTask.Apart (t t' : RegistryTask) : Prop :=
  ∀ sha256, t.holding = some sha256 → t'.holding ≠ some sha256

/-- The tasks hold different models, and every model nobody holds is settled. -/
structure Registry.Orderly (s : Registry) : Prop where
  named : ∀ sha256 rec, s.files.submission sha256 = some rec → rec.modelSha256 = sha256
  settled : ∀ sha256, s.Quiet sha256 → s.files.Settled sha256
  fits : ∀ i, (s.task i).Fits s.files
  apart : ∀ i j, i ≠ j → (s.task i).Apart (s.task j)

theorem Registry.moveTo_task_self (s : Registry) (i : Nat) (t : RegistryTask) :
    (s.moveTo i t).task i = t := Function.update_self ..

theorem Registry.moveTo_task_of_ne (s : Registry) {i j : Nat} (t : RegistryTask) (hj : j ≠ i) :
    (s.moveTo i t).task j = s.task j := Function.update_of_ne hj ..

/-- **One step.**  A task that nobody else shares its model with takes a step that
    changes nothing but this model, and leaves it settled when it lets go of it. -/
theorem Registry.Orderly.move {s : Registry} (h : s.Orderly) {i : Nat} {t : RegistryTask}
    {f : RegistryFiles} (sha256 : String)
    (hfree : ∀ j, j ≠ i → (s.task j).holding ≠ some sha256)
    (hold : ∀ other, (s.task i).holding = some other → other = sha256)
    (hnew : ∀ other, t.holding = some other → other = sha256)
    (hsame : ∀ other, other ≠ sha256 → s.files.SameAt f other)
    (hnamed : ∀ rec, f.submission sha256 = some rec → rec.modelSha256 = sha256)
    (hfits : t.Fits f) (hsettled : t.holding = none → f.Settled sha256) :
    ((s.setFiles f).moveTo i t).Orderly where
  named := by
    intro other rec hrec
    by_cases hother : other = sha256
    · subst hother
      exact hnamed rec hrec
    · exact h.named other rec ((hsame other hother).1.symm.trans hrec)
  settled := by
    intro other hquiet
    -- The task itself has let go of it.
    have hi : t.holding ≠ some other := by
      have hquiet := hquiet i
      rwa [Registry.moveTo_task_self] at hquiet
    by_cases hother : other = sha256
    · subst hother
      apply hsettled
      rcases ht : t.holding with - | other'
      · rfl
      · exact absurd (ht.trans (congrArg some (hnew other' ht))) hi
    -- Another model is as it was, and so are the tasks that are about it.
    · refine (h.settled other fun j => ?_).congr (hsame other hother)
      by_cases hj : j = i
      · subst hj
        exact fun hheld => hother (hold other hheld)
      · have hquiet := hquiet j
        rwa [Registry.moveTo_task_of_ne _ _ hj] at hquiet
  fits := by
    intro j
    show (Function.update s.task i t j).Fits f
    by_cases hj : j = i
    · rw [hj, Function.update_self]
      exact hfits
    · rw [Function.update_of_ne hj]
      refine (h.fits j).congr fun other hheld => hsame other ?_
      -- A task that relies on this model would hold it.
      rintro rfl
      exact hfree j hj hheld
  apart := by
    refine Run.pairwise_update (fun _ _ hap other h₁ h₂ => hap other h₂ h₁) h.apart fun j hj => ?_
    intro other hheld hheld'
    rw [hnew other hheld] at hheld'
    exact hfree j hj hheld'

/-- A task that holds a model is the only one. -/
theorem Registry.Orderly.free {s : Registry} (h : s.Orderly) {i : Nat} {sha256 : String}
    (hi : (s.task i).holding = some sha256) (j : Nat) (hj : j ≠ i) :
    (s.task j).holding ≠ some sha256 := h.apart i j hj.symm sha256 hi

/-- A load: the files stay as they are. -/
theorem Registry.Orderly.load {s : Registry} (h : s.Orderly) {i : Nat} {t : RegistryTask}
    {sha256 : String} (hquiet : s.Quiet sha256) (hi : (s.task i).holding = none)
    (hnew : ∀ other, t.holding = some other → other = sha256) (hfits : t.Fits s.files) :
    (s.moveTo i t).Orderly :=
  h.move sha256 (fun j _ => hquiet j) (fun other ho => by rw [hi] at ho; cases ho) hnew
    (fun _ _ => ⟨rfl, rfl, rfl⟩) (h.named sha256) hfits fun _ => h.settled sha256 hquiet

/-- A task that holds nothing goes on to one that holds nothing. -/
theorem Registry.Orderly.rest {s : Registry} (h : s.Orderly) {i : Nat} {t : RegistryTask}
    (hi : (s.task i).holding = none) (ht : t.holding = none) (hfits : t.Fits s.files) :
    (s.moveTo i t).Orderly where
  named := h.named
  settled := by
    intro other hquiet
    refine h.settled other fun j => ?_
    by_cases hj : j = i
    · rw [hj, hi]
      exact (Option.some_ne_none _).symm
    · have hquiet := hquiet j
      rwa [Registry.moveTo_task_of_ne _ _ hj] at hquiet
  fits := by
    intro j
    by_cases hj : j = i
    · rw [hj, Registry.moveTo_task_self]
      exact hfits
    · rw [Registry.moveTo_task_of_ne _ _ hj]
      exact h.fits j
  apart := by
    refine Run.pairwise_update (fun _ _ hap other h₁ h₂ => hap other h₂ h₁) h.apart fun j hj => ?_
    intro other hheld
    rw [ht] at hheld
    cases hheld

/-- A task lets go of a model that is settled. -/
theorem Registry.Orderly.letGo {s : Registry} (h : s.Orderly) {i : Nat} {t : RegistryTask}
    {sha256 : String} (hi : (s.task i).holding = some sha256) (ht : t.holding = none)
    (hfits : t.Fits s.files) (hsettled : s.files.Settled sha256) : (s.moveTo i t).Orderly :=
  h.move sha256 (h.free hi) (fun other ho => (Option.some.inj (hi.symm.trans ho)).symm)
    (fun other ho => by rw [ht] at ho; cases ho) (fun _ _ => ⟨rfl, rfl, rfl⟩) (h.named sha256)
    hfits fun _ => hsettled

/-- A save that ends a task. -/
theorem RegistryFiles.settled_complete {f : RegistryFiles} {rec : SubmissionRecord}
    (h : (f.token rec.modelSha256).isSome = true ↔ rec.status = .approved) :
    (f.complete rec .written).Settled rec.modelSha256 := by
  refine ⟨?_, by rw [f.submission_complete, f.last_complete]; rfl⟩
  rw [Approved, f.submission_complete]
  constructor
  · exact fun htok => ⟨rec, rfl, h.mp htok⟩
  · rintro ⟨rec', hrec', hstatus⟩
    obtain rfl := Option.some.inj hrec'
    exact h.mpr hstatus

theorem Registry.Orderly.complete {s : Registry} (h : s.Orderly) {i : Nat}
    {rec : SubmissionRecord} {t : RegistryTask} (ht : t.holding = none) (hfits : ∀ f, t.Fits f)
    (hfree : ∀ j, j ≠ i → (s.task j).holding ≠ some rec.modelSha256)
    (hold : ∀ other, (s.task i).holding = some other → other = rec.modelSha256)
    (htok : (s.files.token rec.modelSha256).isSome = true ↔ rec.status = .approved) :
    ((s.setFiles (s.files.complete rec .written)).moveTo i t).Orderly := by
  refine h.move rec.modelSha256 hfree hold (fun other ho => by rw [ht] at ho; cases ho)
    (fun other hother => s.files.sameAt_complete hother) (fun rec' hrec' => ?_) (hfits _)
    fun _ => RegistryFiles.settled_complete htok
  rw [← Option.some.inj ((s.files.submission_complete rec).symm.trans hrec')]

/-- A task that is about to hold `sha256`, or nothing. -/
structure RegistryTask.Loads (t : RegistryTask) (f : RegistryFiles) (sha256 : String) : Prop where
  holding : ∀ other, t.holding = some other → other = sha256
  fits : t.Fits f

theorem noSubmission_loads (f : RegistryFiles) (sha256 other : String) :
    (noSubmission sha256).Loads f other := by
  rw [noSubmission]
  split
  · exact ⟨nofun, trivial⟩
  · exact ⟨nofun, trivial⟩

section Loads

variable {f : RegistryFiles} {sha256 : String} (hsettled : f.Settled sha256)
  (hnamed : ∀ rec, f.submission sha256 = some rec → rec.modelSha256 = sha256)

include hsettled hnamed

theorem loadForTicket_loads (ticket : Option (String × String)) :
    (f.loadForTicket sha256 ticket).Loads f sha256 := by
  rcases ticket with - | ⟨ticketId, system⟩
  · exact ⟨nofun, trivial⟩
  rw [RegistryFiles.loadForTicket]
  rcases hrec : f.submission sha256 with - | rec
  · exact ⟨nofun, trivial⟩
  · refine ⟨fun _ ho => (Option.some.inj ho).symm, hnamed rec hrec, hsettled, ?_⟩
    rw [hrec]
    rfl

theorem loadForApprove_loads (req : ApproveReq) (tokenId : String)
    (expiryBase approvedAt : DateTime) (key : Except String (ByteArr 32)) :
    (f.loadForApprove X E sha256 req tokenId expiryBase approvedAt key).Loads f sha256 := by
  rw [RegistryFiles.loadForApprove]
  rcases hrec : f.submission sha256 with - | rec
  · exact noSubmission_loads f sha256 sha256
  dsimp only
  split
  · exact ⟨nofun, trivial⟩
  cases key with
  | error e => exact ⟨nofun, trivial⟩
  | ok key =>
      dsimp only
      split
      · exact ⟨nofun, trivial⟩
      · exact ⟨fun _ ho => (Option.some.inj ho).symm, hnamed rec hrec, hsettled⟩

theorem loadForRevoke_loads : (f.loadForRevoke sha256).Loads f sha256 := by
  rw [RegistryFiles.loadForRevoke]
  rcases hrec : f.submission sha256 with - | rec
  · exact noSubmission_loads f sha256 sha256
  · exact ⟨fun _ ho => (Option.some.inj ho).symm, hnamed rec hrec, hsettled⟩

end Loads

/-- A task that has loaded a model changes its token. -/
theorem Registry.Orderly.setToken {s : Registry} (h : s.Orderly) {i : Nat} {t : RegistryTask}
    {sha256 : String} {tok : Option (Option ApprovalToken)}
    (hi : (s.task i).holding = some sha256)
    (ht : ∀ other, t.holding = some other → other = sha256)
    (hfits : t.Fits (s.files.setToken sha256 tok))
    (hsettled : t.holding = none → (s.files.setToken sha256 tok).Settled sha256) :
    ((s.setFiles (s.files.setToken sha256 tok)).moveTo i t).Orderly :=
  h.move sha256 (h.free hi) (fun _ ho => (Option.some.inj (hi.symm.trans ho)).symm) ht
    (fun _ hother => s.files.sameAt_setToken tok hother) (h.named sha256) hfits hsettled

/-- A ticket changes neither the status nor the token. -/
theorem Registry.Orderly.saveTicket {s : Registry} (h : s.Orderly) {i : Nat} {sha256 : String}
    {rec : SubmissionRecord} {w : RecordWrite} (hi : s.task i = .ticketLoaded sha256 rec)
    (hw : ∀ e, w ≠ .cutOff e) :
    ((s.setFiles (s.files.saveSubmission rec w)).moveTo i .done).Orderly := by
  have hfits := h.fits i
  rw [hi] at hfits
  obtain ⟨rfl, hsettled, hstatus⟩ := hfits
  have hheld : (s.task i).holding = some rec.modelSha256 := by rw [hi]; rfl
  cases w with
  | cutOff e => exact absurd rfl (hw e)
  | refused e =>
      rw [RegistryFiles.saveSubmission_of_noChange (.refused e) trivial]
      exact h.letGo hheld rfl trivial hsettled
  | written =>
      have hsub := s.files.submission_saveSubmission rec
      refine h.move rec.modelSha256 (h.free hheld)
        (fun _ ho => (Option.some.inj (hheld.symm.trans ho)).symm) nofun
        (fun _ hother => s.files.sameAt_saveSubmission .written hother)
        (fun rec' hrec' => ?_) trivial fun _ => ⟨?_, ?_⟩
      · rw [← Option.some.inj (hsub.symm.trans hrec')]
      · obtain ⟨old, hold, hsame⟩ := Option.map_eq_some_iff.mp hstatus
        have htoken := hsettled.token
        rw [RegistryFiles.Approved, hold] at htoken
        rw [RegistryFiles.Approved, hsub]
        show (s.files.token rec.modelSha256).isSome = true ↔ _
        simpa [hsame] using htoken
      · rw [hsub]
        exact hstatus.symm.trans hsettled.last

section Steps

variable {s : Registry} {i : Nat} {w : RecordWrite} {sha256 : String} {rec : SubmissionRecord}

theorem Registry.Orderly.submit (h : s.Orderly) (hi : s.task i = .idle) {req : SubmitReq}
    {submissionId : String} {now : DateTime} {configured : Bool}
    (hop : Undisturbed s (.submit i req submissionId now configured w)) :
    ((s.setFiles (s.files.complete (req.record submissionId now) w)).moveTo i
      (.after w (if configured then .ticketWait req.modelSha256 else .done))).Orderly := by
  have hnone : (s.task i).holding = none := by rw [hi]; rfl
  cases w with
  | written =>
      obtain ⟨hquiet, htok⟩ := hop
      refine h.complete ?_ ?_ (fun j _ => hquiet j) (fun other ho => by rw [hnone] at ho; cases ho) ?_
      · cases configured <;> rfl
      · intro f
        cases configured <;> trivial
      · show (s.files.token req.modelSha256).isSome = true ↔ _
        rw [htok]
        exact iff_of_false nofun nofun
  | refused e =>
      show ((s.setFiles (s.files.saveSubmission _ _)).moveTo i (.refused e)).Orderly
      rw [RegistryFiles.saveSubmission_of_noChange (.refused e) trivial]
      exact h.rest hnone rfl trivial
  | cutOff e =>
      have hgone : s.files.submission (req.record submissionId now).modelSha256 = none := hop
      show ((s.setFiles (s.files.saveSubmission _ _)).moveTo i (.refused e)).Orderly
      rw [RegistryFiles.saveSubmission_of_noChange (.cutOff e) hgone]
      exact h.rest hnone rfl trivial

theorem Registry.Orderly.approveIssue (h : s.Orderly) {token : ApprovalToken}
    (hi : s.task i = .approveLoaded sha256 rec token) (hop : Undisturbed s (.approveIssue i w)) :
    ((s.setFiles (s.files.setToken sha256 (w.file (s.files.token sha256) token))).moveTo i
      (.after w (.approveIssued sha256 rec))).Orderly := by
  have hheld : (s.task i).holding = some sha256 := by rw [hi]; rfl
  have hfits := h.fits i
  rw [hi] at hfits
  obtain ⟨hname, hsettled⟩ := hfits
  cases w with
  | written =>
      refine h.setToken hheld (fun other ho => (Option.some.inj ho).symm)
        ⟨hname, ?_, hsettled.last⟩ nofun
      rw [RegistryFiles.token_setToken]
      rfl
  | refused e => exact h.setToken hheld nofun trivial fun _ => hsettled.setToken rfl
  | cutOff e =>
      refine h.setToken hheld nofun trivial fun _ => hsettled.setToken ?_
      rw [hop sha256 rec token hi e rfl]
      rfl

theorem Registry.Orderly.approveSave (h : s.Orderly) (hi : s.task i = .approveIssued sha256 rec)
    (hop : Undisturbed s (.approveSave i w)) :
    ((s.setFiles (s.files.complete { rec with status := .approved } w)).moveTo i
      (.after w .done)).Orderly := by
  have hheld : (s.task i).holding = some sha256 := by rw [hi]; rfl
  have hfits := h.fits i
  rw [hi] at hfits
  obtain ⟨rfl, htok, hlast⟩ := hfits
  have hsave := hop rec.modelSha256 rec hi
  cases w with
  | written =>
      exact h.complete rfl (fun _ => trivial) (h.free hheld)
        (fun other ho => (Option.some.inj (hheld.symm.trans ho)).symm) (iff_of_true htok rfl)
  | refused e =>
      show ((s.setFiles (s.files.saveSubmission _ _)).moveTo i (.refused e)).Orderly
      rw [RegistryFiles.saveSubmission_of_noChange (.refused e) trivial]
      exact h.letGo hheld rfl trivial ⟨iff_of_true htok hsave, hlast⟩
  | cutOff e => exact hsave.elim

theorem Registry.Orderly.revokeRemove (h : s.Orderly) (hi : s.task i = .revokeLoaded sha256 rec)
    (removed : Bool) :
    ((s.setFiles (s.files.setToken sha256 (if removed then none else s.files.token sha256))).moveTo
      i (.revokeRemoved sha256 rec)).Orderly := by
  have hheld : (s.task i).holding = some sha256 := by rw [hi]; rfl
  have hfits := h.fits i
  rw [hi] at hfits
  obtain ⟨hname, hsettled⟩ := hfits
  refine h.setToken hheld (fun other ho => (Option.some.inj ho).symm)
    ⟨hname, fun htok => ?_, hsettled.last⟩ nofun
  rw [RegistryFiles.token_setToken] at htok
  cases removed with
  | true => cases htok
  | false => exact hsettled.token.mp htok

theorem Registry.Orderly.revokeSave (h : s.Orderly) (hi : s.task i = .revokeRemoved sha256 rec)
    (hop : Undisturbed s (.revokeSave i w)) :
    ((s.setFiles (s.files.complete { rec with status := .revoked } w)).moveTo i
      (.after w .done)).Orderly := by
  have hheld : (s.task i).holding = some sha256 := by rw [hi]; rfl
  have hfits := h.fits i
  rw [hi] at hfits
  obtain ⟨rfl, htok, hlast⟩ := hfits
  have hsave := hop rec.modelSha256 rec hi
  cases w with
  | written =>
      refine h.complete rfl (fun _ => trivial) (h.free hheld)
        (fun other ho => (Option.some.inj (hheld.symm.trans ho)).symm) ?_
      have hnone : s.files.token rec.modelSha256 = none := hsave
      rw [hnone]
      exact iff_of_false nofun nofun
  | refused e =>
      show ((s.setFiles (s.files.saveSubmission _ _)).moveTo i (.refused e)).Orderly
      rw [RegistryFiles.saveSubmission_of_noChange (.refused e) trivial]
      exact h.letGo hheld rfl trivial ⟨⟨htok, hsave⟩, hlast⟩
  | cutOff e => exact hsave.elim

end Steps

theorem Registry.Orderly.step {s s' : Registry} (h : s.Orderly) {op : RegistryStep}
    (hop : Undisturbed s op) (hs' : Registry.step X E s op = some s') : s'.Orderly := by
  -- One case for each step; the task is where the step finds it, or there is no step.
  cases op with
  | submit i req submissionId now configured w =>
      rcases hi : s.task i <;> rw [Registry.step, hi] at hs' <;> cases hs'
      exact h.submit hi hop
  | ticketLoad i ticket =>
      rcases hi : s.task i with - | sha256 <;> rw [Registry.step, hi] at hs' <;> cases hs'
      have hquiet := hop sha256 hi
      have hloads := loadForTicket_loads (h.settled sha256 hquiet) (h.named sha256) ticket
      exact h.load hquiet (by rw [hi]; rfl) hloads.holding hloads.fits
  | ticketSave i w =>
      rcases hi : s.task i <;> rw [Registry.step, hi] at hs' <;> cases hs'
      exact h.saveTicket hi hop
  | approveLoad i sha256 req tokenId expiryBase approvedAt key =>
      rcases hi : s.task i <;> rw [Registry.step, hi] at hs' <;> cases hs'
      have hloads := loadForApprove_loads (X := X) (E := E) (h.settled sha256 hop) (h.named sha256)
        req tokenId expiryBase approvedAt key
      exact h.load hop (by rw [hi]; rfl) hloads.holding hloads.fits
  | approveIssue i w =>
      rcases hi : s.task i <;> rw [Registry.step, hi] at hs' <;> cases hs'
      exact h.approveIssue hi hop
  | approveSave i w =>
      rcases hi : s.task i <;> rw [Registry.step, hi] at hs' <;> cases hs'
      exact h.approveSave hi hop
  | revokeLoad i sha256 =>
      rcases hi : s.task i <;> rw [Registry.step, hi] at hs' <;> cases hs'
      have hloads := loadForRevoke_loads (h.settled sha256 hop) (h.named sha256)
      exact h.load hop (by rw [hi]; rfl) hloads.holding hloads.fits
  | revokeRemove i removed =>
      rcases hi : s.task i <;> rw [Registry.step, hi] at hs' <;> cases hs'
      exact h.revokeRemove hi removed
  | revokeSave i w =>
      rcases hi : s.task i <;> rw [Registry.step, hi] at hs' <;> cases hs'
      exact h.revokeSave hi hop

end Maranode.Api
