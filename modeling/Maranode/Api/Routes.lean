/-
  Maranode.Api.Routes

  `build_router`, for the routes of the registry, the classification policy, legal holds,
  incidents, workspaces, users and the audit log's retention: which of them ask who a
  request is from.

  A route that asks does what it does afterwards (`body`, which may be anything).  The
  routes that do not ask are here as they are.
-/
import Maranode.Api.Classification
import Maranode.Api.HoldPlacement
import Maranode.Api.Incident
import Maranode.Api.Registry
import Maranode.Store.WorkspaceDb

namespace Maranode.Api

open Lib Common

/-! ## The state -/

/-- What the routes keep: submissions and tokens by model, as their files parse; the
    live policy and what its file parses to; holds with the hold keys; the incident;
    workspaces; users with their sessions; the audit log. -/
structure AppState where
  adminKey : Option String
  submission : String → Option SubmissionRecord
  token : String → Option ApprovalToken
  policy : ClassificationPolicy
  written : Option ClassificationPolicy
  dlp : DlpConfig
  holds : HoldDir
  incident : IncidentSys
  workspaces : Store.Table
  userDb : UserDb
  audit : List (String × AuditEvent)

inductive Reply where
  | refused (e : ApiError)
  | panicked
  | submissions (records : String → Option SubmissionRecord)
  | tokens (tokens : String → Option ApprovalToken)
  | connectivity
  | submission (record : SubmissionRecord)
  | token (token : ApprovalToken)
  | revoked
  | classification (reply : ClassificationReply)
  | holds (records : List HoldRecord)
  | signature (sig : String)
  | incident (inc : Option IncidentState) (auditFrozen : Bool)
  | served

/-- An answer, or the error instead of it. -/
def Reply.ofResult {α : Type} (reply : α → Reply) : ApiResult α → Reply
  | .error e => .refused e
  | .ok a => reply a

namespace AppState

def credentials (s : AppState) (now : DateTime) : Credentials where
  adminKey := s.adminKey
  userDb := s.userDb
  now := now

/-- The part the handlers of the policy work on. -/
def classification (s : AppState) : ClassificationSys where
  policy := s.policy
  written := s.written
  dlp := s.dlp
  audit := s.audit

def withClassification (s : AppState)
    (result : ClassificationSys × ApiResult ClassificationReply) : AppState × Reply :=
  ({ s with policy := result.1.policy, written := result.1.written, audit := result.1.audit },
    .ofResult .classification result.2)

def setSubmission (s : AppState) (sha256 : String) (rec : Option SubmissionRecord) : AppState :=
  { s with submission := Function.update s.submission sha256 rec }

def setToken (s : AppState) (sha256 : String) (t : Option ApprovalToken) : AppState :=
  { s with token := Function.update s.token sha256 t }

/-- `state.audit.append`, whose error the handlers drop. -/
def append (s : AppState) (actor : String) (event : AuditEvent) (appended : Bool) : AppState :=
  if appended then { s with audit := s.audit ++ [(actor, event)] } else s

end AppState

/-! ## routes/registry.rs -/

variable (X : External) (E : Ed25519)

/-- The answer for a model without a submission. -/
def noSubmissionReply (sha256 : String) : Reply :=
  match noSubmission sha256 with
  | .refused msg => .refused (.notFound msg)
  | _ => .panicked

/-- What `approve` takes from around it: an id, two clock readings, the signing key or
    why there is none, and how its writes end. -/
structure Issue where
  tokenId : String
  expiryBase : DateTime
  approvedAt : DateTime
  key : Except String (ByteArr 32)
  tokenWrite : RecordWrite
  recordWrite : RecordWrite
  appended : Bool

/-- The same for `revoke`. -/
structure Revocation where
  removed : Bool
  recordWrite : RecordWrite
  appended : Bool

structure RevokeReq where
  revokedBy : String

namespace AppState

/-- `submit`, up to the ticket it may open. -/
def submit (s : AppState) (req : SubmitReq) (submissionId : String) (now : DateTime)
    (w : RecordWrite) : AppState × Reply :=
  let record := req.record submissionId now
  let s := s.setSubmission record.modelSha256 (w.result (s.submission record.modelSha256) record)
  match w.error with
  | some e => (s, .refused (.internal e))
  | none => (s, .submission record)

/-- The end of `approve` and of `revoke`: the record is saved, and if it is the event is
    logged. -/
def finish (s : AppState) (rec : SubmissionRecord) (w : RecordWrite) (event : AuditEvent)
    (appended : Bool) (reply : Reply) : AppState × Reply :=
  let s := s.setSubmission rec.modelSha256 (w.result (s.submission rec.modelSha256) rec)
  match w.error with
  | some e => (s, .refused (.internal e))
  | none => (s.append "registry" event appended, reply)

def approve (s : AppState) (sha256 : String) (req : ApproveReq) (i : Issue) :
    AppState × Reply :=
  match s.submission sha256 with
  | none => (s, noSubmissionReply sha256)
  | some rec =>
      if rec.status = .revoked then
        (s, .refused (.badRequest "submission already revoked"))
      else
        match i.key with
        | .error e => (s, .refused (.internal e))
        | .ok key =>
            if req.expiryInRange i.expiryBase = false then (s, .panicked)
            else
              let token := req.token X E rec sha256 i.tokenId i.expiryBase i.approvedAt key
              let s := s.setToken sha256 (i.tokenWrite.result (s.token sha256) token)
              match i.tokenWrite.error with
              | some e => (s, .refused (.internal e))
              | none =>
                  s.finish { rec with status := .approved } i.recordWrite
                    (.modelApprovalGranted rec.modelId sha256 req.approvedBy token.tokenId
                      token.signerPubkey)
                    i.appended (.token token)

/-- `revoke`.  That the token's file cannot be removed is passed over. -/
def revoke (s : AppState) (sha256 : String) (req : RevokeReq) (r : Revocation) :
    AppState × Reply :=
  match s.submission sha256 with
  | none => (s, noSubmissionReply sha256)
  | some rec =>
      let tokenId := ((s.token sha256).map (·.tokenId)).getD ""
      let s := if r.removed then s.setToken sha256 none else s
      s.finish { rec with status := .revoked } r.recordWrite
        (.modelApprovalRevoked rec.modelId sha256 req.revokedBy tokenId) r.appended .revoked

end AppState

/-! ## Routes that ask -/

/-- How a handler finds out who the request is from: it takes a `UserCtx` and may require
    a permission, takes an `AdminCtx`, or calls `authorize_permission`. -/
inductive Check where
  | userCtx (required : Option Permission)
  | adminCtx
  | authorizePermission (perm : Permission)

/-- The handlers that ask. -/
inductive GuardedRoute where
  | generateKey
  | place
  | release
  | declare
  | investigate
  | resolve
  | snapshot
  | bgGenerate
  | bgUse
  | listWorkspaces
  | getWorkspace
  | createWorkspace
  | updateWorkspace
  | delWorkspace
  | listUsers
  | getUser
  | createUser
  | updateUser
  | delUser
  | setPassword
  | listSessions
  | revokeSession
  | revokeOtherSessions
  | doPrune

def GuardedRoute.check : GuardedRoute → Check
  | .generateKey => .userCtx none
  | .place => .userCtx none
  | .release => .userCtx none
  | .declare => .userCtx (some .incidentManage)
  | .investigate => .userCtx (some .incidentManage)
  | .resolve => .userCtx (some .incidentManage)
  | .snapshot => .userCtx (some .incidentManage)
  | .bgGenerate => .userCtx (some .incidentManage)
  | .bgUse => .userCtx (some .incidentManage)
  | .listWorkspaces => .authorizePermission .workspaceManage
  | .getWorkspace => .authorizePermission .workspaceManage
  | .createWorkspace => .authorizePermission .workspaceManage
  | .updateWorkspace => .authorizePermission .workspaceManage
  | .delWorkspace => .authorizePermission .workspaceManage
  | .listUsers => .adminCtx
  | .getUser => .adminCtx
  | .createUser => .adminCtx
  | .updateUser => .adminCtx
  | .delUser => .adminCtx
  | .setPassword => .adminCtx
  | .listSessions => .userCtx none
  | .revokeSession => .userCtx none
  | .revokeOtherSessions => .userCtx none
  | .doPrune => .authorizePermission .auditPrune

/-- The user the handler goes on with, where it has one. -/
def Check.admission (c : Credentials) (authorization : Option String) :
    Check → ApiResult (Option User)
  | .userCtx required =>
      match c.userCtx X authorization with
      | .error e => .error e.toApiError
      | .ok user =>
          match required with
          | none => .ok (some user)
          | some perm => (user.require perm).map fun _ => some user
  | .adminCtx =>
      match c.adminCtx X authorization with
      | .error e => .error e.toApiError
      | .ok user => .ok (some user)
  | .authorizePermission perm => (c.authorizePermission X authorization perm).map fun _ => none

/-! ## Requests -/

/-- A request to one of the routes, with what its handler takes from around it. -/
inductive Call where
  | approvalUi
  | listPending
  | listTokens
  | hooksTest
  | submit (req : SubmitReq) (submissionId : String) (now : DateTime) (w : RecordWrite)
  | approve (sha256 : String) (req : ApproveReq) (i : Issue)
  | revoke (sha256 : String) (req : RevokeReq) (r : Revocation)
  | getPolicy
  | setCollection (name : String) (req : SetCollectionReq) (o : Outcome)
  | removeCollection (name : String) (o : Outcome)
  | setWorkspace (slug : String) (req : SetWorkspaceReq) (o : Outcome)
  | dlpSync (req : SyncRequest) (services : DlpServices) (o : Outcome)
  | signRelease (holdId releasedBy privkeyHex : String) (at_ : DateTime)
  | listHolds
  | incidentStatus
  | guarded (route : GuardedRoute) (body : Option User → AppState → AppState)

structure Request where
  authorization : Option String
  call : Call

variable (toLowercase : String → String)

namespace AppState

/-- A handler behind a check. -/
def behind (s : AppState) (c : Check) (authorization : Option String) (now : DateTime)
    (body : Option User → AppState × Reply) : AppState × Reply :=
  match c.admission X (s.credentials now) authorization with
  | .error e => (s, .refused e)
  | .ok user => body user

def serve (s : AppState) (now : DateTime) (r : Request) : AppState × Reply :=
  match r.call with
  | .approvalUi => (s, .submissions s.submission)
  | .listPending => (s, .submissions s.submission)
  | .listTokens => (s, .tokens s.token)
  | .hooksTest => (s, .connectivity)
  | .submit req submissionId at_ w => s.submit req submissionId at_ w
  | .approve sha256 req i => s.approve X E sha256 req i
  | .revoke sha256 req rv => s.revoke sha256 req rv
  | .getPolicy => s.withClassification (s.classification, .ok (.policy s.policy))
  | .setCollection name req o => s.withClassification (s.classification.setCollection name req o)
  | .removeCollection name o => s.withClassification (s.classification.removeCollection name o)
  | .setWorkspace slug req o => s.withClassification (s.classification.setWorkspace slug req o)
  | .dlpSync req services o =>
      s.behind X (.userCtx (some .dlpManage)) r.authorization now fun
        | some user =>
            s.withClassification (s.classification.dlpSync toLowercase user req services o)
        | none => (s, .served)
  | .signRelease holdId releasedBy privkeyHex at_ =>
      (s, .ofResult .signature
        ((signReleasePayload X E holdId releasedBy at_ privkeyHex).mapError .badRequest))
  | .listHolds => (s, .holds s.holds.list)
  | .incidentStatus => (s, .incident s.incident.guard s.incident.auditFrozen)
  | .guarded route body =>
      s.behind X route.check r.authorization now fun user => (body user s, .served)

end AppState

/-! ## What a request leaves as it was -/

/-- Nothing the routes keep has changed. -/
structure AppState.Unchanged (s s' : AppState) : Prop where
  submission : s'.submission = s.submission
  token : s'.token = s.token
  policy : s'.policy.Same s.policy
  written : Option.Rel ClassificationPolicy.Same s'.written s.written
  holds : s'.holds = s.holds
  incident : s'.incident = s.incident
  workspaces : s'.workspaces = s.workspaces
  userDb : s'.userDb = s.userDb
  audit : s'.audit = s.audit

/-- The end of an approve or a revoke writes nothing that was not there. -/
def AppState.FinishesSame (s : AppState) (rec : SubmissionRecord) (w : RecordWrite)
    (appended : Bool) : Prop :=
  w.NoChange (s.submission rec.modelSha256) rec ∧ (w = .written → appended = false)

/-- A write of the live policy that leaves its file as it was. -/
def AppState.PolicyFileStays (s : AppState) (w : RecordWrite) : Prop :=
  match w with
  | .written => s.classification.InStep
  | .refused _ => True
  | .cutOff _ => s.written = none

/-- A change of the policy that is there already, live and in the file. -/
def AppState.AlreadyThere (s : AppState) (r : ClassificationRequest) (o : Outcome) : Prop :=
  s.classification.AlreadyThere toLowercase r ∧ s.PolicyFileStays o.save

/-- The six handlers that do not ask turn the request down, or every write they get to
    leaves its file as it was and nothing is logged.  The rest do nothing without a
    credential. -/
def AppState.Spares (s : AppState) : Call → Prop
  | .submit req submissionId now w =>
      w.NoChange (s.submission req.modelSha256) (req.record submissionId now)
  | .approve sha256 req i =>
      ∀ rec, s.submission sha256 = some rec → rec.status ≠ .revoked →
        ∀ key, i.key = .ok key → req.expiryInRange i.expiryBase = true →
          i.tokenWrite.NoChange (s.token sha256)
              (req.token X E rec sha256 i.tokenId i.expiryBase i.approvedAt key) ∧
            (i.tokenWrite = .written →
              s.FinishesSame { rec with status := .approved } i.recordWrite i.appended)
  | .revoke sha256 _ r =>
      ∀ rec, s.submission sha256 = some rec →
        (r.removed = true → s.token sha256 = none) ∧
          s.FinishesSame { rec with status := .revoked } r.recordWrite r.appended
  | .setCollection name req o =>
      s.AlreadyThere toLowercase (.setCollection name req) o ∧
        (o.save = .written → o.appended = false)
  | .removeCollection name _ => s.policy.collections.lookup name = none
  | .setWorkspace slug req o => s.AlreadyThere toLowercase (.setWorkspace slug req) o
  | _ => True

variable {X E toLowercase} {s : AppState}

/-! ## Without a credential -/

theorem policyFile_refl (file : Option ClassificationPolicy) :
    Option.Rel ClassificationPolicy.Same file file := by
  cases file with
  | none => exact .none
  | some p => exact .some (.refl p)

namespace AppState

theorem Unchanged.refl (s : AppState) : s.Unchanged s where
  submission := rfl
  token := rfl
  policy := .refl _
  written := policyFile_refl _
  holds := rfl
  incident := rfl
  workspaces := rfl
  userDb := rfl
  audit := rfl

end AppState

end Maranode.Api
