/-
  Maranode.Api.RequestPaths

  The files that the identifiers of a request lead to: `routes/registry.rs`,
  `routes/audit.rs` and `legal_hold.rs`.

  Six handlers make a file name of a text the request brings.  None of them looks at the
  text first, so a text that climbs out of the directory of its kind is followed, and a text
  that has no file is quoted up to its twelfth byte, inside a character or not.
-/
import Maranode.Api.Recovery
import Maranode.Api.Routes
import Maranode.Lib.FileCalls
import Maranode.Store.Blob

namespace Maranode.Api.RequestPaths

open Lib Common

variable (X : External) (E : Ed25519) (dataDir : Path)

/-! ## routes/registry.rs -/

def pendingDir : Path := Path.join (Path.join dataDir "registry".toList) "pending".toList

def tokensDir : Path := Path.join dataDir "approval-tokens".toList

/-- `<id>.json` -/
def recordName (id : String) : Text := id.toList ++ ".json".toList

def tokenName (sha256 : String) : Text := sha256.toList ++ ".mrn-token".toList

def submissionPath (sha256 : String) : Path := Path.join (pendingDir dataDir) (recordName sha256)

def tokenPath (sha256 : String) : Path := ApprovalToken.tokenPath (tokensDir dataDir) sha256

def loadSubmission (sha256 : String) : FileM (Option SubmissionRecord) := do
  let bytes ← FileM.read [pendingDir dataDir] (submissionPath dataDir sha256)
  pure (Api.loadSubmission X bytes.toOption)

def saveSubmission (rec : SubmissionRecord) : FileM (Except String Unit) :=
  FileM.save (pendingDir dataDir) (pendingDir dataDir) (recordName rec.modelSha256)

/-- `ApprovalToken::save`. -/
def saveToken (sha256 : String) : FileM (Except String Unit) :=
  FileM.save (Path.above (tokenPath dataDir sha256)) (tokensDir dataDir) (tokenName sha256)

/-- `load_or_create_signing_key`. -/
def loadOrCreateSigningKey (generated : ByteArr 32) : FileM (Except String (ByteArr 32)) := do
  if ← FileM.present (Path.join dataDir "approval_signing.key".toList) then
    match ← FileM.read [dataDir] (Path.join dataDir "approval_signing.key".toList) with
    | .error e => pure (.error e)
    | .ok bytes => pure (context "approval signing key wrong length" (ByteArr.ofBytes 32 bytes))
  else
    match ← FileM.save dataDir dataDir "approval_signing.key".toList with
    | .error e => pure (.error e)
    | .ok _ =>
        match ← FileM.write [dataDir] (Path.join dataDir "approval_signing.pub".toList) with
        | .error e => pure (.error e)
        | .ok _ => pure (.ok generated)

/-- The answer for a hash without a submission, which quotes the hash. -/
def refuseUnknown {α : Type} (sha256 : String) : FileM (ApiResult α) :=
  match noSubmission sha256 with
  | .refused msg => pure (.error (.notFound msg))
  | _ => FileM.halt .slice

def submit (req : SubmitReq) (submissionId : String) (now : DateTime) :
    FileM (ApiResult SubmissionRecord) := do
  match ← saveSubmission dataDir (req.record submissionId now) with
  | .error e => pure (.error (.internal e))
  | .ok _ => pure (.ok (req.record submissionId now))

/-- `open_ticket`, up to what the systems answer. -/
def openTicket (sha256 : String) (ticket : Option (String × String)) :
    FileM (Option (String × String)) :=
  match Text.decode ((Text.encode sha256.toList).take 12) with
  | some _ => pure ticket
  | none => FileM.halt .slice

/-- The task that `submit` spawns when a system for tickets is configured. -/
def attachTicket (sha256 : String) (ticket : Option (String × String)) : FileM Unit := do
  match ← openTicket sha256 ticket with
  | none => pure ()
  | some (ticketId, system) =>
      match ← loadSubmission X dataDir sha256 with
      | none => pure ()
      | some rec =>
          let _ ← saveSubmission dataDir
            { rec with cmTicketId := some ticketId, cmSystem := some system }
          pure ()

/-- What `approve` takes from around it. -/
structure ApproveEnv where
  tokenId : String
  expiryBase : DateTime
  approvedAt : DateTime
  generated : ByteArr 32

def approve (sha256 : String) (req : ApproveReq) (env : ApproveEnv) :
    FileM (ApiResult ApprovalToken) := do
  match ← loadSubmission X dataDir sha256 with
  | none => refuseUnknown sha256
  | some rec =>
      if rec.status = .revoked then
        pure (.error (.badRequest "submission already revoked"))
      else
        match ← loadOrCreateSigningKey dataDir env.generated with
        | .error e => pure (.error (.internal e))
        | .ok key =>
            if req.expiryInRange env.expiryBase = false then FileM.halt .overflow
            else
              match ← saveToken dataDir sha256 with
              | .error e => pure (.error (.internal e))
              | .ok _ =>
                  match ← saveSubmission dataDir { rec with status := .approved } with
                  | .error e => pure (.error (.internal e))
                  | .ok _ =>
                      pure (.ok (req.token X E rec sha256 env.tokenId env.expiryBase
                        env.approvedAt key))

/-- The token file goes; the id of its token is kept for the log. -/
def removeToken (sha256 : String) : FileM String := do
  if ← FileM.present (tokenPath dataDir sha256) then
    let file ← FileM.read [tokensDir dataDir] (tokenPath dataDir sha256)
    let _ ← FileM.remove [tokensDir dataDir] (tokenPath dataDir sha256)
    pure ((file.toOption.bind (ApprovalToken.fromSlice X)).elim "" (·.tokenId))
  else pure ""

/-- `revoke`, with the id of the token that goes. -/
def revoke (sha256 : String) : FileM (ApiResult String) := do
  match ← loadSubmission X dataDir sha256 with
  | none => refuseUnknown sha256
  | some rec =>
      let tokenId ← removeToken X dataDir sha256
      match ← saveSubmission dataDir { rec with status := .revoked } with
      | .error e => pure (.error (.internal e))
      | .ok _ => pure (.ok tokenId)

/-! ## legal_hold.rs -/

def holdsDir : Path := Path.join dataDir "legal-holds".toList

def holdPath (holdId : String) : Path := Path.join (holdsDir dataDir) (recordName holdId)

def loadHold (holdId : String) : FileM (Except String HoldRecord) := do
  match ← FileM.read [holdsDir dataDir] (holdPath dataDir holdId) with
  | .error _ => pure (.error s!"hold '{holdId}' not found")
  | .ok bytes => pure (context "parse hold record" (((holdFile X).read bytes).map Subtype.val))

def saveHold (record : HoldRecord) : FileM (Except String Unit) :=
  FileM.save (holdsDir dataDir) (holdsDir dataDir) (recordName record.id)

/-- The key in the text of `hold.pub`. -/
def holdPubkey (file : Option Bytes) : Except String (ByteArr 32) :=
  Api.loadHoldPubkey E { HoldDir.empty with holdPub := file }

def loadHoldPubkey : FileM (Except String (ByteArr 32)) := do
  let file ← FileM.read [dataDir] (Path.join dataDir "hold.pub".toList)
  pure (holdPubkey E file.toOption)

def releaseHold (holdId releasedBy releaseSigB64 : String) (clk : ReleaseClock) :
    FileM (Except String HoldRecord) := do
  match ← loadHold X dataDir holdId with
  | .error e => pure (.error e)
  | .ok record =>
      if record.isActive clk.active = false then pure (.error s!"hold '{holdId}' is not active")
      else
        match ← loadHoldPubkey E dataDir with
        | .error e => pure (.error e)
        | .ok pubkey =>
            match decodeReleaseSig releaseSigB64 with
            | .error e => pure (.error e)
            | .ok sig =>
                if E.verify pubkey (releasePayload X holdId releasedBy clk.releasedAt) sig then
                  match ← saveHold dataDir
                    (record.release clk.releasedAt releasedBy releaseSigB64) with
                  | .error e => pure (.error e)
                  | .ok _ => pure (.ok (record.release clk.releasedAt releasedBy releaseSigB64))
                else pure (.error "release signature verification failed — wrong hold key?")

/-- `release` of `routes/hold.rs`, with what `UserCtx` says. -/
def release (user : ApiResult String) (holdId releaseSigB64 : String) (clk : ReleaseClock) :
    FileM (ApiResult HoldRecord) :=
  match user with
  | .error e => pure (.error e)
  | .ok username => do
      match ← releaseHold X E dataDir holdId username releaseSigB64 clk with
      | .error e => pure (.error (.badRequest e))
      | .ok record => pure (.ok record)

/-! ## routes/audit.rs -/

def workspacesDir : Path := Path.join dataDir "workspaces".toList

def workspaceDir (slug : String) : Path := Path.join (workspacesDir dataDir) slug.toList

def defaultLogPath (dir : Path) : Path := Path.join dir "audit.jsonl".toList

def defaultKeyPath (dir : Path) : Path := Path.join dir "audit.key".toList

/-- The directories a workspace's files are meant to be in. -/
def workspaceDirs (slug : String) : List Path := [workspacesDir dataDir, workspaceDir dataDir slug]

def noAuditLog (slug : String) : ApiError :=
  .notFound s!"no audit log found for workspace '{slug}': has it received any requests?"

/-- `resolve_log_and_filter`: the directories of the log, the last one its own. -/
def resolveLog : Option String → FileM (ApiResult (List Path × Path))
  | none => pure (.ok ([dataDir], dataDir))
  | some slug => do
      if ← FileM.present (defaultLogPath (workspaceDir dataDir slug)) then
        pure (.ok (workspaceDirs dataDir slug, workspaceDir dataDir slug))
      else pure (.error (noAuditLog slug))

/-- `read_recent`, up to the lines of the log. -/
def readRecent (dirs : List Path) (dir : Path) : FileM (Except String Bytes) := do
  if ← FileM.present (defaultLogPath dir) then FileM.read dirs (defaultLogPath dir)
  else pure (.ok [])

structure ExportQuery where
  format : String
  workspace : Option String

def formats : List String := ["gdpr", "hipaa", "soc2", "iso27001"]

/-- One of the four exports of a log. -/
def renderLog (csv : String → Bytes → Except String String) (q : ExportQuery) (dirs : List Path)
    (dir : Path) : FileM (ApiResult String) := do
  if formats.contains q.format then
    match ← readRecent dirs dir with
    | .error e => pure (.error (.internal e))
    | .ok content =>
        match csv q.format content with
        | .error e => pure (.error (.internal e))
        | .ok text => pure (.ok text)
  else
    pure (.error (.badRequest
      s!"unknown format '{q.format}': expected: gdpr, hipaa, soc2, iso27001"))

/-- `export_entries`, with what `authorize_permission` says and how the log is rendered. -/
def exportEntries (auth : ApiResult Unit) (csv : String → Bytes → Except String String)
    (q : ExportQuery) : FileM (ApiResult String) :=
  match auth with
  | .error e => pure (.error e)
  | .ok _ => do
      match ← resolveLog dataDir q.workspace with
      | .error e => pure (.error e)
      | .ok (dirs, dir) => renderLog csv q dirs dir

/-- `key::load`.  `isPrivate`: the permissions of the file are those of a key. -/
def loadKey (isPrivate : Bool) (dirs : List Path) (path : Path) : FileM (Except String Bytes) := do
  if ← FileM.present path then
    if isPrivate then
      match ← FileM.read dirs path with
      | .error e => pure (.error e)
      | .ok bytes =>
          if bytes.length = 32 then pure (.ok bytes)
          else pure (.error s!"audit key has unexpected length {bytes.length} (expected 32)")
    else pure (.error "audit key is accessible by group/other")
  else pure (.error "audit key not found: refusing to verify/export without it")

/-- `sign::load_or_create`: whether there is a key to sign with. -/
def loadOrCreateBundleKey : FileM Unit := do
  if ← FileM.present (Path.join dataDir "bundle_signing.key".toList) then
    let _ ← FileM.read [dataDir] (Path.join dataDir "bundle_signing.key".toList)
    pure ()
  else
    match ← FileM.write [dataDir] (Path.join dataDir "bundle_signing.key".toList) with
    | .error _ => pure ()
    | .ok _ =>
        let _ ← FileM.write [dataDir] (Path.join dataDir "bundle_signing.pub".toList)
        pure ()

/-- What a bundle takes from around it. -/
structure BundleEnv where
  measured : Bool
  isPrivate : Bool

/-- `AttestationReport::generate`: the log is read, and then the key. -/
def attest (env : BundleEnv) (dirs : List Path) (dir : Path) : FileM Unit := do
  if env.measured then
    if ← FileM.present (defaultLogPath dir) then
      match ← FileM.read dirs (defaultLogPath dir) with
      | .error _ => pure ()
      | .ok _ =>
          let _ ← loadKey env.isPrivate dirs (defaultKeyPath dir)
          pure ()
    else pure ()
  else pure ()

/-- `create_bundle_with_attestation`, in `output`.  A log that is no text is not verified. -/
def createBundle (env : BundleEnv) (dirs : List Path) (dir : Path) (output : Text) :
    FileM (Except String Unit) := do
  match ← FileM.read dirs (defaultLogPath dir) with
  | .error e => pure (.error e)
  | .ok log =>
      match ← loadKey env.isPrivate dirs (defaultKeyPath dir) with
      | .error e => pure (.error e)
      | .ok _ =>
          match Text.decode log with
          | none => pure (.error "stream did not contain valid UTF-8")
          | some _ => FileM.write [dataDir] (Path.join dataDir output)

def bundleName : Option String → Text
  | none => "audit_bundle_tmp.zip".toList
  | some slug => "audit_bundle_".toList ++ slug.toList ++ "_tmp.zip".toList

def buildBundleResponse (env : BundleEnv) (workspace : Option String) :
    FileM (ApiResult Bytes) := do
  match ← resolveLog dataDir workspace with
  | .error e => pure (.error e)
  | .ok (dirs, dir) =>
      loadOrCreateBundleKey dataDir
      attest env dirs dir
      match ← createBundle dataDir env dirs dir (bundleName workspace) with
      | .error e => pure (.error (.internal e))
      | .ok _ =>
          match ← FileM.read [dataDir] (Path.join dataDir (bundleName workspace)) with
          | .error e => pure (.error (.internal e))
          | .ok bytes =>
              let _ ← FileM.remove [dataDir] (Path.join dataDir (bundleName workspace))
              pure (.ok bytes)

/-- `download_workspace_bundle`. -/
def downloadWorkspaceBundle (auth : ApiResult Unit) (env : BundleEnv) (slug : String) :
    FileM (ApiResult Bytes) :=
  match auth with
  | .error e => pure (.error e)
  | .ok _ => buildBundleResponse dataDir env (some slug)

/-! ## Requests -/

/-- A request with an identifier in it.  `ticket`: whether a system for tickets is configured,
    and the ticket it opens. -/
inductive Request where
  | submit (req : SubmitReq) (submissionId : String) (now : DateTime)
      (ticket : Option (Option (String × String)))
  | approve (sha256 : String) (req : ApproveReq) (env : ApproveEnv)
  | revoke (sha256 : String)
  | release (user : ApiResult String) (holdId releaseSigB64 : String) (clk : ReleaseClock)
  | exportEntries (auth : ApiResult Unit) (csv : String → Bytes → Except String String)
      (q : ExportQuery)
  | downloadWorkspaceBundle (auth : ApiResult Unit) (env : BundleEnv) (slug : String)

/-- The handler and the task it spawns touch only what is inside the directories meant for
    it, and cut no text inside a character.  The task runs later, on `fs'`. -/
def Contained (cwd : List Text) (fs fs' : FileSystem) : Request → Prop
  | .submit req submissionId now ticket =>
      (submit dataDir req submissionId now).Keeps cwd fs ∧
        ∀ opened rec, ticket = some opened →
          (submit dataDir req submissionId now fs).ended = .ok (.ok rec) →
          (attachTicket X dataDir rec.modelSha256 opened).Keeps cwd fs'
  | .approve sha256 req env => (approve X E dataDir sha256 req env).Keeps cwd fs
  | .revoke sha256 => (revoke X dataDir sha256).Keeps cwd fs
  | .release user holdId releaseSigB64 clk =>
      (release X E dataDir user holdId releaseSigB64 clk).Keeps cwd fs
  | .exportEntries auth csv q => (exportEntries dataDir auth csv q).Keeps cwd fs
  | .downloadWorkspaceBundle auth env slug =>
      (downloadWorkspaceBundle dataDir auth env slug).Keeps cwd fs

/-! ## Identifiers that stay -/

/-- The twelfth byte ends a character, or there are no more. -/
def Quotable (sha256 : String) : Prop :=
  ∃ cs : Text, cs <+: sha256.toList ∧
    (Text.encode cs).length = min 12 (Text.encode sha256.toList).length

/-- The record in the file of the hash. -/
def stored (fs : FileSystem) (sha256 : String) : Option SubmissionRecord :=
  Api.loadSubmission X (fs.content (submissionPath dataDir sha256)).toOption

/-- The hold in the file of the id. -/
def storedHold (fs : FileSystem) (holdId : String) : Except String HoldRecord :=
  match fs.content (holdPath dataDir holdId) with
  | .error _ => .error s!"hold '{holdId}' not found"
  | .ok bytes => context "parse hold record" (((holdFile X).read bytes).map Subtype.val)

/-- If the file of the name can be read, the name stays. -/
def ReadStays (cwd : List Text) (fs : FileSystem) (dir : Path) (name : Text) : Prop :=
  (fs.content (Path.join dir name)).isOk = true → Path.Stays cwd dir name

/-- If the file of the name can be opened to be written, the name stays. -/
def SaveStays (cwd : List Text) (fs : FileSystem) (made dir : Path) (name : Text) : Prop :=
  fs.Touches made (Path.join dir name) → Path.Stays cwd dir name

/-- If the record's own file can be opened to be written, its hash stays. -/
def RecordStays (cwd : List Text) (fs : FileSystem) (rec : SubmissionRecord) : Prop :=
  SaveStays cwd fs (pendingDir dataDir) (pendingDir dataDir) (recordName rec.modelSha256)

/-- The key that `load_or_create_signing_key` finds or makes. -/
def signingKey (fs : FileSystem) (generated : ByteArr 32) : Except String (ByteArr 32) :=
  if fs.present (Path.join dataDir "approval_signing.key".toList) then
    (fs.content (Path.join dataDir "approval_signing.key".toList)).bind fun bytes =>
      context "approval signing key wrong length" (ByteArr.ofBytes 32 bytes)
  else
    (fs.saved dataDir (Path.join dataDir "approval_signing.key".toList)).bind fun _ =>
      (fs.written (Path.join dataDir "approval_signing.pub".toList)).map fun _ => generated

/-- The task for the ticket: the hash can be quoted, and what is read and saved stays. -/
def TicketStays (cwd : List Text) (fs : FileSystem) (sha256 : String)
    (ticket : Option (String × String)) : Prop :=
  Quotable sha256 ∧
    (ticket.isSome = true → ReadStays cwd fs (pendingDir dataDir) (recordName sha256) ∧
      ∀ rec, stored X dataDir fs sha256 = some rec → RecordStays dataDir cwd fs rec)

def ApproveStays (cwd : List Text) (fs : FileSystem) (sha256 : String) (req : ApproveReq)
    (env : ApproveEnv) : Prop :=
  ReadStays cwd fs (pendingDir dataDir) (recordName sha256) ∧
    (stored X dataDir fs sha256 = none → Quotable sha256) ∧
    ∀ rec, stored X dataDir fs sha256 = some rec → rec.status ≠ .revoked →
      (∃ key, signingKey dataDir fs env.generated = .ok key) →
      req.expiryInRange env.expiryBase = true →
      SaveStays cwd fs (Path.above (tokenPath dataDir sha256)) (tokensDir dataDir)
          (tokenName sha256) ∧
        (fs.saved (Path.above (tokenPath dataDir sha256)) (tokenPath dataDir sha256) = .ok () →
          RecordStays dataDir cwd fs rec)

def RevokeStays (cwd : List Text) (fs : FileSystem) (sha256 : String) : Prop :=
  ReadStays cwd fs (pendingDir dataDir) (recordName sha256) ∧
    (stored X dataDir fs sha256 = none → Quotable sha256) ∧
    ∀ rec, stored X dataDir fs sha256 = some rec →
      (fs.present (tokenPath dataDir sha256) = true →
        ((fs.content (tokenPath dataDir sha256)).isOk = true ∨
            (fs.removes (tokenPath dataDir sha256)).isOk = true →
          Path.Stays cwd (tokensDir dataDir) (tokenName sha256))) ∧
      RecordStays dataDir cwd fs rec

/-- The hold is active and the signature is one of its release. -/
def Releasable (fs : FileSystem) (holdId releasedBy releaseSigB64 : String) (clk : ReleaseClock)
    (record : HoldRecord) : Prop :=
  record.isActive clk.active = true ∧
    ∃ pubkey sig, holdPubkey E
        (fs.content (Path.join dataDir "hold.pub".toList)).toOption = .ok pubkey ∧
      decodeReleaseSig releaseSigB64 = .ok sig ∧
      E.verify pubkey (releasePayload X holdId releasedBy clk.releasedAt) sig = true

def ReleaseStays (cwd : List Text) (fs : FileSystem) (user : ApiResult String)
    (holdId releaseSigB64 : String) (clk : ReleaseClock) : Prop :=
  ∀ username, user = .ok username →
    ReadStays cwd fs (holdsDir dataDir) (recordName holdId) ∧
    ∀ record, storedHold X dataDir fs holdId = .ok record →
      Releasable X E dataDir fs holdId username releaseSigB64 clk record →
      SaveStays cwd fs (holdsDir dataDir) (holdsDir dataDir) (recordName record.id)

/-- The log of the workspace is there and can be read. -/
def LogReadable (fs : FileSystem) (slug : String) (log : Bytes) : Prop :=
  fs.present (defaultLogPath (workspaceDir dataDir slug)) = true ∧
    fs.content (defaultLogPath (workspaceDir dataDir slug)) = .ok log

def ExportStays (cwd : List Text) (fs : FileSystem) (auth : ApiResult Unit) (q : ExportQuery) :
    Prop :=
  ∀ slug log, auth = .ok () → q.workspace = some slug → formats.contains q.format = true →
    LogReadable dataDir fs slug log → Path.Stays cwd (workspacesDir dataDir) slug.toList

/-- The key of the workspace is there, and one that `key::load` takes. -/
def KeyLoads (fs : FileSystem) (isPrivate : Bool) (path : Path) : Prop :=
  fs.present path = true ∧ isPrivate = true ∧
    ∃ bytes, fs.content path = .ok bytes ∧ bytes.length = 32

def BundleStays (cwd : List Text) (fs : FileSystem) (auth : ApiResult Unit) (env : BundleEnv)
    (slug : String) : Prop :=
  ∀ log, auth = .ok () → LogReadable dataDir fs slug log →
    Path.Stays cwd (workspacesDir dataDir) slug.toList ∧
    (KeyLoads fs env.isPrivate (defaultKeyPath (workspaceDir dataDir slug)) →
      (Text.decode log).isSome = true →
      (fs.opens (Path.join dataDir (bundleName (some slug)))).isOk = true →
      Path.Stays cwd dataDir (bundleName (some slug)))

/-- What a request is to bring for the files to be where they are meant to be. -/
def Harmless (cwd : List Text) (fs fs' : FileSystem) : Request → Prop
  | .submit req submissionId now ticket =>
      RecordStays dataDir cwd fs (req.record submissionId now) ∧
        ∀ opened, ticket = some opened →
          fs.saved (pendingDir dataDir) (submissionPath dataDir req.modelSha256) = .ok () →
          TicketStays X dataDir cwd fs' req.modelSha256 opened
  | .approve sha256 req env => ApproveStays X dataDir cwd fs sha256 req env
  | .revoke sha256 => RevokeStays X dataDir cwd fs sha256
  | .release user holdId releaseSigB64 clk =>
      ReleaseStays X E dataDir cwd fs user holdId releaseSigB64 clk
  | .exportEntries auth _ q => ExportStays dataDir cwd fs auth q
  | .downloadWorkspaceBundle auth env slug => BundleStays dataDir cwd fs auth env slug

variable {X E dataDir} {cwd : List Text} {fs fs' : FileSystem} {sha256 : String}

/-! ## Quoting -/

theorem decode_take_isSome :
    (Text.decode ((Text.encode sha256.toList).take 12)).isSome = true ↔ Quotable sha256 := by
  constructor
  · intro h
    obtain ⟨cs, hcs⟩ := Option.isSome_iff_exists.mp h
    have henc := Text.encode_eq_of_decode hcs
    have happend : (Text.encode sha256.toList).take 12 ++ [] = Text.encode cs := by
      rw [List.append_nil, henc]
    have hend : ∀ (b : UInt8) (r : Bytes), [] = b :: r → b.toNat < 128 := fun b r h => nomatch h
    obtain ⟨n, ds, hp, hq, -⟩ := Text.exists_take_of_decode
      (List.take_prefix 12 (Text.encode sha256.toList)) hend happend
    refine ⟨sha256.toList.take n, List.take_prefix _ _, ?_⟩
    rw [← hp, List.length_take]
  · rintro ⟨cs, ⟨rest, hrest⟩, hlen⟩
    have htake : (Text.encode sha256.toList).take 12 = Text.encode cs := by
      rw [← hrest, Text.encode_append] at hlen ⊢
      rw [List.length_append] at hlen
      by_cases hshort : (Text.encode cs ++ Text.encode rest).length ≤ 12
      · rw [List.take_of_length_le hshort]
        rw [List.length_append] at hshort
        have hnil : (Text.encode rest).length = 0 := by omega
        rw [List.eq_nil_of_length_eq_zero hnil, List.append_nil]
      · rw [List.length_append] at hshort
        have hcut : (Text.encode cs).length = 12 := by omega
        rw [← hcut, List.take_left]
    rw [htake, Text.decode_encode]
    rfl

theorem keeps_refuseUnknown {α : Type} :
    (refuseUnknown sha256 : FileM (ApiResult α)).Keeps cwd fs ↔ Quotable sha256 := by
  rw [← decode_take_isSome, refuseUnknown, noSubmission]
  cases Text.decode ((Text.encode sha256.toList).take 12) with
  | none =>
      exact iff_of_false (fun h => FileM.keeps_halt.mp h rfl) fun h => absurd h Bool.false_ne_true
  | some cs => exact iff_of_true (FileM.keeps_pure _) rfl

/-! ## Submissions -/

theorem ended_loadSubmission :
    (loadSubmission X dataDir sha256 fs).ended = .ok (stored X dataDir fs sha256) := rfl

theorem keeps_loadSubmission :
    (loadSubmission X dataDir sha256).Keeps cwd fs ↔
      ReadStays cwd fs (pendingDir dataDir) (recordName sha256) := by
  rw [loadSubmission, FileM.keeps_bind rfl, submissionPath, FileM.keeps_readIn, ReadStays]
  exact and_iff_left (FileM.keeps_pure _)

theorem ended_saveSubmission {rec : SubmissionRecord} :
    (saveSubmission dataDir rec fs).ended =
      .ok (fs.saved (pendingDir dataDir) (submissionPath dataDir rec.modelSha256)) :=
  FileM.ended_save

theorem keeps_saveSubmission {rec : SubmissionRecord} :
    (saveSubmission dataDir rec).Keeps cwd fs ↔ RecordStays dataDir cwd fs rec :=
  FileM.keeps_save

theorem ended_submit {req : SubmitReq} {submissionId : String} {now : DateTime}
    {rec : SubmissionRecord} :
    (submit dataDir req submissionId now fs).ended = .ok (.ok rec) ↔
      fs.saved (pendingDir dataDir) (submissionPath dataDir req.modelSha256) = .ok () ∧
        rec = req.record submissionId now := by
  rw [submit, FileM.ended_bind ended_saveSubmission]
  have hsha : (req.record submissionId now).modelSha256 = req.modelSha256 := rfl
  rw [hsha]
  cases fs.saved (pendingDir dataDir) (submissionPath dataDir req.modelSha256) with
  | error e => exact ⟨fun h => (by cases h), fun h => (by cases h.1)⟩
  | ok _ =>
      constructor
      · intro h
        exact ⟨rfl, (Except.ok.inj (Except.ok.inj h)).symm⟩
      · rintro ⟨-, rfl⟩
        rfl

theorem keeps_submit {req : SubmitReq} {submissionId : String} {now : DateTime} :
    (submit dataDir req submissionId now).Keeps cwd fs ↔
      RecordStays dataDir cwd fs (req.record submissionId now) := by
  rw [submit, FileM.keeps_bind ended_saveSubmission, keeps_saveSubmission]
  refine and_iff_left ?_
  cases fs.saved (pendingDir dataDir)
      (submissionPath dataDir (req.record submissionId now).modelSha256) with
  | error e => exact FileM.keeps_pure _
  | ok _ => exact FileM.keeps_pure _

theorem keeps_attachTicket {ticket : Option (String × String)} :
    (attachTicket X dataDir sha256 ticket).Keeps cwd fs ↔
      TicketStays X dataDir cwd fs sha256 ticket := by
  -- The slice comes first: inside a character it ends the task.
  rw [TicketStays, ← decode_take_isSome, attachTicket]
  cases hcut : Text.decode ((Text.encode sha256.toList).take 12) with
  | none =>
      have hhalt : (openTicket sha256 ticket fs).ended = .error .slice := by
        rw [openTicket, hcut]
        rfl
      rw [FileM.keeps_bind_of_halts hhalt]
      exact iff_of_false (fun h => h.2 hhalt) fun h => absurd h.1 nofun
  | some cs =>
      have hopen : openTicket sha256 ticket = pure ticket := by
        rw [openTicket, hcut]
      rw [hopen, FileM.keeps_bind rfl, and_iff_right (FileM.keeps_pure _),
        and_iff_right Option.isSome_some]
      cases ticket with
      | none => exact iff_of_true (FileM.keeps_pure _) fun h => absurd h nofun
      -- With a ticket, the submission is read, and written under the name in the record.
      | some ticket =>
          dsimp only
          rw [FileM.keeps_bind ended_loadSubmission, keeps_loadSubmission]
          rw [imp_iff_right Option.isSome_some]
          refine and_congr_right fun _ => ?_
          cases stored X dataDir fs sha256 with
          | none => exact iff_of_true (FileM.keeps_pure _) nofun
          | some rec =>
              dsimp only
              rw [FileM.keeps_bind_of_forall fun _ => FileM.keeps_pure _, keeps_saveSubmission]
              constructor
              · rintro h _ ⟨⟩
                exact h
              · exact fun h => h rec rfl

/-! ## Approving and revoking -/

theorem keeps_loadOrCreateSigningKey {generated : ByteArr 32} :
    (loadOrCreateSigningKey dataDir generated).Keeps cwd fs := by
  have hkey : Path.Stays cwd dataDir "approval_signing.key".toList :=
    Path.stays_of_isFileName (by decide)
  have hpub : Path.Stays cwd dataDir "approval_signing.pub".toList :=
    Path.stays_of_isFileName (by decide)
  rw [loadOrCreateSigningKey, FileM.keeps_bind rfl]
  refine ⟨FileM.keeps_present, ?_⟩
  split
  · rw [FileM.keeps_bind rfl, FileM.keeps_readIn]
    refine ⟨fun _ => hkey, ?_⟩
    cases fs.content (Path.join dataDir "approval_signing.key".toList) with
    | error e => exact FileM.keeps_pure _
    | ok bytes => exact FileM.keeps_pure _
  · rw [FileM.keeps_bind FileM.ended_save, FileM.keeps_save]
    refine ⟨fun _ => hkey, ?_⟩
    cases fs.saved dataDir (Path.join dataDir "approval_signing.key".toList) with
    | error e => exact FileM.keeps_pure _
    | ok _ =>
        dsimp only
        rw [FileM.keeps_bind rfl, FileM.keeps_writeIn]
        refine ⟨fun _ => hpub, ?_⟩
        cases fs.written (Path.join dataDir "approval_signing.pub".toList) with
        | error e => exact FileM.keeps_pure _
        | ok _ => exact FileM.keeps_pure _

theorem ended_loadOrCreateSigningKey {generated : ByteArr 32} :
    (loadOrCreateSigningKey dataDir generated fs).ended =
      .ok (signingKey dataDir fs generated) := by
  rw [loadOrCreateSigningKey, FileM.ended_bind rfl, signingKey]
  split
  · rw [FileM.ended_bind rfl]
    cases fs.content (Path.join dataDir "approval_signing.key".toList) with
    | error e => rfl
    | ok bytes => rfl
  · rw [FileM.ended_bind FileM.ended_save]
    cases fs.saved dataDir (Path.join dataDir "approval_signing.key".toList) with
    | error e => rfl
    | ok _ =>
        dsimp only
        rw [FileM.ended_bind rfl]
        cases fs.written (Path.join dataDir "approval_signing.pub".toList) with
        | error e => rfl
        | ok _ => rfl

theorem ended_saveToken :
    (saveToken dataDir sha256 fs).ended =
      .ok (fs.saved (Path.above (tokenPath dataDir sha256)) (tokenPath dataDir sha256)) :=
  FileM.ended_save

theorem keeps_saveToken :
    (saveToken dataDir sha256).Keeps cwd fs ↔
      SaveStays cwd fs (Path.above (tokenPath dataDir sha256)) (tokensDir dataDir)
        (tokenName sha256) :=
  FileM.keeps_save

/-- A record in the file, and what is asked of it. -/
theorem forall_stored_iff {rec : SubmissionRecord} {P : SubmissionRecord → Prop}
    (h : stored X dataDir fs sha256 = some rec) :
    (∀ rec', stored X dataDir fs sha256 = some rec' → P rec') ↔ P rec := by
  rw [h]
  constructor
  · exact fun hall => hall rec rfl
  · rintro hrec _ ⟨⟩
    exact hrec

theorem keeps_approve {req : ApproveReq} {env : ApproveEnv} :
    (approve X E dataDir sha256 req env).Keeps cwd fs ↔
      ApproveStays X dataDir cwd fs sha256 req env := by
  rw [approve, FileM.keeps_bind ended_loadSubmission, keeps_loadSubmission, ApproveStays]
  refine and_congr_right fun _ => ?_
  -- Without a submission the path itself is sliced for the answer.
  cases hrec : stored X dataDir fs sha256 with
  | none =>
      dsimp only
      rw [keeps_refuseUnknown]
      exact ⟨fun h => ⟨fun _ => h, nofun⟩, fun h => h.1 rfl⟩
  | some rec =>
      -- The checks of `approve` in their order; each path is asked for where it is used.
      rw [← hrec, forall_stored_iff hrec, hrec, and_iff_right nofun]
      dsimp only
      by_cases hrevoked : rec.status = .revoked
      · rw [if_pos hrevoked]
        exact iff_of_true (FileM.keeps_pure _) fun h => absurd hrevoked h
      · rw [if_neg hrevoked, imp_iff_right hrevoked, FileM.keeps_bind ended_loadOrCreateSigningKey,
          and_iff_right keeps_loadOrCreateSigningKey]
        cases hkey : signingKey dataDir fs env.generated with
        | error e => exact iff_of_true (FileM.keeps_pure _) fun h => absurd h nofun
        | ok key =>
            rw [imp_iff_right ⟨key, rfl⟩]
            dsimp only
            by_cases hrange : req.expiryInRange env.expiryBase = true
            · rw [if_neg (by rw [hrange]; nofun), imp_iff_right hrange,
                FileM.keeps_bind ended_saveToken, keeps_saveToken]
              refine and_congr_right fun _ => ?_
              cases fs.saved (Path.above (tokenPath dataDir sha256)) (tokenPath dataDir sha256) with
              | error e => exact iff_of_true (FileM.keeps_pure _) fun h => absurd h nofun
              -- Only after the token was saved is the submission written.
              | ok _ =>
                  rw [imp_iff_right rfl]
                  dsimp only
                  rw [FileM.keeps_bind ended_saveSubmission, keeps_saveSubmission]
                  refine and_iff_left ?_
                  split
                  · exact FileM.keeps_pure _
                  · exact FileM.keeps_pure _
            -- The days are out of range: the handler panics, with nothing written yet.
            · rw [if_pos (Bool.eq_false_iff.mpr hrange)]
              exact iff_of_true (FileM.keeps_halt.mpr nofun) fun h => absurd h hrange

theorem removeToken_spec :
    (∃ tokenId, (removeToken X dataDir sha256 fs).ended = .ok tokenId) ∧
      ((removeToken X dataDir sha256).Keeps cwd fs ↔
        (fs.present (tokenPath dataDir sha256) = true →
          ((fs.content (tokenPath dataDir sha256)).isOk = true ∨
              (fs.removes (tokenPath dataDir sha256)).isOk = true →
            Path.Stays cwd (tokensDir dataDir) (tokenName sha256)))) := by
  rw [removeToken, FileM.keeps_bind rfl, and_iff_right FileM.keeps_present, FileM.ended_bind rfl]
  cases fs.present (tokenPath dataDir sha256) with
  | false => exact ⟨⟨_, rfl⟩, iff_of_true (FileM.keeps_pure _) nofun⟩
  | true =>
      rw [if_pos rfl, FileM.keeps_bind rfl, FileM.keeps_bind rfl, imp_iff_right rfl]
      refine ⟨⟨_, rfl⟩, ?_⟩
      rw [and_iff_left (FileM.keeps_pure _), or_imp]
      exact and_congr FileM.keeps_readIn FileM.keeps_removeIn

theorem keeps_revoke :
    (revoke X dataDir sha256).Keeps cwd fs ↔ RevokeStays X dataDir cwd fs sha256 := by
  rw [revoke, FileM.keeps_bind ended_loadSubmission, keeps_loadSubmission, RevokeStays]
  refine and_congr_right fun _ => ?_
  cases hrec : stored X dataDir fs sha256 with
  | none =>
      dsimp only
      rw [keeps_refuseUnknown]
      exact ⟨fun h => ⟨fun _ => h, nofun⟩, fun h => h.1 rfl⟩
  | some rec =>
      obtain ⟨⟨tokenId, hend⟩, hkeeps⟩ := @removeToken_spec X dataDir cwd fs sha256
      rw [← hrec, forall_stored_iff hrec, hrec, and_iff_right nofun]
      dsimp only
      rw [FileM.keeps_bind hend, hkeeps, FileM.keeps_bind ended_saveSubmission,
        keeps_saveSubmission]
      refine and_congr_right fun _ => and_iff_left ?_
      split
      · exact FileM.keeps_pure _
      · exact FileM.keeps_pure _

/-! ## Releasing -/

theorem keeps_loadHoldPubkey : (loadHoldPubkey E dataDir).Keeps cwd fs := by
  have hpub : Path.Stays cwd dataDir "hold.pub".toList := Path.stays_of_isFileName (by decide)
  rw [loadHoldPubkey, FileM.keeps_bind rfl, FileM.keeps_readIn]
  exact ⟨fun _ => hpub, FileM.keeps_pure _⟩

theorem ended_loadHoldPubkey :
    (loadHoldPubkey E dataDir fs).ended =
      .ok (holdPubkey E (fs.content (Path.join dataDir "hold.pub".toList)).toOption) := rfl

theorem keeps_saveHold {record : HoldRecord} :
    (saveHold dataDir record).Keeps cwd fs ↔
      SaveStays cwd fs (holdsDir dataDir) (holdsDir dataDir) (recordName record.id) :=
  FileM.keeps_save

theorem ended_saveHold {record : HoldRecord} :
    (saveHold dataDir record fs).ended =
      .ok (fs.saved (holdsDir dataDir) (holdPath dataDir record.id)) :=
  FileM.ended_save

theorem ended_loadHold {holdId : String} :
    (loadHold X dataDir holdId fs).ended = .ok (storedHold X dataDir fs holdId) := by
  rw [loadHold, FileM.ended_bind rfl, storedHold]
  cases fs.content (holdPath dataDir holdId) with
  | error e => rfl
  | ok bytes => rfl

theorem keeps_loadHold {holdId : String} :
    (loadHold X dataDir holdId).Keeps cwd fs ↔
      ReadStays cwd fs (holdsDir dataDir) (recordName holdId) := by
  rw [loadHold, FileM.keeps_bind rfl, holdPath, FileM.keeps_readIn, ReadStays]
  refine and_iff_left ?_
  split
  · exact FileM.keeps_pure _
  · exact FileM.keeps_pure _

theorem keeps_releaseHold {holdId releasedBy releaseSigB64 : String} {clk : ReleaseClock} :
    (releaseHold X E dataDir holdId releasedBy releaseSigB64 clk).Keeps cwd fs ↔
      ReadStays cwd fs (holdsDir dataDir) (recordName holdId) ∧
        ∀ record, storedHold X dataDir fs holdId = .ok record →
          Releasable X E dataDir fs holdId releasedBy releaseSigB64 clk record →
          SaveStays cwd fs (holdsDir dataDir) (holdsDir dataDir) (recordName record.id) := by
  rw [releaseHold, FileM.keeps_bind ended_loadHold, keeps_loadHold]
  refine and_congr_right fun _ => ?_
  -- The record is named by its own id from here on, which may be another.
  cases hrecord : storedHold X dataDir fs holdId with
  | error e => exact iff_of_true (FileM.keeps_pure _) nofun
  | ok record =>
      have hall : ∀ P : HoldRecord → Prop,
          (∀ record', Except.ok record = (.ok record' : Except String HoldRecord) → P record') ↔
            P record :=
        fun P => ⟨fun h => h record rfl, fun h record' heq => Except.ok.inj heq ▸ h⟩
      rw [hall fun record => Releasable X E dataDir fs holdId releasedBy releaseSigB64 clk record →
        SaveStays cwd fs (holdsDir dataDir) (holdsDir dataDir) (recordName record.id), Releasable]
      dsimp only
      -- The checks of `release_hold`; where one fails nothing is written.
      by_cases hactive : record.isActive clk.active = true
      · rw [if_neg (by rw [hactive]; nofun), FileM.keeps_bind ended_loadHoldPubkey,
          and_iff_right keeps_loadHoldPubkey]
        cases hpub : holdPubkey E (fs.content (Path.join dataDir "hold.pub".toList)).toOption with
        | error e =>
            refine iff_of_true (FileM.keeps_pure _) ?_
            rintro ⟨-, pubkey, sig, hpub', -⟩
            cases hpub'
        | ok pubkey =>
            dsimp only
            cases hsig : decodeReleaseSig releaseSigB64 with
            | error e =>
                refine iff_of_true (FileM.keeps_pure _) ?_
                rintro ⟨-, pubkey, sig, -, hsig', -⟩
                cases hsig'
            | ok sig =>
                dsimp only
                by_cases hverify : E.verify pubkey
                    (releasePayload X holdId releasedBy clk.releasedAt) sig = true
                · rw [if_pos hverify, imp_iff_right ⟨hactive, pubkey, sig, rfl, rfl, hverify⟩,
                    FileM.keeps_bind ended_saveHold, keeps_saveHold]
                  refine and_iff_left ?_
                  split
                  · exact FileM.keeps_pure _
                  · exact FileM.keeps_pure _
                · rw [if_neg hverify]
                  -- The signature is not good, so the hold is not releasable.
                  refine iff_of_true (FileM.keeps_pure _) ?_
                  rintro ⟨-, pubkey', sig', hpub', hsig', hverify'⟩
                  rw [← Except.ok.inj hpub', ← Except.ok.inj hsig'] at hverify'
                  exact absurd hverify' hverify
      · rw [if_pos (Bool.eq_false_iff.mpr hactive)]
        exact iff_of_true (FileM.keeps_pure _) fun h => absurd h.1 hactive

theorem keeps_release {user : ApiResult String} {holdId releaseSigB64 : String}
    {clk : ReleaseClock} :
    (release X E dataDir user holdId releaseSigB64 clk).Keeps cwd fs ↔
      ReleaseStays X E dataDir cwd fs user holdId releaseSigB64 clk := by
  rw [ReleaseStays]
  cases user with
  | error e => exact iff_of_true (FileM.keeps_pure _) nofun
  | ok username =>
      rw [release]
      refine (FileM.keeps_bind_of_forall ?_).trans ?_
      · intro result
        cases result with
        | error e => exact FileM.keeps_pure _
        | ok record => exact FileM.keeps_pure _
      · rw [keeps_releaseHold]
        constructor
        · rintro h _ ⟨⟩
          exact h
        · exact fun h => h username rfl

/-! ## Exporting -/

/-- The file of a workspace by a fixed name is where it is meant to be when the slug
    stays. -/
theorem isChain_workspace {slug : String} {name : Text} (hname : Path.IsFileName name) :
    (workspaceDirs dataDir slug ++ [Path.join (workspaceDir dataDir slug) name]).IsChain
        (Path.Inside cwd) ↔
      Path.Stays cwd (workspacesDir dataDir) slug.toList := by
  rw [workspaceDirs, List.cons_append, List.cons_append, List.nil_append, List.isChain_cons_cons,
    FileM.isChain_join, workspaceDir, Path.inside_join_iff]
  exact and_iff_left (Path.stays_of_isFileName hname)

theorem isFileName_log : Path.IsFileName "audit.jsonl".toList := by decide

theorem isFileName_key : Path.IsFileName "audit.key".toList := by decide

theorem keeps_readRecent {slug : String} :
    (readRecent (workspaceDirs dataDir slug) (workspaceDir dataDir slug)).Keeps cwd fs ↔
      ∀ log, LogReadable dataDir fs slug log →
        Path.Stays cwd (workspacesDir dataDir) slug.toList := by
  rw [readRecent, FileM.keeps_bind rfl, and_iff_right FileM.keeps_present]
  cases hpresent : fs.present (defaultLogPath (workspaceDir dataDir slug)) with
  | false =>
      refine iff_of_true (FileM.keeps_pure _) fun log hlog => ?_
      rw [LogReadable, hpresent] at hlog
      exact absurd hlog.1 Bool.false_ne_true
  | true =>
      rw [if_pos rfl, FileM.keeps_read, defaultLogPath, isChain_workspace isFileName_log,
        isOk_eq_true]
      constructor
      · exact fun h log hlog => h ⟨log, hlog.2⟩
      · rintro h ⟨log, hlog⟩
        exact h log ⟨hpresent, hlog⟩

theorem isChain_global {name : Text} (hname : Path.IsFileName name) :
    [dataDir, Path.join dataDir name].IsChain (Path.Inside cwd) :=
  FileM.isChain_join.mpr (Path.stays_of_isFileName hname)

theorem keeps_readRecent_global : (readRecent [dataDir] dataDir).Keeps cwd fs := by
  rw [readRecent, FileM.keeps_bind rfl]
  refine ⟨FileM.keeps_present, ?_⟩
  split
  · exact FileM.keeps_read.mpr fun _ => isChain_global isFileName_log
  · exact FileM.keeps_pure _

theorem ended_resolveLog {slug : String} :
    (resolveLog dataDir (some slug) fs).ended =
      .ok (if fs.present (defaultLogPath (workspaceDir dataDir slug)) then
        .ok (workspaceDirs dataDir slug, workspaceDir dataDir slug)
      else .error (noAuditLog slug)) := by
  rw [resolveLog, FileM.ended_bind rfl]
  split
  · rfl
  · rfl

theorem keeps_resolveLog {slug : String} :
    (resolveLog dataDir (some slug)).Keeps cwd fs := by
  rw [resolveLog, FileM.keeps_bind rfl]
  refine ⟨FileM.keeps_present, ?_⟩
  split
  · exact FileM.keeps_pure _
  · exact FileM.keeps_pure _

/-- What is done with the log that was found. -/
theorem keeps_render {csv : String → Bytes → Except String String} {q : ExportQuery}
    {dirs : List Path} {dir : Path} :
    (renderLog csv q dirs dir).Keeps cwd fs ↔
      (formats.contains q.format = true → (readRecent dirs dir).Keeps cwd fs) := by
  rw [renderLog]
  by_cases hformat : formats.contains q.format = true
  · rw [if_pos hformat, imp_iff_right hformat]
    refine FileM.keeps_bind_of_forall fun content => ?_
    cases content with
    | error e => exact FileM.keeps_pure _
    | ok content =>
        dsimp only
        cases csv q.format content with
        | error e => exact FileM.keeps_pure _
        | ok text => exact FileM.keeps_pure _
  · rw [if_neg hformat]
    exact iff_of_true (FileM.keeps_pure _) fun h => absurd h hformat

theorem keeps_exportEntries {auth : ApiResult Unit} {csv : String → Bytes → Except String String}
    {q : ExportQuery} :
    (exportEntries dataDir auth csv q).Keeps cwd fs ↔ ExportStays dataDir cwd fs auth q := by
  rw [ExportStays]
  cases auth with
  | error e => exact iff_of_true (FileM.keeps_pure _) nofun
  | ok _ =>
      rw [exportEntries]
      -- Without a workspace it is the daemon's own log.
      cases hworkspace : q.workspace with
      | none =>
          rw [resolveLog, FileM.keeps_bind rfl]
          refine iff_of_true ⟨FileM.keeps_pure _, ?_⟩ nofun
          exact keeps_render.mpr fun _ => keeps_readRecent_global
      | some slug =>
          rw [FileM.keeps_bind ended_resolveLog, and_iff_right keeps_resolveLog]
          cases hpresent : fs.present (defaultLogPath (workspaceDir dataDir slug)) with
          | false =>
              -- There is no such log: the daemon's is read, and filtered by the workspace.
              rw [if_neg Bool.false_ne_true]
              refine iff_of_true (FileM.keeps_pure _) ?_
              rintro _ log - ⟨⟩ - ⟨hlog, -⟩
              rw [hpresent] at hlog
              exact absurd hlog Bool.false_ne_true
          | true =>
              rw [if_pos rfl]
              dsimp only
              rw [keeps_render, keeps_readRecent]
              constructor
              · rintro h _ log - ⟨⟩ hformat hlog
                exact h hformat log hlog
              · exact fun h hformat log hlog => h slug log rfl rfl hformat hlog

/-! ## Bundles -/

theorem loadKey_spec {isPrivate : Bool} {dirs : List Path} {path : Path} :
    ∃ result, (loadKey isPrivate dirs path fs).ended = .ok result ∧
      ((∃ key, result = .ok key) ↔ KeyLoads fs isPrivate path) := by
  rw [loadKey, FileM.ended_bind rfl, KeyLoads]
  cases fs.present path with
  | false => exact ⟨_, rfl, iff_of_false (fun ⟨_, h⟩ => nomatch h) nofun⟩
  | true =>
      rw [if_pos rfl]
      cases isPrivate with
      | false => exact ⟨_, rfl, iff_of_false (fun ⟨_, h⟩ => nomatch h) nofun⟩
      | true =>
          rw [if_pos rfl, FileM.ended_bind rfl]
          cases hkey : fs.content path with
          | error e =>
              refine ⟨_, rfl, iff_of_false (fun ⟨_, h⟩ => nomatch h) ?_⟩
              rintro ⟨-, -, bytes, h, -⟩
              cases h
          | ok bytes =>
              dsimp only
              by_cases hlen : bytes.length = 32
              · rw [if_pos hlen]
                exact ⟨_, rfl, iff_of_true ⟨bytes, rfl⟩ ⟨rfl, rfl, bytes, rfl, hlen⟩⟩
              · rw [if_neg hlen]
                refine ⟨_, rfl, iff_of_false (fun ⟨_, h⟩ => nomatch h) ?_⟩
                rintro ⟨-, -, bytes', h, hlen'⟩
                rw [← Except.ok.inj h] at hlen'
                exact hlen hlen'

theorem keeps_loadKey {isPrivate : Bool} {dirs : List Path} {path : Path}
    (h : (dirs ++ [path]).IsChain (Path.Inside cwd)) :
    (loadKey isPrivate dirs path).Keeps cwd fs := by
  rw [loadKey, FileM.keeps_bind rfl]
  refine ⟨FileM.keeps_present, ?_⟩
  split
  · split
    · rw [FileM.keeps_bind rfl, FileM.keeps_read]
      refine ⟨fun _ => h, ?_⟩
      split
      · exact FileM.keeps_pure _
      · split
        · exact FileM.keeps_pure _
        · exact FileM.keeps_pure _
    · exact FileM.keeps_pure _
  · exact FileM.keeps_pure _

theorem ended_loadOrCreateBundleKey : (loadOrCreateBundleKey dataDir fs).ended = .ok () := by
  rw [loadOrCreateBundleKey, FileM.ended_bind rfl]
  split
  · rfl
  · rw [FileM.ended_bind rfl]
    cases fs.written (Path.join dataDir "bundle_signing.key".toList) with
    | error e => rfl
    | ok _ => rfl

theorem keeps_loadOrCreateBundleKey : (loadOrCreateBundleKey dataDir).Keeps cwd fs := by
  have hkey : Path.IsFileName "bundle_signing.key".toList := by decide
  have hpub : Path.IsFileName "bundle_signing.pub".toList := by decide
  rw [loadOrCreateBundleKey, FileM.keeps_bind rfl]
  refine ⟨FileM.keeps_present, ?_⟩
  split
  · rw [FileM.keeps_bind_of_forall fun _ => FileM.keeps_pure _, FileM.keeps_read]
    exact fun _ => isChain_global hkey
  · rw [FileM.keeps_bind rfl, FileM.keeps_write]
    refine ⟨fun _ => isChain_global hkey, ?_⟩
    cases fs.written (Path.join dataDir "bundle_signing.key".toList) with
    | error e => exact FileM.keeps_pure _
    | ok _ =>
        dsimp only
        rw [FileM.keeps_bind_of_forall fun _ => FileM.keeps_pure _, FileM.keeps_write]
        exact fun _ => isChain_global hpub

theorem ended_attest {env : BundleEnv} {dirs : List Path} {dir : Path} :
    (attest env dirs dir fs).ended = .ok () := by
  rw [attest]
  split
  · rw [FileM.ended_bind rfl]
    split
    · rw [FileM.ended_bind rfl]
      cases fs.content (defaultLogPath dir) with
      | error e => rfl
      | ok log =>
          obtain ⟨result, hend, -⟩ := @loadKey_spec fs env.isPrivate dirs (defaultKeyPath dir)
          dsimp only
          rw [FileM.ended_bind hend]
          rfl
    · rfl
  · rfl

/-- A log that can be read is read where it is meant to be, and so is the key beside it. -/
theorem keeps_attest {env : BundleEnv} {dirs : List Path} {dir : Path}
    (h : ∀ log, fs.content (defaultLogPath dir) = .ok log →
      (dirs ++ [defaultLogPath dir]).IsChain (Path.Inside cwd) ∧
        (dirs ++ [defaultKeyPath dir]).IsChain (Path.Inside cwd)) :
    (attest env dirs dir).Keeps cwd fs := by
  rw [attest]
  split
  · rw [FileM.keeps_bind rfl]
    refine ⟨FileM.keeps_present, ?_⟩
    split
    · rw [FileM.keeps_bind rfl, FileM.keeps_read, isOk_eq_true]
      refine ⟨fun ⟨log, hlog⟩ => (h log hlog).1, ?_⟩
      cases hlog : fs.content (defaultLogPath dir) with
      | error e => exact FileM.keeps_pure _
      | ok log =>
          dsimp only
          rw [FileM.keeps_bind_of_forall fun _ => FileM.keeps_pure _]
          exact keeps_loadKey (h log hlog).2
    · exact FileM.keeps_pure _
  · exact FileM.keeps_pure _

/-- A log that cannot be read ends the bundle. -/
theorem createBundle_of_unread {env : BundleEnv} {dirs : List Path} {dir : Path} {output : Text}
    {e : String} (hlog : fs.content (defaultLogPath dir) = .error e) :
    (createBundle dataDir env dirs dir output fs).ended = .ok (.error e) ∧
      (createBundle dataDir env dirs dir output).Keeps cwd fs := by
  rw [createBundle, FileM.ended_bind rfl, FileM.keeps_bind rfl, FileM.keeps_read, hlog]
  exact ⟨rfl, nofun, FileM.keeps_pure _⟩

/-- A bundle of a log that is where it is meant to be is as good as the place it is
    written to. -/
theorem createBundle_spec {env : BundleEnv} {dirs : List Path} {dir : Path} {output : Text}
    {log : Bytes} (hlog : fs.content (defaultLogPath dir) = .ok log)
    (hlogChain : (dirs ++ [defaultLogPath dir]).IsChain (Path.Inside cwd))
    (hkeyChain : (dirs ++ [defaultKeyPath dir]).IsChain (Path.Inside cwd)) :
    ∃ result, (createBundle dataDir env dirs dir output fs).ended = .ok result ∧
      ((createBundle dataDir env dirs dir output).Keeps cwd fs ↔
        (KeyLoads fs env.isPrivate (defaultKeyPath dir) → (Text.decode log).isSome = true →
          (fs.opens (Path.join dataDir output)).isOk = true → Path.Stays cwd dataDir output)) ∧
      (result = .ok () → KeyLoads fs env.isPrivate (defaultKeyPath dir) ∧
        (Text.decode log).isSome = true ∧ (fs.opens (Path.join dataDir output)).isOk = true) := by
  obtain ⟨keyResult, hend, hloads⟩ := @loadKey_spec fs env.isPrivate dirs (defaultKeyPath dir)
  rw [createBundle, FileM.ended_bind rfl, FileM.keeps_bind rfl, FileM.keeps_read,
    and_iff_right fun _ => hlogChain, hlog]
  dsimp only
  rw [FileM.ended_bind hend, FileM.keeps_bind hend, and_iff_right (keeps_loadKey hkeyChain)]
  -- A key that cannot be loaded ends the bundle before its file is opened.
  cases keyResult with
  | error e =>
      have hnot : ¬ KeyLoads fs env.isPrivate (defaultKeyPath dir) :=
        fun h => (nomatch (hloads.mpr h).choose_spec)
      exact ⟨_, rfl, iff_of_true (FileM.keeps_pure _) fun h => absurd h hnot, nofun⟩
  | ok key =>
      have hkey : KeyLoads fs env.isPrivate (defaultKeyPath dir) := hloads.mp ⟨key, rfl⟩
      rw [imp_iff_right hkey, and_iff_right hkey]
      dsimp only
      cases Text.decode log with
      | none => exact ⟨_, rfl, iff_of_true (FileM.keeps_pure _) nofun, nofun⟩
      | some text =>
          rw [imp_iff_right Option.isSome_some, and_iff_right Option.isSome_some]
          -- The zip is written to the output last, under a name made of the slug.
          refine ⟨_, rfl, FileM.keeps_writeIn, fun hwritten => ?_⟩
          cases hopens : fs.opens (Path.join dataDir output) with
          | error e =>
              rw [FileSystem.written, hopens] at hwritten
              cases hwritten
          | ok _ => rfl

theorem keeps_downloadWorkspaceBundle {auth : ApiResult Unit} {env : BundleEnv} {slug : String} :
    (downloadWorkspaceBundle dataDir auth env slug).Keeps cwd fs ↔
      BundleStays dataDir cwd fs auth env slug := by
  rw [BundleStays]
  cases auth with
  | error e => exact iff_of_true (FileM.keeps_pure _) fun _ h => nomatch h
  | ok _ =>
      rw [downloadWorkspaceBundle, buildBundleResponse, FileM.keeps_bind ended_resolveLog,
        and_iff_right keeps_resolveLog]
      cases hpresent : fs.present (defaultLogPath (workspaceDir dataDir slug)) with
      -- No log of the workspace: the global one is bundled.
      | false =>
          rw [if_neg Bool.false_ne_true]
          refine iff_of_true (FileM.keeps_pure _) fun log _ hlog => ?_
          rw [LogReadable, hpresent] at hlog
          exact absurd hlog.1 Bool.false_ne_true
      | true =>
          rw [if_pos rfl]
          dsimp only
          rw [FileM.keeps_bind ended_loadOrCreateBundleKey,
            and_iff_right keeps_loadOrCreateBundleKey, FileM.keeps_bind ended_attest]
          cases hlog : fs.content (defaultLogPath (workspaceDir dataDir slug)) with
          -- A log that cannot be read is asked for, and no further.
          | error e =>
              have hunread : ∀ log, fs.content (defaultLogPath (workspaceDir dataDir slug)) ≠
                  .ok log := fun log h => by
                rw [hlog] at h
                cases h
              obtain ⟨hend, hcreate⟩ := @createBundle_of_unread dataDir cwd fs env
                (workspaceDirs dataDir slug) _ (bundleName (some slug)) e hlog
              refine iff_of_true ⟨keeps_attest fun log h => absurd h (hunread log), ?_⟩
                fun log _ h => absurd h.2 (hunread log)
              rw [FileM.keeps_bind hend]
              exact ⟨hcreate, FileM.keeps_pure _⟩
          | ok log =>
              have hreadable : LogReadable dataDir fs slug log := ⟨hpresent, hlog⟩
              -- The log is inside the directory of workspaces exactly when the slug stays there.
              by_cases hstays : Path.Stays cwd (workspacesDir dataDir) slug.toList
              · have hlogChain := (@isChain_workspace dataDir cwd slug _ isFileName_log).mpr hstays
                have hkeyChain := (@isChain_workspace dataDir cwd slug _ isFileName_key).mpr hstays
                have hattest : (attest env (workspaceDirs dataDir slug)
                    (workspaceDir dataDir slug)).Keeps cwd fs :=
                  keeps_attest fun _ _ => ⟨hlogChain, hkeyChain⟩
                obtain ⟨result, hend, hcreate, hdone⟩ := @createBundle_spec dataDir cwd fs env
                  (workspaceDirs dataDir slug) _ (bundleName (some slug)) log hlog hlogChain
                  hkeyChain
                rw [and_iff_right hattest, FileM.keeps_bind hend, hcreate]
                have hone : (∀ log', Except.ok () = (Except.ok () : ApiResult Unit) →
                    LogReadable dataDir fs slug log' →
                    Path.Stays cwd (workspacesDir dataDir) slug.toList ∧
                    (KeyLoads fs env.isPrivate (defaultKeyPath (workspaceDir dataDir slug)) →
                      (Text.decode log').isSome = true →
                      (fs.opens (Path.join dataDir (bundleName (some slug)))).isOk = true →
                      Path.Stays cwd dataDir (bundleName (some slug)))) ↔
                    (KeyLoads fs env.isPrivate (defaultKeyPath (workspaceDir dataDir slug)) →
                      (Text.decode log).isSome = true →
                      (fs.opens (Path.join dataDir (bundleName (some slug)))).isOk = true →
                      Path.Stays cwd dataDir (bundleName (some slug))) := by
                  constructor
                  · exact fun h => (h log rfl hreadable).2
                  · intro h log' _ hlog'
                    have hsame := hlog'.2
                    rw [hlog] at hsame
                    rw [← Except.ok.inj hsame]
                    exact ⟨hstays, h⟩
                rw [hone, and_iff_left_iff_imp]
                intro houtput
                cases result with
                | error e => exact FileM.keeps_pure _
                | ok _ =>
                    -- A zip that was written has been opened, so its name was asked about.
                    obtain ⟨hkey, htext, hopens⟩ := hdone rfl
                    have hname := houtput hkey htext hopens
                    dsimp only
                    rw [FileM.keeps_bind rfl, FileM.keeps_readIn]
                    refine ⟨fun _ => hname, ?_⟩
                    split
                    · exact FileM.keeps_pure _
                    · rw [FileM.keeps_bind rfl, FileM.keeps_removeIn]
                      exact ⟨fun _ => hname, FileM.keeps_pure _⟩
              · refine iff_of_false ?_ fun h => hstays (h log rfl hreadable).1
                -- The read of the log alone leaves the directory.
                rintro ⟨-, hrest⟩
                have hcreate := hrest.of_bind
                rw [createBundle] at hcreate
                have hread := FileM.keeps_read.mp hcreate.of_bind
                rw [hlog] at hread
                exact hstays ((isChain_workspace isFileName_log).mp (hread rfl))

/-! ## Containment -/

/-- **Containment.**  A request's files are where they are meant to be, and nothing panics
    at a cut, exactly when what it names stays and can be quoted. -/
theorem contained_iff (X : External) (E : Ed25519) (dataDir : Path) (cwd : List Text)
    (fs fs' : FileSystem) (request : Request) :
    Contained X E dataDir cwd fs fs' request ↔ Harmless X E dataDir cwd fs fs' request := by
  cases request with
  | submit req submissionId now ticket =>
      rw [Contained, Harmless, keeps_submit]
      refine and_congr_right fun _ => ?_
      constructor
      · intro h opened hticket hsaved
        have htask := h opened _ hticket (ended_submit.mpr ⟨hsaved, rfl⟩)
        rwa [keeps_attachTicket] at htask
      · intro h opened rec hticket hend
        obtain ⟨hsaved, rfl⟩ := ended_submit.mp hend
        have htask := h opened hticket hsaved
        rwa [← keeps_attachTicket] at htask
  | approve sha256 req env => exact keeps_approve
  | revoke sha256 => exact keeps_revoke
  | release user holdId releaseSigB64 clk => exact keeps_release
  | exportEntries auth csv q => exact keeps_exportEntries
  | downloadWorkspaceBundle auth env slug => exact keeps_downloadWorkspaceBundle

/-- A file system in which every path has an empty file. -/
def fullFs : FileSystem where
  present _ := true
  content _ := .ok []
  mkdir _ := .ok ()
  opens _ := .ok ()
  writes _ := .ok ()
  removes _ := .ok ()

/-- One in which there are no files yet. -/
def freshFs : FileSystem where
  present _ := false
  content _ := .error "No such file or directory (os error 2)"
  mkdir _ := .ok ()
  opens _ := .ok ()
  writes _ := .ok ()
  removes _ := .error "No such file or directory (os error 2)"

/-- The export of the workspace `..` reads the log of the whole server, and revoking a
    hash whose twelfth byte is in a character panics. -/
theorem not_contained_parent :
    ¬ Contained .sample officerScheme "/data".toList [] fullFs fullFs
        (.exportEntries (.ok ()) (fun _ _ => .ok "") ⟨"gdpr", some ".."⟩) ∧
      ¬ Contained .sample officerScheme "/data".toList [] freshFs freshFs
        (.revoke "0123456789aé") := by
  constructor
  · intro hcontained
    have h := keeps_exportEntries.mp hcontained
    have hstays := h ".." [] rfl rfl rfl ⟨rfl, rfl⟩
    obtain ⟨rest, -, hrest⟩ : Path.Returns _ _ := hstays
    cases hrest
  · intro hcontained
    obtain ⟨-, hquote, -⟩ := keeps_revoke.mp hcontained
    have hcut := decode_take_isSome.mpr (hquote rfl)
    revert hcut
    decide +kernel

end Maranode.Api.RequestPaths
