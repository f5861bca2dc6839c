/-
  Maranode.Api.Classification

  `routes/classification.rs` and `routes/dlp.rs`: the four handlers that change the
  policy, and what their write of the file has to do with it.

  Each changes the live policy first and saves it afterwards.  `written` is the policy
  that the file holds, if it holds one.
-/
import Maranode.Api.UserCtx
import Maranode.Common.Classification
import Maranode.Common.Events
import Maranode.Lib.RecordWrite
import Maranode.Lib.Run

namespace Maranode.Api

open Lib Lib.Run Common

/-! ## dlp/mod.rs -/

structure ImportedLabel where
  collection : String
  label : DataLabel

structure PurviewCfg where
  tenantId : String
  clientId : String
  clientSecret : String
  subscriptionId : Option String

structure ForcepointCfg where
  baseUrl : String
  username : String
  password : String

structure SymantecCfg where
  enforceUrl : String
  username : String
  password : String

structure DlpConfig where
  purview : Option PurviewCfg
  forcepoint : Option ForcepointCfg
  symantec : Option SymantecCfg

/-- What `sync` of each provider returns while a request runs; it asks a service. -/
structure DlpServices where
  purview : PurviewCfg → Except String (List ImportedLabel)
  forcepoint : ForcepointCfg → Except String (List ImportedLabel)
  symantec : SymantecCfg → Except String (List ImportedLabel)

/-! ## Requests -/

structure SetCollectionReq where
  label : DataLabel
  blockOnViolation : Option Bool
  assignedBy : Option String

structure SetWorkspaceReq where
  maxClearance : DataLabel

/-- `SyncRequest`, with the configuration of a provider overriding the daemon's. -/
structure SyncRequest where
  provider : String
  purview : Option PurviewCfg
  forcepoint : Option ForcepointCfg
  symantec : Option SymantecCfg

structure CollectionImport where
  collection : String
  label : String

inductive ClassificationReply where
  | policy (p : ClassificationPolicy)
  | collection (name : String) (label : DataLabel) (blockOnViolation : Bool)
  | removed (removed : Bool)
  | workspace (slug : String) (maxClearance : DataLabel)
  | synced (provider : String) (labelsImported : Nat) (collections : List CollectionImport)

/-- How the two writes of a request end: the policy file's, and the audit log's. -/
structure Outcome where
  save : RecordWrite
  appended : Bool

/-- A user is whom `UserCtx` found. -/
inductive ClassificationRequest where
  | getPolicy
  | setCollection (name : String) (req : SetCollectionReq)
  | removeCollection (name : String)
  | setWorkspace (slug : String) (req : SetWorkspaceReq)
  | dlpSync (user : User) (req : SyncRequest) (services : DlpServices)

/-! ## Handlers -/

/-- The live policy, what `load` makes of the file, the configuration of the providers,
    and the events the handlers have logged, each with its actor. -/
structure ClassificationSys where
  policy : ClassificationPolicy
  written : Option ClassificationPolicy
  dlp : DlpConfig
  audit : List (String × AuditEvent)

/-- The daemon when it has loaded its policy. -/
def ClassificationSys.start (policy : ClassificationPolicy) (dlp : DlpConfig) :
    ClassificationSys where
  policy := policy
  written := some policy
  dlp := dlp
  audit := []

/-- `req.blockOnViolation`, with its default. -/
def SetCollectionReq.policy (req : SetCollectionReq) : CollectionPolicy where
  label := req.label
  blockOnViolation := req.blockOnViolation.getD true

/-- The labels of an import, one after the other. -/
def applyImported (p : ClassificationPolicy) (imported : List ImportedLabel) :
    ClassificationPolicy :=
  imported.foldl (fun p item => p.setCollectionLabel item.collection item.label true) p

/-- The label an import leaves on a collection: that of its last item for it. -/
def lastLabel (items : List ImportedLabel) (collection : String) : Option DataLabel :=
  (items.reverse.find? (·.collection == collection)).map (·.label)

/-- One provider of `dlp_sync`: the request's configuration, or else the daemon's. -/
def fetchFrom {Cfg : Type} (name : String) (requested configured : Option Cfg)
    (sync : Cfg → Except String (List ImportedLabel)) : ApiResult (List ImportedLabel) :=
  match requested.or configured with
  | none => .error (.badRequest (name ++ " config not found"))
  | some cfg => (sync cfg).mapError .internal

namespace ClassificationSys

/-- `state.audit.append`, whose error the handlers drop. -/
def append (s : ClassificationSys) (actor : String) (event : AuditEvent) (o : Outcome) :
    ClassificationSys :=
  if o.appended then { s with audit := s.audit ++ [(actor, event)] } else s

/-- The policy is changed in the daemon, and then `ClassificationPolicy::save`d. -/
def save (s : ClassificationSys) (policy : ClassificationPolicy) (w : RecordWrite) :
    ClassificationSys :=
  { s with policy, written := w.result s.written policy }

def setCollection (s : ClassificationSys) (name : String) (req : SetCollectionReq)
    (o : Outcome) : ClassificationSys × ApiResult ClassificationReply :=
  let s := s.save { s.policy with collections := s.policy.collections.insert name req.policy } o.save
  match o.save.error with
  | some e => (s, .error (.internal e))
  | none =>
      let event := .dataLabelAssigned name req.label.asStr (req.assignedBy.getD "api")
      (s.append "classification" event o,
        .ok (.collection name req.label req.policy.blockOnViolation))

def removeCollection (s : ClassificationSys) (name : String) (o : Outcome) :
    ClassificationSys × ApiResult ClassificationReply :=
  if (s.policy.collections.lookup name).isSome then
    let s := s.save { s.policy with collections := s.policy.collections.erase name } o.save
    match o.save.error with
    | some e => (s, .error (.internal e))
    | none => (s, .ok (.removed true))
  else (s, .ok (.removed false))

def setWorkspace (s : ClassificationSys) (slug : String) (req : SetWorkspaceReq)
    (o : Outcome) : ClassificationSys × ApiResult ClassificationReply :=
  let s := s.save
    { s.policy with workspaces := s.policy.workspaces.insert slug ⟨req.maxClearance⟩ } o.save
  match o.save.error with
  | some e => (s, .error (.internal e))
  | none => (s, .ok (.workspace slug req.maxClearance))

variable (toLowercase : String → String)

/-- What `dlp_sync` gets from the provider it is asked for. -/
def imported (s : ClassificationSys) (req : SyncRequest) (services : DlpServices) :
    ApiResult (List ImportedLabel) :=
  match toLowercase req.provider with
  | "purview" => fetchFrom "purview" req.purview s.dlp.purview services.purview
  | "forcepoint" => fetchFrom "forcepoint" req.forcepoint s.dlp.forcepoint services.forcepoint
  | "symantec" => fetchFrom "symantec" req.symantec s.dlp.symantec services.symantec
  | other => .error (.badRequest ("unknown DLP provider: " ++ other))

/-- `dlp_sync`.  The error of the save is dropped. -/
def dlpSync (s : ClassificationSys) (user : User) (req : SyncRequest) (services : DlpServices)
    (o : Outcome) : ClassificationSys × ApiResult ClassificationReply :=
  match user.require .dlpManage with
  | .error e => (s, .error e)
  | .ok () =>
      match s.imported toLowercase req services with
      | .error e => (s, .error e)
      | .ok items =>
          let event := .dlpSyncCompleted req.provider items.length.toUInt64
          ((s.save (applyImported s.policy items) o.save).append "dlp" event o,
            .ok (.synced req.provider items.length
              (items.map fun i => ⟨i.collection, i.label.debug⟩)))

def serve (s : ClassificationSys) : ClassificationRequest → Outcome →
    ClassificationSys × ApiResult ClassificationReply
  | .getPolicy, _ => (s, .ok (.policy s.policy))
  | .setCollection name req, o => s.setCollection name req o
  | .removeCollection name, o => s.removeCollection name o
  | .setWorkspace slug req, o => s.setWorkspace slug req o
  | .dlpSync user req services, o => s.dlpSync toLowercase user req services o

def step (s : ClassificationSys) (r : ClassificationRequest × Outcome) :
    Option ClassificationSys :=
  some (s.serve toLowercase r.1 r.2).1

/-! ## The live policy and the file -/

/-- The file holds the live policy. -/
def InStep (s : ClassificationSys) : Prop := ∃ p, s.written = some p ∧ s.policy.Same p

/-- After the request the file holds the live policy, and if the request returned an
    error that is the one before the request. -/
def Kept (s : ClassificationSys) (r : ClassificationRequest × Outcome) : Prop :=
  (s.serve toLowercase r.1 r.2).1.InStep ∧
    ∀ e, (s.serve toLowercase r.1 r.2).2 = .error e →
      (s.serve toLowercase r.1 r.2).1.policy.Same s.policy

/-- The request gets to its save. -/
def Saves (s : ClassificationSys) : ClassificationRequest → Prop
  | .getPolicy => False
  | .setCollection _ _ => True
  | .removeCollection name => s.policy.collections.lookup name ≠ none
  | .setWorkspace _ _ => True
  | .dlpSync user req services =>
      user.role.has .dlpManage = true ∧ ∃ items, s.imported toLowercase req services = .ok items

/-- What the request asks for is what the policy says already. -/
def AlreadyThere (s : ClassificationSys) : ClassificationRequest → Prop
  | .getPolicy => True
  | .setCollection name req => s.policy.collections.lookup name = some req.policy
  | .removeCollection name => s.policy.collections.lookup name = none
  | .setWorkspace slug req => s.policy.workspaces.lookup slug = some ⟨req.maxClearance⟩
  | .dlpSync user req services =>
      user.role.has .dlpManage = true →
        ∀ items, s.imported toLowercase req services = .ok items →
          ∀ collection label, lastLabel items collection = some label →
            s.policy.collections.lookup collection = some ⟨label, true⟩

/-- The save goes through, or is refused where there is nothing new to save, or is not
    got to. -/
def Settled (s : ClassificationSys) (r : ClassificationRequest × Outcome) : Prop :=
  match r.2.save with
  | .written => True
  | .refused _ => s.AlreadyThere toLowercase r.1
  | .cutOff _ => ¬ s.Saves toLowercase r.1

end ClassificationSys

/-! ## What an import changes -/

section Imports

variable {p : ClassificationPolicy} {items : List ImportedLabel} {c : String}

theorem lastLabel_cons (item : ImportedLabel) (items : List ImportedLabel) (c : String) :
    lastLabel (item :: items) c
      = (lastLabel items c).or (if item.collection == c then some item.label else none) := by
  rw [lastLabel, List.reverse_cons, List.find?_append, Option.map_or, List.find?_singleton]
  show (lastLabel items c).or _ = _
  by_cases h : item.collection == c
  · simp [h]
  · simp [h]

theorem lookup_setCollectionLabel (p : ClassificationPolicy) (d : String) (label : DataLabel)
    (block : Bool) (c : String) :
    (p.setCollectionLabel d label block).collections.lookup c
      = if d = c then some ⟨label, block⟩ else p.collections.lookup c := by
  show (p.collections.insert d ⟨label, block⟩).lookup c = _
  by_cases h : d = c
  · subst h
    rw [AList.lookup_insert, if_pos rfl]
  · rw [AList.lookup_insert_ne (Ne.symm h), if_neg h]

/-- After an import a collection has the label of its last item, and every other one is
    what it was. -/
theorem lookup_applyImported (p : ClassificationPolicy) (items : List ImportedLabel)
    (c : String) :
    (applyImported p items).collections.lookup c
      = ((lastLabel items c).map (⟨·, true⟩)).or (p.collections.lookup c) := by
  induction items generalizing p with
  | nil => rfl
  | cons item items ih =>
      show (applyImported (p.setCollectionLabel item.collection item.label true) items
        ).collections.lookup c = _
      rw [ih, lookup_setCollectionLabel, lastLabel_cons]
      by_cases h : item.collection = c
      · subst h
        cases lastLabel items item.collection <;> simp
      · cases lastLabel items c <;> simp [h]

theorem applyImported_workspaces (p : ClassificationPolicy) (items : List ImportedLabel) :
    (applyImported p items).workspaces = p.workspaces := by
  induction items generalizing p with
  | nil => rfl
  | cons item items ih => exact ih _

/-- An import changes nothing exactly when every label it ends with is there. -/
theorem applyImported_same_iff :
    (applyImported p items).Same p ↔
      ∀ c label, lastLabel items c = some label →
        p.collections.lookup c = some ⟨label, true⟩ := by
  constructor
  · intro h c label hlast
    have hc := h.collections c
    rw [lookup_applyImported, hlast] at hc
    exact hc.symm
  · intro h
    refine ⟨fun c => ?_, fun w => by rw [applyImported_workspaces]⟩
    rw [lookup_applyImported]
    cases hlast : lastLabel items c with
    | none => rfl
    | some label => exact (h c label hlast).symm

end Imports

/-! ## What one request changes -/

theorem insert_collection_same_iff {p : ClassificationPolicy} {name : String}
    {new : CollectionPolicy} :
    ({ p with collections := p.collections.insert name new } : ClassificationPolicy).Same p ↔
      p.collections.lookup name = some new := by
  constructor
  · intro h
    rw [← h.collections name]
    exact AList.lookup_insert p.collections
  · intro h
    refine ⟨fun c => ?_, fun _ => rfl⟩
    by_cases hc : c = name
    · rw [hc, h]
      exact AList.lookup_insert p.collections
    · exact AList.lookup_insert_ne hc

theorem insert_workspace_same_iff {p : ClassificationPolicy} {slug : String}
    {new : WorkspacePolicy} :
    ({ p with workspaces := p.workspaces.insert slug new } : ClassificationPolicy).Same p ↔
      p.workspaces.lookup slug = some new := by
  constructor
  · intro h
    rw [← h.workspaces slug]
    exact AList.lookup_insert p.workspaces
  · intro h
    refine ⟨fun _ => rfl, fun w => ?_⟩
    by_cases hw : w = slug
    · rw [hw, h]
      exact AList.lookup_insert p.workspaces
    · exact AList.lookup_insert_ne hw

theorem erase_collection_same_iff {p : ClassificationPolicy} {name : String} :
    ({ p with collections := p.collections.erase name } : ClassificationPolicy).Same p ↔
      p.collections.lookup name = none := by
  constructor
  · intro h
    rw [← h.collections name]
    exact AList.lookup_erase name p.collections
  · intro h
    refine ⟨fun c => ?_, fun _ => rfl⟩
    by_cases hc : c = name
    · rw [hc, h]
      exact AList.lookup_erase name p.collections
    · exact AList.lookup_erase_ne hc

namespace ClassificationSys

variable {toLowercase : String → String} {s : ClassificationSys}

@[simp] theorem append_policy (s : ClassificationSys) (actor : String) (event : AuditEvent)
    (o : Outcome) : (s.append actor event o).policy = s.policy := by
  rw [append]
  split <;> rfl

@[simp] theorem append_written (s : ClassificationSys) (actor : String) (event : AuditEvent)
    (o : Outcome) : (s.append actor event o).written = s.written := by
  rw [append]
  split <;> rfl

variable (toLowercase) in
/-- What a request that gets to its save makes of the policy and of the file.  With the
    save written it returns no error. -/
structure SavedAs (s : ClassificationSys) (r : ClassificationRequest) (o : Outcome)
    (policy : ClassificationPolicy) : Prop where
  policy_eq : (s.serve toLowercase r o).1.policy = policy
  written : (s.serve toLowercase r o).1.written = o.save.result s.written policy
  same_iff : policy.Same s.policy ↔ s.AlreadyThere toLowercase r
  answered : o.save = .written → ∀ e, (s.serve toLowercase r o).2 ≠ .error e

/-- `dlp_sync` past its checks. -/
theorem dlpSync_of_imported {user : User} {req : SyncRequest} {services : DlpServices}
    {items : List ImportedLabel} (hperm : user.role.has .dlpManage = true)
    (hitems : s.imported toLowercase req services = .ok items) (o : Outcome) :
    s.serve toLowercase (.dlpSync user req services) o =
      ((s.save (applyImported s.policy items) o.save).append "dlp"
          (.dlpSyncCompleted req.provider items.length.toUInt64) o,
        .ok (.synced req.provider items.length
          (items.map fun i => ⟨i.collection, i.label.debug⟩))) := by
  show s.dlpSync toLowercase user req services o = _
  rw [dlpSync, User.require, if_pos hperm, hitems]

/-- **A request that saves.** -/
theorem exists_savedAs {r : ClassificationRequest} (h : s.Saves toLowercase r) (o : Outcome) :
    ∃ policy, s.SavedAs toLowercase r o policy := by
  obtain ⟨save, appended⟩ := o
  -- Every handler writes the policy that it has made live.
  cases r with
  | getPolicy => exact h.elim
  | setCollection name req =>
      refine ⟨{ s.policy with collections := s.policy.collections.insert name req.policy }, ?_, ?_,
        insert_collection_same_iff, ?_⟩
      · cases save with
        | written => exact append_policy ..
        | refused e => rfl
        | cutOff e => rfl
      · cases save with
        | written => exact append_written ..
        | refused e => rfl
        | cutOff e => rfl
      · rintro rfl e he
        cases he
  | removeCollection name =>
      have hlookup : (s.policy.collections.lookup name).isSome := Option.isSome_iff_ne_none.mpr h
      refine ⟨{ s.policy with collections := s.policy.collections.erase name }, ?_, ?_,
        erase_collection_same_iff, ?_⟩
      · rw [serve, removeCollection, if_pos hlookup]
        cases save <;> rfl
      · rw [serve, removeCollection, if_pos hlookup]
        cases save <;> rfl
      · rintro rfl e he
        rw [serve, removeCollection, if_pos hlookup] at he
        cases he
  | setWorkspace slug req =>
      refine ⟨{ s.policy with workspaces := s.policy.workspaces.insert slug ⟨req.maxClearance⟩ },
        ?_, ?_, insert_workspace_same_iff, ?_⟩
      · cases save <;> rfl
      · cases save <;> rfl
      · rintro rfl e he
        cases he
  | dlpSync user req services =>
      -- The import is one policy, whatever the end of its save.
      obtain ⟨hperm, items, hitems⟩ := h
      have hserve := dlpSync_of_imported hperm hitems ⟨save, appended⟩
      refine ⟨applyImported s.policy items, ?_, ?_, ?_, fun _ e he => ?_⟩
      · rw [hserve, append_policy, ClassificationSys.save]
      · rw [hserve, append_written, ClassificationSys.save]
      · rw [applyImported_same_iff]
        show _ ↔ (_ → ∀ items', s.imported toLowercase req services = .ok items' → _)
        rw [hitems]
        exact ⟨fun hall _ _ heq => Except.ok.inj heq ▸ hall, fun hall => hall hperm items rfl⟩
      · rw [hserve] at he
        cases he

/-- A request that does not get to its save changes nothing, and asks for nothing new. -/
theorem serve_of_not_saves {r : ClassificationRequest} (h : ¬ s.Saves toLowercase r)
    (o : Outcome) : (s.serve toLowercase r o).1 = s ∧ s.AlreadyThere toLowercase r := by
  cases r with
  | getPolicy => exact ⟨rfl, trivial⟩
  | setCollection name req => exact absurd trivial h
  | removeCollection name =>
      have hnone : s.policy.collections.lookup name = none := not_not.mp h
      refine ⟨?_, hnone⟩
      rw [serve, removeCollection, hnone]
      rfl
  | setWorkspace slug req => exact absurd trivial h
  | dlpSync user req services =>
      rw [serve, dlpSync, User.require]
      by_cases hperm : user.role.has .dlpManage = true
      · rw [if_pos hperm]
        cases himported : s.imported toLowercase req services with
        | error e =>
            refine ⟨rfl, fun _ items hitems => ?_⟩
            rw [himported] at hitems
            cases hitems
        | ok items => exact absurd ⟨hperm, items, himported⟩ h
      · rw [if_neg hperm]
        exact ⟨rfl, fun hhas => absurd hhas hperm⟩

/-- **One request.** -/
theorem kept_iff_settled (h : s.InStep) (r : ClassificationRequest × Outcome) :
    s.Kept toLowercase r ↔ s.Settled toLowercase r := by
  obtain ⟨r, o⟩ := r
  rw [Kept, Settled]
  by_cases hsaves : s.Saves toLowercase r
  · obtain ⟨policy, hsaved⟩ := exists_savedAs hsaves o
    rw [InStep, hsaved.policy_eq, hsaved.written]
    cases hend : o.save with
    -- Written: the file has the live policy, and there is no error.
    | written => exact iff_of_true ⟨⟨policy, rfl, .refl _⟩, fun e he =>
        absurd he (hsaved.answered hend e)⟩ trivial
    | refused e =>
        -- Refused: the file keeps the old policy, so the live one has to be that still.
        obtain ⟨p, hp, hsame⟩ := h
        have hkept : (∃ q, s.written = some q ∧ policy.Same q) ↔ policy.Same s.policy := by
          constructor
          · rintro ⟨q, hq, hpolicy⟩
            obtain rfl := Option.some.inj (hp.symm.trans hq)
            exact hpolicy.trans hsame.symm
          · exact fun hpolicy => ⟨p, hp, hpolicy.trans hsame⟩
        refine Iff.trans ?_ hsaved.same_iff
        exact ⟨fun hboth => hkept.mp hboth.1, fun hpolicy => ⟨hkept.mpr hpolicy, fun _ _ => hpolicy⟩⟩
    | cutOff e =>
        -- Cut off: nothing is read of the file any more.
        refine iff_of_false ?_ (not_not.mpr hsaves)
        rintro ⟨⟨q, hq, -⟩, -⟩
        cases hq
  -- Nothing was touched.
  · obtain ⟨hserve, hthere⟩ := serve_of_not_saves hsaves o
    refine iff_of_true ?_ ?_
    · rw [hserve]
      exact ⟨h, fun _ _ => .refl _⟩
    · cases o.save with
      | written => trivial
      | refused e => exact hthere
      | cutOff e => exact hsaves

/-! ## Runs -/

/-- **Memory and disk.**  From the daemon's start, the file holds the live policy after
    every request and no request that returned an error changed it, exactly as long as
    every save goes through, or is refused with nothing new to save, or is not got to. -/
theorem along_kept_iff (toLowercase : String → String) (policy : ClassificationPolicy)
    (dlp : DlpConfig) (rs : List (ClassificationRequest × Outcome)) :
    Along (step toLowercase) (Kept toLowercase) (start policy dlp) rs ↔
      Along (step toLowercase) (Settled toLowercase) (start policy dlp) rs := by
  have hstep : ∀ s r s', InStep s → Kept toLowercase s r → step toLowercase s r = some s' →
      InStep s' := by
    intro s r s' _ hkept hs'
    rw [← Option.some.inj hs']
    exact hkept.1
  have hstart : (start policy dlp).InStep := ⟨policy, rfl, .refl _⟩
  constructor
  · exact Along.imp_of_invariant hstep (fun s r h => (kept_iff_settled h r).mp) hstart
  · refine Along.imp_of_invariant (fun s r s' h hsettled => hstep s r s' h ?_)
      (fun s r h => (kept_iff_settled h r).mpr) hstart
    exact (kept_iff_settled h r).mpr hsettled

/-- The disk is full while a label is set: the client is told so, and the label is live
    all the same. -/
theorem not_kept_diskFull :
    ¬ Along (step String.toLower) (Kept String.toLower) (start .empty ⟨none, none, none⟩)
      [(.setCollection "patients" ⟨.phi, none, none⟩, ⟨.refused "disk full", true⟩)] := by
  intro h
  have hstart : (start .empty ⟨none, none, none⟩).InStep := ⟨_, rfl, .refl _⟩
  exact nomatch (kept_iff_settled hstart _).mp h.1

end ClassificationSys

end Maranode.Api
