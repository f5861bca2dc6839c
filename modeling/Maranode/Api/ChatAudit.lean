/-
  Maranode.Api.ChatAudit

  The inference events of concurrent chat requests: which log they go to, and whether
  the start of an inference is followed by its outcome and its receipt.

  The logs of the workspaces are opened once, when the daemon starts; a workspace that
  is created later has none, and its events go to the main log.
-/
import Maranode.Api.Chat
import Maranode.Lib.Run

namespace Maranode.Api

open Lib Maranode.Common Maranode.Inference

variable (X : External) (E : Ed25519)

/-! ## The daemon -/

/-- The workspaces, those whose logs are open, what has been appended to every log since
    the start (`none` is the main one), and the chat requests. -/
structure Daemon where
  workspaces : List String
  workspaceAudits : List String
  log : Option String → List AuditEvent
  issued : List String
  run : Nat → Option ChatRun

/-- The daemon has started, with these workspaces in its database. -/
def Daemon.start (workspaces : List String) : Daemon where
  workspaces := workspaces
  workspaceAudits := workspaces
  log := fun _ => []
  issued := []
  run := fun _ => none

/-- The log the handler takes for a workspace. -/
def Daemon.auditLog (d : Daemon) (slug : String) : Option String :=
  if slug ∈ d.workspaceAudits then some slug else none

def Daemon.append (d : Daemon) (log : Option String) (events : List AuditEvent) : Daemon :=
  { d with log := Function.update d.log log (d.log log ++ events) }

inductive DaemonStep where
  | createWorkspace (slug : String)
  | deleteWorkspace (slug : String)
  | append (log : Option String) (event : AuditEvent)
  | arrive (i : Nat) (chat : Chat) (env : ChatEnv)
  | chat (i : Nat) (step : ChatStep)

/-- One step.  Other parts of the daemon append events that are not about an inference,
    and a request has an identifier that no other one has had. -/
def Daemon.step (d : Daemon) : DaemonStep → Option Daemon
  | .createWorkspace slug =>
      if slug ∈ d.workspaces then none else some { d with workspaces := slug :: d.workspaces }
  | .deleteWorkspace slug =>
      if slug = "default" then none
      else some { d with workspaces := d.workspaces.filter (· ≠ slug) }
  | .append log event =>
      if inferenceId event = none then some (d.append log [event]) else none
  | .arrive i chat env =>
      if chat.slug ∈ d.workspaces ∧ (d.run i).isNone ∧ chat.requestId ∉ d.issued then
        some { d with
          issued := chat.requestId :: d.issued
          run := Function.update d.run i (some ⟨chat, env, d.auditLog chat.slug, .admitted⟩) }
      else none
  | .chat i step =>
      (d.run i).bind fun r => (r.next X E step).map fun (phase, event) =>
        { d.append r.audit event.toList with
          run := Function.update d.run i (some { r with phase := phase }) }

/-! ## Pairing -/

def isStart (e : AuditEvent) : Bool := e.kind == .inferenceStart

def isOutcome (e : AuditEvent) : Bool :=
  e.kind == .inferenceComplete || e.kind == .inferenceFailed

def isComplete (e : AuditEvent) : Bool := e.kind == .inferenceComplete

def isReceipt (e : AuditEvent) : Bool := e.kind == .inferenceReceipt

/-- What a log has on a request. -/
def trailOf (requestId : String) (log : List AuditEvent) : List AuditEvent :=
  log.filter fun e => inferenceId e == some requestId

/-- Every completion is followed by exactly one receipt. -/
def Receipted : List AuditEvent → Prop
  | [] => True
  | e :: es => (isComplete e = true → es.countP isReceipt = 1) ∧ Receipted es

/-- One start, one outcome after it, and one receipt after a completion. -/
structure Paired (trail : List AuditEvent) : Prop where
  start : trail.countP isStart = 1
  outcome : trail.countP isOutcome = 1
  later : (trail.dropWhile fun e => !isStart e).countP isOutcome = 1
  receipt : Receipted trail

/-- The request got as far as the engine. -/
def ChatPhase.Reached : ChatPhase → Prop
  | .admitted => False
  | .refused => False
  | _ => True

/-- Nothing is left to do for the request. -/
def ChatPhase.Settled : ChatPhase → Prop
  | .refused => True
  | .streamed => True
  | .failed _ => True
  | .receipted _ => True
  | _ => False

def Daemon.Settled (d : Daemon) : Prop := ∀ i r, d.run i = some r → r.phase.Settled

/-! ## One request -/

/-- The events of a request up to a phase. -/
def ChatRun.trail (r : ChatRun) : ChatPhase → List AuditEvent
  | .admitted => []
  | .refused => []
  | .started => [r.chat.startEvent X r.env]
  | .streaming => [r.chat.startEvent X r.env]
  | .streamed => [r.chat.startEvent X r.env]
  | .failing _ => [r.chat.startEvent X r.env]
  | .failed err => [r.chat.startEvent X r.env, r.chat.failedEvent err]
  | .answered _ => [r.chat.startEvent X r.env]
  | .completed resp => [r.chat.startEvent X r.env, r.chat.completeEvent r.env resp]
  | .receipted resp => [r.chat.startEvent X r.env, r.chat.completeEvent r.env resp]
      ++ ((r.chat.buildReceipt X E r.env resp).map .inferenceReceipt).toList

/-- How the phase comes from the request and what it met. -/
def ChatRun.Fits (r : ChatRun) : ChatPhase → Prop
  | .admitted => True
  | .refused => True
  | .started => True
  | .streaming => r.chat.stream = true
  | .streamed => r.chat.stream = true
  | .failing err => r.chat.stream = false ∧ r.env.outcome = .error err
  | .failed err => r.chat.stream = false ∧ r.env.outcome = .error err
  | .answered resp => r.chat.stream = false ∧ r.env.outcome = .ok resp
  | .completed resp => r.chat.stream = false ∧ r.env.outcome = .ok resp
  | .receipted resp => r.chat.stream = false ∧ r.env.outcome = .ok resp

variable {X E}

theorem buildReceipt_requestId {c : Chat} {env : ChatEnv} {resp : InferenceResponse}
    {receipt : InferenceReceipt} (h : c.buildReceipt X E env resp = some receipt) :
    receipt.requestId = c.requestId := by
  obtain ⟨sk, -, rfl⟩ := Option.map_eq_some_iff.mp h
  rfl

/-- A step of the handler appends the next events of the request, and they carry its
    identifier. -/
theorem ChatRun.next_spec {r : ChatRun} {step : ChatStep} {phase : ChatPhase}
    {event : Option AuditEvent} (hfits : r.Fits r.phase)
    (h : r.next X E step = some (phase, event)) :
    r.trail X E phase = r.trail X E r.phase ++ event.toList ∧ r.Fits phase ∧
      ∀ e ∈ event.toList, inferenceId e = some r.chat.requestId := by
  unfold next at h
  -- The phases in the order of `run`.
  split at h
  case h_1 hphase =>
      obtain ⟨rfl, rfl⟩ := Prod.mk.inj (Option.some.inj h)
      rw [hphase]
      exact ⟨rfl, trivial, List.forall_mem_nil _⟩
  case h_2 hphase =>
      obtain ⟨rfl, rfl⟩ := Prod.mk.inj (Option.some.inj h)
      rw [hphase]
      exact ⟨rfl, trivial, List.forall_mem_singleton.mpr rfl⟩
  case h_3 hphase =>
      rw [hphase]
      -- A request to stream and one that waits for the engine part here.
      split_ifs at h with hstream
      · obtain ⟨rfl, rfl⟩ := Prod.mk.inj (Option.some.inj h)
        exact ⟨rfl, hstream, List.forall_mem_nil _⟩
      · have hsync : r.chat.stream = false := Bool.eq_false_of_not_eq_true hstream
        rcases hout : r.env.outcome with err | resp <;> rw [hout] at h <;>
          obtain ⟨rfl, rfl⟩ := Prod.mk.inj (Option.some.inj h)
        · exact ⟨rfl, ⟨hsync, hout⟩, List.forall_mem_nil _⟩
        · exact ⟨rfl, ⟨hsync, hout⟩, List.forall_mem_nil _⟩
  case h_4 hphase =>
      obtain ⟨rfl, rfl⟩ := Prod.mk.inj (Option.some.inj h)
      rw [hphase] at hfits ⊢
      exact ⟨rfl, hfits, List.forall_mem_nil _⟩
  case h_5 hphase =>
      obtain ⟨rfl, rfl⟩ := Prod.mk.inj (Option.some.inj h)
      rw [hphase] at hfits ⊢
      exact ⟨rfl, hfits, List.forall_mem_singleton.mpr rfl⟩
  case h_6 hphase =>
      obtain ⟨rfl, rfl⟩ := Prod.mk.inj (Option.some.inj h)
      rw [hphase] at hfits ⊢
      exact ⟨rfl, hfits, List.forall_mem_singleton.mpr rfl⟩
  case h_7 hphase =>
      obtain ⟨rfl, rfl⟩ := Prod.mk.inj (Option.some.inj h)
      rw [hphase] at hfits ⊢
      -- The receipt goes into the log with the id of the request.
      refine ⟨rfl, hfits, fun e he => ?_⟩
      obtain ⟨receipt, hreceipt, rfl⟩ := Option.map_eq_some_iff.mp (Option.mem_toList.mp he)
      exact congrArg some (buildReceipt_requestId hreceipt)
  case h_8 => cases h

/-! ## All requests -/

variable (X E) in
/-- What is known of a request: it took its log by what was open, its phase fits, and
    the logs have on it what it appended. -/
structure ChatRun.Tracked (d : Daemon) (r : ChatRun) : Prop where
  issued : r.chat.requestId ∈ d.issued
  audit : r.audit = d.auditLog r.chat.slug
  fits : r.Fits r.phase
  trail : ∀ log, trailOf r.chat.requestId (d.log log)
    = if log = r.audit then r.trail X E r.phase else []

/-- Two requests have different identifiers. -/
def Apart (o o' : Option ChatRun) : Prop :=
  ∀ r r', o = some r → o' = some r' → r.chat.requestId ≠ r'.chat.requestId

variable (X E) in
structure Traced (workspaces : List String) (d : Daemon) : Prop where
  audits : d.workspaceAudits = workspaces
  tracked : ∀ i r, d.run i = some r → r.Tracked X E d
  apart : ∀ i j, i ≠ j → Apart (d.run i) (d.run j)
  fresh : ∀ requestId, requestId ∉ d.issued → ∀ log, trailOf requestId (d.log log) = []

theorem traced_start (workspaces : List String) : Traced X E workspaces (.start workspaces) where
  audits := rfl
  tracked := fun _ _ h => absurd h (Option.some_ne_none _).symm
  apart := fun _ _ _ _ _ h => absurd h (Option.some_ne_none _).symm
  fresh := fun _ _ _ => rfl

theorem trailOf_append_of_ne {requestId : String} {log events : List AuditEvent}
    (h : ∀ e ∈ events, inferenceId e ≠ some requestId) :
    trailOf requestId (log ++ events) = trailOf requestId log := by
  have hnil : events.filter (fun e => inferenceId e == some requestId) = [] := by
    simpa [List.filter_eq_nil_iff] using h
  rw [trailOf, List.filter_append, hnil, List.append_nil]
  rfl

theorem trailOf_append_self {requestId : String} {log events : List AuditEvent}
    (h : ∀ e ∈ events, inferenceId e = some requestId) :
    trailOf requestId (log ++ events) = trailOf requestId log ++ events := by
  have hall : events.filter (fun e => inferenceId e == some requestId) = events := by
    simpa [List.filter_eq_self] using h
  rw [trailOf, List.filter_append, hall]
  rfl

/-- What is appended about other requests, or about none, is not on the trail. -/
theorem trailOf_append {d : Daemon} {requestId : String} (log : Option String)
    {events : List AuditEvent} (h : ∀ e ∈ events, inferenceId e ≠ some requestId)
    (log' : Option String) :
    trailOf requestId ((d.append log events).log log') = trailOf requestId (d.log log') := by
  rw [Daemon.append]
  dsimp only
  by_cases hlog : log' = log
  · rw [hlog, Function.update_self, trailOf_append_of_ne h]
  · rw [Function.update_of_ne hlog]

/-- Requests that a step is not about stay tracked. -/
theorem ChatRun.Tracked.mono {d d' : Daemon} {r : ChatRun} (h : r.Tracked X E d)
    (hissued : d.issued ⊆ d'.issued) (haudits : d'.workspaceAudits = d.workspaceAudits)
    (htrail : ∀ log, trailOf r.chat.requestId (d'.log log) = trailOf r.chat.requestId (d.log log)) :
    r.Tracked X E d' where
  issued := hissued h.issued
  audit := by
    rw [Daemon.auditLog, haudits]
    exact h.audit
  fits := h.fits
  trail log := (htrail log).trans (h.trail log)

theorem Traced.setWorkspaces {workspaces : List String} {d : Daemon} (h : Traced X E workspaces d)
    (all : List String) : Traced X E workspaces { d with workspaces := all } :=
  ⟨h.audits, fun i r hr => (h.tracked i r hr).mono (fun _ => id) rfl fun _ => rfl, h.apart,
    h.fresh⟩

/-- An event that is not about an inference is on no trail. -/
theorem Traced.append {workspaces : List String} {d : Daemon} (h : Traced X E workspaces d)
    (log : Option String) {event : AuditEvent} (hother : inferenceId event = none) :
    Traced X E workspaces (d.append log [event]) := by
  have hkeep : ∀ requestId log', trailOf requestId ((d.append log [event]).log log')
      = trailOf requestId (d.log log') := by
    intro requestId
    apply trailOf_append
    rw [List.forall_mem_singleton, hother]
    exact (Option.some_ne_none requestId).symm
  exact ⟨h.audits, fun i r hr => (h.tracked i r hr).mono (fun _ => id) rfl (hkeep _), h.apart,
    fun requestId hid log' => (hkeep requestId log').trans (h.fresh requestId hid log')⟩

/-- Nothing is on the trail of a new identifier. -/
theorem Traced.arrive {workspaces : List String} {d : Daemon} (h : Traced X E workspaces d)
    (i : Nat) {chat : Chat} (env : ChatEnv) (hid : chat.requestId ∉ d.issued) :
    Traced X E workspaces { d with
      issued := chat.requestId :: d.issued
      run := Function.update d.run i
        (some ⟨chat, env, d.auditLog chat.slug, .admitted⟩) } where
  audits := h.audits
  tracked := by
    refine Run.forall_update (P := fun o => ∀ r, o = some r → ChatRun.Tracked X E _ r)
      (fun j r hr => ?_) fun r hr => ?_
    · exact (h.tracked j r hr).mono (List.subset_cons_self _ _) rfl fun _ => rfl
    · obtain rfl := Option.some.inj hr
      refine ⟨List.mem_cons_self, rfl, trivial, fun log => ?_⟩
      exact (h.fresh _ hid log).trans (ite_self []).symm
  apart := by
    refine Run.pairwise_update ?_ h.apart fun j _ r r' hr hr' => ?_
    · exact fun o o' ho r r' hr hr' => (ho r' r hr' hr).symm
    · obtain rfl := Option.some.inj hr
      exact fun heq => hid (heq ▸ (h.tracked j r' hr').issued)
  fresh := fun requestId hnew => h.fresh requestId fun hold => hnew (List.mem_cons_of_mem _ hold)

/-- A step of the handler adds to the trail of its own request. -/
theorem Traced.chat {workspaces : List String} {d : Daemon} (h : Traced X E workspaces d)
    {i : Nat} {r : ChatRun} (hr : d.run i = some r) {step : ChatStep} {phase : ChatPhase}
    {event : Option AuditEvent} (hnext : r.next X E step = some (phase, event)) :
    Traced X E workspaces
      { d.append r.audit event.toList with
        run := Function.update d.run i (some { r with phase := phase }) } := by
  have hself := h.tracked i r hr
  obtain ⟨htrail, hfits, hevents⟩ := ChatRun.next_spec hself.fits hnext
  -- Requests have different ids, so the trail of another one is what it was.
  have hkeep : ∀ requestId, requestId ≠ r.chat.requestId → ∀ log,
      trailOf requestId ((d.append r.audit event.toList).log log)
        = trailOf requestId (d.log log) := by
    intro requestId hne
    apply trailOf_append
    intro e he heq
    rw [hevents e he, Option.some.injEq] at heq
    exact hne heq.symm
  refine ⟨h.audits, fun j r' hr' => ?_, ?_, fun requestId hid log => ?_⟩
  · by_cases hj : j = i
    · rw [hj] at hr'
      obtain rfl := Option.some.inj ((Function.update_self i _ d.run).symm.trans hr')
      refine ⟨hself.issued, hself.audit, hfits, fun log => ?_⟩
      show trailOf r.chat.requestId (Function.update d.log r.audit _ log) = _
      -- The entry is in the log of this request's workspace only.
      by_cases hlog : log = r.audit
      · rw [hlog, Function.update_self, trailOf_append_self hevents, hself.trail, if_pos rfl,
          if_pos rfl]
        exact htrail.symm
      · rw [Function.update_of_ne hlog, hself.trail, if_neg hlog, if_neg hlog]
    · have hold : d.run j = some r' := (Function.update_of_ne hj _ d.run).symm.trans hr'
      exact (h.tracked j r' hold).mono (fun _ => id) rfl (hkeep _ (h.apart j i hj r' r hold hr))
  · refine Run.pairwise_update ?_ h.apart fun j hj r₁ r₂ hr₁ hr₂ => ?_
    · exact fun o o' ho r r' hr hr' => (ho r' r hr' hr).symm
    · obtain rfl := Option.some.inj hr₁
      exact h.apart i j hj.symm r r₂ hr hr₂
  -- Ids that are still to be drawn are in no log.
  · rw [hkeep requestId (fun heq => hid (heq ▸ hself.issued)) log]
    exact h.fresh requestId hid log

theorem Traced.step {workspaces : List String} {d d' : Daemon} (h : Traced X E workspaces d)
    {op : DaemonStep} (hd' : d.step X E op = some d') : Traced X E workspaces d' := by
  cases op with
  | createWorkspace slug =>
      rw [Daemon.step] at hd'
      split_ifs at hd'
      obtain rfl := Option.some.inj hd'
      exact h.setWorkspaces _
  | deleteWorkspace slug =>
      rw [Daemon.step] at hd'
      split_ifs at hd'
      obtain rfl := Option.some.inj hd'
      exact h.setWorkspaces _
  | append log event =>
      rw [Daemon.step] at hd'
      split_ifs at hd' with hother
      obtain rfl := Option.some.inj hd'
      exact h.append log hother
  | arrive i chat env =>
      rw [Daemon.step] at hd'
      split_ifs at hd' with hnew
      obtain rfl := Option.some.inj hd'
      exact h.arrive i env hnew.2.2
  | chat i step =>
      obtain ⟨r, hr, hstep⟩ := Option.bind_eq_some_iff.mp hd'
      obtain ⟨⟨phase, event⟩, hnext, rfl⟩ := Option.map_eq_some_iff.mp hstep
      exact h.chat hr hnext

/-! ## Pairing, and when -/

/-- The request does not stream, its workspace was there when the daemon started, and the
    signing key can be loaded if the engine succeeds. -/
def Pairable (workspaces : List String) (r : ChatRun) : Prop :=
  r.chat.stream = false ∧ r.chat.slug ∈ workspaces ∧
    ∀ resp, r.env.outcome = .ok resp → r.env.signingKey.isSome = true

theorem not_paired_nil : ¬ Paired [] := fun h => Nat.zero_ne_one h.start

/-- A start alone, or with a completion alone, is not enough. -/
theorem not_paired_start (c : Chat) (env : ChatEnv) : ¬ Paired [c.startEvent X env] :=
  fun h => Nat.zero_ne_one h.outcome

theorem not_paired_complete (c : Chat) (env : ChatEnv) (resp : InferenceResponse) :
    ¬ Paired [c.startEvent X env, c.completeEvent env resp] :=
  fun h => Nat.zero_ne_one (h.receipt.2.1 rfl)

theorem paired_failed (c : Chat) (env : ChatEnv) (err : String) :
    Paired [c.startEvent X env, c.failedEvent err] :=
  ⟨rfl, rfl, rfl, nofun, nofun, trivial⟩

theorem paired_receipt (c : Chat) (env : ChatEnv) (resp : InferenceResponse)
    (receipt : InferenceReceipt) :
    Paired [c.startEvent X env, c.completeEvent env resp, .inferenceReceipt receipt] :=
  ⟨rfl, rfl, rfl, nofun, fun _ => rfl, nofun, trivial⟩

/-- A settled request that reached the engine has a paired trail when it can. -/
theorem ChatRun.paired_trail_iff {r : ChatRun} {workspaces : List String}
    (hslug : r.chat.slug ∈ workspaces) (hfits : r.Fits r.phase) (hreached : r.phase.Reached)
    (hsettled : r.phase.Settled) :
    Paired (r.trail X E r.phase) ↔ Pairable workspaces r := by
  cases hphase : r.phase with
  -- A stream ends with its start in the log, and nothing to pair it with.
  | streamed =>
      rw [hphase] at hfits
      refine iff_of_false (not_paired_start r.chat r.env) fun h => ?_
      have hsync := h.1
      rw [show r.chat.stream = true from hfits] at hsync
      cases hsync
  -- The engine failed: the failure is logged where the start is.
  | failed err =>
      rw [hphase] at hfits
      refine iff_of_true (paired_failed r.chat r.env err) ⟨hfits.1, hslug, fun resp hok => ?_⟩
      rw [hfits.2] at hok
      cases hok
  | receipted resp =>
      rw [hphase] at hfits
      -- The receipt is there exactly when the signing key was loaded.
      rw [trail, Chat.buildReceipt]
      cases hkey : r.env.signingKey with
      | none =>
          refine iff_of_false (not_paired_complete r.chat r.env resp) fun h => ?_
          have hloaded := h.2.2 resp hfits.2
          rw [hkey] at hloaded
          cases hloaded
      | some sk =>
          refine iff_of_true (paired_receipt r.chat r.env resp _) ⟨hfits.1, hslug, fun _ _ => ?_⟩
          rw [hkey]
          rfl
  -- These two end before anything is logged.
  | admitted =>
      rw [hphase] at hreached
      exact hreached.elim
  | refused =>
      rw [hphase] at hreached
      exact hreached.elim
  | _ =>
      rw [hphase] at hsettled
      exact hsettled.elim

/-- **Inference events.**  In every run of the daemon from its start, once nothing is left
    to do, the log of the workspace of a request that reached the engine has one start,
    its outcome, and its receipt exactly when the request is pairable. -/
theorem chat_events_paired_iff {workspaces : List String} {ops : List DaemonStep} {d : Daemon}
    (hrun : Run.run (Daemon.step X E) (.start workspaces) ops = some d) (hsettled : d.Settled)
    {i : Nat} {r : ChatRun} (hr : d.run i = some r) (hreached : r.phase.Reached) :
    Paired (trailOf r.chat.requestId (d.log (some r.chat.slug))) ↔ Pairable workspaces r := by
  have htraced : Traced X E workspaces d :=
    Run.invariant_of_run (fun _ _ _ h hd' => h.step hd') (traced_start workspaces) hrun
  have hself := htraced.tracked i r hr
  have haudit := hself.audit
  rw [Daemon.auditLog, htraced.audits] at haudit
  by_cases hslug : r.chat.slug ∈ workspaces
  · rw [if_pos hslug] at haudit
    rw [hself.trail, if_pos haudit.symm]
    exact ChatRun.paired_trail_iff hslug hself.fits hreached (hsettled i r hr)
  · rw [if_neg hslug] at haudit
    have hother : some r.chat.slug ≠ r.audit := by
      rw [haudit]
      exact Option.some_ne_none _
    rw [hself.trail, if_neg hother]
    exact iff_of_false not_paired_nil fun h => hslug h.2.1

/-! ## A response, a stream and a new workspace -/

/-- A request for `hi`. -/
def hiChat (requestId slug : String) (stream : Bool) : Chat where
  requestId := requestId
  slug := slug
  modelId := ⟨"tiny", "bytes"⟩
  manifest := ⟨"00", none, "blobs/sha256-00", none⟩
  messages := [⟨.user, "hi"⟩]
  ragRetrieved := []
  temperature := ⟨0, F32.finite_zero⟩
  maxTokens := 16
  stop := none
  stream := stream
  seed := none
  deterministic := false
  logPrompts := false

def okResponse (requestId : String) : InferenceResponse where
  requestId := requestId
  model := ⟨"tiny", "bytes"⟩
  content := "ok"
  tokensIn := 56
  tokensOut := 2
  durationMs := 5
  device := .cpu
  finishReason := .stop

def okEnv (requestId : String) : ChatEnv where
  device := .cpu
  kernelBuildId := "llama-cpp-2@0.1.146"
  threadCount := 8
  outcome := .ok (okResponse requestId)
  durationMs := 5
  signingKey := some officerKey
  receiptId := 0
  now := 0

/-- A request that does not stream, from its arrival to its response. -/
def respondSteps (slug : String) : List DaemonStep :=
  [.arrive 0 (hiChat "7d3e" slug false) (okEnv "7d3e"), .chat 0 .start, .chat 0 .generate,
    .chat 0 .complete, .chat 0 .receipt]

def streamSteps (slug : String) : List DaemonStep :=
  [.arrive 0 (hiChat "7d3e" slug true) (okEnv "7d3e"), .chat 0 .start, .chat 0 .generate,
    .chat 0 .endStream]

/-- The only request there was is settled. -/
theorem settled_of_single {d : Daemon} {r : ChatRun} (hr : d.run 0 = some r)
    (hnone : ∀ i, i ≠ 0 → d.run i = none) (h : r.phase.Settled) : d.Settled := by
  intro i r' hr'
  by_cases hi : i = 0
  · rw [hi, hr] at hr'
    exact Option.some.inj hr' ▸ h
  · rw [hnone i hi] at hr'
    cases hr'

theorem run_respondSteps : ∃ d r,
    Run.run (Daemon.step X E) (.start ["default"]) (respondSteps "default") = some d ∧
    d.Settled ∧ d.run 0 = some r ∧ r.chat = hiChat "7d3e" "default" false ∧
    r.phase = .receipted (okResponse "7d3e") ∧ Pairable ["default"] r := by
  refine ⟨_, _, rfl, ?_, rfl, rfl, rfl, rfl, List.mem_singleton.mpr rfl, fun _ _ => rfl⟩
  refine settled_of_single rfl (fun i hi => ?_) trivial
  simp [Function.update_of_ne hi, Daemon.start]

theorem chat_events_paired_of_response : ∃ d r,
    Run.run (Daemon.step External.sample (Ed25519.sample [])) (.start ["default"])
      (respondSteps "default") = some d ∧ d.run 0 = some r ∧
    Paired (trailOf r.chat.requestId (d.log (some r.chat.slug))) := by
  obtain ⟨d, r, hrun, hsettled, hr, -, hphase, hpairable⟩ :=
    run_respondSteps (X := External.sample) (E := Ed25519.sample [])
  have hreached : r.phase.Reached := by
    rw [hphase]
    trivial
  exact ⟨d, r, hrun, hr, (chat_events_paired_iff hrun hsettled hr hreached).mpr hpairable⟩

/-- A stream leaves its start alone. -/
theorem run_streamSteps : ∃ d r,
    Run.run (Daemon.step X E) (.start ["default"]) (streamSteps "default") = some d ∧
    d.Settled ∧ d.run 0 = some r ∧ r.phase.Reached ∧
    ¬ Paired (trailOf r.chat.requestId (d.log (some r.chat.slug))) := by
  refine ⟨_, _, rfl, ?_, rfl, trivial, not_paired_start (X := X) (hiChat "7d3e" "default" true) _⟩
  refine settled_of_single rfl (fun i hi => ?_) trivial
  simp [Function.update_of_ne hi, Daemon.start]

/-- A workspace that is new gets nothing into its log. -/
theorem run_newWorkspace : ∃ d r,
    Run.run (Daemon.step X E) (.start ["default"])
      (.createWorkspace "legal" :: respondSteps "legal") = some d ∧
    d.Settled ∧ d.run 0 = some r ∧ r.phase.Reached ∧
    ¬ Paired (trailOf r.chat.requestId (d.log (some r.chat.slug))) := by
  refine ⟨_, _, rfl, ?_, rfl, trivial, not_paired_nil⟩
  refine settled_of_single rfl (fun i hi => ?_) trivial
  simp [Function.update_of_ne hi, Daemon.start]

/-- Neither a stream nor a response in a new workspace has its events paired. -/
theorem chat_events_not_paired :
    (∃ d r,
      Run.run (Daemon.step External.sample (Ed25519.sample [])) (.start ["default"])
        (streamSteps "default") = some d ∧
      d.Settled ∧ d.run 0 = some r ∧ r.phase.Reached ∧
      ¬ Paired (trailOf r.chat.requestId (d.log (some r.chat.slug)))) ∧
    ∃ d r,
      Run.run (Daemon.step External.sample (Ed25519.sample [])) (.start ["default"])
        (.createWorkspace "legal" :: respondSteps "legal") = some d ∧
      d.Settled ∧ d.run 0 = some r ∧ r.phase.Reached ∧
      ¬ Paired (trailOf r.chat.requestId (d.log (some r.chat.slug))) :=
  ⟨run_streamSteps, run_newWorkspace⟩

end Maranode.Api
