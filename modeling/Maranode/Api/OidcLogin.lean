/-
  Maranode.Api.OidcLogin

  `identity.rs`: signing in with OpenID Connect.

  `oidc_login` draws a state, a verifier and a nonce and keeps them; `oidc_callback` takes
  them by the state, asks the provider with them, and opens a session.  Between the take and
  the session the provider is waited for, and anything may happen, other callbacks included.
  A session is always that of one login: of the verifier and the nonce that were drawn for
  it, and of no other callback (`oidcCallback_granted`).
-/
import Maranode.Api.OidcPending
import Maranode.Api.SignIn
import Maranode.Daemon.Config

namespace Maranode.Api

open Lib Store UserDb
open Maranode.Daemon (OidcConfig)

/-! ## The provider -/

structure OidcClaims where
  subject : String
  email : Option String
  preferredUsername : Option String

/-- openidconnect, reqwest: what the provider answers to the calls of the daemon, which are
    numbered, as it may answer the same question differently. -/
structure OidcProvider (Metadata IdToken : Type) where
  discover : (call : Nat) → OidcConfig → Except String Metadata
  authorizeUrl : Metadata → OidcConfig → (state verifier nonce : String) → String
  exchangeCode : (call : Nat) → Metadata → OidcConfig → (code verifier : String) →
    Except String (Option IdToken)
  claims : Metadata → OidcConfig → IdToken → (nonce : String) → Except String OidcClaims

variable {Metadata IdToken : Type}

/-! ## Handlers -/

/-- What is drawn for a login. -/
structure OidcSecrets where
  csrf : String
  pkceVerifier : String
  nonce : String

def oidcLogin (P : OidcProvider Metadata IdToken) (pending : OidcPendingMap)
    (oidc : Option OidcConfig) (call : Nat) (secrets : OidcSecrets) (now : Instant) :
    OidcPendingMap × ApiResult String :=
  match oidc with
  | none => (pending, .error (.notFound "OIDC is not configured"))
  | some cfg =>
      match P.discover call cfg with
      | .error e => (pending, .error (.internal e))
      | .ok metadata =>
          (oidcPendingInsert pending secrets.csrf secrets.pkceVerifier secrets.nonce now,
            .ok (P.authorizeUrl metadata cfg secrets.csrf secrets.pkceVerifier secrets.nonce))

structure OidcCallbackParams where
  code : String
  state : Option String

/-- `oidc_callback` up to the take. -/
def oidcTake (pending : OidcPendingMap) (params : OidcCallbackParams) (now : Instant) :
    OidcPendingMap × ApiResult OidcPendingState :=
  match params.state with
  | none => (pending, .error (.unauthorized "missing state parameter"))
  | some stateToken =>
      match oidcPendingTake pending stateToken now with
      | (pending', none) => (pending', .error (.unauthorized "invalid or expired OIDC state"))
      | (pending', some entry) => (pending', .ok entry)

/-- The user of the claims. -/
def OidcClaims.sso (claims : OidcClaims) (cfg : OidcConfig) : SsoClaim where
  provider := .oidc
  sub := claims.subject
  username := (claims.preferredUsername.or claims.email).getD claims.subject
  email := claims.email
  role := cfg.defaultRole

/-- A callback that waits for the provider. -/
structure OidcCallback where
  params : OidcCallbackParams
  pending : OidcPendingState

def OidcCallback.stateToken (c : OidcCallback) : Option String := c.params.state

/-- The rest of `oidc_callback`. -/
def oidcFinish (X : External) (R : Rfc3339Reader) (S : SignIn)
    (P : OidcProvider Metadata IdToken) (db : Store.UserDb) (oidc : Option OidcConfig)
    (call : Nat) (c : OidcCallback) (d : Draw) : Store.UserDb × SessionReply :=
  match oidc with
  | none => (db, .error (.notFound "OIDC is not configured"))
  | some cfg =>
      match P.discover call cfg with
      | .error e => (db, .error (.internal e))
      | .ok metadata =>
          match P.exchangeCode call metadata cfg c.params.code c.pending.pkceVerifierSecret with
          | .error e => (db, .error (.internal s!"OIDC token exchange: {e}"))
          | .ok none => (db, .error (.internal "no id_token in response"))
          | .ok (some idToken) =>
              match P.claims metadata cfg idToken c.pending.nonceSecret with
              | .error e => (db, .error (.internal s!"OIDC claims: {e}"))
              | .ok claims => upsertSso X R S db (claims.sso cfg) d

/-! ## Runs -/

/-- The daemon, with the callbacks that wait. -/
structure OidcState where
  pending : OidcPendingMap
  waiting : List OidcCallback
  db : Store.UserDb

inductive OidcEvent where
  | login (oidc : Option OidcConfig) (call : Nat) (secrets : OidcSecrets) (now : Instant)
  | callback (params : OidcCallbackParams) (now : Instant)
  | finish (i : Nat) (oidc : Option OidcConfig) (call : Nat) (d : Draw)
  /-- The client is gone, and its handler is dropped. -/
  | hangUp (i : Nat)
  /-- Other handlers write the database. -/
  | other (db : Store.UserDb)

inductive OidcReply where
  | redirected (reply : ApiResult String)
  | taken (reply : ApiResult OidcPendingState)
  | finished (c : OidcCallback) (reply : SessionReply)
  | nothing

abbrev OidcLog := List (OidcEvent × OidcReply)

section Runs

variable (X : External) (R : Rfc3339Reader) (S : SignIn) (P : OidcProvider Metadata IdToken)

def OidcEvent.serve (s : OidcState) : OidcEvent → OidcState × OidcReply
  | .login oidc call secrets now =>
      ({ s with pending := (oidcLogin P s.pending oidc call secrets now).1 },
        .redirected (oidcLogin P s.pending oidc call secrets now).2)
  | .callback params now =>
      match oidcTake s.pending params now with
      | (pending, .error e) => ({ s with pending := pending }, .taken (.error e))
      | (pending, .ok entry) =>
          ({ s with pending := pending, waiting := s.waiting ++ [⟨params, entry⟩] },
            .taken (.ok entry))
  | .finish i oidc call d =>
      match s.waiting[i]? with
      | none => (s, .nothing)
      | some c =>
          ({ s with
              waiting := s.waiting.eraseIdx i
              db := (oidcFinish X R S P s.db oidc call c d).1 },
            .finished c (oidcFinish X R S P s.db oidc call c d).2)
  | .hangUp i => ({ s with waiting := s.waiting.eraseIdx i }, .nothing)
  | .other db => ({ s with db := db }, .nothing)

def nextOidc (s : OidcState × OidcLog) (e : OidcEvent) : OidcState × OidcLog :=
  ((e.serve X R S P s.1).1, s.2 ++ [(e, (e.serve X R S P s.1).2)])

/-- The daemon after some events, and what was answered. -/
def afterOidc (db : Store.UserDb) (events : List OidcEvent) : OidcState × OidcLog :=
  events.foldl (nextOidc X R S P) (⟨newOidcPending, [], db⟩, [])

end Runs

/-! ## States of logins -/

/-- The state that is drawn. -/
def OidcEvent.csrf : OidcEvent → Option String
  | .login _ _ secrets _ => some secrets.csrf
  | _ => none

/-- The client was sent to the provider with the state. -/
def Redirected (log : OidcLog) (secrets : OidcSecrets) (startedAt : Instant) : Prop :=
  ∃ oidc call url, (.login oidc call secrets startedAt, .redirected (.ok url)) ∈ log

/-- The state of a callback that is over. -/
def overState : OidcEvent × OidcReply → Option String
  | (_, .finished c _) => c.stateToken
  | _ => none

/-- A callback took what a login before it had drawn, within the ten minutes. -/
def TakenFrom (log : OidcLog) (c : OidcCallback) (secrets : OidcSecrets) : Prop :=
  ∃ before later startedAt now,
    log = before ++ (.callback c.params now, .taken (.ok c.pending)) :: later ∧
    Redirected before secrets startedAt ∧ c.stateToken = some secrets.csrf ∧
    c.pending = pendingEntry secrets.pkceVerifier secrets.nonce startedAt ∧
    now ≤ startedAt + OIDC_PENDING_TTL

/-- What holds of the states: each is that of one login, and pending, waiting or over. -/
structure OneFlow (s : OidcState) (log : OidcLog) : Prop where
  pending : ∀ t entry, s.pending t = some entry →
    ∃ secrets startedAt, secrets.csrf = t ∧ Redirected log secrets startedAt ∧
      entry = pendingEntry secrets.pkceVerifier secrets.nonce startedAt
  waiting : ∀ c ∈ s.waiting, ∃ secrets, TakenFrom log c secrets
  once : (s.waiting.filterMap OidcCallback.stateToken ++ log.filterMap overState).Nodup
  apart : ∀ t ∈ s.waiting.filterMap OidcCallback.stateToken ++ log.filterMap overState,
    s.pending t = none ∧ t ∈ log.filterMap fun o => o.1.csrf

variable {s : OidcState} {log : OidcLog} {e : OidcEvent} {reply : OidcReply}
  {secrets : OidcSecrets} {startedAt now : Instant} {c : OidcCallback} {t : String}

theorem Redirected.mono (h : Redirected log secrets startedAt) (more : OidcLog) :
    Redirected (log ++ more) secrets startedAt := by
  obtain ⟨oidc, call, url, hmem⟩ := h
  exact ⟨oidc, call, url, List.mem_append_left _ hmem⟩

theorem TakenFrom.mono (h : TakenFrom log c secrets) (more : OidcLog) :
    TakenFrom (log ++ more) c secrets := by
  obtain ⟨before, later, startedAt, now, rfl, hrest⟩ := h
  exact ⟨before, later ++ more, startedAt, now, by rw [List.append_assoc, List.cons_append],
    hrest⟩

theorem oneFlow_fresh (db : Store.UserDb) : OneFlow ⟨newOidcPending, [], db⟩ [] where
  pending := by rintro t entry ⟨⟩
  waiting := fun _ hc => absurd hc List.not_mem_nil
  once := List.nodup_nil
  apart := fun _ ht => absurd ht List.not_mem_nil

/-- What is pending after an insertion was pending before, or is what was inserted. -/
theorem oidcPendingInsert_eq_some {map : OidcPendingMap} {token v n : String}
    {entry : OidcPendingState} (h : oidcPendingInsert map token v n now t = some entry) :
    (t = token ∧ entry = pendingEntry v n now) ∨ t ≠ token ∧ map t = some entry := by
  rw [oidcPendingInsert] at h
  by_cases ht : t = token
  · rw [ht, Function.update_self] at h
    exact .inl ⟨ht, (Option.some.inj h).symm⟩
  · rw [Function.update_of_ne ht, Option.filter_eq_some_iff] at h
    exact .inr ⟨ht, h.1⟩

/-- What is left after a take. -/
theorem oidcPendingTake_fst_eq_some {map : OidcPendingMap} {token : String}
    {entry : OidcPendingState} (h : (oidcPendingTake map token now).1 t = some entry) :
    t ≠ token ∧ map t = some entry := by
  rw [oidcPendingTake_fst] at h
  by_cases ht : t = token
  · rw [ht, Function.update_self] at h
    cases h
  · rw [Function.update_of_ne ht] at h
    exact ⟨ht, h⟩

theorem oidcPendingTake_snd_eq_some {map : OidcPendingMap} {token : String}
    {entry : OidcPendingState} (h : (oidcPendingTake map token now).2 = some entry) :
    map token = some entry ∧ now ≤ entry.expiresAt := by
  rw [oidcPendingTake] at h
  cases hentry : map token with
  | none =>
      rw [hentry] at h
      cases h
  | some found =>
      rw [hentry] at h
      dsimp only at h
      split at h
      · cases h
      · next hlive =>
          rw [← Option.some.inj h]
          exact ⟨rfl, Nat.le_of_not_lt hlive⟩

/-- The answer adds nothing to the states that are over. -/
theorem over_quiet {o : OidcEvent × OidcReply} (hover : overState o = none) :
    (log ++ [o]).filterMap overState = log.filterMap overState := by
  rw [List.filterMap_append, List.filterMap_cons_none hover, List.filterMap_nil, List.append_nil]

theorem OneFlow.pending_mono (h : OneFlow s log) (more : OidcLog) {entry : OidcPendingState}
    (ht : s.pending t = some entry) :
    ∃ secrets startedAt, secrets.csrf = t ∧ Redirected (log ++ more) secrets startedAt ∧
      entry = pendingEntry secrets.pkceVerifier secrets.nonce startedAt := by
  obtain ⟨secrets, startedAt, hcsrf, hredirected, hentry⟩ := h.pending t entry ht
  exact ⟨secrets, startedAt, hcsrf, hredirected.mono more, hentry⟩

theorem OneFlow.waiting_mono (h : OneFlow s log) (more : OidcLog) (hc : c ∈ s.waiting) :
    ∃ secrets, TakenFrom (log ++ more) c secrets := by
  obtain ⟨secrets, htaken⟩ := h.waiting c hc
  exact ⟨secrets, htaken.mono more⟩

/-- A state that is not pending stays so, and stays drawn, where nothing new is pending. -/
theorem OneFlow.apart_mono (h : OneFlow s log) (more : OidcLog) {pending : OidcPendingMap}
    (hpending : ∀ entry, pending t = some entry → s.pending t = some entry)
    (ht : t ∈ s.waiting.filterMap OidcCallback.stateToken ++ log.filterMap overState) :
    pending t = none ∧ t ∈ (log ++ more).filterMap fun o => o.1.csrf := by
  obtain ⟨hnone, hdrawn⟩ := h.apart t ht
  refine ⟨Option.eq_none_iff_forall_ne_some.mpr fun entry hentry => ?_, ?_⟩
  · rw [hpending entry hentry] at hnone
    cases hnone
  · rw [List.filterMap_append]
    exact List.mem_append_left _ hdrawn

/-- Nothing new is pending, waiting or over. -/
theorem OneFlow.quiet (h : OneFlow s log) {s' : OidcState}
    (hpending : ∀ t entry, s'.pending t = some entry → s.pending t = some entry)
    (hwaiting : s'.waiting.Sublist s.waiting) (hover : overState (e, reply) = none) :
    OneFlow s' (log ++ [(e, reply)]) := by
  have hsub : (s'.waiting.filterMap OidcCallback.stateToken ++ log.filterMap overState).Sublist
      (s.waiting.filterMap OidcCallback.stateToken ++ log.filterMap overState) :=
    (hwaiting.filterMap _).append (List.Sublist.refl _)
  refine ⟨fun t entry ht => h.pending_mono _ (hpending t entry ht),
    fun c hc => h.waiting_mono _ (hwaiting.subset hc), ?_, fun t ht => ?_⟩
  · rw [over_quiet hover]
    exact h.once.sublist hsub
  · rw [over_quiet hover] at ht
    exact h.apart_mono _ (hpending t) (hsub.subset ht)

/-- The state was drawn. -/
theorem Redirected.drawn (h : Redirected log secrets startedAt) :
    secrets.csrf ∈ log.filterMap fun o => o.1.csrf := by
  obtain ⟨oidc, call, url, hmem⟩ := h
  exact List.mem_filterMap.mpr ⟨_, hmem, rfl⟩

section Steps

variable {X : External} {R : Rfc3339Reader} {S : SignIn} {P : OidcProvider Metadata IdToken}

theorem oneFlow_login (h : OneFlow s log) {oidc : Option OidcConfig} {call : Nat}
    (hnew : secrets.csrf ∉ log.filterMap fun o => o.1.csrf) :
    OneFlow (OidcEvent.serve X R S P s (.login oidc call secrets now)).1
      (log ++ [(.login oidc call secrets now,
        (OidcEvent.serve X R S P s (.login oidc call secrets now)).2)]) := by
  rw [OidcEvent.serve, oidcLogin.eq_def]
  cases oidc with
  | none => exact h.quiet (fun _ _ h => h) (List.Sublist.refl _) rfl
  | some cfg =>
      dsimp only
      cases P.discover call cfg with
      | error e => exact h.quiet (fun _ _ h => h) (List.Sublist.refl _) rfl
      | ok metadata =>
          dsimp only
          generalize P.authorizeUrl metadata cfg secrets.csrf secrets.pkceVerifier
            secrets.nonce = url
          refine ⟨fun t entry ht => ?_, fun c hc => h.waiting_mono _ hc, ?_, fun t ht => ?_⟩
          · rcases oidcPendingInsert_eq_some ht with ⟨rfl, rfl⟩ | ⟨-, hold⟩
            · exact ⟨secrets, now, rfl, ⟨some cfg, call, url,
                List.mem_append_right _ (List.mem_singleton_self _)⟩, rfl⟩
            · exact h.pending_mono _ hold
          · rw [over_quiet rfl]
            exact h.once
          · rw [over_quiet rfl] at ht
            refine h.apart_mono _ (fun entry hentry => ?_) ht
            rcases oidcPendingInsert_eq_some hentry with ⟨rfl, -⟩ | ⟨-, hold⟩
            · exact absurd (h.apart _ ht).2 hnew
            · exact hold

theorem oneFlow_callback (h : OneFlow s log) (params : OidcCallbackParams) (now : Instant) :
    OneFlow (OidcEvent.serve X R S P s (.callback params now)).1
      (log ++ [(.callback params now,
        (OidcEvent.serve X R S P s (.callback params now)).2)]) := by
  rw [OidcEvent.serve, oidcTake.eq_def]
  cases hstate : params.state with
  | none => exact h.quiet (fun _ _ h => h) (List.Sublist.refl _) rfl
  | some token =>
      dsimp only
      have hleft : ∀ t entry, (oidcPendingTake s.pending token now).1 t = some entry →
          s.pending t = some entry := fun t entry ht => (oidcPendingTake_fst_eq_some ht).2
      -- The take removes the state, whether or not it was still live.
      have hself : (oidcPendingTake s.pending token now).1 token = none := by
        rw [oidcPendingTake_fst, Function.update_self]
      have hfound := @oidcPendingTake_snd_eq_some now s.pending token
      rcases htake : oidcPendingTake s.pending token now with ⟨pending, found⟩
      rw [htake] at hleft hself hfound
      cases found with
      -- Nothing was pending, or too long: the callback ends at once.
      | none => exact h.quiet hleft (List.Sublist.refl _) rfl
      | some entry =>
          dsimp only
          obtain ⟨hpending, hlive⟩ := hfound rfl
          obtain ⟨secrets, startedAt, rfl, hredirected, hentry⟩ := h.pending token entry hpending
          have hstate' : OidcCallback.stateToken ⟨params, entry⟩ = some secrets.csrf := hstate
          have hwaiting : (s.waiting ++ [(⟨params, entry⟩ : OidcCallback)]).filterMap
              OidcCallback.stateToken =
              s.waiting.filterMap OidcCallback.stateToken ++ [secrets.csrf] := by
            rw [List.filterMap_append, List.filterMap_cons_some hstate', List.filterMap_nil]
          -- The state was pending, so it neither waits nor is over.
          have hfresh : secrets.csrf ∉ s.waiting.filterMap OidcCallback.stateToken ++
              log.filterMap overState := by
            intro hmem
            rw [(h.apart _ hmem).1] at hpending
            cases hpending
          refine ⟨fun t entry' ht => h.pending_mono _ (hleft t entry' ht), fun c hc => ?_, ?_,
            fun t ht => ?_⟩
          · rcases List.mem_append.mp hc with hold | hnew
            · exact h.waiting_mono _ hold
            · rw [List.mem_singleton.mp hnew]
              refine ⟨secrets, log, [], startedAt, now, rfl, hredirected, hstate, hentry, ?_⟩
              rw [hentry] at hlive
              exact hlive
          -- It is added to those that wait, and stays the only one.
          · rw [over_quiet rfl, hwaiting, List.append_assoc, List.singleton_append,
              List.nodup_middle, List.nodup_cons]
            exact ⟨hfresh, h.once⟩
          · rw [over_quiet rfl, hwaiting, List.append_assoc, List.singleton_append,
              List.mem_append, List.mem_cons, or_left_comm, ← List.mem_append] at ht
            rcases ht with rfl | hold
            · rw [List.filterMap_append]
              exact ⟨hself, List.mem_append_left _ hredirected.drawn⟩
            · exact h.apart_mono _ (hleft t) hold

theorem oneFlow_finish (h : OneFlow s log) (i : Nat) (oidc : Option OidcConfig) (call : Nat)
    (d : Draw) :
    OneFlow (OidcEvent.serve X R S P s (.finish i oidc call d)).1
      (log ++ [(.finish i oidc call d,
        (OidcEvent.serve X R S P s (.finish i oidc call d)).2)]) := by
  rw [OidcEvent.serve]
  cases hc : s.waiting[i]? with
  | none => exact h.quiet (fun _ _ h => h) (List.Sublist.refl _) rfl
  | some c =>
      dsimp only
      obtain ⟨hi, rfl⟩ := List.getElem?_eq_some_iff.mp hc
      obtain ⟨secrets, htaken⟩ := h.waiting _ (List.getElem_mem hi)
      have hstate : s.waiting[i].stateToken = some secrets.csrf := by
        obtain ⟨before, later, startedAt, now, -, -, hstate, -⟩ := htaken
        exact hstate
      generalize oidcFinish X R S P s.db oidc call s.waiting[i] d = out
      have hover : (log ++ [((.finish i oidc call d : OidcEvent),
          OidcReply.finished s.waiting[i] out.2)]).filterMap overState =
          log.filterMap overState ++ [secrets.csrf] := by
        have hlast : overState ((.finish i oidc call d : OidcEvent),
            OidcReply.finished s.waiting[i] out.2) = some secrets.csrf := hstate
        rw [List.filterMap_append, List.filterMap_cons_some hlast, List.filterMap_nil]
      -- the state moves from those that wait to those that are over
      have hperm : List.Perm
          ((s.waiting.eraseIdx i).filterMap OidcCallback.stateToken ++
            (log.filterMap overState ++ [secrets.csrf]))
          (s.waiting.filterMap OidcCallback.stateToken ++ log.filterMap overState) := by
        have hmoved := (List.getElem_cons_eraseIdx_perm hi).filterMap OidcCallback.stateToken
        rw [List.filterMap_cons_some hstate] at hmoved
        rw [← List.append_assoc]
        exact (List.perm_append_singleton _ _).trans (hmoved.append_right _)
      refine ⟨fun t entry ht => h.pending_mono _ ht,
        fun c' hc' => h.waiting_mono _ (List.mem_of_mem_eraseIdx hc'), ?_, fun t ht => ?_⟩
      · rw [hover]
        exact hperm.nodup_iff.mpr h.once
      · rw [hover] at ht
        exact h.apart_mono _ (fun _ h => h) (hperm.mem_iff.mp ht)

/-- One event. -/
theorem oneFlow_serve (h : OneFlow s log) (e : OidcEvent)
    (hnew : ∀ t, e.csrf = some t → t ∉ log.filterMap fun o => o.1.csrf) :
    OneFlow (e.serve X R S P s).1 (log ++ [(e, (e.serve X R S P s).2)]) := by
  cases e with
  | login oidc call secrets now => exact oneFlow_login h (hnew _ rfl)
  | callback params now => exact oneFlow_callback h params now
  | finish i oidc call d => exact oneFlow_finish h i oidc call d
  | hangUp i => exact h.quiet (fun _ _ h => h) (List.eraseIdx_sublist _ i) rfl
  | other db => exact h.quiet (fun _ _ h => h) (List.Sublist.refl _) rfl

theorem log_afterOidc (db : Store.UserDb) (events : List OidcEvent) :
    (afterOidc X R S P db events).2.map Prod.fst = events := by
  induction events using List.reverseRecOn with
  | nil => rfl
  | append_singleton events e ih =>
      rw [afterOidc, List.foldl_append]
      change ((afterOidc X R S P db events).2 ++ [(e, _)]).map Prod.fst = _
      rw [List.map_append, ih]
      rfl

/-- The states stay apart in every run that draws none twice. -/
theorem oneFlow_afterOidc (db : Store.UserDb) (events : List OidcEvent)
    (hdrawn : (events.filterMap OidcEvent.csrf).Nodup) :
    OneFlow (afterOidc X R S P db events).1 (afterOidc X R S P db events).2 := by
  induction events using List.reverseRecOn with
  | nil => exact oneFlow_fresh db
  | append_singleton events e ih =>
      rw [List.filterMap_append, List.nodup_append] at hdrawn
      obtain ⟨hbefore, -, hapart⟩ := hdrawn
      rw [afterOidc, List.foldl_append]
      refine oneFlow_serve (ih hbefore) e fun t ht hmem => ?_
      have hlog := log_afterOidc (X := X) (R := R) (S := S) (P := P) db events
      rw [← hlog, List.filterMap_map] at hapart
      refine hapart t hmem t ?_ rfl
      rw [List.filterMap_cons_some ht]
      exact List.mem_singleton_self t

/-- A session that a provider vouches for is one of the subject's user. -/
theorem upsertSso_granted {db : Store.UserDb} {claim : SsoClaim} {d : Draw} {token : String}
    {user : User} (h : (upsertSso X R S db claim d).2 = .granted token user) :
    user.provider = claim.provider ∧ user.providerSub = some claim.sub := by
  rcases upsertSso_cases X R S db claim d with
    ⟨e, hout⟩ | ⟨found, db', hread, -, hout⟩ | ⟨role, db', -, -, -, hout⟩
  · rw [hout] at h
    cases h
  · rw [hout] at h
    rw [getByProviderSub, Option.map_eq_some_iff] at hread
    obtain ⟨r, hr, rfl⟩ := hread
    have hclaimed := List.find?_some hr
    rw [Bool.and_eq_true, beq_iff_eq, beq_iff_eq] at hclaimed
    rw [← sessionFor_granted h]
    refine ⟨?_, hclaimed.2⟩
    rw [rowToUser]
    dsimp only
    rw [hclaimed.1, AuthProvider.fromStr_asStr]
    rfl
  · rw [hout] at h
    rw [← sessionFor_granted h]
    exact ⟨rfl, rfl⟩

variable (P) in
/-- The provider vouched for the user, asked with the verifier and the nonce. -/
def VouchedFor (oidc : Option OidcConfig) (call : Nat) (code : String) (secrets : OidcSecrets)
    (user : User) : Prop :=
  ∃ cfg metadata idToken claims, oidc = some cfg ∧ P.discover call cfg = .ok metadata ∧
    P.exchangeCode call metadata cfg code secrets.pkceVerifier = .ok (some idToken) ∧
    P.claims metadata cfg idToken secrets.nonce = .ok claims ∧
    user.provider = .oidc ∧ user.providerSub = some claims.subject

theorem oidcFinish_granted {db : Store.UserDb} {oidc : Option OidcConfig} {call : Nat} {d : Draw}
    {token : String} {user : User}
    (hpending : c.pending = pendingEntry secrets.pkceVerifier secrets.nonce startedAt)
    (h : (oidcFinish X R S P db oidc call c d).2 = .granted token user) :
    VouchedFor P oidc call c.params.code secrets user := by
  rw [oidcFinish.eq_def, hpending] at h
  cases oidc with
  | none => cases h
  | some cfg =>
      dsimp only at h
      split at h
      · cases h
      · next metadata hmetadata =>
          split at h
          · cases h
          · cases h
          · next idToken hidToken =>
              split at h
              · cases h
              · next claims hclaims =>
                  obtain ⟨hprovider, hsub⟩ := upsertSso_granted h
                  exact ⟨cfg, metadata, idToken, claims, rfl, hmetadata, hidToken, hclaims,
                    hprovider, hsub⟩

end Steps

/-- **A session by OpenID Connect.**  However logins, callbacks, answers of the provider and
    clients that hang up fall, a callback that is granted a session presented the state of one
    login of this daemon within ten minutes of it; the provider was asked with the verifier
    and the nonce that were drawn for that login, and vouched for the user; and no other
    callback with that state was ever answered after its take. -/
theorem oidcCallback_granted (X : External) (R : Rfc3339Reader) (S : SignIn)
    (P : OidcProvider Metadata IdToken) (db : Store.UserDb) (events : List OidcEvent)
    (hdrawn : (events.filterMap OidcEvent.csrf).Nodup) {i call : Nat} {c : OidcCallback}
    {oidc : Option OidcConfig} {d : Draw} {token : String} {user : User}
    (hc : (afterOidc X R S P db events).1.waiting[i]? = some c)
    (hgranted : (oidcFinish X R S P (afterOidc X R S P db events).1.db oidc call c d).2 =
      .granted token user) :
    ∃ secrets, TakenFrom (afterOidc X R S P db events).2 c secrets ∧
      VouchedFor P oidc call c.params.code secrets user ∧
      (∀ o ∈ (afterOidc X R S P db events).2, overState o ≠ some secrets.csrf) ∧
      ∀ (j : Nat) (c' : OidcCallback), (afterOidc X R S P db events).1.waiting[j]? = some c' →
        c'.stateToken = some secrets.csrf → j = i := by
  -- In every reached state a drawn state is pending, waiting or over, and only one of them.
  have hflow := oneFlow_afterOidc (X := X) (R := R) (S := S) (P := P) db events hdrawn
  obtain ⟨secrets, htaken⟩ := hflow.waiting c (List.mem_of_getElem? hc)
  obtain ⟨before, later, startedAt, now, -, -, hstate, hpending, -⟩ := id htaken
  obtain ⟨hi, hci⟩ := List.getElem?_eq_some_iff.mp hc
  refine ⟨secrets, htaken, oidcFinish_granted hpending hgranted, fun o ho hover => ?_,
    fun j c' hc' hstate' => ?_⟩
  -- This callback waits, so none with its state is over.
  · refine (List.nodup_append.mp hflow.once).2.2 secrets.csrf ?_ secrets.csrf ?_ rfl
    · exact List.mem_filterMap.mpr ⟨c, List.mem_of_getElem? hc, hstate⟩
    · exact List.mem_filterMap.mpr ⟨o, ho, hover⟩
  · -- every callback that waits has a state, so places and states go together
    have hall : (afterOidc X R S P db events).1.waiting.filterMap OidcCallback.stateToken =
        (afterOidc X R S P db events).1.waiting.map fun c => c.stateToken.getD "" := by
      rw [← List.filterMap_eq_map]
      refine List.filterMap_congr fun c hc => ?_
      obtain ⟨secrets, before, later, startedAt, now, -, -, hstate, -⟩ := hflow.waiting c hc
      rw [Function.comp_apply, hstate, Option.getD_some]
    have honce := (List.nodup_append.mp hflow.once).1
    rw [hall] at honce
    obtain ⟨hj, hcj⟩ := List.getElem?_eq_some_iff.mp hc'
    have hlength : ∀ {k}, k < (afterOidc X R S P db events).1.waiting.length →
        k < ((afterOidc X R S P db events).1.waiting.map fun c => c.stateToken.getD "").length := by
      intro k hk
      rwa [List.length_map]
    refine (@List.Nodup.getElem_inj_iff _ _ honce j (hlength hj) i (hlength hi)).mp ?_
    rw [List.getElem_map, List.getElem_map, hcj, hci, hstate, hstate']

/-! ## Samples -/

/-- A provider with one user, who signed in with the verifier and the nonce below. -/
def OidcProvider.sample : OidcProvider Unit Unit where
  discover := fun _ _ => .ok ()
  authorizeUrl := fun _ cfg state _ nonce =>
    cfg.issuerUrl ++ "?state=" ++ state ++ "&nonce=" ++ nonce
  exchangeCode := fun _ _ _ code verifier =>
    if code = "code-1" ∧ verifier = "verifier-1" then .ok (some ()) else .error "invalid_grant"
  claims := fun _ _ _ nonce =>
    if nonce = "nonce-1" then .ok ⟨"ida-1", some "ida@example.org", none⟩
    else .error "Nonce mismatch"

def sampleOidc : OidcConfig where
  issuerUrl := "https://id.example.org"
  clientId := "maranode"
  clientSecret := "secret"
  redirectUri := "https://node.example.org/v1/auth/oidc/callback"
  defaultRole := "viewer"

/-- Two clients start; the first comes back, and the second hangs up. -/
def idaEnters : List OidcEvent :=
  [.login (some sampleOidc) 0 ⟨"csrf-1", "verifier-1", "nonce-1"⟩ 0,
    .login (some sampleOidc) 1 ⟨"csrf-2", "verifier-2", "nonce-2"⟩ 5,
    .callback ⟨"code-2", some "csrf-2"⟩ 8, .callback ⟨"code-1", some "csrf-1"⟩ 10, .hangUp 0]

theorem oidcCallback_granted_ida :
    ∃ (secrets : OidcSecrets) (user : User),
      TakenFrom (afterOidc .sample .sample .sample .sample .fresh idaEnters).2
        ⟨⟨"code-1", some "csrf-1"⟩, pendingEntry "verifier-1" "nonce-1" 0⟩ secrets ∧
      VouchedFor .sample (some sampleOidc) 2 "code-1" secrets user := by
  obtain ⟨secrets, htaken, hvouched, -, -⟩ := @oidcCallback_granted Unit Unit .sample .sample
    .sample .sample .fresh idaEnters (by decide) 0 2
    ⟨⟨"code-1", some "csrf-1"⟩, pendingEntry "verifier-1" "nonce-1" 0⟩ (some sampleOidc)
    (drawAt 11 "3fa8") _ _ rfl rfl
  exact ⟨secrets, _, htaken, hvouched⟩

end Maranode.Api
