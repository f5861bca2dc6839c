/-
  Maranode.Daemon.Lifecycle

  `lifecycle.rs`: loading a model behind its approval token.

  The token is found by the digest of the model and verified under the key it names itself,
  so a load asks for a token, and not for one of this node or of this model.
-/
import Maranode.Common.Approval
import Maranode.Common.Events
import Maranode.Store.Blob

namespace Maranode.Daemon

open Lib Maranode.Common Maranode.Store

variable (X : External) (E : Ed25519) (errs : ApprovalToken.Errors)

/-! ## The manager -/

structure LifecycleManager where
  store : ModelStore
  dataDir : Path
  loaded : List String
  baseline : Bool
  audit : Bool
  requireApprovalToken : Bool
  tokensDir : Option Path

/-- The files of the token directory: read, or why they cannot be. -/
abbrev TokenFiles := Path → Option (Except String Bytes)

/-- What a load meets: the clock, the looks at the database that fail, the engine, and the
    baseline check. -/
structure LoadEnv where
  now : DateTime
  getFails : Nat → Option String
  loadModel : String → Path → Except String Unit
  check : String → Path → Except String Bool

structure LoadOutcome where
  manager : LifecycleManager
  logged : List (String × AuditEvent)
  result : Except String Unit

namespace LifecycleManager

variable (m : LifecycleManager) (tokens : TokenFiles) (env : LoadEnv) (id : ModelId)

/-- The token file of a digest. -/
def tokenPath (sha256 : String) : Path :=
  ApprovalToken.tokenPath (m.tokensDir.getD (Path.join m.dataDir "approval-tokens".toList)) sha256

/-- `ApprovalToken::load`. -/
def loadToken : Except String Bytes → Except String ApprovalToken
  | .error e => .error e
  | .ok bytes =>
      match ApprovalToken.fromSlice X bytes with
      | none => .error (errs.json bytes)
      | some t => .ok t

def blockReason (sha256 : String) : Option String :=
  match tokens (m.tokenPath sha256) with
  | none => some s!"no approval token for sha256 {String.ofList (sha256.toList.take 12)}"
  | some file =>
      match loadToken X errs file with
      | .error e => some s!"approval token invalid: {e}"
      | .ok t =>
          match t.verify X E errs env.now with
          | .error e => some s!"approval token invalid: {e}"
          | .ok _ => none

/-- The digest and the reason of a load that is blocked.  A manifest that cannot be read
    blocks nothing. -/
def blocked : Option (String × String) :=
  if m.requireApprovalToken then
    match m.store.get (env.getFails 1) id with
    | .ok (some manifest) =>
        (m.blockReason X E errs tokens env manifest.sha256).map fun reason =>
          (manifest.sha256, reason)
    | _ => none
  else none

def checkBaseline (path : Path) : Except String Unit :=
  if m.baseline && m.audit then
    match m.store.get (env.getFails 2) id with
    | .ok (some manifest) => (env.check manifest.sha256 path).map fun _ => ()
    | _ => .ok ()
  else .ok ()

/-- `ensure_loaded`. -/
def ensureLoaded : LoadOutcome :=
  if m.loaded.contains id.display then ⟨m, [], .ok ()⟩
  else
    match m.store.blobPathVerified X (env.getFails 0) id with
    | .error e => ⟨m, [], .error e⟩
    | .ok path =>
        match m.blocked X E errs tokens env id with
        | some (sha256, reason) =>
            ⟨m,
              if m.audit then [("lifecycle", .modelLoadBlocked id.display sha256 reason)] else [],
              .error s!"model '{id.display}' load blocked: {reason}"⟩
        | none =>
            match env.loadModel id.display path with
            | .error e => ⟨m, [], .error e⟩
            | .ok _ =>
                match m.checkBaseline env id path with
                | .error e => ⟨m, [], .error e⟩
                | .ok _ => ⟨{ m with loaded := id.display :: m.loaded }, [], .ok ()⟩

/-! ## What a load asks for -/

/-- The file for the digest holds the token. -/
def Holds (sha256 : String) (t : ApprovalToken) : Prop :=
  ∃ bytes, tokens (m.tokenPath sha256) = some (.ok bytes) ∧
    ApprovalToken.fromSlice X bytes = some t

/-- The file for the digest holds a token that the node signed, for the digest, and that
    has not expired. -/
def Approved (nodeKey : ByteArr 32) (now : DateTime) (sha256 : String) : Prop :=
  ∃ t, m.Holds X tokens sha256 t ∧ t.SignedUnder X E (E.verifyingKey nodeKey) ∧
    t.modelSha256 = sha256 ∧ t.Unexpired now

/-- What a load passes besides the token. -/
structure Proceeds (manifest : ModelManifest) : Prop where
  row : m.store.db id = some manifest
  read : env.getFails 0 = none
  digest : isSha256Hex manifest.sha256 = true
  intact : m.store.Intact X (blobFile m.store.dataDir manifest.sha256) manifest.sha256
  engine : env.loadModel id.display (blobFile m.store.dataDir manifest.sha256) = .ok ()
  baseline : m.checkBaseline env id (blobFile m.store.dataDir manifest.sha256) = .ok ()

variable {X E errs m tokens env id} {sha256 : String} {manifest : ModelManifest}

theorem blockReason_eq_none :
    m.blockReason X E errs tokens env sha256 = none ↔
      ∃ t, m.Holds X tokens sha256 t ∧ t.SelfSigned X E env.now := by
  rw [blockReason]
  -- No file at the path: the load is blocked, and no token is there.
  cases hfile : tokens (m.tokenPath sha256) with
  | none =>
      refine ⟨fun h => (by cases h), ?_⟩
      rintro ⟨t, ⟨bytes, hbytes, -⟩, -⟩
      rw [hfile] at hbytes
      cases hbytes
  | some file =>
      dsimp only
      -- The file is there, but it cannot be read or is no token.
      cases file with
      | error e =>
          refine ⟨fun h => (by cases h), ?_⟩
          rintro ⟨t, ⟨bytes, hbytes, -⟩, -⟩
          rw [hfile] at hbytes
          cases hbytes
      | ok bytes =>
          rw [loadToken]
          cases hparse : ApprovalToken.fromSlice X bytes with
          | none =>
              refine ⟨fun h => (by cases h), ?_⟩
              rintro ⟨t, ⟨bytes', hbytes', hparse'⟩, -⟩
              rw [hfile] at hbytes'
              obtain rfl := Except.ok.inj (Option.some.inj hbytes')
              rw [hparse] at hparse'
              cases hparse'
          | some t =>
              dsimp only
              -- The token at the path is the one in the file, so the quantifier is over one token.
              have hself : (∃ t', m.Holds X tokens sha256 t' ∧ t'.SelfSigned X E env.now) ↔
                  t.SelfSigned X E env.now := by
                constructor
                · rintro ⟨t', ⟨bytes', hbytes', hparse'⟩, hself⟩
                  rw [hfile] at hbytes'
                  obtain rfl := Except.ok.inj (Option.some.inj hbytes')
                  rw [hparse] at hparse'
                  rwa [Option.some.inj hparse']
                · exact fun hself => ⟨t, ⟨bytes, hfile, hparse⟩, hself⟩
              rw [hself]
              -- A token that does not verify blocks the load with its error.
              cases hverify : t.verify X E errs env.now with
              | error e =>
                  refine ⟨fun h => (by cases h), fun h => ?_⟩
                  rw [ApprovalToken.verify_eq_ok.mpr h] at hverify
                  cases hverify
              | ok _ => exact ⟨fun _ => ApprovalToken.verify_eq_ok.mp hverify, fun _ => rfl⟩

/-- With tokens required, nothing blocks when the manifest cannot be read again, or the
    token passes its own check. -/
theorem blocked_eq_none (hreq : m.requireApprovalToken = true)
    (hrow : m.store.db id = some manifest) :
    m.blocked X E errs tokens env id = none ↔
      env.getFails 1 ≠ none ∨
        ∃ t, m.Holds X tokens manifest.sha256 t ∧ t.SelfSigned X E env.now := by
  rw [blocked, if_pos hreq]
  cases hfails : env.getFails 1 with
  | some e => exact ⟨fun _ => .inl nofun, fun _ => rfl⟩
  | none =>
      rw [ModelStore.get, hrow]
      dsimp only
      rw [Option.map_eq_none_iff, blockReason_eq_none]
      exact ⟨.inr, fun h => h.resolve_left fun hne => hne rfl⟩

/-- When a model that is not loaded yet is loaded. -/
theorem ensureLoaded_eq_ok (hload : m.loaded.contains id.display = false)
    (hreq : m.requireApprovalToken = true) :
    (m.ensureLoaded X E errs tokens env id).result = .ok () ↔
      ∃ manifest, m.Proceeds X env id manifest ∧
        (env.getFails 1 ≠ none ∨
          ∃ t, m.Holds X tokens manifest.sha256 t ∧ t.SelfSigned X E env.now) := by
  rw [ensureLoaded, hload, if_neg Bool.false_ne_true]
  -- The blob is verified against the row, or the load ends here.
  cases hblob : m.store.blobPathVerified X (env.getFails 0) id with
  | error e =>
      refine ⟨fun h => (by cases h), ?_⟩
      rintro ⟨manifest, hproceeds, -⟩
      have hverified := blobPathVerified_eq_ok.mpr ⟨hproceeds.read, manifest, hproceeds.row,
        hproceeds.digest, hproceeds.intact, rfl⟩
      rw [hblob] at hverified
      cases hverified
  | ok path =>
      obtain ⟨hread, manifest, hrow, hdigest, hintact, hpath⟩ := blobPathVerified_eq_ok.mp hblob
      -- The row determines the manifest that every later step speaks of.
      have hsame : ∀ manifest', m.Proceeds X env id manifest' → manifest' = manifest := by
        intro manifest' h
        have hrow' := h.row
        rw [hrow] at hrow'
        exact (Option.some.inj hrow').symm
      dsimp only
      -- The token decides next, and only when the row could be read a second time.
      cases hblocked : m.blocked X E errs tokens env id with
      | some block =>
          refine ⟨fun h => (by cases h), ?_⟩
          rintro ⟨manifest', hproceeds, htoken⟩
          rw [hsame manifest' hproceeds] at htoken
          rw [(blocked_eq_none hreq hrow).mpr htoken] at hblocked
          cases hblocked
      | none =>
          have htoken := (blocked_eq_none hreq hrow).mp hblocked
          dsimp only
          -- The engine and the baseline come last, on the verified path.
          cases hengine : env.loadModel id.display path with
          | error e =>
              refine ⟨fun h => (by cases h), ?_⟩
              rintro ⟨manifest', hproceeds, -⟩
              have hok := hproceeds.engine
              rw [hsame manifest' hproceeds, ← hpath, hengine] at hok
              cases hok
          | ok _ =>
              dsimp only
              cases hbaseline : m.checkBaseline env id path with
              | error e =>
                  refine ⟨fun h => (by cases h), ?_⟩
                  rintro ⟨manifest', hproceeds, -⟩
                  have hok := hproceeds.baseline
                  rw [hsame manifest' hproceeds, ← hpath, hbaseline] at hok
                  cases hok
              | ok _ =>
                  rw [hpath] at hengine hbaseline
                  exact ⟨fun _ => ⟨manifest, ⟨hrow, hread, hdigest, hintact, hengine, hbaseline⟩,
                    htoken⟩, fun _ => rfl⟩

variable (X E errs m tokens env id) in
/-- A load that succeeds has the model approved by the node. -/
def Gated (nodeKey : ByteArr 32) : Prop :=
  (m.ensureLoaded X E errs tokens env id).result = .ok () →
    ∃ manifest, m.store.db id = some manifest ∧
      m.Approved X E tokens nodeKey env.now manifest.sha256

/-- **Approval.**  A load is gated when it fails for something else, or the manifest can be
    read again and a token that passes its own check is one of this node for this model; or
    the manifest cannot be read again and the model is approved all the same. -/
theorem gated_iff (nodeKey : ByteArr 32) (hload : m.loaded.contains id.display = false)
    (hreq : m.requireApprovalToken = true) :
    m.Gated X E errs tokens env id nodeKey ↔
      ∀ manifest, m.Proceeds X env id manifest →
        (∀ t, m.Holds X tokens manifest.sha256 t → t.SelfSigned X E env.now →
          t.SignedUnder X E (E.verifyingKey nodeKey) ∧ t.modelSha256 = manifest.sha256) ∧
        (env.getFails 1 ≠ none →
          m.Approved X E tokens nodeKey env.now manifest.sha256) := by
  rw [Gated, ensureLoaded_eq_ok hload hreq]
  constructor
  · intro hgated manifest hproceeds
    -- Any token that lets the load through is one that `Approved` accepts.
    have happroved : (env.getFails 1 ≠ none ∨
        ∃ t, m.Holds X tokens manifest.sha256 t ∧ t.SelfSigned X E env.now) →
        m.Approved X E tokens nodeKey env.now manifest.sha256 := by
      intro htoken
      obtain ⟨manifest', hrow', happroved⟩ := hgated ⟨manifest, hproceeds, htoken⟩
      rw [hproceeds.row] at hrow'
      rwa [Option.some.inj hrow']
    refine ⟨fun t hholds hself => ?_, fun hfails => happroved (.inl hfails)⟩
    obtain ⟨t', ⟨bytes', hbytes', hparse'⟩, hsigned, hsha, -⟩ :=
      happroved (.inr ⟨t, hholds, hself⟩)
    -- Both tokens are read from the one file at the model's path.
    obtain ⟨bytes, hbytes, hparse⟩ := hholds
    rw [hbytes] at hbytes'
    rw [← Except.ok.inj (Option.some.inj hbytes'), hparse] at hparse'
    rw [Option.some.inj hparse']
    exact ⟨hsigned, hsha⟩
  · rintro hcond ⟨manifest, hproceeds, htoken⟩
    obtain ⟨hgenuine, hunread⟩ := hcond manifest hproceeds
    refine ⟨manifest, hproceeds.row, ?_⟩
    -- Either the row could not be read again, or a token of the file let the load through.
    rcases htoken with hfails | ⟨t, hholds, hself⟩
    · exact hunread hfails
    · obtain ⟨hsigned, hsha⟩ := hgenuine t hholds hself
      obtain ⟨vk, -, -, -, hunexpired⟩ := hself
      exact ⟨t, hholds, hsigned, hsha, hunexpired⟩

/-! ## One model file and one token file -/

def abcId : ModelId := ⟨"abc", "1"⟩

def abcManifest : ModelManifest := ⟨abcSha256, 3, none, "/data/abc.gguf", none⟩

def abcStore : ModelStore where
  dataDir := "/data".toList
  db id := if id = abcId then some abcManifest else none
  files path := if path = blobFile "/data".toList abcSha256 then some abcBytes else none

def abcManager : LifecycleManager where
  store := abcStore
  dataDir := "/data".toList
  loaded := []
  baseline := false
  audit := true
  requireApprovalToken := true
  tokensDir := none

/-- Nothing fails, at the epoch. -/
def readyEnv : LoadEnv where
  now := 0
  getFails _ := none
  loadModel _ _ := .ok ()
  check _ _ := .ok true

def plainErrors : ApprovalToken.Errors where
  json _ := "expected value at line 1 column 1"
  base64 _ := "Invalid padding"
  publicKey _ := "signature error"
  signature := "signature error"
  time := sampleDateText

/-- A token of the model, to be signed. -/
def abcToken : ApprovalToken where
  tokenId := "token-1"
  modelId := "abc:1"
  modelSha256 := abcSha256
  approvedBy := "officer"
  approvedAt := 0
  expiresAt := none
  note := none
  signerPubkey := ""
  signature := ""

/-- The scheme the tokens are signed in. -/
def tokenScheme : Ed25519 := Ed25519.sample []

/-- The directory with one token in it, under the digest of the model. -/
def tokenFiles (t : ApprovalToken) : TokenFiles := fun path =>
  if path = abcManager.tokenPath abcSha256 then some (.ok (t.toVecPretty .sample)) else none

theorem abcStore_db : abcStore.db abcId = some abcManifest :=
  (if_pos rfl : (if abcId = abcId then some abcManifest else none) = some abcManifest)

theorem abcStore_files : abcStore.files (blobFile abcStore.dataDir abcSha256) = some abcBytes :=
  (if_pos rfl : (if blobFile abcStore.dataDir abcSha256 = blobFile abcStore.dataDir abcSha256
    then some abcBytes else none) = some abcBytes)

theorem proceeds_abc : abcManager.Proceeds .sample readyEnv abcId abcManifest where
  row := abcStore_db
  read := rfl
  digest := isSha256Hex_abcSha256
  intact := ⟨abcBytes, abcStore_files, sha256_abcBytes⟩
  engine := rfl
  baseline := rfl

theorem holds_tokenFiles {t t' : ApprovalToken} :
    abcManager.Holds .sample (tokenFiles t) abcSha256 t' ↔ t' = t := by
  have hfile : tokenFiles t (abcManager.tokenPath abcSha256) =
      some (.ok (t.toVecPretty .sample)) := if_pos rfl
  constructor
  · rintro ⟨bytes, hbytes, hparse⟩
    rw [hfile] at hbytes
    rw [← Except.ok.inj (Option.some.inj hbytes), ApprovalToken.fromSlice_toVecPretty] at hparse
    exact (Option.some.inj hparse).symm
  · rintro rfl
    exact ⟨_, hfile, ApprovalToken.fromSlice_toVecPretty _ _⟩

theorem proceeds_abc_eq (h : abcManager.Proceeds .sample readyEnv abcId manifest) :
    manifest = abcManifest := by
  have hrow := h.row
  rw [proceeds_abc.row] at hrow
  exact (Option.some.inj hrow).symm

/-- With the officer's token the load is gated. -/
theorem gated_iff_officer :
    abcManager.Gated .sample tokenScheme plainErrors
      (tokenFiles (abcToken.sign .sample tokenScheme officerKey)) readyEnv abcId officerKey := by
  refine (gated_iff officerKey rfl rfl).mpr fun manifest hproceeds => ?_
  rw [proceeds_abc_eq hproceeds]
  refine ⟨fun t hholds _ => ?_, fun hfails => absurd rfl hfails⟩
  rw [holds_tokenFiles.mp hholds]
  exact ⟨ApprovalToken.signedUnder_sign abcToken officerKey, rfl⟩

/-- Whoever can write the token file loads the model, with a token under a key of their
    own. -/
theorem forged_token_loads :
    (abcManager.ensureLoaded .sample tokenScheme plainErrors
      (tokenFiles (abcToken.sign .sample tokenScheme otherKey)) readyEnv abcId).result = .ok () ∧
    ¬ abcManager.Approved .sample tokenScheme
      (tokenFiles (abcToken.sign .sample tokenScheme otherKey)) officerKey 0 abcSha256 := by
  constructor
  · refine (ensureLoaded_eq_ok rfl rfl).mpr ⟨abcManifest, proceeds_abc, .inr ⟨_,
      holds_tokenFiles.mpr rfl, ApprovalToken.selfSigned_sign abcToken otherKey ?_⟩⟩
    intro exp hexp
    cases hexp
  · rintro ⟨t, hholds, ⟨sig, hsig, hverify⟩, -, -⟩
    rw [holds_tokenFiles.mp hholds] at hsig hverify
    rw [ApprovalToken.decode_signature_sign] at hsig
    rw [← Subtype.ext (Option.some.inj hsig)] at hverify
    have hrefused := Ed25519.sample_verify_otherKey []
      ((abcToken.sign .sample tokenScheme otherKey).signPayload .sample)
      ((abcToken.sign .sample tokenScheme otherKey).signPayload .sample)
    exact absurd hverify (Bool.eq_false_iff.mp hrefused)

end LifecycleManager

end Maranode.Daemon
