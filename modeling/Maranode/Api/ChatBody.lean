/-
  Maranode.Api.ChatBody

  `POST /v1/chat/completions` up to the handler: the workspace the headers name, the
  limit on the body, and the request the body is read as.
-/
import Maranode.Api.ChatHandler

namespace Maranode.Api

open Lib Lib.Json Common Inference

variable (X : External)

/-! ## The request -/

/-- `default_temperature`: 0.7. -/
def defaultTemperature : F32 := ⟨0x3F333333, by decide⟩

def defaultMaxTokens : UInt32 := 2048

def OaiMessage.codec : Codec X.readF32 OaiMessage where
  enc S m := .obj (S.members [("role", X.str.enc S m.role), ("content", X.str.enc S m.content)])
  dec v := (structMembers ["role", "content"] 2 v).bind fun fs =>
    OaiMessage.mk <$> X.str.field "role" fs
      <*> X.str.field "content" fs
  dec_enc S m := by
    simp [structMembers, Codec.field, S.occ_members]
  ne_null _ _ := nofun

def ChatRagOptions.ofValue (v : Value) : Option ChatRagOptions :=
  (structMembers ["collection", "top_k", "require_context"] 2 v).bind fun fs =>
    ChatRagOptions.mk <$> X.str.fieldOpt "collection" fs
      <*> (X.u64.fieldOpt "top_k" fs).map (·.map UInt64.toNat)
      <*> X.bool.fieldOr false "require_context" fs

/-- The member `rag`. -/
def readRag : List Value → Option (Option ChatRagOptions)
  | [] => some none
  | [.null] => some none
  | [v] => (ChatRagOptions.ofValue X v).map some
  | _ => none

def ChatCompletionRequest.names : List String :=
  ["model", "messages", "temperature", "max_tokens", "stream", "stop", "rag", "with_receipt",
    "deterministic", "seed"]

def ChatCompletionRequest.ofValue (v : Value) : Option ChatCompletionRequest :=
  (structMembers names 10 v).bind fun fs =>
    ChatCompletionRequest.mk <$> X.str.field "model" fs
      <*> (Codec.list (OaiMessage.codec X)).field "messages" fs
      <*> X.float.fieldOr defaultTemperature "temperature" fs
      <*> X.u32.fieldOr defaultMaxTokens "max_tokens" fs
      <*> X.bool.fieldOr false "stream" fs
      <*> (Codec.list X.str).fieldOpt "stop" fs
      <*> readRag X (occ "rag" fs)
      <*> X.bool.fieldOr false "with_receipt" fs
      <*> X.bool.fieldOr false "deterministic" fs
      <*> X.u64.fieldOpt "seed" fs

/-! ## The extractors -/

/-- What `WorkspaceCtx` looks at: the admin key, and `get_by_slug`, which may fail. -/
structure ChatDoor where
  adminKey : Option String
  getBySlug : String → Except String (Option Store.Workspace)

/-- `WorkspaceCtx`. -/
def ChatDoor.workspaceCtx (door : ChatDoor) (workspace authorization : Option String) :
    ApiResult Store.Workspace :=
  let slug := workspace.getD "default"
  let bearer := String.ofList ((stripBearer authorization).getD [])
  match door.getBySlug slug with
  | .error _ => .error (.unauthorized "workspace lookup failed")
  | .ok none => .error (.unauthorized s!"workspace '{slug}' not found")
  | .ok (some ws) =>
      if door.adminKey.any fun k => !k.isEmpty && bearer == k then .ok ws
      else
        match ws.apiKeyHash with
        | none => .ok ws
        | some expected =>
            if X.sha256 (Text.encode bearer.toList) == expected then .ok ws
            else .error (.unauthorized "invalid workspace key")

def MAX_BODY_BYTES : Nat := 32 * 1024 * 1024

/-- An extractor turns the request away with a status, or the handler runs. -/
inductive ChatServed where
  | rejected (status : Nat)
  | ran (outcome : ChatOutcome)

def ChatServed.handed : ChatServed → Option InferenceRequest
  | .rejected _ => none
  | .ran outcome => outcome.handed

variable (E : Ed25519) (C : TeeCipher) (door : ChatDoor) (cfg : ChatConfig) (moment : ChatMoment)
  (call : ChatCall)

/-- `chat_completions`. -/
def chatCompletions (workspace authorization : Option String) (body : Text) : ChatServed :=
  match door.workspaceCtx X workspace authorization with
  | .error e => .rejected e.status
  | .ok ws =>
      if MAX_BODY_BYTES < (Text.encode body).length then .rejected 413
      else
        match parse body with
        | none => .rejected 400
        | some v =>
            match ChatCompletionRequest.ofValue X v with
            | none => .rejected 422
            | some req => .ran (runChat cfg moment ws req X E C call)

variable {X E C door cfg moment call}

/-- A body that is read gets to the handler exactly when the workspace is there for it and
    it is not too long. -/
theorem chatCompletions_handed {workspace authorization : Option String} {v : Value}
    {req : ChatCompletionRequest} (hv : ChatCompletionRequest.ofValue X v = some req)
    {r : InferenceRequest} :
    (chatCompletions X E C door cfg moment call workspace authorization (render v)).handed
        = some r ↔
      ∃ ws, door.workspaceCtx X workspace authorization = .ok ws ∧
        (Text.encode (render v)).length ≤ MAX_BODY_BYTES ∧
        (runChat cfg moment ws req X E C call).handed = some r := by
  rw [chatCompletions]
  cases hws : door.workspaceCtx X workspace authorization with
  | error e =>
      refine iff_of_false (fun h => (by cases h)) ?_
      rintro ⟨ws, h, -⟩
      cases h
  | ok ws =>
      dsimp only
      by_cases hlong : MAX_BODY_BYTES < (Text.encode (render v)).length
      · rw [if_pos hlong]
        refine iff_of_false (fun h => (by cases h)) ?_
        rintro ⟨ws', -, hfits, -⟩
        exact Nat.not_le_of_lt hlong hfits
      · rw [if_neg hlong, parse_render]
        dsimp only
        rw [hv]
        constructor
        · exact fun h => ⟨ws, rfl, Nat.le_of_not_lt hlong, h⟩
        · rintro ⟨ws', hws', -, h⟩
          rw [Except.ok.inj hws']
          exact h

/-- Without headers the workspace is the default one, when it has no key. -/
theorem ChatDoor.workspaceCtx_default {ws : Store.Workspace} :
    door.workspaceCtx X none none = .ok ws ↔
      door.getBySlug "default" = .ok (some ws) ∧
        ∀ expected, ws.apiKeyHash = some expected → X.sha256 [] = expected := by
  have hbearer : String.ofList ((stripBearer none).getD []) = "" := rfl
  -- An empty bearer is no admin key: an empty key does not count.
  have hadmin : (door.adminKey.any fun k => !k.isEmpty && "" == k) = false := by
    cases door.adminKey with
    | none => rfl
    | some k =>
        rw [Option.any_some]
        by_cases hk : k = ""
        · rw [hk]
          rfl
        · rw [beq_false_of_ne (Ne.symm hk), Bool.and_false]
  have hempty : Text.encode "".toList = [] := rfl
  -- Without headers the workspace is the default one, and the bearer is empty.
  rw [ChatDoor.workspaceCtx, Option.getD_none, hbearer, hempty, hadmin]
  cases door.getBySlug "default" with
  | error e =>
      refine iff_of_false (fun h => (by cases h)) ?_
      rintro ⟨h, -⟩
      cases h
  | ok found =>
      cases found with
      | none =>
          refine iff_of_false (fun h => (by cases h)) ?_
          rintro ⟨h, -⟩
          cases h
      | some ws' =>
          dsimp only
          rw [if_neg Bool.false_ne_true]
          -- A workspace with a key takes the empty bearer only when that is its hash.
          cases hkey : ws'.apiKeyHash with
          | none =>
              dsimp only
              constructor
              · intro h
                rw [← Except.ok.inj h]
                exact ⟨rfl, fun expected hexpected => by rw [hkey] at hexpected; cases hexpected⟩
              · rintro ⟨h, -⟩
                rw [Option.some.inj (Except.ok.inj h)]
          | some expected =>
              dsimp only
              by_cases hhash : X.sha256 [] = expected
              · rw [if_pos (beq_iff_eq.mpr hhash)]
                constructor
                · intro h
                  rw [← Except.ok.inj h]
                  refine ⟨rfl, fun expected' hexpected => ?_⟩
                  rw [hkey] at hexpected
                  exact hhash.trans (Option.some.inj hexpected)
                · rintro ⟨h, -⟩
                  rw [Option.some.inj (Except.ok.inj h)]
              · rw [if_neg (mt beq_iff_eq.mp hhash)]
                refine iff_of_false (fun h => (by cases h)) ?_
                rintro ⟨h, hall⟩
                rw [← Option.some.inj (Except.ok.inj h)] at hall
                exact hhash (hall expected hkey)

end Maranode.Api
