/-
  Maranode.Common.Receipt

  `models.rs` and `receipt.rs`: the model identifier, the inference device and
  the inference receipt, with their serde representations.
-/
import Maranode.Common.External
import Maranode.Lib.Json.Pretty
import Maranode.Lib.Separated

namespace Maranode.Common

open Lib Lib.Json

/-! ## models.rs -/

structure ModelId where
  name : String
  tag : String
  deriving DecidableEq

def ModelId.display (id : ModelId) : String := id.name ++ ":" ++ id.tag

/-- `ModelId::parse`: `split_once(':')`. -/
def ModelId.parse (s : String) : Option ModelId :=
  match s.toList.dropWhile (· != ':') with
  | [] => none
  | _ :: tag => some ⟨String.ofList (s.toList.takeWhile (· != ':')), String.ofList tag⟩

theorem ModelId.colon_mem_display (m : ModelId) : ':' ∈ m.display.toList := by
  simp [display]

/-- What parses is the text of the model it parses to. -/
theorem ModelId.display_of_parse {s : String} {m : ModelId} (h : parse s = some m) :
    m.display = s := by
  rw [parse] at h
  cases hdrop : s.toList.dropWhile (· != ':') with
  | nil =>
      rw [hdrop] at h
      cases h
  | cons c tag =>
      rw [hdrop] at h
      obtain rfl := Option.some.inj h
      have hc : (c != ':') = false :=
        Text.head_dropWhile (p := (· != ':')) (by rw [hdrop]; rfl)
      have hsplit : s.toList.takeWhile (· != ':') ++ s.toList.dropWhile (· != ':') = s.toList :=
        List.takeWhile_append_dropWhile
      rw [hdrop, bne_eq_false_iff_eq.mp hc] at hsplit
      refine String.toList_inj.mp ?_
      simpa [display] using hsplit

/-- A text with a colon is the text of a model. -/
theorem ModelId.exists_display_eq {s : String} (h : ':' ∈ s.toList) :
    ∃ m : ModelId, m.display = s := by
  cases hparse : parse s with
  | some m => exact ⟨m, display_of_parse hparse⟩
  | none =>
      rw [parse] at hparse
      split at hparse
      · next hdrop => cases List.dropWhile_eq_nil_iff.mp hdrop ':' h
      · cases hparse

inductive InferenceDevice where
  | cpu
  | gpu
  | metal
  | npu
  | ryzenAi
  deriving DecidableEq

/-- The serde name of a device. -/
def InferenceDevice.rename : InferenceDevice → String
  | .cpu => "cpu"
  | .gpu => "gpu"
  | .metal => "metal"
  | .npu => "npu"
  | .ryzenAi => "ryzenai"

def InferenceDevice.ofName : String → Option InferenceDevice
  | "cpu" => some .cpu
  | "gpu" => some .gpu
  | "metal" => some .metal
  | "npu" => some .npu
  | "ryzenai" => some .ryzenAi
  | _ => none

inductive ChatRole where
  | system
  | user
  | assistant
  deriving DecidableEq

def ChatRole.rename : ChatRole → String
  | .system => "system"
  | .user => "user"
  | .assistant => "assistant"

def ChatRole.ofName : String → Option ChatRole
  | "system" => some .system
  | "user" => some .user
  | "assistant" => some .assistant
  | _ => none

/-- The derived `Debug` of a role. -/
def ChatRole.debug : ChatRole → String
  | .system => "System"
  | .user => "User"
  | .assistant => "Assistant"

structure ChatMessage where
  role : ChatRole
  content : String
  deriving DecidableEq

variable (X : External)

/-- An enum without payloads: its name, or an object with the name and `null`. -/
def unitEnum {α : Type} (rename : α → String) (ofName : String → Option α)
    (h : ∀ a, ofName (rename a) = some a) : Codec X.readF32 α where
  enc _ a := .str (rename a)
  dec v := (variantOf v).bind fun
    | (name, .null) => ofName name
    | _ => none
  dec_enc _ a := h a
  ne_null _ _ := nofun

def ModelId.codec : Codec X.readF32 ModelId where
  enc S m := .obj (S.members [("name", X.str.enc S m.name), ("tag", X.str.enc S m.tag)])
  dec v := (structMembers ["name", "tag"] 2 v).bind fun fs =>
    ModelId.mk <$> X.str.field "name" fs
      <*> X.str.field "tag" fs
  dec_enc S m := by
    simp [structMembers, Codec.field, S.occ_members]
  ne_null _ _ := nofun

def InferenceDevice.codec : Codec X.readF32 InferenceDevice :=
  unitEnum X InferenceDevice.rename InferenceDevice.ofName (by intro a; cases a <;> rfl)

def ChatRole.codec : Codec X.readF32 ChatRole :=
  unitEnum X ChatRole.rename ChatRole.ofName (by intro a; cases a <;> rfl)

def ChatMessage.codec : Codec X.readF32 ChatMessage where
  enc S m := .obj (S.members [
    ("role", (ChatRole.codec X).enc S m.role),
    ("content", X.str.enc S m.content)])
  dec v := (structMembers ["role", "content"] 2 v).bind fun fs =>
    ChatMessage.mk <$> (ChatRole.codec X).field "role" fs
      <*> X.str.field "content" fs
  dec_enc S m := by
    simp [structMembers, Codec.field, S.occ_members]
  ne_null _ _ := nofun

/-! ## receipt.rs -/

structure SourceRef where
  chunkId : String
  docId : String
  source : String
  docSha256 : String
  chunkHash : String
  score : F32

structure EnvFingerprint where
  kernelBuildId : String := ""
  threadCount : UInt32 := 0
  deviceClass : String := ""
  deriving DecidableEq

structure DecodeParams where
  temperature : Option F32
  topK : Option UInt32
  maxTokens : Option UInt32
  seed : Option UInt64
  deterministic : Bool

structure InferenceReceipt where
  version : UInt32
  receiptId : Uuid
  requestId : String
  timestamp : DateTime
  modelId : String
  modelSha256 : String
  modelQuant : Option String
  inputSha256 : String
  outputSha256 : String
  decodeParams : DecodeParams
  tokensIn : UInt32
  tokensOut : UInt32
  signingKeyId : String
  tpmPcr : Option String
  env : EnvFingerprint
  sources : List SourceRef
  grounded : Bool
  signature : Option String

def SourceRef.codec : Codec X.readF32 SourceRef where
  enc S r := .obj (S.members [
    ("chunk_id", X.str.enc S r.chunkId),
    ("doc_id", X.str.enc S r.docId),
    ("source", X.str.enc S r.source),
    ("doc_sha256", X.str.enc S r.docSha256),
    ("chunk_hash", X.str.enc S r.chunkHash),
    ("score", X.float.enc S r.score)])
  dec v :=
    (structMembers ["chunk_id", "doc_id", "source", "doc_sha256", "chunk_hash", "score"] 6 v).bind
      fun fs =>
        SourceRef.mk <$> X.str.field "chunk_id" fs
          <*> X.str.field "doc_id" fs
          <*> X.str.field "source" fs
          <*> X.str.field "doc_sha256" fs
          <*> X.str.field "chunk_hash" fs
          <*> X.float.field "score" fs
  dec_enc S r := by
    simp [structMembers, Codec.field, S.occ_members]
  ne_null _ _ := nofun

def EnvFingerprint.codec : Codec X.readF32 EnvFingerprint where
  enc S e := .obj (S.members [
    ("kernel_build_id", X.str.enc S e.kernelBuildId),
    ("thread_count", X.u32.enc S e.threadCount),
    ("device_class", X.str.enc S e.deviceClass)])
  dec v :=
    (structMembers ["kernel_build_id", "thread_count", "device_class"] 0 v).bind fun fs =>
      EnvFingerprint.mk <$> X.str.fieldOr "" "kernel_build_id" fs
        <*> X.u32.fieldOr 0 "thread_count" fs
        <*> X.str.fieldOr "" "device_class" fs
  dec_enc S e := by
    simp [structMembers, Codec.fieldOr, S.occ_members]
  ne_null _ _ := nofun

def DecodeParams.codec : Codec X.readF32 DecodeParams where
  enc S p := .obj (S.members [
    ("temperature", X.float.encOpt S p.temperature),
    ("top_k", X.u32.encOpt S p.topK),
    ("max_tokens", X.u32.encOpt S p.maxTokens),
    ("seed", X.u64.encOpt S p.seed),
    ("deterministic", X.bool.enc S p.deterministic)])
  dec v :=
    (structMembers ["temperature", "top_k", "max_tokens", "seed", "deterministic"] 5 v).bind
      fun fs =>
        DecodeParams.mk <$> X.float.fieldOpt "temperature" fs
          <*> X.u32.fieldOpt "top_k" fs
          <*> X.u32.fieldOpt "max_tokens" fs
          <*> X.u64.fieldOpt "seed" fs
          <*> X.bool.field "deterministic" fs
  dec_enc S p := by
    simp [structMembers, Codec.field, Codec.fieldOpt, S.occ_members]
  ne_null _ _ := nofun

namespace InferenceReceipt

/-- The fields of a receipt in declaration order. -/
def names : List String :=
  ["version", "receipt_id", "request_id", "timestamp", "model_id", "model_sha256", "model_quant",
    "input_sha256", "output_sha256", "decode_params", "tokens_in", "tokens_out",
    "signing_key_id", "tpm_pcr", "env", "sources", "grounded", "signature"]

def members (S : Serializer X.readF32) (r : InferenceReceipt) : List (String × Value) :=
  [("version", X.u32.enc S r.version),
    ("receipt_id", X.uuid.enc S r.receiptId),
    ("request_id", X.str.enc S r.requestId),
    ("timestamp", X.dateTime.enc S r.timestamp),
    ("model_id", X.str.enc S r.modelId),
    ("model_sha256", X.str.enc S r.modelSha256)] ++
  optMember "model_quant" (r.modelQuant.map (X.str.enc S)) ++
  [("input_sha256", X.str.enc S r.inputSha256),
    ("output_sha256", X.str.enc S r.outputSha256),
    ("decode_params", (DecodeParams.codec X).enc S r.decodeParams),
    ("tokens_in", X.u32.enc S r.tokensIn),
    ("tokens_out", X.u32.enc S r.tokensOut),
    ("signing_key_id", X.str.enc S r.signingKeyId)] ++
  optMember "tpm_pcr" (r.tpmPcr.map (X.str.enc S)) ++
  [("env", (EnvFingerprint.codec X).enc S r.env)] ++
  optMember "sources"
    (if r.sources.isEmpty then none else some ((Codec.list (SourceRef.codec X)).enc S r.sources)) ++
  [("grounded", X.bool.enc S r.grounded)] ++
  optMember "signature" (r.signature.map (X.str.enc S))

theorem optMember_fst_sublist (name : String) (o : Option Value) :
    ((optMember name o).map Prod.fst).Sublist [name] := by
  cases o <;> simp [optMember]

theorem nodup_members (S : Serializer X.readF32) (r : InferenceReceipt) :
    ((members X S r).map Prod.fst).Nodup := by
  refine List.Nodup.sublist ?_ (show names.Nodup by decide)
  simp only [members, List.map_append]
  exact ((((((List.Sublist.refl _).append (optMember_fst_sublist ..)).append
    (List.Sublist.refl _)).append (optMember_fst_sublist ..)).append
    (List.Sublist.refl _)).append (optMember_fst_sublist ..)).append
    (List.Sublist.refl _) |>.append (optMember_fst_sublist ..)

/-- A list that is left out when empty and empty when left out. -/
theorem oneOr_nil_toList (S : Serializer X.readF32) (rs : List SourceRef) :
    (Codec.list (SourceRef.codec X)).oneOr []
        (if rs.isEmpty then none
          else some ((Codec.list (SourceRef.codec X)).enc S rs)).toList = some rs := by
  cases rs with
  | nil => rfl
  | cons r rs => exact (Codec.list (SourceRef.codec X)).dec_enc S (r :: rs)

def codec : Codec X.readF32 InferenceReceipt where
  enc S r := .obj (S.members (members X S r))
  dec v := (structMembers names 18 v).bind fun fs =>
    InferenceReceipt.mk <$> X.u32.field "version" fs
      <*> X.uuid.field "receipt_id" fs
      <*> X.str.field "request_id" fs
      <*> X.dateTime.field "timestamp" fs
      <*> X.str.field "model_id" fs
      <*> X.str.field "model_sha256" fs
      <*> X.str.fieldOpt "model_quant" fs
      <*> X.str.field "input_sha256" fs
      <*> X.str.field "output_sha256" fs
      <*> (DecodeParams.codec X).field "decode_params" fs
      <*> X.u32.field "tokens_in" fs
      <*> X.u32.field "tokens_out" fs
      <*> X.str.field "signing_key_id" fs
      <*> X.str.fieldOpt "tpm_pcr" fs
      <*> (EnvFingerprint.codec X).fieldOr {} "env" fs
      <*> (Codec.list (SourceRef.codec X)).fieldOr [] "sources" fs
      <*> X.bool.fieldOr false "grounded" fs
      <*> X.str.fieldOpt "signature" fs
  dec_enc S r := by
    simp only [structMembers, Option.bind_some, Codec.field, Codec.fieldOpt, Codec.fieldOr,
      S.occ_members _ _ (nodup_members X S r)]
    simp [members, oneOr_nil_toList, -List.isEmpty_iff]
  ne_null _ _ := nofun

/-- The bytes that are signed: the JSON without the signature. -/
def canonicalBytes (r : InferenceReceipt) : Bytes :=
  Text.encode (render ((codec X).enc X.text { r with signature := none }))

def hashMessages (messages : List ChatMessage) : String :=
  X.sha256 (messages.flatMap fun m => Text.encode (render ((ChatMessage.codec X).enc X.text m)))

def hashOutput (text : String) : String := X.sha256 (Text.encode text.toList)

/-- `serde_json::from_str`. -/
def fromStr (json : Text) : Option InferenceReceipt := (parse json).bind (codec X).dec

/-- What a serializer wrote, in one line or in several, is read back. -/
theorem fromStr_render (S : Serializer X.readF32) (r : InferenceReceipt) :
    fromStr X (render ((codec X).enc S r)) = some r := by
  rw [fromStr, parse_render, Option.bind_some, (codec X).dec_enc]

theorem fromStr_pretty (S : Serializer X.readF32) (r : InferenceReceipt) :
    fromStr X (pretty 0 ((codec X).enc S r)) = some r := by
  rw [fromStr, parse_pretty, Option.bind_some, (codec X).dec_enc]

/-- The signed bytes are those of one receipt, but for the signature. -/
theorem canonicalBytes_eq_iff {r r' : InferenceReceipt} :
    r.canonicalBytes X = r'.canonicalBytes X ↔
      { r with signature := none } = { r' with signature := none } := by
  constructor
  · intro h
    have hvalue := render_injective (Text.encode_injective h)
    exact (codec X).enc_injective X.text hvalue
  · intro h
    rw [canonicalBytes, canonicalBytes, h]

end InferenceReceipt

def receiptVersion : UInt32 := 1

end Maranode.Common
