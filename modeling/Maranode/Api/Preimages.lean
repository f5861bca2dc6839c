/-
  Maranode.Api.Preimages

  The bytes behind the two hashes of a conversation: `input_sha256` of the receipt, and
  `prompt_sha256` of the audit log.

  The receipt hashes the messages as JSON objects, which can be told apart without
  separators.  The audit log hashes role names and contents as they are, so a content may
  hold what looks like the next message.
-/
import Maranode.Api.Chat
import Maranode.Lib.Code
import Maranode.Lib.Json.Pretty

namespace Maranode.Api

open Lib Lib.Json Maranode.Common

variable (X : External)

/-! ## The receipt -/

/-- `serde_json::to_vec` of a message. -/
def messageBytes (m : ChatMessage) : Bytes := toVec ((ChatMessage.codec X).enc X.text m)

/-- What `hash_messages` feeds to the hasher. -/
def hashedMessages (messages : List ChatMessage) : Bytes := messages.flatMap (messageBytes X)

theorem hashMessages_eq (messages : List ChatMessage) :
    InferenceReceipt.hashMessages X messages = X.sha256 (hashedMessages X messages) := rfl

/-- An object is no proper beginning of another. -/
theorem toVec_obj_eq_of_start {fs gs : List (String × Value)}
    (h : toVec (.obj fs) <+: toVec (.obj gs)) : Value.obj fs = .obj gs := by
  have hfs := ofSlice_toVec (.obj fs)
  rcases Nat.lt_or_eq_of_le h.length_le with hlt | hlen
  · have hcut : ofSlice ((toVec (.obj gs)).take _) = none := ofSlice_take_toVec hlt
    rw [← List.prefix_iff_eq_take.mp h, hfs] at hcut
    cases hcut
  · rw [h.eq_of_length hlen, ofSlice_toVec] at hfs
    exact (Option.some.inj hfs).symm

theorem isPrefixCode_messageBytes : IsPrefixCode (messageBytes X) where
  eq_of_prefix a b h := (ChatMessage.codec X).enc_injective X.text (toVec_obj_eq_of_start h)
  ne_nil a h := by
    have hparse := ofSlice_toVec ((ChatMessage.codec X).enc X.text a)
    rw [show toVec ((ChatMessage.codec X).enc X.text a) = [] from h] at hparse
    cases hparse

/-- **The receipt's hash.**  `input_sha256` is the hash of bytes that no other conversation
    has. -/
theorem hashedMessages_injective :
    (∀ messages, InferenceReceipt.hashMessages X messages = X.sha256 (hashedMessages X messages)) ∧
      Function.Injective (hashedMessages X) :=
  ⟨hashMessages_eq X, (isPrefixCode_messageBytes X).flatMap_injective⟩

/-! ## The audit log -/

/-- What the chat handler feeds to the hasher for `prompt_sha256`. -/
def hashedPrompt (messages : List ChatMessage) : Bytes :=
  messages.flatMap fun msg =>
    Text.encode msg.role.debug.toList ++ Text.encode msg.content.toList

theorem promptSha256_eq (messages : List ChatMessage) :
    promptSha256 X messages = X.sha256 (hashedPrompt messages) := rfl

/-- The same as a text. -/
def promptText (messages : List ChatMessage) : Text :=
  messages.flatMap fun msg => msg.role.debug.toList ++ msg.content.toList

theorem promptText_cons (m : ChatMessage) (ms : List ChatMessage) :
    promptText (m :: ms) = m.role.debug.toList ++ (m.content.toList ++ promptText ms) := by
  rw [promptText, List.flatMap_cons, List.append_assoc]
  rfl

theorem hashedPrompt_eq (messages : List ChatMessage) :
    hashedPrompt messages = Text.encode (promptText messages) := by
  induction messages with
  | nil => rfl
  | cons m ms ih =>
      have hcons : hashedPrompt (m :: ms) =
          Text.encode m.role.debug.toList ++ Text.encode m.content.toList ++ hashedPrompt ms :=
        List.flatMap_cons
      rw [hcons, ih, promptText_cons, Text.encode_append, Text.encode_append, List.append_assoc]

theorem hashedPrompt_eq_iff {ms ms' : List ChatMessage} :
    hashedPrompt ms = hashedPrompt ms' ↔ promptText ms = promptText ms' := by
  rw [hashedPrompt_eq, hashedPrompt_eq]
  exact ⟨Text.encode_injective, congrArg Text.encode⟩

theorem debug_ne_nil (r : ChatRole) : r.debug.toList ≠ [] := by
  cases r <;> decide

/-- The names of the roles begin with different letters. -/
theorem debug_append_inj {r r' : ChatRole} {cs ds : Text}
    (h : r.debug.toList ++ cs = r'.debug.toList ++ ds) : r = r' ∧ cs = ds := by
  have hhead : r.debug.toList.head? = r'.debug.toList.head? := by
    have hboth := congrArg List.head? h
    rwa [List.head?_append_of_ne_nil _ (debug_ne_nil r),
      List.head?_append_of_ne_nil _ (debug_ne_nil r')] at hboth
  have hrole : r = r' := by
    cases r <;> cases r' <;> first | rfl | exact absurd hhead (by decide)
  subst hrole
  exact ⟨rfl, List.append_cancel_left h⟩

/-- Nothing in the content looks like the beginning of a message. -/
def IsPlain (m : ChatMessage) : Prop := ∀ r : ChatRole, ¬ r.debug.toList <:+: m.content.toList

/-- At most one message, and nothing in it looks like another. -/
def Alone (messages : List ChatMessage) : Prop :=
  messages.length ≤ 1 ∧ ∀ m ∈ messages, IsPlain m

/-- What follows a content may as well be part of it. -/
theorem promptText_merged (m m' : ChatMessage) (ms : List ChatMessage) :
    promptText (⟨m.role, String.ofList (m.content.toList ++ m'.role.debug.toList ++
      m'.content.toList)⟩ :: ms) = promptText (m :: m' :: ms) := by
  rw [promptText_cons, promptText_cons, promptText_cons, String.toList_ofList]
  simp only [List.append_assoc]

/-- A message with nothing like another in it has its text alone. -/
theorem eq_of_promptText_singleton {m : ChatMessage} {ms : List ChatMessage} (hm : IsPlain m)
    (h : promptText ms = promptText [m]) : ms = [m] := by
  cases ms with
  | nil =>
      rw [promptText_cons] at h
      exact absurd (List.append_eq_nil_iff.mp h.symm).1 (debug_ne_nil m.role)
  | cons m' ms =>
      rw [promptText_cons, promptText_cons] at h
      obtain ⟨hrole, hcontent⟩ := debug_append_inj h
      have hnil : promptText [] = [] := rfl
      rw [hnil, List.append_nil] at hcontent
      cases ms with
      | nil =>
          rw [hnil, List.append_nil] at hcontent
          have heq : m' = m := by
            cases m
            cases m'
            exact congrArg₂ ChatMessage.mk hrole (String.toList_injective hcontent)
          rw [heq]
      | cons m'' ms =>
          rw [promptText_cons] at hcontent
          refine absurd ⟨m'.content.toList, m''.content.toList ++ promptText ms, ?_⟩ (hm m''.role)
          rw [List.append_assoc]
          exact hcontent

/-- **The hash of the audit log.**  `prompt_sha256` is the hash of bytes that no other
    conversation has exactly when the conversation is at most one message in which nothing
    looks like another. -/
theorem hashedPrompt_identifies_iff (messages : List ChatMessage) :
    (promptSha256 X messages = X.sha256 (hashedPrompt messages) ∧
      ∀ messages', hashedPrompt messages' = hashedPrompt messages → messages' = messages) ↔
      Alone messages := by
  rw [and_iff_right (promptSha256_eq X messages)]
  simp only [hashedPrompt_eq_iff]
  constructor
  · intro hone
    rcases messages with _ | ⟨m, _ | ⟨m', ms⟩⟩
    · exact ⟨Nat.zero_le 1, fun m hm => absurd hm List.not_mem_nil⟩
    · refine ⟨Nat.le_refl 1, List.forall_mem_singleton.mpr fun r hinfix => ?_⟩
      obtain ⟨before, after, hsplit⟩ := hinfix
      have htwo := promptText_merged ⟨m.role, String.ofList before⟩ ⟨r, String.ofList after⟩ []
      rw [String.toList_ofList, String.toList_ofList, hsplit, String.ofList_toList] at htwo
      have hlength := congrArg List.length (hone _ htwo.symm)
      cases hlength
    · have hlength := congrArg List.length (hone _ (promptText_merged m m' ms))
      rw [List.length_cons, List.length_cons, List.length_cons] at hlength
      omega
  · rintro ⟨hlength, hplain⟩ messages' heq
    rcases messages with _ | ⟨m, _ | ⟨m', ms⟩⟩
    · cases messages' with
      | nil => rfl
      | cons m' ms' =>
          rw [promptText_cons] at heq
          exact absurd (List.append_eq_nil_iff.mp heq).1 (debug_ne_nil m'.role)
    · exact eq_of_promptText_singleton (hplain m (List.mem_singleton_self m)) heq
    · rw [List.length_cons, List.length_cons] at hlength
      omega

/-- Two messages, and one that holds the second. -/
theorem not_hashedPrompt_injective : ¬ Function.Injective hashedPrompt := by
  intro h
  have hsame : hashedPrompt [⟨.user, "a"⟩, ⟨.user, "b"⟩] = hashedPrompt [⟨.user, "aUserb"⟩] := by
    decide
  have hlength := congrArg List.length (h hsame)
  cases hlength

end Maranode.Api
