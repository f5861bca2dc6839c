/-
  Maranode.Api.Truncation

  What the chat handler cuts off a prompt that is too long.

  Only a system message that leads is cut, to the room the other messages leave, and a
  marker is appended.  The room is measured in bytes and what is kept in characters, so the
  prompt fits up to the marker when what is kept has one byte a character.
-/
import Maranode.Api.Chat
import Maranode.Store.Blob

namespace Maranode.Api

open Lib Maranode.Common Maranode.Inference

def truncationMarker : String := "\n\n[context truncated]"

/-- The room for the first message, in front of the others. -/
def truncationBudget (maxChars : Nat) (rest : List ChatMessage) : Nat :=
  max (maxChars - contentLength rest) 200

/-- What becomes of the first message. -/
def cutHead (maxChars : Nat) (rest : List ChatMessage) (sys : ChatMessage) : ChatMessage :=
  if contentLength (sys :: rest) > maxChars ∧ sys.role = .system ∧
      sys.content.utf8ByteSize > max (maxChars - contentLength rest) 200 then
    { sys with content :=
        String.ofList (sys.content.toList.take (max (maxChars - contentLength rest) 200)) ++
          "\n\n[context truncated]" }
  else sys

theorem truncateMessages_cons (maxChars : Nat) (sys : ChatMessage) (rest : List ChatMessage) :
    truncateMessages maxChars (sys :: rest) = cutHead maxChars rest sys :: rest := by
  rw [truncateMessages, cutHead]
  by_cases hlong : contentLength (sys :: rest) > maxChars
  · rw [if_pos hlong]
    dsimp only
    by_cases hcut : sys.role = .system ∧
        sys.content.utf8ByteSize > max (maxChars - contentLength rest) 200
    · rw [if_pos hcut, if_pos ⟨hlong, hcut⟩]
    · rw [if_neg hcut, if_neg fun h => hcut h.2]
  · rw [if_neg hlong, if_neg fun h => hlong h.1]

theorem length_truncateMessages (maxChars : Nat) (messages : List ChatMessage) :
    (truncateMessages maxChars messages).length = messages.length := by
  cases messages with
  | nil => rfl
  | cons sys rest => rw [truncateMessages_cons, List.length_cons, List.length_cons]

/-- What is kept of a content, and the marker. -/
def truncated (budget : Nat) (content : String) : String :=
  String.ofList (content.toList.take budget) ++ truncationMarker

theorem contentLength_cons (m : ChatMessage) (messages : List ChatMessage) :
    contentLength (m :: messages) = m.content.utf8ByteSize + contentLength messages := by
  rw [contentLength, List.map_cons, List.sum_cons]
  rfl

/-- A message is cut, or stays as it is and fits. -/
theorem cutHead_cases (maxChars : Nat) (rest : List ChatMessage) {sys : ChatMessage}
    (hrole : sys.role = .system) :
    (cutHead maxChars rest sys
        = ⟨.system, truncated (truncationBudget maxChars rest) sys.content⟩ ∧
      truncationBudget maxChars rest < sys.content.utf8ByteSize) ∨
    (cutHead maxChars rest sys = sys ∧
      contentLength (sys :: rest) ≤ max maxChars (contentLength rest + 200)) := by
  rw [cutHead]
  by_cases hcut : contentLength (sys :: rest) > maxChars ∧ sys.role = .system ∧
      sys.content.utf8ByteSize > max (maxChars - contentLength rest) 200
  · left
    rw [if_pos hcut]
    refine ⟨?_, hcut.2.2⟩
    rw [← hrole]
    rfl
  · right
    rw [if_neg hcut]
    refine ⟨rfl, ?_⟩
    rw [contentLength_cons] at hcut ⊢
    by_cases hlong : sys.content.utf8ByteSize + contentLength rest > maxChars
    · have hfits : ¬ sys.content.utf8ByteSize > max (maxChars - contentLength rest) 200 :=
        fun h => hcut ⟨hlong, hrole, h⟩
      omega
    · omega

theorem cutHead_of_ne {maxChars : Nat} {rest : List ChatMessage} {sys : ChatMessage}
    (hrole : sys.role ≠ .system) : cutHead maxChars rest sys = sys := by
  rw [cutHead, if_neg fun h => hrole h.2.1]

/-! ## Lengths -/

/-- One byte each. -/
def SingleByte (cs : List Char) : Prop := ∀ c ∈ cs, c.utf8Size = 1

theorem length_encode_of_singleByte {cs : List Char} (h : SingleByte cs) :
    (Text.encode cs).length = cs.length := by
  induction cs with
  | nil => rfl
  | cons c cs ih =>
      obtain ⟨hc, hcs⟩ := List.forall_mem_cons.mp h
      rw [Text.encode_cons, List.length_append, String.length_utf8EncodeChar, hc, ih hcs,
        List.length_cons, Nat.add_comm]

theorem utf8ByteSize_truncated (budget : Nat) (content : String) :
    (truncated budget content).utf8ByteSize
      = (Text.encode (content.toList.take budget)).length + truncationMarker.utf8ByteSize := by
  rw [truncated, String.utf8ByteSize_append, Store.utf8ByteSize_eq (String.ofList _),
    String.toList_ofList]

/-- What is cut is longer by the marker at most. -/
theorem utf8ByteSize_truncated_le (budget : Nat) (content : String) :
    (truncated budget content).utf8ByteSize
      ≤ content.utf8ByteSize + truncationMarker.utf8ByteSize := by
  have hkept : (Text.encode (content.toList.take budget)).length ≤ content.utf8ByteSize := by
    have hwhole : Text.encode content.toList = Text.encode (content.toList.take budget)
        ++ Text.encode (content.toList.drop budget) := by
      rw [Text.encode, Text.encode, Text.encode, ← List.flatMap_append, List.take_append_drop]
    rw [Store.utf8ByteSize_eq, hwhole, List.length_append]
    exact Nat.le_add_right _ _
  rw [utf8ByteSize_truncated]
  exact Nat.add_le_add_right hkept _

theorem utf8ByteSize_truncated_of_singleByte {budget : Nat} {content : String}
    (h : SingleByte (content.toList.take budget)) :
    (truncated budget content).utf8ByteSize ≤ budget + truncationMarker.utf8ByteSize := by
  rw [utf8ByteSize_truncated, length_encode_of_singleByte h, List.length_take]
  omega

/-! ## Truncated prompts -/

/-- The bound on a truncated prompt: the room there is, or the others' with 200, and the
    marker. -/
def truncationBound (maxChars : Nat) (rest : List ChatMessage) : Nat :=
  max maxChars (contentLength rest + 200) + truncationMarker.utf8ByteSize

/-- The prompt fits, nothing but a system message that leads has changed, and that one has
    become a prefix of it with the marker, and is not longer than before. -/
def TruncatesWell (contextLength : Option UInt32) : List ChatMessage → Prop
  | [] => True
  | first :: rest =>
      let maxChars := maxPromptChars contextLength
      contentLength (truncateMessages maxChars (first :: rest)) ≤ truncationBound maxChars rest ∧
      ∃ first', truncateMessages maxChars (first :: rest) = first' :: rest ∧
        (first' = first ∨ first.role = .system ∧ ∃ kept, kept <+: first.content.toList ∧
          first' = ⟨.system, String.ofList kept ++ truncationMarker⟩ ∧
          first'.content.utf8ByteSize ≤ first.content.utf8ByteSize)

/-- A prompt that no system message leads stays as it is.  Of another one, the first message
    is cut to some of its characters, or stays; it gets longer by the marker at most, and the
    prompt fits when each of these characters is one byte. -/
theorem truncateMessages_spec (contextLength : Option UInt32) (messages : List ChatMessage) :
    let maxChars := maxPromptChars contextLength
    (messages.head?.map (·.role) ≠ some .system →
      truncateMessages maxChars messages = messages) ∧
    ∀ first rest, messages = first :: rest → first.role = .system → ∃ content,
      truncateMessages maxChars messages = ⟨.system, content⟩ :: rest ∧
      (content = first.content ∨
        content = truncated (truncationBudget maxChars rest) first.content) ∧
      content.utf8ByteSize ≤ first.content.utf8ByteSize + truncationMarker.utf8ByteSize ∧
      (SingleByte (first.content.toList.take (truncationBudget maxChars rest)) →
        contentLength (truncateMessages maxChars messages) ≤ truncationBound maxChars rest) := by
  intro maxChars
  constructor
  -- Only a system message at the front is ever cut.
  · intro hrole
    cases messages with
    | nil => rfl
    | cons first rest =>
        have hfirst : first.role ≠ .system := fun h => hrole (congrArg some h)
        rw [truncateMessages_cons, cutHead_of_ne hfirst]
  · rintro first rest rfl hrole
    rw [truncateMessages_cons]
    -- Cut to the budget, or short enough as it is.
    rcases cutHead_cases maxChars rest hrole with
      ⟨hcut, -⟩ | ⟨hcut, hfits⟩
    · refine ⟨truncated (truncationBudget maxChars rest) first.content, by rw [hcut], .inr rfl,
        utf8ByteSize_truncated_le _ first.content, fun hsingle => ?_⟩
      -- In a text of single bytes, characters and bytes count the same.
      have hlen := utf8ByteSize_truncated_of_singleByte hsingle
      rw [hcut, contentLength_cons, truncationBound]
      dsimp only [truncationBudget] at hlen ⊢
      omega
    · refine ⟨first.content, ?_, .inl rfl, Nat.le_add_right _ _, fun _ => ?_⟩
      · rw [hcut, ← hrole]
      · rw [hcut, truncationBound]
        exact Nat.le_add_right_of_le hfits

/-- A prompt of one message that is not the system's is not cut. -/
theorem not_truncatesWell_of_user {text : String} (h : 221 < text.utf8ByteSize) :
    ¬ TruncatesWell (some 512) [⟨.user, text⟩] := by
  rintro ⟨hfits, -⟩
  have hrole : (⟨.user, text⟩ : ChatMessage).role ≠ .system := fun hrole => by cases hrole
  have hbound : truncationBound (maxPromptChars (some 512)) [] = 221 := rfl
  rw [truncateMessages_cons, cutHead_of_ne hrole, contentLength_cons, hbound] at hfits
  exact absurd (Nat.le_of_add_right_le hfits) (Nat.not_le_of_gt h)

/-- A system message that is one byte too long comes out longer. -/
theorem not_truncatesWell_of_system {text : String} (h : text.utf8ByteSize = 201)
    (hsingle : SingleByte text.toList) : ¬ TruncatesWell (some 512) [⟨.system, text⟩] := by
  rintro ⟨-, first', hcut, hchanged⟩
  -- 201 bytes where 200 are allowed.
  have hhead : cutHead (maxPromptChars (some 512)) [] ⟨.system, text⟩
      = ⟨.system, truncated 200 text⟩ := by
    have hrole : (⟨.system, text⟩ : ChatMessage).role = .system := rfl
    have hnone : contentLength [] = 0 := rfl
    have hmax : maxPromptChars (some 512) = 0 := rfl
    have hbudget : truncationBudget (maxPromptChars (some 512)) [] = 200 := by
      rw [truncationBudget, hmax, hnone]
      decide
    rcases cutHead_cases (maxPromptChars (some 512)) [] hrole with ⟨hcut, -⟩ | ⟨-, hfits⟩
    · rw [hcut, hbudget]
    · rw [contentLength_cons, hnone, hmax, h] at hfits
      omega
  rw [truncateMessages_cons, hhead] at hcut
  obtain rfl := (List.cons.inj hcut).1
  -- The marker has 21, so the text that was cut is longer than before.
  have hlen : (truncated 200 text).utf8ByteSize = 221 := by
    have htake : SingleByte (text.toList.take 200) :=
      fun c hc => hsingle c (List.mem_of_mem_take hc)
    have hchars : text.toList.length = 201 := by
      rw [← length_encode_of_singleByte hsingle, ← Store.utf8ByteSize_eq, h]
    rw [utf8ByteSize_truncated, length_encode_of_singleByte htake, List.length_take, hchars]
    rfl
  -- The claimed cut is neither no cut nor a shorter text.
  rcases hchanged with hsame | ⟨-, kept, -, -, hshorter⟩
  · have hsize : (truncated 200 text).utf8ByteSize = text.utf8ByteSize :=
      congrArg (fun m : ChatMessage => m.content.utf8ByteSize) hsame
    rw [hlen, h] at hsize
    cases hsize
  · have hle : (truncated 200 text).utf8ByteSize ≤ text.utf8ByteSize := hshorter
    rw [hlen, h] at hle
    exact absurd hle (by decide)

def longText (n : Nat) : String := String.ofList (List.replicate n 'a')

theorem singleByte_longText (n : Nat) : SingleByte (longText n).toList := by
  intro c hc
  rw [longText, String.toList_ofList] at hc
  rw [List.eq_of_mem_replicate hc]
  rfl

theorem utf8ByteSize_longText (n : Nat) : (longText n).utf8ByteSize = n := by
  rw [Store.utf8ByteSize_eq, length_encode_of_singleByte (singleByte_longText n), longText,
    String.toList_ofList, List.length_replicate]

/-- A long question without a system prompt, and a system prompt of 201 bytes, where there is
    room for 200. -/
theorem not_truncatesWell :
    ¬ TruncatesWell (some 512) [⟨.user, longText 300⟩] ∧
      ¬ TruncatesWell (some 512) [⟨.system, longText 201⟩] := by
  constructor
  · refine not_truncatesWell_of_user ?_
    rw [utf8ByteSize_longText]
    decide
  · exact not_truncatesWell_of_system (utf8ByteSize_longText 201) (singleByte_longText 201)

end Maranode.Api
