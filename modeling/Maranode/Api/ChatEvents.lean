/-
  Maranode.Api.ChatEvents

  The body of a streamed chat completion: every event is the JSON of a chunk, or a text, on a
  line of its own behind `data: `, and an empty line.
-/
import Maranode.Api.ChatResponse

namespace Maranode.Api

open Lib Lib.Json Maranode.Common Maranode.Inference

variable (X : External)

/-! ## Values -/

theorem isNumber_minus {n : Nat} : isNumber ('-' :: Nat.toDigits 10 n) = true := by
  have hrest : ∀ cs, isNumber ('-' :: cs) = (NumSt.minus.run cs).any NumSt.accepts := fun _ => rfl
  rw [hrest]
  rcases Nat.eq_zero_or_pos n with rfl | hn
  · decide
  · obtain ⟨c, cs, hcs, hc⟩ := toDigits_eq_cons_of_pos hn
    have hdigits : ∀ d ∈ c :: cs, d.isDigit = true := fun d hd =>
      Nat.isDigit_of_mem_toDigits (b := 10) (n := n) (by decide) (by decide) (hcs ▸ hd)
    rw [hcs, NumSt.run, NumSt.step, if_neg hc, if_pos (hdigits c List.mem_cons_self),
      Option.bind_some, NumSt.run_int_digits fun d hd => hdigits d (List.mem_cons_of_mem _ hd)]
    rfl

/-- The literal of an `i64`. -/
def intLit : Int → NumLit
  | .ofNat n => NumLit.ofNat n
  | .negSucc n => ⟨'-' :: Nat.toDigits 10 (n + 1), isNumber_minus⟩

/-- A member that is `null` when there is none. -/
def orNull : Option String → Value
  | some s => .str s
  | none => .null

def RagSource.toValue (r : RagSource) : Value :=
  .obj
    [("index", .num (.ofNat r.index)), ("source", .str r.source),
      ("score", .num (X.f32Lit r.score)), ("text", .str r.text), ("title", orNull r.title),
      ("author", orNull r.author), ("page_number", .num (.ofNat r.pageNumber.toNat))]

def ChunkDelta.toValue (d : ChunkDelta) : Value :=
  .obj (optMember "role" (d.role.map .str) ++ optMember "content" (d.content.map .str))

def ChunkChoice.toValue (c : ChunkChoice) : Value :=
  .obj
    [("index", .num (.ofNat c.index.toNat)), ("delta", c.delta.toValue),
      ("finish_reason", orNull c.finishReason)]

def ChatCompletionChunk.toValue (c : ChatCompletionChunk) : Value :=
  .obj
    ([("id", .str c.id), ("object", .str c.object), ("created", .num (intLit c.created)),
        ("model", .str c.model), ("choices", .arr (c.choices.map ChunkChoice.toValue))]
      ++ optMember "sources" (c.sources.map fun s => .arr (s.map (RagSource.toValue X))))

/-! ## Server-sent events -/

/-- What is behind `data: `. -/
def Event.payload : Event → Text
  | .chunk c => render (c.toValue X)
  | .data s => s.toList

def dataPrefix : Text := "data: ".toList

/-- The lines of an event; the texts that are sent have no line break. -/
def Event.lines (e : Event) : List Text := [dataPrefix ++ e.payload X, []]

/-- The lines of the body. -/
def ChatStream.bodyLines (s : ChatStream) (sent : List (Except String Token)) : List Text :=
  (s.events sent).flatMap (Event.lines X)

def ChatStream.body (s : ChatStream) (sent : List (Except String Token)) : Text :=
  Text.joinLines (s.bodyLines X sent)

variable {X}

/-- What the events of a response are. -/
theorem mem_events {s : ChatStream} {sent : List (Except String Token)} {e : Event}
    (h : e ∈ s.events sent) :
    (∃ role content finish sources,
        e = s.makeChunkEvent role content finish sources) ∨
      e = .data "[ERROR] inference failed" ∨ e = .data "[DONE]" := by
  rw [ChatStream.events, List.mem_append, List.mem_cons, List.mem_map, List.mem_singleton] at h
  rcases h with (rfl | ⟨result, -, rfl⟩) | rfl
  · exact .inl ⟨_, _, _, _, rfl⟩
  · cases result with
    | ok token => exact .inl ⟨_, _, _, _, rfl⟩
    | error e => exact .inr (.inl rfl)
  · exact .inr (.inr rfl)

theorem newline_notMem_bodyLines {s : ChatStream} {sent : List (Except String Token)} {line : Text}
    (h : line ∈ s.bodyLines X sent) : '\n' ∉ line := by
  obtain ⟨e, he, hline⟩ := List.mem_flatMap.mp h
  rw [Event.lines, List.mem_cons, List.mem_singleton] at hline
  rcases hline with rfl | rfl
  · rw [List.mem_append, not_or]
    refine ⟨by decide, ?_⟩
    rcases mem_events he with ⟨role, content, finish, sources, rfl⟩ | rfl | rfl
    · exact newline_notMem_render _
    · change '\n' ∉ "[ERROR] inference failed".toList
      decide
    · change '\n' ∉ "[DONE]".toList
      decide
  · exact List.not_mem_nil

end Maranode.Api
