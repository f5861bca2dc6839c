/-
  Maranode.Cli.Chat

  `chat`: the request it posts, and what it prints of the body that is streamed back.

  The body arrives in chunks that are cut anywhere.  A chunk is read as text by itself, so a
  character that was cut is lost; otherwise the tokens and the sources are printed as they
  were sent (`chat_streamed`).
-/
import Maranode.Api.ChatBody
import Maranode.Api.ChatEvents
import Maranode.Lib.LineFeed
import Maranode.Lib.Lossy

namespace Maranode.Cli

open Lib Lib.Json Lib.Text Maranode.Api Maranode.Common Maranode.Inference

variable (X : External)

/-! ## The request -/

/-- The body; the map of `json!` is sorted. -/
def chatBody (prompt model : String) (useRag : Bool) (collection : Option String) : Value :=
  .obj
    ([("messages", .arr [.obj [("content", .str prompt), ("role", .str "user")]]),
        ("model", .str model)]
      ++ (if useRag then [("rag", .obj (optMember "collection" (collection.map .str)))] else [])
      ++ [("stream", .bool true)])

/-! ## The response -/

/-- `val[name]`; of two members with the name the later one was kept. -/
def member (v : Value) (name : String) : Value :=
  match v with
  | .obj fs => (occ name fs).getLast?.getD .null
  | _ => .null

/-- `val[i]`. -/
def element (v : Value) (i : Nat) : Value :=
  match v with
  | .arr xs => xs[i]?.getD .null
  | _ => .null

def valueStr : Value → Option String
  | .str s => some s
  | _ => none

def isArray : Value → Bool
  | .arr _ => true
  | _ => false

/-- What was printed, token by token, and the sources that were saved. -/
structure ChatOutput where
  printed : List String
  sources : Option Value

def trimEndCr (line : Text) : Text := (line.reverse.dropWhile (· == '\r')).reverse

/-- The JSON of one `data: ` line. -/
def ChatOutput.chunk (out : ChatOutput) (val : Value) : ChatOutput where
  printed :=
    match valueStr (member (member (element (member val "choices") 0) "delta") "content") with
    | some token => out.printed ++ [token]
    | none => out.printed
  sources := if isArray (member val "sources") then some (member val "sources") else out.sources

/-- A line; `true` is the `break` of the inner loop. -/
def handleLine (out : ChatOutput) (line : Text) : ChatOutput × Bool :=
  let line := trimEndCr line
  if dataPrefix.isPrefixOf line then
    let data := line.drop dataPrefix.length
    if data = "[DONE]".toList then (out, true)
    else
      match parse data with
      | some val => (out.chunk val, false)
      | none => (out, false)
  else (out, false)

/-- The loop of `run`. -/
def chat (chunks : List Bytes) : ChatOutput :=
  ((chunks.map lossy).foldl (feed handleLine) ([], ⟨[], none⟩)).2

/-- A source as it is printed; of the score the literal, which is shown with three decimals. -/
structure Citation where
  index : Nat
  source : String
  score : Option NumLit

def asNum : Value → Option NumLit
  | .num n => some n
  | _ => none

def citation (s : Value) : Citation where
  index := (Codec.natBelow (2 ^ 64) (member s "index")).getD 0
  source := (valueStr (member s "source")).getD "?"
  score := asNum (member s "score")

def ChatOutput.citations (out : ChatOutput) : List Citation :=
  match out.sources with
  | some (.arr arr) => arr.map citation
  | _ => []

/-! ## The request is read -/

variable {X}

/-- What the server reads of the body. -/
theorem ofValue_chatBody (prompt model : String) (useRag : Bool) (collection : Option String) :
    (parse (render (chatBody prompt model useRag collection))).bind
        (ChatCompletionRequest.ofValue X) =
      some
        { model
          messages := [⟨"user", prompt⟩]
          temperature := defaultTemperature
          maxTokens := defaultMaxTokens
          stream := true
          stop := none
          rag := if useRag then some ⟨collection, none, false⟩ else none
          withReceipt := false
          deterministic := false
          seed := none } := by
  rw [parse_render, Option.bind_some]
  cases useRag <;> cases collection <;> rfl

/-! ## One line -/

theorem trimEndCr_of_notMem {line : Text} (h : '\r' ∉ line) : trimEndCr line = line := by
  have hall : line.reverse.dropWhile (· == '\r') = line.reverse := by
    cases hrev : line.reverse with
    | nil => rfl
    | cons c cs =>
        refine List.dropWhile_cons_of_neg fun hc => h ?_
        rw [← beq_iff_eq.mp hc, ← List.mem_reverse, hrev]
        exact List.mem_cons_self
  rw [trimEndCr, hall, List.reverse_reverse]

theorem handleLine_data {data : Text} (h : '\r' ∉ data) (out : ChatOutput) :
    handleLine out (dataPrefix ++ data) =
      if data = "[DONE]".toList then (out, true)
      else
        match parse data with
        | some val => (out.chunk val, false)
        | none => (out, false) := by
  have hline : '\r' ∉ dataPrefix ++ data := by
    rw [List.mem_append, not_or]
    exact ⟨by decide, h⟩
  rw [handleLine, trimEndCr_of_notMem hline,
    if_pos (List.isPrefixOf_iff_prefix.mpr (List.prefix_append _ _)), List.drop_left]

theorem handleLine_nil (out : ChatOutput) : handleLine out [] = (out, false) := rfl

/-- What an event does to the output. -/
def effect (X : External) (out : ChatOutput) : Event → ChatOutput
  | .chunk c => out.chunk (c.toValue X)
  | .data _ => out

theorem return_notMem_render (v : Value) : '\r' ∉ render v := fun h =>
  absurd (printable_render v '\r' h) (by decide)

/-- An event of the stream, but for the last, goes through the client line by line. -/
theorem handleAll_event {s : ChatStream} {sent : List (Except String Token)} {e : Event}
    (he : e ∈ s.events sent) (hne : e ≠ .data "[DONE]") (out : ChatOutput) :
    handleLine out (dataPrefix ++ e.payload X) = (effect X out e, false) := by
  rcases mem_events he with ⟨role, content, finish, sources, rfl⟩ | rfl | rfl
  · have hdone : ∀ v : Value, render v ≠ "[DONE]".toList := by
      intro v h
      have hparse := congrArg parse h
      rw [parse_render] at hparse
      have hnone : parse "[DONE]".toList = none := by decide
      rw [hnone] at hparse
      cases hparse
    rw [ChatStream.makeChunkEvent, Event.payload, handleLine_data (return_notMem_render _),
      if_neg (hdone _), parse_render]
    rfl
  · rw [Event.payload, handleLine_data (by decide), if_neg (by decide)]
    rfl
  · exact absurd rfl hne

/-! ## The whole body -/

/-- The events before the last. -/
def ChatStream.front (s : ChatStream) (sent : List (Except String Token)) : List Event :=
  s.makeChunkEvent (some "assistant") (some "") none none :: sent.map s.event

theorem front_ne_done {s : ChatStream} {sent : List (Except String Token)} {e : Event}
    (h : e ∈ ChatStream.front s sent) : e ∈ s.events sent ∧ e ≠ .data "[DONE]" := by
  refine ⟨List.mem_append_left _ h, ?_⟩
  rw [ChatStream.front, List.mem_cons, List.mem_map] at h
  rintro rfl
  rcases h with h | ⟨result, -, h⟩
  · cases h
  · cases result with
    | ok token => cases h
    | error e =>
        have hne : "[ERROR] inference failed" ≠ "[DONE]" := by decide
        exact hne (Event.data.inj h)

theorem bodyLines_eq (s : ChatStream) (sent : List (Except String Token)) :
    s.bodyLines X sent =
      (ChatStream.front s sent).flatMap (Event.lines X) ++ [dataPrefix ++ "[DONE]".toList, []] := by
  rw [ChatStream.bodyLines, ChatStream.events, List.flatMap_append, List.flatMap_singleton]
  rfl

/-- The events go through the client one by one. -/
theorem handleAll_front {s : ChatStream} {sent : List (Except String Token)} {es : List Event}
    (hes : ∀ e ∈ es, e ∈ s.events sent ∧ e ≠ .data "[DONE]") (out : ChatOutput) :
    handleAll handleLine out (es.flatMap (Event.lines X)) = es.foldl (effect X) out := by
  induction es generalizing out with
  | nil => rfl
  | cons e es ih =>
      obtain ⟨⟨he, hne⟩, hrest⟩ := List.forall_mem_cons.mp hes
      have hone : handleAll handleLine out (Event.lines X e) = effect X out e := by
        rw [Event.lines, handleAll, List.foldl_cons, List.foldl_cons, List.foldl_nil,
          handleAll_event he hne, handleLine_nil]
      rw [List.flatMap_cons, handleAll_append, hone, List.foldl_cons]
      exact ih hrest _

/-- Of the lines of the front none leaves the rest. -/
theorem not_stops {s : ChatStream} {sent : List (Except String Token)} {line : Text}
    (h : line ∈ (ChatStream.front s sent).flatMap (Event.lines X)) (out : ChatOutput) :
    (handleLine out line).2 = false := by
  obtain ⟨e, he, hline⟩ := List.mem_flatMap.mp h
  obtain ⟨hmem, hne⟩ := front_ne_done he
  rw [Event.lines, List.mem_cons, List.mem_singleton] at hline
  rcases hline with rfl | rfl
  · rw [handleAll_event hmem hne]
  · rw [handleLine_nil]

/-- **The body in pieces.**  Wherever the text is cut, the client makes the same of it. -/
theorem feed_body (s : ChatStream) (sent : List (Except String Token)) {pieces : List Text}
    (h : pieces.flatten = s.body X sent) (out : ChatOutput) :
    (pieces.foldl (feed handleLine) ([], out)).2 =
      (ChatStream.front s sent).foldl (effect X) out := by
  -- The lines arrive cut anywhere; `feed_all` asks only that nothing after a stop line counts.
  have hdone : ∀ o, handleLine o (dataPrefix ++ "[DONE]".toList) = (o, true) := fun o => by
    rw [handleLine_data (by decide), if_pos rfl]
  have hall := feed_all (f := handleLine) (s := out)
    (fun line hline => @newline_notMem_bodyLines X s sent line hline) h ?_
  · rw [hall, bodyLines_eq, handleAll_append,
      handleAll_front fun e he => front_ne_done he, handleAll, List.foldl_cons, List.foldl_cons,
      List.foldl_nil, hdone, handleLine_nil]
  · intro front line back hsplit hstop l hl o
    rw [bodyLines_eq] at hsplit
    rcases List.append_eq_append_iff.mp hsplit with ⟨mid, hfront, hrest⟩ | ⟨mid, hfront, hrest⟩
    · -- The line that stops is the last event's, or the empty one behind it.
      have htail : l = [] := by
        cases mid with
        | nil =>
            obtain ⟨-, rfl⟩ := List.cons.inj hrest
            exact List.mem_singleton.mp hl
        | cons m mid =>
            obtain ⟨-, hrest⟩ := List.cons.inj hrest
            cases mid with
            | nil =>
                obtain ⟨-, rfl⟩ := List.cons.inj hrest
                exact absurd hl List.not_mem_nil
            | cons m' mid =>
                obtain ⟨-, hrest⟩ := List.cons.inj hrest
                refine absurd hrest.symm ?_
                exact List.append_ne_nil_of_right_ne_nil _ (List.cons_ne_nil _ _)
      rw [htail, handleLine_nil]
    -- A stop inside the front would be an event's line, and none of those stops.
    · cases mid with
      | nil =>
          rw [List.nil_append] at hrest
          obtain ⟨-, rfl⟩ := List.cons.inj hrest
          rw [List.mem_singleton.mp hl, handleLine_nil]
      | cons m mid =>
          exfalso
          obtain ⟨rfl, -⟩ := List.cons.inj hrest
          have hmem : line ∈ (ChatStream.front s sent).flatMap (Event.lines X) := by
            rw [hfront]
            exact List.mem_append_right front List.mem_cons_self
          rw [not_stops hmem] at hstop
          cases hstop

/-! ## What is printed -/

/-- The token that ends the stream has been sent. -/
def Ended (sent : List (Except String Token)) : Bool :=
  sent.any fun
    | .ok token => token.isLast
    | .error _ => false

/-- A chunk with one choice. -/
theorem chunk_makeChunkEvent (s : ChatStream) (role content finish : Option String)
    (sources : Option (List RagSource)) (out : ChatOutput) :
    effect X out (s.makeChunkEvent role content finish sources) =
      { printed := out.printed ++ content.toList
        sources :=
          (sources.map fun rs => .arr (rs.map (RagSource.toValue X))).or out.sources } := by
  rw [ChatStream.makeChunkEvent, effect, ChatOutput.chunk]
  cases role <;> cases content <;> cases sources <;> first | rfl | skip
  all_goals rw [Option.toList_none, List.append_nil]; rfl

/-- The sources as they are sent. -/
def ChatStream.sent (X : External) (s : ChatStream) : Option Value :=
  s.sources.map fun rs => .arr (rs.map (RagSource.toValue X))

theorem foldl_effect (s : ChatStream) (sent : List (Except String Token)) (out : ChatOutput) :
    (sent.map s.event).foldl (effect X) out =
      { printed := out.printed ++ (sent.map s.event).flatMap Event.deltas
        sources := if Ended sent then (ChatStream.sent X s).or out.sources else out.sources } := by
  induction sent generalizing out with
  | nil =>
      rw [List.map_nil, List.foldl_nil, List.flatMap_nil, List.append_nil]
      rfl
  | cons result sent ih =>
      -- The last chunk carries the sources; whether it came is decided by the head or by the rest.
      have hended : Ended (result :: sent) = (Ended [result] || Ended sent) := by
        cases result <;> simp [Ended]
      rw [List.map_cons, List.foldl_cons, ih, List.flatMap_cons, ← List.append_assoc, hended]
      cases result with
      | error e =>
          have heffect : effect X out (s.event (.error e)) = out := rfl
          have hdeltas : Event.deltas (s.event (.error e)) = [] := rfl
          rw [heffect, hdeltas, List.append_nil]
          rfl
      | ok token =>
          cases hlast : token.isLast with
          | true =>
              have hevent : s.event (.ok token) =
                  s.makeChunkEvent none none (some "stop") s.sources := by
                rw [ChatStream.event, hlast]
                rfl
              have hone : Ended [.ok token] = true := by simp [Ended, hlast]
              have hdeltas :
                  Event.deltas (s.makeChunkEvent none none (some "stop") s.sources) = [] := rfl
              rw [hevent, chunk_makeChunkEvent, hdeltas, hone, Bool.true_or, if_pos rfl,
                Option.toList_none, ← ChatStream.sent, ← Option.or_assoc, Option.or_self]
              cases Ended sent <;> rfl
          | false =>
              have hevent : s.event (.ok token) =
                  s.makeChunkEvent none (some token.text) none none := by
                rw [ChatStream.event, hlast]
                rfl
              have hone : Ended [.ok token] = false := by simp [Ended, hlast]
              have hdeltas : Event.deltas (s.makeChunkEvent none (some token.text) none none) =
                  [token.text] := rfl
              rw [hevent, chunk_makeChunkEvent, hdeltas, hone, Bool.false_or, Option.toList_some,
                Option.map_none, Option.none_or]

theorem citation_toValue {r : RagSource} (h : r.index < 2 ^ 64) :
    citation (r.toValue X) = ⟨r.index, r.source, some (X.f32Lit r.score)⟩ := by
  have hindex : Codec.natBelow (2 ^ 64) (.num (.ofNat r.index)) = some r.index :=
    Codec.natBelow_ofNat h
  have hmember : member (r.toValue X) "index" = .num (.ofNat r.index) := rfl
  rw [citation, hmember, hindex]
  rfl

/-- **A streamed answer.**  The client assembles the body the server sent exactly when no
    chunk of the network starts inside a character; and then it prints the deltas of the
    events in order, and of the sources of an answer that ended the index, the name and the
    score. -/
theorem chat_streamed (s : ChatStream) (sent : List (Except String Token)) {chunks : List Bytes}
    (hindex : ∀ rs, s.sources = some rs → ∀ r ∈ rs, r.index < 2 ^ 64)
    (hbody : chunks.flatten = Text.encode (s.body X sent)) :
    ((chunks.map lossy).flatten = s.body X sent ↔ ∀ chunk ∈ chunks, ¬ CutsIn chunk) ∧
      ((∀ chunk ∈ chunks, ¬ CutsIn chunk) →
        (chat chunks).printed = (s.events sent).flatMap Event.deltas ∧
          (chat chunks).citations =
            if Ended sent then
              (s.sources.getD []).map fun r => ⟨r.index, r.source, some (X.f32Lit r.score)⟩
            else []) := by
  have hiff := flatten_lossy_iff hbody
  refine ⟨hiff, fun hcut => ?_⟩
  have hchat : chat chunks = (ChatStream.front s sent).foldl (effect X) ⟨[], none⟩ :=
    feed_body s sent (hiff.mpr hcut) ⟨[], none⟩
  rw [ChatStream.front, List.foldl_cons, chunk_makeChunkEvent, foldl_effect] at hchat
  constructor
  · rw [hchat, ChatStream.events, List.flatMap_append, List.flatMap_cons, List.flatMap_singleton]
    exact (List.append_nil _).symm
  · rw [hchat]
    cases hended : Ended sent with
    | false => rfl
    | true =>
        rw [if_pos rfl, if_pos rfl, ChatStream.sent]
        cases hsources : s.sources with
        | none => rfl
        | some rs =>
            change (rs.map (RagSource.toValue X)).map citation = _
            rw [List.map_map, Option.getD_some]
            exact List.map_congr_left fun r hr => citation_toValue (hindex rs hsources r hr)

/-- A stream with one source. -/
def sampleStream : ChatStream where
  id := "chatcmpl-1"
  model := "m"
  created := 0
  sources := some [⟨1, "manual.md", ⟨0, F32.finite_zero⟩, "text", none, none, 0⟩]

/-- An answer whose second letter has two bytes. -/
def sampleTokens : List (Except String Token) := [.ok ⟨"Hé", false⟩, .ok ⟨"", true⟩]

/-- Its body, a chunk for each character. -/
def sampleChunks : List Bytes :=
  (sampleStream.body External.sample sampleTokens).map fun c => Text.encode [c]

theorem flatten_sampleChunks :
    sampleChunks.flatten = Text.encode (sampleStream.body External.sample sampleTokens) := by
  rw [sampleChunks, ← List.flatMap_def, Text.encode]
  refine List.flatMap_congr fun c _ => ?_
  rw [Text.encode, List.flatMap_singleton]

theorem flatten_lossy_sampleChunks :
    (sampleChunks.map lossy).flatten = sampleStream.body External.sample sampleTokens := by
  have hone : lossy ∘ (fun c => Text.encode [c]) = fun c => [c] := by
    funext c
    exact lossy_encode [c]
  rw [sampleChunks, List.map_map, hone, ← List.flatMap_def]
  exact List.flatMap_singleton' _

theorem chat_streamed_sample :
    (chat sampleChunks).printed = ["", "Hé"] ∧
      (chat sampleChunks).citations =
        [⟨1, "manual.md", some (External.sample.f32Lit ⟨0, F32.finite_zero⟩)⟩] := by
  have hindex : ∀ rs, sampleStream.sources = some rs → ∀ r ∈ rs, r.index < 2 ^ 64 := by
    intro rs hrs r hr
    obtain rfl := Option.some.inj hrs
    rw [List.mem_singleton.mp hr]
    decide
  obtain ⟨hiff, hprinted⟩ := chat_streamed sampleStream sampleTokens hindex flatten_sampleChunks
  exact hprinted (hiff.mp flatten_lossy_sampleChunks)

end Maranode.Cli
