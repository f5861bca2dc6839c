/-
  Maranode.Inference.Llama

  The two generation loops of the llama.cpp engine: `generate_sync`, which returns the
  whole text, and `stream_sync`, which sends it token by token.

  llama.cpp itself is a parameter, and so is the sequence of tokens its sampler
  returns: the loops decide what to append, what to decode and where to end.
  `IsLast` says which token that is, in terms of the sequence alone, and each loop has
  one lemma that says what it makes of the tokens up to that one.
-/
import Maranode.Common.Receipt

namespace Maranode.Inference

open Maranode.Common

/-! ## types.rs -/

structure InferenceRequest where
  requestId : String
  model : ModelId
  modelPath : String
  messages : List ChatMessage
  temperature : F32
  maxTokens : UInt32
  stopSequences : List String
  stream : Bool
  seed : Option UInt64
  deterministic : Bool

inductive FinishReason where
  | stop
  | length
  | error
  deriving DecidableEq

structure InferenceResponse where
  requestId : String
  model : ModelId
  content : String
  tokensIn : UInt32
  tokensOut : UInt32
  durationMs : UInt64
  device : InferenceDevice
  finishReason : FinishReason

structure Token where
  text : String
  isLast : Bool
  deriving DecidableEq

/-! ## llama.cpp -/

def maxNCtx : Nat := 32768

def nBatch : Nat := 512

/-- A token of a batch: its position, and whether its logits are wanted. -/
structure BatchToken (T : Type) where
  token : T
  pos : Int
  logits : Bool

abbrev Batch (T : Type) := List (BatchToken T)

/-- `LlamaBatch::add`, on a batch for `N_BATCH` tokens. -/
def Batch.add {T : Type} (b : Batch T) (token : T) (pos : Int) (logits : Bool) :
    Except String (Batch T) :=
  if b.length < nBatch then .ok (b ++ [⟨token, pos, logits⟩])
  else .error ("Insufficient Space of " ++ toString nBatch)

/-- A loaded model.  The outcome of a `decode` depends on the batches of the context
    so far, the last of which is the one to decode. -/
structure LlamaModel (T : Type) where
  nCtxTrain : Nat
  strToToken : String → Except String (List T)
  newContext : Nat → Except String Unit
  isEogToken : T → Bool
  tokenToStr : T → Except String String
  decode : List (Batch T) → Except String Unit

/-- What a function on a context decoded, and how it ended. -/
structure Decoded (T α : Type) where
  decoded : List (Batch T)
  result : Except String α

variable {T : Type} (m : LlamaModel T)

/-- `token_to_str`, with no text for a token that has none. -/
def LlamaModel.piece (t : T) : String := ((m.tokenToStr t).toOption).getD ""

/-! ## The prompt -/

def buildChatmlPrompt (messages : List ChatMessage) : String :=
  messages.foldl (fun buf msg =>
    buf ++ "<|im_start|>" ++ msg.role.rename ++ "\n" ++ msg.content ++ "<|im_end|>\n") ""
    ++ "<|im_start|>assistant\n"

/-- `as i32`, of a `usize`. -/
def usizeAsI32 (n : Nat) : Int := (n : Int).bmod (2 ^ 32)

/-- The tokens of one piece of the prompt, from position `start` on; the logits of the
    last token of the prompt are wanted. -/
def addPromptTokens (n start : Nat) (batch : Batch T) : List T → Except String (Batch T)
  | [] => .ok batch
  | tok :: toks =>
      match batch.add tok (usizeAsI32 start) (start == n - 1) with
      | .error _ => .error "adding token to prompt batch"
      | .ok batch => addPromptTokens n (start + 1) batch toks

def decodePromptLoop (tokens : List T) (start : Nat) (batch : Batch T)
    (decoded : List (Batch T)) : Decoded T (Batch T) :=
  let n := tokens.length
  if _h : start < n then
    let stop := min (start + nBatch) n
    match addPromptTokens n start batch ((tokens.drop start).take nBatch) with
    | .error e => ⟨decoded, .error e⟩
    | .ok batch =>
        let decoded := decoded ++ [batch]
        match m.decode decoded with
        | .error _ => ⟨decoded, .error "prompt decode"⟩
        | .ok () => decodePromptLoop tokens stop (if stop < n then [] else batch) decoded
  else ⟨decoded, .ok batch⟩
termination_by tokens.length - start
decreasing_by
  simp only [nBatch]
  omega

/-- `decode_prompt`, in pieces of `N_BATCH` tokens; the last piece stays in the batch. -/
def decodePrompt (tokens : List T) : Decoded T (Batch T) := decodePromptLoop m tokens 0 [] []

theorem addPromptTokens_eq_ok (n start : Nat) (toks : List T) (batch : Batch T)
    (h : batch.length + toks.length ≤ nBatch) :
    ∃ batch', addPromptTokens n start batch toks = .ok batch' := by
  induction toks generalizing start batch with
  | nil => exact ⟨batch, rfl⟩
  | cons tok toks ih =>
      rw [List.length_cons] at h
      have hroom : batch.length < nBatch := by omega
      rw [addPromptTokens, Batch.add, if_pos hroom]
      apply ih
      rw [List.length_append, List.length_singleton]
      omega

/-- The pieces fit into the batch. -/
theorem decodePromptLoop_eq_ok {m : LlamaModel T} (hdecode : ∀ decoded, m.decode decoded = .ok ())
    (tokens : List T) (start : Nat) (batch : Batch T) (decoded : List (Batch T))
    (hbatch : start < tokens.length → batch = []) :
    ∃ decoded' batch', decodePromptLoop m tokens start batch decoded = ⟨decoded', .ok batch'⟩ := by
  induction hleft : tokens.length - start using Nat.strong_induction_on
    generalizing start batch decoded with
  | _ left ih =>
      rw [decodePromptLoop]
      by_cases hstart : start < tokens.length
      · obtain rfl := hbatch hstart
        obtain ⟨batch', hadd⟩ := addPromptTokens_eq_ok tokens.length start
          ((tokens.drop start).take nBatch) [] (by simp)
        rw [dif_pos hstart, hadd]
        dsimp only
        rw [hdecode]
        have hless : tokens.length - min (start + nBatch) tokens.length < left := by
          simp only [nBatch]
          omega
        -- The batch is cleared unless this was the last piece.
        exact ih _ hless _ _ _ (fun hmore => if_pos hmore) rfl
      · rw [dif_neg hstart]
        exact ⟨decoded, batch, rfl⟩

/-- Only a decode can fail on a prompt. -/
theorem decodePrompt_eq_ok {m : LlamaModel T} (hdecode : ∀ decoded, m.decode decoded = .ok ())
    (tokens : List T) : ∃ decoded batch, decodePrompt m tokens = ⟨decoded, .ok batch⟩ :=
  decodePromptLoop_eq_ok hdecode tokens 0 [] [] fun _ => rfl

/-! ## The loops -/

/-- `as i32`. -/
def asI32 (n : UInt32) : Int := n.toInt32.toInt

/-- `str::ends_with`. -/
def endsWith (t s : String) : Bool := s.toList.isSuffixOf t.toList

variable (req : InferenceRequest)

def InferenceRequest.hitStop (text : String) : Bool := req.stopSequences.any (endsWith text)

/-- What is left of `generate_sync` when its loop ends. -/
structure Generated where
  output : String
  nCur : Int
  finishReason : FinishReason

/-- The loop of `generate_sync`; `n` tokens have been sampled so far, of the sequence
    `sampled`. -/
def generateLoop (nPrompt : Int) (sampled : Nat → T) (n : Nat) (nCur : Int) (output : String)
    (decoded : List (Batch T)) : Decoded T Generated :=
  let token := sampled n
  if m.isEogToken token then ⟨decoded, .ok ⟨output, nCur, .stop⟩⟩
  else
    let output := output ++ m.piece token
    if req.hitStop output then ⟨decoded, .ok ⟨output, nCur, .stop⟩⟩
    else
      let nCur := nCur + 1
      if _h : nCur - nPrompt ≥ asI32 req.maxTokens then ⟨decoded, .ok ⟨output, nCur, .length⟩⟩
      else
        match Batch.add [] token (nCur - 1) true with
        | .error _ => ⟨decoded, .error "batch add"⟩
        | .ok batch =>
            let decoded := decoded ++ [batch]
            match m.decode decoded with
            | .error _ => ⟨decoded, .error "decode step"⟩
            | .ok () => generateLoop nPrompt sampled (n + 1) nCur output decoded
termination_by (asI32 req.maxTokens - (nCur - nPrompt)).toNat
decreasing_by omega

/-- A message to a client that takes `left` of them before it goes away, when it does. -/
def send {α : Type} (left : Option Nat) (sent : List α) (msg : α) : Option (List α) :=
  if left = some sent.length then none else some (sent ++ [msg])

/-- What `stream_sync` decoded, and what it sent. -/
structure Streamed (T : Type) where
  decoded : List (Batch T)
  sent : List (Except String Token)

/-- The loop of `stream_sync`. -/
def streamLoop (left : Option Nat) (nPrompt : Int) (sampled : Nat → T) (n : Nat) (nCur : Int)
    (emitted : String) (decoded : List (Batch T)) (sent : List (Except String Token)) :
    Streamed T :=
  let token := sampled n
  let isEog := m.isEogToken token
  let nNew := nCur - nPrompt + 1
  let text := if isEog then "" else m.piece token
  let emitted := if req.stopSequences.isEmpty then emitted else emitted ++ text
  let hitStop := if req.stopSequences.isEmpty then false else req.hitStop emitted
  let isLast := isEog || hitStop || nNew ≥ asI32 req.maxTokens
  match send left sent (.ok ⟨text, isLast⟩) with
  | none => ⟨decoded, sent⟩
  | some sent =>
      if _h : isLast then ⟨decoded, sent⟩
      else
        let nCur := nCur + 1
        match Batch.add [] token (nCur - 1) true with
        | .error _ => ⟨decoded, sent⟩
        | .ok batch =>
            let decoded := decoded ++ [batch]
            match m.decode decoded with
            | .error e => ⟨decoded, (send left sent (.error ("decode step: " ++ e))).getD sent⟩
            | .ok () => streamLoop left nPrompt sampled (n + 1) nCur emitted decoded sent
termination_by (asI32 req.maxTokens - (nCur - nPrompt)).toNat
decreasing_by
  simp only [isLast, nNew, Bool.or_eq_true, decide_eq_true_eq, not_or] at _h
  omega

def overContext (nPrompt nCtx : Nat) : String :=
  "prompt (" ++ toString nPrompt ++ " tokens) ≥ context window (" ++ toString nCtx ++ ")"

/-- The response of `generate_sync`, after its loop. -/
def Generated.response (device : InferenceDevice) (durationMs : UInt64) (nPrompt : Int)
    (out : Generated) : InferenceResponse where
  requestId := req.requestId
  model := req.model
  content := out.output
  tokensIn := UInt32.ofInt nPrompt
  tokensOut := UInt32.ofInt (out.nCur - nPrompt)
  durationMs := durationMs
  device := device
  finishReason := out.finishReason

def generateSync (device : InferenceDevice) (durationMs : UInt64) (sampled : Nat → T) :
    Decoded T InferenceResponse :=
  let nCtx := min maxNCtx m.nCtxTrain
  match m.strToToken (buildChatmlPrompt req.messages) with
  | .error _ => ⟨[], .error "tokenising prompt"⟩
  | .ok promptTokens =>
      let nPrompt := promptTokens.length
      if nPrompt ≥ nCtx then ⟨[], .error (overContext nPrompt nCtx)⟩
      else
        match m.newContext nCtx with
        | .error _ => ⟨[], .error "creating llama context"⟩
        | .ok () =>
            match decodePrompt m promptTokens with
            | ⟨decoded, .error e⟩ => ⟨decoded, .error e⟩
            | ⟨decoded, .ok _⟩ =>
                let g := generateLoop m req nPrompt sampled 0 nPrompt "" decoded
                ⟨g.decoded, g.result.map (Generated.response req device durationMs nPrompt)⟩

def streamSync (left : Option Nat) (sampled : Nat → T) : Streamed T :=
  let nCtx := min maxNCtx m.nCtxTrain
  let failed (e : String) : List (Except String Token) := (send left [] (.error e)).getD []
  match m.newContext nCtx with
  | .error e => ⟨[], failed ("context creation: " ++ e)⟩
  | .ok () =>
      match m.strToToken (buildChatmlPrompt req.messages) with
      | .error e => ⟨[], failed ("tokenise: " ++ e)⟩
      | .ok promptTokens =>
          let nPrompt := promptTokens.length
          if nPrompt ≥ nCtx then ⟨[], failed (overContext nPrompt nCtx)⟩
          else
            match decodePrompt m promptTokens with
            | ⟨decoded, .error e⟩ => ⟨decoded, failed e⟩
            | ⟨decoded, .ok _⟩ => streamLoop m req left nPrompt sampled 0 nPrompt "" decoded []

/-! ## The last token -/

variable (sampled : Nat → T)

/-- The text of the first `n` tokens. -/
def textOf : Nat → String
  | 0 => ""
  | n + 1 => textOf n ++ m.piece (sampled n)

/-- The token ends the generation: it is an end-of-generation token, the text ends with
    a stop sequence, or it is the last that `max_tokens` allows. -/
def endsAt (n : Nat) : Bool :=
  m.isEogToken (sampled n) || req.hitStop (textOf m sampled (n + 1)) ||
    decide ((n : Int) + 1 ≥ asI32 req.maxTokens)

/-- The token is the first that ends the generation. -/
def IsLast (n : Nat) : Prop :=
  endsAt m req sampled n = true ∧ ∀ j < n, endsAt m req sampled j = false

/-- The batch of a sampled token. -/
def stepBatch (nPrompt : Int) (n : Nat) : Batch T := [⟨sampled n, nPrompt + n, true⟩]

/-- The batches of the first `n` sampled tokens. -/
def stepBatches (nPrompt : Int) (n : Nat) : List (Batch T) :=
  (List.range n).map (stepBatch sampled nPrompt)

/-- What `generate_sync` makes of the tokens up to the last. -/
def generated (nPrompt : Int) (n : Nat) : Generated :=
  if m.isEogToken (sampled n) then ⟨textOf m sampled n, nPrompt + n, .stop⟩
  else if req.hitStop (textOf m sampled (n + 1)) then
    ⟨textOf m sampled (n + 1), nPrompt + n, .stop⟩
  else ⟨textOf m sampled (n + 1), nPrompt + n + 1, .length⟩

variable {m req sampled}

theorem exists_isLast (m : LlamaModel T) (req : InferenceRequest) (sampled : Nat → T) :
    ∃ n, IsLast m req sampled n := by
  have hends : ∃ n, endsAt m req sampled n = true := by
    refine ⟨(asI32 req.maxTokens).toNat, ?_⟩
    have hlength : ((asI32 req.maxTokens).toNat : Int) + 1 ≥ asI32 req.maxTokens := by omega
    rw [endsAt, decide_eq_true hlength, Bool.or_true]
  refine ⟨Nat.find hends, Nat.find_spec hends, fun j hj => ?_⟩
  simpa using Nat.find_min hends hj

theorem IsLast.unique {n k : Nat} (hn : IsLast m req sampled n) (hk : IsLast m req sampled k) :
    n = k := by
  rcases Nat.lt_trichotomy n k with hlt | heq | hgt
  · exact absurd hn.1 (by rw [hk.2 n hlt]; exact Bool.false_ne_true)
  · exact heq
  · exact absurd hk.1 (by rw [hn.2 k hgt]; exact Bool.false_ne_true)

theorem textOf_succ (n : Nat) :
    textOf m sampled n ++ m.piece (sampled n) = textOf m sampled (n + 1) := rfl

theorem endsAt_eq_false {n : Nat} (h : endsAt m req sampled n = false) :
    m.isEogToken (sampled n) = false ∧ req.hitStop (textOf m sampled (n + 1)) = false ∧
      ¬ (n : Int) + 1 ≥ asI32 req.maxTokens := by
  simpa [endsAt, and_assoc] using h

theorem add_stepBatch (nPrompt : Int) (n : Nat) :
    Batch.add [] (sampled n) (nPrompt + n + 1 - 1) true = .ok (stepBatch sampled nPrompt n) := by
  rw [Int.add_sub_cancel]
  rfl

theorem stepBatches_succ (decoded : List (Batch T)) (nPrompt : Int) (n : Nat) :
    decoded ++ stepBatches sampled nPrompt (n + 1)
      = decoded ++ stepBatches sampled nPrompt n ++ [stepBatch sampled nPrompt n] := by
  rw [stepBatches, List.range_succ, List.map_append, List.append_assoc]
  rfl

section Generate

variable (nPrompt : Int) {decoded : List (Batch T)} {n k : Nat}

/-- The loop after `n` tokens, all of them followed by another. -/
def generateFrom (m : LlamaModel T) (req : InferenceRequest) (sampled : Nat → T) (nPrompt : Int)
    (decoded : List (Batch T)) (n : Nat) : Decoded T Generated :=
  generateLoop m req nPrompt sampled n (nPrompt + n) (textOf m sampled n)
    (decoded ++ stepBatches sampled nPrompt n)

theorem generateFrom_zero (decoded : List (Batch T)) :
    generateFrom m req sampled nPrompt decoded 0
      = generateLoop m req nPrompt sampled 0 nPrompt "" decoded := by
  simp [generateFrom, stepBatches, textOf]

theorem generateFrom_last (h : endsAt m req sampled n = true) :
    generateFrom m req sampled nPrompt decoded n
      = ⟨decoded ++ stepBatches sampled nPrompt n, .ok (generated m req sampled nPrompt n)⟩ := by
  rw [generateFrom, generateLoop, generated]
  dsimp only
  rw [textOf_succ]
  by_cases heog : m.isEogToken (sampled n) = true
  · rw [if_pos heog, if_pos heog]
  rw [if_neg heog, if_neg heog]
  by_cases hstop : req.hitStop (textOf m sampled (n + 1)) = true
  · rw [if_pos hstop, if_pos hstop]
  have hlength : nPrompt + n + 1 - nPrompt ≥ asI32 req.maxTokens := by
    simp only [endsAt, heog, hstop, Bool.false_or, decide_eq_true_eq] at h
    omega
  rw [if_neg hstop, if_neg hstop, dif_pos hlength]

/-- A token that is not the last is decoded. -/
theorem generateFrom_not_last (decoded : List (Batch T)) (h : endsAt m req sampled n = false) :
    (∀ e, m.decode (decoded ++ stepBatches sampled nPrompt (n + 1)) = .error e →
      generateFrom m req sampled nPrompt decoded n
        = ⟨decoded ++ stepBatches sampled nPrompt (n + 1), .error "decode step"⟩) ∧
    (m.decode (decoded ++ stepBatches sampled nPrompt (n + 1)) = .ok () →
      generateFrom m req sampled nPrompt decoded n
        = generateFrom m req sampled nPrompt decoded (n + 1)) := by
  obtain ⟨heog, hstop, hlength⟩ := endsAt_eq_false h
  have hlength' : ¬ nPrompt + n + 1 - nPrompt ≥ asI32 req.maxTokens := by omega
  have hcur : nPrompt + n + 1 = nPrompt + (n + 1 : Nat) := by omega
  rw [generateFrom, generateLoop]
  dsimp only
  rw [textOf_succ, heog, if_neg Bool.false_ne_true, hstop, if_neg Bool.false_ne_true,
    dif_neg hlength', add_stepBatch]
  dsimp only
  rw [← stepBatches_succ, hcur]
  constructor
  · intro e he
    rw [he]
  · intro hok
    rw [hok]
    rfl

/-- Up to the last token everything is decoded, and the loop ends with what `generated`
    says, unless a decode fails. -/
theorem generateFrom_eq_ok (decoded : List (Batch T)) (hk : IsLast m req sampled k)
    {g : Generated} (hn : n ≤ k) :
    (generateFrom m req sampled nPrompt decoded n).result = .ok g ↔
      (∀ j, n ≤ j → j < k → m.decode (decoded ++ stepBatches sampled nPrompt (j + 1)) = .ok ()) ∧
        generated m req sampled nPrompt k = g := by
  induction hd : k - n generalizing n with
  | zero =>
      obtain rfl : n = k := by omega
      rw [generateFrom_last nPrompt hk.1]
      simp only [Except.ok.injEq]
      exact ⟨fun hg => ⟨fun j hj hj' => absurd hj' (by omega), hg⟩, And.right⟩
  | succ d ih =>
      have hlt : n < k := by omega
      obtain ⟨hfailed, hnext⟩ := generateFrom_not_last nPrompt decoded (hk.2 n hlt)
      cases hdecode : m.decode (decoded ++ stepBatches sampled nPrompt (n + 1)) with
      | error e =>
          rw [hfailed e hdecode]
          refine iff_of_false nofun fun hall => ?_
          rw [hall.1 n (Nat.le_refl n) hlt] at hdecode
          cases hdecode
      | ok u =>
          rw [hnext hdecode, ih hlt (by omega)]
          refine and_congr_left fun _ => ⟨fun hall j hj hjk => ?_, fun hall j hj => ?_⟩
          · rcases Nat.eq_or_lt_of_le hj with rfl | hj
            · exact hdecode
            · exact hall j hj hjk
          · exact hall j (by omega)

end Generate

section Stream

variable (nPrompt : Int) {decoded : List (Batch T)} {n k : Nat}

/-- What `stream_sync` keeps of the first `n` tokens, for the stop sequences. -/
def emittedOf (m : LlamaModel T) (req : InferenceRequest) (sampled : Nat → T) (n : Nat) : String :=
  if req.stopSequences.isEmpty then "" else textOf m sampled n

/-- What `stream_sync` has sent after `n` tokens, all of them followed by another. -/
def sentOf (m : LlamaModel T) (sampled : Nat → T) (n : Nat) : List (Except String Token) :=
  (List.range n).map fun j => .ok ⟨m.piece (sampled j), false⟩

def lastToken (m : LlamaModel T) (sampled : Nat → T) (n : Nat) : Token :=
  ⟨if m.isEogToken (sampled n) then "" else m.piece (sampled n), true⟩

/-- The text of the last token is part of what `generate_sync` returns. -/
theorem generated_output (nPrompt : Int) (n : Nat) :
    (generated m req sampled nPrompt n).output
      = textOf m sampled n ++ (lastToken m sampled n).text := by
  rw [generated, lastToken]
  split_ifs with heog
  · rw [String.append_empty]
  · rfl
  · rfl

theorem lastToken_text_eq_empty {n : Nat} :
    (lastToken m sampled n).text = "" ↔
      m.isEogToken (sampled n) = true ∨ m.piece (sampled n) = "" := by
  rw [lastToken]
  cases m.isEogToken (sampled n) <;> simp

/-- The loop after `n` tokens, all of them followed by another. -/
def streamFrom (m : LlamaModel T) (req : InferenceRequest) (sampled : Nat → T) (nPrompt : Int)
    (decoded : List (Batch T)) (n : Nat) : Streamed T :=
  streamLoop m req none nPrompt sampled n (nPrompt + n) (emittedOf m req sampled n)
    (decoded ++ stepBatches sampled nPrompt n) (sentOf m sampled n)

theorem emittedOf_succ (m : LlamaModel T) (req : InferenceRequest) (sampled : Nat → T) (n : Nat) :
    (if req.stopSequences.isEmpty then emittedOf m req sampled n
      else emittedOf m req sampled n ++ m.piece (sampled n)) = emittedOf m req sampled (n + 1) := by
  cases hempty : req.stopSequences.isEmpty <;> simp [emittedOf, hempty, textOf]

/-- Not keeping the text when there is no stop sequence makes no difference. -/
theorem hitStop_emittedOf (m : LlamaModel T) (req : InferenceRequest) (sampled : Nat → T)
    (n : Nat) : (if req.stopSequences.isEmpty then false
      else req.hitStop (emittedOf m req sampled n)) = req.hitStop (textOf m sampled n) := by
  cases hempty : req.stopSequences.isEmpty with
  | false => simp [emittedOf, hempty]
  | true => simp [InferenceRequest.hitStop, List.isEmpty_iff.mp hempty]

theorem sentOf_succ (m : LlamaModel T) (sampled : Nat → T) (n : Nat) :
    sentOf m sampled n ++ [.ok ⟨m.piece (sampled n), false⟩] = sentOf m sampled (n + 1) := by
  rw [sentOf, sentOf, List.range_succ, List.map_append]
  rfl

theorem send_none {α : Type} (sent : List α) (msg : α) :
    send none sent msg = some (sent ++ [msg]) := rfl

theorem streamFrom_zero (decoded : List (Batch T)) :
    streamFrom m req sampled nPrompt decoded 0
      = streamLoop m req none nPrompt sampled 0 nPrompt "" decoded [] := by
  simp [streamFrom, stepBatches, emittedOf, sentOf, textOf]

theorem streamFrom_last (h : endsAt m req sampled n = true) :
    streamFrom m req sampled nPrompt decoded n
      = ⟨decoded ++ stepBatches sampled nPrompt n,
          sentOf m sampled n ++ [.ok (lastToken m sampled n)]⟩ := by
  have hnew : nPrompt + n - nPrompt + 1 = (n : Int) + 1 := by omega
  rw [streamFrom, streamLoop]
  dsimp only
  rw [hnew]
  cases heog : m.isEogToken (sampled n) with
  | true => simp [send_none, lastToken, heog]
  | false =>
      simp only [Bool.false_eq_true, if_false, emittedOf_succ, hitStop_emittedOf]
      rw [endsAt, heog] at h
      rw [h, send_none]
      simp [lastToken, heog]

/-- A token that is not the last is sent, and then decoded. -/
theorem streamFrom_not_last (decoded : List (Batch T)) (h : endsAt m req sampled n = false) :
    (∀ e, m.decode (decoded ++ stepBatches sampled nPrompt (n + 1)) = .error e →
      streamFrom m req sampled nPrompt decoded n
        = ⟨decoded ++ stepBatches sampled nPrompt (n + 1),
            sentOf m sampled (n + 1) ++ [.error ("decode step: " ++ e)]⟩) ∧
    (m.decode (decoded ++ stepBatches sampled nPrompt (n + 1)) = .ok () →
      streamFrom m req sampled nPrompt decoded n
        = streamFrom m req sampled nPrompt decoded (n + 1)) := by
  have heog := (endsAt_eq_false h).1
  have hnew : nPrompt + n - nPrompt + 1 = (n : Int) + 1 := by omega
  have hcur : nPrompt + n + 1 = nPrompt + (n + 1 : Nat) := by omega
  rw [streamFrom, streamLoop]
  dsimp only
  rw [hnew, heog]
  simp only [Bool.false_eq_true, if_false, emittedOf_succ, hitStop_emittedOf]
  rw [endsAt, heog] at h
  rw [h, send_none]
  dsimp only
  rw [dif_neg Bool.false_ne_true, add_stepBatch, sentOf_succ]
  dsimp only
  rw [← stepBatches_succ, hcur]
  constructor
  · intro e he
    rw [he]
    rfl
  · intro hok
    rw [hok]
    rfl

/-- When no decode fails, the loop sends the tokens up to the last. -/
theorem streamFrom_eq (hk : IsLast m req sampled k) (hn : n ≤ k)
    (hdecode : ∀ j, n ≤ j → j < k →
      m.decode (decoded ++ stepBatches sampled nPrompt (j + 1)) = .ok ()) :
    streamFrom m req sampled nPrompt decoded n
      = ⟨decoded ++ stepBatches sampled nPrompt k,
          sentOf m sampled k ++ [.ok (lastToken m sampled k)]⟩ := by
  induction hd : k - n generalizing n with
  | zero =>
      obtain rfl : n = k := by omega
      exact streamFrom_last nPrompt hk.1
  | succ d ih =>
      have hlt : n < k := by omega
      have hnext := (streamFrom_not_last nPrompt decoded (hk.2 n hlt)).2
      rw [hnext (hdecode n (Nat.le_refl n) hlt)]
      exact ih hlt (fun j hj => hdecode j (by omega)) (by omega)

end Stream

/-! ## The two functions -/

/-- The prompt is ready, and these are its batches. -/
structure Prepared (m : LlamaModel T) (req : InferenceRequest) (promptTokens : List T)
    (decoded : List (Batch T)) : Prop where
  tokens : m.strToToken (buildChatmlPrompt req.messages) = .ok promptTokens
  fits : promptTokens.length < min maxNCtx m.nCtxTrain
  context : m.newContext (min maxNCtx m.nCtxTrain) = .ok ()
  decoded : ∃ batch, decodePrompt m promptTokens = ⟨decoded, .ok batch⟩

theorem Prepared.generateSync_eq {promptTokens : List T} {decoded : List (Batch T)}
    (h : Prepared m req promptTokens decoded) (device : InferenceDevice) (durationMs : UInt64) :
    (generateSync m req device durationMs sampled).result
      = (generateFrom m req sampled promptTokens.length decoded 0).result.map
          (Generated.response req device durationMs promptTokens.length) := by
  obtain ⟨batch, hprompt⟩ := h.decoded
  rw [generateSync]
  dsimp only
  rw [h.tokens]
  dsimp only
  rw [if_neg (Nat.not_le_of_lt h.fits), h.context, hprompt, generateFrom_zero]

/-- `generate_sync` returns only when the prompt is ready. -/
theorem prepared_of_generateSync {device : InferenceDevice} {durationMs : UInt64}
    {resp : InferenceResponse}
    (h : (generateSync m req device durationMs sampled).result = .ok resp) :
    ∃ promptTokens decoded, Prepared m req promptTokens decoded := by
  rw [generateSync] at h
  dsimp only at h
  cases htokens : m.strToToken (buildChatmlPrompt req.messages) with
  | error e =>
      rw [htokens] at h
      cases h
  | ok promptTokens =>
      rw [htokens] at h
      dsimp only at h
      split_ifs at h with hfits
      cases hcontext : m.newContext (min maxNCtx m.nCtxTrain) with
      | error e =>
          rw [hcontext] at h
          cases h
      | ok u =>
          rw [hcontext] at h
          dsimp only at h
          rcases hprompt : decodePrompt m promptTokens with ⟨decoded, e | batch⟩
          · rw [hprompt] at h
            cases h
          · exact ⟨promptTokens, decoded, htokens, Nat.lt_of_not_le hfits, hcontext, batch, hprompt⟩

/-- It returns what the tokens up to the last make, and only when no decode up to there
    fails. -/
theorem Prepared.generateSync_eq_ok {promptTokens : List T} {decoded : List (Batch T)}
    (h : Prepared m req promptTokens decoded) {device : InferenceDevice} {durationMs : UInt64}
    {k : Nat} (hk : IsLast m req sampled k) {resp : InferenceResponse} :
    (generateSync m req device durationMs sampled).result = .ok resp ↔
      (∀ j < k,
        m.decode (decoded ++ stepBatches sampled promptTokens.length (j + 1)) = .ok ()) ∧
      (generated m req sampled promptTokens.length k).response req device durationMs
        promptTokens.length = resp := by
  have hloop := fun g => generateFrom_eq_ok (promptTokens.length : Int) decoded hk (g := g)
    (Nat.zero_le k)
  rw [h.generateSync_eq]
  cases hg : (generateFrom m req sampled promptTokens.length decoded 0).result with
  | error e =>
      refine iff_of_false nofun fun hall => ?_
      have hok := (hloop _).mpr ⟨fun j _ => hall.1 j, rfl⟩
      rw [hg] at hok
      cases hok
  | ok g =>
      obtain ⟨hdecode, rfl⟩ := (hloop g).mp hg
      constructor
      · intro hresp
        exact ⟨fun j => hdecode j (Nat.zero_le j), Except.ok.inj hresp⟩
      · rintro ⟨-, rfl⟩
        rfl

theorem Prepared.streamSync_eq {promptTokens : List T} {decoded : List (Batch T)}
    (h : Prepared m req promptTokens decoded) :
    streamSync m req none sampled = streamFrom m req sampled promptTokens.length decoded 0 := by
  obtain ⟨batch, hprompt⟩ := h.decoded
  rw [streamSync]
  dsimp only
  rw [h.context, h.tokens]
  dsimp only
  rw [if_neg (Nat.not_le_of_lt h.fits), hprompt, streamFrom_zero]

/-- The prompt does not depend on the mode. -/
theorem Prepared.stream {promptTokens : List T} {decoded : List (Batch T)} (stream : Bool)
    (h : Prepared m req promptTokens decoded) :
    Prepared m { req with stream := stream } promptTokens decoded :=
  ⟨h.tokens, h.fits, h.context, h.decoded⟩

/-- **The two loops.**  When `generate_sync` returns, its content is the text up to and with
    the last token, and `stream_sync` sends the same tokens, the last one marked. -/
theorem streamSync_of_generateSync {device : InferenceDevice} {durationMs : UInt64}
    {resp : InferenceResponse}
    (h : (generateSync m { req with stream := false } device durationMs sampled).result
      = .ok resp) :
    ∃ k, IsLast m req sampled k ∧
      resp.content = textOf m sampled k ++ (lastToken m sampled k).text ∧
      (streamSync m { req with stream := true } none sampled).sent
        = sentOf m sampled k ++ [.ok (lastToken m sampled k)] := by
  obtain ⟨promptTokens, decoded, hprepared⟩ := prepared_of_generateSync h
  obtain ⟨k, hk⟩ := exists_isLast m req sampled
  have hsync : IsLast m { req with stream := false } sampled k := hk
  have hstream : IsLast m { req with stream := true } sampled k := hk
  have hprepared' : Prepared m { req with stream := true } promptTokens decoded :=
    hprepared.stream true
  obtain ⟨hdecode, rfl⟩ := (hprepared.generateSync_eq_ok hsync).mp h
  refine ⟨k, hk, generated_output _ k, ?_⟩
  rw [hprepared'.streamSync_eq, streamFrom_eq _ hstream (Nat.zero_le k) fun j _ => hdecode j]

end Maranode.Inference
