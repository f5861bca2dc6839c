/-
  Maranode.Inference.Prompt

  `decode_prompt`: the pieces a prompt is submitted in.

  The loop submits the pieces one after the other and stops at the first that fails
  (`decodePromptLoop_eq`).  Together they are the prompt, token by token at its position, and
  the last piece is what stays in the batch.
-/
import Maranode.Inference.Llama

namespace Maranode.Inference

variable {T : Type}

/-! ## The tokens of a prompt -/

/-- Some tokens of a prompt of `n` tokens, from position `start` on. -/
def promptTokens (n : Nat) : (start : Nat) → List T → Batch T
  | _, [] => []
  | start, tok :: toks => ⟨tok, usizeAsI32 start, start == n - 1⟩ :: promptTokens n (start + 1) toks

theorem promptTokens_append (n start : Nat) (xs ys : List T) :
    promptTokens n start (xs ++ ys) =
      promptTokens n start xs ++ promptTokens n (start + xs.length) ys := by
  induction xs generalizing start with
  | nil => rfl
  | cons x xs ih =>
      have hlen : start + 1 + xs.length = start + (x :: xs).length := by
        rw [List.length_cons]
        omega
      rw [List.cons_append, promptTokens, promptTokens, ih, hlen, List.cons_append]

@[simp] theorem length_promptTokens (n start : Nat) (toks : List T) :
    (promptTokens n start toks).length = toks.length := by
  induction toks generalizing start with
  | nil => rfl
  | cons tok toks ih => rw [promptTokens, List.length_cons, ih, List.length_cons]

theorem map_token_promptTokens (n start : Nat) (toks : List T) :
    (promptTokens n start toks).map BatchToken.token = toks := by
  induction toks generalizing start with
  | nil => rfl
  | cons tok toks ih => rw [promptTokens, List.map_cons, ih]

theorem getElem?_promptTokens (n start : Nat) (toks : List T) (k : Nat) :
    (promptTokens n start toks)[k]? =
      toks[k]?.map fun tok => ⟨tok, usizeAsI32 (start + k), start + k == n - 1⟩ := by
  induction toks generalizing start k with
  | nil => rfl
  | cons tok toks ih =>
      rw [promptTokens]
      cases k with
      | zero => rfl
      | succ k =>
          have hpos : start + 1 + k = start + (k + 1) := by omega
          rw [List.getElem?_cons_succ, List.getElem?_cons_succ, ih, hpos]

/-- A batch with room takes all tokens of a piece. -/
theorem addPromptTokens_eq {n start : Nat} {toks : List T} {batch : Batch T}
    (h : batch.length + toks.length ≤ nBatch) :
    addPromptTokens n start batch toks = .ok (batch ++ promptTokens n start toks) := by
  induction toks generalizing start batch with
  | nil => rw [addPromptTokens, promptTokens, List.append_nil]
  | cons tok toks ih =>
      rw [List.length_cons] at h
      have hroom : batch.length < nBatch := by omega
      rw [addPromptTokens, Batch.add, if_pos hroom]
      dsimp only
      rw [ih, promptTokens, List.append_assoc, List.singleton_append]
      rw [List.length_append, List.length_singleton]
      omega

/-! ## Pieces -/

/-- The pieces from a position on. -/
def promptPieces (tokens : List T) (start : Nat) : List (Batch T) :=
  if _h : start < tokens.length then
    promptTokens tokens.length start ((tokens.drop start).take nBatch) ::
      promptPieces tokens (min (start + nBatch) tokens.length)
  else []
termination_by tokens.length - start
decreasing_by
  simp only [nBatch]
  omega

theorem promptPieces_of_lt {tokens : List T} {start : Nat} (h : start < tokens.length) :
    promptPieces tokens start =
      promptTokens tokens.length start ((tokens.drop start).take nBatch) ::
        promptPieces tokens (min (start + nBatch) tokens.length) := by
  rw [promptPieces, dif_pos h]

theorem promptPieces_of_le {tokens : List T} {start : Nat} (h : tokens.length ≤ start) :
    promptPieces tokens start = [] := by
  rw [promptPieces, dif_neg (Nat.not_lt.mpr h)]

/-- The next piece ends closer to the end of the prompt. -/
theorem left_lt {n start : Nat} (h : start < n) : n - min (start + nBatch) n < n - start := by
  simp only [nBatch]
  omega

/-- The pieces are the prompt, cut. -/
theorem flatten_promptPieces (tokens : List T) (start : Nat) :
    (promptPieces tokens start).flatten =
      promptTokens tokens.length start (tokens.drop start) := by
  induction hleft : tokens.length - start using Nat.strong_induction_on generalizing start with
  | _ left ih =>
      by_cases hstart : start < tokens.length
      · have hnext := ih _ (hleft ▸ left_lt hstart) _ rfl
        rw [promptPieces_of_lt hstart, List.flatten_cons, hnext]
        have hrest : tokens.drop (min (start + nBatch) tokens.length) =
            (tokens.drop start).drop nBatch := by
          rw [List.drop_drop]
          by_cases hlast : start + nBatch ≤ tokens.length
          · rw [Nat.min_eq_left hlast]
          · have hover : tokens.length ≤ start + nBatch := by omega
            rw [Nat.min_eq_right hover, List.drop_of_length_le hover,
              List.drop_of_length_le (Nat.le_refl _)]
        have hpos : min (start + nBatch) tokens.length =
            start + ((tokens.drop start).take nBatch).length := by
          rw [List.length_take, List.length_drop]
          omega
        rw [hrest, hpos, ← promptTokens_append, List.take_append_drop]
      · rw [promptPieces_of_le (Nat.not_lt.mp hstart),
          List.drop_of_length_le (Nat.not_lt.mp hstart)]
        rfl

theorem length_of_mem_promptPieces {tokens : List T} {start : Nat} {piece : Batch T}
    (h : piece ∈ promptPieces tokens start) : 1 ≤ piece.length ∧ piece.length ≤ nBatch := by
  induction hleft : tokens.length - start using Nat.strong_induction_on generalizing start with
  | _ left ih =>
      by_cases hstart : start < tokens.length
      · rw [promptPieces_of_lt hstart] at h
        rcases List.mem_cons.mp h with rfl | h
        · rw [length_promptTokens, List.length_take, List.length_drop]
          have hbatch : 0 < nBatch := by decide
          omega
        · exact ih _ (hleft ▸ left_lt hstart) h rfl
      · rw [promptPieces_of_le (Nat.not_lt.mp hstart)] at h
        cases h

/-! ## Submitting -/

variable {m : LlamaModel T}

/-- Decode the pieces in order, up to the first that fails; `batch` is what is in the batch
    before. -/
def submitAll (m : LlamaModel T) (decoded : List (Batch T)) (batch : Batch T) :
    List (Batch T) → Decoded T (Batch T)
  | [] => ⟨decoded, .ok batch⟩
  | piece :: pieces =>
      match m.decode (decoded ++ [piece]) with
      | .error _ => ⟨decoded ++ [piece], .error "prompt decode"⟩
      | .ok () => submitAll m (decoded ++ [piece]) piece pieces

/-- What was in the batch is gone when there is a piece to submit. -/
theorem submitAll_eq {pieces : List (Batch T)} {batch batch' : Batch T}
    (h : pieces = [] → batch = batch') (decoded : List (Batch T)) :
    submitAll m decoded batch pieces = submitAll m decoded batch' pieces := by
  cases pieces with
  | nil => rw [h rfl]
  | cons piece pieces => rfl

/-- The loop submits the pieces that are left, as long as it starts each one with an empty
    batch. -/
theorem decodePromptLoop_eq (tokens : List T) (start : Nat) (batch : Batch T)
    (decoded : List (Batch T)) (hbatch : start < tokens.length → batch = []) :
    decodePromptLoop m tokens start batch decoded =
      submitAll m decoded batch (promptPieces tokens start) := by
  induction hleft : tokens.length - start using Nat.strong_induction_on
    generalizing start batch decoded with
  | _ left ih =>
      rw [decodePromptLoop]
      by_cases hstart : start < tokens.length
      · obtain rfl := hbatch hstart
        have hroom : ([] : Batch T).length + ((tokens.drop start).take nBatch).length ≤ nBatch := by
          rw [List.length_nil, List.length_take]
          omega
        rw [dif_pos hstart, addPromptTokens_eq hroom, promptPieces_of_lt hstart, List.nil_append]
        dsimp only
        rw [submitAll]
        cases m.decode (decoded ++
            [promptTokens tokens.length start ((tokens.drop start).take nBatch)]) with
        | error e => rfl
        | ok u =>
            dsimp only
            -- The batch is cleared unless this was the last piece.
            rw [ih _ (hleft ▸ left_lt hstart) _ _ _ (fun hmore => if_pos hmore) rfl]
            refine submitAll_eq (fun hlast => if_neg fun hmore => ?_) _
            rw [promptPieces_of_lt hmore] at hlast
            cases hlast
      · rw [dif_neg hstart, promptPieces_of_le (Nat.not_lt.mp hstart)]
        rfl

/-- Everything is submitted when no decode fails. -/
theorem submitAll_of_ok {pieces decoded : List (Batch T)} {batch : Batch T}
    (h : ∀ k < pieces.length, m.decode (decoded ++ pieces.take (k + 1)) = .ok ()) :
    submitAll m decoded batch pieces = ⟨decoded ++ pieces, .ok (pieces.getLastD batch)⟩ := by
  induction pieces generalizing decoded batch with
  | nil => rw [submitAll, List.append_nil, List.getLastD_nil]
  | cons piece pieces ih =>
      have hfirst : m.decode (decoded ++ [piece]) = .ok () := h 0 (Nat.zero_lt_succ _)
      rw [submitAll, hfirst]
      dsimp only
      rw [ih fun k hk => ?_, List.append_assoc, List.singleton_append, List.getLastD_cons]
      rw [List.append_assoc, List.singleton_append]
      exact h (k + 1) (Nat.succ_lt_succ hk)

/-- The first decode that fails is the last one. -/
theorem submitAll_of_error {pieces decoded : List (Batch T)} {batch : Batch T} {k : Nat}
    (hk : k < pieces.length)
    (hbefore : ∀ j < k, m.decode (decoded ++ pieces.take (j + 1)) = .ok ()) {e : String}
    (he : m.decode (decoded ++ pieces.take (k + 1)) = .error e) :
    submitAll m decoded batch pieces =
      ⟨decoded ++ pieces.take (k + 1), .error "prompt decode"⟩ := by
  -- The induction is on the pieces; the first one that fails ends the loop.
  induction pieces generalizing decoded batch k with
  | nil => exact absurd hk (Nat.not_lt_zero k)
  | cons piece pieces ih =>
      cases k with
      | zero =>
          have hfirst : m.decode (decoded ++ [piece]) = .error e := he
          rw [submitAll, hfirst]
          rfl
      | succ k =>
          have hfirst : m.decode (decoded ++ [piece]) = .ok () := hbefore 0 (Nat.zero_lt_succ k)
          -- The pieces behind the first are counted from one less.
          have hshift : ∀ j, decoded ++ [piece] ++ pieces.take j =
              decoded ++ (piece :: pieces).take (j + 1) := by
            intro j
            rw [List.append_assoc, List.singleton_append, List.take_succ_cons]
          have hbefore' : ∀ j < k,
              m.decode (decoded ++ [piece] ++ pieces.take (j + 1)) = .ok () := by
            intro j hj
            rw [hshift]
            exact hbefore (j + 1) (Nat.succ_lt_succ hj)
          have he' : m.decode (decoded ++ [piece] ++ pieces.take (k + 1)) = .error e := by
            rw [hshift]
            exact he
          rw [submitAll, hfirst]
          dsimp only
          rw [ih (Nat.lt_of_succ_lt_succ hk) hbefore' he', hshift]

/-! ## decode_prompt -/

/-- The pieces are the prompt, with its tokens at some positions and the logits of the last
    one wanted. -/
structure IsPrompt (pos : Nat → Int) (tokens : List T) (pieces : List (Batch T)) : Prop where
  tokens_eq : pieces.flatten.map BatchToken.token = tokens
  sizes : ∀ piece ∈ pieces, 1 ≤ piece.length ∧ piece.length ≤ nBatch
  positions : ∀ k t, pieces.flatten[k]? = some t → t.pos = pos k
  logits : ∀ k t, pieces.flatten[k]? = some t → (t.logits = true ↔ k + 1 = tokens.length)

/-- The prompt is submitted in pieces, the last of which stays in the batch and ends with the
    last token; when a decode fails, nothing is submitted after it. -/
def SubmitsPrompt (pos : Nat → Int) (m : LlamaModel T) (tokens : List T) : Prop :=
  ∃ pieces last, IsPrompt pos tokens pieces ∧ pieces.getLast? = some last ∧
    (∃ t, last[last.length - 1]? = some t ∧ tokens.getLast? = some t.token) ∧
    ((∀ k < pieces.length, m.decode (pieces.take (k + 1)) = .ok ()) →
      decodePrompt m tokens = ⟨pieces, .ok last⟩) ∧
    ∀ k < pieces.length, (∀ j < k, m.decode (pieces.take (j + 1)) = .ok ()) →
      ∀ e, m.decode (pieces.take (k + 1)) = .error e →
        decodePrompt m tokens = ⟨pieces.take (k + 1), .error "prompt decode"⟩

theorem flatten_promptPieces_zero (tokens : List T) :
    (promptPieces tokens 0).flatten = promptTokens tokens.length 0 tokens := by
  rw [flatten_promptPieces, List.drop_zero]

theorem isPrompt_promptPieces (tokens : List T) :
    IsPrompt usizeAsI32 tokens (promptPieces tokens 0) where
  tokens_eq := by
    rw [flatten_promptPieces_zero, map_token_promptTokens]
  sizes _ h := length_of_mem_promptPieces h
  positions := by
    intro k t h
    rw [flatten_promptPieces_zero, getElem?_promptTokens, Nat.zero_add] at h
    obtain ⟨tok, -, rfl⟩ := Option.map_eq_some_iff.mp h
    dsimp only
  logits := by
    intro k t h
    rw [flatten_promptPieces_zero, getElem?_promptTokens, Nat.zero_add] at h
    obtain ⟨tok, htok, rfl⟩ := Option.map_eq_some_iff.mp h
    have hk := (List.getElem?_eq_some_iff.mp htok).1
    rw [beq_iff_eq]
    omega

/-- The last token of the last piece is the last token. -/
theorem getLast?_of_isPrompt {pos : Nat → Int} {tokens : List T} {pieces : List (Batch T)}
    (h : IsPrompt pos tokens pieces) {last : Batch T} (hlast : pieces.getLast? = some last) :
    ∃ t, last[last.length - 1]? = some t ∧ tokens.getLast? = some t.token := by
  obtain ⟨front, rfl⟩ := List.getLast?_eq_some_iff.mp hlast
  have hne : last ≠ [] := by
    have hsize := (h.sizes last (List.mem_append_right _ List.mem_cons_self)).1
    rintro rfl
    exact absurd hsize (Nat.not_succ_le_zero 0)
  obtain ⟨init, t, rfl⟩ := List.eq_nil_or_concat last |>.resolve_left hne
  refine ⟨t, ?_, ?_⟩
  · rw [← List.getLast?_eq_getElem?, List.concat_eq_append, List.getLast?_concat]
  · rw [← h.tokens_eq, List.flatten_append, List.flatten_singleton, List.concat_eq_append,
      ← List.append_assoc, List.map_append, List.map_singleton, List.getLast?_concat]

theorem decodePrompt_eq (m : LlamaModel T) (tokens : List T) :
    decodePrompt m tokens = submitAll m [] [] (promptPieces tokens 0) :=
  decodePromptLoop_eq tokens 0 [] [] fun _ => rfl

theorem submitsPrompt (m : LlamaModel T) {tokens : List T} (h : tokens ≠ []) :
    SubmitsPrompt usizeAsI32 m tokens := by
  have hne : promptPieces tokens 0 ≠ [] := by
    rw [promptPieces_of_lt (List.length_pos_iff.mpr h)]
    exact List.cons_ne_nil _ _
  have hlast : (promptPieces tokens 0).getLast? = some ((promptPieces tokens 0).getLast hne) :=
    List.getLast?_eq_some_getLast hne
  refine ⟨_, _, isPrompt_promptPieces tokens, hlast,
    getLast?_of_isPrompt (isPrompt_promptPieces tokens) hlast, fun hok => ?_,
    fun k hk hbefore e he => ?_⟩
  · rw [decodePrompt_eq, submitAll_of_ok hok, List.getLastD_eq_getLast?, hlast]
    rfl
  · rw [decodePrompt_eq, submitAll_of_error hk hbefore he]
    rfl

/-- Positions below `2 ^ 31` are what they are. -/
theorem usizeAsI32_of_lt {n : Nat} (h : n < 2 ^ 31) : usizeAsI32 n = n := by
  unfold usizeAsI32
  rw [Int.bmod_def]
  split <;> omega

theorem IsPrompt.of_le {tokens : List T} {pieces : List (Batch T)}
    (h : IsPrompt usizeAsI32 tokens pieces) (hlen : tokens.length ≤ 2 ^ 31) :
    IsPrompt (fun k => k) tokens pieces := by
  refine ⟨h.tokens_eq, h.sizes, fun k t hk => ?_, h.logits⟩
  have hlt := (List.getElem?_eq_some_iff.mp hk).1
  have htokens := congrArg List.length h.tokens_eq
  rw [List.length_map] at htokens
  rw [h.positions k t hk, usizeAsI32_of_lt (by omega)]

/-- **A prompt is submitted whole.**  Each token is at its index as an `i32`, which is the
    index itself for up to `2 ^ 31` tokens. -/
theorem decodePrompt_submits (m : LlamaModel T) {tokens : List T} (h : tokens ≠ []) :
    SubmitsPrompt usizeAsI32 m tokens ∧
      (tokens.length ≤ 2 ^ 31 → SubmitsPrompt (fun k => k) m tokens) := by
  have hsubmits := submitsPrompt m h
  refine ⟨hsubmits, fun hlen => ?_⟩
  obtain ⟨pieces, last, hprompt, hrest⟩ := hsubmits
  exact ⟨pieces, last, hprompt.of_le hlen, hrest⟩

/-- A model that decodes everything. -/
def quietModel : LlamaModel Int where
  nCtxTrain := 32768
  strToToken _ := .ok []
  newContext _ := .ok ()
  isEogToken _ := false
  tokenToStr _ := .ok ""
  decode _ := .ok ()

/-- A prompt of one token more than a batch takes. -/
theorem decodePrompt_submits_twoBatches :
    SubmitsPrompt (fun k => k) quietModel (List.replicate (nBatch + 1) 7) := by
  have hne : List.replicate (nBatch + 1) (7 : Int) ≠ [] := List.cons_ne_nil _ _
  refine (decodePrompt_submits quietModel hne).2 ?_
  rw [List.length_replicate]
  decide

/-- Of more tokens not all are at their index. -/
theorem not_submitsPrompt_of_lt {tokens : List Int} (h : 2 ^ 31 < tokens.length) :
    ¬ SubmitsPrompt (fun k => k) quietModel tokens := by
  rintro ⟨pieces, last, hprompt, -, -, hok, -⟩
  have hne : tokens ≠ [] := by
    rintro rfl
    exact absurd h (Nat.not_lt_zero _)
  obtain ⟨pieces', last', hprompt', -, -, hok', -⟩ := submitsPrompt quietModel hne
  have hsame := (hok fun _ _ => rfl).symm.trans (hok' fun _ _ => rfl)
  obtain rfl : pieces = pieces' := congrArg Decoded.decoded hsame
  have hlen := congrArg List.length hprompt.tokens_eq
  rw [List.length_map] at hlen
  have hk : 2 ^ 31 < pieces.flatten.length := hlen ▸ h
  have hget := List.getElem?_eq_getElem hk
  have hpos := (hprompt.positions _ _ hget).symm.trans (hprompt'.positions _ _ hget)
  revert hpos
  decide

theorem not_submitsPrompt :
    ¬ SubmitsPrompt (fun k => k) quietModel (List.replicate (2 ^ 31 + 1) 0) := by
  refine not_submitsPrompt_of_lt ?_
  rw [List.length_replicate]
  exact Nat.lt_succ_self _

end Maranode.Inference
