/-
  Maranode.Inference.Counts

  The numbers a generation returns: how many tokens it is said to have produced, how many
  it did produce, and why it ended.

  `generate_sync` advances its counter after the test for a stop sequence and compares it
  with `max_tokens` after that, as an `i32`.  So the token that completes a stop sequence
  is in the text and not in the count, and one token is produced before the limit is
  looked at.
-/
import Maranode.Inference.Llama

namespace Maranode.Inference

open Maranode.Common

variable {T : Type} {m : LlamaModel T} {req : InferenceRequest} {sampled : Nat → T}

/-- From `2^31` on a `u32` is a negative `i32`. -/
theorem asI32_eq (n : UInt32) :
    asI32 n = if n.toNat < 2 ^ 31 then (n.toNat : Int) else (n.toNat : Int) - 2 ^ 32 := by
  have hint : n.toInt32.toInt = n.toBitVec.toInt := rfl
  have hnat : n.toBitVec.toNat = n.toNat := rfl
  rw [asI32, hint, BitVec.toInt_eq_toNat_cond, hnat]
  split_ifs <;> omega

/-- A limit that is positive as an `i32`. -/
def PositiveLimit (n : UInt32) : Prop := 0 < n.toNat ∧ n.toNat < 2 ^ 31

theorem asI32_of_positive {n : UInt32} (h : PositiveLimit n) : asI32 n = n.toNat := by
  rw [asI32_eq, if_pos h.2]

theorem asI32_of_not_positive {n : UInt32} (h : ¬ PositiveLimit n) : asI32 n ≤ 0 := by
  have hlt := n.toNat_lt
  rw [asI32_eq]
  split_ifs with hsmall
  · have hzero : n.toNat = 0 := by
      by_contra hne
      exact h ⟨Nat.pos_of_ne_zero hne, hsmall⟩
    omega
  · omega

/-! ## What is counted -/

/-- Of the first `n` sampled tokens, those that are no end token. -/
def keptTokens (m : LlamaModel T) (sampled : Nat → T) (n : Nat) : List T :=
  ((List.range n).map sampled).filter fun t => !m.isEogToken t

/-- The text of tokens. -/
def textOfTokens (m : LlamaModel T) (ts : List T) : String :=
  ts.foldl (fun text t => text ++ m.piece t) ""

theorem keptTokens_succ (n : Nat) :
    keptTokens m sampled (n + 1) =
      keptTokens m sampled n ++ if m.isEogToken (sampled n) then [] else [sampled n] := by
  rw [keptTokens, List.range_succ, List.map_append, List.filter_append, ← keptTokens]
  congr 1
  cases heog : m.isEogToken (sampled n) with
  | true => simp [heog]
  | false => simp [heog]

theorem textOfTokens_append_singleton (ts : List T) (t : T) :
    textOfTokens m (ts ++ [t]) = textOfTokens m ts ++ m.piece t := by
  rw [textOfTokens, List.foldl_append]
  rfl

/-- Before the first end token all tokens are kept. -/
theorem keptTokens_of_none {n : Nat} (h : ∀ j < n, m.isEogToken (sampled j) = false) :
    (keptTokens m sampled n).length = n ∧
      textOfTokens m (keptTokens m sampled n) = textOf m sampled n := by
  induction n with
  | zero => exact ⟨rfl, rfl⟩
  | succ n ih =>
      obtain ⟨hlen, htext⟩ := ih fun j hj => h j (by omega)
      rw [keptTokens_succ, h n (by omega), if_neg Bool.false_ne_true]
      refine ⟨?_, ?_⟩
      · rw [List.length_append, hlen, List.length_singleton]
      · rw [textOfTokens_append_singleton, htext]
        rfl

/-- The last token comes within the limit, unless it is the first. -/
theorem IsLast.lt_limit {k : Nat} (h : IsLast m req sampled k) :
    k = 0 ∨ (k : Int) < asI32 req.maxTokens := by
  rcases Nat.eq_zero_or_pos k with hzero | hpos
  · exact .inl hzero
  · have hnot := (endsAt_eq_false (h.2 (k - 1) (by omega))).2.2
    right
    omega

theorem IsLast.not_eog {k : Nat} (h : IsLast m req sampled k) :
    ∀ j < k, m.isEogToken (sampled j) = false :=
  fun j hj => (endsAt_eq_false (h.2 j hj)).1

/-- Neither an end token nor a stop sequence ends the generation with the token. -/
def RunsOn (m : LlamaModel T) (req : InferenceRequest) (sampled : Nat → T) (k : Nat) : Prop :=
  m.isEogToken (sampled k) = false ∧ req.hitStop (textOf m sampled (k + 1)) = false

instance (m : LlamaModel T) (req : InferenceRequest) (sampled : Nat → T) (k : Nat) :
    Decidable (RunsOn m req sampled k) := inferInstanceAs (Decidable (_ ∧ _))

instance (n : UInt32) : Decidable (PositiveLimit n) := inferInstanceAs (Decidable (_ ∧ _))

/-- A generation that runs on ends at the limit: with the token it allows, or with the
    first when it is no positive `i32`. -/
theorem IsLast.limit {k : Nat} (h : IsLast m req sampled k) (hruns : RunsOn m req sampled k) :
    (PositiveLimit req.maxTokens → k + 1 = req.maxTokens.toNat) ∧
      (¬ PositiveLimit req.maxTokens → k = 0) := by
  have hlast := h.1
  rw [endsAt, hruns.1, hruns.2, Bool.false_or, Bool.false_or, decide_eq_true_eq] at hlast
  constructor
  · intro hpos
    have hlimit := h.lt_limit
    have hnat := hpos.1
    rw [asI32_of_positive hpos] at hlast hlimit
    omega
  · intro hneg
    have hlimit := asI32_of_not_positive hneg
    rcases h.lt_limit with hzero | hlt
    · exact hzero
    · omega

theorem toNat_ofInt_sub {n : Nat} (h : n < 2 ^ 32) (nPrompt : Int) :
    (UInt32.ofInt (nPrompt + n - nPrompt)).toNat = n := by
  have hdiff : nPrompt + n - nPrompt = (n : Int) := by omega
  rw [hdiff, UInt32.ofInt]
  simp
  omega

/-! ## The numbers of a response -/

/-- The response, and what the stream sends, are right about the first `k + 1` sampled
    tokens, those of the generation. -/
structure CountedAt (m : LlamaModel T) (req : InferenceRequest) (sampled : Nat → T) (k : Nat)
    (resp : InferenceResponse) (sent : List (Except String Token)) : Prop where
  content : resp.content = textOfTokens m (keptTokens m sampled (k + 1))
  tokensOut : resp.tokensOut.toNat = (keptTokens m sampled (k + 1)).length
  atMost : resp.tokensOut.toNat ≤ req.maxTokens.toNat
  finishReason : resp.finishReason = .length ↔
    RunsOn m req sampled k ∧ req.maxTokens.toNat ≤ resp.tokensOut.toNat
  sent : sent.length = k + 1 ∧
    (keptTokens m sampled sent.length).length = resp.tokensOut.toNat

/-- The same for the tokens up to and with the last. -/
def Counted (m : LlamaModel T) (req : InferenceRequest) (sampled : Nat → T)
    (resp : InferenceResponse) (sent : List (Except String Token)) : Prop :=
  ∃ k, IsLast m req sampled k ∧ CountedAt m req sampled k resp sent

/-- The generation ends with an end token, or with none and with no stop sequence at a
    limit that is positive as an `i32`. -/
def EndsCounted (m : LlamaModel T) (req : InferenceRequest) (sampled : Nat → T) : Prop :=
  ∀ k, IsLast m req sampled k →
    m.isEogToken (sampled k) = true ∨ RunsOn m req sampled k ∧ PositiveLimit req.maxTokens

/-- What the response says of the tokens up to the last. -/
theorem response_generated {k : Nat} (hk : IsLast m req sampled k) (nPrompt : Int)
    (device : InferenceDevice) (durationMs : UInt64) :
    ((generated m req sampled nPrompt k).response req device durationMs nPrompt).tokensOut.toNat
      = (if RunsOn m req sampled k then k + 1 else k) ∧
    (((generated m req sampled nPrompt k).response req device durationMs nPrompt).finishReason
      = .length ↔ RunsOn m req sampled k) := by
  -- The loop's end lies under the limit, so the casts to 32 bits change nothing.
  have hlimit := hk.lt_limit
  have hasI32 : asI32 req.maxTokens < 2 ^ 31 := by
    have hlt := req.maxTokens.toNat_lt
    rw [asI32_eq]
    split_ifs <;> omega
  have hk32 : k + 1 < 2 ^ 32 := by omega
  rw [Generated.response]
  dsimp only
  -- An end-of-generation token is not counted.
  by_cases heog : m.isEogToken (sampled k) = true
  · have hruns : ¬ RunsOn m req sampled k := fun h => Bool.false_ne_true (h.1.symm.trans heog)
    rw [generated, if_pos heog, if_neg hruns]
    exact ⟨toNat_ofInt_sub (by omega) nPrompt, iff_of_false (fun h => by cases h) hruns⟩
  rw [generated, if_neg heog]
  -- A token that completes a stop sequence is dropped from the count as well.
  by_cases hstop : req.hitStop (textOf m sampled (k + 1)) = true
  · have hruns : ¬ RunsOn m req sampled k := fun h => Bool.false_ne_true (h.2.symm.trans hstop)
    rw [if_pos hstop, if_neg hruns]
    exact ⟨toNat_ofInt_sub (by omega) nPrompt, iff_of_false (fun h => by cases h) hruns⟩
  -- The loop ran out at the limit, and every token counts.
  · have hruns : RunsOn m req sampled k :=
      ⟨Bool.eq_false_of_not_eq_true heog, Bool.eq_false_of_not_eq_true hstop⟩
    rw [if_neg hstop, if_pos hruns]
    have hcast : nPrompt + k + 1 = nPrompt + (k + 1 : Nat) := by omega
    dsimp only
    rw [hcast]
    exact ⟨toNat_ofInt_sub hk32 nPrompt, iff_of_true rfl hruns⟩

/-- The tokens up to the last: all but an end token are kept. -/
theorem IsLast.keptTokens {k : Nat} (h : IsLast m req sampled k) :
    (keptTokens m sampled (k + 1)).length = (if m.isEogToken (sampled k) then k else k + 1) ∧
      textOfTokens m (Inference.keptTokens m sampled (k + 1))
        = textOf m sampled k ++ (lastToken m sampled k).text := by
  obtain ⟨hlen, htext⟩ := keptTokens_of_none h.not_eog
  rw [keptTokens_succ, lastToken]
  by_cases heog : m.isEogToken (sampled k) = true
  · rw [if_pos heog, if_pos heog, if_pos heog, List.append_nil, String.append_empty]
    exact ⟨hlen, htext⟩
  · rw [if_neg heog, if_neg heog, if_neg heog, textOfTokens_append_singleton, htext,
      List.length_append, hlen]
    exact ⟨rfl, rfl⟩

/-- When `generate_sync` returns, given the last token. -/
theorem counted_iff_of_isLast {device : InferenceDevice} {durationMs : UInt64}
    {resp : InferenceResponse} {k : Nat} (hk : IsLast m req sampled k)
    (h : (generateSync m { req with stream := false } device durationMs sampled).result
      = .ok resp) :
    Counted m req sampled resp (streamSync m { req with stream := true } none sampled).sent ↔
      m.isEogToken (sampled k) = true ∨ RunsOn m req sampled k ∧ PositiveLimit req.maxTokens := by
  -- The streamed loop sends what the plain one collects, token by token.
  obtain ⟨j, hj, hcontent, hsent⟩ := streamSync_of_generateSync h
  obtain rfl := hj.unique hk
  obtain ⟨hkept, htext⟩ := hk.keptTokens
  obtain ⟨promptTokens, decoded, hprepared⟩ := prepared_of_generateSync h
  have hsync : IsLast m { req with stream := false } sampled j := hk
  obtain ⟨-, hresp⟩ := (hprepared.generateSync_eq_ok hsync).mp h
  obtain ⟨hout, hfinish⟩ := response_generated hsync promptTokens.length device durationMs
  rw [hresp] at hout hfinish
  have hruns : RunsOn m { req with stream := false } sampled j ↔ RunsOn m req sampled j := Iff.rfl
  rw [hruns] at hfinish
  have hlength : (streamSync m { req with stream := true } none sampled).sent.length = j + 1 := by
    rw [hsent, List.length_append, sentOf, List.length_map, List.length_range]
    rfl
  have hone : Counted m req sampled resp
        (streamSync m { req with stream := true } none sampled).sent ↔
      CountedAt m req sampled j resp
        (streamSync m { req with stream := true } none sampled).sent := by
    -- There is one last position, so the counts are spoken of at it.
    constructor
    · rintro ⟨i, hi, hcounted⟩
      rwa [hk.unique hi]
    · exact fun hcounted => ⟨j, hk, hcounted⟩
  rw [hone]
  -- Ending with the model's own token, all the counts fit.
  by_cases heog : m.isEogToken (sampled j) = true
  · have hnot : ¬ RunsOn m req sampled j := fun hr => Bool.false_ne_true (hr.1.symm.trans heog)
    have hnot' : ¬ RunsOn m { req with stream := false } sampled j := hnot
    rw [if_neg hnot'] at hout
    rw [if_pos heog] at hkept
    refine iff_of_true ⟨hcontent.trans htext.symm, hout.trans hkept.symm, ?_, ?_, hlength, ?_⟩
      (.inl heog)
    · rw [hout]
      rcases hk.lt_limit with hzero | hlt
      · omega
      · rw [asI32_eq] at hlt
        split_ifs at hlt <;> omega
    · exact hfinish.trans (iff_of_false hnot fun hboth => hnot hboth.1)
    · rw [hlength, hkept, hout]
  · rw [if_neg heog] at hkept
    rw [or_iff_right heog]
    -- Running on, the counts fit exactly when the limit is positive.
    by_cases hr : RunsOn m req sampled j
    · have hr' : RunsOn m { req with stream := false } sampled j := hr
      rw [if_pos hr'] at hout
      obtain ⟨hpositive, hzero⟩ := hk.limit hr
      constructor
      -- With a limit that is not positive one token comes out all the same.
      · intro hcounted
        refine ⟨hr, ?_⟩
        by_contra hneg
        obtain rfl := hzero hneg
        have hatMost := hcounted.atMost
        have hreached := (hcounted.finishReason.mp (hfinish.mpr hr)).2
        rw [hout] at hatMost hreached
        exact hneg ⟨by omega, by omega⟩
      · rintro ⟨-, hpos⟩
        have hmax := hpositive hpos
        refine ⟨hcontent.trans htext.symm, hout.trans hkept.symm, ?_, ?_, hlength, ?_⟩
        · rw [hout, hmax]
        · exact hfinish.trans (iff_of_true hr ⟨hr, by rw [hout, hmax]⟩)
        · rw [hlength, hkept, hout]
    -- A stop sequence leaves one token out of the count that the text still has.
    · have hr' : ¬ RunsOn m { req with stream := false } sampled j := hr
      rw [if_neg hr'] at hout
      refine iff_of_false (fun hcounted => ?_) fun hboth => hr hboth.1
      have htokens := hcounted.tokensOut
      rw [hout, hkept] at htokens
      omega

/-- **The numbers of a generation.**  When `generate_sync` returns, its numbers and the
    tokens of the stream are right exactly when the generation ends with an end token, or
    at a positive limit. -/
theorem counted_iff {device : InferenceDevice} {durationMs : UInt64} {resp : InferenceResponse}
    (h : (generateSync m { req with stream := false } device durationMs sampled).result
      = .ok resp) :
    Counted m req sampled resp (streamSync m { req with stream := true } none sampled).sent ↔
      EndsCounted m req sampled := by
  obtain ⟨k, hk⟩ := exists_isLast m req sampled
  rw [counted_iff_of_isLast hk h]
  constructor
  · intro hlast j hj
    rwa [← hk.unique hj]
  · exact fun hall => hall k hk

/-! ## A model on words -/

/-- A token is a word, and the empty one ends the text.  The prompt is one token, and there
    is no room for a token at a position past the context. -/
def wordModel (nCtx : Nat) : LlamaModel String where
  nCtxTrain := nCtx
  strToToken := fun _ => .ok ["<s>"]
  newContext := fun _ => .ok ()
  isEogToken := fun t => t == ""
  tokenToStr := .ok
  decode := fun batches =>
    if (batches.getLastD []).all fun t => decide (t.pos < nCtx) then .ok ()
    else .error "NoKvCacheSlot"

def wordRequest (maxTokens : UInt32) (stopSequences : List String) : InferenceRequest where
  requestId := "7d3e"
  model := ⟨"tiny", "words"⟩
  modelPath := "blobs/sha256-00"
  messages := [⟨.user, "hi"⟩]
  temperature := ⟨0, F32.finite_zero⟩
  maxTokens := maxTokens
  stopSequences := stopSequences
  stream := false
  seed := none
  deterministic := false

/-- `all is well`, and no more. -/
def wordsSampled : Nat → String
  | 0 => "all "
  | 1 => "is "
  | 2 => "well"
  | _ => ""

/-- A prompt of one token. -/
theorem decodePrompt_singleton {t : T} (h : m.decode [[⟨t, 0, true⟩]] = .ok ()) :
    decodePrompt m [t] = ⟨[[⟨t, 0, true⟩]], .ok [⟨t, 0, true⟩]⟩ := by
  have hend : ∀ (batch : Batch T) (decoded : List (Batch T)),
      decodePromptLoop m [t] 1 batch decoded = ⟨decoded, .ok batch⟩ := by
    intro batch decoded
    rw [decodePromptLoop]
    rfl
  have hadd : addPromptTokens 1 0 [] (([t].drop 0).take nBatch) = .ok [⟨t, 0, true⟩] := rfl
  have hlt : 0 < [t].length := Nat.zero_lt_one
  rw [decodePrompt, decodePromptLoop, dif_pos hlt]
  simp only [List.length_singleton, hadd, List.nil_append, h]
  exact hend _ _

theorem decodePrompt_wordModel (n : Nat) :
    decodePrompt (wordModel (n + 2)) ["<s>"]
      = ⟨[[⟨"<s>", 0, true⟩]], .ok [⟨"<s>", 0, true⟩]⟩ := by
  refine decodePrompt_singleton (if_pos ?_)
  simp
  omega

theorem prepared_wordRequest (n : Nat) (maxTokens : UInt32) (stopSequences : List String) :
    Prepared (wordModel (n + 2)) (wordRequest maxTokens stopSequences) ["<s>"]
      [[⟨"<s>", 0, true⟩]] :=
  ⟨rfl, lt_min (by decide) (Nat.succ_lt_succ (Nat.succ_pos n)), rfl, _, decodePrompt_wordModel n⟩

/-- A generation of at most three words returns. -/
theorem exists_response_wordRequest {maxTokens : UInt32} {stopSequences : List String} {k : Nat}
    (hk : IsLast (wordModel 8) (wordRequest maxTokens stopSequences) wordsSampled k)
    (hle : k ≤ 3) :
    ∃ resp, (generateSync (wordModel 8) { wordRequest maxTokens stopSequences with stream := false }
      .cpu 5 wordsSampled).result = .ok resp := by
  refine ⟨_, ((prepared_wordRequest 6 maxTokens stopSequences).generateSync_eq_ok hk).mpr
    ⟨fun j hj => ?_, rfl⟩⟩
  obtain rfl | rfl | rfl : j = 0 ∨ j = 1 ∨ j = 2 := by omega
  · rfl
  · rfl
  · rfl

theorem counted_iff_words :
    ∃ resp, Counted (wordModel 8) (wordRequest 16 []) wordsSampled resp
      (streamSync (wordModel 8) { wordRequest 16 [] with stream := true } none wordsSampled).sent := by
  have hk : IsLast (wordModel 8) (wordRequest 16 []) wordsSampled 3 := ⟨by decide, by decide⟩
  obtain ⟨resp, hresp⟩ := exists_response_wordRequest hk (Nat.le_refl 3)
  refine ⟨resp, (counted_iff hresp).mpr fun k hk' => .inl ?_⟩
  rw [hk'.unique hk]
  rfl

/-- A stop sequence, no tokens at all, and as many as a `u32` can say. -/
theorem not_counted_words :
    (∃ resp, (generateSync (wordModel 8) { wordRequest 16 ["is "] with stream := false } .cpu 5
        wordsSampled).result = .ok resp ∧
      ¬ Counted (wordModel 8) (wordRequest 16 ["is "]) wordsSampled resp
        (streamSync (wordModel 8) { wordRequest 16 ["is "] with stream := true } none
          wordsSampled).sent) ∧
    (∃ resp, (generateSync (wordModel 8) { wordRequest 0 [] with stream := false } .cpu 5
        wordsSampled).result = .ok resp ∧
      ¬ Counted (wordModel 8) (wordRequest 0 []) wordsSampled resp
        (streamSync (wordModel 8) { wordRequest 0 [] with stream := true } none
          wordsSampled).sent) ∧
    ∃ resp, (generateSync (wordModel 8) { wordRequest 4294967295 [] with stream := false } .cpu 5
        wordsSampled).result = .ok resp ∧
      ¬ Counted (wordModel 8) (wordRequest 4294967295 []) wordsSampled resp
        (streamSync (wordModel 8) { wordRequest 4294967295 [] with stream := true } none
          wordsSampled).sent := by
  refine ⟨?_, ?_, ?_⟩
  -- A stop sequence inside the text.
  · have hk : IsLast (wordModel 8) (wordRequest 16 ["is "]) wordsSampled 1 := ⟨by decide, by decide⟩
    obtain ⟨resp, hresp⟩ := exists_response_wordRequest hk (by decide)
    refine ⟨resp, hresp, ?_⟩
    rw [counted_iff_of_isLast hk hresp]
    decide
  -- A limit of zero.
  · have hk : IsLast (wordModel 8) (wordRequest 0 []) wordsSampled 0 := ⟨by decide, by decide⟩
    obtain ⟨resp, hresp⟩ := exists_response_wordRequest hk (by decide)
    refine ⟨resp, hresp, ?_⟩
    rw [counted_iff_of_isLast hk hresp]
    decide
  -- A limit that turns negative as an `i32`.
  · have hk : IsLast (wordModel 8) (wordRequest 4294967295 []) wordsSampled 0 :=
      ⟨by decide, by decide⟩
    obtain ⟨resp, hresp⟩ := exists_response_wordRequest hk (by decide)
    refine ⟨resp, hresp, ?_⟩
    rw [counted_iff_of_isLast hk hresp]
    decide

end Maranode.Inference
