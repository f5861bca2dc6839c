/-
  Maranode.Inference.Stops

  Where stop sequences end a generation.

  The loops look for a stop sequence at the end of the text, once after every token.  The
  text of a token is of any length, so a stop sequence in its middle is not seen.
-/
import Maranode.Inference.Positions

namespace Maranode.Inference

open Maranode.Common

variable {T : Type} {m : LlamaModel T} {req : InferenceRequest} {sampled : Nat → T}
  {promptTokens : List T} {decoded : List (Batch T)}

/-! ## Stop sequences in a text -/

/-- `str::contains`. -/
def contains (t s : String) : Prop := s.toList <:+: t.toList

/-- Some stop sequence is in the text. -/
def InferenceRequest.Contains (req : InferenceRequest) (text : String) : Prop :=
  ∃ s ∈ req.stopSequences, contains text s

theorem hitStop_iff {text : String} :
    req.hitStop text = true ↔ ∃ s ∈ req.stopSequences, s.toList <:+ text.toList := by
  rw [InferenceRequest.hitStop, List.any_eq_true]
  refine exists_congr fun s => and_congr_right fun _ => ?_
  rw [endsWith, List.isSuffixOf_iff_suffix]

theorem contains_of_hitStop {text : String} (h : req.hitStop text = true) : req.Contains text := by
  obtain ⟨s, hs, hsuffix⟩ := hitStop_iff.mp h
  exact ⟨s, hs, hsuffix.isInfix⟩

/-- There is nothing in the empty text but the empty stop sequence. -/
theorem not_contains_empty (hne : ∀ s ∈ req.stopSequences, s ≠ "") : ¬ req.Contains "" := by
  rintro ⟨s, hs, hinfix⟩
  refine hne s hs (String.toList_injective ?_)
  exact List.infix_nil.mp hinfix

/-! ## The tokens a generation goes on from -/

theorem stepBatch_injective {nPrompt : Int} {i j : Nat}
    (h : stepBatch sampled nPrompt i = stepBatch sampled nPrompt j) : i = j := by
  have hpos := congrArg BatchToken.pos (List.cons.inj h).1
  dsimp only at hpos
  omega

/-- The token is decoded exactly when it goes. -/
theorem Steps.mem_iff {nPrompt : Nat} {loop : Nat → List (Batch T)}
    (h : Steps m req sampled decoded nPrompt loop) (hbelow : Below nPrompt decoded) {j : Nat} :
    stepBatch sampled nPrompt j ∈ loop 0 ↔ Goes m req sampled decoded nPrompt j := by
  obtain ⟨c, hc, hgoes⟩ := h.exists_count
  rw [hc, List.mem_append, ← hgoes, or_iff_right, mem_stepBatches]
  · constructor
    · rintro ⟨i, hi, heq⟩
      rwa [stepBatch_injective heq]
    · exact fun hj => ⟨j, hj, rfl⟩
  · intro hmem
    have hpos := hbelow _ hmem _ (List.mem_singleton_self _)
    dsimp only at hpos
    omega

/-- No generation goes on after a token that leaves a stop sequence in the text; and one
    that ends before the limit and without an end token has one there. -/
structure StopsOnTime (m : LlamaModel T) (req : InferenceRequest) (sampled : Nat → T)
    (promptTokens : List T) : Prop where
  generated : ∀ device durationMs j, stepBatch sampled promptTokens.length j
      ∈ (generateSync m req device durationMs sampled).decoded →
    ¬ req.Contains (textOf m sampled (j + 1))
  streamed : ∀ left j, stepBatch sampled promptTokens.length j
      ∈ (streamSync m req left sampled).decoded →
    ¬ req.Contains (textOf m sampled (j + 1))
  generatedStop : ∀ device durationMs resp,
    (generateSync m req device durationMs sampled).result = .ok resp →
      resp.finishReason = .stop → ∃ k, IsLast m req sampled k ∧
        (m.isEogToken (sampled k) = true ∨ req.Contains resp.content)
  streamedStop : ∀ left k,
    (streamSync m req left sampled).sent = sentOf m sampled k ++ [.ok (lastToken m sampled k)] →
      m.isEogToken (sampled k) = true ∨ req.Contains (textOf m sampled (k + 1)) ∨
        asI32 req.maxTokens ≤ (k : Int) + 1

/-- Everything up to the token is decoded without an error and does not end the generation. -/
def Reaches (m : LlamaModel T) (req : InferenceRequest) (sampled : Nat → T)
    (decoded : List (Batch T)) (nPrompt : Nat) (j : Nat) : Prop :=
  ∀ i < j, endsAt m req sampled i = false ∧
    m.decode (decoded ++ stepBatches sampled nPrompt (i + 1)) = .ok ()

/-- The first token that brings a stop sequence into the text, where the generation gets to
    it, is an end token or the last of the limit, or the text ends with a stop sequence. -/
def StopsAligned (m : LlamaModel T) (req : InferenceRequest) (sampled : Nat → T)
    (decoded : List (Batch T)) (nPrompt : Nat) : Prop :=
  ∀ j, Reaches m req sampled decoded nPrompt j → ¬ req.Contains (textOf m sampled j) →
    req.Contains (textOf m sampled (j + 1)) →
      m.isEogToken (sampled j) = true ∨ req.hitStop (textOf m sampled (j + 1)) = true ∨
        asI32 req.maxTokens ≤ (j : Int) + 1

theorem endsAt_iff {j : Nat} :
    endsAt m req sampled j = true ↔
      m.isEogToken (sampled j) = true ∨ req.hitStop (textOf m sampled (j + 1)) = true ∨
        asI32 req.maxTokens ≤ (j : Int) + 1 := by
  rw [endsAt, Bool.or_eq_true, Bool.or_eq_true, decide_eq_true_eq, or_assoc]

theorem goes_iff {nPrompt j : Nat} :
    Goes m req sampled decoded nPrompt j ↔
      Reaches m req sampled decoded nPrompt j ∧ endsAt m req sampled j = false := by
  constructor
  · rintro ⟨hends, hok⟩
    exact ⟨fun i hi => ⟨hends i (by omega), hok i hi⟩, hends j (Nat.le_refl j)⟩
  · rintro ⟨hreaches, hj⟩
    refine ⟨fun i hi => ?_, fun i hi => (hreaches i hi).2⟩
    rcases Nat.lt_or_eq_of_le hi with hlt | rfl
    · exact (hreaches i hlt).1
    · exact hj

/-- No token that goes leaves a stop sequence in the text exactly when the first one that
    does ends the generation. -/
theorem stopsAligned_iff (hne : ∀ s ∈ req.stopSequences, s ≠ "") {nPrompt : Nat} :
    StopsAligned m req sampled decoded nPrompt ↔
      ∀ j, Goes m req sampled decoded nPrompt j → ¬ req.Contains (textOf m sampled (j + 1)) := by
  constructor
  · intro haligned j hgoes
    induction j with
    | zero =>
        intro hcontains
        obtain ⟨hreaches, hj⟩ := goes_iff.mp hgoes
        have hends := endsAt_iff.mpr (haligned 0 hreaches (not_contains_empty hne) hcontains)
        exact Bool.false_ne_true (hj.symm.trans hends)
    | succ j ih =>
        intro hcontains
        obtain ⟨hreaches, hj⟩ := goes_iff.mp hgoes
        have hbefore : Goes m req sampled decoded nPrompt j :=
          goes_iff.mpr ⟨fun i hi => hreaches i (by omega), (hreaches j (Nat.lt_succ_self j)).1⟩
        have hends := endsAt_iff.mpr (haligned (j + 1) hreaches (ih hbefore) hcontains)
        exact Bool.false_ne_true (hj.symm.trans hends)
  · intro hall j hreaches _ hcontains
    rw [← endsAt_iff]
    by_contra hno
    exact hall j (goes_iff.mpr ⟨hreaches, Bool.eq_false_of_not_eq_true hno⟩) hcontains

/-! ## The two functions -/

/-- A generation that fails before its loop goes on after no token. -/
theorem FailsEarly.stopsOnTime {e e' : String} (h : FailsEarly m req sampled decoded e e')
    (hbelow : Below promptTokens.length decoded) : StopsOnTime m req sampled promptTokens := by
  have hnot : ∀ j, stepBatch sampled promptTokens.length j ∉ decoded := by
    intro j hmem
    have hpos := hbelow _ hmem _ (List.mem_singleton_self _)
    dsimp only at hpos
    omega
  refine ⟨fun device durationMs j hmem => ?_, fun left j hmem => ?_,
    fun device durationMs resp hresp => ?_, fun left k hsent => ?_⟩
  · rw [h.generated] at hmem
    exact absurd hmem (hnot j)
  · rw [h.streamed] at hmem
    exact absurd hmem (hnot j)
  · rw [h.generated] at hresp
    cases hresp
  · rw [h.streamed] at hsent
    exact absurd hsent (failed_ne_marked left e' k)

/-- What `generate_sync` calls a stop is an end token or a stop sequence. -/
theorem Prepared.stop_of_response (h : Prepared m req promptTokens decoded)
    {device : InferenceDevice} {durationMs : UInt64} {resp : InferenceResponse} {k : Nat}
    (hk : IsLast m req sampled k)
    (hresp : (generateSync m req device durationMs sampled).result = .ok resp)
    (hstop : resp.finishReason = .stop) :
    m.isEogToken (sampled k) = true ∨ req.Contains resp.content := by
  obtain ⟨-, rfl⟩ := (h.generateSync_eq_ok hk).mp hresp
  rw [Generated.response] at hstop ⊢
  dsimp only at hstop ⊢
  rw [generated] at hstop ⊢
  by_cases heog : m.isEogToken (sampled k) = true
  · exact .inl heog
  rw [if_neg heog] at hstop ⊢
  by_cases hhit : req.hitStop (textOf m sampled (k + 1)) = true
  · rw [if_pos hhit]
    exact .inr (contains_of_hitStop hhit)
  · rw [if_neg hhit] at hstop
    cases hstop

/-- **Stop sequences.**  Where none of them is empty, both functions stop with the first token
    that brings one into the text exactly when the text then ends with one, or the
    generation ends there anyway. -/
theorem stopsOnTime_iff
    (htokens : m.strToToken (buildChatmlPrompt req.messages) = .ok promptTokens)
    (hfits : promptTokens.length < contextOf m) (hne : ∀ s ∈ req.stopSequences, s ≠ "") :
    StopsOnTime m req sampled promptTokens ↔
      ∀ decoded, Prepared m req promptTokens decoded →
        StopsAligned m req sampled decoded promptTokens.length := by
  by_cases hprep : ∃ decoded, Prepared m req promptTokens decoded
  · obtain ⟨decoded, hprepared⟩ := hprep
    obtain ⟨k, hk⟩ := exists_isLast m req sampled
    constructor
    -- At each position that goes on, stopping on time asks for the alignment.
    · intro hstops decoded' hprepared'
      rw [stopsAligned_iff hne]
      intro j hgoes
      refine hstops.generated .cpu 0 j ?_
      rw [hprepared'.generateSync_decoded]
      exact ((steps_generateFrom decoded' promptTokens.length).mem_iff hprepared'.below).mpr hgoes
    · intro hall
      have hgoes := (stopsAligned_iff hne).mp (hall decoded hprepared)
      -- The plain loop, the streamed one, the plain one's response and the last of the streamed.
      refine ⟨fun device durationMs j hmem => ?_, fun left j hmem => ?_,
        fun device durationMs resp hresp hstop => ⟨k, hk, ?_⟩, fun left k' hsent => ?_⟩
      · rw [hprepared.generateSync_decoded] at hmem
        exact hgoes j
          (((steps_generateFrom decoded promptTokens.length).mem_iff hprepared.below).mp hmem)
      · have hwhole := (hprepared.streamSync_cut left).1.subset hmem
        exact hgoes j
          (((steps_streamFrom decoded promptTokens.length).mem_iff hprepared.below).mp hwhole)
      · exact hprepared.stop_of_response hk hresp hstop
      · have hprefix : (streamSync m req left sampled).sent <+: _ :=
          (hprepared.streamSync_cut left).2
        rw [hsent] at hprefix
        obtain rfl := isLast_of_sent hk hprefix
        -- What ended the run is one of three things, and the stop sequence is one of them.
        rcases endsAt_iff.mp hk.1 with heog | hhit | hlimit
        · exact .inl heog
        · exact .inr (.inl (contains_of_hitStop hhit))
        · exact .inr (.inr hlimit)
  -- No prepared context, so no piece of the answer exists.
  · obtain ⟨decoded, e, e', hfails, hbelow⟩ := exists_failsEarly htokens hfits hprep
    exact iff_of_true (hfails.stopsOnTime hbelow)
      fun decoded hprepared => absurd ⟨decoded, hprepared⟩ hprep

/-- `is ` is a token of its own. -/
theorem stopsOnTime_words :
    StopsOnTime (wordModel 8) (wordRequest 16 ["is "]) wordsSampled ["<s>"] := by
  refine (stopsOnTime_iff rfl (by decide) (by decide)).mpr fun decoded _ j hreaches _ hcontains => ?_
  have hends : endsAt (wordModel 8) (wordRequest 16 ["is "]) wordsSampled 1 = true := by decide
  obtain rfl | rfl | hlater : j = 0 ∨ j = 1 ∨ 1 < j := by omega
  · -- There is no `i` in the first word.
    obtain ⟨s, hs, hinfix⟩ := hcontains
    obtain rfl := List.mem_singleton.mp hs
    have hmem : 'i' ∈ (textOf (wordModel 8) wordsSampled 1).toList := hinfix.subset (by decide)
    exact absurd hmem (by decide)
  · exact .inr (.inl (by decide))
  · exact absurd (hreaches 1 hlater).1 (by rw [hends]; decide)

/-- `s w` begins in one token and ends within the next. -/
theorem not_stopsOnTime_words :
    ¬ StopsOnTime (wordModel 8) (wordRequest 16 ["s w"]) wordsSampled ["<s>"] := by
  intro hstops
  have hprepared := prepared_wordRequest 6 16 ["s w"]
  have hgoes : Goes (wordModel 8) (wordRequest 16 ["s w"]) wordsSampled [[⟨"<s>", 0, true⟩]] 1 2 := by
    refine ⟨by decide, fun i hi => ?_⟩
    obtain rfl | rfl : i = 0 ∨ i = 1 := by omega
    · rfl
    · rfl
  have hmem := ((steps_generateFrom _ 1).mem_iff hprepared.below).mpr hgoes
  rw [← List.length_singleton, ← hprepared.generateSync_decoded .cpu 0] at hmem
  refine hstops.generated .cpu 0 2 hmem ⟨"s w", List.mem_singleton_self _, ?_⟩
  exact ⟨"all i".toList, "ell".toList, by decide⟩

end Maranode.Inference
