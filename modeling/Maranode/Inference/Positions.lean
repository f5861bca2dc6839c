/-
  Maranode.Inference.Positions

  The positions of the tokens a generation decodes, and the context they have to fit into.

  Both functions turn away a prompt that fills the context, and neither loop looks at the
  context again: what ends a generation is `max_tokens`, which the caller chooses.
-/
import Maranode.Inference.Counts

namespace Maranode.Inference

open Maranode.Common

variable {T : Type} {m : LlamaModel T} {req : InferenceRequest} {sampled : Nat → T}

/-! ## The prompt -/

/-- All tokens are at positions below `n`. -/
def Below (n : Nat) (batches : List (Batch T)) : Prop := ∀ batch ∈ batches, ∀ t ∈ batch, t.pos < n

theorem Below.append {n : Nat} {bs bs' : List (Batch T)} (h : Below n bs) (h' : Below n bs') :
    Below n (bs ++ bs') := List.forall_mem_append.mpr ⟨h, h'⟩

theorem Below.initial {n : Nat} {bs bs' : List (Batch T)} (h : Below n bs') (hle : bs <+: bs') :
    Below n bs := fun batch hbatch => h batch (hle.subset hbatch)

theorem Below.mono {n n' : Nat} {batches : List (Batch T)} (h : Below n batches) (hle : n ≤ n') :
    Below n' batches := by
  intro b hb t ht
  have hpos := h b hb t ht
  omega

theorem usizeAsI32_le (n : Nat) : usizeAsI32 n ≤ n := by
  unfold usizeAsI32
  rw [Int.bmod_def]
  split <;> omega

theorem addPromptTokens_pos {n start stop : Nat} {toks : List T} {batch batch' : Batch T}
    (h : addPromptTokens n start batch toks = .ok batch') (hstop : start + toks.length ≤ stop)
    (hbatch : ∀ t ∈ batch, t.pos < stop) : ∀ t ∈ batch', t.pos < stop := by
  induction toks generalizing start batch with
  | nil =>
      obtain rfl := Except.ok.inj h
      exact hbatch
  | cons tok toks ih =>
      rw [List.length_cons] at hstop
      rw [addPromptTokens, Batch.add] at h
      by_cases hroom : batch.length < nBatch
      · rw [if_pos hroom] at h
        refine ih h (by omega) (List.forall_mem_append.mpr ⟨hbatch, ?_⟩)
        refine List.forall_mem_singleton.mpr ?_
        have hlt : (start : Int) < stop := by omega
        dsimp only
        exact Int.lt_of_le_of_lt (usizeAsI32_le start) hlt
      · rw [if_neg hroom] at h
        cases h

theorem decodePromptLoop_below (tokens : List T) (start : Nat) (batch : Batch T)
    (decoded : List (Batch T)) (hbatch : ∀ t ∈ batch, t.pos < tokens.length)
    (hdecoded : Below tokens.length decoded) :
    Below tokens.length (decodePromptLoop m tokens start batch decoded).decoded := by
  -- The induction is on the tokens that are left to be put into batches.
  induction hleft : tokens.length - start using Nat.strong_induction_on
    generalizing start batch decoded with
  | _ left ih =>
      rw [decodePromptLoop]
      by_cases hstart : start < tokens.length
      · rw [dif_pos hstart]
        dsimp only
        cases hadd : addPromptTokens tokens.length start batch
            ((tokens.drop start).take nBatch) with
        | error e => exact hdecoded
        | ok batch' =>
            -- The positions of a batch begin at the loop's own start.
            have hlen : start + ((tokens.drop start).take nBatch).length ≤ tokens.length := by
              rw [List.length_take, List.length_drop]
              omega
            have hbatch' := addPromptTokens_pos hadd hlen hbatch
            have hdecoded' : Below tokens.length (decoded ++ [batch']) :=
              hdecoded.append (List.forall_mem_singleton.mpr hbatch')
            dsimp only
            cases m.decode (decoded ++ [batch']) with
            | error e => exact hdecoded'
            | ok u =>
                -- Each turn takes a token at least, so fewer are left.
                have hless : tokens.length - min (start + nBatch) tokens.length < left := by
                  simp only [nBatch]
                  omega
                refine ih _ hless _ _ _ ?_ hdecoded' rfl
                split_ifs
                · exact fun t ht => absurd ht List.not_mem_nil
                · exact hbatch'
      · rw [dif_neg hstart]
        exact hdecoded

/-- The tokens of a prompt are at the positions of the prompt. -/
theorem decodePrompt_below (tokens : List T) :
    Below tokens.length (decodePrompt m tokens).decoded :=
  decodePromptLoop_below tokens 0 [] [] (fun _ ht => absurd ht List.not_mem_nil)
    fun _ hb => absurd hb List.not_mem_nil

/-! ## The tokens that are decoded -/

/-- Everything up to the token is decoded without an error, and the token is not the last:
    so it is decoded next. -/
def Goes (m : LlamaModel T) (req : InferenceRequest) (sampled : Nat → T)
    (decoded : List (Batch T)) (nPrompt : Nat) (j : Nat) : Prop :=
  (∀ i ≤ j, endsAt m req sampled i = false) ∧
    ∀ i < j, m.decode (decoded ++ stepBatches sampled nPrompt (i + 1)) = .ok ()

/-- What both loops have in common: they decode the tokens that go, one after the other. -/
structure Steps (m : LlamaModel T) (req : InferenceRequest) (sampled : Nat → T)
    (decoded : List (Batch T)) (nPrompt : Nat) (loop : Nat → List (Batch T)) : Prop where
  last : ∀ n, endsAt m req sampled n = true → loop n = decoded ++ stepBatches sampled nPrompt n
  failed : ∀ n e, endsAt m req sampled n = false →
    m.decode (decoded ++ stepBatches sampled nPrompt (n + 1)) = .error e →
      loop n = decoded ++ stepBatches sampled nPrompt (n + 1)
  next : ∀ n, endsAt m req sampled n = false →
    m.decode (decoded ++ stepBatches sampled nPrompt (n + 1)) = .ok () → loop n = loop (n + 1)

theorem steps_generateFrom (decoded : List (Batch T)) (nPrompt : Nat) :
    Steps m req sampled decoded nPrompt fun n =>
      (generateFrom m req sampled nPrompt decoded n).decoded where
  last n h := by rw [generateFrom_last _ h]
  failed n e h he := by rw [(generateFrom_not_last _ decoded h).1 e he]
  next n h hok := by rw [(generateFrom_not_last _ decoded h).2 hok]

theorem steps_streamFrom (decoded : List (Batch T)) (nPrompt : Nat) :
    Steps m req sampled decoded nPrompt fun n =>
      (streamFrom m req sampled nPrompt decoded n).decoded where
  last n h := by rw [streamFrom_last _ h]
  failed n e h he := by rw [(streamFrom_not_last _ decoded h).1 e he]
  next n h hok := by rw [(streamFrom_not_last _ decoded h).2 hok]

variable {decoded : List (Batch T)} {nPrompt : Nat} {loop : Nat → List (Batch T)}

theorem mem_stepBatches {n : Nat} {batch : Batch T} {nPrompt : Int} :
    batch ∈ stepBatches sampled nPrompt n ↔ ∃ j < n, batch = stepBatch sampled nPrompt j := by
  rw [stepBatches, List.mem_map]
  constructor
  · rintro ⟨j, hj, rfl⟩
    exact ⟨j, List.mem_range.mp hj, rfl⟩
  · rintro ⟨j, hj, rfl⟩
    exact ⟨j, List.mem_range.mpr hj, rfl⟩

/-- As long as nothing ends the generation and no decode fails, the loop goes on. -/
theorem Steps.eq_of_decoded (h : Steps m req sampled decoded nPrompt loop) {n : Nat}
    (hends : ∀ j < n, endsAt m req sampled j = false)
    (hok : ∀ j < n, m.decode (decoded ++ stepBatches sampled nPrompt (j + 1)) = .ok ()) :
    loop 0 = loop n := by
  induction n with
  | zero => rfl
  | succ n ih =>
      have hbefore := ih (fun j hj => hends j (by omega)) fun j hj => hok j (by omega)
      exact hbefore.trans (h.next n (hends n (Nat.lt_succ_self n)) (hok n (Nat.lt_succ_self n)))

/-- The loop decodes the tokens that go, which are the first ones. -/
theorem Steps.exists_count (h : Steps m req sampled decoded nPrompt loop) :
    ∃ c, loop 0 = decoded ++ stepBatches sampled nPrompt c ∧
      ∀ j, j < c ↔ Goes m req sampled decoded nPrompt j := by
  -- The loop ends somewhere; until then no token ends it.
  obtain ⟨k, hk⟩ := exists_isLast m req sampled
  have hlt : ∀ {j}, (∀ i ≤ j, endsAt m req sampled i = false) → j < k := by
    intro j hends
    by_contra hle
    exact Bool.false_ne_true ((hends k (by omega)).symm.trans hk.1)
  by_cases hfail : ∃ j, j < k ∧
      m.decode (decoded ++ stepBatches sampled nPrompt (j + 1)) ≠ .ok ()
  · -- The first decode that fails is the last one.
    obtain ⟨hj, hne⟩ := Nat.find_spec hfail
    have hbefore : ∀ i < Nat.find hfail,
        m.decode (decoded ++ stepBatches sampled nPrompt (i + 1)) = .ok () := by
      intro i hi
      by_contra hno
      exact Nat.find_min hfail hi ⟨by omega, hno⟩
    generalize Nat.find hfail = j at hj hne hbefore
    refine ⟨j + 1, ?_, fun i => ⟨fun hi => ⟨fun l hl => hk.2 l (by omega), fun l hl =>
      hbefore l (by omega)⟩, fun hgoes => ?_⟩⟩
    · rw [h.eq_of_decoded (fun i hi => hk.2 i (by omega)) hbefore]
      cases he : m.decode (decoded ++ stepBatches sampled nPrompt (j + 1)) with
      | error e => exact h.failed j e (hk.2 j hj) he
      | ok u => exact absurd he hne
    · by_contra hle
      exact hne (hgoes.2 j (by omega))
  -- No decode fails, so the loop goes to its end.
  · have hok : ∀ j < k, m.decode (decoded ++ stepBatches sampled nPrompt (j + 1)) = .ok () := by
      intro j hj
      by_contra hno
      exact hfail ⟨j, hj, hno⟩
    refine ⟨k, ?_, fun j => ⟨fun hj => ⟨fun i hi => hk.2 i (by omega), fun i hi =>
      hok i (by omega)⟩, fun hgoes => hlt hgoes.1⟩⟩
    rw [h.eq_of_decoded hk.2 hok, h.last k hk.1]

/-- Where a prompt of that many tokens leaves room, the tokens that go have to fit. -/
theorem Steps.below_iff (h : Steps m req sampled decoded nPrompt loop) {nCtx : Nat}
    (hdecoded : Below nCtx decoded) :
    Below nCtx (loop 0) ↔ ∀ j, Goes m req sampled decoded nPrompt j → nPrompt + j < nCtx := by
  obtain ⟨c, hc, hgoes⟩ := h.exists_count
  rw [hc]
  constructor
  · intro hbelow j hj
    have hmem : stepBatch sampled nPrompt j ∈ decoded ++ stepBatches sampled nPrompt c :=
      List.mem_append_right _ (mem_stepBatches.mpr ⟨j, (hgoes j).mpr hj, rfl⟩)
    have hpos := hbelow _ hmem _ (List.mem_singleton_self _)
    dsimp only at hpos
    omega
  · intro hall
    refine hdecoded.append fun batch hbatch => ?_
    obtain ⟨j, hj, rfl⟩ := mem_stepBatches.mp hbatch
    refine List.forall_mem_singleton.mpr ?_
    have hlt := hall j ((hgoes j).mp hj)
    dsimp only
    omega

/-! ## A client that goes away -/

theorem eq_append_of_send {α : Type} {left : Option Nat} {sent sent' : List α} {msg : α}
    (h : send left sent msg = some sent') : sent' = sent ++ [msg] := by
  rw [send] at h
  split_ifs at h
  exact (Option.some.inj h).symm

theorem prefix_getD_send {α : Type} (left : Option Nat) (sent : List α) (msg : α) :
    sent <+: (send left sent msg).getD sent := by
  cases hsend : send left sent msg with
  | none => exact List.prefix_rfl
  | some sent' =>
      rw [eq_append_of_send hsend]
      exact List.prefix_append ..

theorem getD_send_prefix_append {α : Type} (left : Option Nat) (sent : List α) (msg : α) :
    (send left sent msg).getD sent <+: sent ++ [msg] := by
  cases hsend : send left sent msg with
  | none => exact List.prefix_append ..
  | some sent' =>
      rw [eq_append_of_send hsend]
      exact List.prefix_rfl

/-- A loop adds to what was decoded and sent. -/
theorem streamLoop_extends (left : Option Nat) (nPrompt : Int) (n : Nat) (nCur : Int)
    (emitted : String) (decoded : List (Batch T)) (sent : List (Except String Token)) :
    decoded <+: (streamLoop m req left nPrompt sampled n nCur emitted decoded sent).decoded ∧
      sent <+: (streamLoop m req left nPrompt sampled n nCur emitted decoded sent).sent := by
  fun_induction streamLoop m req left nPrompt sampled n nCur emitted decoded sent with
  | case1 => exact ⟨List.prefix_rfl, List.prefix_rfl⟩
  | case2 _ _ _ _ _ _ _ _ _ _ _ _ _ hsend =>
      rw [eq_append_of_send hsend]
      exact ⟨List.prefix_rfl, List.prefix_append ..⟩
  | case3 _ _ _ _ _ _ _ _ _ _ _ _ _ hsend =>
      rw [eq_append_of_send hsend]
      exact ⟨List.prefix_rfl, List.prefix_append ..⟩
  | case4 _ _ _ _ _ _ _ _ _ _ _ _ _ hsend =>
      rw [eq_append_of_send hsend]
      refine ⟨List.prefix_append .., (List.prefix_append ..).trans (prefix_getD_send ..)⟩
  | case5 _ _ _ _ _ _ _ _ _ _ _ _ _ hsend _ _ _ _ _ _ ih =>
      rw [eq_append_of_send hsend] at ih ⊢
      exact ⟨(List.prefix_append ..).trans ih.1, (List.prefix_append ..).trans ih.2⟩

/-- A client that goes away only cuts the stream short. -/
theorem streamLoop_prefix (left : Option Nat) (nPrompt : Int) (n : Nat) (nCur : Int)
    (emitted : String) (decoded : List (Batch T)) (sent : List (Except String Token)) :
    (streamLoop m req left nPrompt sampled n nCur emitted decoded sent).decoded
        <+: (streamLoop m req none nPrompt sampled n nCur emitted decoded sent).decoded ∧
      (streamLoop m req left nPrompt sampled n nCur emitted decoded sent).sent
        <+: (streamLoop m req none nPrompt sampled n nCur emitted decoded sent).sent := by
  -- The induction is on the tokens that the limit still lets out.
  induction hfuel : (asI32 req.maxTokens - (nCur - nPrompt)).toNat using Nat.strong_induction_on
    generalizing n nCur emitted decoded sent with
  | _ fuel ih =>
      have hextends : decoded
            <+: (streamLoop m req none nPrompt sampled n nCur emitted decoded sent).decoded ∧
          sent <+: (streamLoop m req none nPrompt sampled n nCur emitted decoded sent).sent :=
        streamLoop_extends ..
      rw [streamLoop.eq_def m req left]
      dsimp only
      -- A receiver that has gone away ends the cut run, and the whole one only goes on from there.
      split
      · exact hextends
      · next sent' hsend =>
          rw [streamLoop.eq_def m req none]
          dsimp only
          rw [send_none, ← eq_append_of_send hsend]
          dsimp only
          -- One step is the same in both runs, so their values are named once.
          generalize (if m.isEogToken (sampled n) = true then "" else m.piece (sampled n)) = text
          generalize (if req.stopSequences.isEmpty = true then emitted else emitted ++ text)
            = emitted'
          generalize hlast : (m.isEogToken (sampled n) ||
            (if req.stopSequences.isEmpty = true then false else req.hitStop emitted') ||
              decide (nCur - nPrompt + 1 ≥ asI32 req.maxTokens)) = isLast
          cases isLast with
          | true => exact ⟨List.prefix_rfl, List.prefix_rfl⟩
          | false =>
              rw [dif_neg Bool.false_ne_true, dif_neg Bool.false_ne_true]
              -- A decode that fails ends both.
              split
              · exact ⟨List.prefix_rfl, List.prefix_rfl⟩
              -- A failed decode sends its error, which the receiver may not take any more.
              · split
                · exact ⟨List.prefix_rfl, getD_send_prefix_append ..⟩
                · have hmore := (Bool.or_eq_false_iff.mp hlast).2
                  have hlimit := of_decide_eq_false hmore
                  exact ih _ (by omega) _ _ _ _ _ rfl

/-- A stream ends with the last token, or with the error of a decode. -/
theorem streamFrom_sent {k n : Nat} (hk : IsLast m req sampled k) (hn : n ≤ k)
    (nPrompt : Int) (decoded : List (Batch T)) :
    (streamFrom m req sampled nPrompt decoded n).sent
        = sentOf m sampled k ++ [.ok (lastToken m sampled k)] ∨
      ∃ j e, (streamFrom m req sampled nPrompt decoded n).sent
        = sentOf m sampled j ++ [.error e] := by
  induction hd : k - n generalizing n with
  | zero =>
      obtain rfl : n = k := by omega
      rw [streamFrom_last nPrompt hk.1]
      exact .inl rfl
  | succ d ih =>
      have hlt : n < k := by omega
      obtain ⟨hfailed, hnext⟩ := streamFrom_not_last nPrompt decoded (hk.2 n hlt)
      cases hdecode : m.decode (decoded ++ stepBatches sampled nPrompt (n + 1)) with
      | error e =>
          rw [hfailed e hdecode]
          exact .inr ⟨n + 1, _, rfl⟩
      | ok u =>
          rw [hnext hdecode]
          exact ih hlt (by omega)

theorem getElem?_sentOf {n i : Nat} {t : Token}
    (h : (sentOf m sampled n)[i]? = some (.ok t)) : t.isLast = false := by
  rw [sentOf, List.getElem?_map, Option.map_eq_some_iff] at h
  obtain ⟨j, -, hj⟩ := h
  rw [← Except.ok.inj hj]

theorem length_sentOf (n : Nat) : (sentOf m sampled n).length = n := by
  rw [sentOf, List.length_map, List.length_range]

/-- The token that a stream marks is the last. -/
theorem isLast_of_sent {k k' : Nat} (hk : IsLast m req sampled k) {nPrompt : Int}
    (h : sentOf m sampled k' ++ [.ok (lastToken m sampled k')]
      <+: (streamFrom m req sampled nPrompt decoded 0).sent) : k' = k := by
  obtain ⟨rest, hrest⟩ := h
  have hmarked : (streamFrom m req sampled nPrompt decoded 0).sent[k']?
      = some (.ok (lastToken m sampled k')) := by
    rw [← hrest, List.append_assoc, List.getElem?_append_right (by rw [length_sentOf]),
      length_sentOf, Nat.sub_self]
    rfl
  -- A token before the end of what is sent is not marked.
  have hlater : ∀ {n : Nat} {msg : Except String Token},
      (sentOf m sampled n ++ [msg])[k']? = some (.ok (lastToken m sampled k')) →
        k' = n ∧ msg = .ok (lastToken m sampled k') := by
    intro n msg hmsg
    by_cases hlt : k' < n
    · rw [List.getElem?_append_left (by rwa [length_sentOf])] at hmsg
      cases getElem?_sentOf hmsg
    · rw [List.getElem?_append_right (by rw [length_sentOf]; omega), length_sentOf] at hmsg
      obtain hzero | hpos := Nat.eq_zero_or_pos (k' - n)
      · rw [hzero] at hmsg
        exact ⟨by omega, Option.some.inj hmsg⟩
      · rw [List.getElem?_eq_none (by rw [List.length_singleton]; omega)] at hmsg
        cases hmsg
  rcases streamFrom_sent hk (Nat.zero_le k) nPrompt decoded with hsent | ⟨j, e, hsent⟩
  · rw [hsent] at hmarked
    exact (hlater hmarked).1
  · rw [hsent] at hmarked
    cases (hlater hmarked).2

/-! ## The context -/

/-- The context window of a request. -/
def contextOf (m : LlamaModel T) : Nat := min maxNCtx m.nCtxTrain

/-- Nothing is decoded at a position outside of the context, and a generation does not end
    at the limit with fewer tokens than both the limit and the context allow. -/
structure KeepsContext (m : LlamaModel T) (req : InferenceRequest) (sampled : Nat → T)
    (promptTokens : List T) : Prop where
  generated : ∀ device durationMs,
    Below (contextOf m) (generateSync m req device durationMs sampled).decoded
  streamed : ∀ left, Below (contextOf m) (streamSync m req left sampled).decoded
  generatedLimit : ∀ device durationMs resp,
    (generateSync m req device durationMs sampled).result = .ok resp →
      resp.finishReason = .length →
        min req.maxTokens.toNat (contextOf m - promptTokens.length) ≤ resp.tokensOut.toNat
  streamedLimit : ∀ left k,
    (streamSync m req left sampled).sent = sentOf m sampled k ++ [.ok (lastToken m sampled k)] →
      RunsOn m req sampled k →
        min req.maxTokens.toNat (contextOf m - promptTokens.length) ≤ k + 1

/-- Once the prompt is decoded, the generation ends while there is room, or a decode fails;
    and a limit that is no positive `i32` finds the first token the last, or no room for
    another. -/
structure EndsInContext (m : LlamaModel T) (req : InferenceRequest) (sampled : Nat → T)
    (promptTokens : List T) (decoded : List (Batch T)) : Prop where
  room : ∀ k, IsLast m req sampled k → promptTokens.length + k ≤ contextOf m ∨
    ∃ i, promptTokens.length + i < contextOf m ∧
      m.decode (decoded ++ stepBatches sampled promptTokens.length (i + 1)) ≠ .ok ()
  limit : RunsOn m req sampled 0 →
    req.maxTokens.toNat < 2 ^ 31 ∨ contextOf m ≤ promptTokens.length + 1

variable {promptTokens : List T}

/-- The generation ends while there is room exactly when every token that goes finds it. -/
theorem room_iff (hfits : promptTokens.length < contextOf m) :
    (∀ k, IsLast m req sampled k → promptTokens.length + k ≤ contextOf m ∨
      ∃ i, promptTokens.length + i < contextOf m ∧
        m.decode (decoded ++ stepBatches sampled promptTokens.length (i + 1)) ≠ .ok ()) ↔
      ∀ j, Goes m req sampled decoded promptTokens.length j →
        promptTokens.length + j < contextOf m := by
  obtain ⟨k, hk⟩ := exists_isLast m req sampled
  constructor
  · intro hall j hgoes
    by_contra hout
    have hjk : j < k := by
      by_contra hle
      exact Bool.false_ne_true ((hgoes.1 k (by omega)).symm.trans hk.1)
    rcases hall k hk with hroom | ⟨i, hi, hfail⟩
    · omega
    · exact hfail (hgoes.2 i (by omega))
  · intro hall k' hk'
    by_contra hno
    obtain ⟨hout, hok⟩ := not_or.mp hno
    have hgoes : Goes m req sampled decoded promptTokens.length
        (contextOf m - promptTokens.length) := by
      refine ⟨fun i hi => hk'.2 i (by omega), fun i hi => ?_⟩
      by_contra hfail
      exact hok ⟨i, by omega, hfail⟩
    have hlt := hall _ hgoes
    omega

/-- A generation that ends at the limit has as many tokens as the limit, unless that is no
    positive `i32`. -/
theorem limit_iff {k : Nat} (hk : IsLast m req sampled k) (hruns : RunsOn m req sampled k)
    (room : Nat) :
    min req.maxTokens.toNat room ≤ k + 1 ↔ req.maxTokens.toNat < 2 ^ 31 ∨ room ≤ 1 := by
  obtain ⟨hpositive, hzero⟩ := hk.limit hruns
  by_cases hpos : PositiveLimit req.maxTokens
  · have hmax := hpositive hpos
    exact iff_of_true (by omega) (.inl hpos.2)
  · obtain rfl := hzero hpos
    by_cases hsmall : req.maxTokens.toNat < 2 ^ 31
    · have hmax : req.maxTokens.toNat = 0 := by
        by_contra hne
        exact hpos ⟨Nat.pos_of_ne_zero hne, hsmall⟩
      exact iff_of_true (by omega) (.inl hsmall)
    · rw [or_iff_right hsmall]
      omega

theorem Prepared.streamSync_left {decoded : List (Batch T)}
    (h : Prepared m req promptTokens decoded) (left : Option Nat) :
    streamSync m req left sampled
      = streamLoop m req left promptTokens.length sampled 0 promptTokens.length "" decoded [] := by
  obtain ⟨batch, hprompt⟩ := h.decoded
  rw [streamSync]
  dsimp only
  rw [h.context, h.tokens]
  dsimp only
  rw [if_neg (Nat.not_le_of_lt h.fits), hprompt]

/-- What is decoded and sent to a client that goes away is a part of the whole. -/
theorem Prepared.streamSync_cut {decoded : List (Batch T)}
    (h : Prepared m req promptTokens decoded) (left : Option Nat) :
    (streamSync m req left sampled).decoded
        <+: (streamFrom m req sampled promptTokens.length decoded 0).decoded ∧
      (streamSync m req left sampled).sent
        <+: (streamFrom m req sampled promptTokens.length decoded 0).sent := by
  rw [h.streamSync_left, streamFrom_zero]
  exact streamLoop_prefix ..

theorem Prepared.generateSync_decoded {decoded : List (Batch T)}
    (h : Prepared m req promptTokens decoded) (device : InferenceDevice) (durationMs : UInt64) :
    (generateSync m req device durationMs sampled).decoded
      = (generateFrom m req sampled promptTokens.length decoded 0).decoded := by
  obtain ⟨batch, hprompt⟩ := h.decoded
  rw [generateSync]
  dsimp only
  rw [h.tokens]
  dsimp only
  rw [if_neg (Nat.not_le_of_lt h.fits), h.context, hprompt, generateFrom_zero]

theorem Prepared.below {decoded : List (Batch T)} (h : Prepared m req promptTokens decoded) :
    Below promptTokens.length decoded := by
  obtain ⟨batch, hprompt⟩ := h.decoded
  have hbelow := decodePrompt_below (m := m) promptTokens
  rw [hprompt] at hbelow
  exact hbelow

/-- A stream that fails before its loop marks no token. -/
theorem failed_ne_marked (left : Option Nat) (e : String) (k : Nat) :
    (send left [] (.error e : Except String Token)).getD []
      ≠ sentOf m sampled k ++ [.ok (lastToken m sampled k)] := by
  intro heq
  have hprefix := getD_send_prefix_append left [] (.error e : Except String Token)
  rw [heq] at hprefix
  have hmem := hprefix.subset (List.mem_append_right _ (List.mem_singleton_self _))
  cases List.mem_singleton.mp hmem

/-- Both functions fail before their loop, with these batches of the prompt decoded. -/
structure FailsEarly (m : LlamaModel T) (req : InferenceRequest) (sampled : Nat → T)
    (decoded : List (Batch T)) (e e' : String) : Prop where
  generated : ∀ device durationMs,
    generateSync m req device durationMs sampled = ⟨decoded, .error e⟩
  streamed : ∀ left,
    streamSync m req left sampled = ⟨decoded, (send left [] (.error e')).getD []⟩

/-- A prompt that cannot be prepared leaves nothing but itself decoded. -/
theorem exists_failsEarly
    (htokens : m.strToToken (buildChatmlPrompt req.messages) = .ok promptTokens)
    (hfits : promptTokens.length < contextOf m)
    (h : ¬ ∃ decoded, Prepared m req promptTokens decoded) :
    ∃ decoded e e', FailsEarly m req sampled decoded e e' ∧ Below promptTokens.length decoded := by
  have hroom : ¬ promptTokens.length ≥ min maxNCtx m.nCtxTrain := Nat.not_le_of_lt hfits
  -- No context, and neither loop has decoded anything.
  cases hcontext : m.newContext (min maxNCtx m.nCtxTrain) with
  | error e =>
      refine ⟨[], "creating llama context", "context creation: " ++ e,
        ⟨fun device durationMs => ?_, fun left => ?_⟩, fun _ hb => absurd hb List.not_mem_nil⟩
      · rw [generateSync]
        dsimp only
        rw [htokens]
        dsimp only
        rw [if_neg hroom, hcontext]
      · rw [streamSync]
        dsimp only
        rw [hcontext]
  | ok u =>
      have hbelow := decodePrompt_below (m := m) promptTokens
      -- A part of the prompt fails: what was submitted by then lies below its length.
      rcases hprompt : decodePrompt m promptTokens with ⟨decoded, e | batch⟩
      · rw [hprompt] at hbelow
        refine ⟨decoded, e, e, ⟨fun device durationMs => ?_, fun left => ?_⟩, hbelow⟩
        · rw [generateSync]
          dsimp only
          rw [htokens]
          dsimp only
          rw [if_neg hroom, hcontext, hprompt]
        · rw [streamSync]
          dsimp only
          rw [hcontext, htokens]
          dsimp only
          rw [if_neg hroom, hprompt]
      · exact absurd ⟨decoded, htokens, hfits, hcontext, batch, hprompt⟩ h

/-- A generation that fails before its loop. -/
theorem FailsEarly.keepsContext {decoded : List (Batch T)} {e e' : String}
    (h : FailsEarly m req sampled decoded e e') (hbelow : Below (contextOf m) decoded) :
    KeepsContext m req sampled promptTokens where
  generated device durationMs := by
    rw [h.generated]
    exact hbelow
  streamed left := by
    rw [h.streamed]
    exact hbelow
  generatedLimit device durationMs resp hresp := by
    rw [h.generated] at hresp
    cases hresp
  streamedLimit left k hsent := by
    rw [h.streamed] at hsent
    exact absurd hsent (failed_ne_marked left e' k)

/-- A response that ended at the limit. -/
theorem Prepared.limit_of_response {decoded : List (Batch T)}
    (h : Prepared m req promptTokens decoded) {device : InferenceDevice} {durationMs : UInt64}
    {resp : InferenceResponse} {k : Nat} (hk : IsLast m req sampled k)
    (hresp : (generateSync m req device durationMs sampled).result = .ok resp) :
    (resp.finishReason = .length ↔ RunsOn m req sampled k) ∧
      (RunsOn m req sampled k → resp.tokensOut.toNat = k + 1) := by
  obtain ⟨-, rfl⟩ := (h.generateSync_eq_ok hk).mp hresp
  obtain ⟨hout, hfinish⟩ := response_generated hk promptTokens.length device durationMs
  refine ⟨hfinish, fun hruns => ?_⟩
  rw [if_pos hruns] at hout
  exact hout

/-- With a limit that is no positive `i32` the first token is the last. -/
theorem isLast_zero (h : ¬ req.maxTokens.toNat < 2 ^ 31) : IsLast m req sampled 0 := by
  have hlimit : asI32 req.maxTokens ≤ 0 := asI32_of_not_positive fun hpos => h hpos.2
  refine ⟨?_, fun j hj => absurd hj (Nat.not_lt_zero j)⟩
  rw [endsAt, decide_eq_true (by omega), Bool.or_true]

/-- **Positions.**  For a prompt that leaves room, both functions keep to the context exactly
    when the generation ends in it. -/
theorem keepsContext_iff
    (htokens : m.strToToken (buildChatmlPrompt req.messages) = .ok promptTokens)
    (hfits : promptTokens.length < contextOf m) :
    KeepsContext m req sampled promptTokens ↔
      ∀ decoded, Prepared m req promptTokens decoded →
        EndsInContext m req sampled promptTokens decoded := by
  by_cases hprep : ∃ decoded, Prepared m req promptTokens decoded
  · obtain ⟨decoded, hprepared⟩ := hprep
    -- The place where the run ends, and the two loops counted as steps up to it.
    obtain ⟨k, hk⟩ := exists_isLast m req sampled
    have hgenerate : Steps m req sampled decoded promptTokens.length _ :=
      steps_generateFrom decoded promptTokens.length
    have hstream : Steps m req sampled decoded promptTokens.length _ :=
      steps_streamFrom decoded promptTokens.length
    have hprompt := hprepared.below.mono (Nat.le_of_lt hfits)
    constructor
    · intro hkeeps decoded' hprepared'
      have hgenerated := hkeeps.generated .cpu 0
      rw [hprepared'.generateSync_decoded] at hgenerated
      have hprompt' := hprepared'.below.mono (Nat.le_of_lt hfits)
      -- The hypothesis gives the positions, and the limit has to be read off the finish reason.
      refine ⟨(room_iff hfits).mpr (((steps_generateFrom decoded'
        promptTokens.length).below_iff hprompt').mp hgenerated), fun hruns => ?_⟩
      by_contra hno
      obtain ⟨hlarge, hroom⟩ := not_or.mp hno
      have hzero : IsLast m req sampled 0 := isLast_zero hlarge
      -- The run ends at its first position, so the response is that of no step.
      have hresp : (generateSync m req .cpu 0 sampled).result = .ok _ :=
        (hprepared'.generateSync_eq_ok hzero).mpr
          ⟨fun j hj => absurd hj (Nat.not_lt_zero j), rfl⟩
      obtain ⟨hfinish, hout⟩ := hprepared'.limit_of_response hzero hresp
      have hlimit := hkeeps.generatedLimit _ _ _ hresp (hfinish.mpr hruns)
      rw [hout hruns, limit_iff hzero hruns] at hlimit
      rcases hlimit with hsmall | hone
      · exact hlarge hsmall
      · omega
    · intro hall
      obtain ⟨hroom, hlimit⟩ := hall decoded hprepared
      have hgoes := (room_iff hfits).mp hroom
      -- What the limit says about the last position, from the condition.
      have hends : RunsOn m req sampled k →
          min req.maxTokens.toNat (contextOf m - promptTokens.length) ≤ k + 1 := by
        intro hruns
        rw [limit_iff hk hruns]
        by_cases hsmall : req.maxTokens.toNat < 2 ^ 31
        · exact .inl hsmall
        · obtain rfl := hk.unique (isLast_zero hsmall)
          rcases hlimit hruns with hsmall' | hone
          · exact absurd hsmall' hsmall
          · exact .inr (by omega)
      -- Positions and limits, for the plain loop and for the streamed one.
      refine ⟨fun device durationMs => ?_, fun left => ?_, fun device durationMs resp hresp hfin => ?_,
        fun left k' hsent hruns => ?_⟩
      · rw [hprepared.generateSync_decoded]
        exact (hgenerate.below_iff hprompt).mpr hgoes
      · exact ((hstream.below_iff hprompt).mpr hgoes).initial (hprepared.streamSync_cut left).1
      · obtain ⟨hfinish, hout⟩ := hprepared.limit_of_response hk hresp
        have hruns := hfinish.mp hfin
        rw [hout hruns]
        exact hends hruns
      · have hprefix : (streamSync m req left sampled).sent <+: _ :=
          (hprepared.streamSync_cut left).2
        rw [hsent] at hprefix
        obtain rfl := isLast_of_sent hk hprefix
        exact hends hruns
  -- Without a prepared context nothing is decoded past the prompt.
  · obtain ⟨decoded, e, e', hfails, hbelow⟩ := exists_failsEarly htokens hfits hprep
    exact iff_of_true (hfails.keepsContext (hbelow.mono (Nat.le_of_lt hfits)))
      fun decoded hprepared => absurd ⟨decoded, hprepared⟩ hprep

theorem keepsContext_words :
    KeepsContext (wordModel 8) (wordRequest 16 []) wordsSampled ["<s>"] := by
  refine (keepsContext_iff rfl (by decide)).mpr fun decoded _ => ⟨fun k hk => .inl ?_, fun _ => ?_⟩
  · have hlast : IsLast (wordModel 8) (wordRequest 16 []) wordsSampled 3 := ⟨by decide, by decide⟩
    rw [hk.unique hlast]
    decide
  · exact .inl (by decide)

/-- With room for one token the second is decoded outside of the context; and the largest
    limit ends the generation after the first. -/
theorem not_keepsContext_words :
    ¬ KeepsContext (wordModel 2) (wordRequest 16 []) wordsSampled ["<s>"] ∧
      ¬ KeepsContext (wordModel 8) (wordRequest 4294967295 []) wordsSampled ["<s>"] := by
  constructor
  · intro hkeeps
    have hprepared := prepared_wordRequest 0 16 []
    have hbelow := hkeeps.generated .cpu 0
    rw [hprepared.generateSync_decoded] at hbelow
    have hgoes : Goes (wordModel 2) (wordRequest 16 []) wordsSampled [[⟨"<s>", 0, true⟩]] 1 1 := by
      refine ⟨by decide, fun i hi => ?_⟩
      obtain rfl : i = 0 := by omega
      rfl
    have hfits := ((steps_generateFrom _ 1).below_iff (hprepared.below.mono (by decide))).mp hbelow
      1 hgoes
    exact absurd hfits (by decide)
  · intro hkeeps
    have hprepared := prepared_wordRequest 6 4294967295 []
    have hlast : IsLast (wordModel 8) (wordRequest 4294967295 []) wordsSampled 0 :=
      ⟨by decide, by decide⟩
    have hruns : RunsOn (wordModel 8) (wordRequest 4294967295 []) wordsSampled 0 := by decide
    have hresp : (generateSync (wordModel 8) (wordRequest 4294967295 []) .cpu 0
        wordsSampled).result = .ok _ :=
      (hprepared.generateSync_eq_ok hlast).mpr ⟨fun j hj => absurd hj (Nat.not_lt_zero j), rfl⟩
    obtain ⟨hfinish, hout⟩ := hprepared.limit_of_response hlast hresp
    have hlimit := hkeeps.generatedLimit _ _ _ hresp (hfinish.mpr hruns)
    rw [hout hruns] at hlimit
    exact absurd hlimit (by decide)

end Maranode.Inference
