/-
  Maranode.Cli.VerifySources

  `audit verify-sources`: the chunks a receipt names are looked up in the RAG store and
  hashed again.

  The hash is compared with the row's own `content_hash`, and the one in the receipt is only
  printed.  The store is opened without a key, so what is hashed is the column as it stands:
  the ciphertext, where a workspace has a key.
-/
import Maranode.Cli.Replay
import Maranode.Rag.Store

namespace Maranode.Rag

open Lib

/-! ## The store -/

variable (X : External) (G : Store.Aead)

/-- `sha256_hex(text.as_bytes())`. -/
def sha256Hex (text : String) : String := X.sha256 (Text.encode text.toList)

def Database.chunk (db : Database) (chunkId : String) : Option StoredChunk :=
  db.chunks.find? fun ch => ch.id == chunkId

/-- `verify_chunk_hash`: the stored hash, the computed one, and whether they agree. -/
def VectorStore.verifyChunkHash (s : VectorStore) (chunkId : String) :
    Except String (String × String × Bool) :=
  match s.conn.chunk chunkId with
  | none => .error "Query returned no rows"
  | some row =>
      let computed := sha256Hex X (readCell G s.dek row.text)
      .ok (row.contentHash, computed, computed == row.contentHash)

end Maranode.Rag

namespace Maranode.Cli

open Lib Common Rag Audit

/-! ## The command -/

/-- `&s[..n]`; none when it panics, because `n` bytes are too many or end inside a
    character. -/
def sliceTo (n : Nat) (s : String) : Option String :=
  let bytes := Text.encode s.toList
  if n ≤ bytes.length then (Text.decode (bytes.take n)).map String.ofList else none

/-- What is printed for a source. -/
inductive SourceLine where
  | hashOk (id source : String)
  | tampered (id source receipt stored computed : String)
  | notFound (id e : String)

def SourceLine.isOk : SourceLine → Bool
  | .hashOk .. => true
  | _ => false

inductive SourcesReport where
  | error (e : String)
  | panicked
  | notGrounded
  | verified (lines : List SourceLine) (sources : Nat)
  | failed (lines : List SourceLine)

/-- The exit status is 0. -/
def SourcesReport.success : SourcesReport → Bool
  | .notGrounded => true
  | .verified .. => true
  | _ => false

variable (X : External) (G : Store.Aead)

def sourceLine (store : VectorStore) (src : SourceRef) : Option SourceLine :=
  (sliceTo 8 src.chunkId).map fun id =>
    match store.verifyChunkHash X G src.chunkId with
    | .ok (stored, computed, agree) =>
        if agree then .hashOk id src.source
        else .tampered id src.source src.chunkHash stored computed
    | .error e => .notFound id e

/-- `verify_sources`; `content` is none when there is no log, and `db` is `rag.db`. -/
def verifySources (logPath : String) (content : Option Text) (recordId : String)
    (db : Database) : SourcesReport :=
  match content with
  | none => .error s!"no audit log found at {logPath}"
  | some content =>
      match storedReceipt X content recordId with
      | none => .error s!"no receipt found for request id {recordId}"
      | some receipt =>
          if receipt.sources.isEmpty then .notGrounded
          else
            match receipt.sources.mapM (sourceLine X G ⟨db, none⟩) with
            | none => .panicked
            | some lines =>
                if lines.all SourceLine.isOk then .verified lines receipt.sources.length
                else .failed lines

/-! ## What it should say -/

/-- The receipts in a log. -/
def receiptsIn (content : Text) : List InferenceReceipt :=
  (entriesIn X content).filterMap fun e =>
    match e.event with
    | .inferenceReceipt receipt => some receipt
    | _ => none

/-- The chunk is there, and its plaintext has the hash of the receipt.  `dek` is the key of
    the workspace whose store it is. -/
def Intact (dek : Option Dek) (db : Database) (src : SourceRef) : Prop :=
  ∃ row, db.chunk src.chunkId = some row ∧
    sha256Hex X (readCell G dek row.text) = src.chunkHash

/-- The chunk is there, and `content_hash` is the hash of the column `text` as it stands. -/
def SelfConsistent (db : Database) (src : SourceRef) : Prop :=
  ∃ row, db.chunk src.chunkId = some row ∧ sha256Hex X row.text = row.contentHash

/-- The id has a character boundary behind its first eight bytes. -/
def Abbreviates (src : SourceRef) : Prop := ∃ id, sliceTo 8 src.chunkId = some id

/-- The command is successful exactly when all sources are intact. -/
def VerifiesSources (dek : Option Dek) (logPath : String) (content : Text) (db : Database)
    (receipt : InferenceReceipt) : Prop :=
  (verifySources X G logPath (some content) receipt.requestId db).success = true ↔
    ∀ src ∈ receipt.sources, Intact X G dek db src

/-- Text and `content_hash` were changed together: every row agrees with itself, and one of
    them not with the receipt. -/
def Overlooked (dek : Option Dek) (db : Database) (first receipt : InferenceReceipt) : Prop :=
  (∀ src ∈ first.sources, Abbreviates src ∧ SelfConsistent X db src) ∧
    ∃ src ∈ receipt.sources, ¬ Intact X G dek db src

/-- Nothing was changed that a receipt is about, and a row does not agree with itself: it is
    encrypted, or its `content_hash` is another; or the id is too short to be printed. -/
def Misjudged (dek : Option Dek) (db : Database) (first receipt : InferenceReceipt) : Prop :=
  (∀ src ∈ receipt.sources, Intact X G dek db src) ∧
    ∃ src ∈ first.sources, ¬ (Abbreviates src ∧ SelfConsistent X db src)

/-! ## What it says -/

variable {X G} {dek : Option Dek} {db : Database} {src : SourceRef}

theorem readCell_none (text : String) : readCell G none text = text := by
  rw [readCell, maybeDecrypt]
  cases isEncrypted text with
  | true => rfl
  | false => rfl

theorem verifyChunkHash_of_none {chunkId : String} (h : db.chunk chunkId = none) :
    VectorStore.verifyChunkHash X G ⟨db, none⟩ chunkId = .error "Query returned no rows" := by
  rw [VectorStore.verifyChunkHash, h]

theorem verifyChunkHash_of_some {chunkId : String} {row : StoredChunk}
    (h : db.chunk chunkId = some row) :
    VectorStore.verifyChunkHash X G ⟨db, none⟩ chunkId
      = .ok (row.contentHash, sha256Hex X row.text, sha256Hex X row.text == row.contentHash) := by
  rw [VectorStore.verifyChunkHash, h]
  dsimp only
  rw [readCell_none]

/-- A source is found to be in order when its row agrees with itself. -/
theorem isOk_sourceLine :
    (∃ line, sourceLine X G ⟨db, none⟩ src = some line ∧ line.isOk = true) ↔
      Abbreviates src ∧ SelfConsistent X db src := by
  rw [sourceLine, Abbreviates, SelfConsistent]
  -- An id shorter than eight bytes is cut out of range.
  cases hid : sliceTo 8 src.chunkId with
  | none =>
      refine iff_of_false ?_ ?_
      · rintro ⟨line, h, -⟩
        cases h
      · rintro ⟨⟨id, h⟩, -⟩
        cases h
  | some id =>
      rw [Option.map_some, and_iff_right ⟨id, rfl⟩]
      -- The row is looked up by the id; a missing one is reported and not counted as good.
      cases hrow : db.chunk src.chunkId with
      | none =>
          rw [verifyChunkHash_of_none hrow]
          refine iff_of_false ?_ ?_
          · rintro ⟨line, h, hok⟩
            rw [← Option.some.inj h] at hok
            cases hok
          · rintro ⟨row, h, -⟩
            cases h
      | some row =>
          rw [verifyChunkHash_of_some hrow]
          dsimp only
          -- Then the row's own hash decides, and the source's hash is not looked at.
          by_cases hsame : sha256Hex X row.text = row.contentHash
          · rw [if_pos (beq_iff_eq.mpr hsame)]
            exact iff_of_true ⟨_, rfl, rfl⟩ ⟨row, rfl, hsame⟩
          · rw [if_neg fun hbeq => hsame (beq_iff_eq.mp hbeq)]
            refine iff_of_false ?_ ?_
            · rintro ⟨line, h, hok⟩
              rw [← Option.some.inj h] at hok
              cases hok
            · rintro ⟨row', h, hhash⟩
              obtain rfl := Option.some.inj h
              exact hsame hhash

theorem all_isOk_iff {f : SourceRef → Option SourceLine} {srcs : List SourceRef} :
    (∃ lines, srcs.mapM f = some lines ∧ lines.all SourceLine.isOk = true) ↔
      ∀ src ∈ srcs, ∃ line, f src = some line ∧ line.isOk = true := by
  induction srcs with
  | nil => exact iff_of_true ⟨[], rfl, rfl⟩ fun _ h => absurd h List.not_mem_nil
  | cons src srcs ih =>
      rw [List.forall_mem_cons, ← ih, List.mapM_cons]
      constructor
      · rintro ⟨lines, hlines, hall⟩
        obtain ⟨line, hline, hrest⟩ := Option.bind_eq_some_iff.mp hlines
        obtain ⟨rest, hmapped, heq⟩ := Option.bind_eq_some_iff.mp hrest
        rw [← Option.some.inj heq, List.all_cons, Bool.and_eq_true] at hall
        exact ⟨⟨line, hline, hall.1⟩, rest, hmapped, hall.2⟩
      · rintro ⟨⟨line, hline, hok⟩, rest, hmapped, hall⟩
        refine ⟨line :: rest, ?_, ?_⟩
        · rw [hline, hmapped]
          rfl
        · rw [List.all_cons, hok, hall]
          rfl

/-- The command is successful when all rows of the receipt it finds agree with themselves. -/
theorem success_verifySources_iff {logPath recordId : String} {content : Text}
    {first : InferenceReceipt} (h : storedReceipt X content recordId = some first) :
    (verifySources X G logPath (some content) recordId db).success = true ↔
      ∀ src ∈ first.sources, Abbreviates src ∧ SelfConsistent X db src := by
  have hlines := @all_isOk_iff (sourceLine X G ⟨db, none⟩) first.sources
  rw [forall₂_congr fun src _ => @isOk_sourceLine X G db src] at hlines
  rw [← hlines, verifySources]
  simp only [h]
  cases hsrcs : first.sources with
  | nil => exact iff_of_true rfl ⟨[], rfl, rfl⟩
  | cons src srcs =>
      rw [List.isEmpty_cons, if_neg Bool.false_ne_true]
      cases hmapped : (src :: srcs).mapM (sourceLine X G ⟨db, none⟩) with
      | none =>
          refine iff_of_false Bool.false_ne_true ?_
          rintro ⟨lines, hnone, -⟩
          cases hnone
      | some lines =>
          dsimp only
          cases hall : lines.all SourceLine.isOk with
          | true => exact iff_of_true rfl ⟨lines, rfl, hall⟩
          | false =>
              refine iff_of_false Bool.false_ne_true ?_
              rintro ⟨lines', hlines', hok⟩
              rw [← Option.some.inj hlines', hall] at hok
              cases hok

/-- The command finds a receipt of that request for every receipt in the log. -/
theorem exists_storedReceipt {content : Text} {receipt : InferenceReceipt}
    (h : receipt ∈ receiptsIn X content) :
    ∃ first, storedReceipt X content receipt.requestId = some first := by
  obtain ⟨e, he, hevent⟩ := List.mem_filterMap.mp h
  have hown : receiptOf receipt.requestId e.event = some receipt := by
    split at hevent
    · next receipt' heq =>
        rw [heq, Option.some.inj hevent]
        exact if_pos rfl
    · cases hevent
  rw [storedReceipt, ← Option.isSome_iff_exists, List.findSome?_isSome_iff]
  exact ⟨e, he, by rw [hown]; rfl⟩

variable (X G) in
/-- **Sources.**  The command is right about a receipt unless text and `content_hash` were
    changed together, or a row that was not changed does not agree with itself. -/
theorem verifiesSources_iff (dek : Option Dek) (logPath : String) (content : Text)
    (db : Database) (receipt : InferenceReceipt) (h : receipt ∈ receiptsIn X content) :
    ∃ first, storedReceipt X content receipt.requestId = some first ∧
      (VerifiesSources X G dek logPath content db receipt ↔
        ¬ Overlooked X G dek db first receipt ∧ ¬ Misjudged X G dek db first receipt) := by
  obtain ⟨first, hfirst⟩ := exists_storedReceipt h
  refine ⟨first, hfirst, ?_⟩
  rw [VerifiesSources, success_verifySources_iff hfirst, Overlooked, Misjudged]
  constructor
  · intro hsame
    refine ⟨?_, ?_⟩
    · rintro ⟨hconsistent, src, hsrc, hnot⟩
      exact hnot (hsame.mp hconsistent src hsrc)
    · rintro ⟨hintact, src, hsrc, hnot⟩
      exact hnot (hsame.mpr hintact src hsrc)
  · rintro ⟨hseen, hjudged⟩
    constructor
    · intro hconsistent src hsrc
      by_contra hnot
      exact hseen ⟨hconsistent, src, hsrc, hnot⟩
    · intro hintact src hsrc
      by_contra hnot
      exact hjudged ⟨hintact, src, hsrc, hnot⟩

/-- It is right when no `content_hash` was changed and nothing is encrypted. -/
theorem verifiesSources_of_kept {logPath : String} {content : Text} {receipt : InferenceReceipt}
    (hfound : storedReceipt X content receipt.requestId = some receipt)
    (hids : ∀ src ∈ receipt.sources, Abbreviates src)
    (hkept : ∀ src ∈ receipt.sources, ∀ row, db.chunk src.chunkId = some row →
      readCell G dek row.text = row.text ∧ row.contentHash = src.chunkHash) :
    VerifiesSources X G dek logPath content db receipt := by
  rw [VerifiesSources, success_verifySources_iff hfound]
  refine forall₂_congr fun src hsrc => ?_
  rw [and_iff_right (hids src hsrc), SelfConsistent, Intact]
  refine exists_congr fun row => and_congr_right fun hrow => ?_
  obtain ⟨hclear, hhash⟩ := hkept src hsrc row hrow
  rw [hclear, hhash]

/-! ## A receipt with one source -/

def leaveSource : SourceRef where
  chunkId := "c1a2b3c4-0000-4000-8000-000000000000"
  docId := "d1"
  source := "handbook.txt"
  docSha256 := "ab"
  chunkHash := sha256Hex .sample "Leave is 25 days."
  score := ⟨0, F32.finite_zero⟩

def leaveReceipt : InferenceReceipt where
  version := receiptVersion
  receiptId := 0
  requestId := "7d3e"
  timestamp := 0
  modelId := "tiny:bytes"
  modelSha256 := "ab"
  modelQuant := none
  inputSha256 := "cd"
  outputSha256 := "ef"
  decodeParams := ⟨none, none, none, none, true⟩
  tokensIn := 1
  tokensOut := 1
  signingKeyId := "00"
  tpmPcr := none
  env := ⟨"none", 1, "cpu"⟩
  sources := [leaveSource]
  grounded := true
  signature := none

/-- The log with the receipt. -/
def leaveLog : Text := logText .sample [⟨1, 0, "api", .inferenceReceipt leaveReceipt, "", ""⟩]

theorem entriesIn_leaveLog :
    entriesIn .sample leaveLog = [⟨1, 0, "api", .inferenceReceipt leaveReceipt, "", ""⟩] := by
  rw [leaveLog, entriesIn_logText]
  rfl

theorem mem_receiptsIn_leaveLog : leaveReceipt ∈ receiptsIn .sample leaveLog := by
  rw [receiptsIn, entriesIn_leaveLog]
  exact List.mem_singleton_self _

theorem storedReceipt_leaveLog :
    storedReceipt .sample leaveLog leaveReceipt.requestId = some leaveReceipt := by
  rw [storedReceipt, entriesIn_leaveLog]
  rfl

def leaveDocument : DocumentRow where
  id := "d1"
  collection := "hr"
  source := "handbook.txt"
  sha256 := "ab"
  ingestedAt := "2025-01-01T00:00:00Z"
  title := none
  author := none
  pageCount := 1
  summary := none

def leaveRow (text contentHash : String) : StoredChunk :=
  .of leaveDocument
    { id := leaveSource.chunkId
      ordinal := 0
      text := text
      embedding := []
      pageNumber := 1
      section_ := none
      contentHash := contentHash }

theorem owned_leaveRow (text contentHash : String) :
    Owned [leaveDocument] [leaveRow text contentHash] := by
  intro ch hch
  rw [List.mem_singleton.mp hch]
  exact ⟨leaveDocument, List.mem_singleton_self _, rfl, rfl⟩

/-- The store with the chunk of the source. -/
def leaveStore (text contentHash : String) : Database where
  collections := []
  documents := [leaveDocument]
  chunks := [leaveRow text contentHash]
  ids := List.nodup_singleton _
  owned := owned_leaveRow text contentHash

theorem chunk_leaveStore (text contentHash : String) :
    (leaveStore text contentHash).chunk leaveSource.chunkId = some (leaveRow text contentHash) :=
  List.find?_cons_of_pos (beq_self_eq_true leaveSource.chunkId)

theorem abbreviates_leaveSource : Abbreviates leaveSource := ⟨"c1a2b3c4", by decide⟩

/-- The chunk as it was stored. -/
theorem verifiesSources_leave :
    ∃ first, storedReceipt .sample leaveLog leaveReceipt.requestId = some first ∧
      VerifiesSources .sample .sample none "/data/audit/hr.jsonl" leaveLog
        (leaveStore "Leave is 25 days." leaveSource.chunkHash) leaveReceipt := by
  obtain ⟨first, hfirst, hiff⟩ := verifiesSources_iff .sample .sample none "/data/audit/hr.jsonl"
    leaveLog (leaveStore "Leave is 25 days." leaveSource.chunkHash) leaveReceipt
    mem_receiptsIn_leaveLog
  refine ⟨first, hfirst, hiff.mpr ⟨?_, ?_⟩⟩
  · rintro ⟨-, src, hsrc, hnot⟩
    rw [List.mem_singleton.mp hsrc] at hnot
    exact hnot ⟨_, chunk_leaveStore _ _, congrArg _ (readCell_none _)⟩
  · rintro ⟨-, src, hsrc, hnot⟩
    rw [storedReceipt_leaveLog] at hfirst
    rw [← Option.some.inj hfirst] at hsrc
    rw [List.mem_singleton.mp hsrc] at hnot
    exact hnot ⟨abbreviates_leaveSource, _, chunk_leaveStore _ _, rfl⟩

theorem sha256Hex_ne : sha256Hex .sample "Leave is 99 days." ≠ leaveSource.chunkHash := by
  decide +kernel

/-- The chunk in a workspace with a key. -/
def leaveKey : Dek := Store.filled 32 7

def leaveNonce : ByteArr 12 := Store.filled 12 1

def sealedLeave : String :=
  let ciphertext :=
    Store.sealHeader leaveKey leaveNonce ++ Text.encode "Leave is 25 days.".toList
  String.ofList (PREFIX ++ Hex.encode (leaveNonce.1 ++ ciphertext))

theorem encrypt_leave :
    encrypt .sample leaveNonce leaveKey "Leave is 25 days." = .ok sealedLeave := rfl

theorem readCell_sealedLeave :
    readCell .sample (some leaveKey) sealedLeave = "Leave is 25 days." := by
  obtain ⟨hsealed, -⟩ := decrypt_of_encrypt leaveKey encrypt_leave
  rw [readCell, maybeDecrypt, if_pos hsealed]
  simp only [decrypt_encrypt encrypt_leave]

theorem sha256Hex_sealedLeave_ne : sha256Hex .sample sealedLeave ≠ leaveSource.chunkHash := by
  decide +kernel

/-- Text and `content_hash` were replaced together; and a workspace with a key, in which
    nothing was. -/
theorem not_verifiesSources :
    ¬ VerifiesSources .sample .sample none "/data/audit/hr.jsonl" leaveLog
        (leaveStore "Leave is 99 days." (sha256Hex .sample "Leave is 99 days.")) leaveReceipt ∧
      ¬ VerifiesSources .sample .sample (some leaveKey) "/data/audit/hr.jsonl" leaveLog
        (leaveStore sealedLeave leaveSource.chunkHash) leaveReceipt := by
  constructor
  · intro h
    rw [VerifiesSources, success_verifySources_iff storedReceipt_leaveLog] at h
    have hconsistent : ∀ src ∈ leaveReceipt.sources, Abbreviates src ∧ SelfConsistent .sample
        (leaveStore "Leave is 99 days." (sha256Hex .sample "Leave is 99 days.")) src := by
      intro src hsrc
      rw [List.mem_singleton.mp hsrc]
      exact ⟨abbreviates_leaveSource, _, chunk_leaveStore _ _, rfl⟩
    obtain ⟨row, hrow, hhash⟩ := h.mp hconsistent leaveSource (List.mem_singleton_self _)
    rw [chunk_leaveStore] at hrow
    rw [← Option.some.inj hrow, readCell_none] at hhash
    exact sha256Hex_ne hhash
  · intro h
    rw [VerifiesSources, success_verifySources_iff storedReceipt_leaveLog] at h
    have hintact : ∀ src ∈ leaveReceipt.sources, Intact .sample .sample (some leaveKey)
        (leaveStore sealedLeave leaveSource.chunkHash) src := by
      intro src hsrc
      rw [List.mem_singleton.mp hsrc]
      exact ⟨_, chunk_leaveStore _ _, congrArg _ readCell_sealedLeave⟩
    obtain ⟨-, row, hrow, hhash⟩ := h.mpr hintact leaveSource (List.mem_singleton_self _)
    rw [chunk_leaveStore] at hrow
    rw [← Option.some.inj hrow] at hhash
    exact sha256Hex_sealedLeave_ne hhash

end Maranode.Cli
