/-
  Maranode.Audit.Verify

  `verify.rs`: the chain checked over one file, and over the segments and the
  active file.
-/
import Maranode.Audit.Log

namespace Maranode.Audit

open Lib Common

variable (X : External)

structure ViolationDetail where
  seq : Nat
  detail : String

structure VerifyResult where
  entriesChecked : Nat
  ok : Bool
  firstViolation : Option ViolationDetail

structure Cursor where
  expectedSeq : Nat
  prevHmac : String
  checked : Nat

/-- The body of `walk`'s loop on a line that parsed. -/
def checkEntry (key : Bytes) (cur : Cursor) (entry : AuditEntry) : Option ViolationDetail :=
  if entry.seq ≠ cur.expectedSeq then
    some
      { seq := entry.seq
        detail := "sequence gap: expected " ++ toString cur.expectedSeq ++ ", got " ++
          toString entry.seq }
  else if entry.prevHmac ≠ cur.prevHmac then
    some
      { seq := entry.seq
        detail := "prev_hmac mismatch: expected " ++ cur.prevHmac ++ ", got " ++ entry.prevHmac }
  else if !verify X key (entryBody X entry) entry.hmac then
    some { seq := entry.seq, detail := "HMAC mismatch: entry has been tampered with" }
  else none

def Cursor.advance (cur : Cursor) (entry : AuditEntry) : Cursor where
  expectedSeq := entry.seq + 1
  prevHmac := entry.hmac
  checked := cur.checked + 1

/-- `walk`'s loop, with the number of the line it is at. -/
def walkFrom (key : Bytes) : Nat → List Text → Cursor → Cursor × Option ViolationDetail
  | _, [], cur => (cur, none)
  | lineNo, line :: rest, cur =>
      if Text.isBlank line then walkFrom key (lineNo + 1) rest cur
      else
        match AuditEntry.fromStr X line with
        | none =>
            (cur, some
              { seq := cur.expectedSeq
                detail := "JSON parse error at line " ++ toString (lineNo + 1) ++ ": " ++
                  X.jsonError line })
        | some entry =>
            match checkEntry X key cur entry with
            | some v => (cur, some v)
            | none => walkFrom key (lineNo + 1) rest (cur.advance entry)

/-- `walk`. -/
def walk (content : Text) (key : Bytes) (cur : Cursor) : Cursor × Option ViolationDetail :=
  walkFrom X key 0 (Text.lines content) cur

/-- `anchor`. -/
def anchor (content : Text) : Cursor :=
  let first := (contentLines content).head?.bind (AuditEntry.fromStr X)
  match first with
  | some e =>
      if 1 < e.seq then { expectedSeq := e.seq, prevHmac := e.prevHmac, checked := 0 }
      else { expectedSeq := 1, prevHmac := genesisHmac, checked := 0 }
  | none => { expectedSeq := 1, prevHmac := genesisHmac, checked := 0 }

def VerifyResult.of (r : Cursor × Option ViolationDetail) : VerifyResult where
  entriesChecked := r.1.checked
  ok := r.2.isNone
  firstViolation := r.2

/-- `verify_log`, on what the file holds. -/
def verifyContent (content : Text) (key : Bytes) : VerifyResult :=
  .of (walk X content key (anchor X content))

/-- `verify_log`: an error when the file does not read as text. -/
def verifyLog (d : Disk) (key : Bytes) : Option VerifyResult :=
  match d.log with
  | none => some { entriesChecked := 0, ok := true, firstViolation := none }
  | some _ => d.readLog.map fun content => verifyContent X content key

/-- The loop of `verify_all` over the segments. -/
def walkSegments (d : Disk) (key : Bytes) :
    List Segment → Cursor → Option (Cursor × Option ViolationDetail)
  | [], cur => some (cur, none)
  | seg :: rest, cur =>
      (readSegment X d seg).bind fun content =>
        match walk X content key cur with
        | (cur, some v) => some (cur, some v)
        | (cur, none) =>
            if cur.prevHmac ≠ seg.lastHmac then
              some (cur, some
                { seq := seg.seqEnd
                  detail := "segment " ++ seg.file ++ " last_hmac does not match its content" })
            else walkSegments d key rest cur

/-- Where `verify_all` starts: at the first segment. -/
def segmentAnchor (first : Segment) : Cursor where
  expectedSeq := first.seqStart
  prevHmac := if first.seqStart = 1 then genesisHmac else first.firstPrevHmac
  checked := 0

/-- `verify_all`: an error when a segment or the active file does not read. -/
def verifyAll (d : Disk) (key : Bytes) : Option VerifyResult :=
  let segments := (loadManifest d).segments.mergeSort fun s t => decide (s.seqStart ≤ t.seqStart)
  match segments with
  | [] => verifyLog X d key
  | first :: _ =>
      (walkSegments X d key segments (segmentAnchor first)).bind fun
        | (cur, some v) => some (.of (cur, some v))
        | (cur, none) =>
            match d.log with
            | none => some (.of (cur, none))
            | some _ => d.readLog.map fun content => .of (walk X content key cur)

end Maranode.Audit
