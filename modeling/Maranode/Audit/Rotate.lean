/-
  Maranode.Audit.Rotate

  `rotate.rs`: the active log moves into a zip segment that the manifest records.
-/
import Maranode.Audit.Disk

namespace Maranode.Audit

open Lib Common

variable (X : External)

/-! ## Reading a log -/

/-- The lines a reader looks at. -/
def contentLines (content : Text) : List Text :=
  (Text.lines content).filter fun l => !Text.isBlank l

/-- The entries of a log, for the readers that pass over what does not parse. -/
def entriesIn (content : Text) : List AuditEntry :=
  (contentLines content).filterMap (AuditEntry.fromStr X)

/-- `rotate::Summary`. -/
structure Summary where
  seqStart : Nat
  seqEnd : Nat
  entries : Nat
  firstPrevHmac : String
  lastHmac : String
  tsFirst : DateTime
  tsLast : DateTime

/-- The variables of `summarize`'s loop. -/
structure SummaryAcc where
  seqStart : Option Nat := none
  firstPrevHmac : String := ""
  tsFirst : Option DateTime := none
  seqEnd : Nat := 0
  lastHmac : String := ""
  tsLast : Option DateTime := none
  entries : Nat := 0

def SummaryAcc.add (a : SummaryAcc) (e : AuditEntry) : SummaryAcc where
  seqStart := if a.seqStart.isNone then some e.seq else a.seqStart
  firstPrevHmac := if a.seqStart.isNone then e.prevHmac else a.firstPrevHmac
  tsFirst := if a.seqStart.isNone then some e.ts else a.tsFirst
  seqEnd := e.seq
  lastHmac := e.hmac
  tsLast := some e.ts
  entries := a.entries + 1

def SummaryAcc.finish (a : SummaryAcc) : Option Summary :=
  a.seqStart.bind fun seqStart =>
    a.tsFirst.bind fun tsFirst =>
      a.tsLast.map fun tsLast =>
        { seqStart, seqEnd := a.seqEnd, entries := a.entries, firstPrevHmac := a.firstPrevHmac,
          lastHmac := a.lastHmac, tsFirst, tsLast }

/-- `rotate::summarize`. -/
def summarize (content : Text) : Option Summary :=
  ((entriesIn X content).foldl SummaryAcc.add {}).finish

/-- `rotate::oldest_ts`. -/
def oldestTs (content : Text) : Option DateTime := (entriesIn X content).head?.map (·.ts)

/-! ## Segments and the manifest -/

/-- `rotate::RotateConfig`. -/
structure RotateConfig where
  maxBytes : Nat
  maxAgeDays : Nat

def RotateConfig.enabled (cfg : RotateConfig) : Bool := 0 < cfg.maxBytes || 0 < cfg.maxAgeDays

/-- What `Utc::now` answers at the three places a rotation asks. -/
structure RotateClock where
  age : DateTime
  stamp : DateTime
  rotatedAt : DateTime

def innerName : String := "audit.jsonl"

/-- `audit-{seq_start}-{seq_end}-{stamp}.jsonl.zip`. -/
def segmentFile (seqStart seqEnd : Nat) (stamp : String) : String :=
  "audit-" ++ toString seqStart ++ "-" ++ toString seqEnd ++ "-" ++ stamp ++ ".jsonl.zip"

/-- `rotate::load_manifest`. -/
def loadManifest (d : Disk) : Manifest := d.manifest.getD { version := 1, segments := [] }

/-- `rotate::save_manifest`: a temporary file renamed over the manifest. -/
def saveManifest (d : Disk) (m : Manifest) : Disk := { d with manifest := some m }

/-- The record `seal_segment` makes of the log bytes. -/
def segmentOf (logBytes : Bytes) (sum : Summary) (clk : RotateClock) : Segment where
  file := segmentFile sum.seqStart sum.seqEnd (X.formatStamp clk.stamp)
  seqStart := sum.seqStart
  seqEnd := sum.seqEnd
  entries := sum.entries
  firstPrevHmac := sum.firstPrevHmac
  lastHmac := sum.lastHmac
  tsFirst := sum.tsFirst
  tsLast := sum.tsLast
  sha256 := X.sha256 (X.zipWrite innerName logBytes)
  rotatedAt := clk.rotatedAt

/-- The first half of `seal_segment`: the zip file. -/
def writeSegmentZip (d : Disk) (logBytes : Bytes) (seg : Segment) : Disk :=
  d.writeSegment seg.file (X.zipWrite innerName logBytes)

/-- The second half of `seal_segment`: the manifest gets the record. -/
def pushSegment (d : Disk) (seg : Segment) : Disk :=
  let m := loadManifest d
  saveManifest d
    { version := if m.version = 0 then 1 else m.version, segments := m.segments ++ [seg] }

/-- `rotate::seal_segment`. -/
def sealSegment (d : Disk) (logBytes : Bytes) (sum : Summary) (clk : RotateClock) :
    Segment × Disk :=
  let seg := segmentOf X logBytes sum clk
  (seg, pushSegment (writeSegmentZip X d logBytes seg) seg)

/-- `max_by_key(|s| s.seq_end)`, which keeps the last of several maxima. -/
def maxBySeqEnd (segs : List Segment) : Option Segment :=
  segs.foldl
    (fun best s =>
      match best with
      | none => some s
      | some b => if b.seqEnd ≤ s.seqEnd then some s else some b) none

/-- `rotate::recover_tail`. -/
def recoverTail (d : Disk) : Option (Nat × String) :=
  (maxBySeqEnd (loadManifest d).segments).map fun s => (s.seqEnd, s.lastHmac)

/-- `rotate::read_segment`: an error when the file is missing, its digest is not the
    recorded one, or the member does not read as text. -/
def readSegment (d : Disk) (seg : Segment) : Option Text :=
  (d.segments seg.file).bind fun bytes =>
    if X.sha256 bytes = seg.sha256 then (X.zipRead bytes innerName).bind Text.decode else none

/-- `rotate::enforce_segment_retention`, with the number of segments removed. -/
def enforceSegmentRetention (d : Disk) (retainDays : Nat) (now : DateTime) : Disk × Nat :=
  if retainDays = 0 then (d, 0)
  else
    let m := loadManifest d
    if m.segments.isEmpty then (d, 0)
    else
      let cutoff := now - days retainDays
      let expired := m.segments.filter (·.tsLast < cutoff)
      let keep := m.segments.filter fun seg => !decide (seg.tsLast < cutoff)
      let d' := expired.foldl (fun d seg => d.removeSegment seg.file) d
      if 0 < expired.length then
        (saveManifest d' { m with segments := keep }, expired.length)
      else (d', 0)

end Maranode.Audit
