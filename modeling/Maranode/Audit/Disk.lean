/-
  Maranode.Audit.Disk

  The files of one audit directory.

  `prune_log` renames a new file over the log while the daemon keeps its append
  handle, so the log file is not a path but an inode: the path points to one, a
  handle keeps its own.  The manifest is kept as the record it parses to; segment
  files are bytes under their names.
-/
import Maranode.Audit.Chain
import Mathlib.Logic.Function.Basic

namespace Maranode.Audit

open Lib

/-- `rotate::Segment`. -/
structure Segment where
  file : String
  seqStart : Nat
  seqEnd : Nat
  entries : Nat
  firstPrevHmac : String
  lastHmac : String
  tsFirst : DateTime
  tsLast : DateTime
  sha256 : String
  rotatedAt : DateTime

/-- `rotate::Manifest`. -/
structure Manifest where
  version : Nat
  segments : List Segment

structure Disk where
  /-- What the files that were ever opened hold, by inode. -/
  data : Nat → Bytes
  /-- The first inode not yet used. -/
  next : Nat
  /-- `audit.jsonl`. -/
  log : Option Nat
  /-- `audit.jsonl.tmp`. -/
  tmp : Option Nat
  /-- `audit.key`. -/
  key : Option Bytes
  /-- The files of `audit-rotated/`. -/
  segments : String → Option Bytes
  /-- `audit-rotated/segments.json`. -/
  manifest : Option Manifest

namespace Disk

/-- An empty directory. -/
def empty : Disk where
  data := fun _ => []
  next := 0
  log := none
  tmp := none
  key := none
  segments := fun _ => none
  manifest := none

/-- `write_all` through a handle opened for appending. -/
def write (d : Disk) (ino : Nat) (bs : Bytes) : Disk :=
  { d with data := Function.update d.data ino (d.data ino ++ bs) }

/-- `create(true).append(true)` on the log path. -/
def openAppend (d : Disk) : Disk × Nat :=
  match d.log with
  | some i => (d, i)
  | none =>
      ({ d with data := Function.update d.data d.next [], next := d.next + 1, log := some d.next },
        d.next)

/-- `write(true).create(true).truncate(true)` on the log path. -/
def truncateLog (d : Disk) : Disk :=
  match d.log with
  | some i => { d with data := Function.update d.data i [] }
  | none =>
      { d with data := Function.update d.data d.next [], next := d.next + 1, log := some d.next }

/-- `read_to_string` of the log path. -/
def readLog (d : Disk) : Option Text := d.log.bind fun i => Text.decode (d.data i)

/-- `write(true).create(true).truncate(true)` on the temporary path, and the
    kept lines written there. -/
def writeTmp (d : Disk) (bs : Bytes) : Disk :=
  match d.tmp with
  | some i => { d with data := Function.update d.data i bs }
  | none =>
      { d with data := Function.update d.data d.next bs, next := d.next + 1, tmp := some d.next }

/-- `rename` of the temporary path over the log path. -/
def renameTmp (d : Disk) : Option Disk :=
  d.tmp.map fun i => { d with log := some i, tmp := none }

/-- A segment file, created or overwritten. -/
def writeSegment (d : Disk) (file : String) (bs : Bytes) : Disk :=
  { d with segments := Function.update d.segments file (some bs) }

def removeSegment (d : Disk) (file : String) : Disk :=
  { d with segments := Function.update d.segments file none }

end Disk

end Maranode.Audit
