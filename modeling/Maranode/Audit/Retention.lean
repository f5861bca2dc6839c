/-
  Maranode.Audit.Retention

  `retention.rs`: old lines are dropped by writing the others to a temporary file
  and renaming it over the log.

  A pass takes no lock, so its three steps are separate here; `pruneLog` is a pass
  that nothing else runs into.
-/
import Maranode.Audit.Log

namespace Maranode.Audit

open Lib Common

variable (X : External)

/-- `prune_log` drops the line. -/
def isPruned (cutoff : DateTime) (line : Text) : Bool :=
  match AuditEntry.fromStr X line with
  | some e => decide (e.ts < cutoff)
  | none => false

/-- The lines `prune_log` keeps. -/
def keptLines (cutoff : DateTime) (content : Text) : List Text :=
  (contentLines content).filter fun l => !isPruned X cutoff l

/-- How many lines `prune_log` drops. -/
def prunedCount (cutoff : DateTime) (content : Text) : Nat :=
  ((contentLines content).filter (isPruned X cutoff)).length

/-- The bytes that replace the log. -/
def keptBytes (kept : List Text) : Bytes := Text.encode (Text.joinLines kept)

/-- What a pass found when it read the log. -/
structure PrunePlan where
  kept : List Text
  pruned : Nat

/-- The first step: read the file. -/
def pruneRead (d : Disk) (retainDays : Nat) (now : DateTime) : Option PrunePlan :=
  if retainDays = 0 then none
  else
    match d.log with
    | none => some { kept := [], pruned := 0 }
    | some _ =>
        let cutoff := now - days retainDays
        d.readLog.map fun content =>
          { kept := keptLines X cutoff content, pruned := prunedCount X cutoff content }

/-- The second step: write the temporary file. -/
def pruneWrite (d : Disk) (plan : PrunePlan) : Disk := d.writeTmp (keptBytes plan.kept)

/-- The third step: rename it over the log. -/
def pruneRename (d : Disk) : Option Disk := d.renameTmp

/-- `prune_log`, with the number of lines dropped. -/
def pruneLog (d : Disk) (retainDays : Nat) (now : DateTime) : Option (Disk × Nat) :=
  (pruneRead X d retainDays now).bind fun plan =>
    if 0 < plan.pruned then
      (pruneRename (pruneWrite d plan)).map fun d => (d, plan.pruned)
    else some (d, plan.pruned)

end Maranode.Audit
