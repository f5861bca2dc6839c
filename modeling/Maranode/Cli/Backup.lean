/-
  Maranode.Cli.Backup

  `audit backup` and `audit restore`.

  A backup has the active logs and the keys, and neither segments nor manifests, so what is
  restored verifies as the directory did exactly when the segments held nothing
  (`verifyLog_agrees_iff`).  A restore checks each file just before it writes it.
-/
import Maranode.Audit.Export
import Maranode.Audit.Integrity
import Maranode.Audit.LogAlone
import Maranode.Lib.FileWrite
import Maranode.Lib.Path

namespace Maranode.Cli

open Lib Audit

/-! ## backup_audit -/

/-- A file of the archive: its name and its content. -/
abbrev Member := Path × Bytes

/-- What a backup reads: the audit directories, the keys of the evidence bundles, and the
    workspaces in the order of the directory. -/
structure BackupSource where
  main : Disk
  signingKey : Option Bytes
  verifyingKey : Option Bytes
  workspaces : List (Text × Disk)
  nodup : (workspaces.map Prod.fst).Nodup

def logName : Path := "audit.jsonl".toList

def keyName : Path := "audit.key".toList

def signingKeyName : Path := "bundle_signing.key".toList

def verifyingKeyName : Path := "bundle_signing.pub".toList

def manifestName : Path := "audit-rotated/segments.json".toList

def segmentName (file : String) : Path := "audit-rotated/".toList ++ file.toList

def inWorkspace (slug : Text) : Path := "workspaces/".toList ++ slug ++ ['/']

def logBytes (d : Disk) : Option Bytes := d.log.map d.data

/-- The files a backup looks for, in order. -/
def backupFiles (src : BackupSource) (includeWorkspaces : Bool) : List (Path × Option Bytes) :=
  [(logName, logBytes src.main), (keyName, src.main.key), (signingKeyName, src.signingKey),
    (verifyingKeyName, src.verifyingKey)] ++
  if includeWorkspaces then
    src.workspaces.flatMap fun w =>
      [(inWorkspace w.1 ++ logName, logBytes w.2), (inWorkspace w.1 ++ keyName, w.2.key)]
  else []

/-- `add`: a file that does not exist is passed over. -/
def add (file : Path × Option Bytes) : List Member := file.2.toList.map fun bytes => (file.1, bytes)

/-- `backup_audit`: the members of the archive. -/
def backupAudit (src : BackupSource) (includeWorkspaces : Bool) : List Member :=
  (backupFiles src includeWorkspaces).flatMap add

/-- The audit directories of a backup, each with where its files are. -/
def included (src : BackupSource) (includeWorkspaces : Bool) : List (Path × Disk) :=
  ([], src.main) ::
    if includeWorkspaces then src.workspaces.map fun w => (inWorkspace w.1, w.2) else []

/-! ## restore_audit -/

/-- The files and directories of the machine, at `Loc`. -/
structure Site (Loc : Type) where
  files : Loc → Option Bytes
  dirs : Loc → Bool

/-- How the calls for one member go. -/
structure RestoreCalls where
  byIndex : Option String
  mkdir : Option String
  read : Option String
  write : FileWrite.Fault

/-- No call fails. -/
def RestoreCalls.ok : RestoreCalls where
  byIndex := none
  mkdir := none
  read := none
  write := .none

variable {Loc : Type} [DecidableEq Loc]

def Site.createDirAll (d : Site Loc) (parents : List Loc) : Site Loc :=
  { d with dirs := fun l => d.dirs l || decide (l ∈ parents) }

def Site.put (d : Site Loc) (l : Loc) (content : Option Bytes) : Site Loc :=
  { d with files := Function.update d.files l content }

/-- Where the names of an archive lead below the data directory, and the directories above. -/
structure Target (Loc : Type) where
  dataDir : Path
  dest : Path → Loc
  parents : Path → List Loc

variable (t : Target Loc) (force : Bool) (calls : Nat → RestoreCalls)

/-- One turn of the loop. -/
def restoreEntry (c : RestoreCalls) (m : Member) (d : Site Loc) : Except String Unit × Site Loc :=
  match c.byIndex with
  | some e => (.error e, d)
  | none =>
      match c.mkdir with
      | some e => (.error e, d)
      | none =>
          let d := d.createDirAll (t.parents m.1)
          if (d.files (t.dest m.1)).isSome && !force then
            (.error (String.ofList (Path.join t.dataDir m.1) ++
              " already exists; use --force to overwrite"), d)
          else
            match c.read with
            | some e => (.error e, d)
            | none =>
                let (content, result) := FileWrite.write c.write (d.files (t.dest m.1)) m.2
                (result, d.put (t.dest m.1) content)

/-- The loop, from the member with number `i`. -/
def restoreEntries (i : Nat) : List Member → Site Loc → Except String Unit × Site Loc
  | [], d => (.ok (), d)
  | m :: ms, d =>
      match restoreEntry t force (calls i) m d with
      | (.error e, d) => (.error e, d)
      | (.ok (), d) => restoreEntries (i + 1) ms d

variable (X : External) (readManifest : Bytes → Option Manifest)

/-- The audit directory in these files; `none` when the manifest does not parse. -/
def auditDisk (files : Path → Option Bytes) (dir : Path) : Option Disk :=
  let disk : Disk :=
    { data := fun _ => (files (dir ++ logName)).getD []
      next := 1
      log := (files (dir ++ logName)).map fun _ => 0
      tmp := none
      key := files (dir ++ keyName)
      segments := fun file => files (dir ++ segmentName file)
      manifest := none }
  match files (dir ++ manifestName) with
  | none => some disk
  | some bytes => (readManifest bytes).map fun m => { disk with manifest := some m }

/-- `verify_all` there. -/
def verifyIn (files : Path → Option Bytes) (dir : Path) (key : Bytes) : Option VerifyResult :=
  (auditDisk readManifest files dir).bind fun d => verifyAll X d key

/-- What comes after the loop: a log is verified, under a new key when there is none. -/
def verifyRestored (rand : RandomKey) (d : Site Loc) :
    Except String (Option VerifyResult) × Site Loc :=
  if (d.files (t.dest logName)).isNone then (.ok none, d)
  else
    match d.files (t.dest keyName) with
    | none =>
        let d := d.put (t.dest keyName) (some rand.1)
        match verifyIn X readManifest (fun name => d.files (t.dest name)) [] rand.1 with
        | none => (.error "verify_all", d)
        | some r => (.ok (some r), d)
    | some key =>
        if key.length ≠ keyLen then (.error "audit key", d)
        else
          match verifyIn X readManifest (fun name => d.files (t.dest name)) [] key with
          | none => (.error "verify_all", d)
          | some r => (.ok (some r), d)

def restoreAudit (rand : RandomKey) (archive : List Member) (d : Site Loc) :
    Except String (Option VerifyResult) × Site Loc :=
  match restoreEntries t force calls 0 archive d with
  | (.error e, d) => (.error e, d)
  | (.ok (), d) => verifyRestored t X readManifest rand d

/-! ## All or nothing -/

/-- Every call for the member succeeds. -/
structure RestoreCalls.Pass (c : RestoreCalls) (m : Member) : Prop where
  byIndex : c.byIndex = none
  mkdir : c.mkdir = none
  read : c.read = none
  write : c.write.Passes m.2

/-- The member is turned down with nothing written and no directory made. -/
def TurnsDown (c : RestoreCalls) (m : Member) (d : Site Loc) : Prop :=
  c.byIndex ≠ none ∨ c.mkdir ≠ none ∨
    (∀ l ∈ t.parents m.1, d.dirs l = true) ∧
      (d.files (t.dest m.1) ≠ none ∨ c.read ≠ none ∨ ∃ e, c.write = .opening e)

/-- Every member, from the one with number `i`, can be written to a place of its own. -/
def AllLand (i : Nat) : List Member → Site Loc → Prop
  | [], _ => True
  | m :: ms, d =>
      ((calls i).Pass m ∧ d.files (t.dest m.1) = none) ∧
        (∀ m' ∈ ms, t.dest m'.1 ≠ t.dest m.1) ∧ AllLand (i + 1) ms d

/-- The first member is turned down. -/
def FirstStops (archive : List Member) (d : Site Loc) : Prop :=
  ∃ m ms, archive = m :: ms ∧ TurnsDown t (calls 0) m d

section Restore

variable {t calls} {c : RestoreCalls} {m : Member} {ms archive : List Member} {d : Site Loc}
  {l : Loc} {i : Nat}

theorem createDirAll_eq_iff {parents : List Loc} :
    d.createDirAll parents = d ↔ ∀ l ∈ parents, d.dirs l = true := by
  constructor
  · intro h l hl
    have hdirs := congrFun (congrArg Site.dirs h) l
    rw [← hdirs]
    simp [Site.createDirAll, hl]
  · intro h
    have hdirs : (d.createDirAll parents).dirs = d.dirs := by
      funext l
      show (d.dirs l || decide (l ∈ parents)) = d.dirs l
      by_cases hl : l ∈ parents
      · rw [h l hl, Bool.true_or]
      · rw [decide_eq_false hl, Bool.or_false]
    show ({ d with dirs := (d.createDirAll parents).dirs } : Site Loc) = d
    rw [hdirs]

/-- Directories are no files. -/
theorem occupied_eq (d : Site Loc) (parents : List Loc) (l : Loc) :
    (((d.createDirAll parents).files l).isSome && !false) = (d.files l).isSome := by
  rw [Bool.not_false, Bool.and_true]
  rfl

omit [DecidableEq Loc] in
theorem turnsDown_iff (hindex : c.byIndex = none) (hmkdir : c.mkdir = none) :
    TurnsDown t c m d ↔ (∀ l ∈ t.parents m.1, d.dirs l = true) ∧
      (d.files (t.dest m.1) ≠ none ∨ c.read ≠ none ∨ ∃ e, c.write = .opening e) := by
  rw [TurnsDown, or_iff_right (not_not.mpr hindex), or_iff_right (not_not.mpr hmkdir)]

/-- A member whose content is at hand, where there is no file: what the write does. -/
theorem restoreEntry_write_cases (hindex : c.byIndex = none) (hmkdir : c.mkdir = none)
    (hfile : d.files (t.dest m.1) = none) (hread : c.read = none) :
    ((c.Pass m ∧ d.files (t.dest m.1) = none) ∧
      restoreEntry t false c m d = (.ok (), (d.createDirAll (t.parents m.1)).put (t.dest m.1)
        (some m.2))) ∨
    (¬ (c.Pass m ∧ d.files (t.dest m.1) = none) ∧
      (∃ e, (restoreEntry t false c m d).1 = .error e) ∧
      ((restoreEntry t false c m d).2 = d ↔ TurnsDown t c m d)) := by
  have hold : (d.createDirAll (t.parents m.1)).files (t.dest m.1) = none := hfile
  unfold restoreEntry
  rw [hindex, hmkdir]
  dsimp only
  rw [occupied_eq, hfile, Option.isSome_none, if_neg Bool.false_ne_true, hold, hread]
  -- The write of a new file: whole, refused, or cut off.
  rcases c.write.passes_or m.2 with hpass | ⟨e, hopen⟩ | ⟨n, e, hafter, hlt⟩
  · refine .inl ⟨⟨⟨hindex, hmkdir, hread, hpass⟩, rfl⟩, ?_⟩
    dsimp only
    rw [FileWrite.write_of_passes hpass]
  · -- Nothing was opened, so there is still no file.
    have hsame : (d.createDirAll (t.parents m.1)).put (t.dest m.1) none
        = d.createDirAll (t.parents m.1) := by
      show ({ d.createDirAll (t.parents m.1) with
        files := Function.update _ _ _ } : Site Loc) = _
      rw [← hold, Function.update_eq_self]
    have hwrite : FileWrite.write c.write (none : Option Bytes) m.2 = (none, .error e) := by
      rw [hopen]
      rfl
    dsimp only
    rw [hwrite, hsame]
    refine .inr ⟨fun h => ?_, ⟨e, rfl⟩, ?_⟩
    · have hpasses := h.1.write
      rw [hopen] at hpasses
      exact hpasses
    · rw [turnsDown_iff hindex hmkdir, createDirAll_eq_iff]
      exact (and_iff_left (.inr (.inr ⟨e, hopen⟩))).symm
  -- A file that is cut off stays there, and is not what was there before.
  · dsimp only
    rw [hafter, FileWrite.write_of_torn e hlt]
    refine .inr ⟨fun h => ?_, ⟨e, rfl⟩, iff_of_false (fun hsame => ?_) fun h => ?_⟩
    · have hpasses := h.1.write
      rw [hafter] at hpasses
      exact absurd hlt (Nat.not_lt.mpr hpasses)
    · have hpart := congrFun (congrArg Site.files hsame) (t.dest m.1)
      rw [hfile] at hpart
      exact absurd ((Function.update_self ..).symm.trans hpart) (Option.some_ne_none _)
    · rcases ((turnsDown_iff hindex hmkdir).mp h).2 with hthere | hbad | ⟨e', hopen⟩
      · exact hthere hfile
      · exact hbad hread
      · cases hafter.symm.trans hopen

/-- A member is written, or turned down, or its file is there in part. -/
theorem restoreEntry_cases (t : Target Loc) (c : RestoreCalls) (m : Member) (d : Site Loc) :
    ((c.Pass m ∧ d.files (t.dest m.1) = none) ∧
      restoreEntry t false c m d = (.ok (), (d.createDirAll (t.parents m.1)).put (t.dest m.1)
        (some m.2))) ∨
    (¬ (c.Pass m ∧ d.files (t.dest m.1) = none) ∧
      (∃ e, (restoreEntry t false c m d).1 = .error e) ∧
      ((restoreEntry t false c m d).2 = d ↔ TurnsDown t c m d)) := by
  -- The calls in their order; each error ends the entry.
  cases hindex : c.byIndex with
  | some e =>
      unfold restoreEntry
      rw [hindex]
      refine .inr ⟨fun h => ?_, ⟨e, rfl⟩, iff_of_true rfl (.inl ?_)⟩
      · cases hindex.symm.trans h.1.byIndex
      · rw [hindex]
        exact Option.some_ne_none e
  | none =>
      cases hmkdir : c.mkdir with
      | some e =>
          unfold restoreEntry
          rw [hindex, hmkdir]
          refine .inr ⟨fun h => ?_, ⟨e, rfl⟩, iff_of_true rfl (.inr (.inl ?_))⟩
          · cases hmkdir.symm.trans h.1.mkdir
          · rw [hmkdir]
            exact Option.some_ne_none e
      | none =>
          -- A file that is there already is not overwritten without `--force`.
          rcases Option.eq_none_or_eq_some (d.files (t.dest m.1)) with hfile | ⟨old, hfile⟩
          · cases hread : c.read with
            | some e =>
                unfold restoreEntry
                rw [hindex, hmkdir]
                dsimp only
                rw [occupied_eq, hfile, Option.isSome_none, if_neg Bool.false_ne_true, hread]
                refine .inr ⟨fun h => ?_, ⟨e, rfl⟩, ?_⟩
                · cases hread.symm.trans h.1.read
                · rw [turnsDown_iff hindex hmkdir, createDirAll_eq_iff, hread]
                  exact (and_iff_left (.inr (.inl (Option.some_ne_none e)))).symm
            | none => exact restoreEntry_write_cases hindex hmkdir hfile hread
          · unfold restoreEntry
            rw [hindex, hmkdir]
            dsimp only
            rw [occupied_eq, hfile, Option.isSome_some, if_pos rfl]
            refine .inr ⟨fun h => ?_, ⟨_, rfl⟩, ?_⟩
            · cases h.2
            · rw [turnsDown_iff hindex hmkdir, createDirAll_eq_iff, hfile]
              exact (and_iff_left (.inl (Option.some_ne_none old))).symm

/-- Without `--force` nothing that is there is written. -/
theorem restoreEntry_keeps {bytes : Bytes} (h : d.files l = some bytes) :
    (restoreEntry t false c m d).2.files l = some bytes := by
  unfold restoreEntry
  split
  · exact h
  · split
    · exact h
    · dsimp only
      split
      · exact h
      · next hfree =>
          have hne : l ≠ t.dest m.1 := by
            rintro rfl
            apply hfree
            show ((d.files (t.dest m.1)).isSome && !false) = true
            rw [h]
            rfl
          split
          · exact h
          · exact (Function.update_of_ne hne ..).trans h

theorem restoreEntries_keeps {bytes : Bytes} (h : d.files l = some bytes) :
    (restoreEntries t false calls i ms d).2.files l = some bytes := by
  induction ms generalizing i d with
  | nil => exact h
  | cons m ms ih =>
      have hfirst := restoreEntry_keeps (t := t) (c := calls i) (m := m) h
      rw [restoreEntries]
      rcases hentry : restoreEntry t false (calls i) m d with ⟨_ | _, after⟩
      · rw [hentry] at hfirst
        exact hfirst
      · rw [hentry] at hfirst
        exact ih hfirst

omit [DecidableEq Loc] in
theorem TurnsDown.not_pass (h : TurnsDown t c m d) :
    ¬ (c.Pass m ∧ d.files (t.dest m.1) = none) := by
  rintro ⟨hpass, habsent⟩
  rcases h with hindex | hmkdir | ⟨-, hthere | hread | ⟨e, hopen⟩⟩
  · exact hindex hpass.byIndex
  · exact hmkdir hpass.mkdir
  · exact hthere habsent
  · exact hread hpass.read
  · have hwrite := hpass.write
    rw [hopen] at hwrite
    exact hwrite

omit [DecidableEq Loc] in
theorem AllLand.absent (h : AllLand t calls i ms d) : ∀ m ∈ ms, d.files (t.dest m.1) = none := by
  induction ms generalizing i with
  | nil =>
      intro m hm
      cases hm
  | cons m ms ih => exact List.forall_mem_cons.mpr ⟨h.1.2, ih h.2.2⟩

omit [DecidableEq Loc] in
/-- Only the places the members go to matter. -/
theorem allLand_congr {d' : Site Loc}
    (h : ∀ m ∈ ms, d'.files (t.dest m.1) = d.files (t.dest m.1)) :
    AllLand t calls i ms d' ↔ AllLand t calls i ms d := by
  induction ms generalizing i with
  | nil => exact Iff.rfl
  | cons m ms ih =>
      obtain ⟨hfirst, hrest⟩ := List.forall_mem_cons.mp h
      rw [AllLand, AllLand, hfirst, ih hrest]

/-- The loop gets to its end when every member lands. -/
theorem restoreEntries_ok_iff :
    (restoreEntries t false calls i ms d).1 = .ok () ↔ AllLand t calls i ms d := by
  induction ms generalizing i d with
  | nil => exact iff_of_true rfl trivial
  | cons m ms ih =>
      rw [restoreEntries, AllLand]
      obtain ⟨hlands, hentry⟩ | ⟨hfails, ⟨e, he⟩, -⟩ := restoreEntry_cases t (calls i) m d
      · rw [hentry, and_iff_right hlands]
        refine ih.trans ?_
        by_cases hown : ∀ m' ∈ ms, t.dest m'.1 ≠ t.dest m.1
        · rw [and_iff_right hown]
          exact allLand_congr fun m' hm' => Function.update_of_ne (hown m' hm') ..
        · refine iff_of_false (fun hall => hown fun m' hm' hsame => ?_) fun h => hown h.1
          have hwritten : ((d.createDirAll (t.parents m.1)).put (t.dest m.1)
              (some m.2)).files (t.dest m'.1) = some m.2 := by
            rw [hsame]
            exact Function.update_self ..
          exact Option.some_ne_none _ (hwritten.symm.trans (hall.absent m' hm'))
      · refine iff_of_false (fun hok => ?_) fun h => hfails h.1
        rcases hentry : restoreEntry t false (calls i) m d with ⟨_ | _, after⟩
        · rw [hentry] at hok
          cases hok
        · rw [hentry] at he
          cases he

/-- What the loop leaves when every member lands. -/
theorem restoreEntries_files (h : AllLand t calls i ms d) :
    (∀ m ∈ ms, (restoreEntries t false calls i ms d).2.files (t.dest m.1) = some m.2) ∧
      ∀ l, (∀ m ∈ ms, t.dest m.1 ≠ l) →
        (restoreEntries t false calls i ms d).2.files l = d.files l := by
  induction ms generalizing i d with
  | nil => exact ⟨fun m hm => absurd hm List.not_mem_nil, fun _ _ => rfl⟩
  | cons m ms ih =>
      obtain ⟨hlands, hown, hrest⟩ := h
      obtain ⟨-, hentry⟩ | ⟨hfails, -, -⟩ := restoreEntry_cases t (calls i) m d
      · rw [restoreEntries, hentry]
        have hkept : AllLand t calls (i + 1) ms ((d.createDirAll (t.parents m.1)).put
            (t.dest m.1) (some m.2)) :=
          (allLand_congr fun m' hm' => Function.update_of_ne (hown m' hm') ..).mpr hrest
        obtain ⟨hfiles, hothers⟩ := ih hkept
        refine ⟨List.forall_mem_cons.mpr ⟨?_, hfiles⟩, fun l hl => ?_⟩
        · exact (hothers _ hown).trans (Function.update_self ..)
        · obtain ⟨hfirst, hl⟩ := List.forall_mem_cons.mp hl
          exact (hothers l hl).trans (Function.update_of_ne hfirst.symm ..)
      · exact absurd hlands hfails

/-- A loop that stops leaves everything as it was when it stops at once. -/
theorem restoreEntries_same_iff (h : ¬ AllLand t calls 0 archive d) :
    (restoreEntries t false calls 0 archive d).2 = d ↔ FirstStops t calls archive d := by
  cases archive with
  | nil => exact absurd trivial h
  | cons m ms =>
      have hfirst : FirstStops t calls (m :: ms) d ↔ TurnsDown t (calls 0) m d := by
        constructor
        · rintro ⟨m', ms', heq, hdown⟩
          obtain ⟨rfl, -⟩ := List.cons.inj heq
          exact hdown
        · exact fun hdown => ⟨m, ms, rfl, hdown⟩
      rw [hfirst, restoreEntries]
      obtain ⟨hlands, hentry⟩ | ⟨-, ⟨e, he⟩, hsame⟩ := restoreEntry_cases t (calls 0) m d
      · rw [hentry]
        refine iff_of_false (fun hback => ?_) fun hdown => hdown.not_pass hlands
        -- The first file stays.
        have hwritten : ((d.createDirAll (t.parents m.1)).put (t.dest m.1)
            (some m.2)).files (t.dest m.1) = some m.2 := Function.update_self ..
        have hkept : (restoreEntries t false calls 1 ms ((d.createDirAll (t.parents m.1)).put
            (t.dest m.1) (some m.2))).2.files (t.dest m.1) = some m.2 :=
          restoreEntries_keeps hwritten
        have hfile := congrFun (congrArg Site.files hback) (t.dest m.1)
        exact Option.some_ne_none _ (hkept.symm.trans (hfile.trans hlands.2))
      · rcases hentry : restoreEntry t false (calls 0) m d with ⟨_ | _, after⟩
        · rw [hentry] at hsame
          exact hsame
        · rw [hentry] at he
          cases he

end Restore

section AllOrNothing

variable {t calls X readManifest} {rand : RandomKey} {archive : List Member} {d : Site Loc} {l : Loc}

/-- A new key goes where there was none. -/
theorem verifyRestored_keeps {bytes : Bytes} (h : d.files l = some bytes) :
    (verifyRestored t X readManifest rand d).2.files l = some bytes := by
  unfold verifyRestored
  split
  · exact h
  · split
    · next habsent =>
        have hne : l ≠ t.dest keyName := by
          rintro rfl
          cases habsent.symm.trans h
        have hkept : (d.put (t.dest keyName) (some rand.1)).files l = some bytes :=
          (Function.update_of_ne hne ..).trans h
        dsimp only
        split
        · exact hkept
        · exact hkept
    · split
      · exact h
      · split
        · exact h
        · exact h

variable (t calls X readManifest rand archive d) in
/-- Every file of the archive is restored, or nothing changes. -/
def AllOrNothing : Prop :=
  ((restoreEntries t false calls 0 archive d).1 = .ok () ∧ ∀ m ∈ archive,
    (restoreAudit t false calls X readManifest rand archive d).2.files (t.dest m.1) = some m.2) ∨
  (restoreAudit t false calls X readManifest rand archive d).2 = d

/-- A restore without `--force`. -/
theorem allOrNothing_iff : AllOrNothing t calls X readManifest rand archive d ↔
    AllLand t calls 0 archive d ∨ FirstStops t calls archive d := by
  rw [AllOrNothing]
  by_cases hall : AllLand t calls 0 archive d
  · have hok := restoreEntries_ok_iff.mpr hall
    refine iff_of_true (.inl ⟨hok, fun m hm => ?_⟩) (.inl hall)
    have hfile := (restoreEntries_files hall).1 m hm
    unfold restoreAudit
    rcases hloop : restoreEntries t false calls 0 archive d with ⟨_ | _, after⟩
    · rw [hloop] at hok
      cases hok
    · rw [hloop] at hfile
      exact verifyRestored_keeps hfile
  · rw [or_iff_right hall, ← restoreEntries_same_iff hall]
    have hnot : (restoreEntries t false calls 0 archive d).1 ≠ .ok () := fun hok =>
      hall (restoreEntries_ok_iff.mp hok)
    have hend : (restoreAudit t false calls X readManifest rand archive d).2
        = (restoreEntries t false calls 0 archive d).2 := by
      unfold restoreAudit
      rcases hloop : restoreEntries t false calls 0 archive d with ⟨_ | _, after⟩
      · rfl
      · rw [hloop] at hnot
        exact absurd rfl hnot
    rw [or_iff_right fun h => hnot h.1, hend]

end AllOrNothing

/-! ## The names of a backup -/

section Names

variable {src : BackupSource} {includeWorkspaces : Bool} {dir : Path} {disk : Disk}

theorem getLast?_append_of_some {p q : Path} {c : Char} (h : q.getLast? = some c) :
    (p ++ q).getLast? = some c := by
  rw [List.getLast?_append, h]
  rfl

theorem head?_inWorkspace (slug p : Text) : (inWorkspace slug ++ p).head? = some 'w' := rfl

theorem inWorkspace_append_inj {slug slug' p : Text}
    (h : inWorkspace slug ++ p = inWorkspace slug' ++ p) : slug = slug' := by
  have hdir : inWorkspace slug = inWorkspace slug' := List.append_cancel_right h
  exact List.append_cancel_left (List.append_cancel_right hdir)

/-- No two files of a backup have one name. -/
theorem nodup_backupFiles (src : BackupSource) (includeWorkspaces : Bool) :
    ((backupFiles src includeWorkspaces).map Prod.fst).Nodup := by
  have hfixed : [logName, keyName, signingKeyName, verifyingKeyName].Nodup := by decide
  cases includeWorkspaces with
  | false => exact hfixed
  | true =>
      have hnames : (backupFiles src true).map Prod.fst =
          [logName, keyName, signingKeyName, verifyingKeyName] ++
            (src.workspaces.map Prod.fst).flatMap fun slug =>
              [inWorkspace slug ++ logName, inWorkspace slug ++ keyName] := by
        rw [backupFiles, if_pos rfl, List.map_append, List.map_flatMap, List.flatMap_map]
        rfl
      rw [hnames, List.nodup_append]
      -- Three disjointness facts: among the fixed names, inside one workspace, across workspaces.
      refine ⟨hfixed, List.nodup_flatMap.mpr ⟨fun slug _ => ?_, ?_⟩, ?_⟩
      · have hne : inWorkspace slug ++ logName ≠ inWorkspace slug ++ keyName := by
          intro h
          exact absurd (List.append_cancel_left h) (by decide)
        simp [hne]
      · refine src.nodup.imp fun {slug slug'} hne => ?_
        intro name hname hname'
        simp only [List.mem_cons, List.not_mem_nil, or_false] at hname hname'
        -- The same name in two directories ends the same way.
        have hends : ∀ p q : Path, inWorkspace slug ++ p = inWorkspace slug' ++ q →
            p.getLast? = some 'l' → q.getLast? = some 'y' → False := by
          intro p q h hp hq
          have hlast := congrArg List.getLast? h
          rw [getLast?_append_of_some hp, getLast?_append_of_some hq] at hlast
          exact absurd hlast (by decide)
        rcases hname with rfl | rfl
        · rcases hname' with h | h
          · exact hne (inWorkspace_append_inj h)
          · exact hends _ _ h (by decide) (by decide)
        · rcases hname' with h | h
          · have hlast := congrArg List.getLast? h
            rw [getLast?_append_of_some (c := 'y') (by decide),
              getLast?_append_of_some (c := 'l') (by decide)] at hlast
            exact absurd hlast (by decide)
          · exact hne (inWorkspace_append_inj h)
      -- A workspace's file begins with a 'w', and none of the fixed names does.
      · intro name hname name' hname' heq
        obtain ⟨slug, -, hin⟩ := List.mem_flatMap.mp hname'
        have hhead : name'.head? = some 'w' := by
          simp only [List.mem_cons, List.not_mem_nil, or_false] at hin
          rcases hin with rfl | rfl
          · exact head?_inWorkspace _ _
          · exact head?_inWorkspace _ _
        have hnot : ∀ n ∈ [logName, keyName, signingKeyName, verifyingKeyName],
            n.head? ≠ some 'w' := by decide
        exact hnot name hname (heq ▸ hhead)

/-- How the names of a backup end. -/
theorem getLast?_of_mem_backupFiles {file : Path × Option Bytes}
    (h : file ∈ backupFiles src includeWorkspaces) : file.1.getLast? ≠ some 'n' := by
  have hends : ∀ n ∈ [logName, keyName, signingKeyName, verifyingKeyName],
      n.getLast? ≠ some 'n' := by decide
  rcases List.mem_append.mp h with hfixed | hin
  · refine hends file.1 ?_
    simp only [List.mem_cons, List.not_mem_nil, or_false] at hfixed ⊢
    rcases hfixed with rfl | rfl | rfl | rfl <;> simp
  · split at hin
    · obtain ⟨w, -, hw⟩ := List.mem_flatMap.mp hin
      simp only [List.mem_cons, List.not_mem_nil, or_false] at hw
      rcases hw with rfl | rfl
      · rw [getLast?_append_of_some (c := 'l') (by decide)]
        decide
      · rw [getLast?_append_of_some (c := 'y') (by decide)]
        decide
    · cases hin

/-- The log of every audit directory is in the backup, under its name. -/
theorem log_mem_backupFiles (h : (dir, disk) ∈ included src includeWorkspaces) :
    (dir ++ logName, logBytes disk) ∈ backupFiles src includeWorkspaces := by
  rw [included] at h
  rcases List.mem_cons.mp h with hmain | hin
  · obtain ⟨rfl, rfl⟩ := Prod.mk.inj hmain
    exact List.mem_append_left _ List.mem_cons_self
  · cases includeWorkspaces with
    | false => cases hin
    | true =>
        obtain ⟨w, hw, heq⟩ := List.mem_map.mp hin
        obtain ⟨rfl, rfl⟩ := Prod.mk.inj heq
        refine List.mem_append_right _ ?_
        rw [if_pos rfl]
        exact List.mem_flatMap.mpr ⟨w, hw, List.mem_cons_self⟩

theorem mem_add {file : Path × Option Bytes} {m : Member} :
    m ∈ add file ↔ file.1 = m.1 ∧ file.2 = some m.2 := by
  rw [add, List.mem_map]
  constructor
  · rintro ⟨bytes, hbytes, rfl⟩
    exact ⟨rfl, Option.mem_toList.mp hbytes⟩
  · rintro ⟨hname, hbytes⟩
    exact ⟨m.2, Option.mem_toList.mpr hbytes, by rw [hname]⟩

theorem mem_backupAudit {m : Member} : m ∈ backupAudit src includeWorkspaces ↔
    (m.1, some m.2) ∈ backupFiles src includeWorkspaces := by
  rw [backupAudit, List.mem_flatMap]
  constructor
  · rintro ⟨file, hfile, hm⟩
    obtain ⟨hname, hbytes⟩ := mem_add.mp hm
    rw [← hname, ← hbytes]
    exact hfile
  · exact fun h => ⟨(m.1, some m.2), h, mem_add.mpr ⟨rfl, rfl⟩⟩

theorem nodup_backupAudit : ((backupAudit src includeWorkspaces).map Prod.fst).Nodup := by
  have hsub : ∀ files : List (Path × Option Bytes),
      ((files.flatMap add).map Prod.fst).Sublist (files.map Prod.fst) := by
    intro files
    induction files with
    | nil => exact List.Sublist.refl _
    | cons file files ih =>
        rw [List.flatMap_cons, List.map_append, List.map_cons]
        rcases file with ⟨name, - | bytes⟩
        · exact ih.cons name
        · exact ih.cons_cons name
  exact (nodup_backupFiles src includeWorkspaces).sublist (hsub _)

end Names

/-! ## Backup and restore -/

/-- A data directory, by the names of the files below it. -/
def below (dataDir : Path) (parents : Path → List Path) : Target Path where
  dataDir := dataDir
  dest := id
  parents := parents

def emptySite : Site Path where
  files _ := none
  dirs _ := false

/-- The files after a backup is restored into an empty directory. -/
def restored (dataDir : Path) (parents : Path → List Path) (force : Bool) (rand : RandomKey)
    (src : BackupSource) (includeWorkspaces : Bool) : Path → Option Bytes :=
  (restoreAudit (below dataDir parents) force (fun _ => .ok) X readManifest rand
    (backupAudit src includeWorkspaces) emptySite).2.files

section RoundTrip

variable {t : Target Loc} {calls : Nat → RestoreCalls} {ms : List Member} {d : Site Loc} {i : Nat}

/-- Where every member lands, `--force` makes no difference. -/
theorem restoreEntries_force (force : Bool) (h : AllLand t calls i ms d) :
    restoreEntries t force calls i ms d = restoreEntries t false calls i ms d := by
  induction ms generalizing i d with
  | nil => rfl
  | cons m ms ih =>
      obtain ⟨hlands, hown, hrest⟩ := h
      have hfirst : restoreEntry t force (calls i) m d = restoreEntry t false (calls i) m d := by
        have habsent : ((d.createDirAll (t.parents m.1)).files (t.dest m.1)).isSome = false := by
          show (d.files (t.dest m.1)).isSome = false
          rw [hlands.2]
          rfl
        simp only [restoreEntry, habsent, Bool.false_and]
      obtain ⟨-, hentry⟩ | ⟨hfails, -, -⟩ := restoreEntry_cases t (calls i) m d
      · rw [restoreEntries, restoreEntries, hfirst, hentry]
        exact ih ((allLand_congr fun m' hm' => Function.update_of_ne (hown m' hm') ..).mpr hrest)
      · exact absurd hlands hfails

omit [DecidableEq Loc] in
theorem allLand_of_nodup (hcalls : ∀ i, calls i = .ok)
    (habsent : ∀ m ∈ ms, d.files (t.dest m.1) = none)
    (hnodup : (ms.map fun m => t.dest m.1).Nodup) : AllLand t calls i ms d := by
  induction ms generalizing i with
  | nil => trivial
  | cons m ms ih =>
      obtain ⟨hfirst, hrest⟩ := List.forall_mem_cons.mp habsent
      rw [List.map_cons, List.nodup_cons] at hnodup
      have hpass : (calls i).Pass m := by
        rw [hcalls]
        exact ⟨rfl, rfl, rfl, trivial⟩
      refine ⟨⟨hpass, hfirst⟩, fun m' hm' heq => hnodup.1 ?_, ih hrest hnodup.2⟩
      exact List.mem_map.mpr ⟨m', hm', heq⟩

variable {X readManifest} {dataDir : Path} {parents : Path → List Path} {force : Bool}
  {rand : RandomKey} {src : BackupSource} {includeWorkspaces : Bool} {dir name : Path} {disk : Disk}
  {content : Option Bytes} {key : Bytes}

/-- The new key apart, the verification leaves the files alone. -/
theorem verifyRestored_files {l : Loc} (h : l ≠ t.dest keyName) :
    (verifyRestored t X readManifest rand d).2.files l = d.files l := by
  have hput : (d.put (t.dest keyName) (some rand.1)).files l = d.files l :=
    Function.update_of_ne h ..
  unfold verifyRestored
  split
  · rfl
  · split
    · dsimp only
      split
      · exact hput
      · exact hput
    · split
      · rfl
      · split
        · rfl
        · rfl

/-- A backup is restored into an empty directory to its end. -/
theorem allLand_backupAudit (dataDir : Path) (parents : Path → List Path) (src : BackupSource)
    (includeWorkspaces : Bool) :
    AllLand (below dataDir parents) (fun _ => .ok) 0 (backupAudit src includeWorkspaces)
      emptySite :=
  allLand_of_nodup (fun _ => rfl) (fun _ _ => rfl) nodup_backupAudit

theorem restored_eq (hname : name ≠ keyName) :
    restored X readManifest dataDir parents force rand src includeWorkspaces name =
      (restoreEntries (below dataDir parents) false (fun _ => .ok) 0
        (backupAudit src includeWorkspaces) emptySite).2.files name := by
  have hland := allLand_backupAudit dataDir parents src includeWorkspaces
  unfold restored restoreAudit
  rw [restoreEntries_force force hland]
  rcases hloop : restoreEntries (below dataDir parents) false (fun _ => .ok) 0
      (backupAudit src includeWorkspaces) emptySite with ⟨_ | _, after⟩
  · rfl
  · exact verifyRestored_files hname

/-- A file of the backup is there again, or missing again. -/
theorem restored_of_mem (h : (name, content) ∈ backupFiles src includeWorkspaces)
    (hname : name ≠ keyName) :
    restored X readManifest dataDir parents force rand src includeWorkspaces name = content := by
  obtain ⟨hfiles, hothers⟩ :=
    restoreEntries_files (allLand_backupAudit dataDir parents src includeWorkspaces)
  rw [restored_eq hname]
  cases content with
  | some bytes => exact hfiles (name, bytes) (mem_backupAudit.mpr h)
  | none =>
      refine (hothers name fun m hm hsame => ?_).trans rfl
      -- A member of that name would be another file of the backup.
      have hother := mem_backupAudit.mp hm
      have hfst : m.1 = name := hsame
      rw [hfst] at hother
      have hcontent := List.inj_on_of_nodup_map (nodup_backupFiles src includeWorkspaces) h hother rfl
      cases (Prod.mk.inj hcontent).2

theorem restored_of_notMem
    (h : ∀ content, (name, content) ∉ backupFiles src includeWorkspaces)
    (hname : name ≠ keyName) :
    restored X readManifest dataDir parents force rand src includeWorkspaces name = none := by
  have hland := allLand_backupAudit dataDir parents src includeWorkspaces
  rw [restored_eq hname]
  refine ((restoreEntries_files hland).2 name fun m hm hsame => ?_).trans rfl
  have hin := mem_backupAudit.mp hm
  have hfst : m.1 = name := hsame
  rw [hfst] at hin
  exact h _ hin

/-- What is restored verifies as the log alone does. -/
theorem verifyIn_restored (h : (dir, disk) ∈ included src includeWorkspaces) :
    verifyIn X readManifest
        (restored X readManifest dataDir parents force rand src includeWorkspaces) dir key
      = verifyLog X disk key := by
  have hends : ∀ {p : Path} {c : Char}, p.getLast? = some c → c ≠ 'y' → dir ++ p ≠ keyName := by
    intro p c hp hc heq
    have hlast := congrArg List.getLast? heq
    rw [getLast?_append_of_some hp] at hlast
    have hkey : keyName.getLast? = some 'y' := by decide
    exact hc (Option.some.inj (hlast.trans hkey))
  have hlog : restored X readManifest dataDir parents force rand src includeWorkspaces
      (dir ++ logName) = logBytes disk :=
    restored_of_mem (log_mem_backupFiles h) (hends (c := 'l') (by decide) (by decide))
  have hmanifest : restored X readManifest dataDir parents force rand src includeWorkspaces
      (dir ++ manifestName) = none := by
    refine restored_of_notMem (fun content hin => getLast?_of_mem_backupFiles hin ?_)
      (hends (c := 'n') (by decide) (by decide))
    exact getLast?_append_of_some (by decide)
  rw [verifyIn, auditDisk, hmanifest, hlog]
  dsimp only
  rw [Option.bind_some, verifyAll_of_noManifest rfl]
  rw [verifyLog, verifyLog, Disk.readLog, Disk.readLog, logBytes]
  cases disk.log with
  | none => rfl
  | some i => rfl

end RoundTrip

/-- **Backup and restore.**  For an audit directory that verifies, what is restored into an
    empty directory verifies with as many entries exactly when its segments hold none; and a
    restore without `--force` is all or nothing exactly when every member can be written to
    a place of its own, or the first one is turned down. -/
theorem backup_restore_iff :
    (∀ (dataDir : Path) (parents : Path → List Path) (force : Bool) (rand : RandomKey)
      (src : BackupSource) (includeWorkspaces : Bool) (dir : Path) (disk : Disk) (key : Bytes)
      (r : VerifyResult), (dir, disk) ∈ included src includeWorkspaces →
      verifyAll X disk key = some r → r.ok = true →
      ((∃ r', verifyIn X readManifest
          (restored X readManifest dataDir parents force rand src includeWorkspaces) dir key
            = some r' ∧ r'.ok = true ∧ r'.entriesChecked = r.entriesChecked) ↔
        LogIsAll X disk)) ∧
    ∀ (t : Target Loc) (calls : Nat → RestoreCalls) (rand : RandomKey) (archive : List Member)
      (d : Site Loc), AllOrNothing t calls X readManifest rand archive d ↔
        AllLand t calls 0 archive d ∨ FirstStops t calls archive d := by
  refine ⟨fun dataDir parents force rand src includeWorkspaces dir disk key r hin hr hok => ?_,
    fun t calls rand archive d => allOrNothing_iff⟩
  rw [verifyIn_restored hin]
  exact verifyLog_agrees_iff hr hok

/-! ## One entry -/

/-- A data directory with this audit directory, and no workspaces. -/
def sourceOf (disk : Disk) : BackupSource where
  main := disk
  signingKey := none
  verifyingKey := none
  workspaces := []
  nodup := List.nodup_nil

def inRoot : Path → List Path := fun _ => []

/-- What is restored of a directory without workspaces. -/
def restoredOf (disk : Disk) : Path → Option Bytes :=
  restored External.sample (fun _ => none) "/var/lib/maranode".toList inRoot false zeroKey
    (sourceOf disk) false

/-- One entry was appended. -/
def oneEntry : Sys := (freshSys zeroKey).wrote External.sample (stopAt 0)

theorem readable_oneEntry : ∀ e ∈ oneEntry.written, e.readable = true :=
  List.forall_mem_singleton.mpr rfl

/-- Its log is restored with the entry. -/
theorem backup_restore_oneEntry :
    ∃ r, verifyIn External.sample (fun _ => none) (restoredOf oneEntry.disk) []
      oneEntry.log.key = some r ∧ r.ok = true ∧ r.entriesChecked = 1 := by
  have hcomplete := complete_firstLayout (X := External.sample) zeroKey (stopAt 0)
  obtain ⟨r, hr, hok, hcount⟩ := hcomplete.verifyAll_ok readable_oneEntry
  have hall : LogIsAll External.sample oneEntry.disk := .inl hcomplete.holds.manifest
  have hround := (@backup_restore_iff Path _ External.sample fun _ => none).1
    "/var/lib/maranode".toList inRoot false zeroKey (sourceOf oneEntry.disk) false [] oneEntry.disk
    oneEntry.log.key r List.mem_cons_self hr hok
  obtain ⟨r', hr', hok', hcount'⟩ := hround.mpr hall
  exact ⟨r', hr', hok', hcount'.trans hcount⟩

/-- A log and a key, and a directory with a key of its own. -/
def logAndKey : List Member := [(logName, []), (keyName, List.replicate keyLen 1)]

def keySite : Site Path where
  files := fun name => if name = keyName then some zeroKey.1 else none
  dirs _ := true

/-- After a rotation nothing of the entry is restored, though what is verifies; and a restore
    next to a key leaves a log. -/
theorem not_backup_restore_rotated :
    (∃ s, Sys.run External.sample (freshSys zeroKey)
        [.append (stopAt 0) newYearClock, .maybeRotate anySize newYearClock] = some s ∧
      (∃ r, verifyAll External.sample s.disk s.log.key = some r ∧ r.ok = true ∧
        r.entriesChecked = 1) ∧
      ∃ r, verifyIn External.sample (fun _ => none) (restoredOf s.disk) [] s.log.key = some r ∧
        r.ok = true ∧ r.entriesChecked = 0) ∧
    ¬ AllOrNothing (below "/var/lib/maranode".toList inRoot) (fun _ => .ok) External.sample
      (fun _ => none) zeroKey logAndKey keySite := by
  constructor
  -- One entry, one rotation: the active log is empty and the segment holds the entry.
  · have h := complete_firstLayout (X := External.sample) zeroKey (stopAt 0)
    obtain ⟨due, hdue⟩ := rotateDue_firstLayout (X := External.sample) zeroKey 0 newYearClock.age
    obtain ⟨s, L, hs, hcomplete, hwritten, hnil⟩ := h.step_rotate_due rfl hdue
    have hread : ∀ e ∈ s.written, e.readable = true := by
      rw [hwritten]
      exact readable_oneEntry
    obtain ⟨r, hr, hok, hcount⟩ := hcomplete.verifyAll_ok hread
    refine ⟨s, ?_, ⟨r, hr, hok, ?_⟩, ?_⟩
    · rw [Sys.run, Run.run_cons (step_append_freshSys ..), Run.run_cons hs]
      rfl
    · rw [hcount, hwritten]
      rfl
    -- The restored archive has no segments, so the empty active log is all that is verified.
    · obtain ⟨i, hi, -⟩ := hcomplete.holds.log
      have hlog := hcomplete.holds.readLog
      rw [hnil] at hlog
      have hverify : verifyLog External.sample s.disk s.log.key
          = some (verifyContent External.sample [] s.log.key) := by
        rw [verifyLog, hi]
        dsimp only
        rw [hlog]
        rfl
      refine ⟨verifyContent External.sample [] s.log.key, ?_, rfl, rfl⟩
      have hin : (([] : Path), s.disk) ∈ included (sourceOf s.disk) false := List.mem_cons_self
      exact (verifyIn_restored hin).trans hverify
  · rw [allOrNothing_iff]
    rintro (hall | ⟨m, ms, heq, hdown⟩)
    -- The key in place differs from the archived one, so the restore was not all there.
    · have habsent := hall.absent (keyName, List.replicate keyLen 1) (by simp [logAndKey])
      have hthere : keySite.files keyName = some zeroKey.1 := by
        show (if keyName = keyName then some zeroKey.1 else none) = _
        exact if_pos rfl
      exact Option.some_ne_none _ (hthere.symm.trans habsent)
    · obtain ⟨rfl, -⟩ := List.cons.inj heq
      -- The log's name is free, so the log is written before the key is refused.
      have hpass : RestoreCalls.ok.Pass (logName, []) := ⟨rfl, rfl, rfl, trivial⟩
      have hfree : keySite.files logName = none := by
        show (if logName = keyName then some zeroKey.1 else none) = none
        exact if_neg (by decide)
      exact hdown.not_pass ⟨hpass, hfree⟩

end Maranode.Cli
