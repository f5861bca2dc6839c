/-
  Maranode.Api.Bundles

  `routes/audit.rs`: downloads of evidence bundles, in any order with each other and with
  appends and rotations.

  A download takes no lock.  It reads the active log twice, once for the zip and once to
  verify it, and the zip goes through a temporary file that all downloads of a workspace
  share.
-/
import Maranode.Audit.Bundle
import Maranode.Lib.Inodes

namespace Maranode.Api

open Lib Common Audit

variable (X : External) (E : Ed25519) (Z : ZipArchive)

/-! ## Downloads -/

/-- The temporary file of a workspace, or of the server's own log. -/
def tmpName : Option String → String
  | some slug => "audit_bundle_" ++ slug ++ "_tmp.zip"
  | none => "audit_bundle_tmp.zip"

/-- What a download has before it reads the log. -/
structure BundleQuery where
  workspace : Option String
  signingKey : Option (ByteArr 32)
  attestation : Option Bytes
  /-- The lines that were stored when the request came. -/
  lines : List Text

/-- Where a download stands. -/
inductive Download where
  | idle
  | asked (q : BundleQuery)
  | read (q : BundleQuery) (log : Bytes)
  | zipped (q : BundleQuery) (zip : Bytes)
  /-- The temporary file is open, and so many bytes are written. -/
  | writing (q : BundleQuery) (zip : Bytes) (ino done : Nat)
  | fetched (q : BundleQuery) (bytes : Bytes)
  | returned (q : BundleQuery) (bytes : Bytes)
  | failed

/-- The logs, the temporary files and the downloads. -/
structure BundleServer where
  logs : Option String → Option Sys
  files : Inodes String
  downloads : Nat → Download

inductive BundleAct where
  | openLog (workspace : Option String) (rand : RandomKey)
  | append (workspace : Option String) (a : AppendInput) (clk : RotateClock)
  | setRotation (workspace : Option String) (cfg : RotateConfig)
  | maybeRotate (workspace : Option String) (cfg : RotateConfig) (clk : RotateClock)
  | request (i : Nat) (workspace : Option String) (signingKey : Option (ByteArr 32))
      (attestation : Option Bytes)
  | readLog (i : Nat)
  | verifyLog (i : Nat) (verifiedAt createdAt : DateTime)
  | openTmp (i : Nat)
  /-- The next bytes, at most so many. -/
  | writeTmp (i n : Nat)
  | readTmp (i : Nat)
  | removeTmp (i : Nat)
  /-- The step that is next fails. -/
  | fail (i : Nat)

namespace BundleServer

def setDownload (s : BundleServer) (i : Nat) (r : Download) : BundleServer :=
  { s with downloads := Function.update s.downloads i r }

def onLog (s : BundleServer) (workspace : Option String) (op : Op) : Option BundleServer :=
  (s.logs workspace).bind fun sys =>
    (Sys.step X sys op).map fun sys =>
      { s with logs := Function.update s.logs workspace (some sys) }

/-- The start of `build_bundle_response`: for a workspace the log has to be there. -/
def arrive (s : BundleServer) (workspace : Option String) (signingKey : Option (ByteArr 32))
    (attestation : Option Bytes) : Download :=
  if workspace.isSome ∧ (s.logs workspace).bind (·.disk.log) = none then .failed
  else
    .asked { workspace, signingKey, attestation
             lines := ((s.logs workspace).map fun sys => stored X sys.disk).getD [] }

/-- `std::fs::read(log_path)`. -/
def readBytes (d : Disk) : Option Bytes := d.log.map d.data

def readLog (s : BundleServer) (q : BundleQuery) : Download :=
  match (s.logs q.workspace).bind fun sys => readBytes sys.disk with
  | some log => .read q log
  | none => .failed

/-- The rest of `create_bundle_with_attestation` up to the finished zip. -/
def finishZip (s : BundleServer) (q : BundleQuery) (log : Bytes)
    (verifiedAt createdAt : DateTime) : Option Bytes :=
  (s.logs q.workspace).bind fun sys =>
    (loadKey sys.disk).bind fun key =>
      (Audit.verifyLog X sys.disk key).bind fun result =>
        Z.write (bundleMembers X E q.workspace q.signingKey q.attestation log result verifiedAt
          createdAt)

/-- One step; `none` where the log or the download is not at it. -/
def step (s : BundleServer) : BundleAct → Option BundleServer
  | .openLog workspace rand =>
      match s.logs workspace with
      | some _ => none
      | none =>
          (Sys.fresh X rand).map fun sys =>
            { s with logs := Function.update s.logs workspace (some sys) }
  | .append workspace a clk => s.onLog X workspace (.append a clk)
  | .setRotation workspace cfg => s.onLog X workspace (.setRotation cfg)
  | .maybeRotate workspace cfg clk => s.onLog X workspace (.maybeRotate cfg clk)
  | .request i workspace signingKey attestation =>
      match s.downloads i with
      | .idle => some (s.setDownload i (s.arrive X workspace signingKey attestation))
      | _ => none
  | .readLog i =>
      match s.downloads i with
      | .asked q => some (s.setDownload i (s.readLog q))
      | _ => none
  | .verifyLog i verifiedAt createdAt =>
      match s.downloads i with
      | .read q log =>
          match s.finishZip X E Z q log verifiedAt createdAt with
          | some zip => some (s.setDownload i (.zipped q zip))
          | none => some (s.setDownload i .failed)
      | _ => none
  | .openTmp i =>
      match s.downloads i with
      | .zipped q zip =>
          let (files, ino) := s.files.create (tmpName q.workspace)
          some ({ s with files }.setDownload i (.writing q zip ino 0))
      | _ => none
  | .writeTmp i n =>
      match s.downloads i with
      | .writing q zip ino done =>
          let piece := (zip.drop done).take n
          some ({ s with files := s.files.pwrite ino done piece }.setDownload i
            (.writing q zip ino (done + piece.length)))
      | _ => none
  | .readTmp i =>
      match s.downloads i with
      | .writing q zip _ done =>
          if done = zip.length then
            match s.files.read (tmpName q.workspace) with
            | some bytes => some (s.setDownload i (.fetched q bytes))
            | none => some (s.setDownload i .failed)
          else none
      | _ => none
  | .removeTmp i =>
      match s.downloads i with
      | .fetched q bytes =>
          some ({ s with files := s.files.unlink (tmpName q.workspace) }.setDownload i
            (.returned q bytes))
      | _ => none
  | .fail i =>
      match s.downloads i with
      | .asked _ | .read .. | .zipped .. | .writing .. => some (s.setDownload i .failed)
      | _ => none

/-- Nobody has asked for a bundle yet; a file of an earlier server may be there. -/
def start (logs : Option String → Option Sys) (files : Inodes String) : BundleServer where
  logs := logs
  files := files
  downloads := fun _ => .idle

end BundleServer

/-! ## The logs -/

section Logs

variable {X}

theorem tmpName_injective : Function.Injective tmpName := by
  have hne : ∀ slug, tmpName none ≠ tmpName (some slug) := by
    intro slug h
    have hlen := congrArg String.length h
    rw [tmpName, tmpName, String.length_append, String.length_append] at hlen
    have hfront : "audit_bundle_".length = 13 := by decide
    have hback : "_tmp.zip".length = 8 := by decide
    have hnone : "audit_bundle_tmp.zip".length = 20 := by decide
    omega
  intro v w h
  cases v with
  | none =>
      cases w with
      | none => rfl
      | some slug => exact absurd h (hne slug)
  | some slug =>
      cases w with
      | none => exact absurd h.symm (hne slug)
      | some slug' =>
          have hlists := congrArg String.toList h
          rw [tmpName, tmpName, String.toList_append, String.toList_append, String.toList_append,
            String.toList_append] at hlists
          exact congrArg some
            (String.toList_injective (List.append_cancel_left (List.append_cancel_right hlists)))

/-- What an append or a rotation leaves alone: the key, and the lines that are stored. -/
structure Kept (sys sys' : Sys) : Prop where
  inv : ∃ L, Inv X sys' L
  key : loadKey sys'.disk = loadKey sys.disk
  lines : ∀ l ∈ stored X sys.disk, l ∈ stored X sys'.disk

variable {sys sys' : Sys} {L L' : Layout}

theorem kept_of_sublist (h : Inv X sys L) (h' : Inv X sys' L')
    (hkey : sys'.disk.key = sys.disk.key) (hsub : L.entries.Sublist L'.entries) :
    Kept (X := X) sys sys' where
  inv := ⟨L', h'⟩
  key := by rw [loadKey, hkey, loadKey]
  lines := by
    rw [h.holds.stored_eq, h'.holds.stored_eq]
    exact (hsub.map _).subset

theorem kept_append (h : Inv X sys L) {a : AppendInput} {clk : RotateClock}
    (hstep : Sys.step X sys (.append a clk) = some sys') : Kept (X := X) sys sys' := by
  obtain ⟨s', L', hs', hinv, -, hatt, hdet⟩ := h.step_append a clk
  obtain rfl := Option.some.inj (hs'.symm.trans hstep)
  refine kept_of_sublist h hinv ?_ ?_
  · rw [← Option.some.inj hs']
    exact (append_frame X ..).2
  · by_cases hattached : sys.Attached
    · rw [(hatt hattached).2]
      exact List.sublist_append_left _ _
    · rw [hdet hattached]

theorem kept_setRotation (h : Inv X sys L) {cfg : RotateConfig}
    (hstep : Sys.step X sys (.setRotation cfg) = some sys') : Kept (X := X) sys sys' := by
  obtain rfl := Option.some.inj hstep
  exact kept_of_sublist h (h.step_setRotation cfg) rfl (List.Sublist.refl _)

theorem kept_maybeRotate (h : Inv X sys L) {cfg : RotateConfig} {clk : RotateClock}
    (hstep : Sys.step X sys (.maybeRotate cfg clk) = some sys') : Kept (X := X) sys sys' := by
  obtain ⟨s', L', hs', hinv, -, hentries, -⟩ := h.step_maybeRotate cfg clk
  obtain rfl := Option.some.inj (hs'.symm.trans hstep)
  refine kept_of_sublist h hinv ?_ (by rw [hentries])
  obtain ⟨⟨r, d, inner⟩, hr, rfl⟩ := Option.map_eq_some_iff.mp hs'
  exact (maybeRotate_frame X hr).2

variable (X) in
/-- Every log there was is kept. -/
def Grows (logs logs' : Option String → Option Sys) : Prop :=
  ∀ w sys, logs w = some sys → ∃ sys', logs' w = some sys' ∧
    loadKey sys'.disk = loadKey sys.disk ∧ ∀ l ∈ stored X sys.disk, l ∈ stored X sys'.disk

theorem grows_update {logs : Option String → Option Sys} {w : Option String}
    (hkept : ∀ sys, logs w = some sys → Kept (X := X) sys sys') :
    Grows X logs (Function.update logs w (some sys')) := by
  intro v sys hv
  by_cases hvw : v = w
  · rw [hvw] at hv ⊢
    rw [Function.update_self]
    exact ⟨sys', rfl, (hkept sys hv).key, (hkept sys hv).lines⟩
  · rw [Function.update_of_ne hvw]
    exact ⟨sys, hv, rfl, fun l hl => hl⟩

end Logs

/-! ## What holds of a download -/

/-- A complete zip, evident under the key of the log it is about. -/
def Vouched (logs : Option String → Option Sys) (q : BundleQuery) (bytes : Bytes) : Prop :=
  ∃ members sys key, Z.read bytes = some members ∧ logs q.workspace = some sys ∧
    loadKey sys.disk = some key ∧ Evident X key q.lines members

/-- The workspace and the inode of a temporary file that is open. -/
def Download.opened : Download → Option (Option String × Nat)
  | .writing q _ ino _ => some (q.workspace, ino)
  | _ => none

/-- Two downloads do not have a temporary file, or the workspace of one, in common. -/
def Separate (r r' : Download) : Prop :=
  ∀ x, r.opened = some x → ∀ y, r'.opened = some y → x.1 ≠ y.1 ∧ x.2 ≠ y.2

def Download.Ok (logs : Option String → Option Sys) (files : Inodes String) : Download → Prop
  | .idle => True
  | .asked q => ∀ l ∈ q.lines, ∃ sys, logs q.workspace = some sys ∧ l ∈ stored X sys.disk
  | .read q log => ∀ content, Text.decode log = some content →
      ∀ l ∈ q.lines, l ∈ contentLines content
  | .zipped q zip => Vouched X Z logs q zip
  | .writing q zip ino done => Vouched X Z logs q zip ∧ done ≤ zip.length ∧
      files.Owns ino (tmpName q.workspace) ∧ files.data ino = zip.take done
  | .fetched q bytes => Vouched X Z logs q bytes
  | .returned q bytes => Vouched X Z logs q bytes
  | .failed => True

section Downloads

variable {X Z} {logs logs' : Option String → Option Sys} {files files' : Inodes String}
  {r : Download}

theorem Vouched.grows {q : BundleQuery} {bytes : Bytes} (h : Vouched X Z logs q bytes)
    (hlogs : Grows X logs logs') : Vouched X Z logs' q bytes := by
  obtain ⟨members, sys, key, hread, hsys, hkey, hevident⟩ := h
  obtain ⟨sys', hsys', hkey', -⟩ := hlogs _ _ hsys
  exact ⟨members, sys', key, hread, hsys', hkey'.trans hkey, hevident⟩

theorem Download.Ok.grows (h : r.Ok X Z logs files) (hlogs : Grows X logs logs') :
    r.Ok X Z logs' files := by
  cases r with
  | idle => trivial
  | asked q =>
      intro l hl
      obtain ⟨sys, hsys, hmem⟩ := h l hl
      obtain ⟨sys', hsys', -, hlines⟩ := hlogs _ _ hsys
      exact ⟨sys', hsys', hlines l hmem⟩
  | read q log => exact h
  | zipped q zip => exact Vouched.grows h hlogs
  | writing q zip ino done => exact ⟨h.1.grows hlogs, h.2⟩
  | fetched q bytes => exact Vouched.grows h hlogs
  | returned q bytes => exact Vouched.grows h hlogs
  | failed => trivial

/-- Only a download that has its temporary file open depends on the files. -/
theorem Download.Ok.with_files (h : r.Ok X Z logs files)
    (hfiles : ∀ x, r.opened = some x → files.Owns x.2 (tmpName x.1) →
      files'.Owns x.2 (tmpName x.1) ∧ files'.data x.2 = files.data x.2) :
    r.Ok X Z logs files' := by
  cases r with
  | writing q zip ino done =>
      obtain ⟨hvouched, hdone, howns, hdata⟩ := h
      obtain ⟨howns', hdata'⟩ := hfiles _ rfl howns
      exact ⟨hvouched, hdone, howns', hdata'.trans hdata⟩
  | idle => trivial
  | asked q => exact h
  | read q log => exact h
  | zipped q zip => exact h
  | fetched q bytes => exact h
  | returned q bytes => exact h
  | failed => trivial

theorem Download.Ok.owns (h : r.Ok X Z logs files) {x : Option String × Nat}
    (hx : r.opened = some x) : files.Owns x.2 (tmpName x.1) := by
  cases r with
  | writing q zip ino done =>
      obtain rfl := Option.some.inj hx
      exact h.2.2.1
  | _ => cases hx

theorem Separate.symm {r r' : Download} (h : Separate r r') : Separate r' r :=
  fun x hx y hy => ⟨(h y hy x hx).1.symm, (h y hy x hx).2.symm⟩

theorem separate_of_not_open {r r' : Download} (h : r.opened = none) : Separate r r' :=
  fun x hx => by rw [h] at hx; cases hx

end Downloads

/-! ## The invariant -/

structure BundleServer.Invariant (s : BundleServer) : Prop where
  logs : ∀ w sys, s.logs w = some sys → ∃ L, Inv X sys L
  ok : ∀ i, (s.downloads i).Ok X Z s.logs s.files
  separate : ∀ i j, i ≠ j → Separate (s.downloads i) (s.downloads j)

/-- The log is read when nothing is sealed or there is nothing to find; it is verified as it
    was read; a temporary file is opened that nobody else has open. -/
def Uncontended (s : BundleServer) : BundleAct → Prop
  | .readLog i => ∀ q sys, s.downloads i = .asked q → s.logs q.workspace = some sys →
      (loadManifest sys.disk).segments = [] ∨ q.lines = []
  | .verifyLog i _ _ => ∀ q log sys, s.downloads i = .read q log →
      s.logs q.workspace = some sys → BundleServer.readBytes sys.disk = some log
  | .openTmp i => ∀ q zip, s.downloads i = .zipped q zip →
      ∀ j x, (s.downloads j).opened = some x → x.1 ≠ q.workspace
  | _ => True

section Steps

variable {X E Z} {s s' : BundleServer} {i : Nat}

/-- A log is opened or used. -/
theorem BundleServer.Invariant.with_logs (h : s.Invariant X Z) {w : Option String} {sys : Sys}
    (hinv : ∃ L, Inv X sys L) (hkept : ∀ sys', s.logs w = some sys' → Kept (X := X) sys' sys) :
    BundleServer.Invariant X Z { s with logs := Function.update s.logs w (some sys) } where
  logs := by
    intro v sys' hv
    by_cases hvw : v = w
    · rw [hvw] at hv
      dsimp only at hv
      rw [Function.update_self] at hv
      rw [← Option.some.inj hv]
      exact hinv
    · dsimp only at hv
      rw [Function.update_of_ne hvw] at hv
      exact h.logs v sys' hv
  ok i := (h.ok i).grows (grows_update hkept)
  separate := h.separate

theorem BundleServer.Invariant.on_log (h : s.Invariant X Z) {w : Option String} {op : Op}
    (hkept : ∀ sys sys' L, Inv X sys L → Sys.step X sys op = some sys' → Kept (X := X) sys sys')
    (hs : s.onLog X w op = some s') : s'.Invariant X Z := by
  obtain ⟨sys, hsys, hs⟩ := Option.bind_eq_some_iff.mp hs
  obtain ⟨sys', hstep, rfl⟩ := Option.map_eq_some_iff.mp hs
  obtain ⟨L, hinv⟩ := h.logs w sys hsys
  refine h.with_logs (hkept sys sys' L hinv hstep).inv fun sys₀ hsys₀ => ?_
  rw [← Option.some.inj (hsys.symm.trans hsys₀)]
  exact hkept sys sys' L hinv hstep

/-- A download moves on, and the temporary files change in what is not another's. -/
theorem BundleServer.Invariant.move (h : s.Invariant X Z) {files : Inodes String} {r : Download}
    (hfiles : ∀ j, j ≠ i → ∀ x, (s.downloads j).opened = some x →
      s.files.Owns x.2 (tmpName x.1) →
        files.Owns x.2 (tmpName x.1) ∧ files.data x.2 = s.files.data x.2)
    (hok : r.Ok X Z s.logs files) (hseparate : ∀ j, j ≠ i → Separate r (s.downloads j)) :
    BundleServer.Invariant X Z (BundleServer.setDownload { s with files } i r) where
  logs := h.logs
  ok := by
    intro j
    show (Function.update s.downloads i r j).Ok X Z s.logs files
    by_cases hj : j = i
    · rw [hj, Function.update_self]
      exact hok
    · rw [Function.update_of_ne hj]
      exact (h.ok j).with_files (hfiles j hj)
  separate := Run.pairwise_update (fun _ _ hr => hr.symm) h.separate hseparate

/-- A download moves on that has no temporary file open then. -/
theorem BundleServer.Invariant.set (h : s.Invariant X Z) {r : Download}
    (hok : r.Ok X Z s.logs s.files) (hclosed : r.opened = none) :
    (s.setDownload i r).Invariant X Z :=
  h.move (fun _ _ _ _ howns => ⟨howns, rfl⟩) hok fun _ _ => separate_of_not_open hclosed

/-- What is read of a log, when nothing is sealed, has all the lines. -/
theorem ok_readLog {q : BundleQuery} (hok : (Download.asked q).Ok X Z s.logs s.files)
    (hwhole : ∀ sys, s.logs q.workspace = some sys →
      (loadManifest sys.disk).segments = [] ∨ q.lines = []) :
    (s.readLog q).Ok X Z s.logs s.files ∧ (s.readLog q).opened = none := by
  rw [BundleServer.readLog]
  cases hread : (s.logs q.workspace).bind fun sys => BundleServer.readBytes sys.disk with
  | none => exact ⟨trivial, rfl⟩
  | some log =>
      refine ⟨fun content hcontent l hl => ?_, rfl⟩
      obtain ⟨sys, hsys, hbytes⟩ := Option.bind_eq_some_iff.mp hread
      obtain ⟨ino, hino, rfl⟩ := Option.map_eq_some_iff.mp hbytes
      rcases hwhole sys hsys with hsealed | hnil
      · obtain ⟨sys', hsys', hstored⟩ := hok l hl
        obtain rfl := Option.some.inj (hsys.symm.trans hsys')
        have htext : sys.disk.readLog = some content := by
          rw [Disk.readLog, hino, Option.bind_some, hcontent]
        rw [stored, hsealed, htext] at hstored
        exact hstored
      · rw [hnil] at hl
        cases hl

/-- The zip of a log that was not touched between the two reads. -/
theorem vouched_finishZip {q : BundleQuery} {log zip : Bytes} {verifiedAt createdAt : DateTime}
    (hok : (Download.read q log).Ok X Z s.logs s.files)
    (hsame : ∀ sys, s.logs q.workspace = some sys → BundleServer.readBytes sys.disk = some log)
    (hzip : s.finishZip X E Z q log verifiedAt createdAt = some zip) :
    Vouched X Z s.logs q zip := by
  obtain ⟨sys, hsys, hzip⟩ := Option.bind_eq_some_iff.mp hzip
  obtain ⟨key, hkey, hzip⟩ := Option.bind_eq_some_iff.mp hzip
  obtain ⟨result, hresult, hzip⟩ := Option.bind_eq_some_iff.mp hzip
  obtain ⟨ino, hino, rfl⟩ := Option.map_eq_some_iff.mp (hsame sys hsys)
  rw [verifyLog, hino] at hresult
  obtain ⟨content, htext, rfl⟩ := Option.map_eq_some_iff.mp hresult
  rw [Disk.readLog, hino, Option.bind_some] at htext
  exact ⟨_, sys, key, Z.read_write _ _ hzip, hsys, hkey,
    evident_bundleMembers htext rfl (hok content htext)⟩

/-- A temporary file is opened that no other download has open. -/
theorem BundleServer.Invariant.openTmp (h : s.Invariant X Z) {q : BundleQuery} {zip : Bytes}
    (hi : s.downloads i = .zipped q zip)
    (halone : ∀ j x, (s.downloads j).opened = some x → x.1 ≠ q.workspace) :
    BundleServer.Invariant X Z (BundleServer.setDownload
      { s with files := (s.files.create (tmpName q.workspace)).1 } i
      (.writing q zip (s.files.create (tmpName q.workspace)).2 0)) := by
  have hvouched : Vouched X Z s.logs q zip := by
    have hok := h.ok i
    rwa [hi] at hok
  have hother : ∀ j x, (s.downloads j).opened = some x →
      tmpName x.1 ≠ tmpName q.workspace := fun j x hx heq =>
    halone j x hx (tmpName_injective heq)
  refine h.move ?_ ?_ ?_
  · intro j _ x hx howns
    obtain ⟨howns', hdata, -⟩ := howns.create (hother j x hx)
    exact ⟨howns', hdata⟩
  · exact ⟨hvouched, Nat.zero_le _, Inodes.owns_create⟩
  · intro j _ x hx y hy
    obtain rfl := Option.some.inj hx
    obtain ⟨-, -, hino⟩ := ((h.ok j).owns hy).create (hother j y hy)
    exact ⟨(halone j y hy).symm, hino.symm⟩

/-- A piece is written to a temporary file. -/
theorem BundleServer.Invariant.writeTmp (h : s.Invariant X Z) {q : BundleQuery} {zip : Bytes}
    {ino done : Nat} (hi : s.downloads i = .writing q zip ino done) (n : Nat) :
    BundleServer.Invariant X Z (BundleServer.setDownload
      { s with files := s.files.pwrite ino done ((zip.drop done).take n) } i
      (.writing q zip ino (done + ((zip.drop done).take n).length))) := by
  have hopened : (s.downloads i).opened = some (q.workspace, ino) := by
    rw [hi]
    rfl
  have hok := h.ok i
  rw [hi] at hok
  obtain ⟨hvouched, hdone, howns, hdata⟩ := hok
  refine h.move ?_ ?_ ?_
  · intro j hj x hx hown
    have hne := (h.separate j i hj x hx _ hopened).2
    exact ⟨hown.pwrite .., Inodes.data_pwrite_of_ne hne ..⟩
  · refine ⟨hvouched, ?_, howns.pwrite .., ?_⟩
    · rw [List.length_take, List.length_drop]
      omega
    · have hwritten : (s.files.pwrite ino done ((zip.drop done).take n)).data ino
          = overlay (s.files.data ino) done ((zip.drop done).take n) := Function.update_self ..
      rw [hwritten, hdata]
      exact overlay_take hdone n
  · intro j hj x hx
    obtain rfl := Option.some.inj hx
    exact h.separate i j (Ne.symm hj) _ hopened

/-- A request finds its log missing, or knows what is stored. -/
theorem ok_arrive (w : Option String) (signingKey : Option (ByteArr 32))
    (attestation : Option Bytes) :
    (s.arrive X w signingKey attestation).Ok X Z s.logs s.files ∧
      (s.arrive X w signingKey attestation).opened = none := by
  rw [BundleServer.arrive]
  split_ifs with hmissing
  · exact ⟨trivial, rfl⟩
  · refine ⟨fun l hl => ?_, rfl⟩
    cases hsys : s.logs w with
    | none =>
        rw [hsys] at hl
        cases hl
    | some sys =>
        rw [hsys] at hl
        exact ⟨sys, rfl, hl⟩

/-- What is read back is the zip: it is in the inode, which is the one the path names. -/
theorem vouched_read {q : BundleQuery} {zip bytes : Bytes} {ino : Nat}
    (hok : (Download.writing q zip ino zip.length).Ok X Z s.logs s.files)
    (hread : s.files.read (tmpName q.workspace) = some bytes) : Vouched X Z s.logs q bytes := by
  obtain ⟨hvouched, -, howns, hdata⟩ := hok
  have hbytes := howns.read hread
  rw [hdata, List.take_length] at hbytes
  rw [hbytes]
  exact hvouched

/-- **One step.** -/
theorem BundleServer.Invariant.step (h : s.Invariant X Z) {act : BundleAct}
    (hact : Uncontended s act) (hs : s.step X E Z act = some s') : s'.Invariant X Z := by
  -- One case for each action.  A log changes by the calls of the log itself; a download
  -- goes from phase to phase, and what it has read or made is vouched for.
  cases act with
  | openLog w rand =>
      rw [BundleServer.step] at hs
      cases hlog : s.logs w with
      | some sys =>
          rw [hlog] at hs
          cases hs
      | none =>
          rw [hlog, fresh_eq] at hs
          obtain rfl := Option.some.inj hs
          refine h.with_logs ⟨_, inv_freshSys rand⟩ fun sys hsys => ?_
          rw [hlog] at hsys
          cases hsys
  -- The next three leave every download where it is.
  | append w a clk => exact h.on_log (fun _ _ _ hinv hstep => kept_append hinv hstep) hs
  | setRotation w cfg => exact h.on_log (fun _ _ _ hinv hstep => kept_setRotation hinv hstep) hs
  | maybeRotate w cfg clk =>
      exact h.on_log (fun _ _ _ hinv hstep => kept_maybeRotate hinv hstep) hs
  | request i w signingKey attestation =>
      rw [BundleServer.step] at hs
      split at hs
      · obtain rfl := Option.some.inj hs
        obtain ⟨hok, hclosed⟩ := ok_arrive (Z := Z) w signingKey attestation
        exact h.set hok hclosed
      · cases hs
  | readLog i =>
      rw [BundleServer.step] at hs
      split at hs
      · next q hi =>
          obtain rfl := Option.some.inj hs
          have hok := h.ok i
          rw [hi] at hok
          obtain ⟨hok', hclosed⟩ := ok_readLog hok fun sys => hact q sys hi
          exact h.set hok' hclosed
      · cases hs
  | verifyLog i verifiedAt createdAt =>
      rw [BundleServer.step] at hs
      split at hs
      · next q log hi =>
          have hok := h.ok i
          rw [hi] at hok
          split at hs
          · next zip hzip =>
              obtain rfl := Option.some.inj hs
              exact h.set (vouched_finishZip hok (fun sys => hact q log sys hi) hzip) rfl
          -- The log cannot be verified: the download ends.
          · obtain rfl := Option.some.inj hs
            exact h.set trivial rfl
      · cases hs
  | openTmp i =>
      rw [BundleServer.step] at hs
      split at hs
      · next q zip hi =>
          obtain rfl := Option.some.inj hs
          exact h.openTmp hi (hact q zip hi)
      · cases hs
  | writeTmp i n =>
      rw [BundleServer.step] at hs
      split at hs
      · next q zip ino done hi =>
          obtain rfl := Option.some.inj hs
          exact h.writeTmp hi n
      · cases hs
  | readTmp i =>
      rw [BundleServer.step] at hs
      split at hs
      · next q zip ino done hi =>
          have hok := h.ok i
          rw [hi] at hok
          -- The file is returned only after the whole zip was written.
          split_ifs at hs with hdone
          split at hs
          · next bytes hread =>
              obtain rfl := Option.some.inj hs
              rw [hdone] at hok
              exact h.set (vouched_read hok hread) rfl
          · obtain rfl := Option.some.inj hs
            exact h.set trivial rfl
      · cases hs
  | removeTmp i =>
      rw [BundleServer.step] at hs
      split at hs
      · next q bytes hi =>
          obtain rfl := Option.some.inj hs
          have hok := h.ok i
          rw [hi] at hok
          -- The inode stays with the download; only the name goes.
          exact h.move (fun _ _ _ _ howns => ⟨howns.unlink _, rfl⟩) hok fun _ _ =>
            separate_of_not_open rfl
      · cases hs
  -- A download may end in any phase, and then vouches for nothing.
  | fail i =>
      rw [BundleServer.step] at hs
      split at hs <;> cases hs <;> exact h.set trivial rfl

end Steps

/-! ## Every run -/

variable {X E Z}

/-- The logs are as earlier runs on them left them. -/
def LogsReached (logs : Option String → Option Sys) : Prop :=
  ∀ w sys, logs w = some sys → ∃ rand ops,
    Run.Along (Sys.step X) (RestartOk X) (freshSys rand) ops ∧
      Sys.run X (freshSys rand) ops = some sys

theorem invariant_start {logs : Option String → Option Sys} (hlogs : LogsReached (X := X) logs)
    (files : Inodes String) : (BundleServer.start logs files).Invariant X Z where
  logs := by
    intro w sys hsys
    obtain ⟨rand, ops, hops, hrun⟩ := hlogs w sys hsys
    obtain ⟨sys', hrun', -, hinv⟩ := inv_run rand hops
    rwa [Option.some.inj (hrun.symm.trans hrun')]
  ok _ := trivial
  separate _ _ _ := separate_of_not_open rfl

/-- **Bundles.**  In every run in which the logs are read with nothing sealed and verified as
    they were read, and no temporary file is opened while another download has it open,
    every bundle that is returned is vouched for. -/
theorem returned_vouched {logs : Option String → Option Sys} (hlogs : LogsReached (X := X) logs)
    (files : Inodes String) {acts : List BundleAct}
    (hacts : Run.Along (BundleServer.step X E Z) Uncontended (.start logs files) acts)
    {s : BundleServer} (hs : Run.run (BundleServer.step X E Z) (.start logs files) acts = some s)
    {i : Nat} {q : BundleQuery} {bytes : Bytes} (hi : s.downloads i = .returned q bytes) :
    Vouched X Z s.logs q bytes := by
  have hinv : s.Invariant X Z :=
    Run.invariant_of_along (fun _ _ _ h hact hstep => h.step hact hstep)
      (invariant_start hlogs files) hacts hs
  have hok := hinv.ok i
  rwa [hi] at hok

/-! ## A download that nobody gets in the way of -/

section Alone

variable {s : BundleServer} {i : Nat}

theorem BundleServer.setDownload_self (r : Download) : (s.setDownload i r).downloads i = r :=
  Function.update_self ..

theorem BundleServer.setDownload_of_ne {j : Nat} (hj : j ≠ i) (r : Download) :
    (s.setDownload i r).downloads j = s.downloads j := Function.update_of_ne hj ..

theorem BundleServer.setDownload_twice (r r' : Download) :
    (s.setDownload i r).setDownload i r' = s.setDownload i r' := by
  rw [BundleServer.setDownload, BundleServer.setDownload, BundleServer.setDownload,
    Function.update_idem]

/-- The steps after the zip is finished. -/
def finishing (i n : Nat) : List BundleAct :=
  [.openTmp i, .writeTmp i n, .readTmp i, .removeTmp i]

theorem run_finishing {q : BundleQuery} {zip : Bytes} (hi : s.downloads i = .zipped q zip) :
    (∃ s', Run.run (BundleServer.step X E Z) s (finishing i zip.length) = some s' ∧
      s'.logs = s.logs ∧ s'.downloads i = .returned q zip) ∧
    (Uncontended s (.openTmp i) →
      Run.Along (BundleServer.step X E Z) Uncontended s (finishing i zip.length)) := by
  -- The four calls that remain, each with the state it leaves.
  obtain ⟨s₁, hopen, hlogs₁, hi₁, hfiles₁⟩ : ∃ s₁, s.step X E Z (.openTmp i) = some s₁ ∧
      s₁.logs = s.logs ∧
      s₁.downloads i = .writing q zip (s.files.create (tmpName q.workspace)).2 0 ∧
      s₁.files = (s.files.create (tmpName q.workspace)).1 := by
    rw [BundleServer.step, hi]
    exact ⟨_, rfl, rfl, BundleServer.setDownload_self _, rfl⟩
  obtain ⟨s₂, hwrite, hlogs₂, hi₂, hfiles₂⟩ : ∃ s₂,
      s₁.step X E Z (.writeTmp i zip.length) = some s₂ ∧ s₂.logs = s₁.logs ∧
      s₂.downloads i = .writing q zip (s.files.create (tmpName q.workspace)).2 zip.length ∧
      s₂.files.read (tmpName q.workspace) = some zip := by
    have hpiece : (zip.drop 0).take zip.length = zip := by rw [List.drop_zero, List.take_length]
    rw [BundleServer.step, hi₁]
    dsimp only
    rw [hpiece, Nat.zero_add, hfiles₁]
    -- No other download writes between them, so the file has the zip and nothing else.
    exact ⟨_, rfl, rfl, BundleServer.setDownload_self _, Inodes.read_pwrite_create zip⟩
  obtain ⟨s₃, hread, hlogs₃, hi₃⟩ : ∃ s₃, s₂.step X E Z (.readTmp i) = some s₃ ∧
      s₃.logs = s₂.logs ∧ s₃.downloads i = .fetched q zip := by
    rw [BundleServer.step, hi₂]
    dsimp only
    rw [if_pos rfl, hfiles₂]
    exact ⟨_, rfl, rfl, BundleServer.setDownload_self _⟩
  obtain ⟨s₄, hremove, hlogs₄, hi₄⟩ : ∃ s₄, s₃.step X E Z (.removeTmp i) = some s₄ ∧
      s₄.logs = s₃.logs ∧ s₄.downloads i = .returned q zip := by
    rw [BundleServer.step, hi₃]
    exact ⟨_, rfl, rfl, BundleServer.setDownload_self _⟩
  constructor
  · refine ⟨s₄, ?_, ?_, hi₄⟩
    · rw [finishing, Run.run_cons hopen, Run.run_cons hwrite, Run.run_cons hread,
        Run.run_cons hremove]
      rfl
    · rw [hlogs₄, hlogs₃, hlogs₂, hlogs₁]
  -- Of the four only the first asks who else has the file open.
  · intro halone
    rw [finishing, Run.along_cons hopen, Run.along_cons hwrite, Run.along_cons hread,
      Run.along_cons hremove]
    exact ⟨halone, trivial, trivial, trivial, trivial⟩

/-- The steps of a download. -/
def downloadSteps (i : Nat) (q : BundleQuery) (verifiedAt createdAt : DateTime) (n : Nat) :
    List BundleAct :=
  [.request i q.workspace q.signingKey q.attestation, .readLog i,
    .verifyLog i verifiedAt createdAt] ++ finishing i n

variable {q : BundleQuery} (verifiedAt createdAt : DateTime) {sys : Sys} {log key zip : Bytes}
  {result : VerifyResult}

theorem step_request (hi : s.downloads i = .idle) (hsys : s.logs q.workspace = some sys)
    (hlog : sys.disk.log ≠ none) (hlines : q.lines = stored X sys.disk) :
    s.step X E Z (.request i q.workspace q.signingKey q.attestation)
      = some (s.setDownload i (.asked q)) := by
  rw [BundleServer.step, hi]
  dsimp only
  rw [BundleServer.arrive, hsys, Option.bind_some, if_neg fun h => hlog h.2, Option.map_some,
    Option.getD_some, ← hlines]

theorem step_readLog (hi : s.downloads i = .asked q) (hsys : s.logs q.workspace = some sys)
    (hlog : BundleServer.readBytes sys.disk = some log) :
    s.step X E Z (.readLog i) = some (s.setDownload i (.read q log)) := by
  rw [BundleServer.step, hi]
  dsimp only
  rw [BundleServer.readLog, hsys, Option.bind_some, hlog]

theorem step_verifyLog (hi : s.downloads i = .read q log) (hsys : s.logs q.workspace = some sys)
    (hkey : loadKey sys.disk = some key) (hresult : verifyLog X sys.disk key = some result)
    (hzip : Z.write (bundleMembers X E q.workspace q.signingKey q.attestation log result
      verifiedAt createdAt) = some zip) :
    s.step X E Z (.verifyLog i verifiedAt createdAt) = some (s.setDownload i (.zipped q zip)) := by
  rw [BundleServer.step, hi]
  dsimp only
  rw [BundleServer.finishZip, hsys, Option.bind_some, hkey, Option.bind_some, hresult,
    Option.bind_some, hzip]

/-- An operation on a log, and the downloads stand where they stood. -/
theorem onLog_of_step {w : Option String} {op : Op} {sys sys' : Sys} (hsys : s.logs w = some sys)
    (hstep : Sys.step X sys op = some sys') :
    ∃ s₁, s.onLog X w op = some s₁ ∧ s₁.logs w = some sys' ∧ s₁.downloads = s.downloads := by
  rw [BundleServer.onLog, hsys, Option.bind_some, hstep]
  exact ⟨_, rfl, Function.update_self .., rfl⟩

/-- **Alone.**  A download whose steps follow one another returns the bundle, and is
    uncontended when nothing is sealed and no temporary file is open. -/
theorem run_downloadSteps (hi : s.downloads i = .idle) (hsys : s.logs q.workspace = some sys)
    (hlines : q.lines = stored X sys.disk)
    (hlog : BundleServer.readBytes sys.disk = some log) (hkey : loadKey sys.disk = some key)
    (hresult : verifyLog X sys.disk key = some result)
    (hzip : Z.write (bundleMembers X E q.workspace q.signingKey q.attestation log result
      verifiedAt createdAt) = some zip) :
    (∃ s', Run.run (BundleServer.step X E Z) s
        (downloadSteps i q verifiedAt createdAt zip.length) = some s' ∧
      s'.logs = s.logs ∧ s'.downloads i = .returned q zip) ∧
    ((loadManifest sys.disk).segments = [] → (∀ j, (s.downloads j).opened = none) →
      Run.Along (BundleServer.step X E Z) Uncontended s
        (downloadSteps i q verifiedAt createdAt zip.length)) := by
  -- The handler asks first whether there is a log.
  have hthere : sys.disk.log ≠ none := by
    intro hnone
    rw [BundleServer.readBytes, hnone] at hlog
    cases hlog
  have hask := step_request (X := X) (E := E) (Z := Z) hi hsys hthere hlines
  have hread := step_readLog (X := X) (E := E) (Z := Z)
    (BundleServer.setDownload_self (s := s) (i := i) (.asked q)) hsys hlog
  have hverify := step_verifyLog (X := X) (E := E) (Z := Z) verifiedAt createdAt
    (BundleServer.setDownload_self (s := s) (i := i) (.read q log)) hsys hkey hresult hzip
  rw [BundleServer.setDownload_twice] at hread hverify
  obtain ⟨⟨s', hrun, hlogs, hreturned⟩, halong⟩ := run_finishing (X := X) (E := E) (Z := Z)
    (BundleServer.setDownload_self (s := s) (i := i) (.zipped q zip))
  constructor
  · refine ⟨s', ?_, hlogs, hreturned⟩
    rw [downloadSteps, List.cons_append, Run.run_cons hask, List.cons_append, Run.run_cons hread,
      List.cons_append, Run.run_cons hverify]
    exact hrun
  · intro hsealed hclosed
    rw [downloadSteps, List.cons_append, Run.along_cons hask, List.cons_append,
      Run.along_cons hread, List.cons_append, Run.along_cons hverify]
    -- The entries of the request agree with the bytes: no segment, and the log as it was.
    refine ⟨trivial, ?_, ?_, halong ?_⟩
    · intro q' sys' hq hsys'
      rw [BundleServer.setDownload_self] at hq
      obtain rfl := Download.asked.inj hq
      obtain rfl := Option.some.inj (hsys.symm.trans hsys')
      exact .inl hsealed
    · intro q' log' sys' hq hsys'
      rw [BundleServer.setDownload_self] at hq
      obtain ⟨rfl, rfl⟩ := Download.read.inj hq
      obtain rfl := Option.some.inj (hsys.symm.trans hsys')
      exact hlog
    -- And nobody else has the temporary file open.
    · intro q' zip' hq j x hx
      by_cases hj : j = i
      · rw [hj, BundleServer.setDownload_self] at hx
        cases hx
      · rw [BundleServer.setDownload_of_ne hj, hclosed j] at hx
        cases hx

end Alone

/-! ## One log -/

/-- A server that has its own log only. -/
def oneLog (sys : Sys) : Option String → Option Sys
  | none => some sys
  | some _ => none

theorem logsReached_oneLog {rand : RandomKey} {ops : List Op} {sys : Sys}
    (hops : Run.Along (Sys.step X) (RestartOk X) (freshSys rand) ops)
    (hrun : Sys.run X (freshSys rand) ops = some sys) : LogsReached (X := X) (oneLog sys) := by
  intro w sys' hsys'
  cases w with
  | none =>
      rw [← Option.some.inj hsys']
      exact ⟨rand, ops, hops, hrun⟩
  | some slug => cases hsys'

/-- A download of the server's own log, unsigned. -/
def plainQuery (lines : List Text) : BundleQuery where
  workspace := none
  signingKey := none
  attestation := none
  lines := lines

/-- What the log of a directory is read as, twice. -/
theorem reads_of_inv {sys : Sys} {L : Layout} (h : Inv X sys L) :
    BundleServer.readBytes sys.disk = some (Text.encode (logText X L.active)) ∧
      loadKey sys.disk = some sys.log.key ∧
      verifyLog X sys.disk sys.log.key
        = some (verifyContent X (logText X L.active) sys.log.key) := by
  obtain ⟨i, hi, hdata⟩ := h.holds.log
  refine ⟨?_, ?_, ?_⟩
  · rw [BundleServer.readBytes, hi, Option.map_some, hdata]
  · rw [loadKey, h.key, Option.bind_some, if_pos h.keyLen]
  · rw [verifyLog, hi, h.holds.readLog]
    rfl

/-- What vouches for a bundle is in its members. -/
theorem evident_of_vouched {logs : Option String → Option Sys} {q : BundleQuery}
    {members : List (String × Bytes)} {zip : Bytes} (hzip : Z.write members = some zip)
    (h : Vouched X Z logs q zip) : ∃ key, Evident X key q.lines members := by
  obtain ⟨members', sys, key, hread, -, -, hevident⟩ := h
  rw [Z.read_write _ _ hzip] at hread
  rw [Option.some.inj hread]
  exact ⟨key, hevident⟩

/-- A download with one entry in the log. -/
theorem returned_vouched_first :
    ∃ n s q zip, Run.run (BundleServer.step .sample (.sample []) .sample)
        (.start (oneLog ((freshSys Audit.zeroKey).wrote .sample (stopAt 0))) .empty)
        (downloadSteps 0 q 0 0 n) = some s ∧
      q.lines.length = 1 ∧ s.downloads 0 = .returned q zip ∧
      Vouched .sample .sample s.logs q zip := by
  have hinv := inv_firstLayout (X := .sample) Audit.zeroKey (stopAt 0)
  obtain ⟨hbytes, hkey, hresult⟩ := reads_of_inv hinv
  have hstored := hinv.holds.stored_eq
  generalize hlines :
    stored .sample ((freshSys Audit.zeroKey).wrote .sample (stopAt 0)).disk = lines at hstored
  obtain ⟨⟨s, hrun, -, hreturned⟩, halong⟩ := run_downloadSteps (X := .sample)
    (E := .sample []) (Z := .sample) (q := plainQuery lines) 0 0
    (s := .start (oneLog ((freshSys Audit.zeroKey).wrote .sample (stopAt 0))) .empty) (i := 0)
    rfl rfl hlines.symm hbytes hkey hresult rfl
  refine ⟨_, s, plainQuery lines, _, hrun, ?_, hreturned, ?_⟩
  · rw [plainQuery, hstored]
    rfl
  · have hops : Run.Along (Sys.step .sample) (RestartOk .sample) (freshSys Audit.zeroKey)
        [.append (stopAt 0) newYearClock] := ⟨trivial, fun _ _ => trivial⟩
    exact returned_vouched (logsReached_oneLog hops (run_append_freshSys ..)) .empty
      (halong rfl fun _ => rfl) hrun hreturned

/-- The steps return a bundle that is not vouched for. -/
def Misleads (sys : Sys) (acts : Nat → List BundleAct) : Prop :=
  ∃ n s q zip, Run.run (BundleServer.step .sample (.sample []) .sample)
      (.start (oneLog sys) .empty) (acts n) = some s ∧
    s.downloads 0 = .returned q zip ∧ ¬ Vouched .sample .sample s.logs q zip

/-- An entry is appended between the two reads. -/
def appendBetween (n : Nat) : List BundleAct :=
  [.request 0 none none none, .readLog 0, .append none (stopAt 0) newYearClock,
    .verifyLog 0 0 0] ++ finishing 0 n

/-- The result is about one entry, the log in the bundle has none. -/
theorem misleads_appendBetween : Misleads (freshSys Audit.zeroKey) appendBetween := by
  have hfresh := inv_freshSys (X := .sample) Audit.zeroKey
  have hfirst := inv_firstLayout (X := .sample) Audit.zeroKey (stopAt 0)
  obtain ⟨hbytes, -, -⟩ := reads_of_inv hfresh
  obtain ⟨-, hkey, hresult⟩ := reads_of_inv hfirst
  have hlines : (plainQuery []).lines = stored .sample (freshSys Audit.zeroKey).disk := by
    rw [hfresh.holds.stored_eq]
    rfl
  -- The request and the read see an empty log; the append comes before the verification.
  have hask := step_request (X := .sample) (E := .sample []) (Z := .sample) (i := 0)
    (s := .start (oneLog (freshSys Audit.zeroKey)) .empty) (q := plainQuery []) rfl rfl
    (fun h => by cases h) hlines
  have hread := step_readLog (X := .sample) (E := .sample []) (Z := .sample)
    (BundleServer.setDownload_self (s := .start (oneLog (freshSys Audit.zeroKey)) .empty) (i := 0)
      (.asked (plainQuery []))) rfl hbytes
  rw [BundleServer.setDownload_twice] at hread
  obtain ⟨s₁, happend, hlogs₁, hdownloads₁⟩ := onLog_of_step (w := none)
    (s := BundleServer.setDownload (.start (oneLog (freshSys Audit.zeroKey)) .empty) 0
      (.read (plainQuery []) (Text.encode (logText .sample [])))) rfl
    (step_append_freshSys (X := .sample) Audit.zeroKey (stopAt 0) newYearClock)
  have hi₁ : s₁.downloads 0 = .read (plainQuery []) (Text.encode (logText .sample [])) := by
    rw [hdownloads₁, BundleServer.setDownload_self]
  -- What is written into the zip is checked against the log that has an entry by then.
  obtain ⟨zip, hzip⟩ : ∃ zip, ZipArchive.sample.write (bundleMembers .sample (.sample []) none none
      none (Text.encode (logText .sample [])) (verifyContent .sample (logText .sample
        (firstLayout .sample Audit.zeroKey (stopAt 0)).active) Audit.zeroKey.1) 0 0)
          = some zip := ⟨_, rfl⟩
  have hverify := step_verifyLog (X := .sample) (E := .sample []) (Z := .sample) 0 0 hi₁ hlogs₁
    hkey hresult hzip
  obtain ⟨⟨s, hrun, -, hreturned⟩, -⟩ := run_finishing (X := .sample) (E := .sample [])
    (Z := .sample) (BundleServer.setDownload_self (s := s₁) (i := 0) (.zipped (plainQuery []) zip))
  refine ⟨zip.length, s, plainQuery [], zip, ?_, hreturned, fun hvouched => ?_⟩
  · refine (Run.run_cons hask _).trans ((Run.run_cons hread _).trans ?_)
    exact (Run.run_cons happend _).trans ((Run.run_cons hverify _).trans hrun)
  · obtain ⟨key, hevident⟩ := evident_of_vouched hzip hvouched
    obtain ⟨log, content, verifiedAt, hlog, hcontent, hintegrity⟩ := hevident.verified
    rw [lookup_log] at hlog
    rw [← Option.some.inj hlog, Text.decode_encode] at hcontent
    rw [lookup_integrity, ← Option.some.inj hcontent] at hintegrity
    obtain ⟨hchecked, hok⟩ := result_of_integrityJson (Option.some.inj hintegrity)
    have hpos : ∀ e ∈ (firstLayout .sample Audit.zeroKey (stopAt 0)).active, 0 < e.seq :=
      fun e he => hfirst.seq_pos (hfirst.sublist.subset he)
    -- So the count in the zip is one, and the log in it has no entry.
    have hone := (verifyContent_logText (X := .sample) Audit.zeroKey.1 hpos).2 hok
    exact Nat.zero_ne_one (hchecked.symm.trans hone)

/-- An entry that was rotated away is stored, and the bundle does not have it. -/
theorem misleads_rotated :
    ∃ sys, Sys.run .sample (freshSys Audit.zeroKey)
        [.append (stopAt 0) newYearClock, .maybeRotate anySize newYearClock] = some sys ∧
      Misleads sys (downloadSteps 0 (plainQuery []) 0 0) := by
  have hfirst := complete_firstLayout (X := .sample) Audit.zeroKey (stopAt 0)
  obtain ⟨due, hdue⟩ := rotateDue_firstLayout (X := .sample) Audit.zeroKey 0 newYearClock.age
  obtain ⟨sys, L, hrotated, hcomplete, hwritten, hnil⟩ := hfirst.step_rotate_due rfl hdue
  obtain ⟨hbytes, hkey, hresult⟩ := reads_of_inv hcomplete.toInv
  obtain ⟨⟨s, hrun, -, hreturned⟩, -⟩ := run_downloadSteps (X := .sample) (E := .sample [])
    (Z := .sample) (q := plainQuery (stored .sample sys.disk)) 0 0
    (s := .start (oneLog sys) .empty) (i := 0) rfl rfl rfl hbytes hkey hresult rfl
  refine ⟨sys, ?_, _, s, plainQuery (stored .sample sys.disk), _, hrun, hreturned, ?_⟩
  · rw [Sys.run, Run.run_cons (step_append_freshSys ..), Run.run_cons hrotated]
    rfl
  · intro hvouched
    obtain ⟨key, hevident⟩ := evident_of_vouched rfl hvouched
    obtain ⟨log, content, hlog, hcontent, hall⟩ := hevident.complete
    rw [lookup_log] at hlog
    rw [← Option.some.inj hlog, Text.decode_encode] at hcontent
    rw [← Option.some.inj hcontent, hnil] at hall
    have hline : (nextEntry .sample (freshLog Audit.zeroKey) (stopAt 0)).toText .sample
        ∈ stored .sample sys.disk := by
      rw [hcomplete.holds.stored_eq, hcomplete.entries_eq, hwritten]
      exact List.mem_cons_self
    cases hall _ hline

/-- An append in the middle, and a rotation before. -/
theorem not_returned_vouched :
    Misleads (freshSys Audit.zeroKey) appendBetween ∧
      ∃ sys, Sys.run .sample (freshSys Audit.zeroKey)
          [.append (stopAt 0) newYearClock, .maybeRotate anySize newYearClock] = some sys ∧
        Misleads sys (downloadSteps 0 (plainQuery []) 0 0) :=
  ⟨misleads_appendBetween, misleads_rotated⟩

end Maranode.Api
