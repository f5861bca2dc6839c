/-
  Maranode.Cli.Shred

  `maranode workspace shred` and `maranode audit export-cert`.

  The command destroys the key and appends a `workspace_shredded` entry, and the
  certificate is made from that entry, read back from the log.  An entry of this kind is
  written with two members called `actor`, so no reader takes its line
  (`kind_of_fromStr`): neither the certificate nor the verification of the log gets past
  it.
-/
import Maranode.Audit.System
import Maranode.Store.Allowlist

namespace Maranode.Cli

open Lib Common Audit Store

variable (X : External)

/-! ## The commands -/

/-- `workspaces.db` and the audit directory. -/
structure DataDir where
  workspaces : Table
  audit : Disk

/-- What the command takes from around it: the master key, why the database does not
    open if it does not, whether SQLite accepts the statement, a random key, the time. -/
structure ShredEnv where
  masterKey : Except String Kek
  refused : Option String
  accepted : Bool
  rand : RandomKey
  ts : DateTime
  clk : RotateClock

def shredStatement (slug : String) : String :=
  "the encryption key (DEK) for workspace '" ++ slug ++ "' has been permanently destroyed. " ++
    "all data encrypted under this key is now cryptographically unreadable. " ++
    "this action cannot be reversed."

/-- What is appended to the log. -/
def shredInput (slug : String) (ts : DateTime) : AppendInput where
  actor := "cli"
  event := .workspaceShredded slug "cli" (shredStatement slug)
  ts := ts

/-- `shred`, with the handle it appended through.  The key is gone when the log does not
    open. -/
def shred (env : ShredEnv) (s : DataDir) (slug : String) (yes : Bool) :
    Except String (Option LogInner) × DataDir :=
  if !yes then (.ok none, s)
  else
    match env.masterKey with
    | .error e => (.error e, s)
    | .ok masterKey =>
        match env.refused with
        | some e => (.error e, s)
        | none =>
            match WorkspaceDb.destroyDek env.accepted ⟨s.workspaces, some masterKey⟩ slug with
            | .error e => (.error e, s)
            | .ok (false, db) =>
                (.error s!"workspace '{slug}' not found", { s with workspaces := db.conn })
            | .ok (true, db) =>
                match openLog X s.audit env.rand with
                | none => (.error "opening audit log", { s with workspaces := db.conn })
                | some (disk, log) =>
                    let (disk, log) := append X disk log (shredInput slug env.ts) env.clk
                    (.ok (some log), { workspaces := db.conn, audit := disk })

/-- `AuditEvent::WorkspaceShredded { slug: s, .. } if s == slug`. -/
def isShredOf (slug : String) (e : AuditEntry) : Bool :=
  match e.event with
  | .workspaceShredded s _ _ => s == slug
  | _ => false

def certificate (slug : String) (e : AuditEntry) (actor statement : String) : String :=
  "DELETION CERTIFICATE\n" ++
  "====================\n\n" ++
  "workspace : " ++ slug ++ "\n" ++
  "timestamp : " ++ X.toRfc3339 e.ts ++ "\n" ++
  "audit seq : " ++ toString e.seq ++ "\n" ++
  "actor     : " ++ actor ++ "\n" ++
  "hmac      : " ++ e.hmac ++ "\n\n" ++
  "statement :\n  " ++ statement ++ "\n\n" ++
  "This certificate is derived from an HMAC-chained audit log entry.\n" ++
  "verify integrity with: maranode audit verify\n"

/-- `export_deletion_cert`: the entry it finds and the text it writes. -/
def exportDeletionCert (d : Disk) (slug : String) : Except String (AuditEntry × String) :=
  match d.log with
  | none => .error "no audit log found"
  | some _ =>
      match d.readLog with
      | none => .error "stream did not contain valid UTF-8"
      | some content =>
          match (entriesIn X content).find? (isShredOf slug) with
          | none => .error (s!"no deletion certificate found for workspace '{slug}'. " ++
              s!"run `maranode workspace shred {slug} --yes` first.")
          | some e =>
              match e.event with
              | .workspaceShredded _ actor statement =>
                  .ok (e, certificate X slug e actor statement)
              | _ => .error "unreachable"

/-- A certificate with the slug and the actor comes out, and the log verifies. -/
def Certified (d : Disk) (slug actor : String) : Prop :=
  (∃ e statement, e.event = .workspaceShredded slug actor statement ∧
    exportDeletionCert X d slug = .ok (e, certificate X slug e actor statement)) ∧
  ∃ key r, loadKey d = some key ∧ verifyAll X d key = some r ∧ r.ok = true

/-! ## Lines that read back -/

section Readers

variable {α β : Type}

theorem forall_mem_map {P : β → Prop} {f : α → β} {a : Option α} (h : ∀ x ∈ a, P (f x)) :
    ∀ y ∈ f <$> a, P y := by
  intro y hy
  obtain ⟨x, hx, rfl⟩ := Option.map_eq_some_iff.mp hy
  exact h x hx

theorem forall_mem_seq {P : β → Prop} {f : Option (α → β)} {a : Option α}
    (h : ∀ g ∈ f, ∀ x ∈ a, P (g x)) : ∀ y ∈ f <*> a, P y := by
  intro y hy
  obtain ⟨g, hg, hy⟩ := Option.bind_eq_some_iff.mp hy
  obtain ⟨x, hx, rfl⟩ := Option.map_eq_some_iff.mp hy
  exact h g hg x hx

end Readers

/-- A reader returns what it is the reader of. -/
theorem kind_of_ofMembers (fs : List (String × Json.Value)) (k : EventKind) :
    ∀ e ∈ AuditEvent.ofMembers X fs k, e.kind = k := by
  cases k
  all_goals
    rw [AuditEvent.ofMembers]
    repeat apply forall_mem_seq
    apply forall_mem_map
    intros
    rfl

/-- The event of an entry is read from the members the entry does not keep. -/
theorem event_of_ofValue (fs : List (String × Json.Value)) :
    ∀ e ∈ AuditEntry.ofValue X (.obj fs),
      e.event ∈ AuditEvent.ofTagged X (fs.filter (·.1 ∉ AuditEntry.envelope)) := by
  rw [AuditEntry.ofValue]
  repeat apply forall_mem_seq
  apply forall_mem_map
  intro ts _ seq _ actor _ event hevent prevHmac _ hmac _
  exact hevent

theorem ofMembers_shredded_eq_none {fs : List (String × Json.Value)}
    (h : X.str.field "actor" fs = none) :
    AuditEvent.ofMembers X fs .workspaceShredded = none := by
  rw [AuditEvent.ofMembers, h]
  cases X.str.field "slug" fs with
  | none => rfl
  | some slug => rfl

/-- No line reads as a `workspace_shredded` entry: its reader needs a member `actor`, and
    the entry keeps that name for itself. -/
theorem kind_of_fromStr {l : Text} {e : AuditEntry} (h : AuditEntry.fromStr X l = some e) :
    e.event.kind ≠ .workspaceShredded := by
  obtain ⟨v, -, hv⟩ := Option.bind_eq_some_iff.mp h
  cases v with
  | obj fs =>
      have hevent := event_of_ofValue X fs e hv
      have hactor : X.str.field "actor" (fs.filter (·.1 ∉ AuditEntry.envelope)) = none := by
        have hocc : Json.occ "actor" (fs.filter (·.1 ∉ AuditEntry.envelope)) = [] := by
          rw [AuditEntry.occ_filter_notMem, if_pos (by decide)]
        rw [Json.Codec.field, hocc]
        rfl
      rw [Option.mem_def, AuditEvent.ofTagged] at hevent
      split at hevent
      · obtain ⟨k, -, hk⟩ := Option.bind_eq_some_iff.mp hevent
        intro hkind
        rw [kind_of_ofMembers X _ k _ hk] at hkind
        rw [hkind, ofMembers_shredded_eq_none X hactor] at hk
        cases hk
      · cases hevent
  | _ => cases hv

/-! ## No certificate -/

/-- The certificate is looked for among the entries that read back, and is not there. -/
theorem exportDeletionCert_ne_ok (d : Disk) (slug : String) (r : AuditEntry × String) :
    exportDeletionCert X d slug ≠ .ok r := by
  intro h
  rw [exportDeletionCert] at h
  split at h
  · cases h
  · split at h
    · cases h
    · split at h
      · cases h
      · next content _ e hfind =>
          obtain ⟨l, -, hl⟩ := List.mem_filterMap.mp (List.mem_of_find?_eq_some hfind)
          have hkind := kind_of_fromStr X hl
          split at h
          · next s actor statement hevent =>
              rw [hevent] at hkind
              exact hkind rfl
          · cases h

theorem not_certified (d : Disk) (slug actor : String) : ¬ Certified X d slug actor := by
  rintro ⟨⟨e, statement, -, hcert⟩, -⟩
  exact exportDeletionCert_ne_ok X d slug _ hcert

/-! ## The log after the command -/

/-- The last line has its line break. -/
def WholeLines (content : Text) : Prop := content = [] ∨ ∃ cs, content = cs ++ ['\n']

theorem linesFrom_append_whole (cs acc rest : Text) :
    Text.linesFrom acc (cs ++ '\n' :: rest)
      = Text.linesFrom acc (cs ++ ['\n']) ++ Text.linesFrom [] rest := by
  induction cs generalizing acc with
  | nil =>
      rw [List.nil_append, List.nil_append, Text.linesFrom, if_pos rfl, Text.linesFrom, if_pos rfl]
      rfl
  | cons c cs ih =>
      rw [List.cons_append, List.cons_append, Text.linesFrom, Text.linesFrom]
      split
      · rw [ih, List.cons_append]
      · exact ih (acc ++ [c])

theorem lines_append_of_wholeLines {content : Text} (h : WholeLines content) (rest : Text) :
    Text.lines (content ++ rest) = Text.lines content ++ Text.lines rest := by
  rcases h with rfl | ⟨cs, rfl⟩
  · rfl
  · rw [List.append_assoc, List.singleton_append]
    exact linesFrom_append_whole cs [] rest

/-- `walk` does not get past a line that does not parse. -/
theorem walk_ne_none {content line : Text} (hline : line ∈ Text.lines content)
    (hblank : Text.isBlank line = false) (hparse : AuditEntry.fromStr X line = none) (key : Bytes)
    (cur : Cursor) : (walk X content key cur).2 ≠ none := by
  intro hnone
  obtain ⟨es, hreads, -⟩ := (walk_eq_none X).mp hnone
  have hkeep : line ∈ (Text.lines content).filter fun l => !Text.isBlank l :=
    List.mem_filter.mpr ⟨hline, by rw [hblank]; rfl⟩
  have hmem : AuditEntry.fromStr X line ∈ es.map some := by
    rw [← hreads]
    exact List.mem_map_of_mem hkeep
  rw [hparse] at hmem
  obtain ⟨e, -, he⟩ := List.mem_map.mp hmem
  cases he

/-- Nor does `verify_all`, when the line is in the active log. -/
theorem verifyAll_not_ok {d : Disk} {i : Nat} {content line : Text} (hlog : d.log = some i)
    (hread : d.readLog = some content) (hline : line ∈ Text.lines content)
    (hblank : Text.isBlank line = false) (hparse : AuditEntry.fromStr X line = none)
    {key : Bytes} {r : VerifyResult} (h : verifyAll X d key = some r) : r.ok = false := by
  have hwalk := walk_ne_none X hline hblank hparse key
  have hnotOk : ∀ cur, (VerifyResult.of (walk X content key cur)).ok = false := by
    intro cur
    show (walk X content key cur).2.isNone = false
    rw [Option.isNone_eq_false_iff, Option.isSome_iff_ne_none]
    exact hwalk cur
  rw [verifyAll] at h
  split at h
  · rw [verifyLog, hlog] at h
    dsimp only at h
    rw [hread] at h
    obtain rfl := Option.some.inj h
    exact hnotOk _
  · obtain ⟨⟨cur, v⟩, -, hrest⟩ := Option.bind_eq_some_iff.mp h
    cases v with
    | some v =>
        obtain rfl := Option.some.inj hrest
        rfl
    | none =>
        dsimp only at hrest
        rw [hlog] at hrest
        dsimp only at hrest
        rw [hread] at hrest
        obtain rfl := Option.some.inj hrest
        exact hnotOk cur

/-- What opening the log leaves: the same content, at the inode of the handle. -/
theorem openLog_spec {d d' : Disk} {rand : RandomKey} {log : LogInner}
    (h : openLog X d rand = some (d', log)) :
    d'.log = some log.file ∧ log.rotate = rotateOff ∧
      ∃ content, d'.data log.file = Text.encode content ∧
        (d.readLog = some content ∨ d.log = none ∧ content = []) := by
  obtain ⟨⟨key, d₁⟩, hkey, hopen⟩ := Option.bind_eq_some_iff.mp h
  have hsame : d₁.log = d.log ∧ d₁.data = d.data := by
    -- The key is read or made; the log's own file is not touched by that.
    rw [loadOrGenerate] at hkey
    split at hkey
    · obtain ⟨k, -, heq⟩ := Option.map_eq_some_iff.mp hkey
      obtain ⟨-, rfl⟩ := Prod.mk.inj heq
      exact ⟨rfl, rfl⟩
    · obtain ⟨-, rfl⟩ := Prod.mk.inj (Option.some.inj hkey)
      exact ⟨rfl, rfl⟩
  obtain ⟨⟨seq, lastHmac⟩, htail, heq⟩ := Option.map_eq_some_iff.mp hopen
  obtain ⟨rfl, rfl⟩ := Prod.mk.inj heq
  cases hlog : d₁.log with
  | some i =>
      -- The log is there: opening it scans the text that the file holds.
      refine ⟨hlog, rfl, ?_⟩
      rw [scanTail, hlog] at htail
      obtain ⟨content, hcontent, -⟩ := Option.map_eq_some_iff.mp htail
      refine ⟨content, ?_, .inl ?_⟩
      · have hdecode : Text.decode (d₁.data i) = some content := by
          rw [Disk.readLog, hlog] at hcontent
          exact hcontent
        exact (Text.encode_eq_of_decode hdecode).symm
      · rw [Disk.readLog, ← hsame.1, ← hsame.2]
        exact hcontent
  | none =>
      -- No log yet: an empty file is created.
      refine ⟨rfl, rfl, [], ?_, .inr ⟨hsame.1.symm.trans hlog, rfl⟩⟩
      exact Function.update_self ..

variable {X} {env : ShredEnv} {s s' : DataDir} {slug : String} {log : LogInner}

/-- A shred that returned `Ok` destroyed a key, opened the log and appended to it. -/
theorem shred_eq_ok (h : shred X env s slug true = (.ok (some log), s')) :
    ∃ disk log', openLog X s.audit env.rand = some (disk, log') ∧
      s'.audit = (append X disk log' (shredInput slug env.ts) env.clk).1 := by
  rw [shred, if_neg (by decide)] at h
  cases hkek : env.masterKey with
  | error e =>
      rw [hkek] at h
      cases h
  | ok masterKey =>
      rw [hkek] at h
      dsimp only at h
      split at h
      · cases h
      · split at h
        · cases h
        · cases h
        · split at h
          · cases h
          · next disk log' hopen =>
              obtain ⟨-, rfl⟩ := Prod.mk.inj h
              exact ⟨disk, log', hopen, rfl⟩

/-- The line of the entry ends the log. -/
theorem readLog_of_shred (h : shred X env s slug true = (.ok (some log), s')) :
    ∃ (i : Nat) (content : Text) (e : AuditEntry), s'.audit.log = some i ∧
      s'.audit.readLog = some (content ++ (e.toText X ++ ['\n'])) ∧
      e.event.kind = .workspaceShredded ∧
      (s.audit.readLog = some content ∨ s.audit.log = none ∧ content = []) := by
  obtain ⟨disk, log', hopen, heq⟩ := shred_eq_ok h
  obtain ⟨hlog, hoff, content, hdata, hbefore⟩ := openLog_spec X hopen
  have hmax : ¬ 0 < log'.rotate.maxBytes := by
    rw [hoff]
    exact Nat.not_lt_zero 0
  rw [append_of_maxBytes_eq_zero X _ env.clk hmax] at heq
  refine ⟨log'.file, content, nextEntry X log' (shredInput slug env.ts), ?_, ?_, rfl, hbefore⟩
  · rw [heq]
    exact hlog
  · have hdata' : s'.audit.data log'.file = Text.encode (content ++
        ((nextEntry X log' (shredInput slug env.ts)).toText X ++ ['\n'])) := by
      rw [heq, Text.encode_append, ← hdata]
      exact Function.update_self ..
    have hlog' : s'.audit.log = some log'.file := by
      rw [heq]
      exact hlog
    rw [Disk.readLog, hlog', Option.bind_some, hdata', Text.decode_encode]

/-- **A shred is never certified.**  After a shred that returned `Ok` no certificate can be
    exported, whatever else is appended and however often the log rotates; and a log of
    whole lines does not verify any more. -/
theorem shred_uncertified (X : External) (env : ShredEnv) (s s' : DataDir) (slug : String)
    (log : LogInner) (h : shred X env s slug true = (.ok (some log), s')) :
    (∀ ops t, Sys.run X ⟨s'.audit, log, []⟩ ops = some t → ¬ Certified X t.disk slug "cli") ∧
      ((∀ content, s.audit.readLog = some content → WholeLines content) →
        ∀ key r, verifyAll X s'.audit key = some r → r.ok = false) := by
  constructor
  · intro ops t _
    exact not_certified X t.disk slug "cli"
  · intro hwhole key r hverify
    obtain ⟨i, content, e, hlog, hread, hkind, hbefore⟩ := readLog_of_shred h
    have hlines : WholeLines content := by
      rcases hbefore with hcontent | ⟨-, hnil⟩
      · exact hwhole content hcontent
      · exact .inl hnil
    have hmem : e.toText X ∈ Text.lines (content ++ (e.toText X ++ ['\n'])) := by
      rw [lines_append_of_wholeLines hlines, Text.lines_cons_line (isLine_toText X e) []]
      exact List.mem_append_right _ List.mem_cons_self
    have hparse : AuditEntry.fromStr X (e.toText X) = none := by
      have hunreadable : e.readable = false := by
        unfold AuditEntry.readable
        rw [hkind]
        rfl
      rw [AuditEntry.fromStr_toText, hunreadable]
      rfl
    exact verifyAll_not_ok X hlog hread hmem (isBlank_toText X e) hparse hverify

/-! ## A fresh data directory -/

/-- A workspace with a key, and no log yet. -/
def clinicDir : DataDir where
  workspaces := (clinicDb []).conn
  audit := .empty

def clinicEnv : ShredEnv where
  masterKey := .ok (filled 32 0)
  refused := none
  accepted := true
  rand := zeroKey
  ts := newYear
  clk := newYearClock

/-- The clinic is shredded. -/
theorem shred_clinic : ∃ log s',
    shred External.sample clinicEnv clinicDir "clinic" true = (.ok (some log), s') := ⟨_, _, rfl⟩

/-- There is no certificate of it, and its log does not verify. -/
theorem shred_clinic_uncertified : ∃ log s',
    shred External.sample clinicEnv clinicDir "clinic" true = (.ok (some log), s') ∧
      (∀ ops t, Sys.run External.sample ⟨s'.audit, log, []⟩ ops = some t →
        ¬ Certified External.sample t.disk "clinic" "cli") ∧
      ∀ key r, verifyAll External.sample s'.audit key = some r → r.ok = false := by
  obtain ⟨log, s', h⟩ := shred_clinic
  have hempty : ∀ content, clinicDir.audit.readLog = some content → WholeLines content := nofun
  obtain ⟨hcert, hverify⟩ := shred_uncertified External.sample clinicEnv clinicDir s' "clinic" log h
  exact ⟨log, s', h, hcert, hverify hempty⟩

/-- So the command returned `Ok` and there is no deletion entry to export. -/
theorem not_certified_clinic : ∃ log s',
    shred External.sample clinicEnv clinicDir "clinic" true = (.ok (some log), s') ∧
      ¬ Certified External.sample s'.audit "clinic" "cli" := by
  obtain ⟨log, s', h⟩ := shred_clinic
  exact ⟨log, s', h, not_certified External.sample s'.audit "clinic" "cli"⟩

end Maranode.Cli
