/-
  Maranode.Audit.Log

  `key.rs` and `log.rs`: the append handle.

  A handle keeps the inode it was opened on, the number and MAC of the last entry
  and the key.  An operation that can fail is an `Option`, where `none` is `Err`;
  the one error that is dropped, `append`'s of its inline rotation, comes from
  reading the log and leaves the directory alone.
-/
import Maranode.Audit.Rotate

namespace Maranode.Audit

open Lib Common

variable (X : External)

/-! ## The key file -/

def keyLen : Nat := 32

/-- What the random generator fills a new key with. -/
abbrev RandomKey := { k : Bytes // k.length = keyLen }

/-- `key::load`. -/
def loadKey (d : Disk) : Option Bytes :=
  d.key.bind fun bytes => if bytes.length = keyLen then some bytes else none

/-- `key::load_or_generate`. -/
def loadOrGenerate (d : Disk) (rand : RandomKey) : Option (Bytes × Disk) :=
  match d.key with
  | some _ => (loadKey d).map fun key => (key, d)
  | none => some (rand.1, { d with key := some rand.1 })

/-! ## AuditLog -/

structure LogInner where
  file : Nat
  seq : Nat
  lastHmac : String
  key : Bytes
  rotate : RotateConfig

def rotateOff : RotateConfig where
  maxBytes := 0
  maxAgeDays := 0

/-- `scan_tail`. -/
def scanTail (d : Disk) : Option (Nat × String) :=
  let content :=
    match d.log with
    | some _ => d.readLog
    | none => some []
  content.map fun content =>
    let tail := (entriesIn X content).foldl (fun _ e => (e.seq, e.hmac)) (0, genesisHmac)
    if tail.1 = 0 then (recoverTail d).getD tail else tail

/-- `AuditLog::open`. -/
def openLog (d : Disk) (rand : RandomKey) : Option (Disk × LogInner) :=
  (loadOrGenerate d rand).bind fun (key, d) =>
    (scanTail X d).map fun (seq, lastHmac) =>
      let (d, file) := d.openAppend
      (d, { file, seq, lastHmac, key, rotate := rotateOff })

/-- What `rotate_locked` decides before it touches anything: the content to seal and
    its summary when a trigger fires. -/
def rotateDue (d : Disk) (inner : LogInner) (cfg : RotateConfig) (now : DateTime) :
    Option (Option (Text × Summary)) :=
  let len := (d.data inner.file).length
  let hit := decide (0 < cfg.maxBytes) && decide (cfg.maxBytes ≤ len)
  if !cfg.enabled then some none
  else if len = 0 then some none
  else if !hit && cfg.maxAgeDays = 0 then some none
  else
    d.readLog.map fun content =>
      let old := decide (0 < cfg.maxAgeDays) &&
        (oldestTs X content).any fun ts => ts < now - days cfg.maxAgeDays
      if hit || old then (summarize X content).map fun sum => (content, sum) else none

/-- `rotate_locked`. -/
def rotateLocked (d : Disk) (inner : LogInner) (cfg : RotateConfig) (clk : RotateClock) :
    Option (Option Segment × Disk × LogInner) :=
  (rotateDue X d inner cfg clk.age).map fun
    | none => (none, d, inner)
    | some (content, sum) =>
        let (seg, d) := sealSegment X d (Text.encode content) sum clk
        let (d, file) := d.truncateLog.openAppend
        (some seg, d, { inner with file })

/-- `maybe_rotate`. -/
def maybeRotate (d : Disk) (inner : LogInner) (cfg : RotateConfig) (clk : RotateClock) :
    Option (Option Segment × Disk × LogInner) :=
  if !cfg.enabled then some (none, d, inner) else rotateLocked X d inner cfg clk

/-- `serde_json::to_string(&entry)? + "\n"`, as bytes. -/
def lineBytes (e : AuditEntry) : Bytes := Text.encode (e.toText X ++ ['\n'])

/-- The arguments of an append, with the time it is stamped with. -/
structure AppendInput where
  actor : String
  event : AuditEvent
  ts : DateTime

/-- The entry the next `append` builds. -/
def nextEntry (inner : LogInner) (a : AppendInput) : AuditEntry :=
  chainEntry X inner.key inner.seq inner.lastHmac a.ts a.actor a.event

/-- `append`, up to the point where the chain state is advanced. -/
def appendEntry (d : Disk) (inner : LogInner) (a : AppendInput) : Disk × LogInner :=
  let e := nextEntry X inner a
  (d.write inner.file (lineBytes X e), { inner with seq := e.seq, lastHmac := e.hmac })

/-- `append`: size rotation runs inline, and its error is dropped. -/
def append (d : Disk) (inner : LogInner) (a : AppendInput) (clk : RotateClock) :
    Disk × LogInner :=
  let (d, inner) := appendEntry X d inner a
  if 0 < inner.rotate.maxBytes then
    match rotateLocked X d inner { maxBytes := inner.rotate.maxBytes, maxAgeDays := 0 } clk with
    | some (_, d, inner) => (d, inner)
    | none => (d, inner)
  else (d, inner)

theorem append_of_maxBytes_eq_zero {d : Disk} {inner : LogInner} (a : AppendInput)
    (clk : RotateClock) (hmax : ¬ 0 < inner.rotate.maxBytes) :
    append X d inner a clk = appendEntry X d inner a := by
  unfold append appendEntry
  dsimp only
  rw [if_neg hmax]

theorem append_of_rotateLocked {d : Disk} {inner : LogInner} {a : AppendInput}
    {clk : RotateClock} {r : Option Segment} {d' : Disk} {inner' : LogInner}
    (hmax : 0 < inner.rotate.maxBytes)
    (hrot : rotateLocked X (appendEntry X d inner a).1 (appendEntry X d inner a).2
      { maxBytes := inner.rotate.maxBytes, maxAgeDays := 0 } clk = some (r, d', inner')) :
    append X d inner a clk = (d', inner') := by
  unfold append
  unfold appendEntry at hrot ⊢
  dsimp only at hrot ⊢
  rw [if_pos hmax, hrot]

/-- `append` when `write_all` or `sync_all` fails, or the process dies there: `cut`
    bytes of the line reach the file, and the chain state is not advanced. -/
def appendTorn (d : Disk) (inner : LogInner) (a : AppendInput) (cut : Nat) : Disk :=
  d.write inner.file ((lineBytes X (nextEntry X inner a)).take cut)

/-- `set_rotation`. -/
def setRotation (inner : LogInner) (cfg : RotateConfig) : LogInner := { inner with rotate := cfg }

/-- `read_recent`. -/
def readRecent (d : Disk) (limit : Nat) : Option (List AuditEntry) :=
  match d.log with
  | none => some []
  | some _ =>
      d.readLog.map fun content =>
        let entries := entriesIn X content
        entries.drop (entries.length - limit)

/-! ## The temporary file and the key are nobody's but a pruning pass's and open's -/

theorem Disk.truncateLog_frame (d : Disk) :
    d.truncateLog.tmp = d.tmp ∧ d.truncateLog.key = d.key := by
  unfold Disk.truncateLog
  split <;> exact ⟨rfl, rfl⟩

theorem Disk.openAppend_frame (d : Disk) :
    d.openAppend.1.tmp = d.tmp ∧ d.openAppend.1.key = d.key := by
  unfold Disk.openAppend
  split <;> exact ⟨rfl, rfl⟩

theorem rotateLocked_frame {d d' : Disk} {inner inner' : LogInner} {cfg : RotateConfig}
    {clk : RotateClock} {r : Option Segment}
    (h : rotateLocked X d inner cfg clk = some (r, d', inner')) :
    d'.tmp = d.tmp ∧ d'.key = d.key := by
  obtain ⟨due, -, hdue⟩ := Option.map_eq_some_iff.mp h
  rcases due with - | ⟨content, sum⟩
  · obtain ⟨-, rfl, -⟩ : r = none ∧ d' = d ∧ inner' = inner := by simpa [eq_comm] using hdue
    exact ⟨rfl, rfl⟩
  · have hd' : (sealSegment X d (Text.encode content) sum clk).2.truncateLog.openAppend.1 = d' :=
      congrArg (fun p => p.2.1) hdue
    have hopen := (sealSegment X d (Text.encode content) sum clk).2.truncateLog.openAppend_frame
    have htrunc := (sealSegment X d (Text.encode content) sum clk).2.truncateLog_frame
    rw [← hd']
    exact ⟨hopen.1.trans htrunc.1, hopen.2.trans htrunc.2⟩

theorem maybeRotate_frame {d d' : Disk} {inner inner' : LogInner} {cfg : RotateConfig}
    {clk : RotateClock} {r : Option Segment}
    (h : maybeRotate X d inner cfg clk = some (r, d', inner')) :
    d'.tmp = d.tmp ∧ d'.key = d.key := by
  rw [maybeRotate] at h
  split_ifs at h
  · obtain ⟨-, rfl, -⟩ : r = none ∧ d' = d ∧ inner' = inner := by simpa [eq_comm] using h
    exact ⟨rfl, rfl⟩
  · exact rotateLocked_frame X h

/-- After the line is written an append is over, or rotates. -/
theorem append_cases (d : Disk) (inner : LogInner) (a : AppendInput) (clk : RotateClock) :
    append X d inner a clk = appendEntry X d inner a ∨
      ∃ cfg r, rotateLocked X (appendEntry X d inner a).1 (appendEntry X d inner a).2 cfg clk
        = some (r, append X d inner a clk) := by
  by_cases hmax : 0 < inner.rotate.maxBytes
  · cases hrot : rotateLocked X (appendEntry X d inner a).1 (appendEntry X d inner a).2
        { maxBytes := inner.rotate.maxBytes, maxAgeDays := 0 } clk with
    | none =>
        left
        unfold append
        unfold appendEntry at hrot ⊢
        dsimp only at hrot ⊢
        rw [if_pos hmax, hrot]
    | some rotated =>
        obtain ⟨r, d', inner'⟩ := rotated
        exact .inr ⟨_, r, by rw [append_of_rotateLocked X hmax hrot, hrot]⟩
  · exact .inl (append_of_maxBytes_eq_zero X a clk hmax)

theorem append_frame (d : Disk) (inner : LogInner) (a : AppendInput) (clk : RotateClock) :
    (append X d inner a clk).1.tmp = d.tmp ∧ (append X d inner a clk).1.key = d.key := by
  rcases append_cases X d inner a clk with hplain | ⟨cfg, r, hrot⟩
  · rw [hplain]
    exact ⟨rfl, rfl⟩
  · have hframe := rotateLocked_frame X hrot
    exact hframe

theorem openLog_tmp {d d' : Disk} {rand : RandomKey} {inner : LogInner}
    (h : openLog X d rand = some (d', inner)) : d'.tmp = d.tmp := by
  obtain ⟨⟨key, d₁⟩, hkey, hopen⟩ := Option.bind_eq_some_iff.mp h
  have hd₁ : d₁.tmp = d.tmp := by
    unfold loadOrGenerate at hkey
    split at hkey
    · obtain ⟨k, -, heq⟩ := Option.map_eq_some_iff.mp hkey
      rw [← (Prod.mk.inj heq).2]
    · rw [← (Prod.mk.inj (Option.some.inj hkey)).2]
  obtain ⟨⟨q, tag⟩, -, heq⟩ := Option.map_eq_some_iff.mp hopen
  have hd' : d₁.openAppend.1 = d' := congrArg Prod.fst heq
  rw [← hd', d₁.openAppend_frame.1, hd₁]

end Maranode.Audit
