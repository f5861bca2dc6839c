/-
  Maranode.Store.KeyFiles

  The key files of the data directory: `key.rs` and `sign.rs` of the audit log, `kek.rs`, and
  the signing keys of `baseline.rs` and `approval.rs`.

  The daemon and the commands that run beside it may make such a key at the same time.  Three
  of the five functions open the file with `create_new`, and all programs then have the same
  key (`createNew_agree`); the other two truncate what is there (`truncated_disagree`).
-/
import Maranode.Lib.KeyFile
import Maranode.Store.Kek
import Maranode.Audit.Log

namespace Maranode.Store

open Lib Lib.Run

variable (E : Ed25519)

/-! ## Keys of 32 bytes -/

/-- The front of a key has not its length. -/
theorem ofBytes_take {n : Nat} (k : ByteArr 32) (hn : n < k.1.length) :
    ByteArr.ofBytes 32 (k.1.take n) = none := by
  rw [ByteArr.ofBytes, dif_neg]
  have hlen := k.2
  rw [List.length_take]
  omega

/-- `mode & 0o077 != 0`. -/
def ownerOnly (mode : Nat) : Bool := mode &&& 0o077 == 0

/-- `key::load_or_generate`. -/
def auditKey : KeyFile (ByteArr 32) where
  createNew := true
  mode := 0o600
  allows := ownerOnly
  syncs := false
  encode k := k.1
  decode := ByteArr.ofBytes 32
  publicKey _ := none
  allows_mode := by decide
  decode_encode := ByteArr.ofBytes_val
  decode_take k _ := ofBytes_take k

/-- `sign::load_or_create`. -/
def bundleSigningKey : KeyFile (ByteArr 32) where
  createNew := true
  mode := 0o600
  allows _ := true
  syncs := true
  encode k := k.1
  decode := ByteArr.ofBytes 32
  publicKey k := some (E.verifyingKey k).1
  allows_mode := rfl
  decode_encode := ByteArr.ofBytes_val
  decode_take k _ := ofBytes_take k

/-- `Baseline::load_or_create_signing_key`. -/
def baselineSigningKey : KeyFile (ByteArr 32) where
  createNew := true
  mode := 0o600
  allows _ := true
  syncs := true
  encode k := k.1
  decode := ByteArr.ofBytes 32
  publicKey k := some (E.verifyingKey k).1
  allows_mode := rfl
  decode_encode := ByteArr.ofBytes_val
  decode_take k _ := ofBytes_take k

/-- `ApprovalToken::load_or_create_signing_key`: `fs::write`. -/
def approvalSigningKey : KeyFile (ByteArr 32) where
  createNew := false
  mode := 0o666
  allows _ := true
  syncs := false
  encode k := k.1
  decode := ByteArr.ofBytes 32
  publicKey k := some (E.verifyingKey k).1
  allows_mode := rfl
  decode_encode := ByteArr.ofBytes_val
  decode_take k _ := ofBytes_take k

/-! ## The master key, in hex -/

theorem utf8EncodeChar_hexDigit {c : Char} {bs : Bytes} (hc : c ∈ Hex.encode bs) :
    ∃ b, String.utf8EncodeChar c = [b] := by
  have hdigit : ∀ n < 16, ∃ b, String.utf8EncodeChar (Nat.digitChar n) = [b] := by
    intro n hn
    interval_cases n <;> exact ⟨_, rfl⟩
  rw [Hex.encode] at hc
  obtain ⟨b, -, hc⟩ := List.mem_flatMap.mp hc
  have hb := b.toNat_lt
  rw [Hex.ofByte] at hc
  rcases List.mem_cons.mp hc with rfl | hlast
  · exact hdigit _ (by omega)
  · rw [List.mem_singleton.mp hlast]
    exact hdigit _ (by omega)

/-- A text whose characters have a byte each is cut anywhere. -/
theorem take_encode {cs : Text} (h : ∀ c ∈ cs, ∃ b, String.utf8EncodeChar c = [b]) (n : Nat) :
    (Text.encode cs).take n = Text.encode (cs.take n) ∧
      (Text.encode cs).length = cs.length := by
  induction cs generalizing n with
  | nil => rw [Text.encode_nil, List.take_nil, List.take_nil]; exact ⟨rfl, rfl⟩
  | cons c cs ih =>
      obtain ⟨⟨b, hb⟩, hcs⟩ := List.forall_mem_cons.mp h
      rw [Text.encode_cons, hb, List.singleton_append, List.length_cons, List.length_cons]
      refine ⟨?_, congrArg (· + 1) (ih hcs 0).2⟩
      cases n with
      | zero => rw [List.take_zero, List.take_zero, Text.encode_nil]
      | succ n =>
          rw [List.take_succ_cons, List.take_succ_cons, Text.encode_cons, hb,
            List.singleton_append, (ih hcs n).1]

/-- `hex::encode(key)`, as bytes. -/
def encodeMaster (k : ByteArr 32) : Bytes := Text.encode (Hex.encode k.1)

/-- `read_to_string`, `hex::decode(hex.trim())` and `try_into`. -/
def decodeMaster (bytes : Bytes) : Option (ByteArr 32) :=
  (Text.decode bytes).bind fun hex =>
    (Hex.decode (Text.trim hex)).bind (ByteArr.ofBytes 32)

theorem decodeMaster_encode (k : ByteArr 32) : decodeMaster (encodeMaster k) = some k := by
  rw [decodeMaster, encodeMaster, Text.decode_encode, Option.bind_some,
    Text.trim_of_forall (Hex.isWhite_of_mem_encode k.1), Hex.decode_encode, Option.bind_some,
    ByteArr.ofBytes_val]

/-- Hex that is cut short is too short, or has half a byte at its end. -/
theorem decodeMaster_take (k : ByteArr 32) (n : Nat) (hn : n < (encodeMaster k).length) :
    decodeMaster ((encodeMaster k).take n) = none := by
  obtain ⟨htake, hlen⟩ := take_encode (fun c hc => @utf8EncodeChar_hexDigit c k.1 hc) n
  have hwhite : ∀ c ∈ (Hex.encode k.1).take n, Text.isWhite c = false := fun c hc =>
    Hex.isWhite_of_mem_encode k.1 c (List.mem_of_mem_take hc)
  rw [encodeMaster] at hn ⊢
  rw [hlen, Hex.length_encode, k.2] at hn
  rw [decodeMaster, htake, Text.decode_encode, Option.bind_some, Text.trim_of_forall hwhite]
  cases hdec : Hex.decode ((Hex.encode k.1).take n) with
  | none => rfl
  | some bs =>
      have hcount := congrArg List.length (Hex.decode_eq_some_iff.mp hdec)
      rw [List.length_map, List.length_take, Hex.length_encode, Hex.length_encode, k.2] at hcount
      rw [Option.bind_some, ByteArr.ofBytes, dif_neg]
      omega

/-- `kek::load_or_create`. -/
def masterKey : KeyFile (ByteArr 32) where
  createNew := false
  mode := 0o600
  allows _ := true
  syncs := false
  encode := encodeMaster
  decode := decodeMaster
  publicKey _ := none
  allows_mode := rfl
  decode_encode := decodeMaster_encode
  decode_take := decodeMaster_take

/-! ## Several programs -/

/-- The keys whose file is opened with `create_new`. -/
def createNewKeys : List (KeyFile (ByteArr 32)) :=
  [auditKey, bundleSigningKey E, baselineSigningKey E]

/-- Those with a public key beside them. -/
def signingKeys : List (KeyFile (ByteArr 32)) := [bundleSigningKey E, baselineSigningKey E]

/-- The keys whose file is truncated. -/
def truncatedKeys : List (KeyFile (ByteArr 32)) := [approvalSigningKey E, masterKey]

variable {E} {P : KeyFile (ByteArr 32)}

theorem createNew_of_mem (h : P ∈ createNewKeys E) : P.createNew = true := by
  simp only [createNewKeys, List.mem_cons, List.not_mem_nil, or_false] at h
  rcases h with rfl | rfl | rfl <;> rfl

theorem mem_createNewKeys (h : P ∈ signingKeys E) : P ∈ createNewKeys E :=
  List.mem_cons_of_mem _ h

theorem publicKey_of_mem (h : P ∈ signingKeys E) (k : ByteArr 32) :
    P.encode k = k.1 ∧ P.publicKey k = some (E.verifyingKey k).1 := by
  simp only [signingKeys, List.mem_cons, List.not_mem_nil, or_false] at h
  rcases h with rfl | rfl <;> exact ⟨rfl, rfl⟩

variable {ι : Type} [DecidableEq ι] {s t : KeyFiles ι (ByteArr 32)} {ops : List (ι × KeyAct)}

theorem along_creates (h : P ∈ createNewKeys E) (s : KeyFiles ι (ByteArr 32))
    (ops : List (ι × KeyAct)) : Along P.step P.Creates s ops :=
  along_of_forall (fun _ _ _ => .inl (createNew_of_mem h)) s

theorem settled_of_createNew (h : P ∈ createNewKeys E) (hinit : KeyFile.Initial s)
    (hrun : run P.step s ops = some t) : P.Settled s.publicKey t :=
  KeyFile.settled_of_run (KeyFile.Settled.initial hinit) (along_creates h s ops) hrun

/-- Two programs in an empty directory. -/
def twoPrograms : KeyFiles Bool (ByteArr 32) where
  key := none
  publicKey := none
  parties b := .start (if b then officerKey else officerPub)

theorem initial_twoPrograms : KeyFile.Initial twoPrograms := fun _ => ⟨_, rfl⟩

/-- **One key.**  However many programs load or make the key at the same time, all that get
    one get the same, and it is the one in the file. -/
theorem createNew_agree (h : P ∈ createNewKeys E) (hinit : KeyFile.Initial s)
    (hrun : run P.step s ops = some t) :
    (∀ i j k k', t.parties i = .ok k → t.parties j = .ok k' → k = k') ∧
      ∀ i k, t.parties i = .ok k → ∃ f, t.key = some f ∧ P.decode f.2 = some k := by
  have hset := settled_of_createNew h hinit hrun
  exact ⟨fun i j k k' hi hj => hset.agree hi hj, fun i k hi => hset.key_of_ok hi⟩

/-- One program makes the key, and the other reads it while half of it is there. -/
def readWhileMade : List (Bool × KeyAct) :=
  [(true, .call 0), (true, .call 0), (false, .call 0), (true, .call 15), (false, .call 0),
    (false, .call 31), (true, .call 15), (false, .call 31), (false, .call 0)]

theorem createNew_agree_twoPrograms :
    ∃ t, run auditKey.step twoPrograms readWhileMade = some t ∧
      (∃ k, t.parties true = .ok k) ∧ (∃ k, t.parties false = .ok k) ∧
      ∀ i j k k', t.parties i = .ok k → t.parties j = .ok k' → k = k' := by
  have hmem : auditKey ∈ createNewKeys (Ed25519.sample []) := List.mem_cons_self
  have hrun : run auditKey.step twoPrograms readWhileMade = some _ := rfl
  refine ⟨_, hrun, ⟨officerKey, rfl⟩, ⟨officerKey, rfl⟩, ?_⟩
  exact (createNew_agree hmem initial_twoPrograms hrun).1

/-- **A file cut short.**  When the program that makes the file is stopped before it wrote the
    whole key, no program ever gets one. -/
theorem createNew_torn (h : P ∈ createNewKeys E) (hinit : KeyFile.Initial s)
    (hrun : run P.step s ops = some t) {f : Nat × Bytes} (hkey : t.key = some f)
    (htorn : P.decode f.2 = none) (hquiet : ∀ i, (t.parties i).makes = false)
    {ops' : List (ι × KeyAct)} {u : KeyFiles ι (ByteArr 32)}
    (hrun' : run P.step t ops' = some u) :
    u.key = some f ∧ ∀ i k, u.parties i ≠ .ok k := by
  have hleft := (KeyFile.left_of_run hkey hquiet (along_creates h t ops') hrun').1
  have hset : P.Settled s.publicKey u :=
    KeyFile.settled_of_run (settled_of_createNew h hinit hrun) (along_creates h t ops') hrun'
  refine ⟨hleft, fun i k hi => ?_⟩
  obtain ⟨f', hf', hdec⟩ := hset.key_of_ok hi
  obtain rfl := Option.some.inj (hleft.symm.trans hf')
  rw [htorn] at hdec
  cases hdec

theorem createNew_torn_twoPrograms :
    ∃ t, run auditKey.step twoPrograms [(true, .call 0), (true, .call 0), (true, .crash)] = some t ∧
      ∀ ops u, run auditKey.step t ops = some u → ∀ i k, u.parties i ≠ .ok k := by
  refine ⟨_, rfl, fun ops u hrun => ?_⟩
  have hmem : auditKey ∈ createNewKeys (Ed25519.sample []) := List.mem_cons_self
  have hrun' : run auditKey.step twoPrograms
      [(true, .call 0), (true, .call 0), (true, .crash)] = some _ := rfl
  refine (createNew_torn (f := (0o600, [])) hmem initial_twoPrograms hrun' rfl rfl (fun b => ?_)
    hrun).2
  cases b <;> rfl

/-- **A pair of keys.**  The public key in its file is that of the signing key, as far as it
    has been written; and it is written whole unless somebody failed. -/
theorem signingKeys_pair (h : P ∈ signingKeys E) (hinit : KeyFile.Initial s)
    (hkey : s.key = none) (hpublic : s.publicKey = none) (hrun : run P.step s ops = some t) :
    (t.publicKey = none ∨ ∃ k mode n, t.key = some (mode, k.1) ∧
        t.publicKey = some ((E.verifyingKey k).1.take n)) ∧
      ((∀ i, (t.parties i).makes = false) → (∀ i, t.parties i ≠ .failed) → t.key ≠ none →
        ∃ k mode, t.key = some (mode, k.1) ∧ t.publicKey = some (E.verifyingKey k).1) := by
  have hnew := mem_createNewKeys h
  have hset := settled_of_createNew hnew hinit hrun
  constructor
  · rcases hset.second with hold | ⟨f, k, n, hf, hk, hsecond⟩
    · exact .inl (hold.trans hpublic)
    · refine .inr ⟨k, f.1, n, ?_, ?_⟩
      · rw [hf, ← (publicKey_of_mem h k).1, ← hk]
      · rw [hsecond, KeyFile.publicBytes, (publicKey_of_mem h k).2, Option.getD_some]
  · intro hquiet hfailed hthere
    have hdone := KeyFile.complete_of_run hinit hkey (along_creates hnew s ops) hrun hquiet hfailed
    obtain ⟨whole, f, k, hf, hwhole, hk, hsecond⟩ := hdone.resolve_left hthere
    refine ⟨k, f.1, ?_, ?_⟩
    · rw [hf, ← (publicKey_of_mem h k).1, hk, ← hwhole]
    · rw [(publicKey_of_mem h k).2] at hsecond
      exact hsecond.resolve_left (Option.some_ne_none _)

theorem signingKeys_pair_twoPrograms :
    ∃ ops t, run (bundleSigningKey (Ed25519.sample [])).step twoPrograms ops = some t ∧
      ∃ k mode, t.key = some (mode, k.1) ∧
        t.publicKey = some ((Ed25519.sample []).verifyingKey k).1 := by
  obtain ⟨ops, m, hrun⟩ := KeyFile.run_absent (P := bundleSigningKey (Ed25519.sample []))
    (s := twoPrograms) (i := true) rfl rfl
  have hmem : bundleSigningKey (Ed25519.sample []) ∈ signingKeys (Ed25519.sample []) :=
    List.mem_cons_self
  refine ⟨ops, _, hrun, (signingKeys_pair hmem initial_twoPrograms rfl rfl hrun).2
    (fun b => ?_) (fun b => ?_) (Option.some_ne_none _)⟩
  · cases b <;> rfl
  · cases b <;> exact fun hno => by cases hno

/-- **A truncated file.**  Programs agree as long as none opens a file that is there.  Two
    that look before either has opened it can end with a key each; the file then has the one,
    and the public key in its file belongs to the other. -/
theorem truncated_disagree (h : P ∈ truncatedKeys E) (hinit : KeyFile.Initial s)
    (hkey : s.key = none) {i j : ι} (hij : i ≠ j) {k k' : ByteArr 32}
    (hi : s.parties i = .start k) (hj : s.parties j = .start k') :
    (∀ ops t, Along P.step P.Creates s ops → run P.step s ops = some t →
      ∀ a b x y, t.parties a = .ok x → t.parties b = .ok y → x = y) ∧
      ∃ ops t mode, run P.step s ops = some t ∧ t.parties i = .ok k ∧ t.parties j = .ok k' ∧
        t.key = some (mode, P.encode k') ∧
        ∀ b, P.publicKey k = some b → t.publicKey = some b := by
  have hnew : P.createNew = false := by
    simp only [truncatedKeys, List.mem_cons, List.not_mem_nil, or_false] at h
    rcases h with rfl | rfl <;> rfl
  constructor
  · intro ops t halong hrun a b x y ha hb
    exact (KeyFile.settled_of_run (KeyFile.Settled.initial hinit) halong hrun).agree ha hb
  · obtain ⟨ops, mode, hrun⟩ := KeyFile.run_truncates hnew hij hkey hi hj
    refine ⟨ops, _, mode, hrun, ?_, ?_, rfl, fun b hb => ?_⟩
    · dsimp only
      rw [Function.update_of_ne hij, Function.update_self]
    · dsimp only
      rw [Function.update_self]
    · dsimp only
      rw [hb, Option.some_or]

theorem truncated_disagree_twoPrograms :
    ∃ ops t mode, run (approvalSigningKey (Ed25519.sample [])).step twoPrograms ops = some t ∧
      t.parties true = .ok officerKey ∧ t.parties false = .ok officerPub ∧
      t.key = some (mode, officerPub.1) ∧
      t.publicKey = some ((Ed25519.sample []).verifyingKey officerKey).1 := by
  have hmem : approvalSigningKey (Ed25519.sample []) ∈ truncatedKeys (Ed25519.sample []) :=
    List.mem_cons_self
  have htrue : twoPrograms.parties true = .start officerKey := rfl
  have hfalse : twoPrograms.parties false = .start officerPub := rfl
  obtain ⟨-, ops, t, mode, hrun, htrue, hfalse, hkey, hpublic⟩ :=
    truncated_disagree hmem initial_twoPrograms rfl Bool.noConfusion htrue hfalse
  exact ⟨ops, t, mode, hrun, htrue, hfalse, hkey, hpublic _ rfl⟩

/-! ## One program -/

open Audit in
/-- The key file of a data directory, and a program that opens the log. -/
def soleKeyFiles (d : Disk) (rand : RandomKey) : KeyFiles Unit (ByteArr 32) where
  key := d.key.map fun bytes => (0o600, bytes)
  publicKey := none
  parties _ := .start rand

open Audit in
/-- The calls of `load_or_generate`, with nobody between them. -/
theorem loadOrGenerate_run (d : Disk) (rand : RandomKey) :
    ∃ ops t, run auditKey.step (soleKeyFiles d rand) ops = some t ∧
      match loadOrGenerate d rand with
      | none => t.parties () = .failed ∧ t.key = (soleKeyFiles d rand).key
      | some (key, d') => (∃ k, t.parties () = .ok k ∧ k.1 = key) ∧
          t.key.map Prod.snd = d'.key := by
  -- A first start creates the file; a later one reads what is there.
  cases hkey : d.key with
  | none =>
      have hnone : (soleKeyFiles d rand).key = none := by rw [soleKeyFiles, hkey]; rfl
      obtain ⟨ops, m, hops⟩ := KeyFile.run_absent (P := auditKey) (i := ()) hnone rfl
      refine ⟨ops, _, hops, ?_⟩
      rw [loadOrGenerate, hkey]
      exact ⟨⟨rand, KeyFile.parties_update .., rfl⟩, rfl⟩
  | some bytes =>
      have hsome : (soleKeyFiles d rand).key = some (0o600, bytes) := by
        rw [soleKeyFiles, hkey]
        rfl
      obtain ⟨ops, hops⟩ := KeyFile.run_found (P := auditKey) (i := ()) hsome
        auditKey.allows_mode rfl
      refine ⟨ops, _, hops, ?_⟩
      rw [loadOrGenerate, hkey]
      dsimp only
      rw [Function.update_self, loadKey, hkey, Option.bind_some, KeyFile.finish]
      -- A key file of another length is refused by both.
      by_cases hlen : bytes.length = keyLen
      · have hdec : auditKey.decode bytes = some ⟨bytes, hlen⟩ := dif_pos hlen
        rw [hdec, if_pos hlen]
        exact ⟨⟨_, rfl, rfl⟩, by rw [hsome, hkey]; rfl⟩
      · have hdec : auditKey.decode bytes = none := dif_neg hlen
        rw [hdec, if_neg hlen]
        exact ⟨rfl, rfl⟩

end Maranode.Store
