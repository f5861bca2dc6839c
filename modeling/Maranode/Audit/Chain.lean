/-
  Maranode.Audit.Chain

  `chain.rs`, and the body the MAC is computed over.

  The MAC does not cover the bytes on disk but a JSON body that `append` builds
  from the entry's fields and `walk` rebuilds from the parsed entry.  The body
  determines those fields (`bodyStr_injective`): it is a sorted map in which the
  event is one member, so nothing collides there.
-/
import Maranode.Common.Events
import Maranode.Lib.HashChain

namespace Maranode.Audit

open Lib Lib.Json Common

variable (X : External)

/-- `chain::compute`. -/
def compute (key data : Bytes) : String := X.hmacSha256 key data

/-- `chain::verify`: a constant-time comparison is a comparison. -/
def verify (key data : Bytes) (expectedHex : String) : Bool :=
  decide (compute X key data = expectedHex)

/-- `chain::GENESIS_HMAC`. -/
def genesisHmac : String := "0000000000000000000000000000000000000000000000000000000000000000"

/-- The members of the MAC body, before `json!` sorts them. -/
def bodyMembers (ts : DateTime) (seq : Nat) (actor prevHmac : String) (event : AuditEvent) :
    List (String × Value) :=
  [("ts", X.dateTime.enc X.value ts),
    ("seq", .num (NumLit.ofNat seq)),
    ("actor", X.str.enc X.value actor),
    ("prev_hmac", X.str.enc X.value prevHmac),
    ("event", .obj (X.value.members (event.tagged X X.value)))]

/-- `serde_json::to_string(&body)`, as bytes. -/
def bodyStr (ts : DateTime) (seq : Nat) (actor prevHmac : String) (event : AuditEvent) : Bytes :=
  Text.encode (render (.obj (X.value.members (bodyMembers X ts seq actor prevHmac event))))

/-- The body `walk` rebuilds from a parsed entry. -/
def entryBody (e : AuditEntry) : Bytes := bodyStr X e.ts e.seq e.actor e.prevHmac e.event

/-! ## The body determines the entry -/

theorem nodup_tagged (S : Serializer X.readF32) (e : AuditEvent) :
    ((e.tagged X S).map Prod.fst).Nodup := by
  have hsub := e.members_fst_sublist X S
  have hfields : ∀ k : EventKind, k.fields.Nodup := by intro k; cases k <;> decide
  rw [AuditEvent.tagged, List.map_cons, List.nodup_cons]
  exact ⟨fun hmem => EventKind.event_notMem_fields _ (hsub.subset hmem),
    List.Nodup.sublist hsub (hfields _)⟩

/-- An event that was turned into a value reads back. -/
theorem ofTagged_members (S : Serializer X.readF32) (e : AuditEvent) :
    AuditEvent.ofTagged X (S.members (e.tagged X S)) = some e := by
  have hocc := fun name => S.occ_members (e.tagged X S) name (nodup_tagged X S e)
  apply AuditEvent.ofTagged_of_occ X S
  · have hfields : "event" ∉ (e.members X S).map Prod.fst := fun hmem =>
      EventKind.event_notMem_fields _ ((e.members_fst_sublist X S).subset hmem)
    rw [hocc]
    simp [AuditEvent.tagged, occ_eq_nil hfields]
  · intro name hname
    have hne : "event" ≠ name := fun h => EventKind.event_notMem_fields _ (h ▸ hname)
    rw [hocc]
    simp [AuditEvent.tagged, hne]

theorem nodup_bodyMembers (ts : DateTime) (seq : Nat) (actor prevHmac : String)
    (event : AuditEvent) :
    ((bodyMembers X ts seq actor prevHmac event).map Prod.fst).Nodup := by
  simp [bodyMembers]

/-- **The MAC body is injective.**  Two entries with one body agree on every field
    but the MAC itself. -/
theorem bodyStr_injective {ts ts' : DateTime} {seq seq' : Nat} {actor actor' : String}
    {prevHmac prevHmac' : String} {event event' : AuditEvent}
    (h : bodyStr X ts seq actor prevHmac event = bodyStr X ts' seq' actor' prevHmac' event') :
    ts = ts' ∧ seq = seq' ∧ actor = actor' ∧ prevHmac = prevHmac' ∧ event = event' := by
  have hobj := Value.obj.inj (render_injective (Text.encode_injective h))
  have hocc : ∀ name, occ name (bodyMembers X ts seq actor prevHmac event)
      = occ name (bodyMembers X ts' seq' actor' prevHmac' event') := by
    intro name
    rw [← X.value.occ_members _ name (nodup_bodyMembers X ..), hobj,
      X.value.occ_members _ name (nodup_bodyMembers X ..)]
  have hts := hocc "ts"
  have hseq := hocc "seq"
  have hactor := hocc "actor"
  have hprev := hocc "prev_hmac"
  have hevent := hocc "event"
  simp only [bodyMembers, occ_cons, occ_nil, String.reduceEq, if_true, if_false, List.cons.injEq,
    and_true, Value.num.injEq, Value.obj.injEq] at hts hseq hactor hprev hevent
  refine ⟨X.dateTime.enc_injective _ hts, ?_, X.str.enc_injective _ hactor,
    X.str.enc_injective _ hprev, ?_⟩
  · have hnat := congrArg NumLit.toNat? hseq
    simpa using hnat
  · have hread := ofTagged_members X X.value event
    rw [hevent, ofTagged_members] at hread
    exact (Option.some.inj hread).symm

/-- Entries with one body and one MAC are equal. -/
theorem eq_of_entryBody_eq {e f : AuditEntry} (hbody : entryBody X e = entryBody X f)
    (hmac : e.hmac = f.hmac) : e = f := by
  obtain ⟨hts, hseq, hactor, hprev, hevent⟩ := bodyStr_injective X hbody
  cases e; cases f
  simp_all

/-! ## Genuine entries -/

/-- The entry `append` builds on top of a chain state. -/
def chainEntry (key : Bytes) (seq : Nat) (lastHmac : String) (ts : DateTime) (actor : String)
    (event : AuditEvent) : AuditEntry where
  ts := ts
  seq := seq + 1
  actor := actor
  event := event
  prevHmac := lastHmac
  hmac := compute X key (bodyStr X ts (seq + 1) actor lastHmac event)

/-- The entry carries the MAC of its body. -/
def MacOk (key : Bytes) (e : AuditEntry) : Prop := verify X key (entryBody X e) e.hmac = true

theorem macOk_chainEntry (key : Bytes) (seq : Nat) (lastHmac : String) (ts : DateTime)
    (actor : String) (event : AuditEvent) :
    MacOk X key (chainEntry X key seq lastHmac ts actor event) := by
  simp [MacOk, verify, entryBody, chainEntry]

/-- Numbered from `n`, each entry pointing back to the MAC before it, with its own
    MAC right. -/
abbrev Chained (key : Bytes) (n : Nat) (h : String) (es : List AuditEntry) : Prop :=
  HashChain.Linked AuditEntry.seq AuditEntry.prevHmac AuditEntry.hmac (MacOk X key) n h es

end Maranode.Audit
