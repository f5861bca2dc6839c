/-
  Maranode.Audit.EventValues

  What the exporters find in the value of an event.

  The names in it are the variant's own and the tag is the variant's, so `event` is
  always there.  No character below the blank gets into a detail: the names have none
  and `serde_json` escapes those of a string.
-/
import Maranode.Audit.Export
import Maranode.Common.Rfc3339

namespace Maranode

open Lib Lib.Json Common

/-! ## The texts of times and numbers -/

/-- A digit, a sign, or a separator of RFC 3339. -/
def isTimeChar (c : Char) : Bool :=
  c.isDigit || c == '-' || c == '+' || c == ':' || c == '.' || c == 'T' || c == 'Z'

/-- chrono: what `to_rfc3339` writes has the characters of RFC 3339. -/
def External.WritesRfc3339 (X : External) : Prop :=
  ∀ t, ∀ c ∈ (X.toRfc3339 t).toList, isTimeChar c = true

theorem isTimeChar_of_isDigit {c : Char} (h : c.isDigit = true) : isTimeChar c = true := by
  simp [isTimeChar, h]

theorem isTimeChar_of_mem_padded {w n : Nat} {c : Char} (h : c ∈ Digits.padded w n) :
    isTimeChar c = true := isTimeChar_of_isDigit (Digits.isDigit_of_mem_padded h)

theorem isTimeChar_of_mem_yearText {y : Int} {c : Char} (h : c ∈ yearText y) :
    isTimeChar c = true := by
  rw [yearText] at h
  split_ifs at h with hyear
  · rcases List.mem_append.mp h with h | h
    · exact isTimeChar_of_mem_padded h
    · exact isTimeChar_of_mem_padded h
  · rw [signedYear] at h
    rcases List.mem_cons.mp h with rfl | h
    · split_ifs <;> decide
    · rcases List.mem_append.mp h with h | h
      · rw [(List.mem_replicate.mp h).2]
        decide
      · exact isTimeChar_of_isDigit (Nat.isDigit_of_mem_toDigits (by decide) (by decide) h)

theorem isTimeChar_of_mem_fractionText {n : Nat} {c : Char} (h : c ∈ fractionText n) :
    isTimeChar c = true := by
  rw [fractionText] at h
  split_ifs at h
  · exact absurd h List.not_mem_nil
  all_goals
    rcases List.mem_cons.mp h with rfl | h
    · decide
    · exact isTimeChar_of_mem_padded h

theorem notMem_of_isTimeChar {s : Text} (h : ∀ c ∈ s, isTimeChar c = true) {c : Char}
    (hc : isTimeChar c = false) : c ∉ s := by
  intro hmem
  rw [h c hmem] at hc
  cases hc

/-- The texts chrono writes are such. -/
theorem isTimeChar_of_mem_toRfc3339 (t : DateTime) :
    ∀ c ∈ (toRfc3339 t).toList, isTimeChar c = true := by
  intro c hc
  rw [toRfc3339, String.toList_ofList, rfc3339Text, dateText, timeText] at hc
  simp only [List.mem_append, List.mem_cons] at hc
  rcases hc with (hc | (rfl | hc) | rfl | hc) |
    (rfl | hc | (rfl | hc) | rfl | hc) | hc | hc
  · exact isTimeChar_of_mem_yearText hc
  · decide
  · exact isTimeChar_of_mem_padded hc
  · decide
  · exact isTimeChar_of_mem_padded hc
  · decide
  · exact isTimeChar_of_mem_padded hc
  · decide
  · exact isTimeChar_of_mem_padded hc
  · decide
  · exact isTimeChar_of_mem_padded hc
  · exact isTimeChar_of_mem_fractionText hc
  · exact List.all_eq_true.mp (by decide) c hc

theorem writesRfc3339_sample : External.sample.WritesRfc3339 := by
  have hunary : ∀ n, ∀ c ∈ (unary n).toList, isTimeChar c = true := by
    intro n c hc
    cases n with
    | ofNat n =>
        rw [unary, String.toList_ofList] at hc
        rcases List.mem_cons.mp hc with rfl | hc
        · decide
        · rw [(List.mem_replicate.mp hc).2]
          decide
    | negSucc n =>
        rw [unary, String.toList_ofList] at hc
        rcases List.mem_cons.mp hc with rfl | hc
        · decide
        · rw [(List.mem_replicate.mp hc).2]
          decide
  intro t
  change ∀ c ∈ (sampleRfc3339 t).toList, isTimeChar c = true
  rw [sampleRfc3339]
  split_ifs
  · exact List.all_eq_true.mp (by decide)
  · exact List.all_eq_true.mp (by decide)
  · exact hunary t

namespace Audit

theorem isTimeChar_of_mem_natText {n : Nat} {c : Char} (h : c ∈ natText n) :
    isTimeChar c = true :=
  isTimeChar_of_isDigit (Nat.isDigit_of_mem_toDigits (by decide) (by decide) h)

/-! ## Joining -/

theorem mem_intercalate {sep : Text} {ls : List Text} {c : Char}
    (h : c ∈ sep.intercalate ls) : c ∈ sep ∨ ∃ l ∈ ls, c ∈ l := by
  induction ls with
  | nil => exact absurd h List.not_mem_nil
  | cons l ls ih =>
      cases ls with
      | nil =>
          rw [List.intercalate_singleton] at h
          exact Or.inr ⟨l, List.mem_cons_self, h⟩
      | cons m ms =>
          rw [List.intercalate_cons_cons] at h
          rcases List.mem_append.mp h with h | h
          · rcases List.mem_append.mp h with h | h
            · exact Or.inr ⟨l, List.mem_cons_self, h⟩
            · exact Or.inl h
          · rcases ih h with h | ⟨k, hk, hc⟩
            · exact Or.inl h
            · exact Or.inr ⟨k, List.mem_cons_of_mem _ hk, hc⟩

/-! ## Names -/

theorem printable_fields (k : EventKind) :
    ∀ name ∈ "event" :: k.fields, Printable name.toList := by
  cases k <;> decide

theorem printable_tag (k : EventKind) : Printable k.tag.toList := by
  cases k <;> decide

variable (X : External)

theorem tagged_fst_sublist (S : Serializer X.readF32) (e : AuditEvent) :
    ((e.tagged X S).map Prod.fst).Sublist ("event" :: e.kind.fields) :=
  (AuditEvent.members_fst_sublist X S e).cons_cons "event"

/-! ## Members -/

/-- A member is found under its name. -/
theorem index_eventValue (e : AuditEntry) (name : String) :
    index (eventValue X e) name = (occ name (e.event.tagged X X.value)).head?.getD .null := by
  rw [eventValue, index, X.value.occ_members _ _ (nodup_tagged X X.value e.event)]

/-- The kind in a report is the event's. -/
@[simp] theorem eventKind_eventValue (e : AuditEntry) :
    eventKind (eventValue X e) = e.event.kind.tag := by
  rw [eventKind, index_eventValue, AuditEvent.tagged, occ_cons, if_pos rfl]
  rfl

/-- A field is found under its name, unless it is the tag. -/
theorem index_eventValue_of_ne (e : AuditEntry) {name : String} (h : "event" ≠ name) :
    index (eventValue X e) name = (occ name (e.event.members X X.value)).head?.getD .null := by
  rw [index_eventValue, AuditEvent.tagged, occ_cons, if_neg h]

/-- No control character gets into a detail. -/
theorem printable_eventDetail (e : AuditEntry) : Printable (eventDetail (eventValue X e)) := by
  intro c hc
  rw [eventValue, eventDetail] at hc
  have hsemi : Printable [';', ' '] := by decide
  rcases mem_intercalate hc with hc | ⟨l, hl, hc⟩
  · exact hsemi c hc
  · obtain ⟨⟨k, v⟩, hmem, rfl⟩ := List.mem_map.mp hl
    have hperm : (X.value.members (e.event.tagged X X.value)).Perm (e.event.tagged X X.value) :=
      sortMembers_perm (nodup_tagged X X.value e.event)
    have hname : k ∈ "event" :: e.event.kind.fields := by
      refine (tagged_fst_sublist X X.value e.event).subset ?_
      exact List.mem_map_of_mem (hperm.subset (List.mem_filter.mp hmem).1)
    rcases List.mem_append.mp hc with hc | hc
    · exact printable_fields e.event.kind k hname c hc
    · rcases List.mem_cons.mp hc with rfl | hc
      · decide
      · exact printable_render v c hc

end Audit

end Maranode
