/-
  Maranode.Store.SessionExpiry

  The queries of `user_db.rs` that ask whether a session or a reset token has expired.

  They compare texts.  For times with years of four digits a row passes `expires_at > now`
  when it expires later, and `expires_at < now` when it expired earlier
  (`expiry_decided`).
-/
import Maranode.Common.Instant
import Maranode.Store.UserDb

namespace Maranode.Store

open Lib
open Api (User)

/-! ## Listing -/

structure SessionRecord where
  tokenPrefix : String
  userId : Uuid
  username : Option String
  createdAt : DateTime
  expiresAt : DateTime
  deriving DecidableEq

namespace UserDb

variable (X : External) (R : Rfc3339Reader)

/-- `row_to_session`; `readAt` is the time of a column that is not one. -/
def rowToSession (readAt : DateTime) (row : SessionRow) : SessionRecord where
  tokenPrefix := String.ofList (row.token.toList.take 8)
  userId := (X.uuidOfText row.userId).getD 0
  username := none
  createdAt := (R.read row.createdAt).getD readAt
  expiresAt := (R.read row.expiresAt).getD readAt

/-- `ORDER BY created_at DESC`. -/
def newestFirst (s s' : SessionRow) : Bool := decide (s'.createdAt ≤ s.createdAt)

/-- The rows of `list_sessions_for_user`. -/
def sessionsOfUser (db : UserDb) (userId : Uuid) (now : DateTime) : List SessionRow :=
  (db.sessions.rows.filter fun s =>
    s.userId == X.uuidText userId && decide (toRfc3339 now < s.expiresAt)).mergeSort newestFirst

/-- `list_sessions_for_user`. -/
def listSessionsForUser (db : UserDb) (userId : Uuid) (now readAt : DateTime) :
    List SessionRecord :=
  (db.sessionsOfUser X userId now).map (rowToSession X R readAt)

/-- The rows of `list_all_sessions`, each with the row of its user. -/
def sessionsOfAll (db : UserDb) (now : DateTime) : List (SessionRow × UserRow) :=
  (db.sessions.rows.flatMap fun s => db.users.rows.flatMap fun u =>
    if s.userId = u.id ∧ toRfc3339 now < s.expiresAt then [(s, u)] else []).mergeSort
      fun p p' => newestFirst p.1 p'.1

/-- `list_all_sessions`. -/
def listAllSessions (db : UserDb) (now readAt : DateTime) : List SessionRecord :=
  (db.sessionsOfAll now).map fun p =>
    { rowToSession X R readAt p.1 with username := some p.2.username }

variable {X} {db : UserDb} {now : DateTime}

theorem mem_sessionsOfUser {userId : Uuid} {s : SessionRow} :
    s ∈ db.sessionsOfUser X userId now ↔
      s ∈ db.sessions.rows ∧ s.userId = X.uuidText userId ∧ toRfc3339 now < s.expiresAt := by
  rw [sessionsOfUser, List.mem_mergeSort, List.mem_filter, Bool.and_eq_true, beq_iff_eq,
    decide_eq_true_eq]

theorem mem_sessionsOfAll {s : SessionRow} {u : UserRow} :
    (s, u) ∈ db.sessionsOfAll now ↔
      s ∈ db.sessions.rows ∧ u ∈ db.users.rows ∧ s.userId = u.id ∧ toRfc3339 now < s.expiresAt := by
  rw [sessionsOfAll, List.mem_mergeSort]
  simp only [List.mem_flatMap]
  constructor
  · rintro ⟨s', hs', u', hu', hmem⟩
    by_cases h : s'.userId = u'.id ∧ toRfc3339 now < s'.expiresAt
    · rw [if_pos h, List.mem_singleton, Prod.mk.injEq] at hmem
      obtain ⟨rfl, rfl⟩ := hmem
      exact ⟨hs', hu', h⟩
    · rw [if_neg h] at hmem
      exact absurd hmem List.not_mem_nil
  · rintro ⟨hs, hu, h⟩
    exact ⟨s, hs, u, hu, by rw [if_pos h]; exact List.mem_singleton_self _⟩

/-! ## What the queries decide -/

/-- The row expires at the instant, and the instant has a year of four digits. -/
def Expires (column : String) (expires : Instant) : Prop :=
  column = expires.toRfc3339 ∧ expires.FourDigitYear

theorem live_iff {column : String} {expires : Instant} (h : Expires column expires)
    (hnow : FourDigitYear now) :
    toRfc3339 now < column ↔ (Instant.ofTime now).Before expires := by
  rw [h.1, ← Instant.toRfc3339_ofTime]
  exact Instant.toRfc3339_lt_iff hnow h.2

theorem expired_iff {column : String} {expires : Instant} (h : Expires column expires)
    (hnow : FourDigitYear now) :
    column < toRfc3339 now ↔ expires.Before (Instant.ofTime now) := by
  rw [h.1, ← Instant.toRfc3339_ofTime]
  exact Instant.toRfc3339_lt_iff h.2 hnow

variable (X) (db now)

/-- The queries find the session when it is live, and `create_session` deletes it when it
    has expired. -/
structure SessionDecided (s : SessionRow) (live expired : Prop) : Prop where
  resolve : ∀ readAt, (∃ user, db.resolveSession X R now readAt s.token = some user) ↔
    live ∧ ∃ row, db.users.get s.userId = some row ∧ row.active = 1
  ofUser : ∀ userId, s ∈ db.sessionsOfUser X userId now ↔ s.userId = X.uuidText userId ∧ live
  ofAll : ∀ u ∈ db.users.rows, (s, u) ∈ db.sessionsOfAll now ↔ s.userId = u.id ∧ live
  purge : ∀ userId, s ∈ (purgeSessions X db userId now).sessions.rows ↔
    ¬ (s.userId = X.uuidText userId ∧ expired)

/-- The token is consumed when it is live, and `create_reset_token` deletes it when it has
    expired. -/
structure ResetDecided (r : ResetRow) (live expired : Prop) : Prop where
  consume : live → db.consumeResetToken X now r.token =
    ({ db with resets := db.resets.deleteWhere fun r' => r'.token == r.token },
      X.uuidOfText r.userId)
  refuse : ¬ live → db.consumeResetToken X now r.token = (db, none)
  purge : r ∈ (purgeResets db now).resets.rows ↔ ¬ expired

variable {db now}

theorem sessionDecided {s : SessionRow} (hs : s ∈ db.sessions.rows) {expires : Instant}
    (h : Expires s.expiresAt expires) (hnow : FourDigitYear now) :
    SessionDecided X R db now s ((Instant.ofTime now).Before expires)
      (expires.Before (Instant.ofTime now)) where
  resolve := by
    intro readAt
    have hget : db.sessions.get s.token = some s := Table.get_eq_some.mpr ⟨hs, rfl⟩
    rw [← live_iff h hnow]
    constructor
    · rintro ⟨user, huser⟩
      obtain ⟨s', row, hs', hlive, hrow, hactive, -⟩ := resolveSession_eq_some.mp huser
      obtain rfl := Option.some.inj (hget.symm.trans hs')
      exact ⟨hlive, row, hrow, hactive⟩
    · rintro ⟨hlive, row, hrow, hactive⟩
      exact ⟨_, resolveSession_eq_some.mpr ⟨s, row, hget, hlive, hrow, hactive, rfl⟩⟩
  ofUser userId := by
    rw [mem_sessionsOfUser, and_iff_right hs, live_iff h hnow]
  ofAll u hu := by
    rw [mem_sessionsOfAll, and_iff_right hs, and_iff_right hu, live_iff h hnow]
  purge userId := by
    rw [purgeSessions, Table.mem_deleteWhere, and_iff_right hs, ← expired_iff h hnow,
      Bool.and_eq_false_iff, beq_eq_false_iff_ne, decide_eq_false_iff_not, not_and_or]

theorem resetDecided {r : ResetRow} (hr : r ∈ db.resets.rows) {expires : Instant}
    (h : Expires r.expiresAt expires) (hnow : FourDigitYear now) :
    ResetDecided X db now r ((Instant.ofTime now).Before expires)
      (expires.Before (Instant.ofTime now)) := by
  have hget : db.resets.get r.token = some r := Table.get_eq_some.mpr ⟨hr, rfl⟩
  refine ⟨fun hlive => ?_, fun hlive => ?_, ?_⟩
  · exact consumeResetToken_of_live hget ((live_iff h hnow).mpr hlive)
  · refine consumeResetToken_of_not_live fun r' hr' hlive' => ?_
    obtain rfl := Option.some.inj (hget.symm.trans hr')
    exact hlive ((live_iff h hnow).mp hlive')
  · rw [purgeResets, Table.mem_deleteWhere, and_iff_right hr, decide_eq_false_iff_not,
      expired_iff h hnow]

/-- **Texts decide expiry.**  The bytes of two times in years of four digits compare the way
    the times do, and each query takes the rows that it should. -/
theorem expiry_decided :
    (∀ t t' : Instant, t.FourDigitYear → t'.FourDigitYear →
      (Text.encode t.text < Text.encode t'.text ↔ t.Before t') ∧
        (Text.encode t.text = Text.encode t'.text ↔ t = t')) ∧
    ∀ (db : UserDb) (now : DateTime) (expires : Instant), FourDigitYear now →
      (∀ s ∈ db.sessions.rows, Expires s.expiresAt expires →
        SessionDecided X R db now s ((Instant.ofTime now).Before expires)
          (expires.Before (Instant.ofTime now))) ∧
      ∀ r ∈ db.resets.rows, Expires r.expiresAt expires →
        ResetDecided X db now r ((Instant.ofTime now).Before expires)
          (expires.Before (Instant.ofTime now)) := by
  refine ⟨fun t t' ht ht' => ⟨Instant.encode_text_lt_iff ht ht', Instant.encode_text_inj ht ht'⟩,
    fun db now expires hnow => ⟨fun s hs h => ?_, fun r hr h => ?_⟩⟩
  · exact sessionDecided X R hs h hnow
  · exact resetDecided X hr h hnow

end UserDb

end Maranode.Store
