/-
  Maranode.Store.Constraints

  The constraints of the tables of `user_db.rs`.

  Names and addresses are unique, and the rows of sessions and reset tokens are those of
  users who are there.  Each call keeps both (`apart_step`, `referred_step`), so a user who
  is read and written again is never refused.
-/
import Maranode.Store.Accounts

namespace Maranode.Store

open Lib
open Api (User)

namespace UserDb

variable (X : External) (R : Rfc3339Reader)

/-- `get_by_email`. -/
def getByEmail (db : UserDb) (readAt : DateTime) (email : String) : Option User :=
  (db.users.rows.find? fun r => r.email == some email).map (rowToUser X R readAt)

/-- `get_by_id`. -/
def getById (db : UserDb) (readAt : DateTime) (id : Uuid) : Option User :=
  (db.users.get (X.uuidText id)).map (rowToUser X R readAt)

/-! ## Names and addresses -/

/-- Two rows that the indexes of the table keep apart. -/
def Clash (r s : UserRow) : Prop :=
  r.username = s.username ∨ r.email.isSome = true ∧ r.email = s.email

/-- No name and no address is there twice. -/
def Apart (users : Lib.Table UserRow.id) : Prop :=
  ∀ r ∈ users.rows, ∀ s ∈ users.rows, r.id ≠ s.id → ¬ Clash r s

/-- Rows of one user, by what the indexes see. -/
structure SameNames (r s : UserRow) : Prop where
  id : r.id = s.id
  username : r.username = s.username
  email : r.email = s.email

variable {X R} {db : UserDb} {users users' : Lib.Table UserRow.id} {user : User}

theorem Clash.symm {r s : UserRow} (h : Clash r s) : Clash s r := by
  rcases h with hname | ⟨hsome, hemail⟩
  · exact .inl hname.symm
  · rw [hemail] at hsome
    exact .inr ⟨hsome, hemail.symm⟩

theorem SameNames.clash {r r' s s' : UserRow} (hr : SameNames r r') (hs : SameNames s s')
    (h : Clash r s) : Clash r' s' := by
  rcases h with hname | ⟨hsome, hemail⟩
  · exact .inl (hr.username.symm.trans (hname.trans hs.username))
  · rw [hr.email] at hsome
    exact .inr ⟨hsome, hr.email.symm.trans (hemail.trans hs.email)⟩

theorem SameNames.refl (r : UserRow) : SameNames r r := ⟨rfl, rfl, rfl⟩

/-- Another row has the name or the address. -/
theorem taken_eq_false_iff {id : String} :
    db.taken id user = false ↔
      ∀ r ∈ db.users.rows, r.id ≠ id → ¬ Clash r (userRow X user) := by
  rw [taken, List.any_eq_false]
  refine forall₂_congr fun r _ => ?_
  rw [Bool.and_eq_true, bne_iff_ne, not_and, Bool.or_eq_true, Bool.and_eq_true, beq_iff_eq,
    beq_iff_eq, Clash]
  rfl

/-- The rows of a table are those of another, or the one that is written. -/
theorem Apart.of_rows (h : Apart users) {W : UserRow → Prop}
    (hrows : ∀ r ∈ users'.rows, (∃ s ∈ users.rows, SameNames r s) ∨ W r)
    (hone : ∀ r s, W r → W s → r.id = s.id)
    (hfree : ∀ r, W r → ∀ s ∈ users.rows, s.id ≠ r.id → ¬ Clash s r) : Apart users' := by
  intro r hr s hs hid hclash
  rcases hrows r hr with ⟨r', hr', hsame⟩ | hwritten
  · rcases hrows s hs with ⟨s', hs', hsame'⟩ | hwritten'
    · refine h r' hr' s' hs' ?_ (hsame.clash hsame' hclash)
      rwa [← hsame.id, ← hsame'.id]
    · refine hfree s hwritten' r' hr' ?_ (hsame.clash (.refl s) hclash)
      rwa [← hsame.id]
  · rcases hrows s hs with ⟨s', hs', hsame'⟩ | hwritten'
    · refine hfree r hwritten s' hs' ?_ (hsame'.clash (.refl r) hclash.symm)
      rw [← hsame'.id]
      exact hid.symm
    · exact hid (hone r s hwritten hwritten')

/-- Rows that are left, or changed in other columns. -/
theorem Apart.of_same (h : Apart users)
    (hrows : ∀ r ∈ users'.rows, ∃ s ∈ users.rows, SameNames r s) : Apart users' :=
  h.of_rows (W := fun _ => False) (fun r hr => .inl (hrows r hr))
    (fun _ _ hfalse => hfalse.elim) fun _ hfalse => hfalse.elim

theorem Apart.update_same (h : Apart users) (k : String) {f : UserRow → UserRow}
    (hf : ∀ r, (f r).id = r.id) (hsame : ∀ r ∈ users.rows, r.id = k → SameNames (f r) r) :
    Apart (users.update k f hf) := by
  refine h.of_same fun r hr => ?_
  rw [Table.update, List.mem_map] at hr
  obtain ⟨s, hs, rfl⟩ := hr
  refine ⟨s, hs, ?_⟩
  split
  · next hk => exact hsame s hs hk
  · exact .refl s

theorem apart_create {db' : UserDb} (h : Apart db.users) (hcreate : db.create X user = some db') :
    Apart db'.users := by
  obtain ⟨htaken, users', hinsert, rfl⟩ := create_eq_some.mp hcreate
  refine h.of_rows (W := fun r => r = userRow X user) (fun r hr => ?_) ?_ ?_
  · rw [(Table.insert_eq_some hinsert).2] at hr
    rcases List.mem_append.mp hr with hold | hnew
    · exact .inl ⟨r, hold, .refl r⟩
    · exact .inr (List.mem_singleton.mp hnew)
  · rintro r s rfl rfl
    rfl
  · rintro r rfl s hs hid
    exact taken_eq_false_iff.mp htaken s hs hid

theorem apart_update {db' : UserDb} (h : Apart db.users) (hupdate : db.update X user = some db') :
    Apart db'.users := by
  rw [update] at hupdate
  split at hupdate
  · cases hupdate
  · next hfree =>
      rw [← Option.some.inj hupdate]
      dsimp only
      cases hget : db.users.get (X.uuidText user.id) with
      | none =>
          rw [Table.update_of_get_eq_none hget]
          exact h
      | some row =>
          rw [hget, Option.isSome_some, Bool.true_and, Bool.not_eq_true] at hfree
          refine h.of_rows (W := fun r => SameNames r (userRow X user)) (fun r hr => ?_) ?_ ?_
          · rw [Table.update, List.mem_map] at hr
            obtain ⟨s, hs, rfl⟩ := hr
            split
            · next hk => exact .inr ⟨hk, rfl, rfl⟩
            · exact .inl ⟨s, hs, .refl s⟩
          · exact fun r s hr hs => hr.id.trans hs.id.symm
          · intro r hr s hs hid hclash
            refine taken_eq_false_iff.mp hfree s hs ?_ ((SameNames.refl s).clash hr hclash)
            rw [hr.id] at hid
            exact hid

theorem apart_issueSession (db : UserDb) (h : Apart db.users) (userId : Uuid) (ttlHours : Int)
    (now : DateTime) (token : String) :
    Apart (db.issueSession X userId ttlHours now token).1.users := by
  rcases db.issueSession_cases X userId ttlHours now token with
    ⟨reply, hsame, -⟩ | ⟨sessions, -, hissued⟩
  · rw [hsame]
    exact h
  · rw [hissued]
    exact h.update_same _ (id_setLogin now) fun r _ _ => ⟨rfl, rfl, rfl⟩

/-- Each call keeps the names and the addresses apart. -/
theorem apart_step (h : Apart db.users) (e : UserEvent) : Apart (db.step X R e).1.users := by
  obtain ⟨call, first, second⟩ := e
  -- Creating and updating are checked by the table; the other calls only take rows away.
  cases call with
  | create user =>
      show Apart ((db.create X user).getD db).users
      cases hcreate : db.create X user with
      | none => exact h
      | some db' => exact apart_create h hcreate
  | update user =>
      show Apart ((db.update X user).getD db).users
      cases hupdate : db.update X user with
      | none => exact h
      | some db' => exact apart_update h hupdate
  | delete id =>
      show Apart (db.delete X id).1.users
      rw [delete]
      split
      · exact h.of_same fun r hr => ⟨r, (Table.mem_deleteWhere.mp hr).1, .refl r⟩
      · exact h
  -- A login changes no column that has to be different.
  | createSession userId ttlHours token =>
      exact apart_issueSession (purgeSessions X db userId first) h userId ttlHours second token
  | resolveSession token => exact h
  | deleteSession token => exact h
  | deleteSessionByPrefix userId tokenPrefix => exact h
  | deleteSessionsForUserExcept userId keepToken => exact h
  | createResetToken userId token =>
      show Apart ((purgeResets db first).issueReset X userId second token).1.users
      rcases (purgeResets db first).issueReset_cases X userId second token with
        hsame | ⟨resets, -, hissued⟩
      · rw [hsame]
        exact h
      · rw [hissued]
        exact h
  | consumeResetToken token =>
      show Apart (db.consumeResetToken X first token).1.users
      rw [consumeResetToken]
      split
      · exact h
      · exact h

/-- A user who keeps the name and the address is written. -/
theorem update_of_sameNames (user : User) (h : Apart db.users) {row : UserRow}
    (hget : db.users.get (X.uuidText user.id) = some row)
    (hsame : SameNames (userRow X user) row) :
    db.update X user = some { db with
      users := db.users.update (X.uuidText user.id) (setColumns X user)
        (id_setColumns X user) } := by
  obtain ⟨hrow, hid⟩ := Table.get_eq_some.mp hget
  have hfree : db.taken (X.uuidText user.id) user = false := by
    refine (taken_eq_false_iff (X := X)).mpr fun r hr hother hclash => ?_
    refine h r hr row hrow ?_ ((SameNames.refl r).clash hsame hclash)
    rw [hid]
    exact hother
  rw [update, hfree, Bool.and_false, if_neg Bool.false_ne_true]

/-! ## Rows of a user -/

/-- The foreign keys: a session and a reset token are those of a user who is there. -/
structure Referred (db : UserDb) : Prop where
  sessions : ∀ s ∈ db.sessions.rows, (db.users.get s.userId).isSome = true
  resets : ∀ r ∈ db.resets.rows, (db.users.get r.userId).isSome = true

/-- No user goes, and the rows that come are of users who are there. -/
theorem Referred.mono {db' : UserDb} (h : Referred db)
    (husers : ∀ k, (db.users.get k).isSome = true → (db'.users.get k).isSome = true)
    (hsessions : ∀ s ∈ db'.sessions.rows,
      s ∈ db.sessions.rows ∨ (db'.users.get s.userId).isSome = true)
    (hresets : ∀ r ∈ db'.resets.rows,
      r ∈ db.resets.rows ∨ (db'.users.get r.userId).isSome = true) : Referred db' := by
  refine ⟨fun s hs => ?_, fun r hr => ?_⟩
  · rcases hsessions s hs with hold | hnew
    · exact husers _ (h.sessions s hold)
    · exact hnew
  · rcases hresets r hr with hold | hnew
    · exact husers _ (h.resets r hold)
    · exact hnew

theorem isSome_get_update (users : Lib.Table UserRow.id) (k : String) {f : UserRow → UserRow}
    (hf : ∀ r, (f r).id = r.id) (j : String) :
    ((users.update k f hf).get j).isSome = (users.get j).isSome := by
  rw [users.get_update k hf]
  by_cases hj : j = k
  · rw [hj, Function.update_self, Option.isSome_map]
  · rw [Function.update_of_ne hj]

theorem isSome_get_insert {r : UserRow} (hinsert : users.insert r = some users') (k : String)
    (h : (users.get k).isSome = true) : (users'.get k).isSome = true := by
  rw [Table.get_of_insert hinsert]
  by_cases hk : k = r.id
  · rw [hk, Function.update_self]
    rfl
  · rw [Function.update_of_ne hk]
    exact h

theorem referred_create {db' : UserDb} (h : Referred db) (hcreate : db.create X user = some db') :
    Referred db' := by
  obtain ⟨-, users', hinsert, rfl⟩ := create_eq_some.mp hcreate
  exact h.mono (isSome_get_insert hinsert) (fun _ hs => .inl hs) fun _ hr => .inl hr

theorem referred_update {db' : UserDb} (h : Referred db) (hupdate : db.update X user = some db') :
    Referred db' := by
  rcases db.update_cases X user with hnone | hsome
  · rw [hnone] at hupdate
    cases hupdate
  · rw [hsome] at hupdate
    rw [← Option.some.inj hupdate]
    refine h.mono (fun k hk => ?_) (fun _ hs => .inl hs) fun _ hr => .inl hr
    rw [isSome_get_update]
    exact hk

theorem referred_delete (h : Referred db) (id : Uuid) : Referred (db.delete X id).1 := by
  rw [delete]
  split
  · have hothers : ∀ k, (db.users.get k).isSome = true → (k == X.uuidText id) = false →
        ((db.users.deleteWhere fun r => r.id == X.uuidText id).get k).isSome = true := by
      intro k hk hother
      rw [Table.get_deleteKey _ fun r => beq_eq_decide _ _,
        Function.update_of_ne (beq_eq_false_iff_ne.mp hother)]
      exact hk
    refine ⟨fun s hs => ?_, fun r hr => ?_⟩
    · obtain ⟨hold, hother⟩ := Table.mem_deleteWhere.mp hs
      exact hothers _ (h.sessions s hold) hother
    · obtain ⟨hold, hother⟩ := Table.mem_deleteWhere.mp hr
      exact hothers _ (h.resets r hold) hother
  · exact h

theorem referred_issueSession (db : UserDb) (h : Referred db) (userId : Uuid) (ttlHours : Int)
    (now : DateTime) (token : String) :
    Referred (db.issueSession X userId ttlHours now token).1 := by
  rw [issueSession]
  split
  · exact h
  · split
    · exact h
    · next hthere =>
        split
        · exact h
        · next sessions hinsert =>
            refine h.mono (fun k hk => ?_) (fun s hs => ?_) fun _ hr => .inl hr
            · exact (isSome_get_update _ _ (id_setLogin now) k).trans hk
            · have hmem : s ∈ sessions.rows := hs
              rw [(Table.insert_eq_some hinsert).2] at hmem
              rcases List.mem_append.mp hmem with hold | hnew
              · exact .inl hold
              · rw [List.mem_singleton.mp hnew]
                refine .inr ((isSome_get_update _ _ (id_setLogin now) _).trans ?_)
                rwa [← Option.not_isNone, Bool.not_eq_true', ← Bool.not_eq_true]

theorem referred_issueReset (db : UserDb) (h : Referred db) (userId : Uuid) (now : DateTime)
    (token : String) : Referred (db.issueReset X userId now token).1 := by
  rw [issueReset]
  split
  · exact h
  · next hthere =>
      split
      · exact h
      · next resets hinsert =>
          refine h.mono (fun _ hk => hk) (fun _ hs => .inl hs) fun r hr => ?_
          have hmem : r ∈ resets.rows := hr
          rw [(Table.insert_eq_some hinsert).2] at hmem
          rcases List.mem_append.mp hmem with hold | hnew
          · exact .inl hold
          · rw [List.mem_singleton.mp hnew]
            refine .inr ?_
            rwa [← Option.not_isNone, Bool.not_eq_true', ← Bool.not_eq_true]

/-- Rows of sessions and tokens that are left. -/
theorem Referred.of_left {db' : UserDb} (h : Referred db) (husers : db'.users = db.users)
    (hsessions : ∀ s ∈ db'.sessions.rows, s ∈ db.sessions.rows)
    (hresets : ∀ r ∈ db'.resets.rows, r ∈ db.resets.rows) : Referred db' := by
  refine h.mono (fun k hk => ?_) (fun s hs => .inl (hsessions s hs)) fun r hr => .inl (hresets r hr)
  rwa [husers]

/-- Each call keeps the foreign keys. -/
theorem referred_step (h : Referred db) (e : UserEvent) : Referred (db.step X R e).1 := by
  obtain ⟨call, first, second⟩ := e
  -- Only the calls that insert could refer to a user who is not there.
  cases call with
  | create user =>
      show Referred ((db.create X user).getD db)
      cases hcreate : db.create X user with
      | none => exact h
      | some db' => exact referred_create h hcreate
  | update user =>
      show Referred ((db.update X user).getD db)
      cases hupdate : db.update X user with
      | none => exact h
      | some db' => exact referred_update h hupdate
  | delete id => exact referred_delete h id
  | createSession userId ttlHours token =>
      refine referred_issueSession (purgeSessions X db userId first) ?_ userId ttlHours second token
      exact h.of_left rfl (fun s hs => (Table.mem_deleteWhere.mp hs).1) fun _ hr => hr
  | resolveSession token => exact h
  | deleteSession token =>
      exact h.of_left rfl (fun s hs => (Table.mem_deleteWhere.mp hs).1) fun _ hr => hr
  | deleteSessionByPrefix userId tokenPrefix =>
      exact h.of_left rfl (fun s hs => (Table.mem_deleteWhere.mp hs).1) fun _ hr => hr
  | deleteSessionsForUserExcept userId keepToken =>
      exact h.of_left rfl (fun s hs => (Table.mem_deleteWhere.mp hs).1) fun _ hr => hr
  | createResetToken userId token =>
      refine referred_issueReset (purgeResets db first) ?_ userId second token
      exact h.of_left rfl (fun _ hs => hs) fun r hr => (Table.mem_deleteWhere.mp hr).1
  | consumeResetToken token =>
      show Referred (db.consumeResetToken X first token).1
      rw [consumeResetToken]
      split
      · exact h
      · exact h.of_left rfl (fun _ hs => hs) fun r hr => (Table.mem_deleteWhere.mp hr).1

/-! ## All of them -/

variable (X) in
/-- The constraints of the tables. -/
structure Constrained (db : UserDb) : Prop where
  wellKept : WellKept X db
  apart : Apart db.users
  referred : Referred db

theorem constrained_fresh : Constrained X UserDb.fresh where
  wellKept := wellKept_fresh
  apart := fun _ hr => absurd hr List.not_mem_nil
  referred := ⟨fun _ hs => absurd hs List.not_mem_nil, fun _ hr => absurd hr List.not_mem_nil⟩

theorem constrained_step (h : Constrained X db) (e : UserEvent) :
    Constrained X (db.step X R e).1 where
  wellKept := h.wellKept.of_usersStep (usersStep_step db e)
  apart := apart_step h.apart e
  referred := referred_step h.referred e

end UserDb

end Maranode.Store
