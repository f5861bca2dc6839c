/-
  Maranode.Store.Accounts

  Users by name, and by the provider that vouches for them.

  A name is looked up byte by byte, and the index of the names is over the same bytes: two
  names that differ in case or in a space are two users.  What a call does to the table of
  the users is said once (`UsersStep`), and what it keeps follows by cases.
-/
import Maranode.Store.SessionHistory

namespace Maranode.Store

open Lib
open Api (User)

variable (X : External) (R : Rfc3339Reader)

namespace UserDb

/-! ## Lookups -/

/-- `get_by_username`. -/
def getByUsername (db : UserDb) (readAt : DateTime) (username : String) : Option User :=
  (db.users.rows.find? fun r => r.username == username).map (rowToUser X R readAt)

/-- `get_by_provider_sub`. -/
def getByProviderSub (db : UserDb) (readAt : DateTime) (provider sub : String) : Option User :=
  (db.users.rows.find? fun r => r.provider == provider && r.providerSub == some sub).map
    (rowToUser X R readAt)

/-- The ids of the rows are ids, and no name is there twice. -/
structure WellKept (db : UserDb) : Prop where
  ids : ∀ r ∈ db.users.rows, ∃ id, r.id = X.uuidText id
  names : db.users.Unique UserRow.username

/-- The row of a user who signs in with a name and a password. -/
structure LocalRow (id : Uuid) (name hash : String) (r : UserRow) : Prop where
  id_eq : r.id = X.uuidText id
  username_eq : r.username = name
  hash_eq : r.passwordHash = some hash
  provider_eq : r.provider = "local"
  sub_eq : r.providerSub = none
  active_eq : r.active = 1

/-- The store has no such id, and no other row with the name or the address. -/
def Accepts (db : UserDb) (user : User) : Prop :=
  db.taken (X.uuidText user.id) user = false ∧ db.users.get (X.uuidText user.id) = none

def HasAccount (db : UserDb) (id : Uuid) (name hash : String) : Prop :=
  ∃ r ∈ db.users.rows, LocalRow X id name hash r

/-! ## What a call does to the users -/

/-- The users after a call.  A user that is written has a name that no other row has. -/
inductive UsersStep (users : Table UserRow.id) : UserCall → Table UserRow.id → Prop where
  | same {call} : UsersStep users call users
  | create {user users'} (h : users.insert (userRow X user) = some users')
      (hname : ∀ r ∈ users.rows, r.username ≠ user.username) :
      UsersStep users (.create user) users'
  | update {user} (hname : ∀ r ∈ users.rows, r.id ≠ X.uuidText user.id →
      r.username ≠ user.username) :
      UsersStep users (.update user)
        (users.update (X.uuidText user.id) (setColumns X user) (id_setColumns X user))
  | delete {id} : UsersStep users (.delete id) (users.deleteWhere fun r => r.id == X.uuidText id)
  | login {userId ttlHours token now} :
      UsersStep users (.createSession userId ttlHours token)
        (users.update (X.uuidText userId) (setLogin now) (id_setLogin now))

variable {X R} {db : UserDb} {user : User}

theorem username_ne_of_taken {id : String} (h : db.taken id user = false) :
    ∀ r ∈ db.users.rows, r.id ≠ id → r.username ≠ user.username := by
  intro r hr hid hname
  rw [taken, List.any_eq_false] at h
  refine h r hr ?_
  rw [bne_iff_ne.mpr hid, hname, beq_self_eq_true, Bool.true_or, Bool.and_self]

theorem create_eq_some {db' : UserDb} :
    db.create X user = some db' ↔
      db.taken (X.uuidText user.id) user = false ∧
        ∃ users, db.users.insert (userRow X user) = some users ∧
          db' = { db with users := users } := by
  rw [create]
  cases htaken : db.taken (X.uuidText user.id) user with
  | true => exact iff_of_false (fun h => (by cases h)) fun h => (by cases h.1)
  | false =>
      rw [if_neg Bool.false_ne_true, Option.map_eq_some_iff]
      refine ⟨?_, ?_⟩
      · rintro ⟨users, hinsert, rfl⟩
        exact ⟨rfl, users, hinsert, rfl⟩
      · rintro ⟨-, users, hinsert, rfl⟩
        exact ⟨users, hinsert, rfl⟩

theorem isSome_create_iff :
    (∃ db', db.create X user = some db') ↔ Accepts X db user := by
  constructor
  · rintro ⟨db', hcreate⟩
    obtain ⟨htaken, users, hinsert, -⟩ := create_eq_some.mp hcreate
    exact ⟨htaken, (Table.insert_eq_some hinsert).1⟩
  · rintro ⟨htaken, hget⟩
    have hfresh : db.users.get (UserRow.id (userRow X user)) = none := hget
    obtain ⟨users, hinsert⟩ := Table.exists_insert hfresh
    exact ⟨_, create_eq_some.mpr ⟨htaken, users, hinsert, rfl⟩⟩

theorem usersStep_create {db' : UserDb} (h : db.create X user = some db') :
    UsersStep X db.users (.create user) db'.users := by
  obtain ⟨htaken, users, hinsert, rfl⟩ := create_eq_some.mp h
  refine .create hinsert fun r hr => username_ne_of_taken htaken r hr ?_
  exact Table.get_eq_none.mp (Table.insert_eq_some hinsert).1 r hr

theorem usersStep_update {db' : UserDb} (h : db.update X user = some db') :
    UsersStep X db.users (.update user) db'.users := by
  rw [update] at h
  split at h
  · cases h
  · next hfree =>
      rw [← Option.some.inj h]
      cases hget : db.users.get (X.uuidText user.id) with
      | none =>
          dsimp only
          rw [Table.update_of_get_eq_none hget]
          exact .same
      | some row =>
          rw [hget, Option.isSome_some, Bool.true_and, Bool.not_eq_true] at hfree
          exact .update (username_ne_of_taken hfree)

theorem usersStep_issueSession (db : UserDb) (userId : Uuid) (ttlHours : Int) (now : DateTime)
    (token : String) :
    UsersStep X db.users (.createSession userId ttlHours token)
      (db.issueSession X userId ttlHours now token).1.users := by
  rcases db.issueSession_cases X userId ttlHours now token with
    ⟨reply, hsame, -⟩ | ⟨sessions, -, hissued⟩
  · rw [hsame]
    exact .same
  · rw [hissued]
    exact .login

theorem usersStep_step (db : UserDb) (e : UserEvent) :
    UsersStep X db.users e.call (db.step X R e).1.users := by
  obtain ⟨call, first, second⟩ := e
  -- Only five of the calls write to the table of users.
  cases call with
  | create user =>
      show UsersStep X db.users _ ((db.create X user).getD db).users
      cases hcreate : db.create X user with
      | none => exact .same
      | some db' => exact usersStep_create hcreate
  | update user =>
      show UsersStep X db.users _ ((db.update X user).getD db).users
      cases hupdate : db.update X user with
      | none => exact .same
      | some db' => exact usersStep_update hupdate
  | delete id =>
      show UsersStep X db.users _ (db.delete X id).1.users
      rw [delete]
      split
      · exact .delete
      · exact .same
  | createSession userId ttlHours token =>
      -- Issuing the session writes the time of the login, after the purge.
      exact usersStep_issueSession (purgeSessions X db userId first) userId ttlHours second token
  | resolveSession token => exact .same
  | deleteSession token => exact .same
  | deleteSessionByPrefix userId tokenPrefix => exact .same
  | deleteSessionsForUserExcept userId keepToken => exact .same
  -- The token's own tables change, and the users stay.
  | createResetToken userId token =>
      show UsersStep X db.users _
        ((purgeResets db first).issueReset X userId second token).1.users
      rcases (purgeResets db first).issueReset_cases X userId second token with
        hsame | ⟨resets, -, hissued⟩
      · rw [hsame]
        exact .same
      · rw [hissued]
        exact .same
  | consumeResetToken token =>
      show UsersStep X db.users _ (db.consumeResetToken X first token).1.users
      rw [consumeResetToken]
      split
      · exact .same
      · exact .same

/-! ## What a call keeps -/

variable {users users' : Table UserRow.id} {call : UserCall}

/-- Ids and names, said of the table. -/
theorem UsersStep.ids (h : UsersStep X users call users')
    (hids : ∀ r ∈ users.rows, ∃ id, r.id = X.uuidText id) :
    ∀ r ∈ users'.rows, ∃ id, r.id = X.uuidText id := by
  have hupdated : ∀ {k f} (hf : ∀ r, UserRow.id (f r) = r.id),
      ∀ r ∈ (users.update k f hf).rows, ∃ id, r.id = X.uuidText id := by
    intro k f hf r hr
    rw [Table.update, List.mem_map] at hr
    obtain ⟨s, hs, rfl⟩ := hr
    obtain ⟨id, hid⟩ := hids s hs
    split
    · exact ⟨id, (hf s).trans hid⟩
    · exact ⟨id, hid⟩
  cases h with
  | same => exact hids
  | create hinsert hname =>
      intro r hr
      rw [(Table.insert_eq_some hinsert).2] at hr
      rcases List.mem_append.mp hr with hold | hnew
      · exact hids r hold
      · rw [List.mem_singleton.mp hnew]
        exact ⟨_, rfl⟩
  | update hname => exact hupdated _
  | delete => exact fun r hr => hids r (Table.mem_deleteWhere.mp hr).1
  | login => exact hupdated _

theorem UsersStep.names (h : UsersStep X users call users')
    (hnames : users.Unique UserRow.username) : users'.Unique UserRow.username := by
  cases h with
  | same => exact hnames
  | create hinsert hname => exact (Table.unique_insert_iff hinsert).mpr ⟨hnames, hname⟩
  | update hname => exact hnames.update _ (fun _ => rfl) hname
  | delete => exact hnames.deleteWhere _
  | @login userId ttlHours token now =>
      exact (Table.unique_update_iff (id_setLogin now) fun _ _ _ => rfl).mpr hnames

theorem wellKept_fresh : WellKept X UserDb.fresh :=
  ⟨fun _ hr => absurd hr List.not_mem_nil, Table.unique_empty⟩

theorem WellKept.of_usersStep {db' : UserDb} (hdb : WellKept X db)
    (h : UsersStep X db.users call db'.users) : WellKept X db' :=
  ⟨h.ids hdb.ids, h.names hdb.names⟩

/-- The call does not write the user of an id. -/
def Spares (id : Uuid) : UserCall → Prop
  | .update user => user.id ≠ id
  | .delete other => other ≠ id
  | _ => True

variable {id : Uuid} {name hash : String}

/-- A user whom a call does not write keeps the account. -/
theorem UsersStep.keeps (h : UsersStep X users call users') (hspares : Spares id call)
    (hrow : ∃ r ∈ users.rows, LocalRow X id name hash r) :
    ∃ r ∈ users'.rows, LocalRow X id name hash r := by
  obtain ⟨r, hr, hlocal⟩ := hrow
  cases h with
  | same => exact ⟨r, hr, hlocal⟩
  | create hinsert hname =>
      refine ⟨r, ?_, hlocal⟩
      rw [(Table.insert_eq_some hinsert).2]
      exact List.mem_append_left _ hr
  | @update user hname =>
      refine ⟨r, ?_, hlocal⟩
      rw [Table.update, List.mem_map]
      refine ⟨r, hr, if_neg fun hkey => hspares (uuidText_inj X ?_)⟩
      rw [← hkey, hlocal.id_eq]
  | @delete other =>
      refine ⟨r, Table.mem_deleteWhere.mpr ⟨hr, ?_⟩, hlocal⟩
      rw [beq_eq_false_iff_ne, hlocal.id_eq]
      exact fun hsame => hspares (uuidText_inj X hsame).symm
  | @login userId ttlHours token now =>
      refine ⟨_, List.mem_map_of_mem hr, ?_⟩
      split
      · exact ⟨hlocal.id_eq, hlocal.username_eq, hlocal.hash_eq, hlocal.provider_eq,
          hlocal.sub_eq, hlocal.active_eq⟩
      · exact hlocal

/-! ## What a lookup finds -/

variable {readAt : DateTime}

theorem id_rowToUser {r : UserRow} (h : r.id = X.uuidText id) :
    (rowToUser X R readAt r).id = id := by
  rw [rowToUser]
  dsimp only
  rw [h, X.uuid_roundTrip]
  rfl

theorem LocalRow.rowToUser {r : UserRow} (h : LocalRow X id name hash r) :
    (rowToUser X R readAt r).id = id ∧ (Store.rowToUser X R readAt r).active = true ∧
      (Store.rowToUser X R readAt r).provider = .localAccount ∧
      (Store.rowToUser X R readAt r).passwordHash = some hash := by
  refine ⟨id_rowToUser h.id_eq, ?_, ?_, h.hash_eq⟩
  · rw [Store.rowToUser]
    dsimp only
    rw [h.active_eq]
    rfl
  · rw [Store.rowToUser]
    dsimp only
    rw [h.provider_eq]
    rfl

/-- An account is a user of the store. -/
theorem HasAccount.isNone_get (h : HasAccount X db id name hash) :
    (db.users.get (X.uuidText id)).isNone = false := by
  obtain ⟨r, hr, hlocal⟩ := h
  rw [Table.get_eq_some.mpr ⟨hr, hlocal.id_eq⟩]
  rfl

/-- The user of a name is in a row of that name. -/
theorem getByUsername_eq_some (hdb : WellKept X db) {username : String} :
    db.getByUsername X R readAt username = some user ↔
      ∃ r ∈ db.users.rows, r.username = username ∧ rowToUser X R readAt r = user := by
  rw [getByUsername, Option.map_eq_some_iff]
  refine exists_congr fun r => ?_
  rw [hdb.names.find?_eq_some, and_assoc]

/-- The user of a provider is in a row that has the subject. -/
theorem exists_row_of_getByProviderSub {provider sub : String}
    (h : db.getByProviderSub X R readAt provider sub = some user) :
    ∃ r ∈ db.users.rows, r.providerSub = some sub ∧ rowToUser X R readAt r = user := by
  rw [getByProviderSub, Option.map_eq_some_iff] at h
  obtain ⟨r, hfound, hr⟩ := h
  have hsub := List.find?_some hfound
  rw [Bool.and_eq_true, beq_iff_eq, beq_iff_eq] at hsub
  exact ⟨r, List.mem_of_find?_eq_some hfound, hsub.2, hr⟩

end UserDb

end Maranode.Store
