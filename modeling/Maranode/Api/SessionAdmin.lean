/-
  Maranode.Api.SessionAdmin

  `users.rs`: the list of sessions, and revoking one by the first eight characters of its
  token.

  The handler looks for a session that the user may see and that begins with what stands in
  the path, gives the lock back, and deletes by user and pattern.  What is found begins with
  eight digits of a token, so the pattern has no wildcard but the last: the session goes with
  those of the same user that begin alike, and nothing else (`revokeSession_exact`).
-/
import Maranode.Api.Logout
import Maranode.Store.Constraints
import Maranode.Store.SessionExpiry

namespace Maranode.Api

open Lib Lib.Like Store UserDb

variable (X : External) (R : Rfc3339Reader)

/-! ## Handlers -/

structure SessionView where
  tokenPrefix : String
  createdAt : String
  expiresAt : String
  isCurrent : Bool
  username : Option String

/-- The sessions that a user may see. -/
def sessionsFor (db : Store.UserDb) (user : User) (now readAt : DateTime) : List SessionRecord :=
  if user.role.canManageUsers then db.listAllSessions X R now readAt
  else db.listSessionsForUser X R user.id now readAt

/-- `list_sessions`, for the user whom the header signs in. -/
def listSessions (db : Store.UserDb) (user : User) (authorization : Option String)
    (now readAt : DateTime) : List SessionView :=
  (sessionsFor X R db user now readAt).map fun s =>
    { tokenPrefix := s.tokenPrefix
      createdAt := toRfc3339 s.createdAt
      expiresAt := toRfc3339 s.expiresAt
      isCurrent := s.tokenPrefix == String.ofList ((currentToken authorization).toList.take 8)
      username := s.username }

/-- `revoke_session`: the session is looked for in `db` and deleted in `db'`, and between the
    two there may be other calls. -/
def revokeSession (db db' : Store.UserDb) (user : User) (tokenPrefix : String)
    (now readAt : DateTime) : Store.UserDb × ApiResult Unit :=
  match (sessionsFor X R db user now readAt).find? (·.tokenPrefix == tokenPrefix) with
  | none => (db', .error (.notFound "session not found"))
  | some matched => (db'.deleteSessionByPrefix X matched.userId tokenPrefix, .ok ())

/-! ## Tokens -/

def hexDigits : List Char :=
  ['0', '1', '2', '3', '4', '5', '6', '7', '8', '9', 'a', 'b', 'c', 'd', 'e', 'f']

/-- Two version 4 ids without their hyphens. -/
def Drawn (token : String) : Prop :=
  token.toList.length = 64 ∧ ∀ c ∈ token.toList, c ∈ hexDigits

/-- What the list shows of a token. -/
def beginning (s : SessionRow) : String := String.ofList (s.token.toList.take 8)

/-- The session is live, and the user may see it. -/
structure Visible (db : Store.UserDb) (user : User) (now : DateTime) (s : SessionRow) : Prop where
  row : s ∈ db.sessions.rows
  live : toRfc3339 now < s.expiresAt
  mine : user.role.canManageUsers = true ∨ s.userId = X.uuidText user.id

/-- The sessions of one user that begin alike go. -/
structure Revokes (db' out : Store.UserDb) (s : SessionRow) : Prop where
  users : out.users = db'.users
  resets : out.resets = db'.resets
  sessions : ∀ t, t ∈ out.sessions.rows ↔
    t ∈ db'.sessions.rows ∧ ¬ (t.userId = s.userId ∧ beginning t = beginning s)

variable {X R} {db db' : Store.UserDb} {user : User} {now readAt : DateTime}
  {s : SessionRow} {token tokenPrefix : String}

theorem literal_of_hex {c : Char} (hc : c ∈ hexDigits) : Literal c ∧ c.toLower = c := by
  have hall : ∀ c ∈ hexDigits, Literal c ∧ c.toLower = c := by
    simp [hexDigits, Literal]
  exact hall c hc

/-- The pattern takes the tokens that begin alike. -/
theorem like_beginning {t : SessionRow} (hs : Drawn s.token) (ht : Drawn t.token) :
    like ((beginning s).toList ++ ['%']) t.token.toList = true ↔ beginning t = beginning s := by
  have htaken : ∀ c ∈ (beginning s).toList, c ∈ hexDigits := by
    intro c hc
    rw [beginning, String.toList_ofList] at hc
    exact hs.2 c (List.mem_of_mem_take hc)
  rw [like_begins_lower (fun c hc => (literal_of_hex (htaken c hc)).1)
    (fun c hc => (literal_of_hex (htaken c hc)).2) fun c hc => (literal_of_hex (ht.2 c hc)).2,
    List.prefix_iff_eq_take, beginning, beginning, String.toList_ofList, List.length_take, hs.1,
    String.ofList_inj]
  exact eq_comm

/-! ## What is found -/

section Find

variable {α : Type} {r : α → α → Prop} {p : α → Bool} {l : List α} {x y : α}

/-- The first of a sorted list that has a property. -/
theorem rel_of_find?_eq_some (hl : l.Pairwise r) (hrefl : ∀ a, r a a)
    (hfind : l.find? p = some x) (hy : y ∈ l) (hp : p y = true) : r x y := by
  obtain ⟨-, before, rest, rfl, hbefore⟩ := List.find?_eq_some_iff_append.mp hfind
  rcases List.mem_append.mp hy with hearly | hlate
  · have hnot := hbefore y hearly
    rw [hp] at hnot
    cases hnot
  · rcases List.mem_cons.mp hlate with rfl | hrest
    · exact hrefl _
    · exact (List.pairwise_cons.mp (List.pairwise_append.mp hl).2.1).1 y hrest

end Find

theorem newestFirst_trans (a b c : SessionRow) (hab : newestFirst a b = true)
    (hbc : newestFirst b c = true) : newestFirst a c = true := by
  rw [newestFirst, decide_eq_true_eq] at hab hbc ⊢
  exact String.le_trans hbc hab

theorem newestFirst_total (a b : SessionRow) : (newestFirst a b || newestFirst b a) = true := by
  rw [Bool.or_eq_true, newestFirst, newestFirst, decide_eq_true_eq, decide_eq_true_eq]
  exact String.le_total _ _

theorem sorted_sessionsOfUser (db : Store.UserDb) (userId : Uuid) (now : DateTime) :
    (db.sessionsOfUser X userId now).Pairwise fun s t => t.createdAt ≤ s.createdAt := by
  rw [sessionsOfUser]
  refine (List.pairwise_mergeSort newestFirst_trans newestFirst_total _).imp ?_
  intro s t h
  exact of_decide_eq_true h

theorem sorted_sessionsOfAll (db : Store.UserDb) (now : DateTime) :
    (db.sessionsOfAll now).Pairwise fun p q => q.1.createdAt ≤ p.1.createdAt := by
  have htrans : ∀ p q r : SessionRow × UserRow, newestFirst p.1 q.1 = true →
      newestFirst q.1 r.1 = true → newestFirst p.1 r.1 = true :=
    fun p q r => newestFirst_trans p.1 q.1 r.1
  have htotal : ∀ p q : SessionRow × UserRow,
      (newestFirst p.1 q.1 || newestFirst q.1 p.1) = true :=
    fun p q => newestFirst_total p.1 q.1
  rw [sessionsOfAll]
  refine (List.pairwise_mergeSort htrans htotal _).imp ?_
  intro p q h
  exact of_decide_eq_true h

/-- Every session has a user, so the join loses none. -/
theorem visible_iff (hreferred : Referred db) :
    Visible X db user now s ↔
      if user.role.canManageUsers then ∃ u, (s, u) ∈ db.sessionsOfAll now
      else s ∈ db.sessionsOfUser X user.id now := by
  constructor
  · rintro ⟨hrow, hlive, hmine⟩
    split
    · obtain ⟨u, hu⟩ := Option.isSome_iff_exists.mp (hreferred.sessions s hrow)
      obtain ⟨hmem, hid⟩ := Table.get_eq_some.mp hu
      exact ⟨u, mem_sessionsOfAll.mpr ⟨hrow, hmem, hid.symm, hlive⟩⟩
    · next hrole =>
        exact mem_sessionsOfUser.mpr ⟨hrow, hmine.resolve_left hrole, hlive⟩
  · intro h
    split at h
    · next hrole =>
        obtain ⟨u, hmem⟩ := h
        obtain ⟨hrow, -, -, hlive⟩ := mem_sessionsOfAll.mp hmem
        exact ⟨hrow, hlive, .inl hrole⟩
    · obtain ⟨hrow, huser, hlive⟩ := mem_sessionsOfUser.mp h
      exact ⟨hrow, hlive, .inr huser⟩

/-- What the handler finds is the newest of what it may find. -/
theorem find_sessionsFor (R : Rfc3339Reader) (hreferred : Referred db) (user : User)
    (tokenPrefix : String) (now readAt : DateTime) :
    ((sessionsFor X R db user now readAt).find? (·.tokenPrefix == tokenPrefix) = none ∧
        ∀ s, Visible X db user now s → beginning s ≠ tokenPrefix) ∨
      ∃ s matched, (sessionsFor X R db user now readAt).find? (·.tokenPrefix == tokenPrefix) =
          some matched ∧ matched.userId = (X.uuidOfText s.userId).getD 0 ∧
        Visible X db user now s ∧ beginning s = tokenPrefix ∧
        ∀ t, Visible X db user now t → beginning t = tokenPrefix → t.createdAt ≤ s.createdAt := by
  rw [sessionsFor]
  -- Administrators see the sessions of all users, and others their own.
  cases hrole : user.role.canManageUsers with
  | true =>
      have hvisible : ∀ s, Visible X db user now s ↔ ∃ u, (s, u) ∈ db.sessionsOfAll now := by
        intro s
        rw [visible_iff hreferred, hrole, if_pos rfl]
      rw [if_pos rfl, listAllSessions, List.find?_map]
      cases hfind : (db.sessionsOfAll now).find? _ with
      | none =>
          refine .inl ⟨rfl, fun s hs hbegins => ?_⟩
          obtain ⟨u, hmem⟩ := (hvisible s).mp hs
          exact List.find?_eq_none.mp hfind (s, u) hmem (beq_iff_eq.mpr hbegins)
      | some p =>
          have hbegins' := List.find?_some hfind
          refine .inr ⟨p.1, _, rfl, rfl, (hvisible p.1).mpr ⟨p.2, List.mem_of_find?_eq_some hfind⟩,
            beq_iff_eq.mp hbegins', fun t ht hbegins => ?_⟩
          obtain ⟨u, hmem⟩ := (hvisible t).mp ht
          -- The list has the newest first, so the first that begins alike is the newest.
          exact rel_of_find?_eq_some (r := fun p q => q.1.createdAt ≤ p.1.createdAt)
            (sorted_sessionsOfAll db now) (fun _ => String.le_refl _) hfind hmem
            (beq_iff_eq.mpr hbegins)
  | false =>
      have hvisible : ∀ s, Visible X db user now s ↔ s ∈ db.sessionsOfUser X user.id now := by
        intro s
        rw [visible_iff hreferred, hrole, if_neg Bool.false_ne_true]
      rw [if_neg Bool.false_ne_true, listSessionsForUser, List.find?_map]
      cases hfind : (db.sessionsOfUser X user.id now).find? _ with
      | none =>
          refine .inl ⟨rfl, fun s hs hbegins => ?_⟩
          exact List.find?_eq_none.mp hfind s ((hvisible s).mp hs) (beq_iff_eq.mpr hbegins)
      | some s =>
          have hbegins' := List.find?_some hfind
          refine .inr ⟨s, _, rfl, rfl, (hvisible s).mpr (List.mem_of_find?_eq_some hfind),
            beq_iff_eq.mp hbegins', fun t ht hbegins => ?_⟩
          exact rel_of_find?_eq_some (r := fun s t => t.createdAt ≤ s.createdAt)
            (sorted_sessionsOfUser db user.id now) (fun _ => String.le_refl _) hfind
            ((hvisible t).mp ht) (beq_iff_eq.mpr hbegins)

/-! ## Runs -/

variable (X) in
/-- The constraints hold, and the tokens were drawn. -/
structure Sessions (db : Store.UserDb) : Prop where
  constrained : Constrained X db
  drawn : ∀ s ∈ db.sessions.rows, Drawn s.token

theorem sessions_step {e : UserEvent} (h : Sessions X db)
    (htoken : ∀ token ∈ e.sessionToken, Drawn token) : Sessions X (db.step X R e).1 := by
  refine ⟨constrained_step h.constrained e, fun s hs => ?_⟩
  rw [db.step_eq X R e] at hs
  rcases (rows_perform e).1 s hs with hold | hnew
  · exact h.drawn s ((purgesExpired_purged X e db).sessionRows s hold)
  · exact htoken s.token hnew

theorem sessions_afterCalls {calls : List UserEvent} (h : Sessions X db)
    (htokens : ∀ e ∈ calls, ∀ token ∈ e.sessionToken, Drawn token) :
    Sessions X (afterCalls X R db calls) := by
  rw [afterCalls]
  induction calls generalizing db with
  | nil => exact h
  | cons e calls ih =>
      exact ih (sessions_step h (htokens e List.mem_cons_self)) fun e' he' =>
        htokens e' (List.mem_cons_of_mem _ he')

/-- What is deleted for a session that was found. -/
theorem revokes_deleteSessionByPrefix (hs : Drawn s.token) (hdb' : Sessions X db') {id : Uuid}
    (hid : s.userId = X.uuidText id) :
    Revokes db' (db'.deleteSessionByPrefix X id (beginning s)) s := by
  refine ⟨rfl, rfl, fun t => ?_⟩
  rw [deleteSessionByPrefix, Table.mem_deleteWhere]
  refine and_congr_right fun ht => ?_
  rw [← Bool.not_eq_true, Bool.and_eq_true, beq_iff_eq, like_beginning hs (hdb'.drawn t ht), hid]

/-- **Revoking.**  Whatever calls are made before the handler and between its two accesses, it
    answers that there is no such session when the user may see no live session that begins
    so, and otherwise takes the newest of them with those of its user that begin alike. -/
theorem revokeSession_exact (X : External) (R : Rfc3339Reader) (calls later : List UserEvent)
    (hdrawn : ∀ e ∈ calls ++ later, ∀ token ∈ e.sessionToken, Drawn token) (user : User)
    (tokenPrefix : String) (now readAt : DateTime) :
    let db := afterCalls X R .fresh calls
    let db' := afterCalls X R db later
    (revokeSession X R db db' user tokenPrefix now readAt =
        (db', .error (.notFound "session not found")) ∧
      ∀ s, Visible X db user now s → beginning s ≠ tokenPrefix) ∨
    ∃ s out, revokeSession X R db db' user tokenPrefix now readAt = (out, .ok ()) ∧
      Visible X db user now s ∧ beginning s = tokenPrefix ∧
      (∀ t, Visible X db user now t → beginning t = tokenPrefix → t.createdAt ≤ s.createdAt) ∧
      Revokes db' out s := by
  intro db db'
  -- Tokens are drawn in both parts of the run.
  have hdb : Sessions X db := sessions_afterCalls
    ⟨constrained_fresh, fun _ hs => absurd hs List.not_mem_nil⟩ fun e he =>
      hdrawn e (List.mem_append_left _ he)
  have hdb' : Sessions X db' := sessions_afterCalls hdb fun e he =>
    hdrawn e (List.mem_append_right _ he)
  rw [revokeSession]
  rcases find_sessionsFor R hdb.constrained.referred user tokenPrefix now readAt with
    ⟨hnone, hall⟩ | ⟨s, matched, hsome, huser, hvisible, rfl, hnewest⟩
  · rw [hnone]
    exact .inl ⟨rfl, hall⟩
  · rw [hsome]
    refine .inr ⟨s, _, rfl, hvisible, rfl, hnewest, ?_⟩
    -- the id of the row is read back
    obtain ⟨u, hu⟩ := Option.isSome_iff_exists.mp
      (hdb.constrained.referred.sessions s hvisible.row)
    obtain ⟨hmem, hkey⟩ := Table.get_eq_some.mp hu
    obtain ⟨id, hid⟩ := hdb.constrained.wellKept.ids u hmem
    have hread : s.userId = X.uuidText id := hkey.symm.trans hid
    -- An id is written and read back the same.
    rw [huser, hread, X.uuid_roundTrip, Option.getD_some]
    exact revokes_deleteSessionByPrefix (hdb.drawn s hvisible.row) hdb' hread

/-! ## Samples -/

def hanna : User where
  id := 8
  username := "hanna"
  email := none
  passwordHash := none
  role := .viewer
  provider := .oidc
  providerSub := some "h-1"
  active := true
  createdAt := 0
  lastLogin := none

/-- A token whose first eight digits are fives. -/
def fivesToken (rest : Char) : String :=
  String.ofList (List.replicate 8 '5' ++ List.replicate 56 rest)

theorem drawn_fivesToken {rest : Char} (h : rest ∈ hexDigits) : Drawn (fivesToken rest) := by
  rw [Drawn, fivesToken, String.toList_ofList]
  refine ⟨by simp, fun c hc => ?_⟩
  rcases List.mem_append.mp hc with hfive | hrest
  · rw [List.eq_of_mem_replicate hfive]
    decide
  · rwa [List.eq_of_mem_replicate hrest]

/-- Hanna signs in twice, and both tokens begin alike. -/
def hannaSignsIn : List UserEvent :=
  [⟨.create hanna, 0, 0⟩, ⟨.createSession 8 8 (fivesToken '5'), 0, 0⟩,
    ⟨.createSession 8 8 (fivesToken '6'), 1, 1⟩]

/-- Between the two accesses another session is revoked, and she signs in once more. -/
def hannaBetween : List UserEvent :=
  [⟨.deleteSessionByPrefix 8 "77777777", 2, 2⟩, ⟨.createSession 8 8 (fivesToken '7'), 3, 3⟩]

theorem drawn_hanna : ∀ e ∈ hannaSignsIn ++ hannaBetween, ∀ token ∈ e.sessionToken, Drawn token := by
  have hfive : Drawn (fivesToken '5') := drawn_fivesToken (by decide)
  have hsix : Drawn (fivesToken '6') := drawn_fivesToken (by decide)
  have hseven : Drawn (fivesToken '7') := drawn_fivesToken (by decide)
  simp only [hannaSignsIn, hannaBetween, List.cons_append, List.nil_append, List.forall_mem_cons,
    UserEvent.sessionToken]
  simp [hfive, hsix, hseven]

theorem visible_hanna :
    ∃ s, Visible .sample (afterCalls .sample .sample .fresh hannaSignsIn) hanna 4 s ∧
      beginning s = "55555555" := by
  refine ⟨⟨fivesToken '5', External.sample.uuidText 8, toRfc3339 0, toRfc3339 28800000000000⟩,
    ⟨?_, by decide, .inr rfl⟩, ?_⟩
  · decide
  · rw [beginning, fivesToken, String.toList_ofList]
    rfl

theorem revokeSession_exact_hanna :
    ∃ s out, revokeSession .sample .sample (afterCalls .sample .sample .fresh hannaSignsIn)
          (afterCalls .sample .sample (afterCalls .sample .sample .fresh hannaSignsIn) hannaBetween)
          hanna "55555555" 4 4 = (out, .ok ()) ∧
      Visible .sample (afterCalls .sample .sample .fresh hannaSignsIn) hanna 4 s ∧
      beginning s = "55555555" ∧
      (∀ t, Visible .sample (afterCalls .sample .sample .fresh hannaSignsIn) hanna 4 t →
        beginning t = "55555555" → t.createdAt ≤ s.createdAt) ∧
      Revokes (afterCalls .sample .sample
        (afterCalls .sample .sample .fresh hannaSignsIn) hannaBetween) out s := by
  refine (revokeSession_exact .sample .sample hannaSignsIn hannaBetween drawn_hanna hanna
    "55555555" 4 4).resolve_left fun hnone => ?_
  obtain ⟨s, hs, hbegins⟩ := visible_hanna
  exact hnone.2 s hs hbegins

end Maranode.Api
