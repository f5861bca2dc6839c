/-
  Maranode.Store.Rotation

  `rotate_kek`: the keys of the workspaces are unwrapped under one master key and wrapped
  under another, row by row, outside a transaction.

  A row is rewritten as long as no row up to it fails (`dek_rotateRows`).  The database
  object takes the new master key at the end only, so after an error the rows that were
  rewritten are under a key it does not hold.
-/
import Maranode.Store.Allowlist

namespace Maranode.Store

open Lib

/-- One call: its two keys, what `OsRng` fills for each row, and the error SQLite has for
    each statement that it refuses, the SELECT being the first. -/
structure Rotation where
  oldKek : Kek
  newKek : Kek
  nonce : Nat → ByteArr 12
  refused : Nat → Option String

/-- `SELECT slug, dek FROM workspaces WHERE dek IS NOT NULL`. -/
def Table.storedDeks (t : Table) : List (String × String) :=
  t.rows.filterMap fun row => row.dek.map fun dek => (row.slug, dek)

variable (G : Aead) (R : Rotation)

/-- The loop of `rotate_all`, after `rotated` rows. -/
def rotateRows (rotated : Nat) (t : Table) : List (String × String) → Except String Nat × Table
  | [] => (.ok rotated, t)
  | (slug, stored) :: rows =>
      match rewrapDek G (R.nonce rotated) R.oldKek R.newKek stored with
      | .error e => (.error e, t)
      | .ok newWrapped =>
          match R.refused (rotated + 1) with
          | some e => (.error e, t)
          | none => rotateRows (rotated + 1) (t.setDek slug (some newWrapped)) rows

def rotateAll (t : Table) : Except String Nat × Table :=
  match R.refused 0 with
  | some e => (.error e, t)
  | none => rotateRows G R 0 t t.storedDeks

def WorkspaceDb.rotateKek (db : WorkspaceDb) : Except String Nat × WorkspaceDb :=
  match rotateAll G R db.conn with
  | (.ok rotated, conn) => (.ok rotated, ⟨conn, some R.newKek⟩)
  | (.error e, conn) => (.error e, ⟨conn, db.kek⟩)

/-! ## The stored key of a workspace -/

theorem Table.find_of_mem {t : Table} {row : Row} (h : row ∈ t.rows) :
    t.find row.slug = some row := by
  have hslugs := t.slugs
  rw [find]
  revert h hslugs
  generalize t.rows = rows
  intro h hslugs
  induction rows with
  | nil => cases h
  | cons first rows ih =>
      rw [List.map_cons, List.nodup_cons] at hslugs
      rcases List.mem_cons.mp h with rfl | h
      · exact List.find?_cons_of_pos (beq_self_eq_true row.slug)
      · have hne : first.slug ≠ row.slug := fun heq =>
          hslugs.1 (heq ▸ List.mem_map_of_mem h)
        rw [List.find?_cons_of_neg (by simpa using hne)]
        exact ih h hslugs.2

/-- The SELECT has the stored keys of the workspaces. -/
theorem Table.mem_storedDeks {t : Table} {slug stored : String} :
    (slug, stored) ∈ t.storedDeks ↔ t.dek slug = some stored := by
  rw [storedDeks, List.mem_filterMap]
  constructor
  · rintro ⟨row, hrow, heq⟩
    obtain ⟨dek, hdek, heq⟩ := Option.map_eq_some_iff.mp heq
    obtain ⟨rfl, rfl⟩ := Prod.mk.inj heq
    rw [Table.dek, find_of_mem hrow, Option.bind_some, hdek]
  · intro h
    obtain ⟨row, hfind, hdek⟩ := Option.bind_eq_some_iff.mp h
    refine ⟨row, List.mem_of_find?_eq_some hfind, ?_⟩
    rw [hdek, Option.map_some, slug_of_find hfind]

theorem Table.nodup_storedDeks (t : Table) : (t.storedDeks.map Prod.fst).Nodup := by
  have hsub : (t.storedDeks.map Prod.fst).Sublist (t.rows.map (·.slug)) := by
    rw [storedDeks]
    induction t.rows with
    | nil => exact List.Sublist.refl _
    | cons row rows ih =>
        cases hdek : row.dek with
        | none =>
            rw [List.filterMap_cons_none (by rw [hdek, Option.map_none])]
            exact ih.cons _
        | some dek =>
            rw [List.filterMap_cons_some (by rw [hdek, Option.map_some])]
            exact ih.cons_cons _
  exact hsub.nodup t.slugs

/-! ## The rows that are rewritten -/

/-- The row fails: its key cannot be unwrapped or wrapped, or SQLite refuses to write it. -/
def RowFails (rotated : Nat) (stored : String) : Prop :=
  R.refused (rotated + 1) ≠ none ∨
    ∃ e, rewrapDek G (R.nonce rotated) R.oldKek R.newKek stored = .error e

/-- Some row up to the `j`th fails. -/
def FailsUpTo (rotated : Nat) (rows : List (String × String)) (j : Nat) : Prop :=
  ∃ i ≤ j, ∃ row, rows[i]? = some row ∧ RowFails G R (rotated + i) row.2

variable {G R}

theorem failsUpTo_cons_of_fails {rotated j : Nat} {slug stored : String}
    {rows : List (String × String)} (h : RowFails G R rotated stored) :
    FailsUpTo G R rotated ((slug, stored) :: rows) j :=
  ⟨0, Nat.zero_le j, (slug, stored), rfl, h⟩

theorem failsUpTo_zero_iff {rotated : Nat} {slug stored : String} {rows : List (String × String)} :
    FailsUpTo G R rotated ((slug, stored) :: rows) 0 ↔ RowFails G R rotated stored := by
  constructor
  · rintro ⟨i, hi, row, hrow, hfails⟩
    obtain rfl := Nat.le_zero.mp hi
    obtain rfl := Option.some.inj hrow
    exact hfails
  · exact failsUpTo_cons_of_fails

/-- Behind a row that does not fail, the later ones count. -/
theorem failsUpTo_succ_iff {rotated j : Nat} {slug stored : String}
    {rows : List (String × String)} (h : ¬ RowFails G R rotated stored) :
    FailsUpTo G R rotated ((slug, stored) :: rows) (j + 1) ↔
      FailsUpTo G R (rotated + 1) rows j := by
  constructor
  · rintro ⟨i, hi, row, hrow, hfails⟩
    cases i with
    | zero =>
        obtain rfl := Option.some.inj hrow
        exact absurd hfails h
    | succ i =>
        refine ⟨i, Nat.le_of_succ_le_succ hi, row, hrow, ?_⟩
        rwa [show rotated + 1 + i = rotated + (i + 1) by omega]
  · rintro ⟨i, hi, row, hrow, hfails⟩
    refine ⟨i + 1, Nat.succ_le_succ hi, row, hrow, ?_⟩
    rwa [show rotated + (i + 1) = rotated + 1 + i by omega]

/-- One step of the loop: the row fails and ends it, or it is rewritten. -/
theorem rotateRows_cons (rotated : Nat) (t : Table) (slug stored : String)
    (rows : List (String × String)) :
    (RowFails G R rotated stored ∧
      ∃ e, rotateRows G R rotated t ((slug, stored) :: rows) = (.error e, t)) ∨
    ¬ RowFails G R rotated stored ∧ ∃ newWrapped,
      rewrapDek G (R.nonce rotated) R.oldKek R.newKek stored = .ok newWrapped ∧
      rotateRows G R rotated t ((slug, stored) :: rows)
        = rotateRows G R (rotated + 1) (t.setDek slug (some newWrapped)) rows := by
  rw [rotateRows]
  cases hwrap : rewrapDek G (R.nonce rotated) R.oldKek R.newKek stored with
  | error e => exact .inl ⟨.inr ⟨e, hwrap⟩, e, rfl⟩
  | ok newWrapped =>
      cases hrefused : R.refused (rotated + 1) with
      | some e => exact .inl ⟨.inl (hrefused ▸ Option.some_ne_none e), e, rfl⟩
      | none =>
          refine .inr ⟨?_, newWrapped, rfl, rfl⟩
          rintro (hfails | ⟨e, hfails⟩)
          · exact hfails hrefused
          · rw [hwrap] at hfails
            cases hfails

/-- The loop succeeds unless some row fails. -/
theorem rotateRows_fst (rotated : Nat) (t : Table) (rows : List (String × String)) :
    (∃ n, (rotateRows G R rotated t rows).1 = .ok n) ↔
      ∀ j, ¬ FailsUpTo G R rotated rows j := by
  induction rows generalizing rotated t with
  | nil =>
      refine ⟨fun _ j hfails => ?_, fun _ => ⟨rotated, rfl⟩⟩
      obtain ⟨i, -, row, hrow, -⟩ := hfails
      cases hrow
  | cons row rows ih =>
      obtain ⟨slug, stored⟩ := row
      obtain ⟨hfails, e, heq⟩ | ⟨hok, newWrapped, -, heq⟩ :=
        rotateRows_cons (G := G) (R := R) rotated t slug stored rows
      · rw [heq]
        constructor
        · rintro ⟨n, hn⟩
          cases hn
        · intro h
          exact absurd (failsUpTo_zero_iff.mpr hfails) (h 0)
      · rw [heq, ih]
        constructor
        · intro h j
          cases j with
          | zero => exact fun hfails => hok (failsUpTo_zero_iff.mp hfails)
          | succ j => exact fun hfails => h j ((failsUpTo_succ_iff hok).mp hfails)
        · exact fun h j hfails => h (j + 1) ((failsUpTo_succ_iff hok).mpr hfails)

/-- A workspace the loop does not come to keeps its key. -/
theorem dek_rotateRows_of_notMem {rotated : Nat} {t : Table} {rows : List (String × String)}
    {slug : String} (h : slug ∉ rows.map Prod.fst) :
    (rotateRows G R rotated t rows).2.dek slug = t.dek slug := by
  induction rows generalizing rotated t with
  | nil => rfl
  | cons row rows ih =>
      obtain ⟨slug', stored⟩ := row
      rw [List.map_cons, List.mem_cons, not_or] at h
      obtain ⟨-, e, heq⟩ | ⟨-, newWrapped, -, heq⟩ :=
        rotateRows_cons (G := G) (R := R) rotated t slug' stored rows
      · rw [heq]
      · rw [heq, ih h.2, Table.dek_setDek_of_ne h.1]

/-- A row is rewritten unless a row up to it fails. -/
theorem dek_rotateRows {rotated j : Nat} {t : Table} {rows : List (String × String)}
    {slug stored : String} (hnodup : (rows.map Prod.fst).Nodup)
    (hrows : ∀ row ∈ rows, t.dek row.1 = some row.2) (hrow : rows[j]? = some (slug, stored)) :
    (FailsUpTo G R rotated rows j ∧
      (rotateRows G R rotated t rows).2.dek slug = some stored) ∨
    ¬ FailsUpTo G R rotated rows j ∧ ∃ newWrapped,
      rewrapDek G (R.nonce (rotated + j)) R.oldKek R.newKek stored = .ok newWrapped ∧
      (rotateRows G R rotated t rows).2.dek slug = some newWrapped := by
  -- The induction is on the rows; `rotated` counts those that are rewritten already.
  induction rows generalizing rotated t j with
  | nil => cases hrow
  | cons row rows ih =>
      obtain ⟨slug', stored'⟩ := row
      rw [List.map_cons, List.nodup_cons] at hnodup
      obtain ⟨hfirst, hrest⟩ := List.forall_mem_cons.mp hrows
      obtain ⟨hfails, e, heq⟩ | ⟨hok, newWrapped, hwrap, heq⟩ :=
        rotateRows_cons (G := G) (R := R) rotated t slug' stored' rows
      -- The first row fails, and the loop stops with the rest unread.
      · rw [heq]
        exact .inl ⟨failsUpTo_cons_of_fails hfails, hrows _ (List.mem_of_getElem? hrow)⟩
      · rw [heq]
        cases j with
        | zero =>
            -- The row itself is rewritten, and the later ones are other workspaces.
            obtain ⟨rfl, rfl⟩ := Prod.mk.inj (Option.some.inj hrow)
            refine .inr ⟨fun hfails => hok (failsUpTo_zero_iff.mp hfails), newWrapped, hwrap, ?_⟩
            rw [dek_rotateRows_of_notMem hnodup.1, Table.dek_setDek_of_dek hfirst]
        -- A later row: the first one is another workspace, so its key is not touched.
        | succ j =>
            have hrest' : ∀ row ∈ rows, (t.setDek slug' (some newWrapped)).dek row.1
                = some row.2 := fun row hmem => by
              have hmem' : row.1 ∈ rows.map Prod.fst := List.mem_map_of_mem hmem
              have hne : row.1 ≠ slug' := fun heq => hnodup.1 (heq ▸ hmem')
              rw [Table.dek_setDek_of_ne hne, hrest row hmem]
            rw [failsUpTo_succ_iff hok, show rotated + (j + 1) = rotated + 1 + j by omega]
            exact ih hnodup.2 hrest' hrow

/-! ## The keys after a rotation -/

/-- Every workspace whose key could be read has the same key. -/
def KeysKept (G : Aead) (db db' : WorkspaceDb) : Prop :=
  ∀ slug key, db.getDekBytes G slug = .ok key → db'.getDekBytes G slug = .ok key

/-- The rotation leaves no mixture that cannot be read: nothing is written, or nothing
    fails, or the object holds the new master key already, or no workspace whose key can be
    read comes before the first row that fails. -/
def Undivided (G : Aead) (R : Rotation) (db : WorkspaceDb) : Prop :=
  R.refused 0 ≠ none ∨ (∀ j, ¬ FailsUpTo G R 0 db.conn.storedDeks j) ∨
    db.kek = some R.newKek ∨
    ∀ j slug stored, db.conn.storedDeks[j]? = some (slug, stored) →
      (∃ key, db.getDekBytes G slug = .ok key) → FailsUpTo G R 0 db.conn.storedDeks j

section Keys

variable {db : WorkspaceDb} {kek : Option Kek} {stored hex newWrapped : String}
  {nonce : ByteArr 12} {oldKek newKek : Kek}

open WorkspaceDb

theorem getDekBytes_congr {db' : WorkspaceDb} {slug : String}
    (hdek : db'.conn.dek slug = db.conn.dek slug) (hkek : db'.kek = db.kek) :
    db'.getDekBytes G slug = db.getDekBytes G slug := by
  rw [getDekBytes, getDekBytes, hdek, hkek]

/-- What a row is rewritten to reads under the new master key as the row did under the old. -/
theorem dekHex_of_rewrapDek (h : rewrapDek G nonce oldKek newKek stored = .ok newWrapped) :
    ∃ hex, dekHex G (some oldKek) stored = .ok hex ∧
      dekHex G (some newKek) newWrapped = .ok hex ∧
      wrapDek G nonce newKek hex = .ok newWrapped := by
  rw [rewrapDek] at h
  change (dekHex G (some oldKek) stored).bind (fun hex => wrapDek G nonce newKek hex) = _ at h
  cases hhex : dekHex G (some oldKek) stored with
  | error e =>
      rw [hhex] at h
      cases h
  | ok hex =>
      rw [hhex] at h
      refine ⟨hex, rfl, ?_, h⟩
      obtain ⟨hwrapped, -⟩ := unwrapDek_wrapDek newKek h
      rw [dekHex, if_pos hwrapped]
      exact unwrapDek_same h

/-- What can be read under two master keys is the same under both. -/
theorem dekHex_eq {kek' : Option Kek} {hex' : String} (h : dekHex G kek stored = .ok hex)
    (h' : dekHex G kek' stored = .ok hex') : hex' = hex := by
  unfold dekHex at h h'
  split at h
  · next hwrapped =>
      rw [if_pos hwrapped] at h'
      rcases kek with - | kek
      · cases h
      rcases kek' with - | kek'
      · cases h'
      obtain rfl := eq_of_unwrapDek h h'
      exact Except.ok.inj (h'.symm.trans h)
  · next hplain =>
      rw [if_neg hplain] at h'
      exact Except.ok.inj (h'.symm.trans h)

/-- A rewritten row reads under the new master key as before. -/
theorem dekHex_bind_rewritten {key : Option (ByteArr 32)}
    (h : rewrapDek G nonce oldKek newKek stored = .ok newWrapped)
    (hread : (dekHex G kek stored).bind decodeDek = .ok key) :
    (dekHex G (some newKek) newWrapped).bind decodeDek = .ok key := by
  obtain ⟨hex, hold, hnew, -⟩ := dekHex_of_rewrapDek h
  cases hhex : dekHex G kek stored with
  | error e =>
      rw [hhex] at hread
      cases hread
  | ok hex' =>
      rw [hnew, dekHex_eq hhex hold, ← hhex]
      exact hread

/-- Under no other master key does a rewritten row read. -/
theorem eq_newKek_of_rewritten {key : Option (ByteArr 32)}
    (h : rewrapDek G nonce oldKek newKek stored = .ok newWrapped)
    (hread : (dekHex G kek newWrapped).bind decodeDek = .ok key) : kek = some newKek := by
  obtain ⟨hex, -, -, hwrap⟩ := dekHex_of_rewrapDek h
  obtain ⟨hwrapped, -⟩ := unwrapDek_wrapDek newKek hwrap
  unfold dekHex at hread
  rw [if_pos hwrapped] at hread
  rcases kek with - | kek
  · cases hread
  · change (unwrapDek G kek newWrapped).bind decodeDek = .ok key at hread
    cases hunwrap : unwrapDek G kek newWrapped with
    | error e =>
        rw [hunwrap] at hread
        cases hread
    | ok hex' => rw [eq_of_unwrapDek_wrapDek hwrap hunwrap]

end Keys

/-! ## Every point of failure -/

section Points

variable {db : WorkspaceDb}

open WorkspaceDb

theorem rotateKek_of_refused (h : R.refused 0 ≠ none) :
    ∃ e, db.rotateKek G R = (.error e, db) := by
  obtain ⟨e, he⟩ := Option.ne_none_iff_exists'.mp h
  exact ⟨e, by rw [rotateKek, rotateAll, he]⟩

theorem rotateKek_of_ok (hselect : R.refused 0 = none)
    (h : ∀ j, ¬ FailsUpTo G R 0 db.conn.storedDeks j) :
    ∃ n, db.rotateKek G R =
      (.ok n, ⟨(rotateRows G R 0 db.conn db.conn.storedDeks).2, some R.newKek⟩) := by
  obtain ⟨n, hn⟩ := (rotateRows_fst 0 db.conn db.conn.storedDeks).mpr h
  refine ⟨n, ?_⟩
  rw [rotateKek, rotateAll, hselect]
  cases hrun : rotateRows G R 0 db.conn db.conn.storedDeks with
  | mk result conn =>
      obtain rfl : result = .ok n := by rw [← hn, hrun]
      rfl

theorem rotateKek_of_fails (hselect : R.refused 0 = none) {j : Nat}
    (h : FailsUpTo G R 0 db.conn.storedDeks j) :
    ∃ e, db.rotateKek G R =
      (.error e, ⟨(rotateRows G R 0 db.conn db.conn.storedDeks).2, db.kek⟩) := by
  have hnot : ¬ ∃ n, (rotateRows G R 0 db.conn db.conn.storedDeks).1 = .ok n := fun hn =>
    (rotateRows_fst 0 db.conn db.conn.storedDeks).mp hn j h
  rw [rotateKek, rotateAll, hselect]
  cases hrun : rotateRows G R 0 db.conn db.conn.storedDeks with
  | mk result conn =>
      cases result with
      | ok n => exact absurd ⟨n, by rw [hrun]⟩ hnot
      | error e => exact ⟨e, rfl⟩

/-- The rows of the table, one by one, after the loop. -/
theorem dek_rotateRows_storedDeks {slug stored : String} {j : Nat}
    (hrow : db.conn.storedDeks[j]? = some (slug, stored)) :
    (FailsUpTo G R 0 db.conn.storedDeks j ∧
      (rotateRows G R 0 db.conn db.conn.storedDeks).2.dek slug = db.conn.dek slug) ∨
    ¬ FailsUpTo G R 0 db.conn.storedDeks j ∧ ∃ newWrapped,
      rewrapDek G (R.nonce j) R.oldKek R.newKek stored = .ok newWrapped ∧
      (rotateRows G R 0 db.conn db.conn.storedDeks).2.dek slug = some newWrapped := by
  have hrows : ∀ row ∈ db.conn.storedDeks, db.conn.dek row.1 = some row.2 := fun row hmem =>
    Table.mem_storedDeks.mp hmem
  have h := @dek_rotateRows G R 0 j _ _ _ _ db.conn.nodup_storedDeks hrows hrow
  rw [Nat.zero_add] at h
  rw [hrows _ (List.mem_of_getElem? hrow)]
  exact h

/-- A workspace without a stored key stays without. -/
theorem dek_rotateRows_of_none {slug : String} (h : db.conn.dek slug = none) :
    (rotateRows G R 0 db.conn db.conn.storedDeks).2.dek slug = none := by
  rw [dek_rotateRows_of_notMem, h]
  intro hmem
  obtain ⟨⟨slug', stored⟩, hrow, rfl⟩ := List.mem_map.mp hmem
  rw [Table.mem_storedDeks.mp hrow] at h
  cases h

/-- A rewritten row reads under the new master key as the workspace did before. -/
theorem getDekBytes_rewritten {slug stored newWrapped : String} {conn : Table}
    {key : Option (ByteArr 32)} {nonce : ByteArr 12} (hdek : db.conn.dek slug = some stored)
    (hwrap : rewrapDek G nonce R.oldKek R.newKek stored = .ok newWrapped)
    (hnew : conn.dek slug = some newWrapped) (h : db.getDekBytes G slug = .ok key) :
    getDekBytes G ⟨conn, some R.newKek⟩ slug = .ok key := by
  rw [getDekBytes, hdek] at h
  rw [getDekBytes, hnew]
  exact dekHex_bind_rewritten hwrap h

/-- With the new master key every row that was rewritten reads, so all is well when every
    row was, or when that key was held before. -/
theorem keysKept_of_newKek (hkek : db.kek = some R.newKek ∨
      ∀ j, ¬ FailsUpTo G R 0 db.conn.storedDeks j) :
    KeysKept G db ⟨(rotateRows G R 0 db.conn db.conn.storedDeks).2, some R.newKek⟩ := by
  intro slug key h
  cases hdek : db.conn.dek slug with
  | none =>
      rw [getDekBytes, hdek] at h
      rw [getDekBytes, dek_rotateRows_of_none hdek]
      exact h
  | some stored =>
      obtain ⟨j, hrow⟩ := List.getElem?_of_mem (Table.mem_storedDeks.mpr hdek)
      obtain ⟨hfails, hsame⟩ | ⟨-, newWrapped, hwrap, hnew⟩ := dek_rotateRows_storedDeks hrow
      · have hold : db.kek = some R.newKek := hkek.resolve_right fun hnone => hnone j hfails
        exact (getDekBytes_congr hsame hold.symm).trans h
      · exact getDekBytes_rewritten hdek hwrap hnew h

/-- With the old master key the rows that were not come to read as before. -/
theorem keysKept_of_oldKek (hrows : ∀ j slug stored,
      db.conn.storedDeks[j]? = some (slug, stored) →
      (∃ key, db.getDekBytes G slug = .ok key) → FailsUpTo G R 0 db.conn.storedDeks j) :
    KeysKept G db ⟨(rotateRows G R 0 db.conn db.conn.storedDeks).2, db.kek⟩ := by
  intro slug key h
  have hsame : (rotateRows G R 0 db.conn db.conn.storedDeks).2.dek slug = db.conn.dek slug := by
    cases hdek : db.conn.dek slug with
    | none => exact dek_rotateRows_of_none hdek
    | some stored =>
        obtain ⟨j, hrow⟩ := List.getElem?_of_mem (Table.mem_storedDeks.mpr hdek)
        have hfails := hrows j slug stored hrow ⟨key, h⟩
        obtain ⟨-, hsame⟩ | ⟨hnot, -⟩ := dek_rotateRows_storedDeks hrow
        · exact hsame.trans hdek
        · exact absurd hfails hnot
  have hread : getDekBytes G ⟨(rotateRows G R 0 db.conn db.conn.storedDeks).2, db.kek⟩ slug
      = db.getDekBytes G slug := getDekBytes_congr hsame rfl
  exact hread.trans h

/-- A row that was rewritten before another one failed cannot be read any more. -/
theorem not_keysKept {i j : Nat} {slug stored : String} (hselect : R.refused 0 = none)
    (hi : FailsUpTo G R 0 db.conn.storedDeks i)
    (hrow : db.conn.storedDeks[j]? = some (slug, stored))
    (hread : ∃ key, db.getDekBytes G slug = .ok key)
    (hj : ¬ FailsUpTo G R 0 db.conn.storedDeks j) (hkek : db.kek ≠ some R.newKek) :
    ¬ KeysKept G db (db.rotateKek G R).2 := by
  intro hkept
  obtain ⟨key, hread⟩ := hread
  obtain ⟨e, hrun⟩ := rotateKek_of_fails hselect hi
  obtain ⟨hfails, -⟩ | ⟨-, newWrapped, hwrap, hnew⟩ := dek_rotateRows_storedDeks hrow
  · exact hj hfails
  · have hafter := hkept slug key hread
    rw [hrun, getDekBytes, hnew] at hafter
    exact hkek (eq_newKek_of_rewritten hwrap hafter)

/-- **Rotating the master key.**  Whatever the workspaces hold and wherever a step fails, the
    keys that could be read can be read with the master key that is held then, exactly when
    the rotation leaves no mixture. -/
theorem rotateKek_keeps_iff (G : Aead) (R : Rotation) (db : WorkspaceDb) :
    KeysKept G db (db.rotateKek G R).2 ↔ Undivided G R db := by
  rw [Undivided]
  by_cases hselect : R.refused 0 = none
  · by_cases hfails : ∀ j, ¬ FailsUpTo G R 0 db.conn.storedDeks j
    · obtain ⟨n, hrun⟩ := rotateKek_of_ok hselect hfails
      rw [hrun]
      exact iff_of_true (keysKept_of_newKek (.inr hfails)) (.inr (.inl hfails))
    · obtain ⟨i, hi⟩ := not_forall_not.mp hfails
      constructor
      · intro hkept
        by_cases hkek : db.kek = some R.newKek
        · exact .inr (.inr (.inl hkek))
        · refine .inr (.inr (.inr fun j slug stored hrow hread => ?_))
          by_contra hj
          exact not_keysKept hselect hi hrow hread hj hkek hkept
      · obtain ⟨e, hrun⟩ := rotateKek_of_fails hselect hi
        rw [hrun]
        rintro (hrefused | hnone | hkek | hrows)
        · exact absurd hselect hrefused
        · exact absurd hi (hnone i)
        · rw [hkek]
          exact keysKept_of_newKek (.inl hkek)
        · exact keysKept_of_oldKek hrows
  · have hrefused : ∃ e, db.rotateKek G R = (.error e, db) := rotateKek_of_refused hselect
    obtain ⟨e, hrun⟩ := hrefused
    rw [hrun]
    exact iff_of_true (fun _ _ h => h) (.inl hselect)

end Points

theorem nodup_clinicIds : ["1", "2"].Nodup := by decide

theorem nodup_clinicSlugs : ["north", "south"].Nodup := by decide

/-- Two workspaces with legacy keys, under a master key. -/
def twoClinics : WorkspaceDb where
  conn :=
    { rows := [{ WorkspaceDb.newRow External.sample (clinic []) (WorkspaceDb.generateDek .zero)
          with id := "1", slug := "north" },
        { WorkspaceDb.newRow External.sample (clinic []) (WorkspaceDb.generateDek .zero)
          with id := "2", slug := "south" }]
      ids := nodup_clinicIds
      slugs := nodup_clinicSlugs }
  kek := some (filled 32 0)

/-- A rotation in which SQLite refuses to write the second row. -/
def refusedSecond : Rotation where
  oldKek := filled 32 0
  newKek := filled 32 1
  nonce := fun _ => filled 12 0
  refused := fun n => if n = 2 then some "database or disk is full" else none

/-- The first workspace is under the new master key, and the old one is held. -/
theorem not_keysKept_twoClinics :
    ¬ KeysKept Aead.sample twoClinics (twoClinics.rotateKek Aead.sample refusedSecond).2 := by
  have hstored : twoClinics.conn.storedDeks =
      [("north", WorkspaceDb.generateDek .zero), ("south", WorkspaceDb.generateDek .zero)] := rfl
  have hread : twoClinics.getDekBytes Aead.sample "north"
      = .ok (some WorkspaceDb.Random.zero.dek) := by
    have hdek : twoClinics.conn.dek "north" = some (WorkspaceDb.generateDek .zero) := rfl
    rw [WorkspaceDb.getDekBytes, hdek]
    exact WorkspaceDb.decodeDek_generateDek .zero
  have hfirst : ¬ RowFails Aead.sample refusedSecond 0 (WorkspaceDb.generateDek .zero) := by
    rintro (hrefused | ⟨e, hwrap⟩)
    · exact hrefused rfl
    · cases hwrap
  have hsecond : FailsUpTo Aead.sample refusedSecond 0 twoClinics.conn.storedDeks 1 := by
    rw [hstored]
    exact ⟨1, Nat.le_refl 1, _, rfl, .inl (Option.some_ne_none _)⟩
  have hrow : twoClinics.conn.storedDeks[0]? = some ("north", WorkspaceDb.generateDek .zero) := by
    rw [hstored]
    rfl
  refine not_keysKept rfl hsecond hrow ⟨_, hread⟩ ?_ (by decide)
  rw [hstored]
  exact fun hfails => hfirst (failsUpTo_zero_iff.mp hfails)

end Maranode.Store
