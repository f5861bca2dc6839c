/-
  Maranode.Api.HoldPlacement

  `routes/hold.rs`: hold ids.

  The id of a hold is the second it is placed in.  A hold placed in the same second
  as an earlier one takes its file, and so does a save that is cut off.
-/
import Maranode.Api.HoldStore
import Maranode.Lib.Run

namespace Maranode.Api

open Lib

variable (X : External) (E : Ed25519)

/-! ## Placing through the API -/

structure PlaceRequest where
  reason : String
  seqFrom : Nat
  seqTo : Nat
  expiresAt : Option DateTime
  keyHex : Option String
  tpmSeal : Bool
  tpmPassphrase : Option String

/-- The two clock readings of a placement: the one the id is made of and
    `placed_at`. -/
structure PlaceClock where
  id : DateTime
  placedAt : DateTime

/-- Whole seconds since the epoch, none before it. -/
def epochSeconds (t : DateTime) : Nat := t.toNat / 1000000000

def holdIdOf (secs : Nat) : String := "HOLD-" ++ String.ofList (Nat.toDigits 16 secs)

/-- `new_hold_id`. -/
def newHoldId (t : DateTime) : String := holdIdOf (epochSeconds t)

/-- The key a placement is signed with: the request's, or the one sealed in the TPM,
    which `unsealed` gives for a passphrase. -/
def placeKeyHex (req : PlaceRequest) (unsealed : String → Except String Bytes) :
    Except String (Option String) :=
  if req.tpmSeal && req.keyHex.isNone then
    (unsealed (req.tpmPassphrase.getD "")).map fun bytes => some (String.ofList (Hex.encode bytes))
  else .ok req.keyHex

/-- `place`, up to the save in `place_hold`. -/
def newRecord (d : HoldDir) (username : String) (req : PlaceRequest)
    (unsealed : String → Except String Bytes) (clk : PlaceClock) : Except String HoldRecord := do
  if req.seqTo < req.seqFrom then
    .error "seq_to must be >= seq_from"
  else
    let keyHex ← placeKeyHex req unsealed
    placeRecord X E d
      { holdId := newHoldId clk.id
        placedBy := username
        reason := req.reason
        seqFrom := req.seqFrom
        seqTo := req.seqTo
        expiresAt := req.expiresAt
        signingKeyHex := keyHex
        tpmSealed := req.tpmSeal }
      clk.placedAt

/-- `place`. -/
def place (d : HoldDir) (username : String) (req : PlaceRequest)
    (unsealed : String → Except String Bytes) (clk : PlaceClock) (w : RecordWrite) :
    HoldDir × Except String HoldRecord :=
  saveRecord d w (newRecord X E d username req unsealed clk)

/-- A placement that was answered with `hold_id`. -/
structure Placed where
  req : PlaceRequest
  clk : PlaceClock
  holdId : String

/-- The directory, and the placements that succeeded. -/
structure HoldServer where
  dir : HoldDir
  placed : List Placed

def HoldServer.empty : HoldServer where
  dir := HoldDir.empty
  placed := []

/-- A request, with how each of its writes ends. -/
inductive HoldRequest where
  | generateKey (key : ByteArr 32) (pubFault keyFault : FileWrite.Fault)
  | place (username : String) (req : PlaceRequest) (unsealed : String → Except String Bytes)
      (clk : PlaceClock) (w : RecordWrite)
  | release (holdId username releaseSigB64 : String) (clk : ReleaseClock) (w : RecordWrite)

def HoldServer.next (s : HoldServer) : HoldRequest → HoldServer
  | .generateKey key pubFault keyFault =>
      { s with dir := (generateHoldKey E s.dir key pubFault keyFault).1 }
  | .place username req unsealed clk w =>
      match Api.place X E s.dir username req unsealed clk w with
      | (dir, .ok record) => { dir, placed := s.placed ++ [⟨req, clk, record.id⟩] }
      | (dir, .error _) => { s with dir }
  | .release holdId username sigB64 clk w =>
      { s with dir := (releaseHold X E s.dir holdId username sigB64 clk w).1 }

def HoldServer.step (s : HoldServer) (op : HoldRequest) : Option HoldServer :=
  some (s.next X E op)

/-! ## One record per placement -/

/-- The record holds what the request asked for. -/
def Placed.Matches (p : Placed) (r : HoldRecord) : Prop :=
  r.seqFrom = p.req.seqFrom ∧ r.seqTo = p.req.seqTo ∧ r.reason = p.req.reason ∧
    r.expiresAt = p.req.expiresAt

/-- A placement leaves every record that is there alone. -/
def KeepsRecords (s : HoldServer) (op : HoldRequest) : Prop :=
  match op with
  | .place .. => ∀ id r, s.dir.lookup id = some r → (s.next X E op).dir.lookup id = some r
  | _ => True

/-- The save of a placement is cut off only where there is no record, and that of a release
    is not. -/
def HoldServer.Careful (s : HoldServer) : HoldRequest → Prop
  | .place username req unsealed clk w =>
      (∃ r, newRecord X E s.dir username req unsealed clk = .ok r) → ∀ e, w = .cutOff e →
        s.dir.lookup (newHoldId clk.id) = none
  | .release holdId username sigB64 clk w =>
      (∃ r, releaseRecord X E s.dir holdId username sigB64 clk = .ok r) → ∀ e, w ≠ .cutOff e
  | .generateKey .. => True

/-- The second a placement's id was made in. -/
def Placed.second (p : Placed) : Nat := epochSeconds p.clk.id

variable {X E}

theorem holdIdOf_injective : Function.Injective holdIdOf := by
  intro m n h
  have hlist := congrArg String.toList h
  simp only [holdIdOf, String.toList_append, String.toList_ofList] at hlist
  exact toDigits_hex_injective (List.append_cancel_left hlist)

/-- The record a placement gets to save is of its own id, and what was asked for. -/
theorem newRecord_eq_ok {d : HoldDir} {username : String} {req : PlaceRequest}
    {unsealed : String → Except String Bytes} {clk : PlaceClock} {r : HoldRecord}
    (h : newRecord X E d username req unsealed clk = .ok r) :
    r.id = newHoldId clk.id ∧ (⟨req, clk, r.id⟩ : Placed).Matches r := by
  rw [newRecord] at h
  split_ifs at h with hrange
  obtain ⟨keyHex, -, hplace⟩ := bind_eq_ok.mp h
  obtain ⟨pubkey, key, -, -, rfl⟩ := placeRecord_eq_ok.mp hplace
  exact ⟨rfl, rfl, rfl, rfl, rfl⟩

variable (X E) in
/-- What one request does to the records. -/
inductive HoldServer.Effect (s : HoldServer) (op : HoldRequest) : Prop
  | nothing (hlookup : (s.next X E op).dir.lookup = s.dir.lookup)
      (hplaced : (s.next X E op).placed = s.placed) (hcareful : s.Careful X E op)
  | placed (r : HoldRecord) (p : Placed)
      (hlookup : (s.next X E op).dir.lookup = Function.update s.dir.lookup p.holdId (some r))
      (hplaced : (s.next X E op).placed = s.placed ++ [p])
      (hid : p.holdId = newHoldId p.clk.id) (hmatch : p.Matches r) (hcareful : s.Careful X E op)
  | released (id : String) (r r' : HoldRecord) (hr : s.dir.lookup id = some r)
      (hlookup : (s.next X E op).dir.lookup = Function.update s.dir.lookup id (some r'))
      (hplaced : (s.next X E op).placed = s.placed)
      (hsame : ∀ p : Placed, p.Matches r → p.Matches r') (hkeep : KeepsRecords X E s op)
      (hcareful : s.Careful X E op)
  | lost (id : String) (r : HoldRecord) (hr : s.dir.lookup id = some r)
      (hlookup : (s.next X E op).dir.lookup = Function.update s.dir.lookup id none)
      (hplaced : (s.next X E op).placed = s.placed) (hcareless : ¬ s.Careful X E op)

theorem HoldServer.effect_place (s : HoldServer) (username : String) (req : PlaceRequest)
    (unsealed : String → Except String Bytes) (clk : PlaceClock) (w : RecordWrite) :
    s.Effect X E (.place username req unsealed clk w) := by
  have hnext : s.next X E (.place username req unsealed clk w) =
      match saveRecord s.dir w (newRecord X E s.dir username req unsealed clk) with
      | (dir, .ok record) => { dir, placed := s.placed ++ [⟨req, clk, record.id⟩] }
      | (dir, .error _) => { s with dir } := rfl
  rcases hres : newRecord X E s.dir username req unsealed clk with e | r
  · rw [hres] at hnext
    -- No record was made, so nothing is written.
    refine .nothing (by rw [hnext]; rfl) (by rw [hnext]; rfl) ?_
    rintro ⟨r, hr⟩
    rw [hres] at hr
    cases hr
  · rw [hres] at hnext
    obtain ⟨hid, hmatch⟩ := newRecord_eq_ok hres
    have hlookup := lookup_saveHold s.dir r w
    cases w with
    | written =>
        exact .placed r ⟨req, clk, r.id⟩ (by rw [hnext]; exact hlookup) (by rw [hnext]; rfl) hid
          hmatch fun _ _ => nofun
    -- The file stays, and the placement is not answered with an id.
    | refused e => exact .nothing (by rw [hnext]; rfl) (by rw [hnext]; rfl) fun _ _ => nofun
    | cutOff e =>
        -- The file is emptied first, so a record that was there is lost.
        cases hold : s.dir.lookup r.id with
        | none =>
            refine .nothing ?_ (by rw [hnext]; rfl) fun _ _ _ => hid ▸ hold
            rw [hnext]
            exact hlookup.trans (Function.update_eq_self_iff.mpr hold.symm)
        | some old =>
            refine .lost r.id old hold (by rw [hnext]; exact hlookup) (by rw [hnext]; rfl) ?_
            intro hcareful
            have hnone := hcareful ⟨r, hres⟩ e rfl
            rw [← hid, hold] at hnone
            cases hnone

theorem HoldServer.effect_release (s : HoldServer) (holdId username sigB64 : String)
    (clk : ReleaseClock) (w : RecordWrite) :
    s.Effect X E (.release holdId username sigB64 clk w) := by
  have hnext : (s.next X E (.release holdId username sigB64 clk w)).dir =
      (saveRecord s.dir w (releaseRecord X E s.dir holdId username sigB64 clk)).1 := rfl
  rcases hres : releaseRecord X E s.dir holdId username sigB64 clk with e | r
  · rw [hres] at hnext
    refine .nothing (by rw [hnext]; rfl) rfl ?_
    rintro ⟨r, hr⟩
    rw [hres] at hr
    cases hr
  · rw [hres] at hnext
    obtain ⟨rec, pubkey, sig, hrec, -, -, -, -, rfl⟩ := releaseRecord_eq_ok.mp hres
    have hlookup := lookup_saveHold s.dir (rec.release clk.releasedAt username sigB64) w
    obtain rfl : rec.id = holdId := HoldDir.id_of_lookup hrec
    cases w with
    | written =>
        exact .released rec.id rec (rec.release clk.releasedAt username sigB64) hrec
          (by rw [hnext]; exact hlookup) rfl (fun _ hp => hp) trivial fun _ _ => nofun
    | refused e => exact .nothing (by rw [hnext]; rfl) rfl fun _ _ => nofun
    | cutOff e =>
        refine .lost rec.id rec hrec (by rw [hnext]; exact hlookup) rfl fun hcareful => ?_
        exact hcareful ⟨_, hres⟩ e rfl

theorem HoldServer.effect (s : HoldServer) (op : HoldRequest) : s.Effect X E op := by
  cases op with
  | generateKey key pubFault keyFault =>
      exact .nothing (lookup_generateHoldKey E s.dir key pubFault keyFault) rfl trivial
  | place username req unsealed clk w => exact s.effect_place username req unsealed clk w
  | release holdId username sigB64 clk w => exact s.effect_release holdId username sigB64 clk w

/-- The records are those of placements. -/
structure HoldServer.Filed (s : HoldServer) : Prop where
  placed : ∀ id r, s.dir.lookup id = some r → id ∈ s.placed.map (·.holdId)
  holdId : ∀ p ∈ s.placed, p.holdId = newHoldId p.clk.id

theorem HoldServer.Filed.next {s : HoldServer} (h : s.Filed) (op : HoldRequest) :
    (s.next X E op).Filed := by
  -- What a request may do to the records: nothing, place, release, or lose one.
  rcases s.effect (X := X) (E := E) op with ⟨hlookup, hplaced, -⟩ |
    ⟨r, p, hlookup, hplaced, hid, -, -⟩ | ⟨id, r, r', hr, hlookup, hplaced, -, -, -⟩ |
    ⟨id, r, hr, hlookup, hplaced, -⟩
  · exact ⟨by rw [hlookup, hplaced]; exact h.placed, by rw [hplaced]; exact h.holdId⟩
  · refine ⟨fun id' r' hr' => ?_, fun q hq => ?_⟩
    · rw [hplaced, List.map_append, List.mem_append]
      rw [hlookup] at hr'
      -- The id of a new record is that of its placement.
      by_cases hsame : id' = p.holdId
      · exact .inr (List.mem_singleton.mpr hsame)
      · rw [Function.update_of_ne hsame] at hr'
        exact .inl (h.placed id' r' hr')
    · rw [hplaced, List.mem_append, List.mem_singleton] at hq
      rcases hq with hq | rfl
      · exact h.holdId q hq
      · exact hid
  · refine ⟨fun id' r₀ hr₀ => ?_, by rw [hplaced]; exact h.holdId⟩
    rw [hplaced]
    rw [hlookup] at hr₀
    by_cases hsame : id' = id
    · exact hsame ▸ h.placed id r hr
    · rw [Function.update_of_ne hsame] at hr₀
      exact h.placed id' r₀ hr₀
  · refine ⟨fun id' r₀ hr₀ => ?_, by rw [hplaced]; exact h.holdId⟩
    rw [hplaced]
    rw [hlookup] at hr₀
    by_cases hsame : id' = id
    -- The record that was lost is no record to account for.
    · rw [hsame, Function.update_self] at hr₀
      cases hr₀
    · rw [Function.update_of_ne hsame] at hr₀
      exact h.placed id' r₀ hr₀

/-- Distinct ids are distinct seconds. -/
theorem HoldServer.Filed.nodup_iff {s : HoldServer} (h : s.Filed) :
    (s.placed.map (·.holdId)).Nodup ↔ (s.placed.map Placed.second).Nodup := by
  have hids : s.placed.map (·.holdId) = (s.placed.map Placed.second).map holdIdOf := by
    rw [List.map_map]
    exact List.map_congr_left fun p hp => h.holdId p hp
  rw [hids, List.nodup_map_iff holdIdOf_injective]

/-- The ids of the files that parse. -/
def HoldDir.stored (d : HoldDir) : List String := (d.holds.entries.filter (·.2.isSome)).keys

end Maranode.Api
