/-
  Maranode.Lib.KeyFile

  A key that is read from a file, or made and written there.

  Several programs may do so at the same time, and each may be stopped anywhere.  A program
  that only opens a file nobody had (`create_new`) writes the key all others read; one that
  opens what is there empties it.  The rules are about every order of the calls:
  `Settled.step` is what one call keeps, and `settled_of_run` what a run does.
-/
import Maranode.Lib.Inodes
import Maranode.Lib.Run

namespace Lib

/-- How a program makes its key. -/
structure KeyFile (K : Type) where
  /-- `create_new(true)`; otherwise the file is created or truncated. -/
  createNew : Bool
  /-- The permissions of a file it makes. -/
  mode : Nat
  /-- The permissions of a file it reads. -/
  allows : Nat → Bool
  /-- `sync_all` after the last write. -/
  syncs : Bool
  encode : K → Bytes
  decode : Bytes → Option K
  /-- What it writes to a second file once it has the key. -/
  publicKey : K → Option Bytes
  allows_mode : allows mode = true
  decode_encode : ∀ k, decode (encode k) = some k
  /-- The front of a key is no key. -/
  decode_take : ∀ k n, n < (encode k).length → decode ((encode k).take n) = none

/-- What is written piece by piece. -/
theorem overlay_front {bytes : Bytes} {done : Nat} (hdone : done ≤ bytes.length) (n : Nat) :
    overlay (bytes.take done) done ((bytes.drop done).take n)
        = bytes.take (done + ((bytes.drop done).take n).length) ∧
      done + ((bytes.drop done).take n).length ≤ bytes.length := by
  refine ⟨overlay_take hdone n, ?_⟩
  rw [List.length_take, List.length_drop]
  omega

/-- Where one program is. -/
inductive KeyParty (K : Type) where
  /-- It asks whether there is a file; `fresh` is what the random generator gives it. -/
  | start (fresh : K)
  | found
  | reading (acc : Bytes)
  | opening (k : K)
  | writing (k : K) (done : Nat)
  | syncing (k : K)
  | publishing (k : K)
  | filling (k : K) (done : Nat)
  | ok (k : K)
  /-- It returned an error, or it was stopped. -/
  | failed
  deriving DecidableEq

namespace KeyParty

variable {K : Type}

/-- It has the file open to write. -/
def makes : KeyParty K → Bool
  | writing _ _ | syncing _ | publishing _ | filling _ _ => true
  | start _ | found | reading _ | opening _ | ok _ | failed => false

/-- It has not seen a file. -/
def idle : KeyParty K → Bool
  | start _ | opening _ | failed => true
  | found | reading _ | writing _ _ | syncing _ | publishing _ | filling _ _ | ok _ => false

end KeyParty

/-- The two files, the first with its permissions, and the programs. -/
structure KeyFiles (ι K : Type) where
  key : Option (Nat × Bytes)
  publicKey : Option Bytes
  parties : ι → KeyParty K

/-- What happens to a program: its next call is done, and moves at most `n + 1` bytes where it
    moves any; or the call fails; or the program is stopped. -/
inductive KeyAct where
  | call (n : Nat)
  | error
  | crash
  deriving DecidableEq

namespace KeyFile

variable {K : Type} (P : KeyFile K)

/-- The key has been written. -/
def made (k : K) : KeyParty K :=
  match P.publicKey k with
  | none => .ok k
  | some _ => .publishing k

/-- `done` bytes of the key have been written. -/
def wrote (k : K) (done : Nat) : KeyParty K :=
  if done < (P.encode k).length then .writing k done
  else if P.syncs then .syncing k
  else P.made k

/-- What is written to the second file. -/
def publicBytes (k : K) : Bytes := (P.publicKey k).getD []

/-- The file was read to its end. -/
def finish (bytes : Bytes) : KeyParty K :=
  match P.decode bytes with
  | some k => .ok k
  | none => .failed

variable {ι : Type} [DecidableEq ι]

def move (s : KeyFiles ι K) (i : ι) (p : KeyParty K) : KeyFiles ι K :=
  { s with parties := Function.update s.parties i p }

/-- The next call of a program. -/
def call (s : KeyFiles ι K) (i : ι) (n : Nat) : Option (KeyFiles ι K) :=
  match s.parties i with
  | .start k => some (move s i (if s.key.isSome then .found else .opening k))
  | .found =>
      s.key.map fun f => move s i (if P.allows f.1 then .reading [] else .failed)
  | .reading acc =>
      s.key.map fun f =>
        let piece := (f.2.drop acc.length).take (n + 1)
        move s i (if piece = [] then P.finish acc else .reading (acc ++ piece))
  | .opening k =>
      match s.key with
      | none => some (move { s with key := some (P.mode, []) } i (.writing k 0))
      | some f =>
          if P.createNew then some (move s i .failed)
          else some (move { s with key := some (f.1, []) } i (.writing k 0))
  | .writing k done =>
      s.key.map fun f =>
        let piece := ((P.encode k).drop done).take (n + 1)
        move { s with key := some (f.1, overlay f.2 done piece) } i
          (P.wrote k (done + piece.length))
  | .syncing k => some (move s i (P.made k))
  | .publishing k => some (move { s with publicKey := some [] } i (.filling k 0))
  | .filling k done =>
      s.publicKey.map fun old =>
        let piece := ((P.publicBytes k).drop done).take (n + 1)
        move { s with publicKey := some (overlay old done piece) } i
          (if done + piece.length < (P.publicBytes k).length then .filling k (done + piece.length)
            else .ok k)
  | .ok _ | .failed => none

def step (s : KeyFiles ι K) : ι × KeyAct → Option (KeyFiles ι K)
  | (i, .call n) => P.call s i n
  | (i, .error) =>
      match s.parties i with
      -- A file that cannot be looked at is not there for `exists`.
      | .start k => some (move s i (.opening k))
      | .ok _ | .failed => none
      | _ => some (move s i .failed)
  | (i, .crash) =>
      match s.parties i with
      | .ok _ | .failed => none
      | _ => some (move s i .failed)

/-! ## What holds between the file and the programs -/

/-- A program that makes the key has `front` of the whole in the file; one that has read the
    file to its end has all of it. -/
def Fits (whole front : Bytes) (second : Option Bytes) : KeyParty K → Prop
  | .start _ | .found | .opening _ | .failed => True
  | .reading acc => acc <+: front
  | .writing k done => P.encode k = whole ∧ front = whole.take done ∧ done ≤ whole.length
  | .syncing k | .publishing k => P.encode k = whole ∧ front = whole
  | .filling k done =>
      P.encode k = whole ∧ front = whole ∧ second = some ((P.publicBytes k).take done) ∧
        done ≤ (P.publicBytes k).length
  | .ok k => P.decode whole = some k ∧ front = whole

/-- The second file is the one that was there, or the front of what goes with the key. -/
def Second (old : Option Bytes) (whole front : Bytes) (second : Option Bytes) : Prop :=
  second = old ∨
    ∃ k n, P.encode k = whole ∧ front = whole ∧ second = some ((P.publicBytes k).take n)

/-- Both files are there. -/
def Complete (s : KeyFiles ι K) (whole : Bytes) : Prop :=
  ∃ f k, s.key = some f ∧ f.2 = whole ∧ P.encode k = whole ∧
    (P.publicKey k = none ∨ s.publicKey = P.publicKey k)

/-- Somebody is still at it, or has failed, or both files are there. -/
def Finished (s : KeyFiles ι K) (whole : Bytes) : Prop :=
  (∃ i, (s.parties i).makes = true) ∨ (∃ i, s.parties i = .failed) ∨
    P.Complete s whole

/-- The key file has the front of `whole`, which is what was there or a key. -/
structure Holds (old : Option Bytes) (s : KeyFiles ι K) (whole : Bytes) (f : Nat × Bytes) :
    Prop where
  key : s.key = some f
  front : f.2 <+: whole
  origin : f.2 = whole ∨ ∃ k, P.encode k = whole
  fits : ∀ i, P.Fits whole f.2 s.publicKey (s.parties i)
  one : ∀ i j, i ≠ j → (s.parties i).makes = true → (s.parties j).makes = false
  second : P.Second old whole f.2 s.publicKey

/-- No file and nobody who saw one, or one that holds a key or the front of it. -/
inductive Settled (old : Option Bytes) (s : KeyFiles ι K) : Prop where
  | absent (key : s.key = none) (idle : ∀ i, (s.parties i).idle = true)
      (second : s.publicKey = old)
  | present {whole : Bytes} {f : Nat × Bytes} (h : P.Holds old s whole f)

/-! ## One program moves -/

variable {P} {old : Option Bytes} {s t : KeyFiles ι K} {whole : Bytes} {f f' : Nat × Bytes} {i : ι}
  {p : KeyParty K} {k : K} {n done : Nat}

/-- A program moves, and what it writes suits the others. -/
theorem Holds.moved (h : P.Holds old s whole f) (hkey : t.key = some f')
    (hparties : t.parties = Function.update s.parties i p) (hfront : f'.2 <+: whole)
    (horigin : f'.2 = whole ∨ ∃ k, P.encode k = whole)
    (hothers : ∀ j, j ≠ i → P.Fits whole f.2 s.publicKey (s.parties j) →
      P.Fits whole f'.2 t.publicKey (s.parties j))
    (hfits : P.Fits whole f'.2 t.publicKey p) (hmakes : p.makes = true → (s.parties i).makes = true)
    (hsecond : P.Second old whole f'.2 t.publicKey) : P.Holds old t whole f' where
  key := hkey
  front := hfront
  origin := horigin
  fits := by
    intro j
    rw [hparties]
    -- Only the one that moved has changed.
    by_cases hj : j = i
    · rw [hj, Function.update_self]
      exact hfits
    · rw [Function.update_of_ne hj]
      exact hothers j hj (h.fits j)
  one := by
    intro j l hjl hj
    rw [hparties] at hj ⊢
    by_cases hji : j = i
    · subst hji
      rw [Function.update_self] at hj
      rw [Function.update_of_ne (Ne.symm hjl)]
      exact h.one j l hjl (hmakes hj)
    · rw [Function.update_of_ne hji] at hj
      -- Two that create at once: the one that moved did so before as well.
      by_cases hli : l = i
      · subst hli
        rw [Function.update_self]
        by_contra hp
        have hl := h.one j l hjl hj
        rw [hmakes (Bool.eq_true_of_not_eq_false hp)] at hl
        cases hl
      · rw [Function.update_of_ne hli]
        exact h.one j l hjl hj
  second := hsecond

/-- A program moves and writes nothing. -/
theorem Holds.move (h : P.Holds old s whole f) (hfits : P.Fits whole f.2 s.publicKey p)
    (hmakes : p.makes = true → (s.parties i).makes = true) :
    P.Holds old (KeyFile.move s i p) whole f :=
  h.moved h.key rfl h.front h.origin (fun _ _ hj => hj) hfits hmakes h.second

omit [DecidableEq ι] in
/-- What reads as a key is the whole of it. -/
theorem Holds.eq_whole (h : P.Holds old s whole f) (hdec : P.decode f.2 = some k) :
    f.2 = whole := by
  rcases h.origin with heq | ⟨k', hk'⟩
  · exact heq
  · by_contra hne
    have htake : f.2 = (P.encode k').take f.2.length := by
      rw [hk']
      exact List.prefix_iff_eq_take.mp h.front
    have hlt : f.2.length < (P.encode k').length := by
      rw [hk']
      refine lt_of_le_of_ne h.front.length_le fun hlen => hne ?_
      exact List.IsPrefix.eq_of_length h.front hlen
    rw [htake, P.decode_take k' _ hlt] at hdec
    cases hdec

theorem Holds.write (h : P.Holds old s whole f) (hi : s.parties i = .writing k done) (n : Nat) :
    P.Holds old
      (KeyFile.move
        { s with
          key := some (f.1, overlay f.2 done (((P.encode k).drop done).take n)) }
        i (P.wrote k (done + (((P.encode k).drop done).take n).length)))
      whole (f.1, overlay f.2 done (((P.encode k).drop done).take n)) := by
  -- The writer's own front is what the file has.
  have hfits := h.fits i
  rw [hi, Fits] at hfits
  obtain ⟨hk, hfront, hdone⟩ := hfits
  have hmaking : (s.parties i).makes = true := by rw [hi]; rfl
  rw [hk, hfront]
  obtain ⟨hover, hle⟩ := overlay_front hdone n
  rw [hover]
  have hother : ∀ j, j ≠ i → (s.parties j).makes = false := fun j hj =>
    h.one i j (Ne.symm hj) hmaking
  -- What was whole stays whole under one more write.
  have hgrow : whole.take done = whole →
      whole.take (done + ((whole.drop done).take n).length) = whole := by
    intro hall
    have hlen := congrArg List.length hall
    rw [List.length_take] at hlen
    exact List.take_of_length_le (by omega)
  refine h.moved rfl rfl (List.take_prefix _ _) (.inr ⟨k, hk⟩) (fun j hj hold => ?_) ?_
    (fun _ => hmaking) ?_
  · -- Who read the front has read the front of more.
    have hno := hother j hj
    cases hp : s.parties j with
    | start fresh => trivial
    | found => trivial
    | opening k' => trivial
    | failed => trivial
    | reading acc =>
        rw [hp, Fits, hfront] at hold
        exact hold.trans (List.take_prefix_take_left (Nat.le_add_right ..))
    | ok k' =>
        rw [hp, Fits, hfront] at hold
        exact ⟨hold.1, hgrow hold.2⟩
    | writing k' d | syncing k' | publishing k' | filling k' d =>
        rw [hp] at hno
        cases hno
  -- The writer goes on, syncs, or is done with the whole text.
  · rw [wrote]
    split
    · exact ⟨hk, rfl, hle⟩
    · next hlt =>
        rw [hk, Nat.not_lt] at hlt
        have hall : whole.take (done + ((whole.drop done).take n).length) = whole :=
          List.take_of_length_le hlt
        split
        · exact ⟨hk, hall⟩
        · rw [made]
          split
          · exact ⟨hk ▸ P.decode_encode k, hall⟩
          · exact ⟨hk, hall⟩
  -- The second file follows the whole text, which has not shrunk.
  · rcases h.second with hold | ⟨k', m, hk', hwhole, hpublic⟩
    · exact .inl hold
    · refine .inr ⟨k', m, hk', ?_, hpublic⟩
      rw [hfront] at hwhole
      exact hgrow hwhole

theorem Holds.read (h : P.Holds old s whole f) {acc : Bytes} (hi : s.parties i = .reading acc)
    (n : Nat) :
    P.Holds old
      (KeyFile.move s i
        (if (f.2.drop acc.length).take (n + 1) = [] then P.finish acc
          else .reading (acc ++ (f.2.drop acc.length).take (n + 1))))
      whole f := by
  have hacc : acc <+: f.2 := by
    have hfits := h.fits i
    rwa [hi] at hfits
  obtain ⟨rest, hrest⟩ := hacc
  have hdrop : f.2.drop acc.length = rest := by
    rw [← hrest, List.drop_left]
  rw [hdrop]
  split
  · next hnil =>
      have hall : acc = f.2 := by
        rw [List.take_eq_nil_iff] at hnil
        rw [← hrest, hnil.resolve_left (Nat.succ_ne_zero n), List.append_nil]
      rw [finish, hall]
      split
      · next k hk =>
          have heq := h.eq_whole hk
          exact h.move ⟨heq ▸ hk, heq⟩ (fun hno => absurd hno Bool.false_ne_true)
      · exact h.move trivial (fun hno => absurd hno Bool.false_ne_true)
  · refine h.move ?_ (fun hno => absurd hno Bool.false_ne_true)
    rw [← hrest]
    exact (List.prefix_append_right_inj acc).mpr (List.take_prefix _ _)

theorem Holds.sync (h : P.Holds old s whole f) (hi : s.parties i = .syncing k) :
    P.Holds old (KeyFile.move s i (P.made k)) whole f := by
  have hfits := h.fits i
  rw [hi] at hfits
  have hmaking : (s.parties i).makes = true := by rw [hi]; rfl
  refine h.move ?_ fun _ => hmaking
  rw [made]
  split
  · exact ⟨hfits.1 ▸ P.decode_encode k, hfits.2⟩
  · exact hfits

/-- The second file is written; nobody else writes there. -/
theorem Holds.writeSecond (h : P.Holds old s whole f) (hmaking : (s.parties i).makes = true)
    {second : Option Bytes} (hfits : P.Fits whole f.2 second p)
    (hsecond : P.Second old whole f.2 second) :
    P.Holds old (KeyFile.move { s with publicKey := second } i p) whole f := by
  refine h.moved h.key rfl h.front h.origin (fun j hj hold => ?_) hfits (fun _ => hmaking) hsecond
  have hno : (s.parties j).makes = false := h.one i j (Ne.symm hj) hmaking
  cases hp : s.parties j with
  | start fresh => trivial
  | found => trivial
  | opening k' => trivial
  | failed => trivial
  | reading acc =>
      rw [hp] at hold
      exact hold
  | ok k' =>
      rw [hp] at hold
      exact hold
  | writing k' d | syncing k' | publishing k' | filling k' d =>
      rw [hp] at hno
      cases hno

theorem Holds.publish (h : P.Holds old s whole f) (hi : s.parties i = .publishing k) :
    P.Holds old (KeyFile.move { s with publicKey := some [] } i (.filling k 0)) whole f := by
  have hfits := h.fits i
  rw [hi] at hfits
  refine h.writeSecond (by rw [hi]; rfl) ⟨hfits.1, hfits.2, ?_, Nat.zero_le _⟩
    (.inr ⟨k, 0, hfits.1, hfits.2, ?_⟩)
  · rw [List.take_zero]
  · rw [List.take_zero]

theorem Holds.fill (h : P.Holds old s whole f) (hi : s.parties i = .filling k done) (n : Nat) :
    ∃ front, s.publicKey = some front ∧
      P.Holds old
        (KeyFile.move
          { s with
            publicKey := some (overlay front done (((P.publicBytes k).drop done).take n)) }
          i
          (if done + (((P.publicBytes k).drop done).take n).length < (P.publicBytes k).length then
            .filling k (done + (((P.publicBytes k).drop done).take n).length)
          else .ok k))
        whole f := by
  have hfits := h.fits i
  rw [hi] at hfits
  obtain ⟨hk, hwhole, hpublic, hdone⟩ := hfits
  refine ⟨_, hpublic, ?_⟩
  obtain ⟨hover, hle⟩ := overlay_front hdone n
  rw [hover]
  refine h.writeSecond (by rw [hi]; rfl) ?_ (.inr ⟨k, _, hk, hwhole, rfl⟩)
  split
  · exact ⟨hk, hwhole, rfl, hle⟩
  · exact ⟨hk ▸ P.decode_encode k, hwhole⟩

/-! ## One call -/

/-- A program that opens the file makes it, or is refused. -/
def Creates (P : KeyFile K) (s : KeyFiles ι K) (op : ι × KeyAct) : Prop :=
  P.createNew = true ∨
    ∀ n, op.2 = .call n → ∀ k, s.parties op.1 = .opening k → s.key = none

theorem Settled.idle_move (hkey : s.key = none) (hidle : ∀ j, (s.parties j).idle = true)
    (hsecond : s.publicKey = old) (hp : p.idle = true) : P.Settled old (KeyFile.move s i p) :=
  .absent hkey (Run.forall_update (P := fun q : KeyParty K => q.idle = true) hidle hp) hsecond

omit [DecidableEq ι] in
theorem fits_of_idle {front : Bytes} {second : Option Bytes} (h : p.idle = true) :
    P.Fits whole front second p := by
  cases p with
  | start fresh | opening k' | failed => trivial
  | found | reading acc | writing k' d | syncing k' | publishing k' | filling k' d | ok k' =>
      cases h

theorem makes_of_idle (h : p.idle = true) : p.makes = false := by
  cases p with
  | start fresh | opening k' | failed => rfl
  | found | reading acc | writing k' d | syncing k' | publishing k' | filling k' d | ok k' =>
      cases h

/-- The file is made: the others have not seen one. -/
theorem holds_create (hidle : ∀ j, (s.parties j).idle = true) (hsecond : s.publicKey = old)
    (k : K) :
    P.Holds old (KeyFile.move { s with key := some (P.mode, []) } i (.writing k 0)) (P.encode k)
      (P.mode, []) where
  key := rfl
  front := List.nil_prefix
  origin := .inr ⟨k, rfl⟩
  fits := by
    refine Run.forall_update (P := fun q => P.Fits (P.encode k) [] s.publicKey q)
      (fun j => fits_of_idle (hidle j)) ?_
    exact ⟨rfl, List.take_zero.symm, Nat.zero_le _⟩
  one := by
    refine Run.pairwise_update
      (R := fun a b : KeyParty K => a.makes = true → b.makes = false) (fun a b hab hb => ?_)
      (fun j l _ _ => makes_of_idle (hidle l)) (fun j _ _ => makes_of_idle (hidle j))
    by_contra ha
    rw [hab (Bool.eq_true_of_not_eq_false ha)] at hb
    cases hb
  second := .inl hsecond

/-- One call, once there is a file. -/
theorem Holds.call (h : P.Holds old s whole f) (hcreates : P.Creates s (i, .call n))
    (hstep : P.call s i n = some t) : ∃ f', P.Holds old t whole f' := by
  rw [KeyFile.call] at hstep
  -- By the state of the one that calls; the file is there throughout.
  cases hp : s.parties i with
  | start fresh =>
      rw [hp] at hstep
      obtain rfl := Option.some.inj hstep
      rw [h.key]
      exact ⟨f, h.move trivial fun hno => absurd hno Bool.false_ne_true⟩
  | found =>
      rw [hp, h.key] at hstep
      obtain rfl := Option.some.inj hstep
      refine ⟨f, h.move ?_ fun hno => absurd hno ?_⟩
      · split
        · exact List.nil_prefix
        · trivial
      · split <;> exact Bool.false_ne_true
  | reading acc =>
      rw [hp, h.key] at hstep
      obtain rfl := Option.some.inj hstep
      exact ⟨f, h.read hp n⟩
  -- Opening the file that is there finds it, unless it is truncated; `Creates` excludes that.
  | opening k =>
      rw [hp] at hstep
      dsimp only at hstep
      rcases hcreates with hnew | habsent
      · rw [h.key] at hstep
        dsimp only at hstep
        rw [if_pos hnew] at hstep
        obtain rfl := Option.some.inj hstep
        exact ⟨f, h.move trivial fun hno => absurd hno Bool.false_ne_true⟩
      · have hno := h.key
        rw [habsent n rfl k hp] at hno
        cases hno
  | writing k done =>
      rw [hp, h.key] at hstep
      obtain rfl := Option.some.inj hstep
      exact ⟨_, h.write hp (n + 1)⟩
  | syncing k =>
      rw [hp] at hstep
      obtain rfl := Option.some.inj hstep
      exact ⟨f, h.sync hp⟩
  | publishing k =>
      rw [hp] at hstep
      obtain rfl := Option.some.inj hstep
      exact ⟨f, h.publish hp⟩
  | filling k done =>
      obtain ⟨front, hfront, hfill⟩ := h.fill hp (n + 1)
      rw [hp, hfront] at hstep
      obtain rfl := Option.some.inj hstep
      exact ⟨f, hfill⟩
  | ok k | failed =>
      rw [hp] at hstep
      cases hstep

/-- **One call.** -/
theorem Settled.call (h : P.Settled old s) (hcreates : P.Creates s (i, .call n))
    (hstep : P.call s i n = some t) : P.Settled old t := by
  cases h with
  | absent hkey hidle hsecond =>
      have hidlei := hidle i
      rw [KeyFile.call] at hstep
      cases hp : s.parties i with
      | start fresh =>
          rw [hp] at hstep
          obtain rfl := Option.some.inj hstep
          rw [hkey]
          exact Settled.idle_move hkey hidle hsecond rfl
      | opening k =>
          rw [hp] at hstep
          dsimp only at hstep
          rw [hkey] at hstep
          obtain rfl := Option.some.inj hstep
          exact .present (holds_create hidle hsecond k)
      | failed =>
          rw [hp] at hstep
          cases hstep
      | found | reading acc | writing k' d | syncing k' | publishing k' | filling k' d | ok k' =>
          rw [hp] at hidlei
          cases hidlei
  | present h =>
      obtain ⟨f', hf'⟩ := h.call hcreates hstep
      exact .present hf'

/-- What a step that is no call does. -/
theorem step_leave {op : ι × KeyAct} (hop : ∀ n, op.2 ≠ .call n) (h : P.step s op = some t) :
    ∃ p, (p = .failed ∨ ∃ k, s.parties op.1 = .start k ∧ p = .opening k) ∧
      t = KeyFile.move s op.1 p := by
  obtain ⟨i, act⟩ := op
  cases act with
  | call n => exact absurd rfl (hop n)
  | error =>
      rw [step] at h
      cases hp : s.parties i with
      | start k =>
          rw [hp] at h
          exact ⟨_, .inr ⟨k, rfl, rfl⟩, (Option.some.inj h).symm⟩
      | ok k | failed =>
          rw [hp] at h
          cases h
      | found | reading acc | opening k | writing k d | syncing k | publishing k | filling k d =>
          rw [hp] at h
          exact ⟨_, .inl rfl, (Option.some.inj h).symm⟩
  | crash =>
      rw [step] at h
      cases hp : s.parties i with
      | ok k | failed =>
          rw [hp] at h
          cases h
      | start k | found | reading acc | opening k | writing k d | syncing k | publishing k
      | filling k d =>
          rw [hp] at h
          exact ⟨_, .inl rfl, (Option.some.inj h).symm⟩

/-- A program that gives up, or takes the file for missing. -/
theorem Holds.leave (h : P.Holds old s whole f)
    (hp : p = .failed ∨ ∃ k, s.parties i = .start k ∧ p = .opening k) :
    P.Holds old (KeyFile.move s i p) whole f := by
  rcases hp with rfl | ⟨k, -, rfl⟩
  · exact h.move trivial fun hno => absurd hno Bool.false_ne_true
  · exact h.move trivial fun hno => absurd hno Bool.false_ne_true

theorem Holds.step {op : ι × KeyAct} (h : P.Holds old s whole f) (hcreates : P.Creates s op)
    (hstep : P.step s op = some t) : ∃ f', P.Holds old t whole f' := by
  by_cases hop : ∃ n, op.2 = .call n
  · obtain ⟨i, act⟩ := op
    obtain ⟨n, rfl⟩ := hop
    exact h.call hcreates hstep
  · obtain ⟨p, hp, rfl⟩ := step_leave (fun n hn => hop ⟨n, hn⟩) hstep
    exact ⟨f, h.leave hp⟩

/-- **One step.** -/
theorem Settled.step {op : ι × KeyAct} (h : P.Settled old s) (hcreates : P.Creates s op)
    (hstep : P.step s op = some t) : P.Settled old t := by
  cases h with
  | absent hkey hidle hsecond =>
      by_cases hop : ∃ n, op.2 = .call n
      · obtain ⟨i, act⟩ := op
        obtain ⟨n, rfl⟩ := hop
        exact (Settled.absent hkey hidle hsecond).call hcreates hstep
      · obtain ⟨p, hp, rfl⟩ := step_leave (fun n hn => hop ⟨n, hn⟩) hstep
        refine Settled.idle_move hkey hidle hsecond ?_
        rcases hp with rfl | ⟨k, -, rfl⟩ <;> rfl
  | present h =>
      obtain ⟨f', hf'⟩ := h.step hcreates hstep
      exact .present hf'

/-! ## Runs -/

/-- Nobody has started. -/
def Initial (s : KeyFiles ι K) : Prop := ∀ i, ∃ k, s.parties i = .start k

omit [DecidableEq ι] in
theorem Settled.initial (h : Initial s) : P.Settled s.publicKey s := by
  have hidle : ∀ j, (s.parties j).idle = true := by
    intro j
    obtain ⟨k, hk⟩ := h j
    rw [hk]
    rfl
  cases hkey : s.key with
  | none => exact .absent hkey hidle rfl
  | some f =>
      have hholds : P.Holds s.publicKey s f.2 f := ⟨hkey, List.prefix_refl _, .inl rfl,
        fun j => fits_of_idle (hidle j), fun _ l _ _ => makes_of_idle (hidle l), .inl rfl⟩
      exact .present hholds

theorem settled_of_run {ops : List (ι × KeyAct)} (h : P.Settled old s)
    (halong : Run.Along P.step P.Creates s ops) (hrun : Run.run P.step s ops = some t) :
    P.Settled old t :=
  Run.invariant_of_along (fun _ _ _ hs hc hstep => Settled.step hs hc hstep) h halong hrun

omit [DecidableEq ι] in
/-- Who has a key has the one in the file. -/
theorem Settled.key_of_ok (h : P.Settled old s) (hi : s.parties i = .ok k) :
    ∃ f, s.key = some f ∧ P.decode f.2 = some k := by
  cases h with
  | absent hkey hidle hsecond =>
      have hidlei := hidle i
      rw [hi] at hidlei
      cases hidlei
  | @present whole f h =>
      have hfits := h.fits i
      rw [hi] at hfits
      refine ⟨f, h.key, ?_⟩
      rw [hfits.2]
      exact hfits.1

omit [DecidableEq ι] in
theorem Settled.agree (h : P.Settled old s) {j : ι} {k' : K} (hi : s.parties i = .ok k)
    (hj : s.parties j = .ok k') : k = k' := by
  obtain ⟨f, hf, hk⟩ := h.key_of_ok hi
  obtain ⟨f', hf', hk'⟩ := h.key_of_ok hj
  obtain rfl := Option.some.inj (hf.symm.trans hf')
  exact Option.some.inj (hk.symm.trans hk')

/-! ## What one program leaves alone -/

theorem parties_move (s : KeyFiles ι K) (i : ι) (p : KeyParty K) :
    (KeyFile.move s i p).parties i = p := by
  rw [KeyFile.move]
  exact Function.update_self ..

theorem parties_update (key : Option (Nat × Bytes)) (second : Option Bytes)
    (parties : ι → KeyParty K) (i : ι) (p : KeyParty K) :
    (KeyFiles.mk key second (Function.update parties i p)).parties i = p :=
  Function.update_self ..

theorem call_move (h : P.call s i n = some t) :
    ∃ p, t.parties = Function.update s.parties i p := by
  rw [KeyFile.call] at h
  cases hp : s.parties i with
  | start k | syncing k | publishing k =>
      rw [hp] at h
      obtain rfl := Option.some.inj h
      exact ⟨_, rfl⟩
  | found | reading acc | writing k d | filling k d =>
      rw [hp] at h
      obtain ⟨f, -, rfl⟩ := Option.map_eq_some_iff.mp h
      exact ⟨_, rfl⟩
  | opening k =>
      rw [hp] at h
      dsimp only at h
      split at h
      · obtain rfl := Option.some.inj h
        exact ⟨_, rfl⟩
      · split at h
        · obtain rfl := Option.some.inj h
          exact ⟨_, rfl⟩
        · obtain rfl := Option.some.inj h
          exact ⟨_, rfl⟩
  | ok k | failed =>
      rw [hp] at h
      cases h

/-- The other programs stay where they are. -/
theorem step_others {op : ι × KeyAct} (h : P.step s op = some t) {j : ι} (hj : j ≠ op.1) :
    t.parties j = s.parties j := by
  have hmoved : ∃ p, t.parties = Function.update s.parties op.1 p := by
    by_cases hop : ∃ n, op.2 = .call n
    · obtain ⟨i, act⟩ := op
      obtain ⟨n, rfl⟩ := hop
      exact call_move h
    · obtain ⟨p, -, rfl⟩ := step_leave (fun n hn => hop ⟨n, hn⟩) h
      exact ⟨p, rfl⟩
  obtain ⟨p, hparties⟩ := hmoved
  rw [hparties]
  exact Function.update_of_ne hj ..

theorem step_failed {op : ι × KeyAct} (hfailed : s.parties op.1 = .failed) :
    P.step s op = none := by
  obtain ⟨i, act⟩ := op
  dsimp only at hfailed
  cases act with
  | call n => rw [KeyFile.step, KeyFile.call, hfailed]
  | error | crash => rw [KeyFile.step, hfailed]

/-- A program that does not make the key writes nothing once there is a file. -/
theorem step_quiet {op : ι × KeyAct} (hkey : s.key = some f)
    (hquiet : (s.parties op.1).makes = false) (hcreates : P.Creates s op)
    (h : P.step s op = some t) :
    t.key = s.key ∧ t.publicKey = s.publicKey ∧ (t.parties op.1).makes = false := by
  have hself : ∀ p : KeyParty K, p.makes = false →
      ((KeyFile.move s op.1 p).parties op.1).makes = false := by
    intro p hp
    rw [parties_move]
    exact hp
  -- A call of one that does not create, or a leave.
  by_cases hop : ∃ n, op.2 = .call n
  · obtain ⟨i, act⟩ := op
    obtain ⟨n, rfl⟩ := hop
    dsimp only at hquiet
    rw [KeyFile.step, KeyFile.call] at h
    cases hp : s.parties i with
    | start k =>
        rw [hp] at h
        obtain rfl := Option.some.inj h
        refine ⟨rfl, rfl, hself _ ?_⟩
        split <;> rfl
    | found =>
        rw [hp, hkey] at h
        obtain rfl := Option.some.inj h
        refine ⟨rfl, rfl, hself _ ?_⟩
        split <;> rfl
    | reading acc =>
        rw [hp, hkey] at h
        obtain rfl := Option.some.inj h
        refine ⟨rfl, rfl, hself _ ?_⟩
        split
        · rw [finish]
          split <;> rfl
        · rfl
    | opening k =>
        rw [hp] at h
        dsimp only at h
        rcases hcreates with hnew | habsent
        · rw [hkey] at h
          dsimp only at h
          rw [if_pos hnew] at h
          obtain rfl := Option.some.inj h
          exact ⟨rfl, rfl, hself _ rfl⟩
        · rw [habsent n rfl k hp] at hkey
          cases hkey
    | ok k | failed =>
        rw [hp] at h
        cases h
    -- Whoever writes is creating, and this one is not.
    | writing k d | syncing k | publishing k | filling k d =>
        rw [hp] at hquiet
        cases hquiet
  · obtain ⟨p, hp, rfl⟩ := step_leave (fun n hn => hop ⟨n, hn⟩) h
    refine ⟨rfl, rfl, hself _ ?_⟩
    rcases hp with rfl | ⟨k, -, rfl⟩ <;> rfl

/-- **What nobody finishes stays as it is.** -/
theorem left_of_run {ops : List (ι × KeyAct)} (hkey : s.key = some f)
    (hquiet : ∀ i, (s.parties i).makes = false)
    (halong : Run.Along P.step P.Creates s ops) (hrun : Run.run P.step s ops = some t) :
    t.key = some f ∧ t.publicKey = s.publicKey := by
  have hinv : t.key = some f ∧ t.publicKey = s.publicKey ∧
      ∀ i, (t.parties i).makes = false := by
    refine Run.invariant_of_along
      (I := fun u => u.key = some f ∧ u.publicKey = s.publicKey ∧
        ∀ i, (u.parties i).makes = false)
      (fun u op u' hu hcreates hstep => ?_) ⟨hkey, rfl, hquiet⟩ halong hrun
    obtain ⟨hukey, hupublic, huquiet⟩ := hu
    obtain ⟨hkey', hpublic', hself⟩ := step_quiet hukey (huquiet op.1) hcreates hstep
    refine ⟨hkey'.trans hukey, hpublic'.trans hupublic, fun j => ?_⟩
    by_cases hj : j = op.1
    · rw [hj]
      exact hself
    · rw [step_others hstep hj]
      exact huquiet j
  exact ⟨hinv.1, hinv.2.1⟩

/-! ## Both files -/

omit [DecidableEq ι] in
/-- A key without a second file is all there is to write. -/
theorem Holds.finished_made (h : P.Holds old s whole f) (hk : P.encode k = whole)
    (hi : s.parties i = P.made k) : P.Finished s whole := by
  rw [made] at hi
  split at hi
  · next hnone =>
      have hfits := h.fits i
      rw [hi] at hfits
      exact .inr (.inr ⟨f, k, h.key, hfits.2, hk, .inl hnone⟩)
  · exact .inl ⟨i, by rw [hi]; rfl⟩

/-- A program that makes the key goes on, or leaves both files. -/
theorem Finished.call (hs : P.Holds old s whole f) (ht : P.Holds old t whole f')
    (hmaking : (s.parties i).makes = true) (hcall : P.call s i n = some t) :
    P.Finished t whole := by
  have hfits := hs.fits i
  rw [KeyFile.call] at hcall
  -- Only one that creates is spoken of.
  cases hp : s.parties i with
  | start k | found | reading acc | opening k | ok k | failed =>
      rw [hp] at hmaking
      cases hmaking
  | writing k d =>
      rw [hp, hs.key] at hcall
      rw [hp] at hfits
      have hi : t.parties i = P.wrote k (d + (((P.encode k).drop d).take (n + 1)).length) := by
        obtain rfl := Option.some.inj hcall
        exact parties_move ..
      rw [wrote] at hi
      split at hi
      · exact .inl ⟨i, by rw [hi]; rfl⟩
      · split at hi
        · exact .inl ⟨i, by rw [hi]; rfl⟩
        -- The last bytes are written, and the key is whole from now on.
        · exact ht.finished_made hfits.1 hi
  | syncing k =>
      rw [hp] at hcall hfits
      obtain rfl := Option.some.inj hcall
      exact ht.finished_made hfits.1 (parties_move ..)
  | publishing k =>
      rw [hp] at hcall
      obtain rfl := Option.some.inj hcall
      exact .inl ⟨i, by rw [parties_move]; rfl⟩
  | filling k d =>
      rw [hp] at hfits
      obtain ⟨hk, hwhole, hpublic, hdone⟩ := hfits
      rw [hp, hpublic] at hcall
      dsimp only [Option.map_some] at hcall
      obtain ⟨hover, hle⟩ := overlay_front hdone (n + 1)
      rw [hover] at hcall
      split at hcall
      · obtain rfl := Option.some.inj hcall
        exact .inl ⟨i, by rw [parties_move]; rfl⟩
      -- The public half is whole too, so all of it is on disk.
      · next hlt =>
          rw [List.take_of_length_le (Nat.not_lt.mp hlt)] at hcall
          obtain rfl := Option.some.inj hcall
          refine .inr (.inr ⟨f, k, hs.key, hwhole, hk, ?_⟩)
          cases hk' : P.publicKey k with
          | none => exact .inl rfl
          | some b =>
              refine .inr ?_
              rw [KeyFile.move, publicBytes, hk']
              rfl

theorem Finished.step {op : ι × KeyAct} (hfin : P.Finished s whole)
    (hs : P.Holds old s whole f) (hcreates : P.Creates s op) (hstep : P.step s op = some t) :
    ∃ f', P.Holds old t whole f' ∧ P.Finished t whole := by
  obtain ⟨f', ht⟩ := hs.step hcreates hstep
  refine ⟨f', ht, ?_⟩
  by_cases hmaking : (s.parties op.1).makes = true
  · by_cases hop : ∃ n, op.2 = .call n
    · obtain ⟨i, act⟩ := op
      obtain ⟨n, rfl⟩ := hop
      exact Finished.call hs ht hmaking hstep
    · obtain ⟨p, hp, rfl⟩ := step_leave (fun n hn => hop ⟨n, hn⟩) hstep
      rcases hp with rfl | ⟨k, hstart, -⟩
      · exact .inr (.inl ⟨op.1, parties_move ..⟩)
      · rw [hstart] at hmaking
        cases hmaking
  · rcases hfin with ⟨j, hj⟩ | ⟨j, hj⟩ | ⟨g, k, hg, hwhole, hk, hpublic⟩
    · have hne : j ≠ op.1 := fun heq => hmaking (heq ▸ hj)
      exact .inl ⟨j, by rw [step_others hstep hne]; exact hj⟩
    · have hne : j ≠ op.1 := by
        rintro rfl
        rw [step_failed hj] at hstep
        cases hstep
      exact .inr (.inl ⟨j, by rw [step_others hstep hne]; exact hj⟩)
    · obtain ⟨hkey, hpub, -⟩ := step_quiet hs.key (Bool.eq_false_of_not_eq_true hmaking) hcreates
        hstep
      refine .inr (.inr ⟨g, k, hkey.trans hg, hwhole, hk, ?_⟩)
      rw [hpub]
      exact hpublic

omit [DecidableEq ι] in
/-- The second file goes with the key, as far as it is written. -/
theorem Settled.second (h : P.Settled old s) :
    s.publicKey = old ∨ ∃ f k n, s.key = some f ∧ f.2 = P.encode k ∧
      s.publicKey = some ((P.publicBytes k).take n) := by
  cases h with
  | absent hkey hidle hsecond => exact .inl hsecond
  | @present whole f h =>
      rcases h.second with hold | ⟨k, n, hk, hwhole, hpublic⟩
      · exact .inl hold
      · exact .inr ⟨f, k, n, h.key, hwhole.trans hk.symm, hpublic⟩

/-- Where nobody is at it and nobody failed, both files are there or none is. -/
theorem complete_of_run {ops : List (ι × KeyAct)} (hinit : Initial s) (hkey : s.key = none)
    (halong : Run.Along P.step P.Creates s ops) (hrun : Run.run P.step s ops = some t)
    (hquiet : ∀ i, (t.parties i).makes = false) (hfailed : ∀ i, t.parties i ≠ .failed) :
    t.key = none ∨ ∃ whole, P.Complete t whole := by
  -- Nobody has created yet, or the file is a front of the one key of its creator.
  have hinv : t.key = none ∨ ∃ whole f, P.Holds s.publicKey t whole f ∧ P.Finished t whole := by
    refine (Run.invariant_of_along
      (I := fun u => P.Settled s.publicKey u ∧
        (u.key = none ∨ ∃ whole f, P.Holds s.publicKey u whole f ∧ P.Finished u whole))
      (fun u op u' hu hcreates hstep => ⟨hu.1.step hcreates hstep, ?_⟩)
      ⟨Settled.initial hinit, .inl hkey⟩ halong hrun).2
    obtain ⟨hset, hnone | ⟨whole, f, hs, hfin⟩⟩ := hu
    · cases hset with
      | present h =>
          have hno := h.key
          rw [hnone] at hno
          cases hno
      -- While it is absent only an opening creates it.
      | absent _ hidle hsecond =>
          by_cases hopen : (∃ n, op.2 = .call n) ∧ ∃ k, u.parties op.1 = .opening k
          · obtain ⟨⟨n, hn⟩, k, hk⟩ := hopen
            obtain ⟨i, act⟩ := op
            dsimp only at hn hk
            subst hn
            have hcall : P.call u i n = some u' := hstep
            rw [KeyFile.call, hk] at hcall
            dsimp only at hcall
            rw [hnone] at hcall
            obtain rfl := Option.some.inj hcall
            exact .inr ⟨_, _, holds_create hidle hsecond k,
              .inl ⟨i, by rw [parties_move]; rfl⟩⟩
          · refine .inl ?_
            by_cases hop : ∃ n, op.2 = .call n
            · obtain ⟨i, act⟩ := op
              obtain ⟨n, rfl⟩ := hop
              have hcall : P.call u i n = some u' := hstep
              rw [KeyFile.call] at hcall
              have hidlei := hidle i
              cases hp : u.parties i with
              | start k =>
                  rw [hp] at hcall
                  obtain rfl := Option.some.inj hcall
                  exact hnone
              | opening k => exact absurd ⟨⟨n, rfl⟩, k, hp⟩ hopen
              | failed =>
                  rw [hp] at hcall
                  cases hcall
              | found | reading acc | writing k d | syncing k | publishing k | filling k d | ok k =>
                  rw [hp] at hidlei
                  cases hidlei
            · obtain ⟨p, -, rfl⟩ := step_leave (fun n hn => hop ⟨n, hn⟩) hstep
              exact hnone
    -- Once it is there, each step keeps it a front and its creator at work.
    · obtain ⟨f', ht, hfin'⟩ := hfin.step hs hcreates hstep
      exact .inr ⟨whole, f', ht, hfin'⟩
  -- Nobody is at work any more and nobody failed, so it is whole.
  rcases hinv with hnone | ⟨whole, f, -, ⟨i, hi⟩ | ⟨i, hi⟩ | hdone⟩
  · exact .inl hnone
  · rw [hquiet i] at hi
    cases hi
  · exact absurd hi (hfailed i)
  · exact .inr ⟨whole, hdone⟩

/-! ## A program that runs alone -/

theorem step_look (hkey : s.key = none) (hi : s.parties i = .start k) :
    P.step s (i, .call 0) = some (move s i (.opening k)) := by
  rw [KeyFile.step, KeyFile.call, hi]
  dsimp only
  rw [hkey]
  rfl

/-- It opens the file and writes the key. -/
theorem run_open (hi : s.parties i = .opening k) (hopen : s.key = none ∨ P.createNew = false) :
    ∃ ops m, Run.run P.step s ops =
      some ⟨some (m, P.encode k), s.publicKey, Function.update s.parties i (P.made k)⟩ := by
  -- The opening creates the file, or empties the one that is there.
  obtain ⟨m, hm⟩ : ∃ m, P.call s i 0 =
      some (move { s with key := some (m, []) } i (.writing k 0)) := by
    rw [KeyFile.call, hi]
    dsimp only
    cases hkey : s.key with
    | none => exact ⟨P.mode, rfl⟩
    | some f =>
        rcases hopen with hnone | hnew
        · rw [hkey] at hnone
          cases hnone
        · rw [hnew]
          exact ⟨f.1, rfl⟩
  have hall : ((P.encode k).drop 0).take ((P.encode k).length + 1) = P.encode k := by
    rw [List.drop_zero]
    exact List.take_of_length_le (Nat.le_succ _)
  have hover : overlay [] 0 (P.encode k) = P.encode k := by
    rw [overlay, List.take_nil, List.length_nil, Nat.sub_self, List.replicate_zero, List.drop_nil,
      List.append_nil, List.nil_append, List.nil_append]
  -- One write puts the whole text.
  have hwrite : P.call (move { s with key := some (m, []) } i (.writing k 0)) i (P.encode k).length
      = some ⟨some (m, P.encode k), s.publicKey,
          Function.update s.parties i (if P.syncs then .syncing k else P.made k)⟩ := by
    rw [KeyFile.call, parties_move]
    dsimp only [move, Option.map_some]
    rw [hall, hover, Nat.zero_add, wrote, if_neg (Nat.lt_irrefl _), Function.update_idem]
  have hfirst : P.step s (i, .call 0) =
      some (move { s with key := some (m, []) } i (.writing k 0)) := hm
  -- Some of the programs sync the file before they return.
  cases hsync : P.syncs with
  | false =>
      refine ⟨[(i, .call 0), (i, .call (P.encode k).length)], m, ?_⟩
      rw [Run.run_cons hfirst, Run.run_cons (show P.step _ (i, .call _) = _ from hwrite), hsync]
      rfl
  | true =>
      refine ⟨[(i, .call 0), (i, .call (P.encode k).length), (i, .call 0)], m, ?_⟩
      rw [hsync, if_pos rfl] at hwrite
      have hsynced : P.step
          ⟨some (m, P.encode k), s.publicKey, Function.update s.parties i (.syncing k)⟩
          (i, .call 0) =
        some ⟨some (m, P.encode k), s.publicKey, Function.update s.parties i (P.made k)⟩ := by
        rw [KeyFile.step, KeyFile.call]
        dsimp only
        rw [Function.update_self]
        dsimp only [move]
        rw [Function.update_idem]
      rw [Run.run_cons hfirst, Run.run_cons (show P.step _ (i, .call _) = _ from hwrite),
        Run.run_cons hsynced]
      rfl

/-- It writes the second file, when there is one. -/
theorem run_made (hi : s.parties i = P.made k) :
    ∃ ops, Run.run P.step s ops =
      some ⟨s.key, (P.publicKey k).or s.publicKey, Function.update s.parties i (.ok k)⟩ := by
  cases hpub : P.publicKey k with
  | none =>
      refine ⟨[], ?_⟩
      have hok : s.parties i = .ok k := by rw [hi, made, hpub]
      rw [← hok, Function.update_eq_self]
      rfl
  | some b =>
      have hstart : s.parties i = .publishing k := by rw [hi, made, hpub]
      have hbytes : P.publicBytes k = b := by rw [publicBytes, hpub, Option.getD_some]
      have hall : (b.drop 0).take (b.length + 1) = b := by
        rw [List.drop_zero]
        exact List.take_of_length_le (Nat.le_succ _)
      have hover : overlay [] 0 b = b := by
        rw [overlay, List.take_nil, List.length_nil, Nat.sub_self, List.replicate_zero,
          List.drop_nil, List.append_nil, List.nil_append, List.nil_append]
      refine ⟨[(i, .call 0), (i, .call b.length)], ?_⟩
      have hopen : P.step s (i, .call 0) =
          some (move { s with publicKey := some [] } i (.filling k 0)) := by
        rw [KeyFile.step, KeyFile.call, hstart]
      rw [Run.run_cons hopen, Run.run, KeyFile.step, KeyFile.call, parties_move]
      dsimp only [move, Option.map_some, Option.bind_some, Run.run]
      rw [hbytes, hall, hover, Nat.zero_add, if_neg (Nat.lt_irrefl _), Function.update_idem]
      rfl

/-- It makes both files. -/
theorem run_absent (hkey : s.key = none) (hi : s.parties i = .start k) :
    ∃ ops m, Run.run P.step s ops =
      some ⟨some (m, P.encode k), (P.publicKey k).or s.publicKey,
        Function.update s.parties i (.ok k)⟩ := by
  obtain ⟨ops, m, hops⟩ := run_open (P := P) (s := move s i (.opening k)) (parties_move ..)
    (.inl hkey)
  obtain ⟨ops', hops'⟩ := run_made (P := P) (k := k) (i := i)
    (s := ⟨some (m, P.encode k), s.publicKey,
      Function.update (move s i (.opening k)).parties i (P.made k)⟩) (parties_update ..)
  refine ⟨((i, .call 0) :: ops) ++ ops', m, ?_⟩
  rw [Run.run_append, Run.run_cons (step_look hkey hi), hops, Option.bind_some]
  dsimp only [move] at hops' ⊢
  rw [hops', Function.update_idem, Function.update_idem]

/-- It reads the file that is there. -/
theorem run_found (hkey : s.key = some f) (hallows : P.allows f.1 = true)
    (hi : s.parties i = .start k) :
    ∃ ops, Run.run P.step s ops =
      some ⟨s.key, s.publicKey, Function.update s.parties i (P.finish f.2)⟩ := by
  -- It looks, opens, reads everything in one call and then the end.
  have hlook : P.step s (i, .call 0) = some (move s i .found) := by
    rw [KeyFile.step, KeyFile.call, hi]
    dsimp only
    rw [hkey]
    rfl
  have hstat : P.step (move s i .found) (i, .call 0) = some (move s i (.reading [])) := by
    rw [KeyFile.step, KeyFile.call, parties_move]
    dsimp only [move]
    rw [hkey, Option.map_some, if_pos hallows, Function.update_idem]
  have hread : ∀ acc n, P.step (move s i (.reading acc)) (i, .call n) =
      some (move s i (if (f.2.drop acc.length).take (n + 1) = [] then P.finish acc
        else .reading (acc ++ (f.2.drop acc.length).take (n + 1)))) := by
    intro acc n
    rw [KeyFile.step, KeyFile.call, parties_move]
    dsimp only [move]
    rw [hkey, Option.map_some, Function.update_idem]
  -- An empty file is at its end with the first read.
  cases hbytes : f.2 with
  | nil =>
      refine ⟨[(i, .call 0), (i, .call 0), (i, .call 0)], ?_⟩
      have hend := hread [] 0
      rw [hbytes, List.length_nil, List.drop_nil, List.take_nil, if_pos rfl] at hend
      rw [Run.run_cons hlook, Run.run_cons hstat, Run.run_cons hend]
      rfl
  | cons b bs =>
      refine ⟨[(i, .call 0), (i, .call 0), (i, .call f.2.length), (i, .call 0)], ?_⟩
      have hwhole := hread [] f.2.length
      have hend := hread f.2 0
      rw [List.length_nil, List.drop_zero, List.take_of_length_le (Nat.le_succ _), List.nil_append,
        if_neg (by rw [hbytes]; exact List.cons_ne_nil b bs)] at hwhole
      rw [List.drop_length, List.take_nil, if_pos rfl] at hend
      rw [Run.run_cons hlook, Run.run_cons hstat, Run.run_cons hwhole, Run.run_cons hend, hbytes]
      rfl

/-- **A file that is truncated.**  Two programs that look before either has opened the file
    end with a key each; the file has the one, and the second file what goes with the
    other. -/
theorem run_truncates (hnew : P.createNew = false) {j : ι} (hij : i ≠ j) {k' : K}
    (hkey : s.key = none) (hi : s.parties i = .start k) (hj : s.parties j = .start k') :
    ∃ ops m, Run.run P.step s ops =
      some ⟨some (m, P.encode k'), (P.publicKey k).or ((P.publicKey k').or s.publicKey),
        Function.update (Function.update s.parties i (.ok k)) j (.ok k')⟩ := by
  -- Both look while the key is absent, so both go on to create it.
  have hlook : Run.run P.step s [(i, .call 0), (j, .call 0)] =
      some ⟨s.key, s.publicKey,
        Function.update (Function.update s.parties i (.opening k)) j (.opening k')⟩ := by
    have hjs : (move s i (.opening k)).parties j = .start k' := by
      rw [move]
      dsimp only
      rw [Function.update_of_ne (Ne.symm hij), hj]
    rw [Run.run_cons (step_look hkey hi), Run.run_cons (step_look (s := move s i _) hkey hjs)]
    rfl
  -- The first creates the key; then the second opens the same file and empties it.
  obtain ⟨opsi, m, hopsi⟩ := run_open (P := P) (k := k) (i := i)
    (s := ⟨s.key, s.publicKey,
      Function.update (Function.update s.parties i (.opening k)) j (.opening k')⟩)
    (by dsimp only; rw [Function.update_of_ne hij, Function.update_self]) (.inr hnew)
  obtain ⟨opsj, m', hopsj⟩ := run_open (P := P) (k := k') (i := j)
    (s := ⟨some (m, P.encode k), s.publicKey,
      Function.update (Function.update (Function.update s.parties i (.opening k)) j (.opening k'))
        i (P.made k)⟩)
    (by dsimp only; rw [Function.update_of_ne (Ne.symm hij), Function.update_self]) (.inr hnew)
  -- The public files are written in the order of the keys.
  obtain ⟨pubj, hpubj⟩ := run_made (P := P) (k := k') (i := j)
    (s := ⟨some (m', P.encode k'), s.publicKey,
      Function.update (Function.update (Function.update (Function.update s.parties i (.opening k))
        j (.opening k')) i (P.made k)) j (P.made k')⟩)
    (by dsimp only; rw [Function.update_self])
  obtain ⟨pubi, hpubi⟩ := run_made (P := P) (k := k) (i := i)
    (s := ⟨some (m', P.encode k'), (P.publicKey k').or s.publicKey,
      Function.update (Function.update (Function.update (Function.update
        (Function.update s.parties i (.opening k)) j (.opening k')) i (P.made k)) j (P.made k'))
        j (.ok k')⟩)
    (by dsimp only; rw [Function.update_of_ne hij, Function.update_of_ne hij, Function.update_self])
  -- The first program ends last, with a key that the file does not hold.
  refine ⟨[(i, .call 0), (j, .call 0)] ++ (opsi ++ (opsj ++ (pubj ++ pubi))), m', ?_⟩
  rw [Run.run_append, hlook, Option.bind_some, Run.run_append, hopsi, Option.bind_some,
    Run.run_append, hopsj, Option.bind_some, Run.run_append, hpubj, Option.bind_some, hpubi]
  refine congrArg some (congrArg (KeyFiles.mk _ _) ?_)
  funext a
  dsimp only
  by_cases hai : a = i
  · subst hai
    rw [Function.update_self, Function.update_of_ne hij, Function.update_self]
  · by_cases haj : a = j
    · subst haj
      rw [Function.update_of_ne hai, Function.update_self, Function.update_self]
    · simp only [Function.update_of_ne hai, Function.update_of_ne haj]

/-- **Agreement.**  Programs that make the key at the same time agree, whatever the order of
    their calls, exactly when they open only a file that nobody had. -/
theorem agree_iff {j : ι} (hij : i ≠ j) {k' : K} (hk : k ≠ k') (hinit : Initial s)
    (hkey : s.key = none) (hi : s.parties i = .start k) (hj : s.parties j = .start k') :
    (∀ ops t, Run.run P.step s ops = some t →
      ∀ a b x y, t.parties a = .ok x → t.parties b = .ok y → x = y) ↔ P.createNew = true := by
  constructor
  · intro hagree
    by_contra hnew
    obtain ⟨ops, m, hrun⟩ :=
      run_truncates (Bool.eq_false_of_not_eq_true hnew) hij hkey hi hj
    refine hk (hagree ops _ hrun i j k k' ?_ ?_)
    · dsimp only
      rw [Function.update_of_ne hij, Function.update_self]
    · dsimp only
      rw [Function.update_self]
  · intro hnew ops t hrun a b x y ha hb
    have hset : P.Settled s.publicKey t :=
      settled_of_run (Settled.initial hinit)
        (Run.along_of_forall (fun _ _ _ => .inl hnew) s) hrun
    exact hset.agree ha hb

end KeyFile

end Lib
