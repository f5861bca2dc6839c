/-
  Maranode.Api.RateLimit

  `state.rs` and `routes/chat.rs`: how many requests of a workspace, and how many attempts
  of an address, are let through in a minute.

  A key has a counter and the second its window began.  A request that comes a minute
  later begins another window and is let through, whatever came just before and whatever
  the limit is.  Entries are dropped only when they are two minutes old.
-/
import Maranode.Api.ChatHandler
import Maranode.Lib.Run
import Maranode.Lib.Table
import Maranode.Lib.Windows

namespace Maranode.Api

open Lib Lib.Windows

/-! ## The limiter -/

/-- An entry of the map, `(count, start)`. -/
structure Counter where
  key : String
  count : UInt32
  start : Nat
  deriving DecidableEq

abbrev Limiter := Table Counter.key

/-- `retain`, when the map has more than `bound` entries. -/
def Limiter.retain (bound : Nat) (m : Limiter) (now : Nat) : Limiter :=
  if bound < m.rows.length then m.deleteWhere fun e => !decide (now - e.start < 120) else m

/-- What a request makes of its entry, and whether it is let through. -/
def Counter.hit (e : Counter) (limit : UInt32) (now : Nat) : Counter × Bool :=
  if 60 ≤ now - e.start then ({ e with count := 1, start := now }, true)
  else
    let count := saturatingAdd e.count 1
    ({ e with count := count }, !decide (limit < count))

/-- The entry is looked up, or begins with this request. -/
def Limiter.check (bound : Nat) (m : Limiter) (key : String) (limit : UInt32) (now : Nat) :
    Limiter × Bool :=
  let kept := m.retain bound now
  let hit := ((kept.get key).getD ⟨key, 0, now⟩).hit limit now
  (kept.put hit.1, hit.2)

def rateLimited (msg : String) : ApiError := ⟨429, msg⟩

def checkAuthIpRate (m : Limiter) (ip : String) (maxPerMinute : UInt32) (now : Nat) :
    Limiter × ApiResult Unit :=
  let out := m.check 4096 ip maxPerMinute now
  (out.1, if out.2 then .ok ()
    else .error (rateLimited "too many login attempts from this IP, try again in a minute"))

/-- The rate limit of a chat request. -/
def checkWorkspaceRate (m : Limiter) (ws : Store.Workspace) (now : Nat) :
    Limiter × ApiResult Unit :=
  match ws.rateLimitRpm with
  | none => (m, .ok ())
  | some rpm =>
      let out := m.check 1024 ws.slug rpm now
      (out.1, if out.2 then .ok ()
        else .error (serviceUnavailable
          s!"workspace '{ws.slug}' rate limit of {rpm} rpm exceeded"))

/-! ## Runs -/

/-- A call of either: without a limit it does nothing. -/
structure Attempt where
  key : String
  limit : Option UInt32
  now : Nat

def Limiter.attempt (bound : Nat) (m : Limiter) (a : Attempt) : Limiter × Bool :=
  match a.limit with
  | none => (m, true)
  | some limit => m.check bound a.key limit a.now

/-- What is let through. -/
def Limiter.passing (bound : Nat) (m : Limiter) : List Attempt → List Attempt
  | [] => []
  | a :: as =>
      (if (m.attempt bound a).2 then [a] else []) ++ Limiter.passing bound (m.attempt bound a).1 as

def timesOf (key : String) (as : List Attempt) : List Nat :=
  (as.filter fun a => decide (a.key = key)).map Attempt.now

/-- A request does not find an entry of the key that is a minute old. -/
def Limiter.Live (bound : Nat) (key : String) (m : Limiter) (a : Attempt) : Prop :=
  a.key = key → ∀ e, (m.retain bound a.now).get key = some e → a.now - e.start < 60

/-- The entry of a key is the newest of its windows, or that is a minute old. -/
def Limiter.Tracks (m : Limiter) (key : String) (ws : List Window) (now : Nat) : Prop :=
  match m.get key with
  | none => ∀ w ∈ ws, w.start + 60 ≤ now
  | some e => ∃ w rest, ws = w :: rest ∧ e.start = w.start ∧
      e.count.toNat = min w.times.length (2 ^ 32 - 1)

variable {bound : Nat} {m : Limiter} {key : String} {limit : UInt32} {ws : List Window}
  {now t : Nat} {a : Attempt} {as : List Attempt}

theorem toNat_saturatingAdd_one (n : UInt32) :
    (saturatingAdd n 1).toNat = min (n.toNat + 1) (2 ^ 32 - 1) := by
  have hlt := n.toNat_lt
  have hone : (1 : UInt32).toNat = 1 := rfl
  rw [saturatingAdd, hone]
  split
  · next hfits =>
      rw [UInt32.toNat_add, hone, Nat.mod_eq_of_lt hfits]
      omega
  · have hmax : (0xFFFFFFFF : UInt32).toNat = 2 ^ 32 - 1 := rfl
    rw [hmax]
    omega

theorem tracks_empty : Limiter.Tracks .empty key [] now :=
  fun _ hw => absurd hw List.not_mem_nil

theorem Limiter.Tracks.later (h : m.Tracks key ws now) (hnow : now ≤ t) : m.Tracks key ws t := by
  rw [Tracks] at h ⊢
  split at h
  · exact fun w hw => Nat.le_trans (h w hw) hnow
  · exact h

/-- What is dropped is two minutes old, and its window has ended. -/
theorem Limiter.Tracks.retain (bound : Nat) (h : m.Tracks key ws now)
    (hgrouped : Grouped 60 ws now) (hnow : now ≤ t) : (m.retain bound t).Tracks key ws t := by
  rw [Limiter.retain]
  split
  · rw [Tracks, Table.get_deleteWhere]
    have hlater := h.later hnow
    rw [Tracks] at hlater
    cases hget : m.get key with
    | none =>
        rw [hget] at hlater
        exact hlater
    | some e =>
        rw [hget] at hlater
        obtain ⟨w, rest, rfl, hstart, hcount⟩ := hlater
        rw [Option.filter_some, Bool.not_not]
        by_cases hrecent : t - e.start < 120
        · rw [decide_eq_true hrecent, if_pos rfl]
          exact ⟨w, rest, rfl, hstart, hcount⟩
        · rw [decide_eq_false hrecent, if_neg Bool.false_ne_true]
          show ∀ v ∈ w :: rest, v.start + 60 ≤ t
          rw [List.forall_mem_cons]
          refine ⟨by omega, fun v hv => ?_⟩
          have hbefore := (List.pairwise_cons.mp hgrouped.spaced).1 v hv
          omega
  · exact h.later hnow

theorem current_of_ended (h : ∀ w ∈ ws, w.start + 60 ≤ t) : current 60 t ws = ⟨t, []⟩ :: ws := by
  cases ws with
  | nil => rfl
  | cons w rest =>
      have hw := h w List.mem_cons_self
      exact if_pos (by omega)

theorem tracks_put {e : Counter} {w : Window} {rest : List Window} (hkey : e.key = key)
    (hstart : e.start = w.start) (hcount : e.count.toNat = min w.times.length (2 ^ 32 - 1)) :
    Limiter.Tracks (m.put e) key (w :: rest) t := by
  rw [Limiter.Tracks, Table.get_put, ← hkey, Function.update_self]
  exact ⟨w, rest, rfl, hstart, hcount⟩

/-- A request of a key: its entry is that of the window `w` that the request is in, and it is
    let through when the window has room; under the limit zero, when the entry is a minute
    old. -/
structure Limiter.Checks (bound : Nat) (m : Limiter) (key : String) (limit : UInt32) (t : Nat)
    (ws : List Window) (w : Window) : Prop where
  tracks : (m.check bound key limit t).1.Tracks key (arrive 60 ws t) t
  passes : limit ≠ 0 → ((m.check bound key limit t).2 = true ↔
    limit.toNat = 2 ^ 32 - 1 ∨ w.times.length < limit.toNat)
  resets : limit = 0 → ((m.check bound key limit t).2 = true ↔
    ¬ ∀ e, (m.retain bound t).get key = some e → t - e.start < 60)

theorem toNat_pos_of_ne_zero (h : limit ≠ 0) : 0 < limit.toNat := by
  rw [Nat.pos_iff_ne_zero]
  exact fun hzero => h (UInt32.toNat_inj.mp hzero)

/-- The first request, or the first since the entry was dropped. -/
theorem checks_of_get_eq_none (hget : (m.retain bound t).get key = none)
    (hcurrent : current 60 t ws = ⟨t, []⟩ :: ws) : m.Checks bound key limit t ws ⟨t, []⟩ := by
  have hhit : Counter.hit ⟨key, 0, t⟩ limit t = (⟨key, 1, t⟩, !decide (limit < 1)) := by
    have hbegins : ¬ 60 ≤ t - t := by omega
    exact if_neg hbegins
  constructor
  · rw [Limiter.check, hget, arrive, hcurrent, Option.getD_none, hhit]
    exact tracks_put rfl rfl rfl
  · intro hne
    have hlimit := toNat_pos_of_ne_zero hne
    have hone : (1 : UInt32).toNat = 1 := rfl
    rw [Limiter.check, hget, Option.getD_none, hhit, Bool.not_eq_true', decide_eq_false_iff_not,
      UInt32.lt_iff_toNat_lt, hone]
    exact iff_of_true (by omega) (.inr hlimit)
  · intro hzero
    rw [Limiter.check, hget, Option.getD_none, hhit, hzero]
    exact iff_of_false Bool.false_ne_true fun hlive => hlive fun e he => by cases he

/-- A request that finds its window over. -/
theorem checks_of_expired {e : Counter} (hget : (m.retain bound t).get key = some e)
    (hexpired : 60 ≤ t - e.start) (hcurrent : current 60 t ws = ⟨t, []⟩ :: ws) :
    m.Checks bound key limit t ws ⟨t, []⟩ := by
  have hhit : e.hit limit t = ({ e with count := 1, start := t }, true) := if_pos hexpired
  constructor
  · rw [Limiter.check, hget, arrive, hcurrent, Option.getD_some, hhit]
    exact tracks_put (Table.get_eq_some.mp hget).2 rfl rfl
  · intro hne
    rw [Limiter.check, hget, Option.getD_some, hhit]
    exact iff_of_true rfl (.inr (toNat_pos_of_ne_zero hne))
  · intro hzero
    rw [Limiter.check, hget, Option.getD_some, hhit]
    refine iff_of_true rfl fun hlive => ?_
    have hrecent := hlive e rfl
    omega

/-- A request within its window. -/
theorem checks_of_live {e : Counter} {w : Window} {rest : List Window}
    (hget : (m.retain bound t).get key = some e) (hlive : ¬ 60 ≤ t - e.start)
    (hcurrent : current 60 t ws = w :: rest) (hstart : e.start = w.start)
    (hcount : e.count.toNat = min w.times.length (2 ^ 32 - 1)) :
    m.Checks bound key limit t ws w := by
  have hhit : e.hit limit t = ({ e with count := saturatingAdd e.count 1 },
      !decide (limit < saturatingAdd e.count 1)) := if_neg hlive
  have hnext : (saturatingAdd e.count 1).toNat = min (w.times.length + 1) (2 ^ 32 - 1) := by
    rw [toNat_saturatingAdd_one, hcount]
    omega
  constructor
  · rw [Limiter.check, hget, arrive, hcurrent, Option.getD_some, hhit]
    refine tracks_put (Table.get_eq_some.mp hget).2 hstart ?_
    rw [List.length_append, List.length_singleton]
    exact hnext
  · intro hne
    have hlimit := toNat_pos_of_ne_zero hne
    have hmax := limit.toNat_lt
    rw [Limiter.check, hget, Option.getD_some, hhit, Bool.not_eq_true', decide_eq_false_iff_not,
      UInt32.lt_iff_toNat_lt, hnext]
    omega
  · intro hzero
    rw [Limiter.check, hget, Option.getD_some, hhit, hzero, Bool.not_eq_true',
      decide_eq_false_iff_not, UInt32.lt_iff_toNat_lt, hnext]
    refine iff_of_false ?_ fun hold => hold fun e' he' => ?_
    · have hnone : (0 : UInt32).toNat = 0 := rfl
      omega
    · rw [← Option.some.inj he']
      omega

theorem check_spec (bound : Nat) (limit : UInt32) (hgrouped : Grouped 60 ws now)
    (hnow : now ≤ t) (h : m.Tracks key ws now) :
    ∃ w rest, current 60 t ws = w :: rest ∧ m.Checks bound key limit t ws w := by
  have hkept := h.retain bound hgrouped hnow
  rw [Limiter.Tracks] at hkept
  cases hget : (m.retain bound t).get key with
  | none =>
      rw [hget] at hkept
      have hcurrent := current_of_ended hkept
      exact ⟨⟨t, []⟩, ws, hcurrent, checks_of_get_eq_none hget hcurrent⟩
  | some e =>
      rw [hget] at hkept
      obtain ⟨w, rest, rfl, hstart, hcount⟩ := hkept
      by_cases hexpired : 60 ≤ t - e.start
      · have hcurrent : current 60 t (w :: rest) = ⟨t, []⟩ :: w :: rest :=
          if_pos (by rwa [hstart] at hexpired)
        exact ⟨⟨t, []⟩, w :: rest, hcurrent, checks_of_expired hget hexpired hcurrent⟩
      · have hcurrent : current 60 t (w :: rest) = w :: rest :=
          if_neg (by rwa [hstart] at hexpired)
        exact ⟨w, rest, hcurrent, checks_of_live hget hexpired hcurrent hstart hcount⟩

/-! ## Runs of attempts -/

theorem timesOf_append (as bs : List Attempt) :
    timesOf key (as ++ bs) = timesOf key as ++ timesOf key bs := by
  rw [timesOf, List.filter_append, List.map_append]
  rfl

theorem timesOf_cons_of_eq (h : a.key = key) : timesOf key (a :: as) = a.now :: timesOf key as := by
  rw [timesOf, List.filter_cons, if_pos (decide_eq_true h), List.map_cons]
  rfl

theorem timesOf_cons_of_ne (h : a.key ≠ key) : timesOf key (a :: as) = timesOf key as := by
  rw [timesOf, List.filter_cons, if_neg (by rwa [decide_eq_true_iff])]
  rfl

/-- A request of another key. -/
theorem timesOf_passing_of_ne (h : a.key ≠ key) :
    timesOf key (m.passing bound (a :: as)) =
      timesOf key ((m.attempt bound a).1.passing bound as) := by
  rw [Limiter.passing, timesOf_append]
  split
  · rw [timesOf_cons_of_ne h]
    rfl
  · rfl

theorem timesOf_passing_of_eq (h : a.key = key) :
    timesOf key (m.passing bound (a :: as)) =
      (if (m.attempt bound a).2 = true then [a.now] else []) ++
        timesOf key ((m.attempt bound a).1.passing bound as) := by
  rw [Limiter.passing, timesOf_append]
  split
  · rw [timesOf_cons_of_eq h]
    rfl
  · rfl

theorem key_hit (e : Counter) (limit : UInt32) (now : Nat) : (e.hit limit now).1.key = e.key := by
  rw [Counter.hit]
  split
  · rfl
  · rfl

theorem Limiter.Tracks.attempt_of_ne (h : m.Tracks key ws now) (hgrouped : Grouped 60 ws now)
    (hnow : now ≤ a.now) (hkey : a.key ≠ key) : (m.attempt bound a).1.Tracks key ws a.now := by
  rw [Limiter.attempt]
  split
  · exact h.later hnow
  · next limit hlimit =>
      have hentry : ((((m.retain bound a.now).get a.key).getD ⟨a.key, 0, a.now⟩).hit limit
          a.now).1.key = a.key := by
        rw [key_hit]
        cases hget : (m.retain bound a.now).get a.key with
        | none => rfl
        | some e => exact (Table.get_eq_some.mp hget).2
      rw [Limiter.check, Tracks, Table.get_put, hentry, Function.update_of_ne hkey.symm]
      exact h.retain bound hgrouped hnow

/-- The windows of a key along a run: what a request of another key keeps, and what a request
    of the key keeps, a run keeps. -/
theorem run_induction (bound : Nat) (key : String) (limit : UInt32)
    {P : Limiter → List Window → List Attempt → Prop}
    (hnil : ∀ m ws, P m ws [])
    (hother : ∀ m ws a as, a.key ≠ key → P (m.attempt bound a).1 ws as → P m ws (a :: as))
    (hown : ∀ m ws a as w rest, a.key = key → current 60 a.now ws = w :: rest →
      (limit ≠ 0 → ((m.attempt bound a).2 = true ↔
        limit.toNat = 2 ^ 32 - 1 ∨ w.times.length < limit.toNat)) →
      (limit = 0 → ((m.attempt bound a).2 = true ↔ ¬ m.Live bound key a)) →
      P (m.attempt bound a).1 (arrive 60 ws a.now) as → P m ws (a :: as)) :
    ∀ (as : List Attempt) (m : Limiter) (ws : List Window) (now : Nat),
      as.Pairwise (fun a b => a.now ≤ b.now) → (∀ a ∈ as, now ≤ a.now) →
      (∀ a ∈ as, a.key = key → a.limit = some limit) → Grouped 60 ws now → m.Tracks key ws now →
      P m ws as := by
  -- The induction is on the attempts; the windows are those of this key only.
  intro as
  induction as with
  | nil => exact fun m ws _ _ _ _ _ _ => hnil m ws
  | cons a as ih =>
      intro m ws now hsorted hnow hlimit hgrouped htracks
      have hparts := List.pairwise_cons.mp hsorted
      have ha := hnow a List.mem_cons_self
      have hrest : ∀ b ∈ as, b.key = key → b.limit = some limit :=
        fun b hb => hlimit b (List.mem_cons_of_mem _ hb)
      -- An attempt of the key falls into the current window, or opens one.
      by_cases hkey : a.key = key
      · have hattempt : m.attempt bound a = m.check bound key limit a.now := by
          rw [Limiter.attempt, hlimit a List.mem_cons_self hkey, hkey]
        obtain ⟨w, rest, hcurrent, hchecks⟩ := check_spec bound limit hgrouped ha htracks
        refine hown m ws a as w rest hkey hcurrent ?_ (fun hzero => ?_) ?_
        · rw [hattempt]
          exact hchecks.passes
        · rw [hattempt, hchecks.resets hzero, Limiter.Live, imp_iff_right hkey]
        · rw [hattempt]
          exact ih _ _ _ hparts.2 hparts.1 hrest (grouped_arrive hgrouped ha (by decide))
            hchecks.tracks
      -- An attempt of another key may prune, and leaves what the key has.
      · refine hother m ws a as hkey ?_
        exact ih _ _ _ hparts.2 hparts.1 hrest (hgrouped.later ha)
          (htracks.attempt_of_ne hgrouped ha hkey)

/-- What is let through of a key, under a limit: the first of each window. -/
theorem timesOf_passing_of_lt (hpos : limit ≠ 0) (hlt : limit.toNat < 2 ^ 32 - 1)
    (hsorted : as.Pairwise fun a b => a.now ≤ b.now)
    (hlimit : ∀ a ∈ as, a.key = key → a.limit = some limit) :
    timesOf key (Limiter.passing bound .empty as) =
      passed limit.toNat (windows 60 (timesOf key as)) := by
  have hrun := run_induction bound key limit
    (P := fun m ws as => passed limit.toNat ((timesOf key as).foldl (arrive 60) ws) =
      passed limit.toNat ws ++ timesOf key (m.passing bound as))
    (fun m ws => (List.append_nil _).symm)
    (fun m ws a as hkey ih => by
      rw [timesOf_cons_of_ne hkey, timesOf_passing_of_ne hkey]
      exact ih)
    (fun m ws a as w rest hkey hcurrent hroom _ ih => by
      have hpasses : (m.attempt bound a).2 = true ↔ w.times.length < limit.toNat := by
        rw [hroom hpos, or_iff_right (Nat.ne_of_lt hlt)]
      rw [timesOf_cons_of_eq hkey, List.foldl_cons, ih, timesOf_passing_of_eq hkey,
        passed_arrive hcurrent, List.append_assoc]
      simp only [hpasses])
    as .empty [] 0 hsorted (fun a _ => Nat.zero_le _) hlimit grouped_nil tracks_empty
  exact hrun.symm

/-- Under a limit that the counter cannot pass, all is let through. -/
theorem timesOf_passing_of_max (hmax : limit.toNat = 2 ^ 32 - 1)
    (hsorted : as.Pairwise fun a b => a.now ≤ b.now)
    (hlimit : ∀ a ∈ as, a.key = key → a.limit = some limit) :
    timesOf key (Limiter.passing bound .empty as) = timesOf key as := by
  have hpos : limit ≠ 0 := by
    rintro rfl
    cases hmax
  exact run_induction bound key limit
    (P := fun m _ as => timesOf key (m.passing bound as) = timesOf key as)
    (fun m ws => rfl)
    (fun m ws a as hkey ih => by rw [timesOf_cons_of_ne hkey, timesOf_passing_of_ne hkey, ih])
    (fun m ws a as w rest hkey hcurrent hroom _ ih => by
      rw [timesOf_cons_of_eq hkey, timesOf_passing_of_eq hkey, ih,
        if_pos ((hroom hpos).mpr (.inl hmax))]
      rfl)
    as .empty [] 0 hsorted (fun a _ => Nat.zero_le _) hlimit grouped_nil tracks_empty

/-- The limiter as the state of a run. -/
def Limiter.next (bound : Nat) (m : Limiter) (a : Attempt) : Option Limiter :=
  some (m.attempt bound a).1

theorem Limiter.next_eq (bound : Nat) (m : Limiter) (a : Attempt) :
    m.next bound a = some (m.attempt bound a).1 := rfl

/-- Under the limit zero, what finds an entry that is a minute old is let through. -/
theorem timesOf_passing_of_zero (hsorted : as.Pairwise fun a b => a.now ≤ b.now)
    (hlimit : ∀ a ∈ as, a.key = key → a.limit = some 0) :
    timesOf key (Limiter.passing bound .empty as) = [] ↔
      Run.Along (Limiter.next bound) (Limiter.Live bound key) .empty as := by
  exact run_induction bound key 0
    (P := fun m _ as => timesOf key (m.passing bound as) = [] ↔
      Run.Along (Limiter.next bound) (Limiter.Live bound key) m as)
    (fun m ws => iff_of_true rfl trivial)
    (fun m ws a as hkey ih => by
      rw [timesOf_passing_of_ne hkey, ih, Run.along_cons (Limiter.next_eq bound m a)]
      exact (and_iff_right fun hsame => absurd hsame hkey).symm)
    (fun m ws a as w rest hkey hcurrent _ hold ih => by
      rw [timesOf_passing_of_eq hkey, List.append_eq_nil_iff, ih,
        Run.along_cons (Limiter.next_eq bound m a)]
      refine and_congr_left fun _ => ?_
      rw [← not_not (a := m.Live bound key a), ← hold rfl]
      split
      · next hpasses => exact iff_of_false (List.cons_ne_nil _ _) fun h => h hpasses
      · next hrefused => exact iff_of_true rfl hrefused)
    as .empty [] 0 hsorted (fun a _ => Nat.zero_le _) hlimit grouped_nil tracks_empty

/-- When the limiter keeps to its limit over every minute: each window keeps its distance to
    the one before; under a limit of zero, no request finds an entry that is a minute
    old; and under the greatest limit, which no counter passes, no minute has more
    requests. -/
structure Limiter.Meets (bound : Nat) (key : String) (limit : UInt32) (as : List Attempt) :
    Prop where
  zero : limit = 0 → Run.Along (Limiter.next bound) (Limiter.Live bound key) .empty as
  paced : limit ≠ 0 → limit.toNat < 2 ^ 32 - 1 →
    Paced 60 limit.toNat (windows 60 (timesOf key as))
  greatest : limit.toNat = 2 ^ 32 - 1 → Sliding 60 limit.toNat (timesOf key as)

theorem sliding_passing_iff (hsorted : as.Pairwise fun a b => a.now ≤ b.now)
    (hlimit : ∀ a ∈ as, a.key = key → a.limit = some limit) :
    Sliding 60 limit.toNat (timesOf key (Limiter.passing bound .empty as)) ↔
      Limiter.Meets bound key limit as := by
  have hzero : limit = 0 → limit.toNat = 0 := fun h => by rw [h]; rfl
  have hbound := limit.toNat_lt
  by_cases h0 : limit = 0
  · rw [hzero h0, sliding_zero_iff (by decide), timesOf_passing_of_zero hsorted (h0 ▸ hlimit)]
    have hzero' := hzero h0
    exact ⟨fun h => ⟨fun _ => h, fun hne => absurd h0 hne, fun hmax => by omega⟩,
      fun h => h.zero h0⟩
  · rcases Nat.lt_or_ge limit.toNat (2 ^ 32 - 1) with hlt | hge
    · have hordered : (timesOf key as).Pairwise (· ≤ ·) :=
        (hsorted.sublist List.filter_sublist).map _ fun _ _ h => h
      rw [timesOf_passing_of_lt h0 hlt hsorted hlimit, sliding_windows_iff (by decide) hordered]
      exact ⟨fun h => ⟨fun h' => absurd h' h0, fun _ _ => h, fun hmax => by omega⟩,
        fun h => h.paced h0 hlt⟩
    · have hmax : limit.toNat = 2 ^ 32 - 1 := by omega
      rw [timesOf_passing_of_max hmax hsorted hlimit]
      exact ⟨fun h => ⟨fun h' => absurd h' h0, fun _ hlt => by omega, fun _ => h⟩,
        fun h => h.greatest hmax⟩

/-! ## Both limiters -/

structure ChatArrival where
  ws : Store.Workspace
  now : Nat

structure AuthArrival where
  ip : String
  maxPerMinute : UInt32
  now : Nat

def ChatArrival.check (m : Limiter) (a : ChatArrival) : Limiter × ApiResult Unit :=
  checkWorkspaceRate m a.ws a.now

def AuthArrival.check (m : Limiter) (a : AuthArrival) : Limiter × ApiResult Unit :=
  checkAuthIpRate m a.ip a.maxPerMinute a.now

def ChatArrival.attempt (a : ChatArrival) : Attempt := ⟨a.ws.slug, a.ws.rateLimitRpm, a.now⟩

def AuthArrival.attempt (a : AuthArrival) : Attempt := ⟨a.ip, some a.maxPerMinute, a.now⟩

/-- The requests that pass, in order. -/
def granted {ω : Type} (check : Limiter → ω → Limiter × ApiResult Unit) (m : Limiter) :
    List ω → List ω
  | [] => []
  | o :: os => (if (check m o).2.isOk then [o] else []) ++ granted check (check m o).1 os

theorem granted_map {ω : Type} {check : Limiter → ω → Limiter × ApiResult Unit} {f : ω → Attempt}
    (h : ∀ m o, (check m o).1 = (m.attempt bound (f o)).1 ∧
      (check m o).2.isOk = (m.attempt bound (f o)).2) (m : Limiter) (os : List ω) :
    (granted check m os).map f = m.passing bound (os.map f) := by
  induction os generalizing m with
  | nil => rfl
  | cons o os ih =>
      rw [granted, List.map_append, ih, (h m o).1, (h m o).2, List.map_cons, Limiter.passing]
      split
      · rfl
      · rfl

theorem isOk_answer (ok : Bool) (e : ApiError) :
    (if ok then .ok () else .error e : ApiResult Unit).isOk = ok := by
  cases ok with
  | false => rfl
  | true => rfl

theorem chatArrival_check (m : Limiter) (a : ChatArrival) :
    (a.check m).1 = (m.attempt 1024 a.attempt).1 ∧
      (a.check m).2.isOk = (m.attempt 1024 a.attempt).2 := by
  rw [ChatArrival.check, checkWorkspaceRate, Limiter.attempt, ChatArrival.attempt]
  cases a.ws.rateLimitRpm with
  | none => exact ⟨rfl, rfl⟩
  | some rpm => exact ⟨rfl, isOk_answer _ _⟩

theorem authArrival_check (m : Limiter) (a : AuthArrival) :
    (a.check m).1 = (m.attempt 4096 a.attempt).1 ∧
      (a.check m).2.isOk = (m.attempt 4096 a.attempt).2 :=
  ⟨rfl, isOk_answer _ _⟩

/-- **Rate limits.**  For requests at times in order, however the keys are mixed and whatever
    is dropped in between, a limiter keeps to the limit of a key over every minute exactly
    when the requests of the key meet the condition of its windows. -/
theorem rateLimits_hold_iff (key : String) (limit : UInt32) :
    (∀ arrivals : List ChatArrival, (arrivals.Pairwise fun a b => a.now ≤ b.now) →
      (∀ a ∈ arrivals, a.ws.slug = key → a.ws.rateLimitRpm = some limit) →
      (Sliding 60 limit.toNat (timesOf key
          ((granted (fun m a => a.check m) .empty arrivals).map ChatArrival.attempt)) ↔
        Limiter.Meets 1024 key limit (arrivals.map ChatArrival.attempt))) ∧
    ∀ arrivals : List AuthArrival, (arrivals.Pairwise fun a b => a.now ≤ b.now) →
      (∀ a ∈ arrivals, a.ip = key → a.maxPerMinute = limit) →
      (Sliding 60 limit.toNat (timesOf key
          ((granted (fun m a => a.check m) .empty arrivals).map AuthArrival.attempt)) ↔
        Limiter.Meets 4096 key limit (arrivals.map AuthArrival.attempt)) := by
  constructor
  · intro arrivals hsorted hlimit
    rw [granted_map chatArrival_check]
    refine sliding_passing_iff (List.pairwise_map.mpr hsorted) fun a ha => ?_
    obtain ⟨arrival, harrival, rfl⟩ := List.mem_map.mp ha
    exact hlimit arrival harrival
  · intro arrivals hsorted hlimit
    rw [granted_map authArrival_check]
    refine sliding_passing_iff (List.pairwise_map.mpr hsorted) fun a ha hkey => ?_
    obtain ⟨arrival, harrival, rfl⟩ := List.mem_map.mp ha
    exact congrArg some (hlimit arrival harrival hkey)

/-! ## Across the edge of a window -/

def chatAt (rpm : UInt32) (now : Nat) : ChatArrival :=
  ⟨{ defaultWorkspace with rateLimitRpm := some rpm }, now⟩

def loginAt (now : Nat) : AuthArrival := ⟨"192.0.2.7", 20, now⟩

/-- Requests that keep their pace over the edge of a window. -/
theorem paced_requests_hold :
    Sliding 60 2 (timesOf "default" ((granted (fun m a => a.check m) .empty
        ([0, 10, 70, 75, 80].map (chatAt 2))).map ChatArrival.attempt)) ∧
      Sliding 60 20 (timesOf "192.0.2.7" ((granted (fun m a => a.check m) .empty
        ([5, 64, 65].map loginAt)).map AuthArrival.attempt)) := by
  constructor
  · obtain ⟨hchat, -⟩ := rateLimits_hold_iff "default" 2
    refine (hchat _ (by decide) ?_).mpr ⟨?_, fun _ _ => by decide, ?_⟩
    · intro a ha _
      obtain ⟨now, -, rfl⟩ := List.mem_map.mp ha
      rfl
    · exact fun h => absurd h (by decide)
    · exact fun h => absurd h (by decide)
  · obtain ⟨-, hauth⟩ := rateLimits_hold_iff "192.0.2.7" 20
    refine (hauth _ (by decide) ?_).mpr ⟨?_, fun _ _ => by decide, ?_⟩
    · intro a ha _
      obtain ⟨now, -, rfl⟩ := List.mem_map.mp ha
      rfl
    · exact fun h => absurd h (by decide)
    · exact fun h => absurd h (by decide)

/-- Three requests pass within three seconds under a limit of two, and thirty-nine attempts
    within two seconds under a limit of twenty. -/
theorem not_rateLimits_hold :
    ¬ Sliding 60 2 (timesOf "default" ((granted (fun m a => a.check m) .empty
        ([0, 59, 60, 61].map (chatAt 2))).map ChatArrival.attempt)) ∧
      ¬ Sliding 60 20 (timesOf "192.0.2.7" ((granted (fun m a => a.check m) .empty
        ((0 :: List.replicate 19 59 ++ List.replicate 20 60).map loginAt)).map
          AuthArrival.attempt)) := by
  constructor
  · intro h
    exact absurd (h 59) (by decide +kernel)
  · intro h
    exact absurd (h 59) (by decide +kernel)

end Maranode.Api
