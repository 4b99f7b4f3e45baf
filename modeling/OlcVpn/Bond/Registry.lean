/-
  The LANE REGISTRY of the bond server (`bond-server/main.go`).

  Lanes are accepted one by one, in any order and from anywhere.  `handleLane` reads the Hello,
  turns away a bad one, and files the lane under its connection id; the first lane of an id creates
  the session and arms a timer, and the lane that makes the session complete takes it out of the map
  and serves it.  `expire`, the timer's callback, takes whatever session the map THEN holds under
  the id out and closes its lanes.  Both critical sections hold `r.mu`, so each is one step.

  `timer.Stop()` cannot call back a timer whose callback has already been started and is waiting for
  the lock, so a timer is `armed`, then `fired`, then `over`, and stopping moves only an armed one.

  Ghost: a session carries its number `sid` (Go has the pointer), `log` holds for every accepted
  connection the Hello it was admitted with, or `none` if it was closed at once, and a lane IS its
  index in `log`.  `served` and `expired` record what left the map and how.

  The bookkeeping is two permutations — the lanes of all sessions are the admitted lanes, and the
  numbers of all sessions are `0 … n-1` — from which every "exactly once" follows.
-/
import Mathlib.Data.List.AList
import OlcVpn.Lib.Runs
import OlcVpn.Bond.Wire

namespace OlcVpn.Bond

open Runs List
open Option (some)

/-- Sanity bound on a single bonded connection. -/
def maxLaneCount : Nat := 16

structure Session where
  sid : Nat
  want : Nat
  lanes : List Nat
  deriving DecidableEq, Repr

inductive TimerState where
  | armed
  | fired
  | over
  deriving DecidableEq, Repr

structure Timer where
  connID : UInt64
  state : TimerState
  deriving DecidableEq, Repr

/-- `timers` is indexed by session number. -/
structure Registry where
  sessions : AList (fun _ : UInt64 => Session)
  timers : List Timer
  log : List (Option Hello)
  served : List Session
  expired : List Session

def Registry.start : Registry := ⟨∅, [], [], [], []⟩

inductive RegEvent where
  /-- a lane is accepted and delivers these bytes -/
  | lane (bytes : Bytes)
  /-- the runtime starts the callback of session `t`'s timer -/
  | fire (t : Nat)
  /-- that callback gets the lock -/
  | expire (t : Nat)
  deriving DecidableEq, Repr

/-- `timer.Stop()`. -/
def Timer.stop (t : Timer) : Timer :=
  match t.state with
  | .armed => { t with state := .over }
  | _ => t

variable (r : Registry)

/-- The session a lane with this Hello joins: the one in the map, or a new one with its timer. -/
def Registry.sessionFor (h : Hello) : Session × List Timer :=
  match r.sessions.lookup h.connID with
  | some s => (s, r.timers)
  | none => (⟨r.timers.length, h.laneCount.toNat, []⟩, r.timers ++ [⟨h.connID, .armed⟩])

/-- The critical section of `handleLane`. -/
def Registry.register (h : Hello) : Registry :=
  let (s, timers) := r.sessionFor h
  let s := { s with lanes := s.lanes ++ [r.log.length] }
  if s.lanes.length ≥ s.want then
    { r with
      sessions := r.sessions.erase h.connID
      timers := timers.modify s.sid Timer.stop
      log := r.log ++ [some h]
      served := r.served ++ [s] }
  else
    { r with
      sessions := r.sessions.insert h.connID s
      timers := timers
      log := r.log ++ [some h] }

/-- A lane closed before it reached the map. -/
def Registry.turnAway : Registry := { r with log := r.log ++ [none] }

def Registry.handleLane (bytes : Bytes) : Registry :=
  match readHello bytes with
  | .error _ => r.turnAway
  | .ok h =>
    let want := h.laneCount.toNat
    if want ≤ 0 ∨ want > maxLaneCount then r.turnAway else r.register h

/-- `expire(connID)`, run by the timer of session `t`. -/
def Registry.expire (t : Nat) (connID : UInt64) : Registry :=
  let timers := r.timers.set t ⟨connID, .over⟩
  match r.sessions.lookup connID with
  | none => { r with timers := timers }
  | some s =>
    { r with
      sessions := r.sessions.erase connID
      timers := timers
      expired := r.expired ++ [s] }

def regStep : RegEvent → Registry
  | .lane bytes => r.handleLane bytes
  | .fire t =>
    match r.timers[t]? with
    | some ⟨connID, .armed⟩ => { r with timers := r.timers.set t ⟨connID, .fired⟩ }
    | _ => r
  | .expire t =>
    match r.timers[t]? with
    | some ⟨connID, .fired⟩ => r.expire t connID
    | _ => r

/-! ## Counting sessions and lanes -/

def live (m : AList (fun _ : UInt64 => Session)) : List Session := m.entries.map Sigma.snd

/-- Every session there ever was: in the map, served, or expired. -/
def Registry.all : List Session := live r.sessions ++ (r.served ++ r.expired)

/-- The lanes whose Hello was accepted. -/
def admitted (log : List (Option Hello)) : List Nat :=
  (List.range log.length).filter fun i => (log[i]?.join).isSome

variable {i : Nat} {m : AList (fun _ : UInt64 => Session)} {s : Session} {k : UInt64}

/-- The lanes that were let in, by their place in the log. -/
theorem mem_admitted {log : List (Option Hello)} :
    i ∈ admitted log ↔ ∃ h, log[i]? = some (some h) := by
  rw [admitted, mem_filter, mem_range]
  constructor
  · rintro ⟨-, hi⟩
    obtain ⟨h, hh⟩ := Option.isSome_iff_exists.mp hi
    exact ⟨h, Option.join_eq_some_iff.mp hh⟩
  · rintro ⟨h, hh⟩
    obtain ⟨hlt, -⟩ := List.getElem?_eq_some_iff.mp hh
    exact ⟨hlt, by rw [hh]; rfl⟩

theorem admitted_nodup (log : List (Option Hello)) : (admitted log).Nodup := nodup_range.filter _

theorem admitted_append (log : List (Option Hello)) (x : Option Hello) :
    admitted (log ++ [x]) = admitted log ++ if x.isSome then [log.length] else [] := by
  rw [admitted, length_append, length_singleton, range_succ, filter_append, admitted]
  congr 1
  · refine filter_congr fun i hi => ?_
    rw [List.getElem?_append_left (mem_range.mp hi)]
  · rw [filter_singleton, getElem?_concat_length]
    cases x <;> rfl

theorem mem_live : s ∈ live m ↔ ∃ k, m.lookup k = some s := by
  rw [live, mem_map]
  constructor
  · rintro ⟨⟨k, s'⟩, hmem, rfl⟩
    exact ⟨k, AList.mem_lookup_iff.mpr hmem⟩
  · rintro ⟨k, hk⟩
    exact ⟨⟨k, s⟩, AList.mem_lookup_iff.mp hk, rfl⟩

theorem lookup_of_erase {a : UInt64} (h : (m.erase a).lookup k = some s) : m.lookup k = some s := by
  by_cases hk : k = a
  · rw [hk, AList.lookup_erase] at h
    cases h
  · rw [AList.lookup_erase_ne hk] at h
    exact h

/-- Taking a session out of the map takes one session out. -/
theorem live_erase (h : m.lookup k = some s) : (live m).Perm (s :: live (m.erase k)) := by
  have hmem : k ∈ m.entries.keys := by
    show k ∈ m
    rw [← AList.lookup_isSome, h]; rfl
  obtain ⟨b, l₁, l₂, hk, hentries, herase⟩ := exists_of_kerase hmem
  have hb : b = s := by
    have : m.lookup k = some b := AList.mem_lookup_iff.mpr (by rw [hentries]; simp)
    exact some.inj (this.symm.trans h)
  have hrest : (m.erase k).entries = l₁ ++ l₂ := herase
  rw [live, live, hrest, hentries, hb, map_append, map_cons, map_append]
  exact perm_middle

theorem live_erase_of_none (h : m.lookup k = none) : live (m.erase k) = live m := by
  have hk : k ∉ m.entries.keys := AList.lookup_eq_none.mp h
  rw [live, live]
  show (m.entries.kerase k).map Sigma.snd = _
  rw [kerase_of_notMem_keys hk]

/-- Registering a session takes the place of the one under its key. -/
theorem live_insert (m : AList (fun _ : UInt64 => Session)) (k : UInt64) (s : Session) :
    live (m.insert k s) = s :: live (m.erase k) := by
  rw [live, AList.entries_insert]
  rfl

/-! ## What is known of a session -/

/-- All lanes of the session announced connection `k`, and its first lane announced `want`. -/
structure Session.Announced (log : List (Option Hello)) (k : UInt64) (s : Session) : Prop where
  same_id : ∀ i ∈ s.lanes, ∃ h, log[i]? = some (some h) ∧ h.connID = k
  first : ∃ i rest h, s.lanes = i :: rest ∧ log[i]? = some (some h) ∧ h.laneCount.toNat = s.want

/-- What was announced stays announced. -/
theorem Session.Announced.mono {log : List (Option Hello)} (h : s.Announced log k)
    (x : Option Hello) : s.Announced (log ++ [x]) k := by
  refine ⟨?_, ?_⟩
  · intro i hi
    obtain ⟨g, hg, hk⟩ := h.same_id i hi
    exact ⟨g, getElem?_append_of_some hg [x], hk⟩
  · obtain ⟨i, rest, g, hl, hg, hw⟩ := h.first
    exact ⟨i, rest, g, hl, getElem?_append_of_some hg [x], hw⟩

structure RegOk (r : Registry) : Prop where
  lanes_perm : (r.all.flatMap Session.lanes).Perm (admitted r.log)
  sids_perm : (r.all.map Session.sid).Perm (List.range r.timers.length)
  announced : ∀ s ∈ r.all, ∃ k, s.Announced r.log k
  live_ok : ∀ k s, r.sessions.lookup k = some s → s.Announced r.log k ∧ s.lanes.length < s.want
  served_ok : ∀ s ∈ r.served, s.lanes.length = s.want
  within : ∀ s ∈ r.all, s.lanes.length ≤ s.want

theorem start_regOk : RegOk Registry.start := by
  have hnone : Registry.start.all = [] := rfl
  refine ⟨List.Perm.refl _, List.Perm.refl _, ?_, ?_, ?_, ?_⟩
  · intro s hs; rw [hnone] at hs; exact absurd hs (by simp)
  · intro k s hs
    rw [show Registry.start.sessions = ∅ from rfl, AList.lookup_empty] at hs
    exact absurd hs (by simp)
  · intro s hs; exact absurd hs (by simp [Registry.start])
  · intro s hs; rw [hnone] at hs; exact absurd hs (by simp)

variable {r : Registry}

/-! ## The steps -/

/-- A lane turned away is no lane of any session. -/
theorem turnAway_ok (h : RegOk r) : RegOk r.turnAway := by
  refine ⟨?_, h.sids_perm, ?_, ?_, h.served_ok, h.within⟩
  · show (r.all.flatMap Session.lanes).Perm (admitted (r.log ++ [none]))
    rw [admitted_append]
    simpa using h.lanes_perm
  · intro s hs
    obtain ⟨k, hk⟩ := h.announced s hs
    exact ⟨k, hk.mono none⟩
  · intro k s hs
    obtain ⟨hk, hlt⟩ := h.live_ok k s hs
    exact ⟨hk.mono none, hlt⟩

/-- Everything except the session the lane joins. -/
def Registry.rest (r : Registry) (h : Hello) : List Session :=
  live (r.sessions.erase h.connID) ++ (r.served ++ r.expired)

/-- The session a lane joins, before the lane is appended: with it and the rest the books of `r`
    still balance, a fresh session holding no lane yet. -/
theorem sessionFor_spec (hok : RegOk r) (h : Hello) :
    ((r.sessionFor h).1.lanes ++ (r.rest h).flatMap Session.lanes).Perm (admitted r.log) ∧
      ((r.sessionFor h).1.sid :: (r.rest h).map Session.sid).Perm
        (List.range (r.sessionFor h).2.length) ∧
      (∀ i ∈ (r.sessionFor h).1.lanes, ∃ g, r.log[i]? = some (some g) ∧ g.connID = h.connID) ∧
      (((r.sessionFor h).1.lanes = [] ∧ (r.sessionFor h).1.want = h.laneCount.toNat) ∨
        ((r.sessionFor h).1.Announced r.log h.connID ∧
          (r.sessionFor h).1.lanes.length < (r.sessionFor h).1.want)) := by
  rw [Registry.sessionFor]
  cases hl : r.sessions.lookup h.connID with
  | some s =>
    obtain ⟨hann, hlt⟩ := hok.live_ok _ s hl
    have hall : r.all.Perm (s :: r.rest h) := (live_erase hl).append_right _
    refine ⟨?_, ?_, hann.same_id, Or.inr ⟨hann, hlt⟩⟩
    · exact (hall.flatMap_right Session.lanes).symm.trans hok.lanes_perm
    · exact (hall.map Session.sid).symm.trans hok.sids_perm
  | none =>
    have hall : r.rest h = r.all := by
      rw [Registry.rest, live_erase_of_none hl]; rfl
    refine ⟨?_, ?_, fun i hi => absurd hi (by simp), Or.inl ⟨rfl, rfl⟩⟩
    · rw [hall]; exact hok.lanes_perm
    · rw [hall]
      show (r.timers.length :: _).Perm (List.range (r.timers ++ [_]).length)
      rw [length_append, length_singleton, range_succ]
      exact (hok.sids_perm.cons _).trans (perm_append_singleton _ _).symm

/-- The session with its new lane has announced what it must. -/
theorem joined_announced (hok : RegOk r) (h : Hello) :
    Session.Announced (r.log ++ [some h]) h.connID
      { (r.sessionFor h).1 with lanes := (r.sessionFor h).1.lanes ++ [r.log.length] } := by
  obtain ⟨-, -, hids, hcase⟩ := sessionFor_spec hok h
  have hnew : (r.log ++ [some h])[r.log.length]? = some (some h) := getElem?_concat_length
  refine ⟨?_, ?_⟩
  · intro i hi
    rcases mem_append.mp hi with hi | hi
    · obtain ⟨g, hg, hk⟩ := hids i hi
      exact ⟨g, getElem?_append_of_some hg _, hk⟩
    · rw [mem_singleton.mp hi]
      exact ⟨h, hnew, rfl⟩
  · rcases hcase with ⟨hnil, hwant⟩ | ⟨hann, -⟩
    · exact ⟨r.log.length, [], h, by simp [hnil], hnew, hwant.symm⟩
    · obtain ⟨i, rest, g, hl, hg, hw⟩ := (hann.mono (some h)).first
      exact ⟨i, rest ++ [r.log.length], g, by simp [hl], hg, hw⟩

/-- Whether or not the lane completes the session, afterwards there are: the session with its lane,
    and the rest. -/
theorem register_all (r : Registry) (h : Hello) : (r.register h).all.Perm ({ (r.sessionFor h).1 with
      lanes := (r.sessionFor h).1.lanes ++ [r.log.length] } :: r.rest h) ∧
    (r.register h).log = r.log ++ [some h] ∧ (r.register h).timers.length =
      (r.sessionFor h).2.length := by
  rw [Registry.register]
  simp only
  split
  · refine ⟨?_, rfl, by simp⟩
    simp only [Registry.all, Registry.rest, append_assoc, singleton_append]
    exact (perm_middle.append_left _).trans perm_middle
  · refine ⟨?_, rfl, rfl⟩
    simp only [Registry.all, Registry.rest, live_insert]
    exact List.Perm.refl _

/-- What the map then holds: the session of the lane if it is still short, everybody else as before.
    -/
theorem lookup_register {h : Hello} (hs : (r.register h).sessions.lookup k = some s) :
    (k ≠ h.connID ∧ r.sessions.lookup k = some s) ∨ (k = h.connID ∧ s.lanes.length < s.want ∧
        s = { (r.sessionFor h).1 with lanes := (r.sessionFor h).1.lanes ++ [r.log.length] }) := by
  revert hs
  rw [Registry.register]
  simp only
  by_cases hk : k = h.connID
  · subst hk
    split
    · rw [AList.lookup_erase]
      intro hs
      cases hs
    · rename_i hshort
      rw [AList.lookup_insert]
      intro hs
      obtain rfl := some.inj hs
      exact .inr ⟨rfl, Nat.lt_of_not_le hshort, rfl⟩
  · split
    · rw [AList.lookup_erase_ne hk]
      exact fun hs => .inl ⟨hk, hs⟩
    · rw [AList.lookup_insert_ne hk]
      exact fun hs => .inl ⟨hk, hs⟩

/-- Registering keeps the registry in order. -/
theorem register_ok (hok : RegOk r) (h : Hello) (hpos : 0 < h.laneCount.toNat) :
    RegOk (r.register h) := by
  obtain ⟨hlanes, hsids, -, hcase⟩ := sessionFor_spec hok h
  obtain ⟨hall, hlog, htimers⟩ := register_all r h
  have hann := joined_announced hok h
  -- the rest of the sessions are old ones
  have hold : ∀ s ∈ r.rest h, s ∈ r.all := by
    intro s hs
    rcases mem_append.mp hs with hs | hs
    · obtain ⟨k, hk⟩ := mem_live.mp hs
      exact mem_append.mpr (Or.inl (mem_live.mpr ⟨k, lookup_of_erase hk⟩))
    · exact mem_append.mpr (Or.inr hs)
  have hroom : ((r.sessionFor h).1.lanes ++ [r.log.length]).length ≤ (r.sessionFor h).1.want := by
    rw [length_append, length_singleton]
    rcases hcase with ⟨hnil, hwant⟩ | ⟨-, hlt⟩
    · rw [hnil, length_nil]; omega
    · omega
  refine ⟨?_, ?_, ?_, ?_, ?_, ?_⟩
  · rw [hlog, admitted_append]
    refine (hall.flatMap_right Session.lanes).trans ?_
    simp only [flatMap_cons, Option.isSome_some, if_true]
    rw [append_assoc]
    refine List.Perm.trans ?_ (hlanes.append_right [r.log.length])
    rw [append_assoc]
    exact List.Perm.append_left _ perm_append_comm
  · rw [htimers]
    exact (hall.map Session.sid).trans hsids
  · intro s hs
    rw [hlog]
    rcases mem_cons.mp (hall.mem_iff.mp hs) with rfl | hs
    · exact ⟨_, hann⟩
    · obtain ⟨k, hk⟩ := hok.announced s (hold s hs)
      exact ⟨k, hk.mono _⟩
  · intro k s hs
    rw [hlog]
    rcases lookup_register hs with ⟨-, hl⟩ | ⟨rfl, hshort, rfl⟩
    · obtain ⟨hk, hlt⟩ := hok.live_ok k s hl
      exact ⟨hk.mono _, hlt⟩
    · exact ⟨hann, hshort⟩
  · intro s hs
    revert hs
    rw [Registry.register]
    simp only
    split
    · rename_i hfull
      intro hs
      rcases mem_append.mp hs with hs | hs
      · exact hok.served_ok s hs
      · rw [mem_singleton.mp hs]
        exact Nat.le_antisymm hroom hfull
    · intro hs
      exact hok.served_ok s hs
  · intro s hs
    rcases mem_cons.mp (hall.mem_iff.mp hs) with rfl | hs
    · exact hroom
    · exact hok.within s (hold s hs)

/-- And so does every lane that comes in. -/
theorem handleLane_ok (hok : RegOk r) (bytes : Bytes) : RegOk (r.handleLane bytes) := by
  rw [Registry.handleLane]
  cases hh : readHello bytes with
  | error e => exact turnAway_ok hok
  | ok h =>
    simp only
    split
    · exact turnAway_ok hok
    · exact register_ok hok h (by omega)

/-- Only the number of timers matters to the books. -/
theorem RegOk.of_timers (h : RegOk r) {timers : List Timer}
    (hlen : timers.length = r.timers.length) : RegOk { r with timers := timers } :=
  ⟨h.lanes_perm, by rw [hlen]; exact h.sids_perm, h.announced, h.live_ok, h.served_ok,
    h.within⟩

/-- And a timer that fires. -/
theorem expire_ok (hok : RegOk r) (t : Nat) (connID : UInt64) : RegOk (r.expire t connID) := by
  rw [Registry.expire]
  cases hl : r.sessions.lookup connID with
  | none => exact hok.of_timers (by simp)
  | some s =>
    -- the session moves from the map to `expired`
    have hall : (live (r.sessions.erase connID) ++ (r.served ++ (r.expired ++ [s]))).Perm
        r.all := by
      refine List.Perm.trans ?_ ((live_erase hl).append_right _).symm
      rw [← append_assoc, ← append_assoc]
      refine (perm_append_singleton s _).trans ?_
      rw [append_assoc]
      exact List.Perm.refl _
    refine ⟨(hall.flatMap_right _).trans hok.lanes_perm, ?_, ?_, ?_, hok.served_ok, ?_⟩
    · rw [length_set]
      exact (hall.map _).trans hok.sids_perm
    · intro s' hs'
      exact hok.announced s' (hall.mem_iff.mp hs')
    · intro k s' hs'
      exact hok.live_ok k s' (lookup_of_erase hs')
    · intro s' hs'
      exact hok.within s' (hall.mem_iff.mp hs')

/-- **The step lemma of the registry.** -/
theorem reg_step (hok : RegOk r) (ev : RegEvent) : RegOk (regStep r ev) := by
  fun_cases regStep r ev with
  | case1 bytes => exact handleLane_ok hok bytes
  | case2 t connID ht => exact hok.of_timers (by simp)
  | case3 | case5 => exact hok
  | case4 t connID ht => exact expire_ok hok t connID

/-! ## Every schedule -/

variable (es : List RegEvent)

/-- The byte strings of the lanes, in the order in which they were filed. -/
def arrivals : List Bytes :=
  es.filterMap fun
    | .lane bytes => some bytes
    | _ => none

/-- The Hello a lane is admitted with: it parses, and announces between one and sixteen lanes. -/
def acceptHello (bytes : Bytes) : Option Hello :=
  match readHello bytes with
  | .error _ => none
  | .ok h => if 1 ≤ h.laneCount.toNat ∧ h.laneCount.toNat ≤ maxLaneCount then some h else none

/-- Every lane is noted, refused ones too. -/
theorem handleLane_log (r : Registry) (bytes : Bytes) :
    (r.handleLane bytes).log = r.log ++ [acceptHello bytes] := by
  rw [Registry.handleLane, acceptHello]
  cases hh : readHello bytes with
  | error e => rfl
  | ok h =>
    simp only
    by_cases hbad : h.laneCount.toNat ≤ 0 ∨ h.laneCount.toNat > maxLaneCount
    · rw [if_pos hbad, if_neg (by omega)]; rfl
    · rw [if_neg hbad, if_pos (by omega)]; exact (register_all r h).2.1

/-- The log of a run is what arrived, in order. -/
theorem run_log : ∀ (es : List RegEvent) (r : Registry),
    (run regStep r es).log = r.log ++ (arrivals es).map acceptHello := by
  intro es
  induction es with
  | nil => intro r; exact (append_nil _).symm
  | cons ev es ih =>
    intro r
    rw [run_cons, ih]
    cases ev with
    | lane bytes =>
      show (r.handleLane bytes).log ++ _ = _
      rw [handleLane_log]
      simp [arrivals]
    | fire t =>
      have hlog : (regStep r (.fire t)).log = r.log := by
        rw [regStep]; split <;> rfl
      rw [hlog]; rfl
    | expire t =>
      have hlog : (regStep r (.expire t)).log = r.log := by
        rw [regStep]
        split
        · rw [Registry.expire]; split <;> rfl
        · rfl
      rw [hlog]; rfl

/-- The registry after a schedule. -/
def Registry.after : Registry := run regStep .start es

/-- THE INVARIANT holds after every run. -/
theorem reg_run : RegOk (Registry.after es) :=
  run_inv (I := RegOk) (fun _ ev hok => reg_step hok ev) es _ start_regOk

theorem after_log : (Registry.after es).log = (arrivals es).map acceptHello := by
  rw [Registry.after, run_log]
  rfl

/-- A place in the log is a lane that arrived there and was accepted. -/
theorem log_eq_some {es : List RegEvent} {h : Hello} :
    (Registry.after es).log[i]? = some (some h) ↔ (arrivals es)[i]?.bind acceptHello = some h := by
  rw [after_log, getElem?_map]
  cases (arrivals es)[i]? <;> simp

/-- An accepted hello was read whole. -/
theorem readHello_of_accept {bytes : Bytes} {h : Hello} (ha : acceptHello bytes = some h) :
    readHello bytes = .ok h := by
  rw [acceptHello] at ha
  split at ha
  · exact absurd ha (by simp)
  · rename_i g hg
    split at ha
    · rw [hg, some.inj ha]
    · exact absurd ha (by simp)

/-- No lane is in two sessions. -/
theorem RegOk.lanes_nodup {r : Registry} (hok : RegOk r) : (r.all.flatMap Session.lanes).Nodup :=
  hok.lanes_perm.nodup_iff.mpr (admitted_nodup r.log)

/-- Two sessions with a lane in common are one. -/
theorem RegOk.eq_of_mem_lanes {r : Registry} (hok : RegOk r) {a b : Session} (ha : a ∈ r.all)
    (hb : b ∈ r.all) (hia : i ∈ a.lanes) (hib : i ∈ b.lanes) : a = b := by
  by_contra hne
  have hpair := (nodup_flatMap.mp hok.lanes_nodup).2
  have hsymm : Std.Symm (Function.onFun List.Disjoint Session.lanes) := ⟨fun _ _ h => h.symm⟩
  exact hpair.forall ha hb hne hia hib

/-- **Who owns a lane.**  In every schedule of lanes and timers: a lane whose Hello is accepted is
    in exactly one session, once; a session that has left the map left it once and is not in it; no
    lane is both served and closed by `expire`; and a session is served with exactly the number of
    lanes its first lane announced. -/
theorem lane_ownership : (∀ i h, (arrivals es)[i]?.bind acceptHello = some h →
        (∃! a, a ∈ (Registry.after es).all ∧ i ∈ a.lanes) ∧
          ((Registry.after es).all.flatMap Session.lanes).count i = 1) ∧
      ((Registry.after es).all.map Session.sid).Nodup ∧
      (∀ a ∈ (Registry.after es).served, ∀ b ∈ (Registry.after es).expired, ∀ i ∈ a.lanes,
        i ∉ b.lanes) ∧
      (∀ a ∈ (Registry.after es).served, ∃ i rest bytes h, a.lanes = i :: rest ∧
        (arrivals es)[i]? = some bytes ∧ readHello bytes = .ok h ∧
          a.lanes.length = h.laneCount.toNat) := by
  have hok := reg_run es
  have hserved : ∀ a ∈ (Registry.after es).served, a ∈ (Registry.after es).all := fun a ha =>
    mem_append.mpr (Or.inr (mem_append.mpr (Or.inl ha)))
  have hsids : ((Registry.after es).all.map Session.sid).Nodup :=
    hok.sids_perm.nodup_iff.mpr nodup_range
  refine ⟨?_, hsids, ?_, ?_⟩
  · intro i h hi
    have hmem : i ∈ (Registry.after es).all.flatMap Session.lanes :=
      hok.lanes_perm.mem_iff.mpr (mem_admitted.mpr ⟨h, log_eq_some.mpr hi⟩)
    refine ⟨?_, count_eq_one_of_mem hok.lanes_nodup hmem⟩
    obtain ⟨a, ha, hia⟩ := mem_flatMap.mp hmem
    refine ⟨a, ⟨ha, hia⟩, ?_⟩
    rintro b ⟨hb, hib⟩
    exact hok.eq_of_mem_lanes hb ha hib hia
  · -- a common lane would make them one session, listed twice
    intro a ha b hb i hia hib
    have hall : (Registry.after es).all = live (Registry.after es).sessions ++
      ((Registry.after es).served ++ (Registry.after es).expired) := rfl
    have heq : a = b := hok.eq_of_mem_lanes (hserved a ha)
      (mem_append.mpr (Or.inr (mem_append.mpr (Or.inr hb)))) hia hib
    have hnodup : ((Registry.after es).served ++ (Registry.after es).expired).Nodup := by
      have := List.Nodup.of_map _ hsids
      rw [hall] at this
      exact this.of_append_right
    exact disjoint_of_nodup_append hnodup ha (heq ▸ hb)
  · intro a ha
    obtain ⟨k, hk⟩ := hok.announced a (hserved a ha)
    obtain ⟨i, rest, h, hl, hlog, hwant⟩ := hk.first
    obtain ⟨bytes, hbytes, hacc⟩ := Option.bind_eq_some_iff.mp (log_eq_some.mp hlog)
    exact ⟨i, rest, bytes, h, hl, hbytes, readHello_of_accept hacc,
      (hok.served_ok a ha).trans hwant.symm⟩

/-! ## Whose session a timer closes -/

/-- The callback of session `t` takes out session `t` and no other. -/
def ClosesOwn (r : Registry) : RegEvent → Prop
  | .expire t => ∀ s ∈ (regStep r (.expire t)).expired, s ∈ r.expired ∨ s.sid = t
  | _ => True

/-- When a callback that was waiting gets the lock after its own session has left the map, nobody
    has registered under the same id since. -/
def NotReplaced (r : Registry) : RegEvent → Prop
  | .expire t => ∀ connID, r.timers[t]? = some ⟨connID, .fired⟩ →
      t ∈ (r.served ++ r.expired).map Session.sid → connID ∉ r.sessions
  | _ => True

/-- The ids the timers are armed for, by session number. -/
def Registry.ids (r : Registry) : List UInt64 := r.timers.map Timer.connID

/-- The timer of a session in the map is armed for the id the session is filed under. -/
def Keyed (r : Registry) : Prop := ∀ k s, r.sessions.lookup k = some s → r.ids[s.sid]? = some k

theorem map_connID_stop (timers : List Timer) (i : Nat) :
    (timers.modify i Timer.stop).map Timer.connID = timers.map Timer.connID := by
  have hstop : ∀ t : Timer, t.stop.connID = t.connID := by
    intro t
    rw [Timer.stop]
    split <;> rfl
  refine ext_getElem? fun j => ?_
  rw [List.getElem?_map, List.getElem?_map, getElem?_modify]
  cases timers[j]? <;> simp [apply_ite Timer.connID, hstop]

theorem map_connID_set {timers : List Timer} {t : Nat} {connID : UInt64} {state : TimerState}
    (ht : timers[t]? = some ⟨connID, state⟩) (state' : TimerState) :
    (timers.set t ⟨connID, state'⟩).map Timer.connID = timers.map Timer.connID := by
  rw [map_set]
  obtain ⟨hlt, heq⟩ := List.getElem?_eq_some_iff.mp ht
  refine ext_getElem? fun j => ?_
  by_cases hj : t = j
  · subst hj
    simp [hlt, heq]
  · rw [getElem?_set_ne hj]

theorem keyed_register (hkeyed : Keyed r) (h : Hello) : Keyed (r.register h) := by
  have hids : (r.register h).ids = (r.sessionFor h).2.map Timer.connID := by
    rw [Registry.register, Registry.ids]
    simp only
    split
    · exact map_connID_stop _ _
    · rfl
  -- the timers there were keep their ids, and the session of the lane has the id of the lane
  have hfor : (∃ more, (r.register h).ids = r.ids ++ more) ∧
      (r.register h).ids[(r.sessionFor h).1.sid]? = some h.connID := by
    rw [hids, Registry.sessionFor]
    cases hl : r.sessions.lookup h.connID with
    | some s => exact ⟨⟨[], (append_nil _).symm⟩, hkeyed _ s hl⟩
    | none => exact ⟨⟨[h.connID], map_append⟩, by simp⟩
  obtain ⟨⟨more, hmore⟩, hown⟩ := hfor
  intro k s hs
  rcases lookup_register hs with ⟨-, hl⟩ | ⟨rfl, -, rfl⟩
  · rw [hmore]
    exact getElem?_append_of_some (hkeyed k s hl) more
  · exact hown

/-- Timers are started for the key they carry and never moved to another. -/
theorem keyed_step (hkeyed : Keyed r) (ev : RegEvent) : Keyed (regStep r ev) := by
  fun_cases regStep r ev with
  | case1 bytes =>
    rw [Registry.handleLane]
    split
    · exact hkeyed
    · dsimp only
      split
      · exact hkeyed
      · exact keyed_register hkeyed _
  | case2 t connID ht =>
    intro k s hs
    rw [Registry.ids, map_connID_set ht]
    exact hkeyed k s hs
  | case3 | case5 => exact hkeyed
  | case4 t connID ht =>
    have hids : (r.expire t connID).ids = r.ids := by
      rw [Registry.expire]
      split <;> exact map_connID_set ht _
    have hless : ∀ k s, (r.expire t connID).sessions.lookup k = some s →
        r.sessions.lookup k = some s := by
      intro k s
      rw [Registry.expire]
      split
      · exact id
      · exact lookup_of_erase
    intro k s hs
    rw [hids]
    exact hkeyed k s (hless k s hs)

/-- A callback that finds a session finds its own exactly if its own has not left the map. -/
theorem sid_eq_iff (hok : RegOk r) (hkeyed : Keyed r) {t : Nat} (ht : r.ids[t]? = some k)
    (hs : r.sessions.lookup k = some s) :
    s ∉ r.expired ∧ (s.sid = t ↔ t ∉ (r.served ++ r.expired).map Session.sid) := by
  have hnodup : (r.all.map Session.sid).Nodup := hok.sids_perm.nodup_iff.mpr nodup_range
  rw [Registry.all, map_append] at hnodup
  have hgone : s.sid ∉ (r.served ++ r.expired).map Session.sid :=
    disjoint_of_nodup_append hnodup (mem_map_of_mem (mem_live.mpr ⟨k, hs⟩))
  refine ⟨fun hmem => hgone (mem_map_of_mem (mem_append_right _ hmem)), fun h => h ▸ hgone,
    fun hleft => ?_⟩
  -- session `t` exists and is none of those that left, so it is in the map, and under this id
  have hlt : t < r.timers.length := by
    obtain ⟨hlt, -⟩ := List.getElem?_eq_some_iff.mp ht
    simpa [Registry.ids] using hlt
  have hmem := hok.sids_perm.mem_iff.mpr (mem_range.mpr hlt)
  rw [Registry.all, map_append, mem_append] at hmem
  obtain ⟨own, hown, rfl⟩ := mem_map.mp (hmem.resolve_right hleft)
  obtain ⟨k', hk'⟩ := mem_live.mp hown
  rw [hkeyed k' own hk'] at ht
  rw [some.inj ht, hs] at hk'
  rw [some.inj hk']

/-- A timer closes its own session exactly if nobody registered under its id meanwhile. -/
theorem closesOwn_iff (hok : RegOk r) (hkeyed : Keyed r) (ev : RegEvent) :
    ClosesOwn r ev ↔ NotReplaced r ev := by
  cases ev with
  | lane bytes | fire t => exact Iff.rfl
  | expire t =>
    rw [ClosesOwn, NotReplaced, regStep]
    split
    · rename_i connID ht
      have hid : r.ids[t]? = some connID := by
        rw [Registry.ids, List.getElem?_map, ht]
        rfl
      simp only [ht, some.injEq, Timer.mk.injEq, and_true, forall_eq']
      rw [Registry.expire]
      cases hl : r.sessions.lookup connID with
      | none => exact iff_of_true (fun s hs => .inl hs) fun _ => AList.lookup_eq_none.mp hl
      | some s =>
        obtain ⟨hnot, hiff⟩ := sid_eq_iff hok hkeyed hid hl
        have hin : connID ∈ r.sessions := by
          rw [← AList.lookup_isSome, hl]
          rfl
        have hclosed : (∀ a ∈ r.expired ++ [s], a ∈ r.expired ∨ a.sid = t) ↔ s.sid = t := by
          constructor
          · exact fun h => (h s (by simp)).resolve_left hnot
          · intro h a ha
            rcases mem_append.mp ha with ha | ha
            · exact .inl ha
            · exact .inr (mem_singleton.mp ha ▸ h)
        simp only [hclosed, hiff, hin, not_true, imp_false]
    · rename_i hother
      exact iff_of_true (fun s hs => .inl hs) fun connID ht => absurd ht (hother connID)

/-- **A timer closes only its own session**, in a schedule, exactly if no callback that was already
    waiting when its session left the map finds another one registered under the id. -/
theorem closes_own_iff :
    Along regStep ClosesOwn .start es ↔ Along regStep NotReplaced .start es := by
  refine along_congr (J := fun r => RegOk r ∧ Keyed r) ?_ ?_ es _ ⟨start_regOk, ?_⟩
  · exact fun r ev hr _ => ⟨reg_step hr.1 ev, keyed_step hr.2 ev⟩
  · exact fun r ev hr => closesOwn_iff hr.1 hr.2 ev
  · intro k s hs
    rw [show Registry.start.sessions = ∅ from rfl, AList.lookup_empty] at hs
    cases hs

/-- Session `0` is complete when its callback has already started.  A third lane with the same id
    opens session `1`, and the callback closes that. -/
def lateTimer : List RegEvent :=
  [.lane (writeHello 7 0 2), .fire 0, .lane (writeHello 7 1 2), .lane (writeHello 7 0 2), .expire 0]

/-- The session it closes is not its own. -/
theorem late_timer_closes_other :
    (Registry.after lateTimer).expired = [⟨1, 2, [2]⟩] ∧
      ¬ Along regStep ClosesOwn .start lateTimer := by
  refine ⟨by decide, fun h => ?_⟩
  have hclosed := h.2.2.2.2.1 ⟨1, 2, [2]⟩ (by decide)
  exact absurd hclosed (by decide)

end OlcVpn.Bond
