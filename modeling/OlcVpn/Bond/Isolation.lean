/-
  SEVERAL CLIENTS on one bond server.

  A room manager (`OlcrtcRoomManager`) numbers its bonded connections with an `AtomicLong` that
  starts at zero: the first connection is `1`, the next `2`, and a restarted manager, or another
  device, starts again at `1`.  `forwardBonded` opens a lane per live room and announces every one
  of them with that number, its index, and the final count.  The server knows a connection by the
  number ALONE (`registry.sessions`).

  So the input is a list of managers, each a list of lane counts: the `k`-th connection of a manager
  is number `k + 1`.  A schedule interleaves lanes of any connections, each lane once, in any order,
  with timers firing in between.

  * `Isolated`     — no session of the server, live, served or expired, ever holds lanes of two
                     different connections;
  * `Collides`     — two connections with one number, both with an acceptable count, that do not
                     both consist of a single lane;
  * the result     — isolation is exactly the absence of a collision.
-/
import OlcVpn.Bond.Registry

namespace OlcVpn.Bond

open Runs
open Option (some)

/-! ## What the clients announce -/

/-- Each client is the list of lane counts of its bonded connections, in the order their numbers
    were taken. -/
abbrev Clients := List (List Nat)

/-- A bonded connection: which client, and the how-many-eth of it. -/
structure ConnRef where
  client : Nat
  conn : Nat
  deriving DecidableEq, Repr

structure LaneRef where
  owner : ConnRef
  lane : Nat
  deriving DecidableEq, Repr

variable (cs : Clients)

/-- `lanes.size`, once the lanes are open; `0` for a connection that does not exist. -/
def laneCount (c : ConnRef) : Nat := (cs.getD c.client []).getD c.conn 0

/-- `bondConnSeq.incrementAndGet()`: the counter of each manager starts at zero. -/
def connId (c : ConnRef) : UInt64 := UInt64.ofNat (c.conn + 1)

/-- The Hello `forwardBonded` writes on a lane. -/
def forwardBonded (l : LaneRef) : Bytes :=
  writeHello (connId l.owner) (UInt16.ofNat l.lane) (UInt16.ofNat (laneCount cs l.owner))

inductive ClientEvent where
  | lane (l : LaneRef)
  | fire (t : Nat)
  | expire (t : Nat)
  deriving DecidableEq, Repr

def ClientEvent.toReg : ClientEvent → RegEvent
  | .lane l => .lane (forwardBonded cs l)
  | .fire t => .fire t
  | .expire t => .expire t

variable (es : List ClientEvent)

/-- The lanes of a schedule in the order the server files them. -/
def laneOrder : List LaneRef :=
  es.filterMap fun
    | .lane l => some l
    | _ => none

/-- Every lane exists and arrives at most once. -/
def Schedule : Prop :=
  (∀ l ∈ laneOrder es, l.lane < laneCount cs l.owner) ∧ (laneOrder es).Nodup

instance (cs : Clients) (es : List ClientEvent) : Decidable (Schedule cs es) :=
  inferInstanceAs (Decidable (_ ∧ _))

def Registry.serving : Registry :=
  Registry.after (es.map (ClientEvent.toReg cs))

/-! ## Isolation, and what breaks it -/

/-- No session ever groups lanes of two different connections. -/
def Isolated : Prop :=
  ∀ es, Schedule cs es → ∀ a ∈ (Registry.serving cs es).all, ∀ i ∈ a.lanes, ∀ j ∈ a.lanes,
    ((laneOrder es)[i]?).map LaneRef.owner = ((laneOrder es)[j]?).map LaneRef.owner

/-- The count as it travels, sixteen bits wide. -/
def announcedCount (c : ConnRef) : Nat := (UInt16.ofNat (laneCount cs c)).toNat

/-- The server admits the lanes of this connection. -/
def Acceptable (c : ConnRef) : Prop :=
  1 ≤ announcedCount cs c ∧ announcedCount cs c ≤ maxLaneCount

/-- Two different connections the server cannot tell apart, at least one of which waits for more
    than one lane. -/
def Collides (p q : ConnRef) : Prop :=
  p ≠ q ∧ Acceptable cs p ∧ Acceptable cs q ∧ connId p = connId q ∧
    ¬ (announcedCount cs p = 1 ∧ announcedCount cs q = 1)

variable {cs : Clients}

theorem arrivals_toReg (cs : Clients) (es : List ClientEvent) :
    arrivals (es.map (ClientEvent.toReg cs)) = (laneOrder es).map (forwardBonded cs) := by
  induction es with
  | nil => rfl
  | cons ev es ih =>
    cases ev with
    | lane l =>
      show forwardBonded cs l :: arrivals (es.map _) = _
      rw [ih]; rfl
    | fire t | expire t => exact ih

/-- The server reads what the client announced, and accepts it or not by the count alone. -/
theorem accept_forwardBonded (cs : Clients) (l : LaneRef) : readHello (forwardBonded cs l) =
      .ok ⟨connId l.owner, UInt16.ofNat l.lane, UInt16.ofNat (laneCount cs l.owner)⟩ := by
  rw [forwardBonded, ← List.append_nil (writeHello _ _ _), readHello_writeHello]

/-- A lane in a session: whose it is, and what its Hello said. -/
theorem log_serving {es : List ClientEvent} {i : Nat} {h : Hello}
    (hi : (Registry.serving cs es).log[i]? = some (some h)) :
    ∃ l, (laneOrder es)[i]? = some l ∧ h.connID = connId l.owner ∧
      h.laneCount.toNat = announcedCount cs l.owner ∧ Acceptable cs l.owner := by
  obtain ⟨bytes, hbytes, hacc⟩ := Option.bind_eq_some_iff.mp (log_eq_some.mp hi)
  rw [arrivals_toReg, List.getElem?_map] at hbytes
  obtain ⟨l, hl, rfl⟩ := Option.map_eq_some_iff.mp hbytes
  rw [acceptHello, accept_forwardBonded] at hacc
  simp only at hacc
  split at hacc
  · rename_i hcount
    rw [← some.inj hacc]
    exact ⟨l, hl, rfl, rfl, hcount⟩
  · exact absurd hacc (by simp)

/-- **No collision, no mixing.**  All lanes of a session announced one number; if two of them
    belonged to different connections, the connection of the FIRST lane would announce a single
    lane, and the session would never have had room for a second one. -/
theorem isolated_of_no_collision (hno : ∀ p q, ¬ Collides cs p q) : Isolated cs := by
  intro es _ a ha i hi j hj
  have hok := reg_run (es.map (ClientEvent.toReg cs))
  obtain ⟨k, hann⟩ := hok.announced a ha
  have howner : ∀ n ∈ a.lanes, ∃ l, (laneOrder es)[n]? = some l ∧ connId l.owner = k ∧
      Acceptable cs l.owner := by
    intro n hn
    obtain ⟨h, hlog, hk⟩ := hann.same_id n hn
    obtain ⟨l, hl, hid, -, hacc⟩ := log_serving hlog
    exact ⟨l, hl, hid.symm.trans hk, hacc⟩
  obtain ⟨li, hli, hidi, hacci⟩ := howner i hi
  obtain ⟨lj, hlj, hidj, haccj⟩ := howner j hj
  rw [hli, hlj]
  by_contra hne
  have hne' : li.owner ≠ lj.owner := fun h => hne (by simp [h])
  -- whatever the number is shared with announces one lane
  have hone : ∀ p q, p ≠ q → Acceptable cs p → Acceptable cs q → connId p = connId q →
      announcedCount cs p = 1 := by
    intro p q hpq hp hq hid
    by_contra hn
    exact hno p q ⟨hpq, hp, hq, hid, fun h => hn h.1⟩
  obtain ⟨f, rest, h, hlanes, hlog, hwant⟩ := hann.first
  obtain ⟨lf, hlf, hidf, hcount, haccf⟩ := log_serving hlog
  have hidf' : connId lf.owner = k := by
    obtain ⟨l, hl, hk, -⟩ := howner f (by rw [hlanes]; exact List.mem_cons_self)
    rw [hlf] at hl
    rw [some.inj hl]; exact hk
  have hwant1 : a.want = 1 := by
    rw [← hwant, hcount]
    by_cases hfi : lf.owner = li.owner
    · exact hone _ lj.owner (hfi ▸ hne') haccf haccj (hidf'.trans hidj.symm)
    · exact hone _ li.owner hfi haccf hacci (hidf'.trans hidi.symm)
  have hlen : a.lanes.length ≤ 1 := hwant1 ▸ hok.within a ha
  have hij : i = j := by
    rw [hlanes] at hi hj hlen
    have hnil : rest = [] := List.length_eq_zero_iff.mp (by simpa using hlen)
    rw [hnil, List.mem_singleton] at hi hj
    rw [hi, hj]
  rw [hij, hlj] at hli
  exact hne' (by rw [some.inj hli])

/-! ## A collision is enough -/

theorem handleLane_forwardBonded (r : Registry) (l : LaneRef) (hacc : Acceptable cs l.owner) :
    r.handleLane (forwardBonded cs l) =
      r.register ⟨connId l.owner, UInt16.ofNat l.lane, UInt16.ofNat (laneCount cs l.owner)⟩ := by
  have hcount : ¬ ((UInt16.ofNat (laneCount cs l.owner)).toNat ≤ 0 ∨
      (UInt16.ofNat (laneCount cs l.owner)).toNat > maxLaneCount) := by
    have h1 := hacc.1
    have h2 := hacc.2
    rw [announcedCount] at h1 h2
    omega
  rw [Registry.handleLane, accept_forwardBonded]
  exact if_neg hcount

/-- After the first lane of a connection that waits for more, the next lane with its number joins
    the same session. -/
theorem register_two (h g : Hello) (hid : h.connID = g.connID) (hmore : 1 < h.laneCount.toNat) :
    ∃ a ∈ ((Registry.start.register h).register g).all, a.lanes = [0, 1] := by
  have hfirst : Registry.start.register h =
      { Registry.start with
        sessions := Registry.start.sessions.insert h.connID ⟨0, h.laneCount.toNat, [0]⟩
        timers := [⟨h.connID, .armed⟩]
        log := [some h] } := by
    rw [Registry.register, Registry.sessionFor,
      show Registry.start.sessions.lookup h.connID = none from AList.lookup_empty _]
    simp only
    rw [if_neg (by show ¬ h.laneCount.toNat ≤ 1; omega)]
    rfl
  have hfor : (Registry.start.register h).sessionFor g =
      (⟨0, h.laneCount.toNat, [0]⟩, [⟨h.connID, .armed⟩]) := by
    rw [Registry.sessionFor, hfirst, ← hid]
    simp only [AList.lookup_insert]
  have hlog : (Registry.start.register h).log.length = 1 := by rw [hfirst]; rfl
  obtain ⟨hall, -, -⟩ := register_all (Registry.start.register h) g
  refine ⟨_, hall.mem_iff.mpr List.mem_cons_self, ?_⟩
  rw [hfor, hlog]
  rfl

theorem not_isolated_of_collision {p q : ConnRef} (hcol : Collides cs p q)
    (hmore : announcedCount cs p ≠ 1) : ¬ Isolated cs := by
  obtain ⟨hne, hp, hq, hid, -⟩ := hcol
  have hpos : ∀ c, Acceptable cs c → 0 < laneCount cs c := by
    intro c hc
    by_contra hz
    have hc1 := hc.1
    rw [announcedCount, Nat.eq_zero_of_not_pos hz] at hc1
    exact absurd hc1 (by decide)
  intro hiso
  have hsched : Schedule cs [.lane ⟨p, 0⟩, .lane ⟨q, 0⟩] := by
    refine ⟨?_, ?_⟩
    · intro l hl
      have hl' : l = ⟨p, 0⟩ ∨ l = ⟨q, 0⟩ := by simpa [laneOrder] using hl
      rcases hl' with rfl | rfl
      · exact hpos p hp
      · exact hpos q hq
    · simp [laneOrder, hne]
  have hserving : Registry.serving cs [.lane ⟨p, 0⟩, .lane ⟨q, 0⟩] =
      (Registry.start.register ⟨connId p, UInt16.ofNat 0, UInt16.ofNat (laneCount cs p)⟩).register
        ⟨connId q, UInt16.ofNat 0, UInt16.ofNat (laneCount cs q)⟩ := by
    show (Registry.start.handleLane (forwardBonded cs ⟨p, 0⟩)).handleLane
      (forwardBonded cs ⟨q, 0⟩) = _
    rw [handleLane_forwardBonded _ ⟨q, 0⟩ hq, handleLane_forwardBonded _ ⟨p, 0⟩ hp]
  obtain ⟨a, ha, hlanes⟩ := register_two ⟨connId p, UInt16.ofNat 0, UInt16.ofNat (laneCount cs p)⟩
    ⟨connId q, UInt16.ofNat 0, UInt16.ofNat (laneCount cs q)⟩ hid (by
      have h1 := hp.1
      show 1 < announcedCount cs p
      omega)
  rw [← hserving] at ha
  have hsame := hiso _ hsched a ha 0 (by simp [hlanes]) 1 (by simp [hlanes])
  exact hne (some.inj hsame)

/-- **The server keeps connections apart exactly when no two of them collide.** -/
theorem isolated_iff_no_collision (cs : Clients) : Isolated cs ↔ ∀ p q, ¬ Collides cs p q := by
  refine ⟨?_, isolated_of_no_collision⟩
  intro hiso p q hcol
  by_cases hp : announcedCount cs p = 1
  · -- then `q` is the one that waits
    have hq : announcedCount cs q ≠ 1 := fun hq => hcol.2.2.2.2 ⟨hp, hq⟩
    have hcol' : Collides cs q p :=
      ⟨hcol.1.symm, hcol.2.2.1, hcol.2.1, hcol.2.2.2.1.symm, fun h => hq h.1⟩
    exact not_isolated_of_collision hcol' hq hiso
  · exact not_isolated_of_collision hcol hp hiso

/-- Two devices, each opening its first bonded connection over two rooms: the server pairs the first
    lane of one with the first lane of the other and serves them as one stream. -/
theorem two_devices_mixed : ¬ Isolated [[2], [2]] ∧
      (Registry.serving [[2], [2]] [.lane ⟨⟨0, 0⟩, 0⟩, .lane ⟨⟨1, 0⟩, 0⟩]).served =
        [⟨0, 2, [0, 1]⟩] := by
  refine ⟨?_, by decide⟩
  intro hiso
  have hsame := hiso [.lane ⟨⟨0, 0⟩, 0⟩, .lane ⟨⟨1, 0⟩, 0⟩] (by decide) ⟨0, 2, [0, 1]⟩
    (by decide) 0 (by decide) 1 (by decide)
  exact absurd hsame (by decide)

end OlcVpn.Bond
