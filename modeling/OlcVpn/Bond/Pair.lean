/-
  `bondPair` — BOTH directions of the server's bond, and the one context they share.

  `bondPair` starts a striper (`splitToLanes`: backend → lanes) and a reassembler (`reorder`: lanes
  → backend).  Each of the two goroutines defers `cancel()`, and an `AfterFunc` on the context puts
  an immediate deadline on the backend connection and on every lane.  So the first goroutine to
  RETURN — for whatever reason, the orderly end of its own direction included — makes every blocking
  call of the other one fail.  `OlcrtcRoomManager.runBondSession`, the client's mirror of this
  function, joins the two coroutines instead and cancels nothing.

  The state is the upstream bond (the client's striper, the lanes, `reorder`), the fan-in channel of
  depth `recvBuf`, and the server's striper.  No lane and no end fails: an erroring write, a failing
  destination, a dead lane or a `ctx.Done()` is only possible once a goroutine has returned
  (`Cancelled`), because only then are the deadlines in the past.

  * `NotCut`          — the end of one direction does not stop the other one early;
  * the main result   — over ALL schedules it holds for two empty streams and for no others; and it
                        holds in every run in which each goroutine ends only after the other
                        direction has moved its last byte (`Orderly`).
-/
import OlcVpn.Bond.Delivery

namespace OlcVpn.Bond

open Runs Reassembly List

/-! ## The two goroutines -/

structure PairState where
  up : BondState
  chan : List Frame
  down : SplitState

def PairState.start (up down : Bytes) (lanes : Nat) : PairState :=
  ⟨BondState.start up lanes, [], SplitState.start down (List.replicate lanes ⟨[], false⟩)⟩

inductive PairEvent where
  /-- the client's striper takes a step -/
  | client (ev : SplitEvent)
  /-- the reader of lane `i` moves a frame into the channel -/
  | recv (i : Nat)
  /-- `reorder` takes a frame from the channel -/
  | take (fault : Option (UInt64 × Nat))
  /-- `reorder` finds `ctx.Done()`, or the channel closed -/
  | rdDone
  /-- the server's striper takes a step -/
  | down (ev : SplitEvent)
  /-- the striper's `Read` on the backend fails with the deadline -/
  | expired
  deriving DecidableEq, Repr

/-- `splitToLanes` has returned. -/
def SplitPc.returned : SplitPc → Bool
  | .closed => true
  | .aborted => true
  | _ => false

/-- One of the two goroutines has returned, so `cancel()` has run. -/
def PairState.Cancelled (s : PairState) : Prop :=
  s.up.rd.status ≠ .running ∨ s.down.pc.returned = true

instance (s : PairState) : Decidable s.Cancelled := inferInstanceAs (Decidable (_ ∨ _))

/-- The steps of a striper whose writes succeed and that nobody stops. -/
def SplitEvent.faultless : SplitEvent → Bool
  | .read _ _ => true
  | .attempt r => r == .ok
  | .fin r => r == .ok
  | .laneDown _ => false
  | .cancel => false

def pairStep (s : PairState) : PairEvent → PairState
  | .client ev =>
    if ev.faultless then { s with up := bondStep s.up (.split ev) } else s
  | .recv i =>
    if s.chan.length < recvBuf then
      match s.up.split.lanes[i]? with
      | none => s
      | some l =>
        match l.wire with
        | [] => s
        | f :: rest =>
          { s with
            up := { s.up with
              split := { s.up.split with lanes := s.up.split.lanes.set i { l with wire := rest } } }
            chan := s.chan ++ [f] }
    else s
  | .take fault =>
    if fault = none ∨ s.Cancelled then
      match s.chan with
      | [] => s
      | f :: rest =>
        { s with
          up := { s.up with
            arrived := s.up.arrived ++ [f]
            rd := reorder (failAt fault) s.up.rd f }
          chan := rest }
    else s
  | .rdDone => if s.Cancelled then { s with up := { s.up with rd := s.up.rd.stop } } else s
  | .down ev =>
    if ev.faultless ∨ s.Cancelled then { s with down := splitToLanes s.down ev } else s
  | .expired =>
    if s.Cancelled ∧ s.down.pc = .read then { s with down := { s.down with pc := .fin 0 } } else s

/-! ## Being cut -/

/-- The striper is past its source: sending FIN, or returned. -/
def SplitPc.leaving : SplitPc → Bool
  | .fin _ => true
  | .closed => true
  | .aborted => true
  | _ => false

/-- The end of one direction has not cut the other.  If the backend's EOF has been passed on and
    `splitToLanes` has returned, `reorder` has not given up before the last upstream byte; if
    `reorder` has closed the write side, `splitToLanes` has not left its loop before the last
    downstream byte found a lane. -/
def NotCut (up down : Bytes) (s : PairState) : Prop :=
  (s.down.pc = .closed → s.up.rd.status = .aborted → s.up.rd.asm.out = up) ∧
    (s.up.rd.status = .closed → s.down.pc.leaving = true → s.down.written.flatten = down)

instance (up down : Bytes) (s : PairState) : Decidable (NotCut up down s) :=
  inferInstanceAs (Decidable (_ ∧ _))

/-- The client asks with one byte and half-closes; `reorder` passes both on, and with it the
    one-byte answer the backend has ready is lost: the deadline ends the striper's `Read` first. -/
def answerLost : List PairEvent :=
  [.client (.read 1 true), .client (.attempt .ok), .client (.fin .ok),
   .recv 0, .recv 0, .take none, .take none, .expired]

/-- The answer is cut off where the request's end is taken for the connection's. -/
theorem half_close_cuts_answer : ¬ NotCut [1] [2] (run pairStep (.start [1] [2] 1) answerLost) := by
  decide

/-! ## The invariant of every run -/

structure PairOk (up down : Bytes) (s : PairState) : Prop where
  bond_ok : BondOk up s.up
  chan_ok : ∀ f ∈ s.chan, Genuine s.up.split.sent s.up.split.Ended f
  cut_ok : CutOk down s.down

variable {up down : Bytes} {s : PairState}

theorem start_pairOk (up down : Bytes) (lanes : Nat) :
    PairOk up down (PairState.start up down lanes) :=
  ⟨start_bondOk up lanes, fun _ hf => absurd hf (by simp [PairState.start]), start_cutOk down _⟩

theorem pairStep_sent_le (s : PairState) (ev : PairEvent) :
    s.up.split.sent.length ≤ (pairStep s ev).up.split.sent.length := by
  fun_cases pairStep s ev <;> first
    | exact Nat.le_refl _
    | exact bondStep_sent_le s.up _

/-- The deadline only moves the control point; the chunks and the counter stay right. -/
theorem CutOk.expire {source : Bytes} {s : SplitState} (h : CutOk source s) (hpc : s.pc = .read) :
    CutOk source { s with pc := .fin 0 } := by
  have hw : s.written = s.sent := by
    have := h.pc_ok
    rw [PcOk, hpc] at this; exact this
  exact ⟨h.source_eq, h.chunk_ne, h.seq_eq, hw⟩

/-- **The step lemma of the pair.** -/
theorem pair_step (h : PairOk up down s) (ev : PairEvent)
    (hspan : s.up.split.sent.length < 2 ^ 64) : PairOk up down (pairStep s ev) := by
  fun_cases pairStep s ev with
  | case1 ev hfl =>
    have hgrows := (splitToLanes_ok ev h.bond_ok.split_ok).2
    exact ⟨bond_step h.bond_ok (.split ev) hspan,
      fun f hf => (h.chan_ok f hf).grows hgrows, h.cut_ok⟩
  | case2 | case3 | case4 | case6 | case7 | case9 | case11 | case13 | case15 => exact h
  | case5 i hroom l hl f rest hw =>
    obtain ⟨hf, hok⟩ := h.bond_ok.split_ok.pop hl hw
    refine ⟨⟨hok, h.bond_ok.reorder_ok⟩, ?_, h.cut_ok⟩
    intro g hg
    rcases mem_append.mp hg with hg | hg
    · exact h.chan_ok g hg
    · rw [mem_singleton.mp hg]; exact hf
  | case8 fault hfault f rest hchan =>
    have hgen := h.chan_ok
    rw [hchan] at hgen
    refine ⟨⟨h.bond_ok.split_ok, ?_⟩, fun g hg => hgen g (mem_cons_of_mem f hg), h.cut_ok⟩
    exact reorder_ok (failAt fault) hspan h.bond_ok.reorder_ok (hgen f mem_cons_self)
  | case10 => exact ⟨⟨h.bond_ok.split_ok, h.bond_ok.reorder_ok.stop⟩, h.chan_ok, h.cut_ok⟩
  | case12 ev hev => exact ⟨h.bond_ok, h.chan_ok, splitToLanes_cutOk ev h.cut_ok⟩
  | case14 hexp => exact ⟨h.bond_ok, h.chan_ok, h.cut_ok.expire hexp.2⟩

/-- What came out so far is the start of what was sent. -/
theorem PairOk.out_prefix (h : PairOk up down s) : s.up.rd.asm.out <+: up :=
  h.bond_ok.reorder_ok.out_prefix.trans ⟨s.up.split.unread, h.bond_ok.split_ok.source_eq⟩

/-! ## Runs in which each direction ends last -/

/-- The order in which nothing is cut.  `splitToLanes` makes its last step — the end of the FIN loop
    — only when every upstream byte is out, and `reorder` takes no further frame once the client's
    FIN is known or next in the channel, unless every downstream byte has found a lane. -/
def Orderly (up down : Bytes) (s : PairState) (ev : PairEvent) : Prop :=
  match ev with
  | .down (.fin _) => ∀ i, s.down.pc = .fin i → s.down.lanes.length ≤ i → s.up.rd.asm.out = up
  | .take _ => s.up.rd.finSeq ≠ none ∨ s.chan.head?.map Frame.type = some frameFIN →
      s.down.written.flatten = down
  | _ => True

/-- What the order buys: a direction that has ended found the other one complete. -/
structure Complete (up down : Bytes) (s : PairState) : Prop where
  up_out : s.down.pc = .closed → s.up.rd.asm.out = up
  down_written : s.up.rd.status = .closed → s.down.written.flatten = down

/-- What only grows below a bound it has reached stays there. -/
theorem eq_of_prefix_of_prefix {a b c : Bytes} (hab : a <+: b) (hbc : b <+: c) (hac : a = c) :
    b = c := by
  subst hac
  exact hbc.eq_of_length (Nat.le_antisymm hbc.length_le hab.length_le)

theorem splitToLanes_closed {s : SplitState} {ev : SplitEvent}
    (h : (splitToLanes s ev).pc = .closed) :
    s.pc = .closed ∨ ∃ r i, ev = .fin r ∧ s.pc = .fin i ∧ s.lanes.length ≤ i := by
  revert h
  fun_cases splitToLanes s ev with
  | case1 k eof hpc =>
    rw [readTurn]
    split
    · intro h; exact absurd h (by simp)
    · split
      · intro h; exact absurd h (by simp)
      · intro h; exact Or.inl h
  | case2 r data tries rerr hpc =>
    fun_cases writeNextLane r data rerr s tries with
    | case1 => intro h; exact absurd h (by simp)
    | case2 tries idx s' hl => intro h; exact absurd h (by simp [s'])
    | case3 tries idx s' l hl hdead => intro h; exact absurd h (by simp [s'])
    | case4 => cases rerr <;> (intro h; exact absurd h (by simp))
    | case5 tries idx s' l hl hdead => intro h; exact absurd h (by simp [s'])
  | case3 r i hpc =>
    fun_cases finTurn r i s with
    | case1 hl => intro _; exact Or.inr ⟨r, i, rfl, hpc, getElem?_eq_none_iff.mp hl⟩
    | case2 | case3 => intro h; exact absurd h (by simp)
  | case4 hpc => intro h; exact absurd h (by simp)
  | case5 i hl | case6 i l hl | case7 => intro h; exact Or.inl h

theorem stop_closed {rd : ReorderState} (h : rd.stop.status = .closed) : rd.status = .closed := by
  rw [ReorderState.stop] at h
  split at h
  · exact absurd h (by simp)
  · exact h

theorem stop_out (rd : ReorderState) : rd.stop.asm.out = rd.asm.out := by
  rw [ReorderState.stop]
  split <;> rfl

/-- **The step lemma under the order.**  `h'` is the invariant after the step: both streams are
    bounded by their sources there. -/
theorem complete_step {ev : PairEvent} (h' : PairOk up down (pairStep s ev))
    (hc : Complete up down s) (hord : Orderly up down s ev) : Complete up down (pairStep s ev) := by
  revert h'
  fun_cases pairStep s ev with
  | case1 | case5 => intro _; exact ⟨hc.up_out, hc.down_written⟩
  | case2 | case3 | case4 | case6 | case7 | case9 | case11 | case13 | case15 => intro _; exact hc
  | case8 fault hfault f rest hchan =>
    intro h'
    refine ⟨?_, ?_⟩
    · intro hpc
      exact eq_of_prefix_of_prefix (out_prefix_reorder _ _ f) h'.out_prefix (hc.up_out hpc)
    · intro hst
      rcases reorder_closed hst with hclosed | hfin | hfin
      · exact hc.down_written hclosed
      · exact hord (Or.inl hfin)
      · refine hord (Or.inr ?_)
        rw [hchan]
        exact congrArg some hfin
  | case10 =>
    intro _
    refine ⟨?_, fun hst => hc.down_written (stop_closed hst)⟩
    intro hpc
    show s.up.rd.stop.asm.out = up
    rw [stop_out]; exact hc.up_out hpc
  | case12 ev hev =>
    intro h'
    refine ⟨?_, ?_⟩
    · intro hpc
      rcases splitToLanes_closed hpc with hpc | ⟨r, i, rfl, hpc, hi⟩
      · exact hc.up_out hpc
      · exact hord i hpc hi
    · intro hst
      refine eq_of_prefix_of_prefix ?_ h'.cut_ok.written_flatten_prefix (hc.down_written hst)
      obtain ⟨more, hmore⟩ := (histories_grow s.down ev).2
      show s.down.written.flatten <+: (splitToLanes s.down ev).written.flatten
      rw [← hmore, flatten_append]
      exact prefix_append _ _
  | case14 => intro _; exact ⟨fun hpc => absurd hpc (by simp), hc.down_written⟩

/-- Every run in the order, read off its last state as in the one-way bond. -/
theorem pair_run_complete (up down : Bytes) (lanes : Nat) (es : List PairEvent)
    (halong : Along pairStep (Orderly up down) (PairState.start up down lanes) es)
    (hspan : (run pairStep (PairState.start up down lanes) es).up.split.sent.length < 2 ^ 64) :
    Complete up down (run pairStep (PairState.start up down lanes) es) := by
  refine (run_inv_along (P := Orderly up down)
    (I := fun s => s.up.split.sent.length < 2 ^ 64 → PairOk up down s ∧ Complete up down s)
    ?_ es _ (fun _ => ⟨start_pairOk up down lanes, ?_⟩) halong hspan).2
  · intro s ev hs hord hlt
    have hlt' := Nat.lt_of_le_of_lt (pairStep_sent_le s ev) hlt
    obtain ⟨hok, hc⟩ := hs hlt'
    have hok' := pair_step hok ev hlt'
    exact ⟨hok', complete_step hok' hc hord⟩
  · exact ⟨fun hpc => absurd hpc (by simp [PairState.start, SplitState.start]),
      fun hst => absurd hst (by simp [PairState.start, BondState.start, ReorderState.start])⟩

/-! ## Runs that cut

The backend can always reach its end while `reorder` is still waiting: a schedule of the striper
alone, every write of it succeeding. -/

/-- At least one lane, none of them dead. -/
def Alive (lanes : List Lane) : Prop := lanes ≠ [] ∧ ∀ l ∈ lanes, l.dead = false

/-- A schedule of successful steps takes the striper from `s` to its end. -/
def CanClose (s : SplitState) : Prop :=
  ∃ es, (∀ ev ∈ es, SplitEvent.faultless ev = true) ∧ (run splitToLanes s es).pc = .closed

theorem CanClose.step {s : SplitState} (ev : SplitEvent) (hev : ev.faultless = true)
    (h : CanClose (splitToLanes s ev)) : CanClose s := by
  obtain ⟨es, hes, hpc⟩ := h
  refine ⟨ev :: es, ?_, hpc⟩
  intro e he
  rcases mem_cons.mp he with rfl | he
  · exact hev
  · exact hes e he

/-- The FIN loop comes to its end.  Induction on the lanes still ahead. -/
theorem canClose_fin : ∀ (k i : Nat) (s : SplitState), s.pc = .fin i → s.lanes.length ≤ i + k →
    CanClose s := by
  intro k
  induction k with
  | zero =>
    intro i s hpc hlen
    have hl : s.lanes[i]? = none := getElem?_eq_none_iff.mpr hlen
    refine ⟨[.fin .ok], by decide, ?_⟩
    simp [splitToLanes, hpc, finTurn, hl]
  | succ k ih =>
    intro i s hpc hlen
    refine CanClose.step (.fin .ok) rfl ?_
    cases hl : s.lanes[i]? with
    | none =>
      refine ⟨[], by simp, ?_⟩
      simp [splitToLanes, hpc, finTurn, hl]
    | some l =>
      simp only [splitToLanes, hpc, finTurn, hl]
      split
      · exact ih (i + 1) _ rfl (by show s.lanes.length ≤ i + 1 + k; omega)
      · exact ih (i + 1) _ rfl (by rw [length_set]; omega)

/-- One successful attempt moves the chunk in hand, and the lanes stay alive. -/
theorem attempt_alive {s : SplitState} {data : Bytes} {tries : Nat} {rerr : Bool}
    (hpc : s.pc = .write data (tries + 1) rerr) (halive : Alive s.lanes) :
    (splitToLanes s (.attempt .ok)).pc = (if rerr then .fin 0 else .read) ∧
      Alive (splitToLanes s (.attempt .ok)).lanes ∧ (splitToLanes s (.attempt .ok)).unread =
        s.unread := by
  have hpos : 0 < s.lanes.length := length_pos_iff.mpr halive.1
  obtain ⟨l, hl⟩ : ∃ l, s.lanes[s.laneIdx.toNat % s.lanes.length]? = some l :=
    ⟨_, getElem?_eq_getElem (Nat.mod_lt _ hpos)⟩
  have hlive := halive.2 l (mem_of_getElem? hl)
  have hstep : splitToLanes s (.attempt .ok) = { s with
      laneIdx := s.laneIdx + 1
      lanes := s.lanes.set (s.laneIdx.toNat % s.lanes.length)
        { l with wire := l.wire ++ [⟨frameData, s.seq, data⟩] }
      written := s.written ++ [data]
      seq := s.seq + 1
      pc := if rerr then .fin 0 else .read } := by
    simp [splitToLanes, hpc, writeNextLane, hl, hlive, Lane.writeFrame]
  rw [hstep]
  refine ⟨rfl, ⟨?_, ?_⟩, rfl⟩
  · rw [← length_pos_iff, length_set]; exact hpos
  · intro l' hl'
    rcases mem_or_eq_of_mem_set hl' with hl' | rfl
    · exact halive.2 l' hl'
    · exact hlive

/-- **The striper can always finish.**  Induction on a bound for the unread bytes: a turn takes at
    least one of them. -/
theorem canClose_read : ∀ (m : Nat) (s : SplitState), s.pc = .read → Alive s.lanes →
    s.unread.length ≤ m → CanClose s := by
  intro m
  induction m with
  | zero =>
    intro s hpc halive hlen
    refine CanClose.step (.read 0 true) rfl (canClose_fin s.lanes.length 0 _ ?_ ?_)
    · simp [splitToLanes, hpc, readTurn, Nat.le_zero.mp hlen]
    · simp [splitToLanes, hpc, readTurn, Nat.le_zero.mp hlen]
  | succ m ih =>
    intro s hpc halive hlen
    by_cases hnil : s.unread.length = 0
    · exact ih s hpc halive (by omega)
    · -- read one byte, find it a lane, and be back with one byte less
      have hpos : 0 < s.lanes.length := length_pos_iff.mpr halive.1
      obtain ⟨t, ht⟩ : ∃ t, s.lanes.length = t + 1 := ⟨s.lanes.length - 1, by omega⟩
      have hone : min 1 (min maxChunk s.unread.length) = 1 := by
        have : 1 ≤ maxChunk := by decide
        omega
      have hread : splitToLanes s (.read 1 false) = { s with
          unread := s.unread.drop 1
          sent := s.sent ++ [s.unread.take 1]
          pc := .write (s.unread.take 1) (t + 1) false } := by
        simp [splitToLanes, hpc, readTurn, hone, ht]
      refine CanClose.step (.read 1 false) rfl ?_
      rw [hread]
      refine CanClose.step (.attempt .ok) rfl ?_
      obtain ⟨hpc', halive', hunread⟩ := attempt_alive (s := { s with
          unread := s.unread.drop 1
          sent := s.sent ++ [s.unread.take 1]
          pc := .write (s.unread.take 1) (t + 1) false }) rfl halive
      refine ih _ hpc' halive' ?_
      rw [hunread, length_drop]
      omega

/-- The striper's steps leave the upstream side of the pair where it is. -/
theorem run_down (es : List SplitEvent) (hes : ∀ ev ∈ es, SplitEvent.faultless ev = true) :
    ∀ s : PairState, run pairStep s (es.map .down) =
      { s with down := run splitToLanes s.down es } := by
  induction es with
  | nil => intro s; rfl
  | cons ev es ih =>
    intro s
    have hev := hes ev mem_cons_self
    rw [map_cons, run_cons, ih fun e he => hes e (mem_cons_of_mem ev he)]
    simp [pairStep, hev]

/-- An upstream byte that has not arrived when the backend ends never will. -/
theorem exists_cut_up (up down : Bytes) (n : Nat) (hup : up ≠ []) :
    ∃ es, ¬ NotCut up down (run pairStep (PairState.start up down (n + 1)) es) := by
  obtain ⟨es, hes, hpc⟩ := canClose_read down.length
    (SplitState.start down (List.replicate (n + 1) ⟨[], false⟩)) rfl
    ⟨by simp [SplitState.start], fun l hl => by rw [eq_of_mem_replicate hl]⟩ (Nat.le_refl _)
  refine ⟨es.map .down ++ [.rdDone], ?_⟩
  intro hnot
  rw [run_append, run_down es hes] at hnot
  have hcancel : ({ PairState.start up down (n + 1) with
      down := run splitToLanes (PairState.start up down (n + 1)).down es } : PairState).Cancelled :=
    Or.inr (congrArg SplitPc.returned hpc)
  rw [run_cons, run_nil, pairStep, if_pos hcancel] at hnot
  exact hup (hnot.1 hpc rfl).symm

/-- A downstream byte that is unread when the client half-closes is lost, even before the client
    has sent anything. -/
theorem exists_cut_down (down : Bytes) (n : Nat) (hdown : down ≠ []) :
    ∃ es, ¬ NotCut [] down (run pairStep (PairState.start [] down (n + 1)) es) := by
  refine ⟨[.client (.read 0 true), .client (.fin .ok), .recv 0, .take none, .expired], ?_⟩
  intro hnot
  exact hdown (hnot.2 rfl rfl).symm

/-- With both streams empty there is nothing to cut. -/
theorem notCut_of_empty (lanes : Nat) (es : List PairEvent) :
    NotCut [] [] (run pairStep (PairState.start [] [] lanes) es) := by
  have hok : PairOk [] [] (run pairStep (PairState.start [] [] lanes) es) := by
    refine run_inv ?_ es _ (start_pairOk [] [] lanes)
    intro s ev hs
    have hle : s.up.split.sent.length ≤ 0 := hs.bond_ok.split_ok.sent_length_le
    exact pair_step hs ev (by omega)
  exact ⟨fun _ _ => prefix_nil.mp hok.out_prefix,
    fun _ _ => prefix_nil.mp hok.cut_ok.written_flatten_prefix⟩

/-- **Half-close safety of the server's bond**, on any number of lanes.  Over all schedules nothing
    is cut exactly when there is nothing to cut; and nothing is cut in a run, of fewer than `2^64`
    frames, in which each direction ends only after the other one is complete. -/
theorem half_close_safe_iff (up down : Bytes) (n : Nat) :
    ((∀ es, NotCut up down (run pairStep (PairState.start up down (n + 1)) es)) ↔ up = [] ∧
      down = []) ∧
      ∀ es, Along pairStep (Orderly up down) (PairState.start up down (n + 1)) es →
        (run pairStep (PairState.start up down (n + 1)) es).up.split.sent.length < 2 ^ 64 →
        NotCut up down (run pairStep (PairState.start up down (n + 1)) es) := by
  refine ⟨⟨?_, ?_⟩, ?_⟩
  · intro hall
    have hup : up = [] := by
      by_contra hne
      obtain ⟨es, hcut⟩ := exists_cut_up up down n hne
      exact hcut (hall es)
    subst hup
    refine ⟨rfl, ?_⟩
    by_contra hne
    obtain ⟨es, hcut⟩ := exists_cut_down down n hne
    exact hcut (hall es)
  · rintro ⟨rfl, rfl⟩ es
    exact notCut_of_empty (n + 1) es
  · intro es halong hspan
    have hc := pair_run_complete up down (n + 1) es halong hspan
    exact ⟨fun hpc _ => hc.up_out hpc, fun hst _ => hc.down_written hst⟩

/-- Both bytes are on their way before either direction ends. -/
def answerKept : List PairEvent :=
  [.client (.read 1 true), .client (.attempt .ok), .client (.fin .ok), .down (.read 1 true),
   .down (.attempt .ok), .recv 0, .recv 0, .take none, .take none, .down (.fin .ok),
   .down (.fin .ok)]

theorem answerKept_orderly : Along pairStep (Orderly [1] [2]) (.start [1] [2] 1) answerKept := by
  refine ⟨trivial, trivial, trivial, trivial, trivial, trivial, trivial, ?_, ?_, ?_, ?_, trivial⟩
  · exact fun _ => by decide
  · exact fun _ => by decide
  · exact fun _ _ _ => by decide
  · exact fun _ _ _ => by decide

/-- Both directions end, and nothing is cut. -/
theorem half_close_keeps_answer :
    (run pairStep (.start [1] [2] 1) answerKept).down.pc = .closed ∧
      (run pairStep (.start [1] [2] 1) answerKept).up.rd.status = .closed ∧
      NotCut [1] [2] (run pairStep (.start [1] [2] 1) answerKept) :=
  ⟨by decide, by decide,
    (half_close_safe_iff [1] [2] 0).2 answerKept answerKept_orderly (by decide)⟩

end OlcVpn.Bond
