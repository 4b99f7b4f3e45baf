/-
  ONE DIRECTION of the bond, end to end: `splitToLanes` at one end, `reorder` at the other, and
  between them lanes that keep order inside themselves and nothing else.

  An event is a step of the sender (`split`), the arrival of the oldest frame of lane `i` at the
  receiver (`deliver`), or the receiver being stopped from outside (`stop`: its context is done, or
  every lane reader has gone and the channel is closed).  A schedule is any list of events, so it
  ranges over every interleaving that is FIFO inside each lane, every point at which lanes die, and
  every second copy of a frame whose first write failed but went out.  A frame that is never
  delivered is one the schedule never picks.

  * `bond_step`  — the invariant: the sender's (`SplitOk`) and the receiver's (`ReorderOk`), tied by
                   the chunks cut so far;
  * the main result — prefix at every moment, the whole stream whenever the write side is closed,
                   and closing itself when everything has arrived and nothing broke.

  The numbers are 64 bits wide.  `sent.length < 2^64` says that they number the frames `0, 1, 2, …`
  without running out; each frame carries at least a byte.
-/
import OlcVpn.Lib.Runs
import OlcVpn.Bond.Split

namespace OlcVpn.Bond

open Runs Reassembly

structure BondState where
  split : SplitState
  arrived : List Frame
  rd : ReorderState

inductive BondEvent where
  | split (ev : SplitEvent)
  | deliver (i : Nat) (fault : Option (UInt64 × Nat))
  | stop
  deriving DecidableEq, Repr

variable (source : Bytes)

def BondState.start (n : Nat) : BondState :=
  ⟨SplitState.start source (List.replicate n ⟨[], false⟩), [], ReorderState.start⟩

/-- `dst.Write` errors inside the payload of one given chunk, or nowhere.  The first error ends the
    loop, so one per frame is all there can be. -/
def failAt : Option (UInt64 × Nat) → UInt64 → Option Nat
  | none, _ => none
  | some (k, n), j => if j = k then some n else none

/-- `ctx.Done()` or a closed channel: the loop returns without closing the write side. -/
def ReorderState.stop (s : ReorderState) : ReorderState :=
  if s.status = .running then { s with status := .aborted } else s

variable (s : BondState)

def bondStep : BondEvent → BondState
  | .split ev => { s with split := splitToLanes s.split ev }
  | .deliver i fault =>
    match s.split.lanes[i]? with
    | none => s
    | some l =>
      match l.wire with
      | [] => s
      | f :: rest =>
        { split := { s.split with lanes := s.split.lanes.set i { l with wire := rest } }
          arrived := s.arrived ++ [f]
          rd := reorder (failAt fault) s.rd f }
  | .stop => { s with rd := s.rd.stop }

/-! ## The invariant -/

structure BondOk (source : Bytes) (s : BondState) : Prop where
  split_ok : SplitOk source s.split
  reorder_ok : ReorderOk s.split.sent s.split.Ended s.arrived s.rd

theorem start_bondOk (n : Nat) : BondOk source (BondState.start source n) :=
  ⟨start_splitOk source n, start_ok⟩

theorem ReorderOk.stop {src : List Bytes} {ended : Prop} {arrived : List Frame} {rd : ReorderState}
    (h : ReorderOk src ended arrived rd) : ReorderOk src ended arrived rd.stop := by
  rw [ReorderState.stop]
  split
  · exact (reorderOk_aborted rfl).mpr h.out_prefix
  · exact h

/-- The frame at the head of a lane, and the state once it is gone from there. -/
theorem SplitOk.pop {source : Bytes} {s : SplitState} (h : SplitOk source s) {i : Nat} {l : Lane}
    {f : Frame} {rest : List Frame} (hl : s.lanes[i]? = some l) (hw : l.wire = f :: rest) :
    Genuine s.sent s.Ended f ∧ SplitOk source
      { s with lanes := s.lanes.set i { l with wire := rest } } := by
  have hlane := h.wires l (List.mem_of_getElem? hl)
  rw [hw] at hlane
  refine ⟨hlane f List.mem_cons_self, ⟨h.source_eq, h.chunk_ne, h.seq_eq, h.pc_ok⟩, h.at_end, ?_⟩
  exact h.wires.set i fun g hg => hlane g (List.mem_cons_of_mem f hg)

theorem bondStep_sent_le (ev : BondEvent) :
    s.split.sent.length ≤ (bondStep s ev).split.sent.length := by
  fun_cases bondStep s ev with
  | case1 ev => exact (histories_grow s.split ev).1.length_le
  | case2 | case3 | case4 | case5 => exact Nat.le_refl _

/-- **The step lemma of the bond.** -/
theorem bond_step {source : Bytes} {s : BondState} (h : BondOk source s) (ev : BondEvent)
    (hspan : s.split.sent.length < 2 ^ 64) : BondOk source (bondStep s ev) := by
  fun_cases bondStep s ev with
  | case1 ev =>
    obtain ⟨hok, hgrows⟩ := splitToLanes_ok ev h.split_ok
    exact ⟨hok, h.reorder_ok.grows hgrows⟩
  | case2 i fault hl | case3 i fault l hl hw => exact h
  | case4 i fault l hl f rest hw =>
    obtain ⟨hf, hok⟩ := h.split_ok.pop hl hw
    exact ⟨hok, Bond.reorder_ok (failAt fault) hspan h.reorder_ok hf⟩
  | case5 => exact ⟨h.split_ok, h.reorder_ok.stop⟩

/-! ## Whole runs -/

/-- A step in which the receiver is not stopped, its destination takes the bytes, and the parking
    map is below its cap.  Lanes may still die. -/
def Unbroken (ev : BondEvent) : Prop :=
  s.rd.asm.pending.keys.length < pendingCap ∧
    match ev with
    | .split _ => True
    | .deliver _ fault => fault = none
    | .stop => False

instance (s : BondState) (ev : BondEvent) : Decidable (Unbroken s ev) :=
  match ev with
  | .split _ => inferInstanceAs (Decidable (_ ∧ True))
  | .deliver _ fault => inferInstanceAs (Decidable (_ ∧ fault = none))
  | .stop => inferInstanceAs (Decidable (_ ∧ False))

/-- Every chunk the sender cut, and a FIN, have been handed to `reorder`. -/
def AllArrived : Prop :=
  (∀ i, i < s.split.sent.length → ∃ f ∈ s.arrived, f.type = frameData ∧ f.seq = UInt64.ofNat i) ∧
    ∃ f ∈ s.arrived, f.type = frameFIN

instance (s : BondState) : Decidable (AllArrived s) := inferInstanceAs (Decidable (_ ∧ _))

/-- The invariant of a run, with the width condition read off its LAST state: `sent` never shrinks,
    so it held all along. -/
theorem bond_run (n : Nat) (es : List BondEvent)
    (hspan : (run bondStep (BondState.start source n) es).split.sent.length < 2 ^ 64) :
    BondOk source (run bondStep (BondState.start source n) es) := by
  refine run_inv (I := fun s => s.split.sent.length < 2 ^ 64 → BondOk source s) ?_ es _
    (fun _ => start_bondOk source n) hspan
  intro s ev hs hlt
  have hlt' := Nat.lt_of_le_of_lt (bondStep_sent_le s ev) hlt
  exact bond_step (hs hlt') ev hlt'

/-- A run whose steps are all unbroken never aborts the receiver. -/
theorem not_aborted_run (n : Nat) (es : List BondEvent)
    (hspan : (run bondStep (BondState.start source n) es).split.sent.length < 2 ^ 64)
    (halong : Along bondStep Unbroken (BondState.start source n) es) :
    (run bondStep (BondState.start source n) es).rd.status ≠ .aborted := by
  refine (run_inv_along (P := Unbroken)
    (I := fun s => s.split.sent.length < 2 ^ 64 → BondOk source s ∧ s.rd.status ≠ .aborted)
    ?_ es _ (fun _ => ⟨start_bondOk source n, by simp [BondState.start, ReorderState.start]⟩)
    halong hspan).2
  intro s ev hs hun hlt
  have hlt' := Nat.lt_of_le_of_lt (bondStep_sent_le s ev) hlt
  obtain ⟨hok, hst⟩ := hs hlt'
  refine ⟨bond_step hok ev hlt', ?_⟩
  obtain ⟨hcap, hev⟩ := hun
  fun_cases bondStep s ev with
  | case1 ev | case2 i fault hl | case3 i fault l hl hw => exact hst
  | case4 i fault l hl f rest hw =>
    have hnone : ∀ k, failAt fault k = none := by
      intro k; rw [show fault = none from hev]; rfl
    exact reorder_not_aborted hok.reorder_ok (hok.split_ok.pop hl hw).1 hst hnone hcap
  | case5 => exact hev.elim

/-- **The bond delivers a prefix, and everything when nothing breaks.**  For every source, every
    number of lanes and every schedule: what has been written is a prefix of the source; once the
    write side is closed it is the source; and when every chunk and a FIN have arrived in a run
    without a break, the write side IS closed. -/
theorem bond_delivers (n : Nat) (es : List BondEvent)
    (hspan : (run bondStep (BondState.start source n) es).split.sent.length < 2 ^ 64) :
    (run bondStep (BondState.start source n) es).rd.asm.out <+: source ∧
      ((run bondStep (BondState.start source n) es).rd.status = .closed →
        (run bondStep (BondState.start source n) es).rd.asm.out = source) ∧
      (AllArrived (run bondStep (BondState.start source n) es) →
        Along bondStep Unbroken (BondState.start source n) es →
        (run bondStep (BondState.start source n) es).rd.status = .closed) := by
  have hok := bond_run source n es hspan
  have hnot := not_aborted_run source n es hspan
  generalize run bondStep (BondState.start source n) es = s at hspan hok hnot
  have hsource := hok.split_ok.source_eq
  refine ⟨?_, ?_, ?_⟩
  · exact hok.reorder_ok.out_prefix.trans ⟨s.split.unread, hsource⟩
  · intro hclosed
    obtain ⟨hend, hout⟩ := (reorderOk_closed hclosed).mp hok.reorder_ok
    rw [hout, ← hsource, hend.1, List.append_nil]
  · rintro ⟨hall, hfin⟩ halong
    have hrun := not_running_of_all hspan hok.reorder_ok hall hfin
    have habort := hnot halong
    cases hs : s.rd.status with
    | running => exact absurd hs hrun
    | closed => rfl
    | aborted => exact absurd hs habort

/-- Three lanes, three bytes in two chunks.  The first write of chunk `0` errors although the frame
    went out, so it travels twice; chunk `1` overtakes both copies and the second copy is parked
    for good. -/
def overtaking : List BondEvent :=
  [.split (.read 2 false), .split (.attempt .errDelivered), .split (.attempt .ok),
   .split (.read 2 true), .split (.attempt .ok),
   .split (.fin .ok), .split (.fin .ok), .split (.fin .ok), .split (.fin .ok),
   .deliver 2 none, .deliver 0 none, .deliver 1 none, .deliver 2 none]

/-- Three lanes, with frames that overtake each other. -/
theorem bond_delivers_overtaking :
    (run bondStep (BondState.start [1, 2, 3] 3) overtaking).rd.status = .closed ∧
      (run bondStep (BondState.start [1, 2, 3] 3) overtaking).rd.asm.out = [1, 2, 3] := by
  obtain ⟨-, hwhole, hcloses⟩ := bond_delivers [1, 2, 3] 3 overtaking (by decide)
  have hclosed := hcloses (by decide) (by decide)
  exact ⟨hclosed, hwhole hclosed⟩

end OlcVpn.Bond
