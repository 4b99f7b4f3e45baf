/-
  `reorder` — the receiving half of the stream bond (`bond-server/bond.go`).

  The goroutine takes frames from the fan-in channel one at a time, parks DATA by sequence number,
  keeps the SMALLEST FIN number it has seen, writes out whatever has become contiguous, and closes
  the write side of its destination when the position reaches the FIN number.  Three things make it
  give up instead: the parking map is full when a DATA frame arrives, a frame of an unknown type,
  and a failing write.

  One turn of the Go loop is `reorder fail s f`: the `select` has picked frame `f` out of the
  channel, and the turn runs to the next `select`, the test at the TOP of the loop included.
  `fail k = some n` is the destination erroring inside the payload of chunk `k` after `n` bytes.

  What a turn does is stated against the chunks `src` the sender has cut so far and the proposition
  `ended` ("the sender has seen the end of its source"):

  * `Genuine src ended f`  — `f` is a chunk under its own number, or a FIN carrying the number of
                             chunks, sent after the end;
  * `ReorderOk`            — the invariant, by status; `reorder_ok` is its step lemma.
-/
import OlcVpn.Lib.Reassembly
import OlcVpn.Bond.Wire

namespace OlcVpn.Bond

open Reassembly List

/-! ## The goroutine -/

/-- `closed`: `closeWrite(dst)` was called.  `aborted`: the function returned without it. -/
inductive Status where
  | running
  | closed
  | aborted
  deriving DecidableEq, Repr

structure ReorderState where
  asm : Asm UInt64 UInt8
  finSeq : Option UInt64
  status : Status

def ReorderState.start : ReorderState := ⟨⟨∅, 0, [], false⟩, none, .running⟩

/-- `if finSeq == nil || v < *finSeq { finSeq = &v }`. -/
def minFin : Option UInt64 → UInt64 → Option UInt64
  | none, v => some v
  | some w, v => if v < w then some v else some w

/-- The test at the top of the loop: `finSeq != nil && expect == *finSeq`. -/
def loopTop (s : ReorderState) : ReorderState :=
  if s.finSeq = some s.asm.expect then { s with status := .closed } else s

variable (fail : UInt64 → Option Nat)

variable (s : ReorderState)

/-- The inner `for` over `pending[expect]`, then the next turn's test.  Each pass deletes an entry,
    so the number of parked frames is fuel enough. -/
def drainPending : ReorderState :=
  let asm := drain (· + 1) fail s.asm.pending.keys.length s.asm
  if asm.failed then { s with asm := asm, status := .aborted } else loopTop { s with asm := asm }

/-- `pending[f.Seq] = f.Data`. -/
def ReorderState.park (f : Frame) : ReorderState :=
  { s with asm := { s.asm with pending := s.asm.pending.insert f.seq f.data } }

def ReorderState.noteFin (v : UInt64) : ReorderState :=
  { s with finSeq := minFin s.finSeq v }

/-- One frame through the loop. -/
def reorder (f : Frame) : ReorderState :=
  if s.status ≠ .running then s
  else if f.type = frameData then
    if s.asm.pending.keys.length ≥ pendingCap then { s with status := .aborted }
    else drainPending fail (s.park f)
  else if f.type = frameFIN then drainPending fail (s.noteFin f.seq)
  else { s with status := .aborted }

theorem out_prefix_drainPending : s.asm.out <+: (drainPending fail s).asm.out := by
  have hout := out_prefix_drain (· + 1) fail s.asm.pending.keys.length s.asm
  rw [drainPending]
  split
  · exact hout
  · rw [loopTop]
    split <;> exact hout

/-- What has been written stays written. -/
theorem out_prefix_reorder (f : Frame) : s.asm.out <+: (reorder fail s f).asm.out := by
  fun_cases reorder fail s f with
  | case1 | case2 | case5 => exact prefix_rfl
  | case3 => exact out_prefix_drainPending fail (s.park f)
  | case4 => exact out_prefix_drainPending fail (s.noteFin f.seq)

variable {fail : UInt64 → Option Nat} {f : Frame}

/-- The stream is closed only where its end was announced. -/
theorem drainPending_closed {s : ReorderState} (hrun : s.status = .running)
    (h : (drainPending fail s).status = .closed) : s.finSeq ≠ none := by
  rw [drainPending] at h
  split at h
  · exact absurd h (by simp)
  · rw [loopTop] at h
    split at h
    · rename_i hfin
      intro hnone
      rw [show s.finSeq = some _ from hfin] at hnone
      exact absurd hnone (by simp)
    · exact absurd (hrun.symm.trans h) (by decide)

/-- The write side is closed only in a turn in which a FIN number is known or just arriving. -/
theorem reorder_closed {s : ReorderState} (h : (reorder fail s f).status = .closed) :
    s.status = .closed ∨ s.finSeq ≠ none ∨ f.type = frameFIN := by
  revert h
  fun_cases reorder fail s f with
  | case1 => intro h; exact Or.inl h
  | case2 | case5 => intro h; exact absurd h (by simp)
  | case3 hrun =>
    intro h
    exact Or.inr (Or.inl (drainPending_closed (s := s.park f) (not_not.mp hrun) h))
  | case4 hrun htype hfin => intro _; exact Or.inr (Or.inr hfin)

/-! ## Sequence numbers

`uint64` numbers the chunks `0, 1, 2, …` without repetition for the first `2^64` of them. -/

theorem ofNat_inj_of_lt {i j : Nat} (hi : i < 2 ^ 64) (hj : j < 2 ^ 64)
    (h : UInt64.ofNat i = UInt64.ofNat j) : i = j := by
  have h' := congrArg UInt64.toNat h
  rw [UInt64.toNat_ofNat_of_lt' hi, UInt64.toNat_ofNat_of_lt' hj] at h'
  exact h'

def seqNumbering : ChunkNumbering UInt64 where
  num := UInt64.ofNat
  succ := (· + 1)
  span := 2 ^ 64
  num_succ := fun i => by rw [UInt64.ofNat_add]; rfl
  num_inj := ofNat_inj_of_lt

/-! ## What a frame may be, and what the state then is -/

/-- A frame the sender may have put on some lane: chunk `i` numbered `i` — possibly a second copy of
    it, after a write that failed but went out — or a FIN with the total. -/
def Genuine (src : List Bytes) (ended : Prop) (f : Frame) : Prop :=
  (f.type = frameData ∧ ∃ i, f.seq = UInt64.ofNat i ∧ src[i]? = some f.data) ∨
    (f.type = frameFIN ∧ f.seq = UInt64.ofNat src.length ∧ ended)

/-- The running loop between two frames: `e` chunks written, `arrived` the frames taken so far. -/
structure Reading (src : List Bytes) (ended : Prop) (arrived : List Frame) (e : Nat)
    (s : ReorderState) : Prop where
  asm_ok : AsmOk seqNumbering src e s.asm
  not_failed : s.asm.failed = false
  settled : s.asm.pending.lookup s.asm.expect = none
  fin_ok : ∀ v, s.finSeq = some v → ended ∧ v = UInt64.ofNat src.length
  still_open : s.finSeq ≠ some s.asm.expect
  data_kept : ∀ f ∈ arrived, f.type = frameData →
    ∃ i, i < src.length ∧ f.seq = UInt64.ofNat i ∧ HasChunk seqNumbering s.asm e i
  fin_kept : ∀ f ∈ arrived, f.type = frameFIN → s.finSeq ≠ none

/-- The invariant of the goroutine in each of its three statuses. -/
def ReorderOk (src : List Bytes) (ended : Prop) (arrived : List Frame) (s : ReorderState) : Prop :=
  match s.status with
  | .running => ∃ e, Reading src ended arrived e s
  | .closed => ended ∧ s.asm.out = src.flatten
  | .aborted => s.asm.out <+: src.flatten

variable {src : List Bytes} {ended : Prop} {arrived : List Frame} {s : ReorderState} {e : Nat}

theorem reorderOk_running (hs : s.status = .running) :
    ReorderOk src ended arrived s ↔ ∃ e, Reading src ended arrived e s := by
  rw [ReorderOk, hs]

theorem reorderOk_closed (hs : s.status = .closed) :
    ReorderOk src ended arrived s ↔ ended ∧ s.asm.out = src.flatten := by
  rw [ReorderOk, hs]

theorem reorderOk_aborted (hs : s.status = .aborted) :
    ReorderOk src ended arrived s ↔ s.asm.out <+: src.flatten := by
  rw [ReorderOk, hs]

theorem start_ok : ReorderOk [] ended [] ReorderState.start := by
  refine ⟨0, ⟨rfl, Nat.le_refl 0, rfl, ?_⟩, rfl, rfl, ?_, ?_, ?_, ?_⟩
  · intro k d hk
    rw [show (ReorderState.start).asm.pending = ∅ from rfl, AList.lookup_empty] at hk
    exact absurd hk (by simp)
  · intro v hv; exact absurd hv (by simp [ReorderState.start])
  · simp [ReorderState.start]
  · intro f hf; exact absurd hf (by simp)
  · intro f hf; exact absurd hf (by simp)

/-- **Whatever the status, a prefix of the source has been written.** -/
theorem ReorderOk.out_prefix (h : ReorderOk src ended arrived s) : s.asm.out <+: src.flatten := by
  cases hs : s.status with
  | running =>
    obtain ⟨e, he⟩ := (reorderOk_running hs).mp h
    exact he.asm_ok.out_prefix
  | closed =>
    rw [((reorderOk_closed hs).mp h).2]
  | aborted => exact (reorderOk_aborted hs).mp h

/-- The sender cutting more chunks — which it does only before the end — disturbs nothing. -/
theorem ReorderOk.mono (h : ReorderOk src False arrived s) (more : List Bytes) :
    ReorderOk (src ++ more) False arrived s := by
  cases hs : s.status with
  | running =>
    obtain ⟨e, he⟩ := (reorderOk_running hs).mp h
    refine (reorderOk_running hs).mpr ⟨e, he.asm_ok.mono more, he.not_failed, he.settled, ?_,
      he.still_open, ?_, he.fin_kept⟩
    · intro v hv; exact (he.fin_ok v hv).1.elim
    · intro f hf hdata
      obtain ⟨i, hi, hseq, hhas⟩ := he.data_kept f hf hdata
      exact ⟨i, by rw [length_append]; omega, hseq, hhas⟩
  | closed => exact ((reorderOk_closed hs).mp h).1.elim
  | aborted =>
    refine (reorderOk_aborted hs).mpr (((reorderOk_aborted hs).mp h).trans ?_)
    rw [flatten_append]
    exact prefix_append _ _

/-- The end of the source is only ever learnt, never taken back. -/
theorem ReorderOk.weaken {ended' : Prop} (himp : ended → ended')
    (h : ReorderOk src ended arrived s) : ReorderOk src ended' arrived s := by
  cases hs : s.status with
  | running =>
    obtain ⟨e, he⟩ := (reorderOk_running hs).mp h
    exact (reorderOk_running hs).mpr ⟨e, { he with
      fin_ok := fun v hv => ⟨himp (he.fin_ok v hv).1, (he.fin_ok v hv).2⟩ }⟩
  | closed =>
    obtain ⟨hend, hout⟩ := (reorderOk_closed hs).mp h
    exact (reorderOk_closed hs).mpr ⟨himp hend, hout⟩
  | aborted => exact (reorderOk_aborted hs).mpr ((reorderOk_aborted hs).mp h)

/-! ## The step lemma -/

/-- The position has met the FIN number: everything is out. -/
theorem out_eq_of_fin (hspan : src.length < 2 ^ 64) (hok : AsmOk seqNumbering src e s.asm)
    (hfin : ∀ v, s.finSeq = some v → ended ∧ v = UInt64.ofNat src.length)
    (hmeet : s.finSeq = some s.asm.expect) : ended ∧ s.asm.out = src.flatten := by
  obtain ⟨hend, hv⟩ := hfin _ hmeet
  have hle := hok.le_length
  have he : e = src.length := by
    refine ofNat_inj_of_lt (by omega) hspan ?_
    rw [← hv]; exact hok.expect_eq.symm
  refine ⟨hend, ?_⟩
  rw [hok.out_eq, he, take_length]

/-- After a frame has been recorded — parked, or its FIN number noted — draining and the test at the
    loop top re-establish the invariant. -/
theorem drainPending_ok (fail : UInt64 → Option Nat) (hspan : src.length < 2 ^ 64)
    (hrun : s.status = .running) (hok : AsmOk seqNumbering src e s.asm) (hnf : s.asm.failed = false)
    (hfin : ∀ v, s.finSeq = some v → ended ∧ v = UInt64.ofNat src.length)
    (hdata : ∀ f ∈ arrived, f.type = frameData →
      ∃ i, i < src.length ∧ f.seq = UInt64.ofNat i ∧ HasChunk seqNumbering s.asm e i)
    (hkept : ∀ f ∈ arrived, f.type = frameFIN → s.finSeq ≠ none) :
    ReorderOk src ended arrived (drainPending fail s) := by
  have hcases :=
    drain_cases (N := seqNumbering) fail hspan s.asm.pending.keys.length e s.asm hok hnf
  have hsettled := drain_settled (· + 1) fail s.asm.pending.keys.length s.asm (Nat.le_refl _)
  rw [show seqNumbering.succ = (· + 1) from rfl] at hcases
  rw [drainPending]
  generalize drain (· + 1) fail s.asm.pending.keys.length s.asm = t at hcases hsettled
  rcases hcases with ⟨e', hok', hnf', hhas⟩ | ⟨hbad, hout⟩
  · simp only [hnf', Bool.false_eq_true, if_false]
    rw [loopTop]
    by_cases hmeet : s.finSeq = some t.expect
    · rw [if_pos hmeet]
      exact (reorderOk_closed rfl).mpr
        (out_eq_of_fin (s := { s with asm := t }) hspan hok' hfin hmeet)
    · rw [if_neg hmeet]
      refine (reorderOk_running (s := { s with asm := t }) hrun).mpr
        ⟨e', hok', hnf', hsettled hnf', hfin, hmeet, ?_, hkept⟩
      intro f hf hd
      obtain ⟨i, hi, hseq, hi'⟩ := hdata f hf hd
      exact ⟨i, hi, hseq, hhas i hi hi'⟩
  · simp only [hbad, if_true]
    exact (reorderOk_aborted rfl).mpr hout

theorem minFin_cases (cur : Option UInt64) (v w : UInt64) (h : minFin cur v = some w) :
    w = v ∨ cur = some w := by
  cases cur with
  | none => exact Or.inl (Option.some.inj h).symm
  | some c =>
    rw [minFin] at h
    split at h
    · exact Or.inl (Option.some.inj h).symm
    · exact Or.inr h

theorem minFin_ne_none (cur : Option UInt64) (v : UInt64) : minFin cur v ≠ none := by
  cases cur with
  | none => simp [minFin]
  | some c => rw [minFin]; split <;> simp

/-- **The step lemma of `reorder`.**  Cases follow the `switch` on the frame type. -/
theorem reorder_ok (fail : UInt64 → Option Nat) (hspan : src.length < 2 ^ 64)
    (h : ReorderOk src ended arrived s) (hf : Genuine src ended f) :
    ReorderOk src ended (arrived ++ [f]) (reorder fail s f) := by
  rw [reorder]
  cases hs : s.status with
  | closed =>
    rw [if_pos (by simp)]
    exact (reorderOk_closed hs).mpr ((reorderOk_closed hs).mp h)
  | aborted =>
    rw [if_pos (by simp)]
    exact (reorderOk_aborted hs).mpr ((reorderOk_aborted hs).mp h)
  | running =>
    rw [if_neg (by simp)]
    obtain ⟨e, he⟩ := (reorderOk_running hs).mp h
    rcases hf with ⟨htype, i, hseq, hi⟩ | ⟨htype, hseq, hend⟩
    · rw [if_pos htype]
      split
      · exact (reorderOk_aborted rfl).mpr he.asm_ok.out_prefix
      · -- DATA: park it, everything parked before stays parked
        obtain ⟨hilt, -⟩ := List.getElem?_eq_some_iff.mp hi
        have hparked : AsmOk seqNumbering src e (s.park f).asm := by
          rw [ReorderState.park, hseq]; exact he.asm_ok.park hi
        refine drainPending_ok fail hspan hs hparked he.not_failed he.fin_ok ?_ ?_
        · intro g hg hgd
          rcases mem_append.mp hg with hg | hg
          · obtain ⟨j, hj, hjseq, hjhas⟩ := he.data_kept g hg hgd
            exact ⟨j, hj, hjseq, hjhas.park _ _⟩
          · obtain rfl : g = f := mem_singleton.mp hg
            refine ⟨i, hilt, hseq, ?_⟩
            rw [ReorderState.park, hseq]
            exact has_park_self s.asm e i _
        · intro g hg hgf
          rcases mem_append.mp hg with hg | hg
          · exact he.fin_kept g hg hgf
          · obtain rfl : g = f := mem_singleton.mp hg
            exact absurd (htype.symm.trans hgf) (by decide)
    · have hne : f.type ≠ frameData := by rw [htype]; decide
      rw [if_neg hne, if_pos htype]
      -- FIN: the number kept is this one or the one kept before, and both are the total
      refine drainPending_ok (s := s.noteFin f.seq) fail hspan hs he.asm_ok he.not_failed ?_ ?_ ?_
      · intro v hv
        rcases minFin_cases s.finSeq f.seq v hv with hv | hv
        · exact ⟨hend, hv.trans hseq⟩
        · exact he.fin_ok v hv
      · intro g hg hgd
        rcases mem_append.mp hg with hg | hg
        · exact he.data_kept g hg hgd
        · obtain rfl : g = f := mem_singleton.mp hg
          exact absurd hgd hne
      · intro g hg hgf
        exact minFin_ne_none _ _

/-! ## When the loop is over -/

/-- **Nothing is left to wait for**: a loop that has been handed every chunk and a FIN is not at its
    `select` any more. -/
theorem not_running_of_all (hspan : src.length < 2 ^ 64) (h : ReorderOk src ended arrived s)
    (hall : ∀ i, i < src.length → ∃ f ∈ arrived, f.type = frameData ∧ f.seq = UInt64.ofNat i)
    (hfin : ∃ f ∈ arrived, f.type = frameFIN) : s.status ≠ .running := by
  intro hs
  obtain ⟨e, he⟩ := (reorderOk_running hs).mp h
  have hle := he.asm_ok.le_length
  -- the position is at the end: chunk `e` has arrived, yet is neither written nor parked
  have hend : e = src.length := by
    by_contra hne
    have hlt : e < src.length := by omega
    obtain ⟨f, hf, hdata, hseq⟩ := hall e hlt
    obtain ⟨i, hi, hseqi, hhas⟩ := he.data_kept f hf hdata
    have hie : i = e := ofNat_inj_of_lt (by omega) (by omega) (hseqi.symm.trans hseq)
    subst hie
    rcases hhas with hhas | hhas
    · omega
    · refine AList.lookup_eq_none.mp he.settled ?_
      rw [he.asm_ok.expect_eq]; exact hhas
  obtain ⟨f, hf, hft⟩ := hfin
  obtain ⟨v, hv⟩ := Option.ne_none_iff_exists'.mp (he.fin_kept f hf hft)
  refine he.still_open ?_
  rw [hv, (he.fin_ok v hv).2, he.asm_ok.expect_eq, hend]
  rfl

/-- The only ways to give up on genuine frames: a full map, or a failing write. -/
theorem reorder_not_aborted (h : ReorderOk src ended arrived s) (hf : Genuine src ended f)
    (hs : s.status ≠ .aborted) (hfail : ∀ k, fail k = none)
    (hcap : s.asm.pending.keys.length < pendingCap) : (reorder fail s f).status ≠ .aborted := by
  have hdrain : ∀ t : ReorderState, t.status = .running → t.asm.failed = false →
      (drainPending fail t).status ≠ .aborted := by
    intro t ht hnf
    rw [drainPending, drain_failed_eq _ hfail, hnf]
    simp only [Bool.false_eq_true, if_false]
    rw [loopTop]
    split
    · simp
    · show t.status ≠ .aborted
      rw [ht]; decide
  rw [reorder]
  by_cases hrun : s.status = .running
  · rw [if_neg (by rw [hrun]; decide)]
    obtain ⟨e, he⟩ := (reorderOk_running hrun).mp h
    rcases hf with ⟨htype, -⟩ | ⟨htype, -⟩
    · rw [if_pos htype, if_neg (by omega)]
      exact hdrain _ hrun he.not_failed
    · rw [if_neg (by rw [htype]; decide), if_pos htype]
      exact hdrain _ hrun he.not_failed
  · rw [if_pos hrun]; exact hs

/-- **The map never holds more than `pendingCap` frames**, whatever comes down the lanes: forged
    numbers, gaps never filled and failing writes included. -/
theorem parked_le_pendingCap (fail : UInt64 → Option Nat) (frames : List Frame) :
    (frames.foldl (reorder fail) .start).asm.pending.keys.length ≤ pendingCap := by
  have hdrain : ∀ s, (drainPending fail s).asm.pending.keys.length ≤ s.asm.pending.keys.length := by
    grind [drainPending, loopTop, drain_length_le]
  induction frames using reverseRecOn with
  | nil => exact Nat.zero_le _
  | append_singleton frames f ih =>
    rw [foldl_concat]
    generalize frames.foldl (reorder fail) .start = s at ih
    fun_cases reorder fail s f with
    | case1 | case2 | case5 => exact ih
    | case3 =>
      -- one frame joins fewer than `pendingCap`
      grind [ReorderState.park, AList.keys_insert]
    | case4 => exact (hdrain (s.noteFin f.seq)).trans ih

end OlcVpn.Bond
