/-
  `splitToLanes` — the sending half of the stream bond (`bond-server/bond.go`).

  The goroutine reads the single stream into a 16 KiB buffer, tags what it got with the next
  sequence number and writes it to ONE live lane, round-robin (`writeNextLane`).  A lane whose write
  errors is marked dead and the SAME frame goes to the next live one.  At the end of the source it
  writes a FIN to every lane that is not dead.

  The model keeps the Go control points, because a lane reader of the same end may mark a lane dead
  between any two of them, and because a frame may be read at the far end while the writer is still
  on its way to a second lane with it:

  * `.read`            — about to call `single.Read`;
  * `.write d t rerr`  — inside `writeNextLane` with chunk `d`, `t` iterations of `for range` left;
                         `rerr` is the error `Read` returned together with `d`;
  * `.fin i`           — in the FIN loop, at lane `i`;
  * `.closed`          — returned from the FIN loop; `.aborted` — returned without it.

  A failed write is EITHER lost or in fact delivered (`errDelivered`): the writer cannot tell.

  `unread` is what `Read` is still going to hand over, so an error from `Read` — the end of the
  stream, a reset, a deadline — comes exactly when nothing of it is left.  Two histories are ghost:
  `sent`, the chunks cut so far, and `written`, those of them that `writeNextLane` found a lane for.

  The invariant comes in two layers.  `CutOk` is about the counter and the chunks alone; `SplitOk`
  adds what it takes for the frames under way to be `Genuine`.
-/
import OlcVpn.Bond.Reorder

namespace OlcVpn.Bond

open Runs List

/-! ## Lanes -/

/-- What one `writeFrame` on a lane comes to. -/
inductive WriteResult where
  | ok
  | errLost
  | errDelivered
  deriving DecidableEq, Repr

/-- A lane: the frames written to it and not yet read at the other end, oldest first, and the
    writer's `dead` flag. -/
structure Lane where
  wire : List Frame
  dead : Bool
  deriving DecidableEq, Repr

/-- `writeFrame(l.c, …)`: the lane afterwards, and whether `err == nil`. -/
def Lane.writeFrame (l : Lane) (f : Frame) : WriteResult → Lane × Bool
  | .ok => ({ l with wire := l.wire ++ [f] }, true)
  | .errLost => (l, false)
  | .errDelivered => ({ l with wire := l.wire ++ [f] }, false)

/-- Every frame under way satisfies `P`. -/
def OnWires (P : Frame → Prop) (lanes : List Lane) : Prop := ∀ l ∈ lanes, ∀ f ∈ l.wire, P f

theorem Lane.mem_writeFrame {l : Lane} {f g : Frame} {r : WriteResult}
    (h : g ∈ (l.writeFrame f r).1.wire) : g ∈ l.wire ∨ g = f := by
  cases r with
  | errLost => exact Or.inl h
  | ok | errDelivered =>
    rcases mem_append.mp h with h | h
    · exact Or.inl h
    · exact Or.inr (mem_singleton.mp h)

theorem OnWires.imp {P Q : Frame → Prop} {lanes : List Lane} (h : OnWires P lanes)
    (hPQ : ∀ f, P f → Q f) : OnWires Q lanes := fun l hl f hf => hPQ f (h l hl f hf)

/-- Replacing one lane: only its own frames have to be looked at. -/
theorem OnWires.set {P : Frame → Prop} {lanes : List Lane} (h : OnWires P lanes) (i : Nat)
    {l' : Lane} (hl' : ∀ f ∈ l'.wire, P f) : OnWires P (lanes.set i l') := by
  intro l hl f hf
  rcases mem_or_eq_of_mem_set hl with hl | rfl
  · exact h l hl f hf
  · exact hl' f hf

/-! ## The goroutine -/

inductive SplitPc where
  | read
  | write (data : Bytes) (tries : Nat) (rerr : Bool)
  | fin (i : Nat)
  | closed
  | aborted
  deriving DecidableEq, Repr

structure SplitState where
  unread : Bytes
  sent : List Bytes
  written : List Bytes
  seq : UInt64
  laneIdx : UInt64
  lanes : List Lane
  pc : SplitPc
  deriving DecidableEq, Repr

def SplitState.start (source : Bytes) (lanes : List Lane) : SplitState :=
  ⟨source, [], [], 0, 0, lanes, .read⟩

inductive SplitEvent where
  /-- `single.Read` returns at most `k` bytes, with an error if `eof` and nothing is left. -/
  | read (k : Nat) (eof : Bool)
  /-- one iteration of `writeNextLane` -/
  | attempt (r : WriteResult)
  /-- one iteration of the FIN loop -/
  | fin (r : WriteResult)
  /-- this end's reader of lane `i` failed: `l.dead.Store(true)` -/
  | laneDown (i : Nat)
  /-- the `select` at the bottom of the loop finds `ctx.Done()` -/
  | cancel
  deriving DecidableEq, Repr

/-- `n, rerr := single.Read(buf)` and the branch on `n > 0`. -/
def readTurn (k : Nat) (eof : Bool) (s : SplitState) : SplitState :=
  let n := min k (min maxChunk s.unread.length)
  let rerr := eof && n == s.unread.length
  if n > 0 then
    { s with
      unread := s.unread.drop n
      sent := s.sent ++ [s.unread.take n]
      pc := .write (s.unread.take n) s.lanes.length rerr }
  else if rerr then { s with pc := .fin 0 }
  else s

/-- One iteration of `for range lanes` in `writeNextLane`; with none left it returned `false`. -/
def writeNextLane (r : WriteResult) (data : Bytes) (rerr : Bool) (s : SplitState) :
    Nat → SplitState
  | 0 => { s with pc := .aborted }
  | tries + 1 =>
    let idx := s.laneIdx.toNat % s.lanes.length
    let s := { s with laneIdx := s.laneIdx + 1, pc := .write data tries rerr }
    match s.lanes[idx]? with
    | none => s
    | some l =>
      if l.dead then s
      else
        let (l', ok) := l.writeFrame ⟨frameData, s.seq, data⟩ r
        if ok then
          { s with
            lanes := s.lanes.set idx l'
            written := s.written ++ [data]
            seq := s.seq + 1
            pc := if rerr then .fin 0 else .read }
        else { s with lanes := s.lanes.set idx { l' with dead := true } }

/-- One iteration of the FIN loop; the error of the write is dropped. -/
def finTurn (r : WriteResult) (i : Nat) (s : SplitState) : SplitState :=
  match s.lanes[i]? with
  | none => { s with pc := .closed }
  | some l =>
    if l.dead then { s with pc := .fin (i + 1) }
    else
      { s with
        lanes := s.lanes.set i (l.writeFrame ⟨frameFIN, s.seq, []⟩ r).1
        pc := .fin (i + 1) }

/-- One step of the goroutine, or of the lane readers it shares `dead` with.  An event that does not
    fit the control point is skipped. -/
def splitToLanes (s : SplitState) (ev : SplitEvent) : SplitState :=
  match ev, s.pc with
  | .read k eof, .read => readTurn k eof s
  | .attempt r, .write data tries rerr => writeNextLane r data rerr s tries
  | .fin r, .fin i => finTurn r i s
  | .cancel, .read => { s with pc := .aborted }
  | .laneDown i, _ =>
    match s.lanes[i]? with
    | none => s
    | some l => { s with lanes := s.lanes.set i { l with dead := true } }
  | _, _ => s

/-! ## Cutting and counting -/

/-- What the control point knows about the two histories: inside `writeNextLane` the current chunk
    has been cut but has no lane yet. -/
def PcOk (s : SplitState) : Prop :=
  match s.pc with
  | .read => s.written = s.sent
  | .write data _ _ => s.sent = s.written ++ [data]
  | .fin _ => s.written = s.sent
  | .closed => s.written = s.sent
  | .aborted => s.written <+: s.sent

structure CutOk (source : Bytes) (s : SplitState) : Prop where
  source_eq : s.sent.flatten ++ s.unread = source
  chunk_ne : ∀ d ∈ s.sent, d ≠ []
  seq_eq : s.seq = UInt64.ofNat s.written.length
  pc_ok : PcOk s

variable {source : Bytes} {s : SplitState}

theorem CutOk.written_prefix (h : CutOk source s) : s.written <+: s.sent := by
  have hpc := h.pc_ok
  rw [PcOk] at hpc
  cases hs : s.pc with
  | read | fin i | closed => rw [hs] at hpc; rw [hpc]
  | write data tries rerr => rw [hs] at hpc; exact ⟨[data], hpc.symm⟩
  | aborted => rw [hs] at hpc; exact hpc

/-- What has found a lane is a prefix of the source. -/
theorem CutOk.written_flatten_prefix (h : CutOk source s) : s.written.flatten <+: source := by
  obtain ⟨rest, hrest⟩ := h.written_prefix
  refine ⟨rest.flatten ++ s.unread, ?_⟩
  rw [← append_assoc, ← flatten_append, hrest, h.source_eq]

theorem length_le_flatten : ∀ chunks : List Bytes, (∀ d ∈ chunks, d ≠ []) →
    chunks.length ≤ chunks.flatten.length := by
  intro chunks
  induction chunks with
  | nil => intro _; exact Nat.le_refl 0
  | cons d ds ih =>
    intro h
    have hd : d ≠ [] := h d mem_cons_self
    have hpos := length_pos_iff.mpr hd
    have hds := ih fun x hx => h x (mem_cons_of_mem d hx)
    rw [flatten_cons, length_cons, length_append]
    omega

/-- No chunk is empty, so a short source has few of them. -/
theorem CutOk.sent_length_le (h : CutOk source s) : s.sent.length ≤ source.length := by
  have hle := length_le_flatten s.sent h.chunk_ne
  rw [← h.source_eq, length_append]
  omega

theorem start_cutOk (source : Bytes) (lanes : List Lane) :
    CutOk source (SplitState.start source lanes) :=
  ⟨rfl, fun _ hd => absurd hd (by simp [SplitState.start]), rfl, rfl⟩

/-- A read cuts the next chunk off the source. -/
theorem readTurn_cutOk (k : Nat) (eof : Bool) (h : CutOk source s) (hpc : s.pc = .read) :
    CutOk source (readTurn k eof s) := by
  have hw : s.written = s.sent := by
    have := h.pc_ok
    rw [PcOk, hpc] at this; exact this
  rw [readTurn]
  generalize hn : min k (min maxChunk s.unread.length) = n
  split
  · -- `n > 0`: a chunk is cut off
    rename_i hpos
    refine ⟨?_, ?_, h.seq_eq, ?_⟩
    · rw [← h.source_eq]
      simp [flatten_append, append_assoc, take_append_drop]
    · intro d hd
      rcases mem_append.mp hd with hd | hd
      · exact h.chunk_ne d hd
      · rw [mem_singleton.mp hd, ← length_pos_iff, length_take]
        omega
    · show s.sent ++ _ = s.written ++ _
      rw [hw]
  · split
    · exact ⟨h.source_eq, h.chunk_ne, h.seq_eq, hw⟩
    · exact h

variable (r : WriteResult)

theorem writeNextLane_cutOk {data : Bytes} {rerr : Bool} {tries : Nat}
    (h : CutOk source s) (hpc : s.pc = .write data tries rerr) :
    CutOk source (writeNextLane r data rerr s tries) := by
  have hcur : s.sent = s.written ++ [data] := by
    have := h.pc_ok
    rw [PcOk, hpc] at this; exact this
  fun_cases writeNextLane r data rerr s tries with
  | case1 => exact ⟨h.source_eq, h.chunk_ne, h.seq_eq, ⟨[data], hcur.symm⟩⟩
  | case2 | case3 | case5 => exact ⟨h.source_eq, h.chunk_ne, h.seq_eq, hcur⟩
  | case4 =>
    -- the write went through: the chunk is counted
    refine ⟨h.source_eq, h.chunk_ne, ?_, ?_⟩
    · show s.seq + 1 = UInt64.ofNat (s.written ++ [data]).length
      rw [h.seq_eq, length_append, UInt64.ofNat_add]; rfl
    · cases rerr <;> exact hcur.symm

theorem finTurn_cutOk {i : Nat} (h : CutOk source s) (hpc : s.pc = .fin i) :
    CutOk source (finTurn r i s) := by
  have hw : s.written = s.sent := by
    have := h.pc_ok
    rw [PcOk, hpc] at this; exact this
  fun_cases finTurn r i s <;> exact ⟨h.source_eq, h.chunk_ne, h.seq_eq, hw⟩

/-- So no turn changes how the source is cut. -/
theorem splitToLanes_cutOk (ev : SplitEvent) (h : CutOk source s) :
    CutOk source (splitToLanes s ev) := by
  fun_cases splitToLanes s ev with
  | case1 k eof hpc => exact readTurn_cutOk k eof h hpc
  | case2 r data tries rerr hpc => exact writeNextLane_cutOk r h hpc
  | case3 r i hpc => exact finTurn_cutOk r h hpc
  | case4 hpc => exact ⟨h.source_eq, h.chunk_ne, h.seq_eq, h.written_prefix⟩
  | case5 i hl | case7 => exact h
  | case6 i l hl => exact ⟨h.source_eq, h.chunk_ne, h.seq_eq, h.pc_ok⟩

/-- `sent` and `written` are histories: no step takes a chunk back. -/
theorem histories_grow (s : SplitState) (ev : SplitEvent) :
    s.sent <+: (splitToLanes s ev).sent ∧ s.written <+: (splitToLanes s ev).written := by
  have hsame : s.sent <+: s.sent ∧ s.written <+: s.written := ⟨prefix_rfl, prefix_rfl⟩
  fun_cases splitToLanes s ev with
  | case1 k eof hpc =>
    rw [readTurn]
    split
    · exact ⟨prefix_append _ _, prefix_rfl⟩
    · split <;> exact hsame
  | case2 r data tries rerr hpc =>
    fun_cases writeNextLane r data rerr s tries with
    | case1 | case2 | case3 | case5 => exact hsame
    | case4 => exact ⟨prefix_rfl, prefix_append _ _⟩
  | case3 r i hpc =>
    fun_cases finTurn r i s <;> exact hsame
  | case4 hpc | case5 i hl | case6 i l hl | case7 => exact hsame

/-! ## Genuine frames -/

def SplitPc.over : SplitPc → Prop
  | .fin _ => True
  | .closed => True
  | _ => False

/-- The source is exhausted and no further chunk will be cut. -/
def SplitState.Ended (s : SplitState) : Prop := s.unread = [] ∧ s.pc.over

/-- The FIN loop, and the error that leads to it, are met only at the end of the source. -/
def FinAtEnd (s : SplitState) : Prop :=
  match s.pc with
  | .write _ _ rerr => rerr = true → s.unread = []
  | .fin _ => s.unread = []
  | .closed => s.unread = []
  | _ => True

structure SplitOk (source : Bytes) (s : SplitState) : Prop extends CutOk source s where
  at_end : FinAtEnd s
  wires : OnWires (Genuine s.sent s.Ended) s.lanes

/-- How `sent` moves in one step: not at all, or forward while the source has not ended. -/
def Grows (s s' : SplitState) : Prop :=
  (s'.sent = s.sent ∧ (s.Ended → s'.Ended)) ∨
    (¬ s.Ended ∧ ∃ more, s'.sent = s.sent ++ more)

/-- A frame that was genuine stays so. -/
theorem Genuine.grows {s s' : SplitState} (h : Grows s s') {f : Frame}
    (hf : Genuine s.sent s.Ended f) : Genuine s'.sent s'.Ended f := by
  rcases h with ⟨heq, hend⟩ | ⟨hnot, more, heq⟩
  · rw [heq]
    rcases hf with hf | ⟨ht, hseq, he⟩
    · exact Or.inl hf
    · exact Or.inr ⟨ht, hseq, hend he⟩
  · rcases hf with ⟨ht, i, hseq, hi⟩ | ⟨-, -, he⟩
    · refine Or.inl ⟨ht, i, hseq, ?_⟩
      rw [heq]
      exact getElem?_append_of_some hi more
    · exact absurd he hnot

/-- The receiver's invariant survives the sender's steps. -/
theorem ReorderOk.grows {s s' : SplitState} (h : Grows s s') {arrived : List Frame}
    {rd : ReorderState} (hrd : ReorderOk s.sent s.Ended arrived rd) :
    ReorderOk s'.sent s'.Ended arrived rd := by
  rcases h with ⟨heq, hend⟩ | ⟨hnot, more, heq⟩
  · rw [heq]; exact hrd.weaken hend
  · rw [heq]
    exact ((hrd.weaken hnot).mono more).weaken False.elim

theorem start_splitOk (source : Bytes) (n : Nat) :
    SplitOk source (SplitState.start source (List.replicate n ⟨[], false⟩)) := by
  refine ⟨start_cutOk source _, trivial, ?_⟩
  intro l hl f hf
  rw [eq_of_mem_replicate hl] at hf
  exact absurd hf (by simp)

/-- A step that cuts nothing: `s'` differs from `s` in the lanes, the counter and the control point,
    and the frames it put on a lane are genuine already. -/
theorem SplitOk.of_same_sent {s' : SplitState} (hcut : CutOk source s')
    (hsent : s'.sent = s.sent) (hunread : s'.unread = s.unread) (hover : s.pc.over → s'.pc.over)
    (hend : FinAtEnd s') (hwires : OnWires (Genuine s.sent s.Ended) s'.lanes) :
    SplitOk source s' ∧ Grows s s' := by
  have hgrows : Grows s s' := Or.inl ⟨hsent, fun he => ⟨hunread.trans he.1, hover he.2⟩⟩
  exact ⟨⟨hcut, hend, hwires.imp fun f hf => hf.grows hgrows⟩, hgrows⟩

theorem readTurn_ok (k : Nat) (eof : Bool) (h : SplitOk source s) (hpc : s.pc = .read) :
    SplitOk source (readTurn k eof s) ∧ Grows s (readTurn k eof s) := by
  have hcut := readTurn_cutOk k eof h.toCutOk hpc
  have hopen : ¬ s.Ended := by
    rintro ⟨-, hover⟩
    rw [hpc] at hover; exact hover
  revert hcut
  rw [readTurn]
  generalize hn : min k (min maxChunk s.unread.length) = n
  have hrerr : (eof && n == s.unread.length) = true → s.unread.length ≤ n := by
    intro hb
    rw [Bool.and_eq_true, beq_iff_eq] at hb
    omega
  split
  · -- `n > 0`: a chunk is cut off
    intro hcut
    have hgrows : Grows s { s with
        unread := s.unread.drop n, sent := s.sent ++ [s.unread.take n],
        pc := .write (s.unread.take n) s.lanes.length (eof && n == s.unread.length) } :=
      Or.inr ⟨hopen, _, rfl⟩
    refine ⟨⟨hcut, ?_, h.wires.imp fun f hf => hf.grows hgrows⟩, hgrows⟩
    intro hb
    exact drop_eq_nil_of_le (hrerr hb)
  · split
    · -- the end of the source, with no bytes
      rename_i hzero hb
      intro hcut
      have hnil : s.unread = [] := length_eq_zero_iff.mp (by have := hrerr hb; omega)
      exact SplitOk.of_same_sent hcut rfl rfl (fun _ => trivial) hnil h.wires
    · intro hcut
      exact SplitOk.of_same_sent hcut rfl rfl (fun ho => ho) h.at_end h.wires

/-- The chunk in hand is genuine under the current number. -/
theorem CutOk.genuine_current (h : CutOk source s) {data : Bytes} (ended : Prop)
    (hcur : s.sent = s.written ++ [data]) : Genuine s.sent ended ⟨frameData, s.seq, data⟩ := by
  refine Or.inl ⟨rfl, s.written.length, h.seq_eq, ?_⟩
  rw [hcur]
  simp

theorem writeNextLane_ok {data : Bytes} {rerr : Bool} {tries : Nat}
    (h : SplitOk source s) (hpc : s.pc = .write data tries rerr) :
    SplitOk source (writeNextLane r data rerr s tries) ∧
      Grows s (writeNextLane r data rerr s tries) := by
  have hcut := writeNextLane_cutOk r h.toCutOk hpc
  have hcur : s.sent = s.written ++ [data] := by
    have := h.pc_ok
    rw [PcOk, hpc] at this; exact this
  have hlast : rerr = true → s.unread = [] := by
    have := h.at_end
    rw [FinAtEnd, hpc] at this; exact this
  have hover : ∀ pc' : SplitPc, s.pc.over → pc'.over := by
    intro pc' ho
    rw [hpc] at ho; exact ho.elim
  -- whatever the write came to, a lane carries what it did and at most this frame
  have hlane : ∀ l ∈ s.lanes, ∀ f ∈ (l.writeFrame ⟨frameData, s.seq, data⟩ r).1.wire,
      Genuine s.sent s.Ended f := by
    intro l hl f hf
    rcases Lane.mem_writeFrame hf with hf | rfl
    · exact h.wires l hl f hf
    · exact h.genuine_current _ hcur
  revert hcut
  fun_cases writeNextLane r data rerr s tries with
  | case1 => intro hcut; exact SplitOk.of_same_sent hcut rfl rfl (hover _) trivial h.wires
  | case2 | case3 => intro hcut; exact SplitOk.of_same_sent hcut rfl rfl (hover _) hlast h.wires
  | case4 tries idx s' l hl hdead l' hwrite =>
    intro hcut
    have hl' := hlane l (mem_of_getElem? hl)
    rw [hwrite] at hl'
    refine SplitOk.of_same_sent hcut rfl rfl (hover _) ?_ (h.wires.set _ hl')
    cases rerr with
    | false => trivial
    | true => exact hlast rfl
  | case5 tries idx s' l hl hdead l' ok hwrite hok =>
    intro hcut
    have hl' := hlane l (mem_of_getElem? hl)
    rw [hwrite] at hl'
    exact SplitOk.of_same_sent hcut rfl rfl (hover _) hlast (h.wires.set _ hl')

theorem finTurn_ok {i : Nat} (h : SplitOk source s) (hpc : s.pc = .fin i) :
    SplitOk source (finTurn r i s) ∧ Grows s (finTurn r i s) := by
  have hcut := finTurn_cutOk r h.toCutOk hpc
  have hw : s.written = s.sent := by
    have := h.pc_ok
    rw [PcOk, hpc] at this; exact this
  have hnil : s.unread = [] := by
    have := h.at_end
    rw [FinAtEnd, hpc] at this; exact this
  have hended : s.Ended := ⟨hnil, by rw [hpc]; trivial⟩
  revert hcut
  rw [finTurn]
  cases hl : s.lanes[i]? with
  | none => intro hcut; exact SplitOk.of_same_sent hcut rfl rfl (fun _ => trivial) hnil h.wires
  | some l =>
    simp only
    split
    · intro hcut; exact SplitOk.of_same_sent hcut rfl rfl (fun _ => trivial) hnil h.wires
    · intro hcut
      refine SplitOk.of_same_sent hcut rfl rfl (fun _ => trivial) hnil (h.wires.set i ?_)
      intro f hf
      rcases Lane.mem_writeFrame hf with hf | rfl
      · exact h.wires l (mem_of_getElem? hl) f hf
      · exact Or.inr ⟨rfl, by rw [← hw]; exact h.seq_eq, hended⟩

/-- **The step lemma of `splitToLanes`.**  One case per line of its table. -/
theorem splitToLanes_ok (ev : SplitEvent) (h : SplitOk source s) :
    SplitOk source (splitToLanes s ev) ∧ Grows s (splitToLanes s ev) := by
  have hsame : SplitOk source s ∧ Grows s s := ⟨h, Or.inl ⟨rfl, fun he => he⟩⟩
  have hcut := splitToLanes_cutOk ev h.toCutOk
  revert hcut
  fun_cases splitToLanes s ev with
  | case1 k eof hpc => intro _; exact readTurn_ok k eof h hpc
  | case2 r data tries rerr hpc => intro _; exact writeNextLane_ok r h hpc
  | case3 r i hpc => intro _; exact finTurn_ok r h hpc
  | case4 hpc =>
    intro hcut
    exact SplitOk.of_same_sent hcut rfl rfl (by rw [hpc]; exact fun ho => ho) trivial h.wires
  | case5 i hl | case7 => intro _; exact hsame
  | case6 i l hl =>
    intro hcut
    exact SplitOk.of_same_sent hcut rfl rfl (fun ho => ho) h.at_end
      (h.wires.set i (h.wires l (mem_of_getElem? hl)))

end OlcVpn.Bond
