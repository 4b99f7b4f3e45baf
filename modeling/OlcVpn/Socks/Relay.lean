/-
  THE TCP RELAY of the AmneziaWG, the csqtt and the bond SOCKS servers: `pipe` and the closes behind
  it.

  `pipe` starts two copiers, one per direction, and waits on a channel for the FIRST of them to end.
  The callers then run their deferred closes: the remote connection, after it the client's.  A
  copier that is still at work loses its source or its sink under its hands.

  The relay keeps what it carries (`whole_run`), so all turns on what the closes cut off:
  `half_close_iff` says that the first report cuts off whatever the other direction still has, and
  that waiting for both reports would have been enough.

  The AmneziaWG and the csqtt servers shut the sink of an ended copier for writing (`CloseWrite`),
  so that the other side sees the end and may go on sending; the bond server does not.
-/
import OlcVpn.Bond.Wire
import OlcVpn.Lib.Runs
import Mathlib.Logic.Function.Basic

namespace OlcVpn.Socks.Pipe

open Bond Runs List
open Bool (false_ne_true)

/-! ## The relay -/

/-- `up` is from the client to the remote side. -/
inductive Dir where
  | up
  | down
  deriving DecidableEq, Repr

inductive Server where
  | awg
  | csqtt
  | bond
  deriving DecidableEq, Repr

/-- Whether the copier shuts its sink for writing at the end. -/
def Server.closesWrite : Server → Bool
  | .awg | .csqtt => true
  | .bond => false

/-- One direction: what the sender has still to send, what waits in the socket, what `io.Copy` has
    read and not yet written, what it has written. -/
structure Copier where
  coming : Bytes
  ended : Bool := false
  arrived : Bytes := []
  inFlight : Bytes := []
  delivered : Bytes := []
  finished : Bool := false
  shut : Bool := false
  deriving DecidableEq

structure State where
  copier : Dir → Copier
  /-- `pipe` has returned. -/
  returned : Bool := false
  remoteOpen : Bool := true
  clientOpen : Bool := true

/-- The relay of two streams. -/
def State.start (streams : Dir → Bytes) : State where
  copier d := { coming := streams d }

namespace State

variable (s : State)

def sourceOpen : Dir → Bool
  | .up => s.clientOpen
  | .down => s.remoteOpen

def sinkOpen : Dir → Bool
  | .up => s.remoteOpen
  | .down => s.clientOpen

def set (d : Dir) (c : Copier) : State := { s with copier := Function.update s.copier d c }

end State

inductive Event where
  /-- Up to `n` more bytes reach the socket. -/
  | arrive (d : Dir) (n : Nat)
  /-- The sender ends its stream. -/
  | fin (d : Dir)
  /-- `io.Copy` reads up to `n` bytes. -/
  | read (d : Dir) (n : Nat)
  | write (d : Dir)
  /-- `io.Copy` meets the end, the copier shuts its sink and reports. -/
  | eof (d : Dir)
  /-- `io.Copy` fails on a closed connection, and the copier reports. -/
  | fail (d : Dir)
  /-- The main goroutine gets a report, and `pipe` returns. -/
  | wake
  /-- The deferred closes, in the order they run in. -/
  | closeRemote
  | closeClient
  deriving DecidableEq

/-- An event that cannot happen changes nothing. -/
def step (server : Server) (s : State) : Event → State
  | .arrive d n =>
    let c := s.copier d
    s.set d { c with arrived := c.arrived ++ c.coming.take n, coming := c.coming.drop n }
  | .fin d =>
    let c := s.copier d
    if c.coming = [] then s.set d { c with ended := true } else s
  | .read d n =>
    let c := s.copier d
    if c.finished = false ∧ c.inFlight = [] ∧ s.sourceOpen d = true then
      s.set d { c with inFlight := c.arrived.take n, arrived := c.arrived.drop n }
    else s
  | .write d =>
    let c := s.copier d
    if c.finished = false ∧ s.sinkOpen d = true then
      s.set d { c with delivered := c.delivered ++ c.inFlight, inFlight := [] }
    else s
  | .eof d =>
    let c := s.copier d
    if c.finished = false ∧ c.inFlight = [] ∧ c.arrived = [] ∧ c.ended = true ∧
      s.sourceOpen d = true then
      s.set d { c with finished := true, shut := server.closesWrite }
    else s
  | .fail d =>
    let c := s.copier d
    if c.finished = false ∧ (s.sourceOpen d = false ∨ s.sinkOpen d = false) then
      s.set d { c with finished := true, shut := server.closesWrite }
    else s
  | .wake =>
    if (s.copier .up).finished = true ∨ (s.copier .down).finished =
      true then { s with returned := true } else s
  | .closeRemote => if s.returned = true then { s with remoteOpen := false } else s
  | .closeClient => if s.remoteOpen = false then { s with clientOpen := false } else s

/-! ## One step -/

/-- What one step does to a copier. -/
inductive Moves (s : State) (d : Dir) (c c' : Copier) : Prop
  | idle (inFlight : c'.inFlight = c.inFlight) (arrived : c'.arrived = c.arrived)
      (coming : c'.coming = c.coming)
      (delivered : c'.delivered = c.delivered)
  | arrive (inFlight : c'.inFlight = c.inFlight)
      (rest : c'.arrived ++ c'.coming = c.arrived ++ c.coming)
      (delivered : c'.delivered = c.delivered)
  | read (opened : s.sourceOpen d = true) (empty : c.inFlight = [])
      (taken : c'.inFlight ++ c'.arrived = c.arrived)
      (coming : c'.coming = c.coming) (delivered : c'.delivered = c.delivered)
  | write (opened : s.sinkOpen d = true) (inFlight : c'.inFlight = [])
      (arrived : c'.arrived = c.arrived)
      (coming : c'.coming = c.coming) (delivered : c'.delivered = c.delivered ++ c.inFlight)

theorem Moves.refl {s : State} {d : Dir} (c : Copier) : Moves s d c c := .idle rfl rfl rfl rfl

variable (server : Server) {s : State}

/-- An event that moves one copier leaves the other where it was. -/
theorem moves_set {d d' : Dir} {c : Copier} (h : Moves s d (s.copier d) c) :
    Moves s d' (s.copier d') ((s.set d c).copier d') := by
  by_cases hd : d' = d
  · subst hd
    change Moves s d' (s.copier d') (Function.update s.copier d' c d')
    rw [Function.update_self]
    exact h
  · change Moves s d' (s.copier d') (Function.update s.copier d c d')
    rw [Function.update_of_ne hd]
    exact .refl _

/-- WHAT AN EVENT DOES TO A COPIER, for both directions at once. -/
theorem step_moves (e : Event) (d : Dir) : Moves s d (s.copier d) ((step server s e).copier d) := by
  cases e with
  | arrive d' n =>
    refine moves_set (.arrive rfl ?_ rfl)
    rw [append_assoc, take_append_drop]
  | fin d' | eof d' | fail d' =>
    rw [step]
    split_ifs
    · exact moves_set (.idle rfl rfl rfl rfl)
    · exact .refl _
  | read d' n =>
    rw [step]
    split_ifs with h
    · exact moves_set (.read h.2.2 h.2.1 (take_append_drop n _) rfl rfl)
    · exact .refl _
  | write d' =>
    rw [step]
    split_ifs with h
    · exact moves_set (.write h.2 rfl rfl rfl rfl)
    · exact .refl _
  | wake | closeRemote | closeClient =>
    rw [step]
    split_ifs <;> exact .refl _

/-! ## Whole runs -/

/-- The bytes of a direction, in order, wherever they are. -/
def Whole (streams : Dir → Bytes) (s : State) : Prop :=
  ∀ d, (s.copier d).delivered ++ ((s.copier d).inFlight ++
    ((s.copier d).arrived ++ (s.copier d).coming)) =
    streams d

/-- A byte is only passed on: from the wire to the buffer, and from there to the other side. -/
theorem Moves.whole {d : Dir} {c c' : Copier} (h : Moves s d c c') :
    c'.delivered ++ (c'.inFlight ++ (c'.arrived ++ c'.coming)) =
      c.delivered ++ (c.inFlight ++ (c.arrived ++ c.coming)) := by
  cases h with
  | idle hflight harrived hcoming hdelivered => rw [hflight, harrived, hcoming, hdelivered]
  | arrive hflight hrest hdelivered => rw [hflight, hrest, hdelivered]
  | read _ hempty htaken hcoming hdelivered =>
    rw [← append_assoc c'.inFlight, htaken, hcoming, hdelivered, hempty, nil_append]
  | write _ hflight harrived hcoming hdelivered =>
    rw [hflight, harrived, hcoming, hdelivered, nil_append, append_assoc]

/-- So at any time what was delivered, is held, has arrived or is to come is the stream. -/
theorem whole_run (streams : Dir → Bytes) (es : List Event) :
    Whole streams (run (step server) (.start streams) es) := by
  refine run_inv (fun s e hs d => ?_) es _ (fun d => ?_)
  · exact (step_moves server e d).whole.trans (hs d)
  · rfl

/-- Both connections are closed only after both streams have been delivered. -/
def Relayed (streams : Dir → Bytes) (s : State) : Prop :=
  s.remoteOpen = false → s.clientOpen = false → ∀ d, (s.copier d).delivered = streams d

/-! ### If `pipe` waited for both reports -/

theorem Dir.forall_iff {p : Dir → Prop} : (∀ d, p d) ↔ p .up ∧ p .down :=
  ⟨fun h => ⟨h .up, h .down⟩, fun h d => by cases d; exacts [h.1, h.2]⟩

/-- `pipe` returns on a report only if the other copier has reported, too. -/
def BothReported (s : State) : Event → Prop
  | .wake => (s.copier .up).finished = true ∨ (s.copier .down).finished = true →
      ∀ d, (s.copier d).finished = true
  | _ => True

instance (s : State) : (e : Event) → Decidable (BothReported s e)
  | .wake => decidable_of_iff
      ((s.copier .up).finished = true ∨ (s.copier .down).finished = true →
        (s.copier .up).finished = true ∧ (s.copier .down).finished = true)
      (imp_congr_right fun _ => (Dir.forall_iff (p := fun d => (s.copier d).finished = true)).symm)
  | .arrive _ _ | .fin _ | .read _ _ | .write _ | .eof _ | .fail _ | .closeRemote
  | .closeClient => isTrue trivial

/-- Nothing of a stream is left on its way. -/
structure Copier.Done (c : Copier) : Prop where
  inFlight : c.inFlight = []
  arrived : c.arrived = []
  coming : c.coming = []

/-- One direction: an ended stream has nothing to send, an ended copier nothing to copy. -/
structure Copier.Safe (c : Copier) : Prop where
  ended : c.ended = true → c.coming = []
  finished : c.finished = true → c.Done

/-- The invariant: before `pipe` returns nothing is closed, and when it has returned both copiers
    have come to the ends of their streams. -/
structure Safe (s : State) : Prop where
  copier : ∀ d, (s.copier d).Safe
  returned : s.returned = true → ∀ d, (s.copier d).finished = true
  closed : s.remoteOpen = false ∨ s.clientOpen = false → s.returned = true

/-- A copier is replaced safely if it is safe and, once the relay has returned, finished. -/
theorem Safe.set {d : Dir} {c : Copier} (hs : Safe s) (hc : c.Safe)
    (hreturned : s.returned = true → c.finished = true) : Safe (s.set d c) where
  copier d' := by
    by_cases hd : d' = d
    · subst hd
      simpa [State.set] using hc
    · simpa [State.set, hd] using hs.copier d'
  returned h d' := by
    by_cases hd : d' = d
    · subst hd
      simpa [State.set] using hreturned h
    · simpa [State.set, hd] using hs.returned h d'
  closed := hs.closed

/-- A closed source or sink means that `pipe` has returned. -/
theorem Safe.returned_of_closed {d : Dir} (hs : Safe s)
    (h : s.sourceOpen d = false ∨ s.sinkOpen d = false) : s.returned = true := by
  refine hs.closed ?_
  cases d with
  | up => exact h.symm
  | down => exact h

/-- Safety is kept by an event that ends the relay only after both directions reported. -/
theorem safe_step (s : State) (e : Event) (hs : Safe s) (hboth : BothReported s e) :
    Safe (step server s e) := by
  cases e with
  | arrive d n =>
    refine hs.set ⟨fun h => ?_, fun h => ?_⟩ fun h => hs.returned h d
    · simp [(hs.copier d).ended h]
    · obtain ⟨hflight, harrived, hcoming⟩ := (hs.copier d).finished h
      exact ⟨hflight, by simp [harrived, hcoming], by simp [hcoming]⟩
  | fin d =>
    rw [step]
    split_ifs with h
    · refine hs.set ⟨fun _ => h, fun hf => ?_⟩ fun hr => hs.returned hr d
      obtain ⟨hflight, harrived, hcoming⟩ := (hs.copier d).finished hf
      exact ⟨hflight, harrived, hcoming⟩
    · exact hs
  | read d n =>
    rw [step]
    split_ifs with h
    · exact hs.set ⟨(hs.copier d).ended, fun hf => absurd (h.1.symm.trans hf) false_ne_true⟩
        fun hr => hs.returned hr d
    · exact hs
  | write d =>
    rw [step]
    split_ifs with h
    · exact hs.set ⟨(hs.copier d).ended, fun hf => absurd (h.1.symm.trans hf) false_ne_true⟩
        fun hr => hs.returned hr d
    · exact hs
  | eof d =>
    rw [step]
    split_ifs with h
    · obtain ⟨-, hflight, harrived, hended, -⟩ := h
      exact hs.set ⟨(hs.copier d).ended, fun _ =>
        ⟨hflight, harrived, (hs.copier d).ended hended⟩⟩ fun _ => rfl
    · exact hs
  | fail d =>
    rw [step]
    split_ifs with h
    · -- a connection is closed, so this copier has already ended
      have hdone := hs.returned (hs.returned_of_closed h.2) d
      exact absurd (h.1.symm.trans hdone) false_ne_true
    · exact hs
  | wake =>
    rw [step]
    split_ifs with h
    · exact ⟨hs.copier, fun _ => hboth h, fun _ => rfl⟩
    · exact hs
  | closeRemote =>
    rw [step]
    split_ifs with h
    · exact ⟨hs.copier, hs.returned, fun _ => h⟩
    · exact hs
  | closeClient =>
    rw [step]
    split_ifs with h
    · exact ⟨hs.copier, hs.returned, fun _ => hs.closed (.inl h)⟩
    · exact hs

/-- Under that condition both streams arrive whole. -/
theorem relayed_of_both (streams : Dir → Bytes) (es : List Event)
    (hboth : Along (step server) BothReported (.start streams) es) :
    Relayed streams (run (step server) (.start streams) es) := by
  intro hremote _ d
  have hstart : Safe (State.start streams) := by
    refine ⟨fun d => ⟨?_, ?_⟩, ?_, ?_⟩ <;> simp [State.start]
  have hsafe := run_inv_along (safe_step server) es _ hstart hboth
  have hdone := (hsafe.copier d).finished (hsafe.returned (hsafe.closed (.inl hremote)) d)
  have hwhole := whole_run server streams es d
  rwa [hdone.inFlight, hdone.arrived, hdone.coming, append_nil, append_nil, append_nil] at hwhole

/-! ### It waits for the first -/

def Dir.other : Dir → Dir
  | .up => .down
  | .down => .up

/-- One direction is copied to its end, and `pipe` returns. -/
def firstReport (d : Dir) (n : Nat) : List Event :=
  [.arrive d n, .read d n, .write d, .fin d, .eof d, .wake, .closeRemote, .closeClient]

/-- Then both connections are closed, and the other direction has not been copied at all. -/
theorem run_firstReport (streams : Dir → Bytes) (d : Dir) :
    (run (step server) (.start streams) (firstReport d (streams d).length)).remoteOpen = false ∧
    (run (step server) (.start streams) (firstReport d (streams d).length)).clientOpen = false ∧
    ((run (step server) (.start streams) (firstReport d (streams d).length)).copier
      d.other).delivered = [] := by
  cases d <;> simp [firstReport, step, State.start, State.set, State.sourceOpen, State.sinkOpen,
    Dir.other]

/-- **A relayed connection does not survive a half-close.**  Whatever the server is, every schedule
    delivers both streams only if there is nothing to deliver: `pipe` takes the first report for
    the end of both.  A schedule in which it never does so before the second copier has reported
    delivers both streams in order. -/
theorem half_close_iff (streams : Dir → Bytes) :
    ((∀ es, Relayed streams (run (step server) (.start streams) es)) ↔ ∀ d, streams d = []) ∧
    ∀ es, Along (step server) BothReported (.start streams) es →
      Relayed streams (run (step server) (.start streams) es) := by
  refine ⟨⟨fun h d => ?_, fun h es _ _ d => ?_⟩, fun es => relayed_of_both server streams es⟩
  · obtain ⟨hremote, hclient, hnone⟩ := run_firstReport server streams d.other
    have hall := h _ hremote hclient d
    have hother : d.other.other = d := by cases d <;> rfl
    rw [hother] at hnone
    exact hall.symm.trans hnone
  · have hwhole := whole_run server streams es d
    rw [h d] at hwhole ⊢
    exact (append_eq_nil_iff.mp hwhole).1

/-! ### Two runs -/

/-- A request of one byte and an answer of one byte. -/
def oneByteEach : Dir → Bytes
  | .up => [1]
  | .down => [2]

/-- The client sends and ends; the answer comes, and its end is copied before `pipe` hears of
    either. -/
def answeredInTime : List Event :=
  [.arrive .up 1, .read .up 1, .write .up, .fin .up, .eof .up, .arrive .down 1, .read .down 1,
   .write .down, .fin .down, .eof .down, .wake, .closeRemote, .closeClient]

/-- Both bytes arrive. -/
theorem answered_in_time :
    ((run (step .awg) (.start oneByteEach) answeredInTime).copier .up).delivered = [1] ∧
      ((run (step .awg) (.start oneByteEach) answeredInTime).copier .down).delivered = [2] := by
  have hall := (half_close_iff .awg oneByteEach).2 answeredInTime (by decide) (by decide)
    (by decide)
  exact ⟨hall .up, hall .down⟩

/-- The same, with the answer on its way when the client's end is copied. -/
def answerCutOff : List Event :=
  [.arrive .up 1, .read .up 1, .write .up, .fin .up, .eof .up, .wake, .closeRemote, .closeClient,
    .arrive .down 1,
   .fin .down, .read .down 1, .write .down, .fail .down]

/-- `pipe` returns with the client's end, and the answer on its way is lost. -/
theorem answer_cut_off : [Server.awg, .csqtt, .bond].all fun server =>
      (run (step server) (.start oneByteEach) answerCutOff).clientOpen = false ∧
        ((run (step server) (.start oneByteEach) answerCutOff).copier .down).delivered ≠
          oneByteEach .down := by
  decide

end OlcVpn.Socks.Pipe
