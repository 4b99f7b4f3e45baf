/-
  THE SOCKS UDP ASSOCIATION of the AmneziaWG and the csqtt servers.

  The client sends datagrams to a relay socket.  The main loop opens one tunnel socket per TARGET,
  on the first datagram for it, and starts a reader for it (`udpReturn`); every later datagram for
  the target goes out on the same socket.  The reader wraps each reply and writes it to the address
  the first datagram came from.

  The reader waits at most a minute for the next reply and then ENDS; the socket stays in the map,
  so no datagram ever starts another reader for this target.
-/
import OlcVpn.Bond.Wire
import OlcVpn.Lib.IdleReader

namespace OlcVpn.Socks

open Bond Lib List
open Option (bind_eq_some_iff map_some getD_some bind_some some)

/-! ## Datagrams -/

inductive IpAddr where
  | v4 (b : Bytes)
  | v6 (b : Bytes)
  deriving DecidableEq, Repr

/-- The texts of addresses: `net.IP.String` and `netip.ParseAddr`. -/
structure IpText where
  show4or16 : Bytes → Bytes
  parse : Bytes → Option IpAddr

/-- A datagram of the client: host, port and payload. -/
structure Request where
  host : Bytes
  port : Nat
  data : Bytes
  deriving DecidableEq, Repr

/-- The port and the payload behind an address of the given length. -/
def requestAt (host : Bytes) (rest : Bytes) : Request := ⟨host, beNat (rest.take 2), rest.drop 2⟩

section Parse

variable (ip : IpText) (p : Bytes)

/-- `parseUDPRequest` of the AmneziaWG server: RSV(2) FRAG(1) ATYP ADDR PORT DATA. -/
def Awg.parseUDPRequest : Option Request :=
  if p.length < 5 ∨ p.getD 2 0 ≠ 0 then none
  else if p.getD 3 0 = 1 then
    if p.length < 4 + 4 + 2 then none
    else some (requestAt (ip.show4or16 ((p.drop 4).take 4)) (p.drop 8))
  else if p.getD 3 0 = 4 then
    if p.length < 4 + 16 + 2 then none
    else some (requestAt (ip.show4or16 ((p.drop 4).take 16)) (p.drop 20))
  else if p.getD 3 0 = 3 then
    if p.length < 4 + 1 then none
    else if p.length < 5 + (p.getD 4 0).toNat + 2 then none
    else some (requestAt ((p.drop 5).take (p.getD 4 0).toNat) (p.drop (5 + (p.getD 4 0).toNat)))
  else none

/-- `parseUDPRequest` of the csqtt server. -/
def Csqtt.parseUDPRequest : Option Request :=
  if p.length < 5 ∨ p.getD 2 0 ≠ 0 then none
  else if p.getD 3 0 = 1 ∨ p.getD 3 0 = 4 then
    let l := if p.getD 3 0 = 1 then 4 else 16
    if p.length < 4 + l + 2 then none
    else some (requestAt (ip.show4or16 ((p.drop 4).take l)) (p.drop (4 + l)))
  else if p.getD 3 0 = 3 then
    let l := (p.getD 4 0).toNat
    if p.length < 5 + l + 2 then none
    else some (requestAt ((p.drop 5).take l) (p.drop (5 + l)))
  else none

/-- The two servers understand the same datagrams. -/
theorem parseUDPRequest_eq : Csqtt.parseUDPRequest ip p = Awg.parseUDPRequest ip p := by
  unfold Csqtt.parseUDPRequest Awg.parseUDPRequest
  by_cases hshort : p.length < 5 ∨ p.getD 2 0 ≠ 0
  · rw [if_pos hshort, if_pos hshort]
  · rw [if_neg hshort, if_neg hshort]
    have hlen : ¬ p.length < 4 + 1 := by omega
    by_cases h4 : p.getD 3 0 = 1
    · simp only [h4, true_or, if_true, Nat.reduceAdd]
    · by_cases h16 : p.getD 3 0 = 4
      · have hne : (4 : UInt8) ≠ 1 := by decide
        simp only [h16, hne, or_true, if_true, if_false, Nat.reduceAdd]
      · simp only [h4, h16, or_self, if_false, if_neg hlen]

end Parse

inductive Server where
  | awg | csqtt
  deriving DecidableEq, Repr

def Server.parseUDPRequest : Server → IpText → Bytes → Option Request
  | .awg => Awg.parseUDPRequest
  | .csqtt => Csqtt.parseUDPRequest

/-- `strconv.Itoa` of a port. -/
def itoa (n : Nat) : Bytes := (Nat.repr n).toList.map fun c => c.toNat.toUInt8

/-- `net.JoinHostPort`: a host with a colon is put in brackets. -/
def joinHostPort (host : Bytes) (port : Nat) : Bytes :=
  if (0x3A : UInt8) ∈ host then [0x5B] ++ host ++ [0x5D, 0x3A] ++ itoa port
  else host ++ [0x3A] ++ itoa port

/-- `buildUDPReply` of either server. -/
def buildUDPReply (ip : IpText) (host : Bytes) (port : Nat) (data : Bytes) : Bytes :=
  let addr : Bytes := match ip.parse host with
    | some (.v4 b) => [1] ++ b
    | some (.v6 b) => [4] ++ b
    | none => [3, host.length.toUInt8] ++ host
  [0, 0, 0] ++ addr ++ putShort port.toUInt16 ++ data

/-! ## The association -/

/-- Where a datagram of the client came from. -/
abbrev Addr := Nat

/-- One minute, in milliseconds. -/
def readTimeout : Nat := 60000

/-- The longest datagram `WriteToUDP` can send. -/
def maxDatagram : Nat := 65507

/-- A tunnel socket in `conns`, what was written to it, and its reader with the address, the host
    and the port it was started with. -/
structure Conn where
  client : Addr
  host : Bytes
  port : Nat
  forwarded : List Bytes
  reader : Reader Bytes

structure State where
  conns : Bytes → Option Conn

def initial : State := ⟨fun _ => none⟩

/-- What happens to the association. -/
inductive Input where
  /-- The relay socket receives a datagram; should a tunnel socket be needed, it can be had or not.
      -/
  | datagram (source : Addr) (bytes : Bytes) (dials : Bool)
  /-- A reply reaches the tunnel socket of a target. -/
  | reply (target data : Bytes)
  deriving DecidableEq

/-- What the association does, and what happens to it. -/
inductive Event where
  | input (i : Input)
  | move (target : Bytes) (m : Move)
  deriving DecidableEq

section Step

variable (server : Server) (ip : IpText)

/-- The reply fits in a datagram to the client. -/
def Conn.fits (c : Conn) (data : Bytes) : Bool :=
  (buildUDPReply ip c.host c.port data).length ≤ maxDatagram

def State.put (s : State) (target : Bytes) (c : Conn) : State :=
  ⟨fun t => if t = target then some c else s.conns t⟩

/-- What a datagram asks for: its target and what to open for it. -/
def opening (source : Addr) (bytes : Bytes) : Option (Bytes × Conn) :=
  (server.parseUDPRequest ip bytes).map fun r =>
    (joinHostPort r.host r.port, ⟨source, r.host, r.port, [r.data], {}⟩)

/-- A datagram goes out on the socket of its target, which is opened if there is none. -/
def State.forward (s : State) (target : Bytes) (fresh : Conn) (dials : Bool) : State :=
  match s.conns target with
  | some c => s.put target { c with forwarded := c.forwarded ++ fresh.forwarded }
  | none => if dials then s.put target fresh else s

def onInput (s : State) : Input → State
  | .datagram source bytes dials =>
    ((opening server ip source bytes).map fun o => s.forward o.1 o.2 dials).getD s
  | .reply target data =>
    match s.conns target with
    | some c => s.put target { c with reader := c.reader.arrive data }
    -- no socket was opened for it
    | none => s

/-- One step, at a time; `none` where the reader cannot make this move. -/
def step (now : Nat) (s : State) : Event → Option State
  | .input i => some (onInput server ip s i)
  | .move target m =>
    (s.conns target).bind fun c =>
      (c.reader.move readTimeout (c.fits ip) now m).map fun r => s.put target { c with reader := r }

/-- A schedule, each step with its time. -/
def exec (s : State) : List (Nat × Event) → Option State
  | [] => some s
  | (now, e) :: rest => (step server ip now s e).bind fun s' => exec s' rest

end Step

/-- Time does not run backwards. -/
def InOrder {α : Type*} (l : List (Nat × α)) : Prop := l.Pairwise fun x y => x.1 ≤ y.1

/-- What happens to the association, in the order of time. -/
structure Timeline where
  events : List (Nat × Input)
  inOrder : InOrder events

/-- What happened in a schedule. -/
def inputsOf (run : List (Nat × Event)) : List (Nat × Input) :=
  run.filterMap fun x => match x.2 with
    | .input i => some (x.1, i)
    | .move _ _ => none

/-- No reader has anything left to do. -/
def State.Settled (s : State) : Prop := ∀ target c, s.conns target = some c → c.reader.Settled

/-- What the client got from a target. -/
def State.answers (ip : IpText) (s : State) (target : Bytes) : List (Addr × Bytes) :=
  ((s.conns target).map fun c =>
    c.reader.taken.map fun data => (c.client, buildUDPReply ip c.host c.port data)).getD []

/-! ## The specification -/

section Due

variable (server : Server) (ip : IpText) (target : Bytes)

variable (input : List (Nat × Input))

/-- The replies of a target. -/
def replies : List (Nat × Bytes) :=
  input.filterMap fun x => match x.2 with
    | .reply t data => if t = target then some (x.1, data) else none
    | .datagram _ _ _ => none

/-- The first datagram that is forwarded to a target, with its time, and the replies after it. -/
def conversation : List (Nat × Input) → Option (Nat × Conn × List (Nat × Bytes))
  | [] => none
  | (now, .datagram source bytes dials) :: rest =>
    match opening server ip source bytes with
    | some (t, fresh) =>
      if t = target ∧ dials then some (now, fresh, replies target rest) else conversation rest
    | none => conversation rest
  | (_, .reply _ _) :: rest => conversation rest

/-- THE SPECIFICATION: every reply after the first datagram, wrapped, to the client. -/
def due : List (Addr × Bytes) :=
  ((conversation server ip target input).map fun x =>
    x.2.2.map fun reply => (x.2.1.client, buildUDPReply ip x.2.1.host x.2.1.port reply.2)).getD []

/-- The target answers within a minute, and then within a minute after each reply. -/
def KeepsTalking : Prop :=
  ∀ x ∈ conversation server ip target input, Reader.Brisk readTimeout (x.2.1.fits ip) x.1 x.2.2

end Due

/-! ## What a step does to one target -/

section OneTarget

variable {server : Server} {ip : IpText} {target t t' : Bytes} {s s' : State} {c : Conn} {now : Nat}

@[simp] theorem conns_put_self (s : State) (t : Bytes) (c : Conn) :
    (s.put t c).conns t = some c := by
  simp [State.put]

theorem conns_put_ne (h : t' ≠ t) : (s.put t c).conns t' = s.conns t' := by
  simp [State.put, h]

theorem ne_of_closed (h : s.conns t = none) (h' : s.conns t' = some c) : t ≠ t' := by
  rintro rfl
  rw [h] at h'
  cases h'

theorem put_same (h : s.conns t = some c) : s.put t c = s := by
  obtain ⟨conns⟩ := s
  simp only [State.put, State.mk.injEq]
  funext t'
  split_ifs with ht
  · rw [ht]
    exact h.symm
  · rfl

/-- The socket of a target once it is open: only the datagrams on it and its reader change. -/
def Conn.at (c : Conn) (forwarded : List Bytes) (r : Reader Bytes) : Conn :=
  { c with forwarded := forwarded, reader := r }

theorem conns_forward_ne (h : t ≠ target) (fresh : Conn) (dials : Bool) :
    (s.forward t fresh dials).conns target = s.conns target := by
  have hne : target ≠ t := fun e => h e.symm
  unfold State.forward
  cases s.conns t with
  | some other => exact conns_put_ne hne
  | none =>
    cases dials with
    | true => exact conns_put_ne hne
    | false => rfl

/-- Nothing has been read from a socket that was just opened. -/
theorem reader_opening {source : Addr} {bytes : Bytes}
    (h : opening server ip source bytes = some (t, c)) : c.reader = {} := by
  obtain ⟨request, -, heq⟩ := Option.map_eq_some_iff.mp h
  rw [← (Prod.mk.inj heq).2]

/-- Another datagram for an open target, or anything for another one. -/
theorem conns_onInput_datagram {forwarded : List Bytes} {r : Reader Bytes}
    (h : s.conns target = some (c.at forwarded r)) (source : Addr) (bytes : Bytes) (dials : Bool) :
    ∃ forwarded', (onInput server ip s (.datagram source bytes dials)).conns target =
      some (c.at forwarded' r) := by
  rw [onInput]
  cases opening server ip source bytes with
  | none => exact ⟨forwarded, h⟩
  | some o =>
    obtain ⟨t, fresh⟩ := o
    by_cases ht : t = target
    · subst ht
      refine ⟨forwarded ++ fresh.forwarded, ?_⟩
      simp only [map_some, getD_some, State.forward, h, conns_put_self]
      rfl
    · exact ⟨forwarded, (conns_forward_ne ht fresh dials).trans h⟩

theorem conns_onInput_reply_self (target data : Bytes) :
    (onInput server ip s (.reply target data)).conns target =
      (s.conns target).map fun c => { c with reader := c.reader.arrive data } := by
  rw [onInput]
  cases h : s.conns target with
  | none => exact h
  | some c => exact conns_put_self _ _ _

theorem conns_onInput_reply_ne (ht : t ≠ target) (data : Bytes) :
    (onInput server ip s (.reply t data)).conns target = s.conns target := by
  simp only [onInput]
  cases s.conns t with
  | none => rfl
  | some c => exact conns_put_ne fun e => ht e.symm

/-- A datagram opens a target that is not open yet, or leaves it closed. -/
theorem conns_onInput_closed (h : s.conns target = none) (source : Addr) (bytes : Bytes)
    (dials : Bool) :
    (onInput server ip s (.datagram source bytes dials)).conns target =
      (opening server ip source bytes).bind fun o =>
        if o.1 = target ∧ dials = true then some o.2 else none := by
  rw [onInput]
  cases opening server ip source bytes with
  | none => exact h
  | some o =>
    obtain ⟨t, fresh⟩ := o
    rw [map_some, getD_some, bind_some]
    by_cases ht : t = target
    · subst ht
      cases dials <;> simp [State.forward, h]
    · rw [if_neg fun e => ht e.1, conns_forward_ne ht, h]

variable (target) in
/-- A move of a reader, seen from one target. -/
theorem conns_move {m : Move} (h : step server ip now s (.move t m) = some s') :
    (t ≠ target ∧ s'.conns target = s.conns target) ∨ (t = target ∧ ∃ c r, s.conns target = some c ∧
      c.reader.move readTimeout (c.fits ip) now m = some r ∧
      s'.conns target = some { c with reader := r }) := by
  obtain ⟨c, hc, h⟩ := bind_eq_some_iff.mp h
  obtain ⟨r, hr, rfl⟩ := Option.map_eq_some_iff.mp h
  by_cases ht : t = target
  · subst ht
    exact .inr ⟨rfl, c, r, hc, hr, conns_put_self _ _ _⟩
  · exact .inl ⟨ht, conns_put_ne fun e => ht e.symm⟩

theorem replies_reply_self (now : Nat) (data : Bytes) (rest : List (Nat × Input)) :
    replies target ((now, .reply target data) :: rest) = (now, data) :: replies target rest := by
  simp [replies]

theorem inputsOf_input (i : Input) (run : List (Nat × Event)) :
    inputsOf ((now, .input i) :: run) = (now, i) :: inputsOf run := rfl

theorem replies_reply_ne (h : t ≠ target) (data : Bytes) (rest : List (Nat × Input)) :
    replies target ((now, .reply t data) :: rest) = replies target rest := by
  simp [replies, h]

end OneTarget

/-! ## Brisk replies reach the client in every schedule -/

section Enough

variable {server : Server} {ip : IpText} {target : Bytes}

/-- The reader of a target has followed its replies so far. -/
def Follows (target : Bytes) (c : Conn) (last now : Nat) (arrived : List Bytes) (s : State) :
    Prop :=
  ∃ forwarded r, s.conns target = some (c.at forwarded r) ∧ r.Tracks readTimeout last now arrived

theorem exec_follows {c : Conn} (run : List (Nat × Event)) {s s' : State} {last now : Nat}
    {arrived : List Bytes} (h : Follows target c last now arrived s)
    (hnow : ∀ x ∈ run, now ≤ x.1) (horder : InOrder run)
    (hbrisk : Reader.Brisk readTimeout (c.fits ip) last (replies target (inputsOf run)))
    (hfits : ∀ a ∈ arrived, c.fits ip a = true) (hexec : exec server ip s run = some s') :
    ∃ last' now', Follows target c last' now'
      (arrived ++ (replies target (inputsOf run)).map Prod.snd) s' := by
  induction run generalizing s last now arrived with
  | nil =>
    obtain rfl := (some.inj hexec)
    exact ⟨last, now, by simpa [inputsOf, replies] using h⟩
  | cons x run ih =>
    obtain ⟨t, e⟩ := x
    obtain ⟨s1, hstep, hrest⟩ := bind_eq_some_iff.mp hexec
    obtain ⟨hlater, hordered⟩ := pairwise_cons.mp horder
    have ht : now ≤ t := hnow _ mem_cons_self
    obtain ⟨forwarded, r, hconn, htracks⟩ := h
    -- nothing arrives: only the time and the reader's own state change
    have hquiet : ∀ forwarded' r', s1.conns target = some (c.at forwarded' r') →
        r'.Tracks readTimeout last t arrived →
        Reader.Brisk readTimeout (c.fits ip) last (replies target (inputsOf run)) →
        ∃ last' now', Follows target c last' now'
          (arrived ++ (replies target (inputsOf run)).map Prod.snd) s' := by
      intro forwarded' r' hconn' htracks' hbrisk'
      exact ih ⟨forwarded', r', hconn', htracks'⟩ hlater hordered hbrisk' hfits hrest
    have hwait : r.Tracks readTimeout last t arrived :=
      { all := htracks.all
        past := htracks.past.trans ht
        waiting := htracks.waiting
        ended := fun hended => ⟨(htracks.ended hended).1, ((htracks.ended hended).2).trans ht⟩ }
    cases e with
    | move t' m =>
      obtain ⟨-, hsame⟩ | ⟨rfl, c', r', hc', hmove, hnew⟩ := conns_move target hstep
      · exact hquiet forwarded r (hsame.trans hconn) hwait hbrisk
      · obtain rfl : c' = c.at forwarded r := some.inj (hc'.symm.trans hconn)
        exact hquiet forwarded r' hnew (htracks.move ht hfits hmove) hbrisk
    | input i =>
      obtain rfl := some.inj hstep
      cases i with
      | datagram source bytes dials =>
        obtain ⟨forwarded', hconn'⟩ := conns_onInput_datagram hconn source bytes dials
        exact hquiet forwarded' r hconn' hwait hbrisk
      | reply t' data =>
        by_cases htarget : t' = target
        · subst htarget
          rw [inputsOf_input, replies_reply_self] at hbrisk ⊢
          obtain ⟨htime, hfit, hbrisk⟩ := hbrisk
          have hnext := ih ⟨forwarded, r.arrive data,
            (conns_onInput_reply_self t' data).trans (congrArg _ hconn),
            htracks.arrive ht htime data⟩ hlater hordered hbrisk (by
              intro a ha
              obtain ha | ha := mem_append.mp ha
              · exact hfits a ha
              · rw [mem_singleton.mp ha]
                exact hfit) hrest
          rwa [append_assoc] at hnext
        · rw [inputsOf_input, replies_reply_ne htarget] at hbrisk ⊢
          exact hquiet forwarded r ((conns_onInput_reply_ne htarget data).trans hconn) hwait hbrisk

/-- A target that is not open yet: it stays closed, or is opened and followed from there on. -/
theorem exec_closed (target : Bytes) (run : List (Nat × Event)) {s s' : State}
    (h : s.conns target = none)
    (horder : InOrder run) (hexec : exec server ip s run = some s') :
    match conversation server ip target (inputsOf run) with
    | none => s'.conns target = none
    | some (now, c, rs) => Reader.Brisk readTimeout (c.fits ip) now rs →
        ∃ last' now', Follows target c last' now' (rs.map Prod.snd) s' := by
  induction run generalizing s with
  | nil =>
    obtain rfl := (some.inj hexec)
    exact h
  | cons x run ih =>
    obtain ⟨t, e⟩ := x
    obtain ⟨s1, hstep, hrest⟩ := bind_eq_some_iff.mp hexec
    obtain ⟨hlater, hordered⟩ := pairwise_cons.mp horder
    cases e with
    | move t' m =>
      obtain ⟨-, hsame⟩ | ⟨-, c, r, hc, -⟩ := conns_move target hstep
      · exact ih (hsame.trans h) hordered hrest
      · exact absurd rfl (ne_of_closed h hc)
    | input i =>
      obtain rfl := some.inj hstep
      cases i with
      | reply t' data =>
        have hclosed : (onInput server ip s (.reply t' data)).conns target = none := by
          by_cases htarget : t' = target
          · subst htarget
            rw [conns_onInput_reply_self, h, Option.map_none]
          · rw [conns_onInput_reply_ne htarget, h]
        exact ih hclosed hordered hrest
      | datagram source bytes dials =>
        have hnext : (onInput server ip s (.datagram source bytes dials)).conns target = _ :=
          conns_onInput_closed h source bytes dials
        rw [inputsOf_input, conversation]
        cases hopen : opening server ip source bytes with
        | none =>
          rw [hopen, Option.bind_none] at hnext
          exact ih hnext hordered hrest
        | some o =>
          obtain ⟨t', fresh⟩ := o
          rw [hopen, bind_some] at hnext
          simp only at hnext ⊢
          split_ifs at hnext ⊢ with htarget
          · intro hbrisk
            have hempty : fresh = fresh.at fresh.forwarded fresh.reader := rfl
            have hfollows := exec_follows run ⟨_, _, hnext.trans (congrArg some hempty),
              reader_opening hopen ▸ Reader.Tracks.start readTimeout t⟩ hlater hordered hbrisk
              (by simp) hrest
            simpa using hfollows
          · exact ih hnext hordered hrest

/-- In every schedule that has come to rest the client got all that is due. -/
theorem answered_of_keepsTalking {run : List (Nat × Event)} {s : State} (horder : InOrder run)
    (hexec : exec server ip initial run = some s) (hsettled : s.Settled)
    (htalk : KeepsTalking server ip target (inputsOf run)) :
    s.answers ip target = due server ip target (inputsOf run) := by
  have hclosed : initial.conns target = none := rfl
  have h := exec_closed target run hclosed horder hexec
  unfold State.answers due
  cases hconv : conversation server ip target (inputsOf run) with
  | none =>
    rw [hconv] at h
    simp only at h
    rw [h]
    rfl
  | some x =>
    obtain ⟨now, c, rs⟩ := x
    rw [hconv] at h
    obtain ⟨last', now', forwarded, r, hconn, htracks⟩ := h (htalk _ hconv)
    have htaken : r.taken = rs.map Prod.snd := htracks.taken_eq (hsettled _ _ hconn)
    simp only [hconn, map_some, getD_some, Conn.at, htaken, map_map]
    rfl

end Enough

/-! ## The prompt schedule -/

section Prompt

variable {server : Server} {ip : IpText}

theorem put_put (s : State) (t : Bytes) (c c' : Conn) : (s.put t c).put t c' = s.put t c' := by
  simp only [State.put, State.mk.injEq]
  funext t'
  split_ifs <;> rfl

theorem exec_append (s : State) (run run' : List (Nat × Event)) :
    exec server ip s (run ++ run') = (exec server ip s run).bind fun s' =>
      exec server ip s' run' := by
  induction run generalizing s with
  | nil => rfl
  | cons x run ih =>
    rw [cons_append, exec, exec, Option.bind_assoc]
    exact Option.bind_congr fun s1 _ => ih s1

/-- Moves of one reader, all at one time. -/
theorem exec_moves {now : Nat} {target : Bytes} (ms : List Move) {s : State} {c : Conn}
    {r : Reader Bytes}
    (h : s.conns target = some c) (hmoves : c.reader.moves readTimeout (c.fits ip) now ms =
      some r) :
    exec server ip s (ms.map fun m => (now, .move target m)) =
      some (s.put target { c with reader := r }) := by
  induction ms generalizing s c with
  | nil =>
    obtain rfl := some.inj hmoves
    exact congrArg some (put_same h).symm
  | cons m ms ih =>
    obtain ⟨r', hr', hrest⟩ := bind_eq_some_iff.mp hmoves
    have hstep : step server ip now s (.move target m) =
        some (s.put target { c with reader := r' }) := by
      simp [step, h, hr']
    rw [map_cons, exec, hstep, bind_some, ih (conns_put_self _ _ _) hrest, put_put]

/-- What a target looks like after some inputs, if every reader moved at once. -/
structure PromptAt (server : Server) (ip : IpText) (input : List (Nat × Input)) (s s' : State)
    (target : Bytes) : Prop where
  opened : ∀ (c : Conn) forwarded r, s.conns target = some (c.at forwarded r) → ∃ forwarded',
    s'.conns target =
      some (c.at forwarded' (r.promptRun readTimeout (c.fits ip) (replies target input)))
  closed : s.conns target = none →
    match conversation server ip target input with
    | none => s'.conns target = none
    | some (now, c, rs) => ∃ forwarded', s'.conns target = some (c.at forwarded'
        (Reader.promptRun readTimeout (c.fits ip) ⟨[], [], .waiting (now + readTimeout)⟩ rs))

theorem settled_promptRun {fits : Bytes → Bool} (arrivals : List (Nat × Bytes)) {r : Reader Bytes}
    (h : r.Settled) : (r.promptRun readTimeout fits arrivals).Settled := by
  induction arrivals generalizing r with
  | nil => exact h
  | cons x rest ih =>
    rw [Reader.promptRun_cons]
    exact ih (Reader.settled_promptly _ _ _ h _)

theorem settled_of_prompt {input : List (Nat × Input)} {s s' : State} (h : s.Settled)
    (hprompt : ∀ target, PromptAt server ip input s s' target) : s'.Settled := by
  intro target c hc
  cases hconn : s.conns target with
  | some c0 =>
    obtain ⟨forwarded', hnew⟩ := (hprompt target).opened c0 c0.forwarded c0.reader hconn
    obtain rfl := some.inj (hc.symm.trans hnew)
    exact settled_promptRun _ (h _ _ hconn)
  | none =>
    have hnew := (hprompt target).closed hconn
    cases hconv : conversation server ip target input with
    | none =>
      rw [hconv] at hnew
      rw [hnew] at hc
      cases hc
    | some x =>
      obtain ⟨now, fresh, rs⟩ := x
      rw [hconv] at hnew
      obtain ⟨forwarded', hnew⟩ := hnew
      obtain rfl := some.inj (hc.symm.trans hnew)
      exact settled_promptRun _ (.inr ⟨_, rfl, rfl⟩)

/-- One input, answered at once by the reader it concerns. -/
theorem exists_prompt_step (server : Server) (ip : IpText) {s : State} (hsettled : s.Settled)
    (now : Nat) (i : Input) : ∃ (before after : List Event) (s' : State),
      exec server ip s ((before ++ [Event.input i] ++ after).map fun e => (now, e)) = some s' ∧
      (∀ e ∈ before ++ after, ∃ target m, e = .move target m) ∧
      ∀ target, PromptAt server ip [(now, i)] s s' target := by
  cases i with
  | reply t data =>
    cases hconn : s.conns t with
    | none =>
      refine ⟨[], [], s, by simp [exec, step, onInput, hconn], by simp, fun target => ⟨?_, ?_⟩⟩
      · intro c forwarded r h
        exact ⟨forwarded, by rw [replies_reply_ne (ne_of_closed hconn h)]; exact h⟩
      · intro h
        exact h
    | some c =>
      obtain ⟨before, after, r', hbefore, hafter⟩ :=
        Reader.exists_moves_promptly readTimeout (c.fits ip) now (hsettled _ _ hconn) data
      refine ⟨before.map (.move t), after.map (.move t),
        s.put t { c with reader := c.reader.promptly readTimeout (c.fits ip) now data }, ?_, ?_,
        fun target => ⟨?_, ?_⟩⟩
      · rw [map_append, map_append, map_map, map_map, exec_append, exec_append]
        have hfirst : exec server ip s _ = _ := exec_moves before hconn hbefore
        have hsecond : exec server ip _ _ = _ := exec_moves after
          (conns_put_self s t { c with reader := r'.arrive data }) hafter
        simp only [Function.comp_def, hfirst, bind_some]
        simp [exec, step, onInput, put_put, hsecond]
      · intro e he
        simp only [mem_append, mem_map] at he
        obtain ⟨m, -, rfl⟩ | ⟨m, -, rfl⟩ := he
        · exact ⟨t, m, rfl⟩
        · exact ⟨t, m, rfl⟩
      · intro c' forwarded r h
        by_cases htarget : t = target
        · subst htarget
          obtain rfl := some.inj (hconn.symm.trans h)
          exact ⟨forwarded, by rw [conns_put_self, replies_reply_self]; rfl⟩
        · refine ⟨forwarded, ?_⟩
          rw [conns_put_ne (fun e => htarget e.symm), replies_reply_ne htarget]
          exact h
      · intro h
        exact (conns_put_ne (ne_of_closed h hconn)).trans h
  | datagram source bytes dials =>
    by_cases hopens : ∃ t fresh, opening server ip source bytes = some (t, fresh) ∧
        s.conns t = none ∧ dials = true
    · obtain ⟨t, fresh, hopen, hclosed, rfl⟩ := hopens
      refine ⟨[], [.move t .arm],
        s.put t (fresh.at fresh.forwarded ⟨[], [], .waiting (now + readTimeout)⟩), ?_, by simp,
        fun target => ⟨?_, ?_⟩⟩
      · have hput : onInput server ip s (.datagram source bytes true) = s.put t fresh := by
          simp [onInput, hopen, State.forward, hclosed]
        simp [exec, step, hput, reader_opening hopen, Reader.move, put_put, Conn.at]
      · intro c forwarded r h
        exact ⟨forwarded, (conns_put_ne (ne_of_closed hclosed h).symm).trans h⟩
      · intro h
        have hconv : conversation server ip target [(now, .datagram source bytes true)] =
            if t = target then some (now, fresh, []) else none := by
          simp [conversation, hopen, replies]
        rw [hconv]
        split_ifs with htarget
        · subst htarget
          exact ⟨fresh.forwarded, conns_put_self _ _ _⟩
        · exact (conns_put_ne fun e => htarget e.symm).trans h
    · refine ⟨[], [], onInput server ip s (.datagram source bytes dials), rfl, by simp,
        fun target => ⟨?_, ?_⟩⟩
      · intro c forwarded r h
        exact conns_onInput_datagram h source bytes dials
      · intro h
        have hnext : (onInput server ip s (.datagram source bytes dials)).conns target = _ :=
          conns_onInput_closed h source bytes dials
        have hnot : ∀ o, opening server ip source bytes = some o →
            ¬ (o.1 = target ∧ dials = true) := by
          rintro o ho ⟨rfl, hdials⟩
          exact hopens ⟨o.1, o.2, ho, h, hdials⟩
        rw [conversation]
        cases hopen : opening server ip source bytes with
        | none =>
          rw [hopen] at hnext
          exact hnext
        | some o =>
          rw [hopen, bind_some, if_neg (hnot o hopen)] at hnext
          simp only [if_neg (hnot o hopen), conversation]
          exact hnext

theorem replies_cons (target : Bytes) (x : Nat × Input) (rest : List (Nat × Input)) :
    replies target (x :: rest) = replies target [x] ++ replies target rest := by
  rw [replies, ← singleton_append, filterMap_append]
  rfl

/-- The first input opens a target, or what follows decides. -/
theorem conversation_cons (target : Bytes) (x : Nat × Input) (rest : List (Nat × Input)) :
    conversation server ip target (x :: rest) =
      match conversation server ip target [x] with
      | some (now, c, _) => some (now, c, replies target rest)
      | none => conversation server ip target rest := by
  obtain ⟨now, i⟩ := x
  cases i with
  | reply t data => rfl
  | datagram source bytes dials =>
    simp only [conversation]
    cases opening server ip source bytes with
    | none => rfl
    | some o =>
      simp only
      split_ifs <;> rfl

/-- A single input leaves no reply behind the datagram that opens a target. -/
theorem conversation_single {target : Bytes} {x : Nat × Input} {now : Nat} {c : Conn}
    {rs : List (Nat × Bytes)} (h : conversation server ip target [x] = some (now, c, rs)) : rs =
      [] := by
  obtain ⟨t, i⟩ := x
  cases i with
  | reply t' data => cases h
  | datagram source bytes dials =>
    simp only [conversation] at h
    cases hopen : opening server ip source bytes with
    | none =>
      rw [hopen] at h
      cases h
    | some o =>
      rw [hopen] at h
      simp only at h
      split_ifs at h
      cases h
      rfl

theorem PromptAt.cons {x : Nat × Input} {rest : List (Nat × Input)} {s s1 s' : State}
    {target : Bytes}
    (hfirst : PromptAt server ip [x] s s1 target) (hrest : PromptAt server ip rest s1 s' target) :
    PromptAt server ip (x :: rest) s s' target where
  opened c forwarded r h := by
    obtain ⟨forwarded1, h1⟩ := hfirst.opened c forwarded r h
    obtain ⟨forwarded', h'⟩ := hrest.opened c forwarded1 _ h1
    refine ⟨forwarded', ?_⟩
    rw [h', replies_cons target x rest, Reader.promptRun_append]
  closed h := by
    have h1 := hfirst.closed h
    rw [conversation_cons]
    cases hconv : conversation server ip target [x] with
    | none =>
      rw [hconv] at h1
      exact hrest.closed h1
    | some o =>
      obtain ⟨now, c, rs⟩ := o
      rw [hconv] at h1
      obtain ⟨forwarded1, h1⟩ := h1
      obtain rfl := conversation_single hconv
      exact hrest.opened c forwarded1 _ h1

/-- Every timeline has a schedule in which all readers move at once. -/
theorem exists_prompt_run (server : Server) (ip : IpText) (input : List (Nat × Input)) {s : State}
    (hsettled : s.Settled) (horder : InOrder input) :
    ∃ run s', exec server ip s run = some s' ∧ inputsOf run = input ∧ InOrder run ∧
      (∀ x ∈ run, ∃ y ∈ input, x.1 = y.1) ∧ ∀ target, PromptAt server ip input s s' target := by
  induction input generalizing s with
  | nil =>
    refine ⟨[], s, rfl, rfl, List.Pairwise.nil, by simp, fun target => ⟨?_, ?_⟩⟩
    · intro c forwarded r h
      exact ⟨forwarded, h⟩
    · intro h
      exact h
  | cons x rest ih =>
    obtain ⟨now, i⟩ := x
    obtain ⟨hlater, hordered⟩ := pairwise_cons.mp horder
    obtain ⟨before, after, s1, hexec, hmoves, hprompt⟩ :=
      exists_prompt_step server ip hsettled now i
    obtain ⟨run, s', hexec', hinputs, horder', htimes, hprompt'⟩ :=
      ih (settled_of_prompt hsettled hprompt) hordered
    have hblock : ∀ e ∈ (before ++ [Event.input i] ++ after).map fun e => (now, e), e.1 = now := by
      intro e he
      obtain ⟨e', -, rfl⟩ := mem_map.mp he
      rfl
    have hquiet : ∀ l : List Event, (∀ e ∈ l, ∃ target m, e = .move target m) →
        inputsOf (l.map fun e => (now, e)) = [] := by
      intro l hl
      rw [inputsOf, filterMap_map, filterMap_eq_nil_iff]
      intro e he
      obtain ⟨target, m, rfl⟩ := hl e he
      rfl
    refine ⟨(before ++ [Event.input i] ++ after).map (fun e => (now, e)) ++ run, s', ?_, ?_, ?_, ?_,
      fun target => (hprompt target).cons (hprompt' target)⟩
    · rw [exec_append, hexec, bind_some, hexec']
    · have hbefore := hquiet before fun e he => hmoves e (mem_append_left _ he)
      have hafter := hquiet after fun e he => hmoves e (mem_append_right _ he)
      rw [inputsOf] at hbefore hafter hinputs
      rw [inputsOf, filterMap_append, hinputs, map_append, map_append,
        filterMap_append, filterMap_append, hbefore, hafter]
      rfl
    · refine pairwise_append.mpr ⟨?_, horder', ?_⟩
      · refine pairwise_of_forall_mem_list fun e he e' he' => ?_
        rw [hblock e he, hblock e' he']
      · intro e he e' he'
        obtain ⟨y, hy, htime⟩ := htimes e' he'
        rw [hblock e he, htime]
        exact hlater y hy
    · intro e he
      obtain he | he := mem_append.mp he
      · exact ⟨(now, i), mem_cons_self, hblock e he⟩
      · obtain ⟨y, hy, htime⟩ := htimes e he
        exact ⟨y, mem_cons_of_mem _ hy, htime⟩

end Prompt

/-! ## The theorem -/

/-- THE ASSOCIATION KEEPS ANSWERING in every schedule exactly if every target keeps talking. -/
theorem always_answered_iff (server : Server) (ip : IpText) (input : Timeline) :
    (∀ run s, InOrder run → inputsOf run = input.events → exec server ip initial run = some s →
      s.Settled → ∀ target, s.answers ip target = due server ip target input.events) ↔
    ∀ target, KeepsTalking server ip target input.events := by
  refine ⟨fun h target x hx => ?_, fun h run s horder hinputs hexec hsettled target => ?_⟩
  · have hstart : initial.Settled := by
      intro t c hc
      cases hc
    obtain ⟨run, s', hexec, hinputs, horder, -, hprompt⟩ :=
      exists_prompt_run server ip input.events hstart input.inOrder
    have hanswers := h run s' horder hinputs hexec (settled_of_prompt hstart hprompt) target
    have hconn := (hprompt target).closed rfl
    obtain ⟨now, c, rs⟩ := x
    rw [Option.mem_def.mp hx] at hconn
    obtain ⟨forwarded', hconn⟩ := hconn
    -- as many answers as replies
    have hlen : (s'.answers ip target).length = rs.length := by
      rw [hanswers, due, Option.mem_def.mp hx]
      simp
    rw [State.answers, hconn] at hlen
    refine Reader.brisk_of_promptRun _ _ rs now [] ?_
    simpa [Conn.at] using hlen
  · rw [← hinputs]
    exact answered_of_keepsTalking horder hexec hsettled (hinputs ▸ h target)

/-- Addresses are not looked at. -/
def noIp : IpText := ⟨id, fun _ => none⟩

/-- One byte for the host "a", port 53. -/
def query : Input := .datagram 7 [0, 0, 0, 3, 1, 0x61, 0, 53, 1] true

def queryTarget : Bytes := joinHostPort [0x61] 53

/-- A query and its answer, a pause of more than a minute, and another one. -/
def pausedRun : List (Nat × Event) :=
  [(0, .input query), (0, .move queryTarget .arm), (1000, .input (.reply queryTarget [2])),
    (1000, .move queryTarget .take), (1000, .move queryTarget .arm),
    (61000, .move queryTarget .expire), (100000, .input query),
    (101000, .input (.reply queryTarget [3]))]

/-- After the pause the client waits in vain. -/
theorem silent_after_pause :
    ∃ s, exec .awg noIp initial pausedRun = some s ∧ InOrder pausedRun ∧ s.Settled ∧
    s.answers noIp queryTarget = [(7, [0, 0, 0, 3, 1, 0x61, 0, 53, 2])] ∧
    due .awg noIp queryTarget (inputsOf pausedRun) =
      [(7, [0, 0, 0, 3, 1, 0x61, 0, 53, 2]), (7, [0, 0, 0, 3, 1, 0x61, 0, 53, 3])] := by
  have hexec : (exec .awg noIp initial pausedRun).isSome = true := by decide
  obtain ⟨s, hs⟩ := Option.isSome_iff_exists.mp hexec
  have horder : InOrder pausedRun := by
    unfold InOrder pausedRun
    decide
  refine ⟨s, hs, horder, ?_, ?_, by decide⟩
  · intro t c hc
    by_cases ht : t = queryTarget
    · subst ht
      have hphase : ((exec .awg noIp initial pausedRun).bind fun s =>
          (s.conns queryTarget).map fun c => c.reader.phase) = some .ended := by decide
      rw [hs, bind_some, hc] at hphase
      exact .inl (some.inj hphase)
    · -- no other target was ever opened
      have hopen : ∃ fresh, opening .awg noIp 7 [0, 0, 0, 3, 1, 0x61, 0, 53, 1] =
          some (queryTarget, fresh) := ⟨_, rfl⟩
      obtain ⟨fresh, hopen⟩ := hopen
      have hconv : conversation .awg noIp t (inputsOf pausedRun) = none := by
        have hne : ¬ queryTarget = t := fun e => ht e.symm
        simp [inputsOf, pausedRun, query, conversation, hopen, hne]
      have hclosed := exec_closed t pausedRun rfl horder hs
      rw [hconv] at hclosed
      simp only at hclosed
      rw [hclosed] at hc
      cases hc
  · have hanswers : ((exec .awg noIp initial pausedRun).map fun s => s.answers noIp queryTarget) =
        some [(7, [0, 0, 0, 3, 1, 0x61, 0, 53, 2])] := by decide
    rw [hs] at hanswers
    exact some.inj hanswers

end OlcVpn.Socks
