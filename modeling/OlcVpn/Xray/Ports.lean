/-
  THE PORTS OF A GENERATED CONFIGURATION.

  The app's own inbound takes the port it is given and the relay of a second server the one above
  it; the inbounds that a configuration of the user's brings along keep theirs.  Nobody asks whether
  there is a port above, or whether one of the two is taken.

  The SOCKETS an inbound opens are read off it as the core reads them.  `port` is a number, or a
  text with a list of ports and ranges.  `listen` is an address in any spelling, the name localhost,
  or missing or empty, which is every address; anything else is a socket file, and has no port.  Two
  sockets collide on one port if one address is the other, or is the wildcard of its family.
-/
import Mathlib.Data.List.Flatten
import OlcVpn.Share.UriCodec
import OlcVpn.Xray.GeoRules
import OlcVpn.Xray.Inbounds

namespace OlcVpn.Xray

open Kotlin Generate List
open Option (some bind_eq_some_iff)
open String (ofList)

/-! ## The sockets of an inbound -/

/-- What the core reads an inbound with: `net.ParseAddress`, and the variables of its process. -/
structure ListenCore where
  parseAddress : String → Address ⊕ String
  env : String → String
  parseAddress_loopback : parseAddress "127.0.0.1" = .inl (.v4 0x7f000001)

def Address.anyIP : Address := .v4 0

def Address.localHostIP : Address := .v4 0x7f000001

/-- The first address is a wildcard that holds the second; the one of IPv6 is dual-stack. -/
def Address.Holds (a b : Address) : Prop := a = .v4 0 ∧ b.isV4 = true ∨ a = .v6 0

def Address.Overlap (a b : Address) : Prop := a = b ∨ a.Holds b ∨ b.Holds a

instance (a b : Address) : Decidable (a.Overlap b) :=
  inferInstanceAs (Decidable (_ ∨ (_ ∧ _ ∨ _) ∨ (_ ∧ _ ∨ _)))

/-- Decimal digits and nothing else. -/
def decimal (text : String) : Option Nat :=
  if text ≠ "" ∧ text.toList.all Char.isDigit then
    some (text.toList.foldl (fun n c => n * 10 + (c.toNat - '0'.toNat)) 0)
  else none

/-- `PortFromString`. -/
def portFromString (text : String) : Option Nat := (decimal text).filter (· ≤ 65535)

/-- `parseIntPort` reads a number of JSON, which has no zero in front. -/
def parseIntPort (text : String) : Option Nat :=
  if startsWith text "0" && text ≠ "0" then none else portFromString text

namespace ListenCore

variable (core : ListenCore)

/-- A value may name a variable of the process. -/
def expanded (text : String) : String :=
  if startsWith text "env:" then core.env (ofList (text.toList.drop 4)) else text

/-- `parseStringPort`: one port, or the first and the last of a range. -/
def parseStringPort (text : String) : Option (Nat × Nat) :=
  match cutAt ['-'] (core.expanded text).toList with
  | none => (portFromString (core.expanded text)).map fun port => (port, port)
  | some (first, last) => do
    let first ← portFromString (ofList first)
    let last ← portFromString (ofList last)
    some (first, last)

/-- One piece of a list of ports. -/
def portRange (piece : String) : Option (List Nat) :=
  if contains piece "-" || contains piece "env:" then
    (core.parseStringPort piece).map fun r => range' r.1 (r.2 + 1 - r.1)
  else (parseIntPort piece).map fun port => [port]

/-- `PortList`, from a text or from a number. -/
def portList : Json → Option (List Int)
  | .literal true text =>
    ((((splitWhere (· = ',') text).map trim).filter (· ≠ "")).mapM core.portRange).map fun ranges =>
      ranges.flatten.map Nat.cast
  | .literal false content => ((toIntOrNull content).filter (0 ≤ ·)).map fun port => [port]
  | _ => none

/-- The address of `listen`; `none` is no address the core opens a port at. -/
def listenOn (listen : Option String) : Option Address :=
  match listen with
  | none => some .anyIP
  | some text =>
    match core.parseAddress (core.expanded text) with
    | .inl address => some address
    | .inr domain =>
      if domain = "" then some .anyIP
      else if domain = "localhost" then some .localHostIP
      else none

/-- The sockets an inbound opens; `none` where the core refuses its ports. -/
def sockets (inbound : JsonObject) : Option (List (Address × Int)) :=
  if inboundProtocol inbound = "tun" then some []
  else
    match core.listenOn (JsonObject.string inbound "listen") with
    | none => some []
    | some address => ((inbound.lookup "port").bind core.portList).map fun ports =>
        ports.map fun port => (address, port)

def opened (inbound : JsonObject) : List (Address × Int) := (core.sockets inbound).getD []

end ListenCore

/-- Two sockets that cannot both be opened. -/
def Collide (s t : Address × Int) : Prop := s.2 = t.2 ∧ s.1.Overlap t.1

instance (s t : Address × Int) : Decidable (Collide s t) :=
  inferInstanceAs (Decidable (_ ∧ _))

/-! ## The specification -/

/-- The port of a server. -/
def portOf (server : JsonObject) : Option Int :=
  match server.lookup "port" with
  | some (.literal _ content) => toIntOrNull content
  | _ => none

/-- The ports of the servers an outbound dials. -/
def dialledPorts (outbound : JsonObject) : List (Option Int) :=
  (objectsOf ((objectAt outbound "settings").getD []) "servers").map portOf

variable (core : ListenCore)

/-- The ports of an inbound can be read, and there are such ports. -/
def HasPorts (inbound : JsonObject) : Prop :=
  ∃ sockets, core.sockets inbound = some sockets ∧ ∀ s ∈ sockets, 1 ≤ s.2 ∧ s.2 ≤ 65535

/-- THE SPECIFICATION: no two sockets collide, every port is one, and the relay is dialled at the
    port it has. -/
structure Apart (inbounds outbounds : List JsonObject) : Prop where
  distinct : (inbounds.flatMap core.opened).Pairwise fun s t => ¬ Collide s t
  ports : ∀ i ∈ inbounds, HasPorts core i
  relay : ∀ port, cascadeLoopInbound port ∈ inbounds →
    ∃ o ∈ outbounds, goString o "tag" = "cascade-loop-out" ∧
      dialledPorts o = [portOf (cascadeLoopInbound port)]

/-- An inbound of the user's that stays out of the way of the app's. -/
structure OutOfTheWay (host : String) (port : Int) (relay : Prop) (inbound : JsonObject) :
    Prop where
  hasPorts : HasPorts core inbound
  listen : ∀ address ∈ core.listenOn (some host), ∀ s ∈ core.opened inbound,
    ¬ Collide (address, port) s
  loop : relay → ∀ s ∈ core.opened inbound, ¬ Collide (.localHostIP, port + 1) s

variable {core}

/-! ## What the app writes -/

theorem portOf_num {o : JsonObject} {port : Int} (h : o.lookup "port" = some (.num port))
    (hlow : 1 ≤ port) (hhigh : port ≤ 65536) : portOf o = some port := by
  rw [portOf, h]
  exact Share.toIntOrNull_toString (by omega) (by omega)

/-- Both builders dial the relay one port above. -/
theorem loop_dialled {port : Int} (hlow : 1 ≤ port) (hhigh : port ≤ 65535) {o : JsonObject}
    (ho : o = [("tag", .str "cascade-loop-out"), ("protocol", .str "socks"),
      ("settings", .object [("servers",
      .array [.object [("address", .str "127.0.0.1"), ("port", .num (port + 1))]])])]) :
    goString o "tag" = "cascade-loop-out" ∧ dialledPorts o = [some (port + 1)] := by
  subst ho
  have hport :=
    portOf_num (o := [("address", .str "127.0.0.1"), ("port", .num (port + 1))]) (by simp)
    (show 1 ≤ port + 1 by omega) (by omega)
  exact ⟨rfl, congrArg (fun p => [p]) hport⟩

/-- An inbound of the app's opens its one port, at the address its host is read as. -/
theorem sockets_num {inbound : JsonObject} {host : String} {port : Int}
    (hprotocol : goString inbound "protocol" = "socks")
    (hlisten : JsonObject.string inbound "listen" = some host)
    (hport : inbound.lookup "port" = some (.num port)) (hlow : 1 ≤ port) (hhigh : port ≤ 65536) :
    core.sockets inbound =
      some ((core.listenOn (some host)).toList.map fun address => (address, port)) := by
  have hread : core.portList (.num port) = some [port] := by
    have hnum : toIntOrNull (toString port) = some port :=
      Share.toIntOrNull_toString (by omega) (by omega)
    rw [Json.num, ListenCore.portList, hnum, Option.filter_some_pos (by simp; omega)]
    rfl
  rw [ListenCore.sockets, if_neg (by rw [inboundProtocol_socks hprotocol]; decide), hlisten]
  cases core.listenOn (some host) with
  | none => rfl
  | some address => simp [hport, hread]

theorem sockets_loop {port : Int} (hlow : 1 ≤ port) (hhigh : port ≤ 65535) :
    core.sockets (cascadeLoopInbound (port + 1)) = some [(.localHostIP, port + 1)] := by
  have hhost : core.listenOn (some "127.0.0.1") = some .localHostIP := by
    have hplain : core.expanded "127.0.0.1" = "127.0.0.1" := if_neg (by decide)
    simp only [ListenCore.listenOn, hplain, core.parseAddress_loopback]
    rfl
  rw [sockets_num rfl rfl (by simp [cascadeLoopInbound]) (show 1 ≤ port + 1 by omega) (by omega),
    hhost]
  rfl

section Apart

variable {socks : JsonObject} {host : String} {port : Int} {relay : Prop}
    {relays carried outbounds : List JsonObject}

/-- The app's inbound, maybe a relay, and what was carried over. -/
theorem apart_iff (hlow : 1 ≤ port) (hhigh : port ≤ 65535)
    (hsocks : core.sockets socks =
      some ((core.listenOn (some host)).toList.map fun address => (address, port)))
    (hown : ((carried.flatMap core.opened).map Prod.snd).Nodup)
    (hloops : ∀ p, cascadeLoopInbound p ∉ socks :: carried)
    {o : JsonObject} (ho : goString o "tag" = "cascade-loop-out" ∧
      dialledPorts o = [some (port + 1)])
    (hrelay : relay ∧ relays = [cascadeLoopInbound (port + 1)] ∧ o ∈ outbounds ∨ ¬relay ∧
      relays = []) :
    Apart core (socks :: (relays ++ carried)) outbounds ↔
      (relay → port < 65535) ∧ ∀ i ∈ carried, OutOfTheWay core host port relay i := by
  have hloop := @sockets_loop core port hlow hhigh
  have hopened : core.opened socks =
      (core.listenOn (some host)).toList.map fun address => (address, port) := by
    rw [ListenCore.opened, hsocks, Option.getD_some]
  have hmem : ∀ i, i ∈ relays ↔ relay ∧ i = cascadeLoopInbound (port + 1) := by
    obtain ⟨hr, rfl, -⟩ | ⟨hr, rfl⟩ := hrelay <;> simp [hr]
  have hloopOpened : core.opened (cascadeLoopInbound (port + 1)) = [(.localHostIP, port + 1)] := by
    rw [ListenCore.opened, hloop, Option.getD_some]
  have hrelayed : ∀ s, s ∈ relays.flatMap core.opened ↔ relay ∧ s = (.localHostIP, port + 1) := by
    intro s
    obtain ⟨hr, rfl, -⟩ | ⟨hr, rfl⟩ := hrelay <;> simp [hr, hloopOpened]
  have hdialled : relay → o ∈ outbounds := fun hr => by simpa [hr] using hrelay.imp_left (·.2.2)
  constructor
  · intro h
    have hdistinct := h.distinct
    rw [flatMap_cons, flatMap_append, pairwise_append] at hdistinct
    obtain ⟨-, hrest, hfirst⟩ := hdistinct
    obtain ⟨-, -, hcross⟩ := pairwise_append.mp hrest
    refine ⟨fun hr => ?_, fun i hi => ⟨h.ports i (by simp [hi]), fun address haddress s hs => ?_,
      fun hr s hs => ?_⟩⟩
    · obtain ⟨sockets, hsockets, hports⟩ :=
        h.ports (cascadeLoopInbound (port + 1)) (by simp [hmem, hr])
      obtain rfl := some.inj (hloop.symm.trans hsockets)
      have hle := (hports _ (mem_singleton_self _)).2
      simp only at hle
      omega
    · refine hfirst _ ?_ s (mem_append_right _ (mem_flatMap.mpr ⟨i, hi, hs⟩))
      rw [hopened]
      exact mem_map_of_mem (Option.mem_toList.mpr haddress)
    · exact hcross _ ((hrelayed _).mpr ⟨hr, rfl⟩) s (mem_flatMap.mpr ⟨i, hi, hs⟩)
  · rintro ⟨hfree, hall⟩
    have hkept : (carried.flatMap core.opened).Pairwise fun s t => ¬ Collide s t :=
      (pairwise_map.mp hown).imp fun {s t} hne hcollide => hne hcollide.1
    have hone : (relays.flatMap core.opened).Pairwise fun s t => ¬ Collide s t := by
      obtain ⟨-, rfl, -⟩ | ⟨-, rfl⟩ := hrelay <;> simp [hloopOpened]
    have happ : (core.opened socks).Pairwise fun s t => ¬ Collide s t := by
      rw [hopened]
      cases core.listenOn (some host) <;> simp
    refine ⟨?_, fun i hi => ?_, fun p hp => ?_⟩
    · rw [flatMap_cons, flatMap_append, pairwise_append, pairwise_append]
      refine ⟨happ, ⟨hone, hkept, fun s hs t ht => ?_⟩, fun s hs t ht => ?_⟩
      · obtain ⟨hr, rfl⟩ := (hrelayed s).mp hs
        obtain ⟨i, hi, ht⟩ := mem_flatMap.mp ht
        exact (hall i hi).loop hr t ht
      · rw [hopened] at hs
        obtain ⟨address, haddress, rfl⟩ := mem_map.mp hs
        rcases mem_append.mp ht with ht | ht
        · obtain ⟨-, rfl⟩ := (hrelayed t).mp ht
          intro hcollide
          have hsame : port = port + 1 := hcollide.1
          omega
        · obtain ⟨i, hi, ht⟩ := mem_flatMap.mp ht
          exact (hall i hi).listen address (Option.mem_toList.mp haddress) t ht
    · obtain rfl | hi := mem_cons.mp hi
      · refine ⟨_, hsocks, fun s hs => ?_⟩
        obtain ⟨address, -, rfl⟩ := mem_map.mp hs
        exact ⟨hlow, hhigh⟩
      obtain hi | hi := mem_append.mp hi
      · obtain ⟨hr, rfl⟩ := (hmem i).mp hi
        refine ⟨_, hloop, fun s hs => ?_⟩
        obtain rfl := mem_singleton.mp hs
        exact ⟨by omega, hfree hr⟩
      · exact (hall i hi).hasPorts
    · obtain heq | hp := mem_cons.mp hp
      · exact absurd (heq ▸ mem_cons_self) (hloops p)
      obtain hp | hp := mem_append.mp hp
      · obtain ⟨hr, heq⟩ := (hmem _).mp hp
        have hport : portOf (cascadeLoopInbound (port + 1)) = some (port + 1) :=
          portOf_num (by simp [cascadeLoopInbound]) (by omega) (by omega)
        exact ⟨o, hdialled hr, ho.1, by rw [ho.2, heq, hport]⟩
      · exact absurd (mem_cons_of_mem _ hp) (hloops p)

end Apart

/-- LISTENERS DO NOT COLLIDE exactly if there is a port for the relay and the carried inbounds leave
    the app's sockets alone. -/
theorem listeners_apart_iff (rt : Runtime) (core : ListenCore) :
    (∀ (a : BuildArgs) (out : JsonObject), 1 ≤ a.listenPort → a.listenPort ≤ 65535 →
      build rt a = some out →
      (Apart core (objectsOf out "inbounds") (objectsOf out "outbounds") ↔
        (a.cascadeLoopActive = true → a.listenPort < 65535))) ∧
    ∀ (a : RawArgs) (root out : JsonObject), 1 ≤ a.listenPort → a.listenPort ≤ 65535 →
      rt.parse a.rawConfigJson = some (.object root) → prepareRaw rt a = some (.config out) →
      (((objectsOf root "inbounds").flatMap core.opened).map Prod.snd).Nodup →
      (Apart core (objectsOf out "inbounds") (objectsOf out "outbounds") ↔
        (RelayNeeded a root → a.listenPort < 65535) ∧ ∀ i ∈ carried root,
          OutOfTheWay core a.listenHost a.listenPort (RelayNeeded a root) i) := by
  constructor
  · intro a out hlow hhigh h
    obtain ⟨wgBase, -, rfl⟩ := Option.map_eq_some_iff.mp h
    rw [objectsOf_inbounds, objectsOf_outbounds, Xray.inbounds, singleton_append,
      ← append_nil (ite _ _ _)]
    refine (apart_iff hlow hhigh (sockets_num rfl rfl (by simp) hlow (by omega)) (by simp)
      (by simp [cascadeLoopInbound]) (loop_dialled hlow hhigh rfl)
      (?_ : a.cascadeLoopActive = true ∧ _ ∧ cascadeLoopOutbound a ∈ _ ∨ _)).trans (by simp)
    cases hloop : a.cascadeLoopActive with
    | false => simp
    | true =>
      obtain ⟨second, hsecond⟩ : ∃ second, a.second = some second := by
        simpa [BuildArgs.cascadeLoopActive, Option.isSome_iff_exists] using
          (Bool.and_eq_true_iff.mp hloop).1
      simp [outbounds, proxyOutbounds, hsecond, hloop, BuildArgs.cascadeLoopPort]
  · intro a root out hlow hhigh hroot h hown
    obtain ⟨parts, hparts, rfl⟩ := parts_of_prepareRaw hroot h
    rw [objectsOf_inbounds_config, objectsOf_outbounds_config]
    obtain ⟨sniffing, relays, hlist, hrelay⟩ := prepared_inbounds hparts
    rw [hlist]
    refine apart_iff hlow hhigh
      (sockets_num rfl rfl (by simp [rawSocksInbound]) hlow (by omega)) ?_
      (by simp [carried, rawSocksInbound, cascadeLoopInbound, contentAt, Json.str])
        (loop_dialled hlow hhigh rfl) hrelay
    exact hown.sublist ((filter_sublist.flatMap _).map _)

/-- A core that knows two addresses, and no variables. -/
def plainListen : ListenCore where
  parseAddress text := if text = "127.0.0.1" then .inl .localHostIP
    else if text = "0.0.0.0" then .inl .anyIP else .inr text
  env _ := ""
  parseAddress_loopback := rfl

/-- A call for the last port there is. -/
def lastPort (second : Option ServerProfile) : BuildArgs :=
  { profile := vlessServer "xhttp", listenPort := 65535, secondProfile := second }

def httpInbound (listen ports : String) : JsonObject :=
  [("protocol", .str "http"), ("listen", .str listen), ("port", .str ports)]

/-- A configuration of the user's with an HTTP proxy beside the SOCKS one. -/
def httpBeside (listen ports : String) : JsonObject :=
  [("inbounds", .array [.object [("protocol", .str "socks"), ("port", .num 1080)],
      .object (httpInbound listen ports)]),
    ("outbounds", .array [.object [("tag", .str "proxy"), ("protocol", .str "vless")]])]

/-- The last port without a second server; and proxies on every address, next to the app's port. -/
theorem lastPort_apart :
    (∃ out, build noRuntime (lastPort none) = some out ∧
      Apart plainListen (objectsOf out "inbounds") (objectsOf out "outbounds")) ∧
    ∃ out, prepareRaw (runtimeOf (httpBeside "" "9000-9002, 10809")) plainArgs =
        some (.config out) ∧
      Apart plainListen (objectsOf out "inbounds") (objectsOf out "outbounds") := by
  constructor
  · exact ⟨_, rfl, ((listeners_apart_iff noRuntime plainListen).1 (lastPort none) _ (by decide)
      (by decide) rfl).mpr fun h => absurd h (by decide)⟩
  · have hrelay : ¬ RelayNeeded plainArgs (httpBeside "" "9000-9002, 10809") :=
      fun h => absurd h.1 (by decide)
    have hprepared : ∃ out, prepareRaw (runtimeOf (httpBeside "" "9000-9002, 10809")) plainArgs =
        some (.config out) := ⟨_, rfl⟩
    obtain ⟨out, hout⟩ := hprepared
    refine ⟨out, hout, ((listeners_apart_iff _ plainListen).2 plainArgs _ out (by decide)
      (by decide) rfl hout (by decide +kernel)).mpr ⟨fun h => absurd h hrelay, fun i hi => ?_⟩⟩
    have hcarried : carried (httpBeside "" "9000-9002, 10809") =
        [httpInbound "" "9000-9002, 10809"] := by decide
    rw [hcarried, mem_singleton] at hi
    subst hi
    refine ⟨⟨[(.anyIP, 9000), (.anyIP, 9001), (.anyIP, 9002), (.anyIP, 10809)], ?_, ?_⟩, ?_,
      fun h => absurd h hrelay⟩
    · decide +kernel
    · decide
    · decide +kernel

/-- A second server behind the last port makes the core listen on port 65536; and a proxy of the
    user's on the app's port collides with it, by whatever name it listens. -/
theorem relay_past_last_port :
    (∃ out, build noRuntime (lastPort (some (vlessServer "tcp"))) = some out ∧
      ¬ Apart plainListen (objectsOf out "inbounds") (objectsOf out "outbounds")) ∧
    ∃ out, prepareRaw (runtimeOf (httpBeside "localhost" "10808")) plainArgs =
        some (.config out) ∧
      ¬ Apart plainListen (objectsOf out "inbounds") (objectsOf out "outbounds") := by
  constructor
  · refine ⟨_, rfl, fun h => ?_⟩
    obtain ⟨sockets, hsockets, hports⟩ := h.ports (cascadeLoopInbound 65536) (by decide)
    have hloop : plainListen.sockets (cascadeLoopInbound 65536) =
      some [(.localHostIP, 65536)] := by decide +kernel
    obtain rfl := some.inj (hloop.symm.trans hsockets)
    exact absurd (hports _ (mem_singleton_self _)).2 (by decide)
  · exact ⟨_, rfl, fun h => absurd h.distinct (by decide +kernel)⟩

end OlcVpn.Xray
