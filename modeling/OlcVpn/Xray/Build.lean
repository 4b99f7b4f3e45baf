/-
  THE GENERATED XRAY CONFIGURATION: `XrayConfig.build`.

  From a server, an optional second server that exits on top of it, an optional base tunnel below it
  (a WireGuard outbound, or the SOCKS port of olcRTC) and the traffic settings, the generator writes
  one configuration.  Its inbounds and outbounds carry TAGS; routing rules name outbounds by tag,
  and outbounds name the outbound they dial through by tag.  Nothing in the core checks that the
  named outbound exists.

  Fields are listed in the order the source puts them.  A field that is put under a condition is a
  `fieldIf` or a `fieldOf`, and the pieces of an array that are added under a condition are lists
  that may be empty.
-/
import OlcVpn.Xray.Outbound
import OlcVpn.Xray.Routing

namespace OlcVpn.Xray

open Kotlin Generate Locations

/-! ## Resolvers -/

def dohIpProviders : List String :=
  ["8.8.8.8", "8.8.4.4", "1.1.1.1", "1.0.0.1", "9.9.9.9", "149.112.112.112", "223.5.5.5",
    "223.6.6.6"]

def dohHostIps : List (String × String) :=
  [("cloudflare-dns.com", "1.1.1.1"), ("one.one.one.one", "1.1.1.1"), ("dns.google", "8.8.8.8"),
    ("dns.quad9.net", "9.9.9.9"), ("dns.alidns.com", "223.5.5.5")]

/-- A well-known DoH host is replaced by its address. -/
def pinKnownDohHost (s : String) : String :=
  if startsWithIgnoreCase s "https://" then
    let rest := substringFrom s 8
    let path := substringAfterOr rest "/" ""
    match dohHostIps.lookup (lowercase (substringBefore rest '/')) with
    | none => s
    | some ip => if path = "" ∨ path = "dns-query" then "https://" ++ ip ++ "/dns-query" else s
  else s

/-- The core has no DNS over TLS: a `tls://` resolver is asked over HTTPS. -/
def xrayDns (server : String) : String :=
  let s := trim server
  if startsWithIgnoreCase s "tls://" then
    let authority := substringBefore (substringFrom s 6) '/'
    let host := if startsWith authority "[" then substringBefore authority ']' ++ "]"
      else substringBefore authority ':'
    pinKnownDohHost ("https://" ++ host ++ "/dns-query")
  else pinKnownDohHost s

def isDigitChar (c : Char) : Bool := (digitToIntOrNull c).isSome

def isHexOrColon (c : Char) : Bool :=
  isDigitChar c || ('a' ≤ c && c ≤ 'f') || ('A' ≤ c && c ≤ 'F') || c = ':'

/-- A resolver that is asked through the proxy avoids port 53. -/
def proxiedDns (server : String) : String :=
  let s := xrayDns server
  if s = "" ∨ contains s "://" ∨ s = "fakedns" then s
  else if s ∈ dohIpProviders then "https://" ++ s ++ "/dns-query"
  else
    let isIpv4 := s.toList.all (fun c => isDigitChar c || c = '.') && s.toList.count '.' = 3
    let isIpv6 := contains s ":" && s.toList.all isHexOrColon
    if isIpv4 || isIpv6 then "tcp://" ++ s else s

def isPrivateDnsHost (ip : String) : Bool :=
  if contains ip ":" then
    ip = "::1" || startsWithIgnoreCase ip "fe80" || startsWith ip "fc" || startsWith ip "fd"
  else
    match (splitWhere (· = '.') ip).filterMap toIntOrNull with
    | [a, b, _, _] =>
      a = 10 || a = 127 || (a = 192 && b = 168) || (a = 172 && 16 ≤ b && b ≤ 31) ||
        (a = 169 && b = 254)
    | _ => false

/-- Where one remote resolver is reached: a domain selector, or an address. -/
inductive Endpoint where
  | domain (selector : String)
  | ip (address : String)

def remoteDnsEndpoint (raw : String) : Option Endpoint :=
  let s := trim (proxiedDns raw)
  if s = "" ∨ s = "fakedns" ∨ equalsIgnoreCase s "localhost" then none
  else if contains (substringBeforeOr s "://" "") "+local" then none
  else
    let authority := substringBefore (substringAfterOr s "://" s) '/'
    let host :=
      if startsWith authority "[" then substringBefore
        (substringAfterOr authority "[" authority) ']'
      else if authority.toList.count ':' = 1 then substringBefore authority ':'
      else authority
    if isBlank host then none
    else if contains host ":" || host.toList.all (fun c => isDigitChar c || c = '.') then
      if isPrivateDnsHost host then none else some (.ip host)
    else some (.domain ("full:" ++ lowercase host))

def remoteDnsDomains (t : TrafficSettings) : List String :=
  distinctBy id ([t.remoteDns, t.remoteDns2].filterMap fun raw =>
    match remoteDnsEndpoint raw with
    | some (.domain selector) => some selector
    | _ => none)

def remoteDnsIps (t : TrafficSettings) : List String :=
  distinctBy id ([t.remoteDns, t.remoteDns2].filterMap fun raw =>
    match remoteDnsEndpoint raw with
    | some (.ip address) => some address
    | _ => none)

/-! ## The arguments -/

structure BuildArgs where
  profile : ServerProfile
  listenPort : Int
  listenHost : String := "127.0.0.1"
  socksUsername : String := ""
  socksPassword : String := ""
  olcrtcChainPort : Option Int := none
  olcrtcChainUser : String := ""
  olcrtcChainPass : String := ""
  logLevel : String := "debug"
  traffic : TrafficSettings := {}
  wireguardBase : Option ServerProfile := none
  routingProfile : Option RoutingProfile := none
  blockQuic : Bool := true
  forceFamilyResolve : Bool := true
  chainViaDialerProxy : Bool := false
  directViaBase : Bool := false
  bypassLan : Bool := true
  secondProfile : Option ServerProfile := none
  fakeDnsSpec : Option FakeDnsSpec := none
  handshakeTimeoutSec : Option Int := none

namespace BuildArgs

variable (a : BuildArgs)

def fakeEnabled : Bool := a.traffic.fakeDnsEnabled || a.fakeDnsSpec.isSome

def fakeBlockRegex : List String :=
  ((a.fakeDnsSpec.map FakeDnsSpec.blockRegex).getD []).filter isNotBlank

/-- The second server, if it is complete. -/
def second : Option ServerProfile := a.secondProfile.filter fun p => p.isComplete

/-- The second server is reached over a local relay: the main one is xhttp. -/
def cascadeLoopActive : Bool := a.second.isSome && a.profile.network = "xhttp"

def cascadeLoopPort : Int := a.listenPort + 1

/-- The tag of the base tunnel's outbound. -/
def baseExitTag (wgBase : Option JsonObject) : Option String :=
  if wgBase.isSome then some "wireguard-base"
  else if a.olcrtcChainPort.isSome then some "olcrtc-out"
  else none

/-- `detourTagOverride ?: if (chained) OLCRTC_TAG else null` of the main hop: the base. -/
def mainDetour (wgBase : Option JsonObject) : Option String := a.baseExitTag wgBase

/-- What a pinned connection is sent to: the proxy, under the name the cascade gives it. -/
def pinnedTag : String := if a.directViaBase then "proxy-base" else "proxy"

end BuildArgs

/-! ## Outbounds and inbounds -/

section Pieces

variable (rt : Runtime) (a : BuildArgs) (wgBase : Option JsonObject)

/-- The exit of a cascade. -/
def secondHop : Hop where
  tag := "proxy"
  detourTag := some (if a.cascadeLoopActive then "cascade-loop-out" else "proxy-base")
  chainViaDialerProxy := a.cascadeLoopActive
  preserveFlow := a.cascadeLoopActive

/-- The main server below a cascade's exit. -/
def baseHop : Hop where
  tag := "proxy-base"
  detourTag := a.mainDetour wgBase
  xhttpHighConcurrency := a.cascadeLoopActive
  suppressMux := a.cascadeLoopActive

/-- The main server as the only hop. -/
def singleHop : Hop where
  tag := "proxy"
  detourTag := a.mainDetour wgBase
  chainViaDialerProxy := a.chainViaDialerProxy

/-- The relay's end inside the core: a SOCKS outbound to the loopback inbound. -/
def cascadeLoopOutbound : JsonObject :=
  [("tag", .str "cascade-loop-out"), ("protocol", .str "socks"),
    ("settings", .object [("servers", .array [.object
      [("address", .str "127.0.0.1"), ("port", .num a.cascadeLoopPort)]])])]

def proxyOutbounds : List JsonObject :=
  match a.second with
  | some second =>
    [buildProxyOutbound rt second a.traffic (secondHop a),
      buildProxyOutbound rt a.profile a.traffic (baseHop a wgBase)] ++
    if a.cascadeLoopActive then [cascadeLoopOutbound a] else []
  | none => [buildProxyOutbound rt a.profile a.traffic (singleHop a wgBase)]

def directDomainStrategy : String :=
  if a.traffic.domainStrategy = "ipv6_only" then "ForceIPv6" else "ForceIPv4"

/-- The base the `direct` outbound dials through. -/
def directDialer : Option String := if a.directViaBase then a.baseExitTag wgBase else none

def directOutbound : JsonObject :=
  [("tag", .str "direct"), ("protocol", .str "freedom"),
    ("settings", .object [("domainStrategy", .str (directDomainStrategy a))])] ++
  fieldOf "streamSettings" ((directDialer a wgBase).map fun tag =>
    .object [("sockopt", sockopt tag)])

def blockOutbound : JsonObject := [("tag", .str "block"), ("protocol", .str "blackhole")]

def dnsOutOutbound : JsonObject :=
  [("tag", .str "dns-out"), ("protocol", .str "dns"),
    ("settings", .object [("nonIPQuery", .str "skip")])]

def fragmentOutbound : JsonObject :=
  [("tag", .str "fragment"), ("protocol", .str "freedom"),
    ("settings", .object [("fragment", .object
      [("packets", .str a.traffic.fragmentPackets), ("length", .str a.traffic.fragmentLength),
        ("interval", .str a.traffic.fragmentInterval)])])]

def outbounds : List JsonObject :=
  proxyOutbounds rt a wgBase ++
  wgBase.toList ++
  [directOutbound a wgBase, blockOutbound] ++
  (if a.fakeEnabled then [dnsOutOutbound] else []) ++
  (if a.traffic.fragmentEnabled && a.olcrtcChainPort.isNone then [fragmentOutbound a] else []) ++
  (a.olcrtcChainPort.map fun port =>
    olcrtcSocksOutbound "olcrtc-out" port a.olcrtcChainUser a.olcrtcChainPass).toList

/-- The `settings` of the app's SOCKS inbound. -/
def socksSettings (username password : String) : JsonObject :=
  [("udp", .bool true)] ++
  if isNotBlank username then
    [("auth", .str "password"),
      ("accounts", .array [.object [("user", .str username), ("pass", .str password)]])]
  else [("auth", .str "noauth")]

def sniffing : JsonObject :=
  let expert := a.routingProfile.any RoutingProfile.expertEnabled
  [("enabled", .bool (if expert then a.routingProfile.any RoutingProfile.xraySniffing else true)),
    ("destOverride", .strs (["http", "tls", "quic"] ++ if a.fakeEnabled then ["fakedns"]
    else []))] ++
  fieldIf (expert && a.routingProfile.any RoutingProfile.xrayRouteOnly) "routeOnly" (.bool true)

/-- The relay's inbound, on the loopback interface only. -/
def cascadeLoopInbound (port : Int) : JsonObject :=
  [("tag", .str "cascade-loop-in"), ("listen", .str "127.0.0.1"), ("port", .num port),
    ("protocol", .str "socks"),
    ("settings", .object [("udp", .bool true), ("auth", .str "noauth")])]

def inbounds : List JsonObject :=
  [[("tag", .str "socks-in"), ("listen", .str a.listenHost), ("port", .num a.listenPort),
    ("protocol", .str "socks"),
    ("settings", .object (socksSettings a.socksUsername a.socksPassword)),
    ("sniffing", .object (sniffing a))]] ++
  if a.cascadeLoopActive then [cascadeLoopInbound a.cascadeLoopPort] else []

/-! ## Routing -/

/-- What enters through the relay goes to the given outbound. -/
def cascadeLoopRule (outboundTag : String) : JsonObject :=
  fieldRule "inboundTag" (.strs ["cascade-loop-in"]) outboundTag

/-- DNS queries of the app are answered inside the core. -/
def dnsHijackRules : List JsonObject :=
  [[("type", .str "field"), ("inboundTag", .strs ["socks-in"]), ("port", .num 53),
      ("outboundTag", .str "dns-out")],
    [("type", .str "field"), ("inboundTag", .strs ["socks-in"]), ("network", .str "tcp"),
      ("port", .num 853), ("outboundTag", .str "dns-out")]]

def remoteDnsProxyRules : List JsonObject :=
  (if remoteDnsDomains a.traffic = [] then []
    else [fieldRule "domain" (.strs (remoteDnsDomains a.traffic)) a.pinnedTag]) ++
  (if remoteDnsIps a.traffic = [] then []
    else [fieldRule "ip" (.strs (remoteDnsIps a.traffic)) a.pinnedTag])

/-- A range of the FakeDNS description, or the default pool. -/
def fakeRange (range : Option String) (pool : String) : String :=
  (range.filter isNotBlank).getD pool

def fakeDnsProxyRule : JsonObject :=
  fieldRule "ip" (.strs [fakeRange (a.fakeDnsSpec.map FakeDnsSpec.inet4Range) "198.18.0.0/15",
    fakeRange (a.fakeDnsSpec.map FakeDnsSpec.inet6Range) "fc00::/18"]) a.pinnedTag

def lanBypassRule : JsonObject :=
  fieldRule "ip" (.strs ["10.0.0.0/8", "172.16.0.0/12", "192.168.0.0/16", "127.0.0.0/8",
    "169.254.0.0/16"]) "direct"

def quicBlockRule : JsonObject :=
  [("type", .str "field"), ("network", .str "udp"), ("port", .num 443),
    ("outboundTag", .str "block")]

/-- The address family the domain strategy forbids. -/
def forbiddenFamily : Option String :=
  if !a.forceFamilyResolve then none
  else if a.traffic.domainStrategy = "ipv4_only" ∨ a.traffic.domainStrategy = "prefer_ipv4" then
    some "::/0"
  else if a.traffic.domainStrategy = "ipv6_only" then some "0.0.0.0/0"
  else none

def familyBlockRules : List JsonObject :=
  ((forbiddenFamily a).map fun range => fieldRule "ip" (.strs [range]) "block").toList

def blockZero : Bool := a.traffic.blockRuDomains || !a.fakeBlockRegex.isEmpty

def blockZeroRule : JsonObject := fieldRule "ip" (.strs ["0.0.0.0"]) "block"

/-- The rules of the generator itself. -/
def ownRules : List JsonObject :=
  (if a.cascadeLoopActive then [cascadeLoopRule "proxy-base"] else []) ++
  (if a.fakeEnabled then dnsHijackRules else []) ++
  remoteDnsProxyRules a ++
  (if a.fakeEnabled then [fakeDnsProxyRule a] else []) ++
  (if a.bypassLan && !a.directViaBase then [lanBypassRule] else []) ++
  (if a.blockQuic then [quicBlockRule] else []) ++
  familyBlockRules a ++
  (if blockZero a then [blockZeroRule] else [])

def routingRules : List JsonObject :=
  ownRules a ++ (a.routingProfile.map rules).getD []

def routing : JsonObject :=
  [("domainStrategy", .str (if (forbiddenFamily a).isSome then "IPIfNonMatch"
      else (a.routingProfile.map domainStrategy).getD "AsIs")),
    ("rules", .array ((routingRules a).map .object))]

/-! ## The whole -/

def policy (timeout : Int) : JsonObject :=
  [("levels", .object [("0", .object
    [("handshake", .num timeout), ("connIdle", .num 600), ("uplinkOnly", .num 30),
      ("downlinkOnly", .num 30)])])]

/-- The fixed answers of the resolver; a later entry replaces an earlier one of the same name. -/
def hosts : JsonObject :=
  toLinkedMap (
    (if a.traffic.blockRuDomains then rt.hostRegexps.map fun host =>
      (host, .str "0.0.0.0") else []) ++
    a.fakeBlockRegex.map (fun regex => ("regexp:" ++ regex, .str "0.0.0.0")) ++
    ((a.routingProfile.map RoutingProfile.dnsHosts).getD []).map fun entry =>
      (entry.1, .str entry.2))

def hasHosts : Bool :=
  a.traffic.blockRuDomains || !((a.routingProfile.map RoutingProfile.dnsHosts).getD []).isEmpty ||
    !a.fakeBlockRegex.isEmpty

def dns : JsonObject :=
  fieldIf (hasHosts a) "hosts" (.object (hosts rt a)) ++
  [("servers", .strs ((if a.fakeEnabled then ["fakedns"] else []) ++
    [proxiedDns a.traffic.remoteDns] ++
      (if isNotBlank a.traffic.remoteDns2 then [proxiedDns a.traffic.remoteDns2] else []) ++
      [xrayDns a.traffic.directDns])),
    ("queryStrategy", .str a.traffic.xrayQueryStrategy)]

def fakeDnsPool (ipPool : Option String) : JsonObject :=
  [("ipPool", .str (fakeRange ipPool "198.18.0.0/15")), ("poolSize", .num 65535)]

/-- The configuration, with the WireGuard base already converted. -/
def config : JsonObject :=
  [("log", .object [("loglevel", .str a.logLevel)])] ++
  fieldOf "policy" (a.handshakeTimeoutSec.map fun timeout => .object (policy timeout)) ++
  [("dns", .object (dns rt a))] ++
  fieldIf a.fakeEnabled "fakedns"
    (.array [.object (fakeDnsPool (a.fakeDnsSpec.map FakeDnsSpec.inet4Range))]) ++
  [("inbounds", .array ((inbounds a).map .object)),
    ("outbounds", .array ((outbounds rt a wgBase).map .object)),
    ("routing", .object (routing a))]

end Pieces

/-- The WireGuard base, if one is given and converts. -/
def wireguardBaseOutbound (rt : Runtime) (a : BuildArgs) : Option (Option JsonObject) :=
  match a.wireguardBase with
  | none => some none
  | some base => buildWireguardBaseOutbound rt base "wireguard-base"

/-- `XrayConfig.build`, up to the printing of the JSON value; `none` where it throws. -/
def build (rt : Runtime) (a : BuildArgs) : Option JsonObject :=
  (wireguardBaseOutbound rt a).map fun wgBase => config rt a wgBase

end OlcVpn.Xray
