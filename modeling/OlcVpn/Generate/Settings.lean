/-
  WHAT THE CONFIG GENERATORS READ.

  The client turns a stored server into the configuration of one of two cores, sing-box or Xray.
  Both generators take the same records: the server itself with its transport, the global traffic
  settings, an optional routing profile, an optional FakeDNS description that came with an imported
  config.
-/
import OlcVpn.Locations.Config

namespace OlcVpn.Generate

open Kotlin Locations

/-- A `ProxyProfile` with its transport. -/
structure ServerProfile extends ProxyProfile where
  alterId : Int := 0
  cipher : String := "auto"
  flow : String := ""
  network : String := "tcp"
  security : String := "none"
  sni : String := ""
  alpn : List String := []
  fingerprint : String := ""
  allowInsecure : Bool := false
  realityPublicKey : String := ""
  realityShortId : String := ""
  realityMldsa65Verify : String := ""
  realitySpiderX : String := ""
  path : String := ""
  host : String := ""
  vlessEncryption : String := ""
  xhttpMode : String := ""
  xhttpExtra : String := ""
  finalMask : String := ""
  pinnedCertSha256 : String := ""
  verifyCertByName : String := ""
  echConfigList : String := ""
  rawSingBoxRoute : Option String := none

structure TrafficSettings where
  remoteDns : String := "8.8.8.8"
  remoteDns2 : String := ""
  directDns : String := "77.88.8.8"
  domainStrategy : String := "ipv4_only"
  muxEnabled : Bool := false
  muxMaxConnections : Int := 8
  fragmentEnabled : Bool := false
  fragmentPackets : String := "tlshello"
  fragmentLength : String := "50-100"
  fragmentInterval : String := "10-20"
  blockRuDomains : Bool := false
  fakeDnsEnabled : Bool := false

def TrafficSettings.xrayQueryStrategy (t : TrafficSettings) : String :=
  if t.domainStrategy = "ipv4_only" ∨ t.domainStrategy = "prefer_ipv4" then "UseIPv4"
  else if t.domainStrategy = "ipv6_only" then "UseIPv6"
  else "UseIP"

/-- The three buckets of a routing profile. -/
inductive Bucket where
  | block | direct | proxy
  deriving DecidableEq, Repr

/-- A Happ-compatible routing profile. -/
structure RoutingProfile where
  blockIp : List String := []
  blockSites : List String := []
  directIp : List String := []
  directSites : List String := []
  proxyIp : List String := []
  proxySites : List String := []
  dnsHosts : List (String × String) := []
  domainStrategy : String := "IPIfNonMatch"
  routeOrder : String := "block-direct-proxy"
  globalProxy : Bool := true
  expertEnabled : Bool := false
  xrayDomainStrategy : String := ""
  xraySniffing : Bool := true
  xrayRouteOnly : Bool := false
  singboxDomainStrategy : String := ""
  singboxSniff : Bool := true
  singboxResolve : Bool := false

namespace RoutingProfile

variable (p : RoutingProfile)

def sites : Bucket → List String
  | .block => p.blockSites
  | .direct => p.directSites
  | .proxy => p.proxySites

def ips : Bucket → List String
  | .block => p.blockIp
  | .direct => p.directIp
  | .proxy => p.proxyIp

def usesIpRules : Bool :=
  (p.blockIp ++ p.directIp ++ p.proxyIp).any fun entry => trim entry ≠ ""

/-- `DEFAULT_ORDER`. -/
def defaultOrder : List Bucket := [.block, .direct, .proxy]

/-- A token of `routeOrder`, after `trim().lowercase()`; an unknown one is filtered out. -/
def bucketOf (token : String) : Option Bucket :=
  if token = "block" then some .block
  else if token = "direct" then some .direct
  else if token = "proxy" then some .proxy
  else none

/-- The buckets in the order both cores try them; a bucket may be named twice or not at all. -/
def order : List Bucket :=
  let named := (splitWhere (· = '-') p.routeOrder).filterMap fun token =>
    bucketOf (lowercase (trim token))
  if named = [] then defaultOrder else named

end RoutingProfile

/-- `Asn.isSelector`. -/
def isAsnSelector (selector : String) : Bool := startsWithIgnoreCase (trim selector) "asn:"

/-- A structured routing rule of the sing-box core.  `packageRegex` is expanded before a
    configuration is built; here it only counts as a matcher. -/
structure SingBoxRule where
  action : String := "route"
  outbound : String := "proxy"
  domains : List String := []
  ip : List String := []
  source : List String := []
  port : String := ""
  sourcePort : String := ""
  network : String := ""
  networkType : List String := []
  protocol : List String := []
  client : List String := []
  networkIsExpensive : Bool := false
  clashMode : String := ""
  packageNames : List String := []
  packageRegex : List String := []
  enabled : Bool := true

def SingBoxRule.hasMatcher (r : SingBoxRule) : Bool :=
  !r.domains.isEmpty || !r.ip.isEmpty || !r.source.isEmpty || isNotBlank r.port ||
    isNotBlank r.sourcePort || isNotBlank r.network || !r.protocol.isEmpty ||
    !r.networkType.isEmpty || !r.client.isEmpty || r.networkIsExpensive || isNotBlank r.clashMode ||
    !r.packageNames.isEmpty || !r.packageRegex.isEmpty

/-- The toggles of the sing-box core, with its verbatim and its structured rules. -/
structure RoutingRules where
  bypassLan : Bool := true
  blockAds : Bool := false
  bypassRussia : Bool := false
  directDomains : List String := []
  blockDomains : List String := []
  customRulesJson : String := ""
  rules : List SingBoxRule := []

end OlcVpn.Generate
