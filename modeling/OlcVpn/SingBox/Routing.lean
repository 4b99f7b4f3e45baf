/-
  THE RULES OF A ROUTING PROFILE for the sing-box core, and the user's structured rules.

  sing-box has no selectors with a scheme: each kind of condition is a field of its own.  A bucket
  of a profile is parsed into such fields (`Selectors`) and becomes one rule per field, so that the
  fields of a bucket are tried one after the other and never ANDed.  The `direct` bucket does not
  name an outbound itself: the caller passes the tag that means "direct".
-/
import OlcVpn.Generate.Settings
import OlcVpn.Kotlin.Json

namespace OlcVpn.SingBoxRouting

open Kotlin Generate

/-! ## Selectors -/

/-- A selector, split into the fields sing-box has. -/
structure Selectors where
  domainSuffix : List String := []
  domainExact : List String := []
  domainKeyword : List String := []
  domainRegex : List String := []
  ipCidr : List String := []
  geositeTags : List String := []
  geoipTags : List String := []

/-- What stands behind the scheme of a selector. -/
def valueOf (selector : String) : String := trim (substringAfterOr selector ":" selector)

/-- `domain:` means the name and its subdomains: an exact name and a dotted suffix. -/
def domainAndSubdomains (value : String) : Selectors :=
  let v := trim value
  if v = "" then {}
  else if startsWith v "." then { domainSuffix := [v] }
  else { domainExact := [v], domainSuffix := ["." ++ v] }

def isDottedQuad (v : String) : Bool :=
  let parts := splitWhere (· = '.') v
  parts.length = 4 && parts.all fun part =>
    1 ≤ part.toList.length && part.toList.length ≤ 3 &&
      part.toList.all fun c => '0' ≤ c && c ≤ '9'

def isCidrOrIp (v : String) : Bool :=
  contains v "/" || 2 ≤ v.toList.count ':' || isDottedQuad v

/-- A bare address becomes a range of one. -/
def toCidr (v : String) : String :=
  if contains v "/" then v else if contains v ":" then v ++ "/128" else v ++ "/32"

variable (raw : String)

/-- One entry of a site list. -/
def parseSite : Option Selectors :=
  let v := trim raw
  if v = "" then none
  else if startsWithIgnoreCase v "geosite:" then some { geositeTags := [lowercase (valueOf v)] }
  else if startsWithIgnoreCase v "geoip:" then some { geoipTags := [lowercase (valueOf v)] }
  else if startsWithIgnoreCase v "domain:" then some (domainAndSubdomains (valueOf v))
  else if startsWithIgnoreCase v "full:" then some { domainExact := [valueOf v] }
  else if startsWithIgnoreCase v "keyword:" then some { domainKeyword := [valueOf v] }
  else if startsWithIgnoreCase v "regexp:" || startsWithIgnoreCase v "regex:" then
    some { domainRegex := [valueOf v] }
  else if isCidrOrIp v then some { ipCidr := [toCidr v] }
  else some (domainAndSubdomains v)

/-- One entry of an address list. -/
def parseAddress : Option Selectors :=
  let v := trim raw
  if v = "" then none
  else if startsWithIgnoreCase v "geoip:" then some { geoipTags := [lowercase (valueOf v)] }
  else if startsWithIgnoreCase v "geosite:" then some { geositeTags := [lowercase (valueOf v)] }
  else if isAsnSelector v then none
  else some { ipCidr := [toCidr v] }

def parse (selectors : List String) : List Selectors := selectors.filterMap parseSite

def parseIp (selectors : List String) : List Selectors := selectors.filterMap parseAddress

/-- One field of all selectors, each value once. -/
def collect (field : Selectors → List String) (selectors : List Selectors) : List String :=
  distinctBy id (selectors.flatMap field)

/-- A value is collected if some selector has it. -/
theorem mem_collect {field : Selectors → List String} {selectors : List Selectors}
    {value : String} :
    value ∈ collect field selectors ↔ ∃ s ∈ selectors, value ∈ field s := by
  rw [collect, distinctBy, mem_distinctByFrom_id, List.mem_flatMap]
  simp

/-! ## Buckets -/

/-- What the rules of a bucket do. -/
inductive Target where
  | reject
  | outbound (tag : String)
  deriving DecidableEq, Repr

/-- `matchRule`: a matcher, the address family if one is given, and what is done. -/
def matchRule (target : Target) (ipVersion : Option Int) (matcher : JsonObject) : JsonObject :=
  matcher ++ ((ipVersion.map fun n => ("ip_version", Json.num n)).toList) ++
    match target with
    | .reject => [("action", .str "reject")]
    | .outbound tag => [("outbound", .str tag)]

/-- A rule on one field, if the field has values. -/
def ruleOn (target : Target) (ipVersion : Option Int) (field : String) (values : List String) :
    List JsonObject :=
  if values = [] then [] else [matchRule target ipVersion [(field, .strs values)]]

def emitBucket (sites ips : List String) (target : Target) (ipVersion : Option Int) :
    List JsonObject :=
  let s := parse sites
  let i := parseIp ips
  ruleOn target ipVersion "rule_set" ((collect Selectors.geositeTags s).map ("geosite-" ++ ·) ++
    (collect Selectors.geoipTags i).map ("geoip-" ++ ·)) ++
  ruleOn target ipVersion "domain_suffix" (collect Selectors.domainSuffix s) ++
  ruleOn target ipVersion "domain" (collect Selectors.domainExact s) ++
  ruleOn target ipVersion "domain_keyword" (collect Selectors.domainKeyword s) ++
  ruleOn target ipVersion "domain_regex" (collect Selectors.domainRegex s) ++
  -- the pass that rejects IPv6 skips the address ranges
  (if ipVersion.isNone then ruleOn target none "ip_cidr" (collect Selectors.ipCidr i) else [])

/-- The fields a bucket's rules match on. -/
def bucketFields : List String :=
  ["rule_set", "domain_suffix", "domain", "domain_keyword", "domain_regex", "ip_cidr"]

/-- Every rule of a bucket matches on one field and does what the bucket does. -/
theorem mem_emitBucket {sites ips : List String} {target : Target} {ipVersion : Option Int}
    {rule : JsonObject} (h : rule ∈ emitBucket sites ips target ipVersion) :
    ∃ field ∈ bucketFields, ∃ values, rule =
      matchRule target ipVersion [(field, .strs values)] := by
  have hon : ∀ {field : String} {values : List String}, field ∈ bucketFields →
      rule ∈ ruleOn target ipVersion field values →
      ∃ field ∈ bucketFields, ∃ values, rule =
        matchRule target ipVersion [(field, .strs values)] := by
    intro field values hfield hrule
    unfold ruleOn at hrule
    split_ifs at hrule
    · simp at hrule
    · exact ⟨field, hfield, values, List.mem_singleton.mp hrule⟩
  unfold emitBucket at h
  simp only [List.mem_append] at h
  rcases h with ((((h | h) | h) | h) | h) | h
  · exact hon (by decide) h
  · exact hon (by decide) h
  · exact hon (by decide) h
  · exact hon (by decide) h
  · exact hon (by decide) h
  · cases ipVersion with
    | none => exact hon (by decide) h
    | some n => simp at h

/-- What a bucket's rules do, with the tag that means "direct". -/
def bucketTarget (directTag : String) : Bucket → Target
  | .block => .reject
  | .direct => .outbound directTag
  | .proxy => .outbound "proxy"

variable (p : RoutingProfile)

def bucketRules (hideDirectIpv6 : Bool) (directTag : String) (bucket : Bucket) :
    List JsonObject :=
  (if bucket = .direct ∧ hideDirectIpv6 then
    emitBucket (p.sites bucket) (p.ips bucket) .reject (some 6) else []) ++
  emitBucket (p.sites bucket) (p.ips bucket) (bucketTarget directTag bucket) none

def rules (hideDirectIpv6 : Bool) (directTag : String) : List JsonObject :=
  p.order.flatMap (bucketRules p hideDirectIpv6 directTag)

/-- Where a connection goes that no rule matched. -/
def finalOutbound (directTag : String) : String :=
  if p.globalProxy then "proxy" else directTag

/-! ## Structured rules -/

def portTokens : List String :=
  ((splitWhere (fun c => c = ',' || c = ';' || c = ' ' || c = '\n') raw).map trim).filter (· ≠ "")

def isPortRange (token : String) : Bool := contains token ":" || contains token "-"

def singlePorts : List Int :=
  (portTokens raw).filterMap fun token => if isPortRange token then none else toIntOrNull token

def portRanges : List String :=
  (portTokens raw).filterMap fun token =>
    if isPortRange token then
      match (splitWhere (fun c => c = ':' || c = '-') token).map trim with
      | [low, high] =>
        if (toIntOrNull low).isSome && (toIntOrNull high).isSome then some (low ++ ":" ++ high)
        else none
      | _ => none
    else none

/-- A field with values, if there are any. -/
def textsField (name : String) (values : List String) : JsonObject :=
  fieldIf (!values.isEmpty) name (.strs values)

def numsField (name : String) (values : List Int) : JsonObject :=
  fieldIf (!values.isEmpty) name (.array (values.map .num))

/-- What a structured rule does. -/
def manualAction (r : SingBoxRule) (directTag : String) : JsonObject :=
  if r.action = "reject" then [("action", .str "reject")]
  else if r.action = "hijack-dns" then [("action", .str "hijack-dns")]
  else if r.action = "sniff" then [("action", .str "sniff")]
  else if r.action = "resolve" then [("action", .str "resolve")]
  else if r.action = "route-options" then [("action", .str "route-options")]
  else if r.outbound = "block" then [("action", .str "reject")]
  else if r.outbound = "direct" then [("outbound", .str directTag)]
  else [("outbound", .str "proxy")]

/-- The conditions of a structured rule, all in one object. -/
def manualMatchers (r : SingBoxRule) (matchAppsByProcess : Bool) : JsonObject :=
  let s := parse r.domains
  let i := parseIp r.ip
  textsField "rule_set" (distinctBy id (((s.flatMap Selectors.geositeTags).map ("geosite-" ++ ·)) ++
    (i.flatMap Selectors.geoipTags).map ("geoip-" ++ ·))) ++
  textsField "domain_suffix" (collect Selectors.domainSuffix s) ++
  textsField "domain" (collect Selectors.domainExact s) ++
  textsField "domain_keyword" (collect Selectors.domainKeyword s) ++
  textsField "domain_regex" (collect Selectors.domainRegex s) ++
  textsField "ip_cidr" (collect Selectors.ipCidr i) ++
  textsField "source_ip_cidr" (collect Selectors.ipCidr (parseIp r.source)) ++
  numsField "port" (singlePorts r.port) ++
  textsField "port_range" (portRanges r.port) ++
  numsField "source_port" (singlePorts r.sourcePort) ++
  textsField "source_port_range" (portRanges r.sourcePort) ++
  fieldIf (isNotBlank r.network) "network" (.str r.network) ++
  textsField "network_type" r.networkType ++
  textsField "protocol" r.protocol ++
  textsField "client" r.client ++
  fieldIf r.networkIsExpensive "network_is_expensive" (.bool true) ++
  fieldIf (isNotBlank r.clashMode) "clash_mode" (.str r.clashMode) ++
  textsField (if matchAppsByProcess then "process_name" else "package_name") r.packageNames

def manualRules (rs : List SingBoxRule) (matchAppsByProcess : Bool) (directTag : String) :
    List JsonObject :=
  (rs.filter fun r => r.enabled && r.hasMatcher).map fun r =>
    manualMatchers r matchAppsByProcess ++ manualAction r directTag

end OlcVpn.SingBoxRouting
