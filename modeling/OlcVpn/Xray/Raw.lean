/-
  A USER'S OWN XRAY CONFIGURATION, made ready to run: `XrayConfig.prepareRaw`.

  The configuration is kept as it is written, but for the parts the app needs: the first inbound
  becomes the app's SOCKS inbound, and every other SOCKS inbound is dropped.  On top of that come,
  on request, a routing profile, FakeDNS, the removal of geo selectors, IPv4 only, and a second
  server that exits behind the main one.  One thing is not on request: entries of `dns.hosts` that
  only steer routing are lifted into domain rules.

  The source reads a field with `as?`, which gives nothing where the type is wrong, or with
  `jsonPrimitive`, which THROWS there.  A function that may throw answers with an `Option`.
-/
import OlcVpn.Xray.Build

namespace OlcVpn.Xray

open Kotlin Generate Locations List
open JsonObject (without)

/-! ## Accesses that throw -/

/-- `o[name]?.jsonPrimitive?.contentOrNull`. -/
def contentAt (o : JsonObject) (name : String) : Option (Option String) :=
  contentOrThrow (o.lookup name)

/-- `firstOrNull { … }` with a test that may throw; nothing behind the first hit is looked at. -/
def firstWhere {α : Type} (test : α → Option Bool) : List α → Option (Option α)
  | [] => some none
  | x :: l => (test x).bind fun hit => if hit then some (some x) else firstWhere test l

/-- `o[name] as? JsonArray`. -/
def arrayAt (o : JsonObject) (name : String) : Option (List Json) :=
  (o.lookup name).bind jsonArrayOrNull

/-- `(element as? JsonPrimitive)?.contentOrNull`. -/
def primitiveText : Json → Option String
  | .literal _ content => some content
  | _ => none

/-! ## Hosts that steer routing -/

/-- A dotted IPv4 address as a number. -/
def ipv4ToLong (v : String) : Option Nat :=
  match splitWhere (· = '.') v with
  | [a, b, c, d] =>
    [a, b, c, d].foldl (fun acc part => acc.bind fun n =>
      ((toIntOrNull part).filter fun i => 0 ≤ i ∧ i ≤ 255).map fun i => n * 256 + i.toNat) (some 0)
  | _ => none

/-- How many bits of an address a range fixes. -/
def cidrBits (cidr : String) : Option Nat :=
  if contains cidr "/" then
    ((toIntOrNull (substringAfterOr cidr "/" cidr)).filter fun n => 0 ≤ n ∧ n ≤ 32).map Int.toNat
  else some 32

def ipv4InCidr (ip : String) (cidr : Option String) : Bool :=
  match cidr with
  | none => false
  | some cidr =>
    match ipv4ToLong ip, ipv4ToLong (substringBefore cidr '/'), cidrBits cidr with
    -- the mask keeps the upper bits
    | some addr, some base, some bits => addr >>> (32 - bits) == base >>> (32 - bits)
    | _, _, _ => false

/-- A rule that matches on `ip` alone, and matches the address. -/
def plainIpRule (ip : String) (rule : JsonObject) : Bool :=
  (rule.lookup "outboundTag").isSome &&
    rule.all (fun field => field.1 ∈ ["type", "ip", "outboundTag", "ruleTag"]) &&
    ((arrayAt rule "ip").getD []).any fun cidr => ipv4InCidr ip (primitiveText cidr)

variable (rules : List (Option JsonObject))

/-- `ruleFor`: the rules of the array, with what is no object as `none`. -/
def ruleFor (ip : String) : Option Nat :=
  rules.findIdx? fun rule => rule.any (plainIpRule ip)

/-- The one address of a `hosts` entry. -/
def hostAddress (value : Json) : Option String :=
  match value with
  | .array [single] => primitiveText single
  | value => primitiveText value

/-- The rule an entry of `hosts` is lifted to. -/
def liftedTo (entry : String × Json) : Option Nat :=
  (hostAddress entry.2).bind (ruleFor rules)

/-- `hosts` reads a key without a scheme as a full match, a routing rule as a substring. -/
def hostSelector (key : String) : String :=
  if substringBeforeOr key ":" "" = "" then "full:" ++ key else key

variable (hosts : JsonObject)

/-- The selectors that are lifted to the rule at a position. -/
def liftedSelectors (i : Nat) : List String :=
  (hosts.filter fun entry => liftedTo rules entry = some i).map fun entry => hostSelector entry.1

def liftedRule (i : Nat)
    (rule : Option JsonObject) : List JsonObject :=
  match liftedSelectors rules hosts i, rule.bind fun r => r.lookup "outboundTag" with
  | s :: rest, some target =>
    [[("type", .str "field"), ("domain", .strs (s :: rest)), ("outboundTag", target)]]
  | _, _ => []

/-- The rules with each lifted rule right before the one it was taken from. -/
def rulesWithLifted : List JsonObject :=
  (rules.mapIdx fun i rule => liftedRule rules hosts i rule ++ [rule.getD []]).flatten

/-- The entries that stay. -/
def keptHosts : JsonObject :=
  hosts.filter fun entry => (liftedTo rules entry).isNone

def dnsWithHosts (dns kept : JsonObject) : JsonObject :=
  dns.flatMap fun field =>
    if field.1 = "hosts" then (if kept = [] then [] else [("hosts", .object kept)]) else [field]

def liftHostsIntoRouting (dns routing : Option JsonObject) :
    Option JsonObject × Option JsonObject :=
  match dns, dns.bind (objectAt · "hosts"), routing, routing.bind (arrayAt · "rules") with
  | some d, some hosts, some r, some items =>
    let rules := items.map jsonObjectOrNull
    if hosts.all fun entry => (liftedTo rules entry).isNone then (dns, routing)
    else (some (dnsWithHosts d (keptHosts rules hosts)), some (without r ["rules"] ++
        [("rules", .array ((rulesWithLifted rules hosts).map .object))]))
  | _, _, _, _ => (dns, routing)

/-! ## Geo selectors -/

def isGeoSelector (item : Json) : Bool :=
  (primitiveText item).any fun s =>
    startsWith (lowercase s) "geosite:" || startsWith (lowercase s) "geoip:"

def stripGeoArray (items : List Json) : List Json := items.filter fun item => !isGeoSelector item

/-- A field of a rule after the removal.  A condition that is no array throws. -/
def strippedField (field : String × Json) : Option JsonObject :=
  if field.1 = "domain" ∨ field.1 = "ip" then
    (jsonArrayOrNull field.2).map fun items =>
      fieldIf (!(stripGeoArray items).isEmpty) field.1 (.array (stripGeoArray items))
  else some [field]

/-- The rule is dropped: it had such conditions, and all of them are empty now. -/
def emptiedRule (rule : JsonObject) : Bool :=
  let had := ["domain", "ip"].filterMap (arrayAt rule ·)
  !had.isEmpty && had.all fun items => (stripGeoArray items).isEmpty

def strippedRule : Json → Option (List Json)
  | .object rule =>
    if emptiedRule rule then some []
    else (rule.mapM strippedField).map fun fields => [.object fields.flatten]
  | element => some [element]

def stripGeoFromRouting (routing : JsonObject) : Option JsonObject :=
  match arrayAt routing "rules" with
  | none => some routing
  | some rules => (rules.mapM strippedRule).map fun cleaned =>
    without routing ["rules"] ++ [("rules", .array cleaned.flatten)]

def strippedServer : Json → List Json
  | .object server =>
    match arrayAt server "domains" with
    | none => [.object server]
    | some domains =>
      if (stripGeoArray domains).isEmpty then []
      else [.object (server.map fun field =>
        if field.1 = "domains" then ("domains", .array (stripGeoArray domains)) else field)]
  | element => [element]

def stripGeoFromDns (dns : JsonObject) : JsonObject :=
  match arrayAt dns "servers" with
  | none => dns
  | some servers =>
    without dns ["servers"] ++ [("servers", .array (servers.flatMap strippedServer))]

/-! ## Rule targets -/

/-- One rule with its target renamed; a target that is no primitive throws. -/
def rewrittenRule (source target : String) : Json → Option Json
  | .object rule => (contentAt rule "outboundTag").map fun tag =>
    if tag = some source then
      .object (rule.map fun field =>
        if field.1 = "outboundTag" then ("outboundTag", .str target) else field)
    else .object rule
  | element => some element

/-- `rewriteOutboundTag(routing, from, to)`. -/
def rewriteOutboundTag (routing : JsonObject) (source target : String) : Option JsonObject :=
  match arrayAt routing "rules" with
  | none => some routing
  | some rules => (rules.mapM (rewrittenRule source target)).map fun rewritten =>
    without routing ["rules"] ++ [("rules", .array rewritten)]

/-! ## Single outbounds -/

/-- `copy of o` with one field replaced and put last. -/
def replaceLast (o : JsonObject) (name : String) (value : Json) : JsonObject :=
  without o [name] ++ [(name, value)]

/-- The text to put at the top level: `extra`'s where the top level has none. -/
def liftedText (top extra : Option String) : Option String :=
  if top.all isBlank && !extra.all isBlank then extra else top

variable (rt : Runtime) (o : JsonObject)

variable (outbound : JsonObject)

def liftXhttpExtraHostPath : JsonObject :=
  match objectAt outbound "streamSettings" with
  | none => outbound
  | some stream =>
    match objectAt stream "xhttpSettings" with
    | none => outbound
    | some xhttp =>
      let safeXhttp := sanitizeXhttpExtra rt xhttp
      let extra := (objectAt safeXhttp "extra").getD []
      let topHost := (safeXhttp.lookup "host").bind primitiveText
      let topPath := (safeXhttp.lookup "path").bind primitiveText
      let newHost := liftedText topHost ((extra.lookup "host").bind primitiveText)
      let newPath := liftedText topPath ((extra.lookup "path").bind primitiveText)
      if newHost = topHost ∧ newPath = topPath ∧ safeXhttp = xhttp then outbound
      else
        let newXhttp := without safeXhttp ["host", "path"] ++
          fieldOf "host" ((newHost.filter isNotBlank).map .str) ++
          fieldOf "path" ((newPath.filter isNotBlank).map .str)
        replaceLast outbound "streamSettings"
          (.object (replaceLast stream "xhttpSettings" (.object newXhttp)))

def loopXmux : JsonObject :=
  [("maxConnections", .str "4-8"), ("cMaxReuseTimes", .str "64-128"), ("cMaxLifetimeMs", .num 0)]

def withXhttpHighConcurrency : JsonObject :=
  match objectAt outbound "streamSettings" with
  | none => outbound
  | some stream =>
    match objectAt stream "xhttpSettings" with
    | none => outbound
    | some xhttp =>
      if (xhttp.lookup "xmux").isSome then outbound
      else
        without outbound ["streamSettings", "mux"] ++
          [("streamSettings", .object (replaceLast stream "xhttpSettings"
              (.object (xhttp ++ [("xmux", .object loopXmux)])))),
            ("mux", .object ((objectAt outbound "mux").getD
              [("enabled", .bool true), ("concurrency", .num 8)]))]

def forceIpv4Freedom : Option JsonObject :=
  (contentAt outbound "protocol").map fun protocol =>
    if protocol = some "freedom" then
      replaceLast outbound "settings" (.object
        (without ((objectAt outbound "settings").getD []) ["domainStrategy"] ++
          [("domainStrategy", .str "ForceIPv4")]))
    else outbound

/-! ## The arguments -/

structure RawArgs where
  rawConfigJson : String
  listenPort : Int
  listenHost : String := "127.0.0.1"
  socksUsername : String := ""
  socksPassword : String := ""
  routingProfile : Option RoutingProfile := none
  fakeDnsEnabled : Bool := false
  stripGeoSelectors : Bool := false
  forceIpv4 : Bool := false
  secondProfile : Option ServerProfile := none

namespace RawArgs

variable (a : RawArgs)

/-- FakeDNS is injected unless the configuration has its own. -/
def injectFake (root : JsonObject) : Bool := a.fakeDnsEnabled && (root.lookup "fakedns").isNone

def cascadeLoopPort : Int := a.listenPort + 1

end RawArgs

/-! ## The second server -/

def cascadeTypes : List String := ["vless", "vmess", "trojan", "shadowsocks"]

variable (a : RawArgs)

/-- `secondProfile?.takeIf { … }`. -/
def cascadeSecond : Option ServerProfile :=
  a.secondProfile.filter fun p => p.isComplete && p.type ∈ cascadeTypes

def isProxyProtocol (o : JsonObject) : Option Bool :=
  (contentAt o "protocol").map fun protocol => protocol.any fun t => lowercase t ∈ cascadeTypes

/-- The proxy the configuration exits through today. -/
def mainProxyOutbound (userOutbounds : List JsonObject) : Option (Option JsonObject) :=
  firstWhere isProxyProtocol userOutbounds

/-- `mainIsXhttp`. -/
def isXhttpOutbound (o : JsonObject) : Option Bool :=
  match objectAt o "streamSettings" with
  | none => some false
  | some stream => (contentAt stream "network").map fun network =>
    network.any fun n => lowercase n ∈ ["xhttp", "splithttp"]

/-- A second server behind a tagged main one: the exit's outbound, the tag of the main proxy, and
    whether the two are joined over the local relay. -/
structure Cascade where
  exit : JsonObject
  mainTag : String
  loop : Bool

/-- How the exit is emitted. -/
def cascadeHop (second : ServerProfile) (mainTag : String) (loop : Bool) : Hop :=
  if loop then
    { tag := "cascade-exit", detourTag := some "cascade-loop-out", chainViaDialerProxy := true,
      preserveFlow := true }
  else
    { tag := "cascade-exit", detourTag := some mainTag,
      chainViaDialerProxy := second.network = "xhttp" }

def cascade (userOutbounds : List JsonObject) : Option (Option Cascade) :=
  (mainProxyOutbound userOutbounds).bind fun main =>
    match main with
    | none => some none
    | some main =>
      (contentAt main "tag").bind fun tag =>
      (isXhttpOutbound main).map fun loop =>
        (cascadeSecond a).bind fun second => tag.map fun mainTag =>
          { exit := buildProxyOutbound rt second {} (cascadeHop second mainTag loop)
            mainTag := mainTag
            loop := loop }

/-- The relay's end inside the core. -/
def rawLoopOutbound : JsonObject :=
  [("tag", .str "cascade-loop-out"), ("protocol", .str "socks"),
    ("settings", .object [("servers", .array [.object
      [("address", .str "127.0.0.1"), ("port", .num a.cascadeLoopPort)]])])]

/-! ## Inbounds -/

/-- The inbounds with their protocols. -/
def inboundProtocols (root : JsonObject) : Option (List (Option String × JsonObject)) :=
  (objectsOf root "inbounds").mapM fun inbound =>
    (contentAt inbound "protocol").map fun protocol => (protocol, inbound)

/-- `templateSocks`: the configuration's own first SOCKS inbound. -/
def templateSocks (inbounds : List (Option String × JsonObject)) : Option JsonObject :=
  (inbounds.find? fun i => i.1 = some "socks").map Prod.snd

def nonSocks (inbounds : List (Option String × JsonObject)) : List JsonObject :=
  (inbounds.filter fun i => i.1 ≠ some "socks").map Prod.snd

def sniffingWithFakeDns (sniffing : Option JsonObject) : Option JsonObject :=
  let existing : Option (List String) := match sniffing.bind (arrayAt · "destOverride") with
    | none => some ["http", "tls", "quic"]
    | some items => (items.mapM fun item => contentOrThrow (some item)).map fun l => l.filterMap id
  existing.map fun names =>
    without (sniffing.getD []) ["destOverride", "enabled"] ++
      [("enabled", .bool true),
        ("destOverride", .strs (names ++ if "fakedns" ∈ names then [] else ["fakedns"]))]

/-- The sniffing of the app's inbound: the template's own, where it has one. -/
def rawSniffing (injectFake : Bool) (template : Option JsonObject) : Option JsonObject :=
  let own := template.bind (objectAt · "sniffing")
  if injectFake then sniffingWithFakeDns own
  else some (own.getD [("enabled", .bool true), ("destOverride", .strs ["http", "tls", "quic"])])

def rawSocksInbound (sniffing : JsonObject) : JsonObject :=
  [("tag", .str "socks-in"), ("listen", .str a.listenHost), ("port", .num a.listenPort),
    ("protocol", .str "socks"),
    ("settings", .object (socksSettings a.socksUsername a.socksPassword)),
    ("sniffing", .object sniffing)]

/-! ## Routing and DNS -/

section Sections

variable (a : RawArgs) (inject : Bool)

variable (userRouting : Option JsonObject)

/-- `userHasRouting`: a profile is not laid over rules of the configuration's own. -/
def userHasRouting : Bool :=
  !((userRouting.bind (arrayAt · "rules")).getD []).isEmpty

def profileRouting (rp : RoutingProfile) : Option JsonObject :=
  (contentAt (userRouting.getD []) "domainStrategy").map fun own =>
    [("domainStrategy", .str (own.getD (domainStrategy rp))),
      ("rules", .array ((bucketRules rp).map .object ++
      (userRouting.bind (arrayAt · "rules")).getD [] ++
        (catchAllDirectRule rp).map .object))]

/-- `mergedRouting`; the outer `none` is the exception. -/
def mergedRouting : Option (Option JsonObject) :=
  if userHasRouting userRouting then some none
  else match a.routingProfile with
    | none => some none
    | some rp => (profileRouting userRouting rp).map some

/-- `finalRouting`: with FakeDNS the hijack rules come first. -/
def finalRouting (baseRouting : Option JsonObject) : Option JsonObject :=
  if inject then
    let base := baseRouting.getD []
    some (without base ["rules"] ++
      fieldIf (base.lookup "domainStrategy").isNone "domainStrategy" (.str "AsIs") ++
      [("rules", .array (dnsHijackRules.map .object ++ (arrayAt base "rules").getD []))])
  else baseRouting

def strippedRouting (userRouting routing : Option JsonObject) : Option (Option JsonObject) :=
  if a.stripGeoSelectors && userHasRouting userRouting then
    match routing with
    | none => some none
    | some r => (stripGeoFromRouting r).map some
  else some routing

variable (c : Option Cascade)

/-- What exited through the main proxy exits through the cascade. -/
def routingAfterCascade (routing : Option JsonObject) :
    Option (Option JsonObject) :=
  match c, routing with
  | some c, some r => (rewriteOutboundTag r c.mainTag "cascade-exit").map some
  | _, _ => some routing

/-- The relay's own traffic goes to the main proxy, before every other rule. -/
def routingToWrite (routing : Option JsonObject) : Option JsonObject :=
  match c.filter Cascade.loop with
  | some c =>
    let r := routing.getD []
    some (without r ["rules"] ++
      [("rules", .array (.object (cascadeLoopRule c.mainTag) :: (arrayAt r "rules").getD []))])
  | none => routing

def augmentedDns (rawDns : Option JsonObject) : JsonObject :=
  let dns := rawDns.getD []
  without dns ["servers"] ++
    [("servers", .array (.str "fakedns" :: (arrayAt dns "servers").getD [.str "1.1.1.1"]))] ++
    fieldIf (dns.lookup "queryStrategy").isNone "queryStrategy" (.str "UseIP")

def outDns (configDns : Option JsonObject) : Option JsonObject :=
  let base := if inject then some (augmentedDns configDns) else configDns
  let stripped := if a.stripGeoSelectors then base.map stripGeoFromDns else base
  if a.forceIpv4 then stripped.map fun dns => replaceLast dns "queryStrategy" (.str "UseIPv4")
  else stripped

/-! ## Outbounds -/

def tunedOutbound (rt : Runtime) (c : Option Cascade) (o : JsonObject) : Option JsonObject :=
  (contentAt o "tag").bind fun tag =>
    let lifted := liftXhttpExtraHostPath rt o
    let tuned := if (c.filter Cascade.loop).any fun c => tag = some c.mainTag then
      withXhttpHighConcurrency lifted else lifted
    if a.forceIpv4 then forceIpv4Freedom tuned else some tuned

def mergedDirect : JsonObject :=
  [("tag", .str "direct"), ("protocol", .str "freedom"),
    ("settings", .object [("domainStrategy", .str "ForceIPv4")])]

/-- What is appended so that the added rules name outbounds that exist. -/
def addedOutbounds (merged : Bool) (tags : List (Option String)) : List JsonObject :=
  (if merged && some "direct" ∉ tags then [mergedDirect] else []) ++
  (if merged && some "block" ∉ tags then [blockOutbound] else []) ++
  (if inject && some "dns-out" ∉ tags then [dnsOutOutbound] else [])

def rawOutbounds (tuned added : List JsonObject) : List JsonObject :=
  (c.map Cascade.exit).toList ++
  ((c.filter Cascade.loop).map fun _ => rawLoopOutbound a).toList ++
  tuned ++ added

def rawInbounds (socks : JsonObject) (others : List JsonObject) :
    List JsonObject :=
  [socks] ++ ((c.filter Cascade.loop).map fun _ => cascadeLoopInbound a.cascadeLoopPort).toList ++
  others

end Sections

/-! ## The whole -/

/-- The sections the app writes. -/
structure RawParts where
  inject : Bool
  dns : Option JsonObject
  inbounds : List JsonObject
  outbounds : List JsonObject
  routing : Option JsonObject

def prepareParts (a : RawArgs) (root : JsonObject) : Option RawParts := do
  let (configDns, userRouting) :=
    liftHostsIntoRouting (objectAt root "dns") (objectAt root "routing")
  let inject := a.injectFake root
  let inbounds ← inboundProtocols root
  let sniffing ← rawSniffing inject (templateSocks inbounds)
  let userOutbounds := objectsOf root "outbounds"
  let tags ← userOutbounds.mapM fun o => contentAt o "tag"
  let c ← cascade rt a userOutbounds
  let merged ← mergedRouting a userRouting
  let stripped ← strippedRouting a userRouting (finalRouting inject (merged.or userRouting))
  let rewritten ← routingAfterCascade c stripped
  let tuned ← userOutbounds.mapM (tunedOutbound a rt c)
  pure {
    inject := inject
    dns := outDns a inject configDns
    inbounds := rawInbounds a c (rawSocksInbound a sniffing) (nonSocks inbounds)
    outbounds := rawOutbounds a c tuned (addedOutbounds inject merged.isSome tags)
    routing := routingToWrite c rewritten }

/-- The configuration with these sections; everything else is copied. -/
def RawParts.config (parts : RawParts) (root : JsonObject) : JsonObject :=
  without root (["inbounds", "outbounds", "routing", "dns"] ++
    if parts.inject then ["fakedns"] else []) ++
  fieldOf "dns" (parts.dns.map .object) ++
  fieldIf parts.inject "fakedns" (.array [.object (fakeDnsPool none)]) ++
  [("inbounds", .array (parts.inbounds.map .object)),
    ("outbounds", .array (parts.outbounds.map .object))] ++
  fieldOf "routing" (parts.routing.map .object)

/-- `prepareRaw` on a configuration that is a JSON object; `none` where it throws. -/
def prepareRoot (a : RawArgs) (root : JsonObject) : Option JsonObject :=
  (prepareParts rt a root).map fun parts => parts.config root

/-- What the core is started with. -/
inductive Prepared where
  /-- The text as it came: it is no JSON object. -/
  | verbatim (text : String)
  | config (root : JsonObject)

/-- `XrayConfig.prepareRaw`, up to the printing of the JSON value; `none` where it throws. -/
def prepareRaw (a : RawArgs) : Option Prepared :=
  match (rt.parse a.rawConfigJson).bind jsonObjectOrNull with
  | none => some (.verbatim a.rawConfigJson)
  | some root => (prepareRoot rt a root).map .config

/-! ## Reading the output back -/

/-- Other fields are not touched. -/
theorem lookup_replaceLast_ne {o : JsonObject} {name other : String} {value : Json}
    (h : other ≠ name) : (replaceLast o name value).lookup other = o.lookup other := by
  have hne : (other == name) = false := by simpa using h
  rw [replaceLast, lookup_append, JsonObject.lookup_without (by simpa using h)]
  simp [hne]

theorem lookup_replaceLast_self (name : String) (value : Json) :
    (replaceLast o name value).lookup name = some value := by
  rw [replaceLast, lookup_append, JsonObject.lookup_without_self (by simp)]
  simp

/-- Tuning an outbound keeps its tag. -/
theorem lookup_lifted : (liftXhttpExtraHostPath rt o).lookup "tag" = o.lookup "tag" := by
  unfold liftXhttpExtraHostPath
  split
  · rfl
  · split
    · rfl
    · simp only
      split_ifs
      · rfl
      · exact lookup_replaceLast_ne (by decide)

theorem lookup_highConcurrency : (withXhttpHighConcurrency o).lookup "tag" = o.lookup "tag" := by
  unfold withXhttpHighConcurrency
  split
  · rfl
  · split
    · rfl
    · split_ifs
      · rfl
      · rw [lookup_append, JsonObject.lookup_without (by decide)]
        simp

/-- Whatever is done to an outbound, it keeps its tag. -/
theorem lookup_tunedOutbound {a : RawArgs} {rt : Runtime} {c : Option Cascade} {o o' : JsonObject}
    (h : tunedOutbound a rt c o = some o') : o'.lookup "tag" = o.lookup "tag" := by
  obtain ⟨tag, -, h⟩ := Option.bind_eq_some_iff.mp h
  simp only at h
  generalize htuned : (if (c.filter Cascade.loop).any fun c => tag = some c.mainTag then
    withXhttpHighConcurrency (liftXhttpExtraHostPath rt o)
    else liftXhttpExtraHostPath rt o) = tuned at h
  have hlookup : tuned.lookup "tag" = o.lookup "tag" := by
    rw [← htuned]
    split_ifs
    · rw [lookup_highConcurrency, lookup_lifted]
    · exact lookup_lifted rt o
  rw [← hlookup]
  split_ifs at h with hforce
  · obtain ⟨protocol, -, rfl⟩ := Option.map_eq_some_iff.mp h
    split_ifs
    · exact lookup_replaceLast_ne (by decide)
    · rfl
  · rw [Option.some.inj h]

/-- A configuration that was prepared is assembled from its sections. -/
theorem parts_of_prepareRaw {rt : Runtime} {a : RawArgs} {root out : JsonObject}
    (hparse : rt.parse a.rawConfigJson = some (.object root))
      (h : prepareRaw rt a = some (.config out)) :
    ∃ parts, prepareParts rt a root = some parts ∧ out = parts.config root := by
  rw [prepareRaw, hparse] at h
  obtain ⟨config, hconfig, heq⟩ := Option.map_eq_some_iff.mp h
  obtain ⟨parts, hparts, rfl⟩ := Option.map_eq_some_iff.mp hconfig
  exact ⟨parts, hparts, (Prepared.config.inj heq).symm⟩

section Config

variable (parts : RawParts) (root : JsonObject)

/-- The sections of the written configuration are the prepared ones, whatever the root had. -/
theorem lookup_config {name : String} (h : name ∈ ["inbounds", "outbounds", "routing"]) :
    (parts.config root).lookup name = ([("inbounds", Json.array (parts.inbounds.map .object)),
        ("outbounds", Json.array (parts.outbounds.map .object))] ++
      fieldOf "routing" (parts.routing.map .object)).lookup name := by
  have hnot : name ∈ ["inbounds", "outbounds", "routing", "dns"] ++
      if parts.inject then ["fakedns"] else [] := by
    have hsub : ["inbounds", "outbounds", "routing"] ⊆
        ["inbounds", "outbounds", "routing", "dns"] := by
      decide
    exact mem_append_left _ (hsub h)
  have hdns : name ≠ "dns" := by
    rintro rfl
    exact absurd h (by decide)
  have hfake : name ≠ "fakedns" := by
    rintro rfl
    exact absurd h (by decide)
  rw [RawParts.config]
  simp only [append_assoc, lookup_append, JsonObject.lookup_without_self hnot,
    lookup_fieldOf_ne hdns, lookup_fieldIf_ne hfake, Option.none_or]

theorem objectsOf_outbounds_config :
    objectsOf (parts.config root) "outbounds" = parts.outbounds := by
  refine objectsOf_eq ((lookup_config parts root (by decide)).trans ?_)
  simp

theorem objectsOf_inbounds_config : objectsOf (parts.config root) "inbounds" = parts.inbounds := by
  refine objectsOf_eq ((lookup_config parts root (by decide)).trans ?_)
  simp

theorem objectAt_routing_config : objectAt (parts.config root) "routing" = parts.routing := by
  rw [objectAt, lookup_config parts root (by decide)]
  cases parts.routing <;> simp [fieldOf]

end Config

/-! ## The inbounds -/

/-- A relay is needed: a second server this core can dial behind a tagged main one that is xhttp. -/
def RelayNeeded (a : RawArgs) (root : JsonObject) : Prop :=
  (cascadeSecond a).isSome = true ∧ ∃ main tag,
    mainProxyOutbound (objectsOf root "outbounds") = some (some main) ∧
    contentAt main "tag" = some (some tag) ∧ isXhttpOutbound main = some true

section Parts

variable {rt : Runtime} {a : RawArgs} {root : JsonObject}

/-- The relay is part of the cascade exactly if the input needs it. -/
theorem relayNeeded_iff {c : Option Cascade}
    (hc : cascade rt a (objectsOf root "outbounds") = some c) :
    (c.filter Cascade.loop).isSome = true ↔ RelayNeeded a root := by
  obtain ⟨main, hmain, hc⟩ := Option.bind_eq_some_iff.mp hc
  cases main with
  | none =>
    cases hc
    simp [RelayNeeded, hmain]
  | some main =>
    obtain ⟨tag, htag, hc⟩ := Option.bind_eq_some_iff.mp hc
    obtain ⟨loop, hloop, rfl⟩ := Option.map_eq_some_iff.mp hc
    cases hsecond : cascadeSecond a with
    | none => simp [RelayNeeded, hsecond]
    | some second =>
      cases tag with
      | none => simp [RelayNeeded, hmain, htag]
      | some tag => cases loop <;> simp [RelayNeeded, hsecond, hmain, htag, hloop, Option.filter]

/-- The inbounds that are carried over. -/
def carried (root : JsonObject) : List JsonObject :=
  (objectsOf root "inbounds").filter fun inbound => contentAt inbound "protocol" ≠
    some (some "socks")

/-- The inbounds that are carried over, as a filter. -/
theorem nonSocks_eq {l : List JsonObject} {pairs : List (Option String × JsonObject)}
    (h : (l.mapM fun inbound => (contentAt inbound "protocol").map fun p => (p, inbound)) =
      some pairs) :
    nonSocks pairs = l.filter fun inbound => contentAt inbound "protocol" ≠
      some (some "socks") := by
  induction l generalizing pairs with
  | nil =>
    obtain rfl : pairs = [] := by simpa using h.symm
    rfl
  | cons first l ih =>
    rw [mapM_cons] at h
    obtain ⟨pair, hpair, h⟩ := Option.bind_eq_some_iff.mp h
    obtain ⟨rest, hrest, h⟩ := Option.bind_eq_some_iff.mp h
    obtain rfl : pairs = pair :: rest := (Option.some.inj h).symm
    obtain ⟨protocol, hprotocol, rfl⟩ := Option.map_eq_some_iff.mp hpair
    rw [filter_cons, ← ih hrest, hprotocol, nonSocks, nonSocks, filter_cons]
    by_cases hsocks : protocol = some "socks" <;> simp [hsocks]

/-- The inbounds of a prepared configuration. -/
theorem prepared_inbounds {parts : RawParts} (h : prepareParts rt a root = some parts) :
    ∃ sniffing relay, parts.inbounds = rawSocksInbound a sniffing :: (relay ++ carried root) ∧
      (RelayNeeded a root ∧ relay = [cascadeLoopInbound a.cascadeLoopPort] ∧
          rawLoopOutbound a ∈ parts.outbounds ∨ ¬RelayNeeded a root ∧ relay = []) := by
  simp only [prepareParts, Option.bind_eq_bind, Option.bind_eq_some_iff] at h
  obtain ⟨pairs, hpairs, sniffing, -, tags, -, c, hc, merged, -, stripped, -, rewritten, -,
      tuned, -, h⟩ := h
  obtain rfl := (Option.some.inj h).symm
  refine ⟨sniffing, _, by rw [rawInbounds, nonSocks_eq hpairs, append_assoc]; rfl, ?_⟩
  rw [← relayNeeded_iff hc, rawOutbounds]
  cases c.filter Cascade.loop <;> simp

end Parts

end OlcVpn.Xray
