/-
  THE ROUTE OF A GENERATED SING-BOX CONFIGURATION, and whether it ever bypasses a mandatory tunnel.

  `SingBoxConfig.build` writes `route.rules` from many sources: its own safety rules, per-process
  split tunnelling, and then EITHER the route a JSON subscription brought along OR the user's
  verbatim rules, structured rules, toggles and routing profile.  With `directViaBase` and a base
  tunnel, none of them may send a connection to the plain `direct` outbound.  sing-box allows no
  detour on that outbound, so the generator replaces the TAG: every rule that means "direct" is
  given `directTag`, the tag of the base.

  THE SPECIFICATION reads the finished rules the way the core decodes them (`SingBox.decodeRule`):
  a rule sends to an outbound if its action routes (or bypasses) to that tag.

  THE RESULT, `neverDirect_iff`: two sources are not retagged.  The user's verbatim rules are copied
  as they are, and of an embedded route the rules are retagged but its `final` is not.

  Only the `route` object is modelled, without its `rule_set` definitions.
-/
import OlcVpn.SingBox.Route
import OlcVpn.SingBox.Routing

namespace OlcVpn.SingBoxConfig

open Kotlin Generate SingBox List Option
open Locations (FakeDnsSpec)
open Option (some)

/-! ## The arguments -/

structure BuildArgs where
  profile : ServerProfile
  olcrtcChainPort : Option Int := none
  autoDetectInterface : Bool := false
  routing : RoutingRules := {}
  traffic : TrafficSettings := {}
  wireguardBase : Option ServerProfile := none
  dnsStrategyOverride : Option String := none
  /-- `advanced?.sniff`. -/
  advancedSniff : Option Bool := none
  routingProfile : Option RoutingProfile := none
  blockQuic : Bool := true
  forceFamilyResolve : Bool := true
  allowLocalResolve : Bool := true
  directViaBase : Bool := false
  sniffOverrideDestination : Bool := false
  fakeDnsSpec : Option FakeDnsSpec := none
  tunMode : Bool := false
  splitTunnelMode : String := "all_apps"
  splitTunnelProcesses : List String := []
  hijackDns : Bool := false
  forceFakeDns : Bool := false
  matchAppsByProcess : Bool := false

namespace BuildArgs

variable (a : BuildArgs)

def effectiveStrategy : String := a.dnsStrategyOverride.getD a.traffic.domainStrategy

def baseExitTag : Option String :=
  if a.wireguardBase.isSome then some "wireguard-base"
  else if a.olcrtcChainPort.isSome then some "olcrtc-out"
  else none

/-- What a rule that means "direct" is given. -/
def directTag : String := if a.directViaBase then a.baseExitTag.getD "direct" else "direct"

def fakeEnabled : Bool := a.traffic.fakeDnsEnabled || a.fakeDnsSpec.isSome || a.forceFakeDns

def fake4Range : String :=
  ((a.fakeDnsSpec.map FakeDnsSpec.inet4Range).filter isNotBlank).getD "198.18.0.0/15"

def fake6Range : String :=
  ((a.fakeDnsSpec.map FakeDnsSpec.inet6Range).filter isNotBlank).getD "fc00::/18"

def expert : Bool := a.routingProfile.any RoutingProfile.expertEnabled

/-- The strategy of an expert profile, else the effective one. -/
def expertStrategy : String :=
  (((a.routingProfile.filter RoutingProfile.expertEnabled).map
    RoutingProfile.singboxDomainStrategy).filter isNotBlank).getD a.effectiveStrategy

def forceFamily : Bool :=
  a.forceFamilyResolve && (a.expertStrategy = "ipv4_only" || a.expertStrategy = "ipv6_only")

end BuildArgs

/-! ## The embedded route -/

section Rules

variable (parse : String → Option Json) (a : BuildArgs)

/-- The route a JSON subscription brought along. -/
def embeddedRoute : Option JsonObject :=
  ((a.profile.rawSingBoxRoute.filter isNotBlank).bind parse).bind jsonObjectOrNull

def embeddedRules : List JsonObject :=
  ((((embeddedRoute parse a).bind fun route => route.lookup "rules").bind
    jsonArrayOrNull).getD []).filterMap jsonObjectOrNull

def hasEmbeddedRoute : Bool := !(embeddedRules parse a).isEmpty

def embeddedUsesIpRules : Bool :=
  (embeddedRules parse a).any fun rule =>
    (rule.lookup "ip_cidr").isSome || (rule.lookup "rule_set").isSome ||
      (rule.lookup "ip_is_private").isSome

/-- An embedded rule with its `direct` bucket on the base tunnel; throws where the field is no
    primitive. -/
def retagged (rule : JsonObject) : Option JsonObject :=
  if a.directTag = "direct" then some rule
  else (contentOrThrow (rule.lookup "outbound")).map fun outbound =>
    if outbound = some "direct" then put rule "outbound" (.str a.directTag) else rule

/-! ## Rules, in the order they are tried -/

def sniffRules : List JsonObject :=
  if a.sniffOverrideDestination ||
      (a.advancedSniff != some false && (!a.expert ||
        a.routingProfile.any RoutingProfile.singboxSniff))
  then [[("action", .str "sniff")]] else []

def hijackRules : List JsonObject :=
  if a.tunMode || a.hijackDns then
    [[("protocol", .strs ["dns"]), ("action", .str "hijack-dns")]] else []

/-- Per-process split tunnelling. -/
def splitTunnelRules : List JsonObject :=
  let processes := a.splitTunnelProcesses.filter isNotBlank
  if a.tunMode && !processes.isEmpty then
    if a.splitTunnelMode = "bypass_selected" then
      [[("process_name", .strs processes), ("outbound", .str a.directTag)]]
    else if a.splitTunnelMode = "proxy_selected" then
      [[("process_name", .strs processes), ("invert", .bool true), ("outbound", .str a.directTag)]]
    else []
  else []

def quicRules : List JsonObject :=
  if a.blockQuic then
    [[("protocol", .strs ["quic"]), ("action", .str "reject")],
      [("network", .str "udp"), ("port", .array [.num 443]), ("action", .str "reject")]]
  else []

def dohBlockSuffixes : List String :=
  ["cloudflare-dns.com", "dns.google", "dns.google.com", "one.one.one.one", "dns.quad9.net",
    "doh.opendns.com", "dns.nextdns.io", "doh.cleanbrowsing.org", "dns.adguard.com",
    "dns.adguard-dns.com"]

def dohRules : List JsonObject :=
  if a.fakeEnabled || a.effectiveStrategy = "ipv4_only" || a.effectiveStrategy = "ipv6_only" then
    [[("domain_suffix", .strs dohBlockSuffixes), ("action", .str "reject")],
      [("domain", .strs ["use-application-dns.net"]), ("action", .str "reject")]]
  else []

def fakeDnsRules : List JsonObject :=
  let blocked := (a.fakeDnsSpec.map FakeDnsSpec.blockRegex).getD []
  (if blocked = [] then [] else [[("domain_regex", .strs blocked), ("action", .str "reject")]]) ++
  (if a.fakeEnabled then
    [[("ip_cidr", .strs [a.fake4Range, a.fake6Range]), ("outbound", .str "proxy")]] else [])

/-- Private addresses go direct. -/
def lanRules : List JsonObject :=
  if a.routingProfile.isSome || a.routing.bypassLan then
    [[("ip_is_private", .bool true), ("outbound", .str a.directTag)]] else []

def resolveRules : List JsonObject :=
  if a.allowLocalResolve &&
      (a.routingProfile.any RoutingProfile.usesIpRules || a.routing.bypassRussia || a.forceFamily ||
        a.routing.rules.any (fun r => r.enabled && !r.ip.isEmpty) || embeddedUsesIpRules parse a ||
        (a.expert && a.routingProfile.any RoutingProfile.singboxResolve)) then
    [[("action", .str "resolve"), ("strategy", .str a.expertStrategy)]] else []

/-- The other address family is dropped. -/
def familyRules : List JsonObject :=
  let dropped (range : String) : List JsonObject :=
    [[("ip_cidr", .strs [range]), ("action", .str "reject"), ("method", .str "drop")]]
  if a.forceFamily then
    if a.expertStrategy = "ipv4_only" then dropped "::/0" else dropped "0.0.0.0/0"
  else []

/-- The rules every route starts with. -/
def safetyRules : List JsonObject :=
  sniffRules a ++ hijackRules a ++ splitTunnelRules a ++ quicRules a ++ dohRules a ++
    fakeDnsRules a ++ lanRules a ++ resolveRules parse a ++ familyRules a

/-- The user's verbatim rules; blank or unparsable is none. -/
def verbatimRules : List Json :=
  if isBlank a.routing.customRulesJson then []
  else ((parse a.routing.customRulesJson).bind jsonArrayOrNull).getD []

def blockRules : List JsonObject :=
  (if a.routing.blockDomains = [] then []
    else [[("domain_suffix", .strs a.routing.blockDomains), ("action", .str "reject")]]) ++
  (if a.routing.blockAds then
    [[("domain_suffix", .strs ["google.com", "gstatic.com", "googleapis.com"]),
        ("outbound", .str "proxy")],
      [("rule_set", .str "geosite-ads"), ("action", .str "reject")]]
  else [])

/-- In the hybrid strategies the direct bucket never uses IPv6. -/
def profileRules : List JsonObject :=
  (a.routingProfile.map fun p => SingBoxRouting.rules p
    (a.effectiveStrategy = "prefer_ipv4" || a.effectiveStrategy = "prefer_ipv6") a.directTag).getD
      []

def directRules : List JsonObject :=
  (if a.routing.directDomains = [] then []
    else [[("domain_suffix", .strs a.routing.directDomains), ("outbound", .str a.directTag)]]) ++
  (if a.routing.bypassRussia then
    [[("rule_set", .strs ["geoip-ru", "geosite-ru"]), ("outbound", .str a.directTag)]] else [])

/-- The app's own routing, after the verbatim rules. -/
def appRules : List JsonObject :=
  SingBoxRouting.manualRules a.routing.rules a.matchAppsByProcess a.directTag ++ blockRules a ++
    profileRules a ++ directRules a

/-- `route.rules`; `none` where reading an embedded rule throws. -/
def routeRules : Option (List Json) :=
  if hasEmbeddedRoute parse a then
    ((embeddedRules parse a).mapM (retagged a)).map fun embedded =>
      (safetyRules parse a ++ embedded).map .object
  else
    some ((safetyRules parse a).map .object ++ verbatimRules parse a ++ (appRules a).map .object)

/-- `route.final`. -/
def routeFinal : Option String :=
  if hasEmbeddedRoute parse a then
    (contentOrThrow ((embeddedRoute parse a).bind fun route => route.lookup "final")).map
      fun final =>
      final.getD "proxy"
  else some ((a.routingProfile.map fun p =>
    SingBoxRouting.finalOutbound p a.directTag).getD "proxy")

/-- The `route` object of `SingBoxConfig.build`, without `rule_set`. -/
def buildRoute : Option JsonObject :=
  (routeFinal parse a).bind fun final =>
    (routeRules parse a).map fun rules =>
      [("final", .str final), ("auto_detect_interface", .bool a.autoDetectInterface),
        ("default_domain_resolver", .object [("server", .str "direct")]), ("rules", .array rules)]

end Rules

/-! ## What the core makes of it -/

/-- The core reads the rule as one that hands connections to the outbound of this tag. -/
def SendsTo (rule : Json) (tag : String) : Prop :=
  ∃ fields decoded, rule = .object fields ∧ decodeRule fields = some decoded ∧
    (decoded.action = .route tag ∨ decoded.action = .bypass tag)

def rulesOf (route : JsonObject) : List Json :=
  ((route.lookup "rules").bind jsonArrayOrNull).getD []

/-- No rule and no fall-through hands a connection to the plain `direct` outbound. -/
structure NeverDirect (route : JsonObject) : Prop where
  rules : ∀ rule ∈ rulesOf route, ¬SendsTo rule "direct"
  final : JsonObject.string route "final" ≠ some "direct"

/-- A rule sends to the outbound it names. -/
theorem outbound_of_sendsTo {fields : JsonObject} {tag : String} (htag : tag ≠ "")
    (h : SendsTo (.object fields) tag) : fields.lookup "outbound" = some (.str tag) := by
  obtain ⟨_, decoded, ⟨⟩, hdecoded, haction⟩ := h
  simp only [decodeRule, bind_eq_bind, bind_eq_some_iff, some.injEq] at hdecoded
  obtain ⟨action, -, outbound, hfield, decodedAction, hdecode, rfl⟩ := hdecoded
  have houtbound : outbound = tag := by
    unfold decodeAction at hdecode
    rcases haction with haction | haction <;> simp only at haction <;> subst haction
    · split_ifs at hdecode <;> simp_all
    · split_ifs at hdecode <;> simp_all
  subst houtbound
  unfold stringField at hfield
  split at hfield <;> simp_all [Json.str]

/-- What is asked of a rule that must not go direct. -/
def Clear (rule : JsonObject) : Prop := rule.lookup "outbound" ≠ some (.str "direct")

theorem Clear.not_sendsTo {rule : JsonObject} (h : Clear rule) : ¬SendsTo (.object rule) "direct" :=
  fun hsends => h (outbound_of_sendsTo (by decide) hsends)

section Proofs

variable {parse : String → Option Json} {a : BuildArgs}

theorem directTag_ne (hdirect : a.directViaBase = true) (hbase : a.baseExitTag.isSome = true) :
    a.directTag ≠ "direct" := by
  obtain ⟨tag, htag⟩ := isSome_iff_exists.mp hbase
  rw [BuildArgs.directTag, if_pos hdirect, htag, getD_some]
  unfold BuildArgs.baseExitTag at htag
  split_ifs at htag <;> obtain rfl := some.inj htag <;> decide

/-- The condition, then an outbound that is not `direct`. -/
theorem clear_outbound {matcher : JsonObject} {tag : String} (hm : matcher.lookup "outbound" = none)
    (htag : tag ≠ "direct") : Clear (matcher ++ [("outbound", .str tag)]) := by
  simp [Clear, lookup_append, hm, Json.str, htag]

/-- The condition, then an action that does not route. -/
theorem clear_action {matcher : JsonObject} {action : String}
    (hm : matcher.lookup "outbound" = none) : Clear (matcher ++ [("action", .str action)]) := by
  simp [Clear, lookup_append, hm]

variable (parse a) in
/-- The fields of the safety rules; one that routes goes direct or to the proxy. -/
theorem safetyRules_fields : ∀ rule ∈ safetyRules parse a, ∀ field ∈ rule, field.1 ≠ "rule_set" ∧
      (field.1 = "outbound" → field.2 = .str a.directTag ∨ field.2 = .str "proxy") := by
  simp only [safetyRules, forall_mem_append]
  refine ⟨⟨⟨⟨⟨⟨⟨⟨?_, ?_⟩, ?_⟩, ?_⟩, ?_⟩, ?_⟩, ?_⟩, ?_⟩, ?_⟩
  · unfold sniffRules
    split_ifs <;> simp [-Prod.forall]
  · unfold hijackRules
    split_ifs <;> simp [-Prod.forall]
  · unfold splitTunnelRules
    simp only
    split_ifs <;> simp [-Prod.forall]
  · unfold quicRules
    split_ifs <;> simp [-Prod.forall]
  · unfold dohRules
    split_ifs <;> simp [-Prod.forall]
  · unfold fakeDnsRules
    simp only
    split_ifs <;> simp [-Prod.forall]
  · unfold lanRules
    split_ifs <;> simp [-Prod.forall]
  · unfold resolveRules
    split_ifs <;> simp [-Prod.forall]
  · unfold familyRules
    simp only
    split_ifs <;> simp [-Prod.forall]

variable (parse) in
theorem safetyRules_clear (h : a.directTag ≠ "direct") :
    ∀ rule ∈ safetyRules parse a, Clear rule := by
  intro rule hrule hlookup
  rcases (safetyRules_fields parse a rule hrule _ (mem_of_lookup_eq_some hlookup)).2
      rfl with hto | hto
  · exact h (Json.literal.inj hto).2.symm
  · exact absurd (Json.literal.inj hto).2 (by decide)

/-- The rules of a bucket do what the bucket's target says. -/
theorem emitBucket_clear {sites ips : List String} {target : SingBoxRouting.Target}
    {ipVersion : Option Int} (h : target ≠ .outbound "direct") :
    ∀ rule ∈ SingBoxRouting.emitBucket sites ips target ipVersion, Clear rule := by
  intro rule hrule
  obtain ⟨field, hfield, values, rfl⟩ := SingBoxRouting.mem_emitBucket hrule
  have hmatcher : ([(field, Json.strs values)] ++ (ipVersion.map fun n =>
      ("ip_version", Json.num n)).toList).lookup "outbound" = none := by
    have hne : ("outbound" == field) = false := by
      simp only [beq_eq_false_iff_ne]
      rintro rfl
      exact absurd hfield (by decide)
    cases ipVersion <;> simp [hne]
  unfold SingBoxRouting.matchRule
  cases target with
  | reject => exact clear_action hmatcher
  | outbound tag => exact clear_outbound hmatcher fun e => h (e ▸ rfl)

theorem profileRules_clear (h : a.directTag ≠ "direct") : ∀ rule ∈ profileRules a, Clear rule := by
  unfold profileRules
  cases a.routingProfile with
  | none => simp
  | some p =>
    simp only [map_some, getD_some, SingBoxRouting.rules, mem_flatMap]
    rintro rule ⟨bucket, -, hrule⟩
    unfold SingBoxRouting.bucketRules at hrule
    rcases mem_append.mp hrule with hhide | hbucket
    · split_ifs at hhide
      · exact emitBucket_clear (by simp) rule hhide
      · simp at hhide
    · refine emitBucket_clear ?_ rule hbucket
      cases bucket <;> simp [SingBoxRouting.bucketTarget, h]

/-- The conditions of a structured rule name no outbound. -/
theorem lookup_manualMatchers (r : SingBoxRule) (matchAppsByProcess : Bool) :
    (SingBoxRouting.manualMatchers r matchAppsByProcess).lookup "outbound" = none := by
  have htexts : ∀ (name : String) (values : List String), name ≠ "outbound" →
      (SingBoxRouting.textsField name values).lookup "outbound" = none := fun name values hne =>
    lookup_fieldIf_ne hne.symm
  have hnums : ∀ (name : String) (values : List Int), name ≠ "outbound" →
      (SingBoxRouting.numsField name values).lookup "outbound" = none := fun name values hne =>
    lookup_fieldIf_ne hne.symm
  have happs : (if matchAppsByProcess then "process_name" else "package_name") ≠ "outbound" := by
    cases matchAppsByProcess <;> decide
  unfold SingBoxRouting.manualMatchers
  simp only [lookup_append, or_eq_none_iff]
  refine ⟨⟨⟨⟨⟨⟨⟨⟨⟨⟨⟨⟨⟨⟨⟨⟨⟨?_, ?_⟩, ?_⟩, ?_⟩, ?_⟩, ?_⟩, ?_⟩, ?_⟩, ?_⟩, ?_⟩, ?_⟩, ?_⟩, ?_⟩, ?_⟩, ?_⟩,
    ?_⟩, ?_⟩, htexts _ _ happs⟩
  all_goals first
    | exact htexts _ _ (by decide)
    | exact hnums _ _ (by decide)
    | exact lookup_fieldIf_ne (by decide)

theorem manualRules_clear (h : a.directTag ≠ "direct") :
    ∀ rule ∈ SingBoxRouting.manualRules a.routing.rules a.matchAppsByProcess a.directTag,
      Clear rule := by
  intro rule hrule
  obtain ⟨r, -, rfl⟩ := mem_map.mp hrule
  have hmatchers := lookup_manualMatchers r a.matchAppsByProcess
  generalize SingBoxRouting.manualMatchers r a.matchAppsByProcess = matchers at hmatchers
  unfold SingBoxRouting.manualAction
  split_ifs <;> simp [Clear, lookup_append, hmatchers, Json.str, h]

theorem appRules_clear (h : a.directTag ≠ "direct") : ∀ rule ∈ appRules a, Clear rule := by
  have hblock : ∀ rule ∈ blockRules a, Clear rule := by
    unfold blockRules
    split_ifs <;> simp [Clear, Json.str]
  have hdirect : ∀ rule ∈ directRules a, Clear rule := by
    unfold directRules
    split_ifs <;> simp [Clear, Json.str, h]
  simp only [appRules, forall_mem_append]
  exact ⟨⟨⟨manualRules_clear h, hblock⟩, profileRules_clear h⟩, hdirect⟩

theorem retagged_clear (h : a.directTag ≠ "direct") {rule result : JsonObject}
    (hrule : retagged a rule = some result) : Clear result := by
  rw [retagged, if_neg h] at hrule
  obtain ⟨outbound, hcontent, rfl⟩ := map_eq_some_iff.mp hrule
  split_ifs with hdirect
  · simp [Clear, Json.str, h]
  · intro hlookup
    refine hdirect ?_
    simpa [hlookup, Json.str] using hcontent.symm

/-- Without an embedded route nothing is sent to `direct`; with one it depends on its rules. -/
theorem routeRules_clear (h : a.directTag ≠ "direct") {rules : List Json}
    (hrules : routeRules parse a = some rules) : (∀ rule ∈ rules, ¬SendsTo rule "direct") ↔
      (hasEmbeddedRoute parse a = false → ∀ rule ∈ verbatimRules parse a,
        ¬SendsTo rule "direct") := by
  have hobjects : ∀ l : List JsonObject, (∀ rule ∈ l, Clear rule) →
      ∀ rule ∈ l.map Json.object, ¬SendsTo rule "direct" := by
    intro l hl rule hrule
    obtain ⟨fields, hfields, rfl⟩ := mem_map.mp hrule
    exact (hl fields hfields).not_sendsTo
  unfold routeRules at hrules
  split_ifs at hrules with hembedded
  · obtain ⟨embedded, hmap, rfl⟩ := map_eq_some_iff.mp hrules
    have hclear : ∀ rule ∈ embedded, Clear rule := by
      intro rule hrule
      obtain ⟨i, hi, rfl⟩ := getElem_of_mem hrule
      have hstep := List.forall₂_iff_get.mp (mapM_eq_some_iff.mp hmap)
      exact retagged_clear h (hstep.2 i (hstep.1 ▸ hi) hi)
    have hall := hobjects _ (forall_mem_append.mpr ⟨safetyRules_clear parse h, hclear⟩)
    exact ⟨fun _ hno => absurd hembedded (by simp [hno]), fun _ => hall⟩
  · obtain rfl := some.inj hrules
    have hsafety := hobjects _ (safetyRules_clear parse h)
    have happ := hobjects _ (appRules_clear h)
    simp only [forall_mem_append]
    constructor
    · exact fun hall _ => hall.1.2
    · exact fun hverbatim => ⟨⟨hsafety, hverbatim (by simpa using hembedded)⟩, happ⟩

theorem routeFinal_direct (h : a.directTag ≠ "direct") {final : String}
    (hfinal : routeFinal parse a = some final) :
    final ≠ "direct" ↔ (hasEmbeddedRoute parse a = true → ∀ route ∈ embeddedRoute parse a,
      JsonObject.string route "final" ≠ some "direct") := by
  unfold routeFinal at hfinal
  split_ifs at hfinal with hembedded
  · obtain ⟨content, hcontent, rfl⟩ := map_eq_some_iff.mp hfinal
    simp only [hembedded, forall_const]
    cases hroute : embeddedRoute parse a with
    | none =>
      obtain rfl : none = content := by simpa [hroute] using hcontent
      simp
    | some route =>
      have hstring : JsonObject.string route "final" = content := by
        rw [hroute, bind_some] at hcontent
        unfold JsonObject.string
        cases hvalue : route.lookup "final" with
        | none => simpa [hvalue] using hcontent
        | some value => cases value <;> simp_all [contentOrThrow]
      simp only [mem_def, some.injEq, forall_eq', hstring]
      cases content <;> simp
  · obtain rfl := some.inj hfinal
    simp only [hembedded, Bool.false_eq_true, false_imp_iff, iff_true]
    cases a.routingProfile with
    | none => simp
    | some p =>
      simp only [map_some, getD_some, SingBoxRouting.finalOutbound]
      split_ifs
      · decide
      · exact h

end Proofs

/-- The arguments under which nothing goes direct: an embedded route does not end in `direct`, and
    without one no verbatim rule names it. -/
structure NoPlainDirect (parse : String → Option Json) (a : BuildArgs) : Prop where
  embeddedFinal : hasEmbeddedRoute parse a = true → ∀ route ∈ embeddedRoute parse a,
    JsonObject.string route "final" ≠ some "direct"
  verbatim : hasEmbeddedRoute parse a = false → ∀ rule ∈ verbatimRules parse a,
    ¬SendsTo rule "direct"

/-- With a mandatory base tunnel, a generated route never hands a connection to the plain `direct`
    outbound exactly if the two sources that are not retagged do not. -/
theorem neverDirect_iff (parse : String → Option Json) (a : BuildArgs) (route : JsonObject)
    (h : buildRoute parse a = some route) (hdirect : a.directViaBase = true)
    (hbase : a.baseExitTag.isSome = true) : NeverDirect route ↔ NoPlainDirect parse a := by
  have htag := directTag_ne hdirect hbase
  simp only [buildRoute, bind_eq_some_iff, map_eq_some_iff] at h
  obtain ⟨final, hfinal, rules, hrules, rfl⟩ := h
  have hread : rulesOf [("final", .str final),
      ("auto_detect_interface", .bool a.autoDetectInterface),
      ("default_domain_resolver", .object [("server", .str "direct")]), ("rules", .array rules)] =
      rules := by
    simp [rulesOf]
  constructor
  · rintro ⟨hr, hf⟩
    rw [hread, routeRules_clear htag hrules] at hr
    refine ⟨(routeFinal_direct htag hfinal).mp ?_, hr⟩
    simpa [JsonObject.string, Json.str] using hf
  · rintro ⟨hf, hr⟩
    refine ⟨?_, ?_⟩
    · rw [hread, routeRules_clear htag hrules]
      exact hr
    · simpa [JsonObject.string, Json.str] using (routeFinal_direct htag hfinal).mpr hf

/-- A VLESS server over the SOCKS port of a mandatory tunnel, with Russian sites going direct. -/
def tunnelledArgs : BuildArgs where
  profile := { server := "a.example", serverPort := 443, uuid := "u" }
  olcrtcChainPort := some 9000
  directViaBase := true
  routing := { bypassRussia := true }

/-- The switches alone send nothing to it. -/
theorem toggles_never_direct :
    ∃ route, buildRoute (fun _ => none) tunnelledArgs = some route ∧ NeverDirect route :=
  ⟨_, rfl, (neverDirect_iff (fun _ => none) tunnelledArgs _ rfl rfl rfl).mpr
    ⟨fun h => absurd h (by decide), fun _ rule hrule => by
      simp [verbatimRules, tunnelledArgs] at hrule⟩⟩

/-- The verbatim rule the settings screen gives as its example. -/
def openAiDirect : JsonObject :=
  [("domain_suffix", .strs ["openai.com"]), ("outbound", .str "direct")]

def openAiDirectText : String :=
  "[\x7b\"domain_suffix\":[\"openai.com\"],\"outbound\":\"direct\"\x7d]"

def openAiParser (text : String) : Option Json :=
  if text = openAiDirectText then some (.array [.object openAiDirect]) else none

def verbatimArgs : BuildArgs :=
  { tunnelledArgs with routing := { customRulesJson := openAiDirectText } }

/-- It is copied into the route of a mandatory tunnel as it stands. -/
theorem verbatim_rule_goes_direct : ∃ route, buildRoute openAiParser verbatimArgs = some route ∧
      Json.object openAiDirect ∈ rulesOf route ∧ SendsTo (.object openAiDirect) "direct" ∧
      ¬NeverDirect route := by
  have hsends : SendsTo (.object openAiDirect) "direct" :=
    ⟨openAiDirect, ⟨openAiDirect, .route "direct"⟩, rfl, rfl, .inl rfl⟩
  have hverbatim : verbatimRules openAiParser verbatimArgs = [.object openAiDirect] := by
    have hblank : isBlank openAiDirectText = false := by decide
    simp [verbatimRules, verbatimArgs, hblank, openAiParser]
  have hmem : Json.object openAiDirect ∈ (safetyRules openAiParser verbatimArgs).map .object ++
      verbatimRules openAiParser verbatimArgs ++ (appRules verbatimArgs).map .object := by
    simp [hverbatim]
  exact ⟨_, rfl, hmem, hsends, fun hnever => hnever.rules _ hmem hsends⟩

end OlcVpn.SingBoxConfig
