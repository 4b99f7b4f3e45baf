/-
  IS A GENERATED XRAY CONFIGURATION CLOSED OVER ITS TAGS?

  The core looks every tag up when it needs it: a rule whose `outboundTag` nobody defines, or a
  chain through an outbound that is not there, is found out by the first connection that takes it.
  So the generator has to define whatever it names, for every combination of its arguments.

  THE SPECIFICATION reads the finished JSON value and nothing else: `outboundTags`, `inboundTags`,
  `ruleTargets`, and `links`, which walks the WHOLE value and collects every
  `sockopt.dialerProxy` and every `proxySettings.tag` at whatever depth.

  THE CRUX is that the generator's tags come in one fixed order with pieces left out
  (`definedTags_sublist`): distinctness is a sublist of one list of nine names, and "is it defined"
  is a look at one list.

  Two things can go wrong.  A call with `directViaBase` and without a second proxy pins resolver and
  FakeDNS connections to `proxy-base`, which only a cascade defines.  And the JSON texts of a share
  link are emitted as they are, with whatever chain they name.  `closed_iff_resolves` says that
  these are the only two.
-/
import OlcVpn.Xray.Build

namespace OlcVpn.Xray

open Kotlin Generate Locations List Option
open Option (some)

/-! ## Reading a configuration -/

variable (out : JsonObject)

def outboundTags : List String :=
  (objectsOf out "outbounds").filterMap fun o => JsonObject.string o "tag"

def inboundTags : List String :=
  (objectsOf out "inbounds").filterMap fun o => JsonObject.string o "tag"

def routingOf : JsonObject := ((out.lookup "routing").bind jsonObjectOrNull).getD []

/-- The outbounds the routing rules name. -/
def ruleTargets : List String :=
  (objectsOf (routingOf out) "rules").filterMap fun rule => JsonObject.string rule "outboundTag"

/-- The tag one field names as something to dial through. -/
def fieldLinks (name : String) (value : Json) : List String :=
  if name = "sockopt" then
    ((jsonObjectOrNull value).bind fun o => JsonObject.string o "dialerProxy").toList
  else if name = "proxySettings" then
    ((jsonObjectOrNull value).bind fun o => JsonObject.string o "tag").toList
  else []

mutual

/-- Every `sockopt.dialerProxy` and `proxySettings.tag` of a JSON value, at any depth. -/
def links : Json → List String
  | .null => []
  | .literal _ _ => []
  | .array items => linksOfItems items
  | .object fields => linksOfFields fields

def linksOfItems : List Json → List String
  | [] => []
  | item :: rest => links item ++ linksOfItems rest

def linksOfFields : List (String × Json) → List String
  | [] => []
  | (name, value) :: rest => fieldLinks name value ++ links value ++ linksOfFields rest

end

attribute [simp] fieldLinks links linksOfItems linksOfFields

/-- What the output names, it defines; and it defines no tag twice. -/
structure Closed (out : JsonObject) : Prop where
  targets : ∀ tag ∈ ruleTargets out, tag ∈ outboundTags out
  dialled : ∀ tag ∈ links (.object out), tag ∈ outboundTags out
  outboundsDistinct : (outboundTags out).Nodup
  inboundsDistinct : (inboundTags out).Nodup

/-! ## Links of the pieces -/

@[simp] theorem links_str (s : String) : links (.str s) = [] := by rw [Json.str, links]

@[simp] theorem links_num (n : Int) : links (.num n) = [] := by rw [Json.num, links]

@[simp] theorem links_bool (b : Bool) : links (.bool b) = [] := by rw [Json.bool, links]

theorem linksOfItems_eq (items : List Json) : linksOfItems items = items.flatMap links := by
  induction items with
  | nil => rfl
  | cons item rest ih => rw [linksOfItems, ih, flatMap_cons]

@[simp] theorem links_strs (texts : List String) : links (.strs texts) = [] := by
  rw [Json.strs, links, linksOfItems_eq, flatMap_map]
  simp

/-- The links of an object are those of its parts. -/
@[simp] theorem linksOfFields_append (o p : JsonObject) :
    linksOfFields (o ++ p) = linksOfFields o ++ linksOfFields p := by
  induction o with
  | nil => rfl
  | cons field rest ih =>
    obtain ⟨name, value⟩ := field
    rw [cons_append, linksOfFields, linksOfFields, ih]
    simp

@[simp] theorem linksOfFields_fieldIf (c : Bool) (name : String) (value : Json) :
    linksOfFields (fieldIf c name value) = if c then fieldLinks name value ++ links value
      else [] := by
  cases c <;> simp [fieldIf]

@[simp] theorem linksOfFields_fieldOf (name : String) (value : Option Json) :
    linksOfFields (fieldOf name value) =
      (value.map fun v => fieldLinks name v ++ links v).getD [] := by
  cases value <;> simp [fieldOf]

@[simp] theorem fieldLinks_str (name s : String) : fieldLinks name (.str s) = [] := by
  simp [Json.str]

@[simp] theorem fieldLinks_strs (name : String) (texts : List String) :
    fieldLinks name (.strs texts) = [] := by
  simp [Json.strs]

variable {o : JsonObject} {rt : Runtime}

/-- A map of texts holds no link, whatever its names are. -/
theorem linksOfFields_texts (h : ∀ field ∈ o, ∃ s, field.2 = Json.str s) :
    linksOfFields o = [] := by
  induction o with
  | nil => rfl
  | cons field rest ih =>
    obtain ⟨name, value⟩ := field
    obtain ⟨s, hs⟩ := h (name, value) mem_cons_self
    rw [linksOfFields, ih fun f hf => h f (mem_cons_of_mem _ hf)]
    simp only at hs
    simp only [hs, fieldLinks_str, links_str, append_nil]

/-- A rule with one condition on texts holds no link. -/
theorem linksOfFields_fieldRule {condition : String} (texts : List String) (tag : String) :
    linksOfFields (fieldRule condition (.strs texts) tag) = [] := by
  simp only [fieldRule, linksOfFields, links_str, links_strs, fieldLinks_str,
    fieldLinks_strs, append_nil]

/-! ## Links of a proxy hop -/

variable (p : ServerProfile)

/-- The chain the generator itself writes for a hop. -/
def hopLinks (traffic : TrafficSettings) (hop : Hop) : List String :=
  (if isLocalSocks p then [] else (socketDialer p traffic hop).toList) ++
    (proxySettingsTag p hop).toList

/-- The chains named inside the JSON texts of a share link, as far as they are emitted. -/
def suppliedLinks (rt : Runtime) (p : ServerProfile) : List String :=
  if isLocalSocks p then []
  else ((rt.objectOrNull p.finalMask).map linksOfFields).getD [] ++
    if networkName p = "xhttp" then ((xhttpExtraOf rt p).map linksOfFields).getD [] else []

theorem linksOfFields_securitySettings : linksOfFields (securitySettings p) = [] := by
  unfold securitySettings
  split_ifs <;> simp

/-- Only the extra object of a link can bring a link into the transport. -/
theorem linksOfFields_xhttpSettings (rt : Runtime) (p : ServerProfile) (highConcurrency : Bool) :
    linksOfFields (xhttpSettings rt p highConcurrency) =
      ((xhttpExtraOf rt p).map linksOfFields).getD [] := by
  have hxmux : linksOfFields xmux = [] := by simp [xmux]
  unfold xhttpSettings
  cases xhttpExtraOf rt p with
  | none => simp [hxmux]
  | some extra =>
    by_cases h : highConcurrency = true ∧ extra.lookup "xmux" = none
    · simp only [if_pos h]
      simp [hxmux]
    · simp only [if_neg h]
      simp

/-- And only an xhttp transport has one. -/
theorem linksOfFields_transportSettings (rt : Runtime) (p : ServerProfile)
    (highConcurrency : Bool) :
    linksOfFields (transportSettings rt p highConcurrency) =
      if networkName p = "xhttp" then ((xhttpExtraOf rt p).map linksOfFields).getD [] else [] := by
  unfold transportSettings
  by_cases hx : networkName p = "xhttp"
  · simp [hx, linksOfFields_xhttpSettings]
  · simp only [hx, if_false]
    split_ifs <;> simp

theorem linksOfFields_outboundSettings (hop : Hop) :
    linksOfFields (outboundSettings p hop) = [] := by
  have huser : linksOfFields (vnextUser p hop) = [] := by
    unfold vnextUser
    split_ifs <;> simp
  unfold outboundSettings
  split_ifs <;> simp [huser]

/-- The links of a hop: the chain the generator writes, and what the share link brought along. -/
theorem mem_links_buildProxyOutbound {p : ServerProfile} {traffic : TrafficSettings} {hop : Hop}
    {tag : String} : tag ∈ linksOfFields (buildProxyOutbound rt p traffic hop) ↔
      tag ∈ hopLinks p traffic hop ∨ tag ∈ suppliedLinks rt p := by
  have hproxy : linksOfFields (fieldOf "proxySettings"
      ((proxySettingsTag p hop).map fun tag => .object [("tag", .str tag)])) =
      (proxySettingsTag p hop).toList := by
    cases proxySettingsTag p hop <;>
      simp [JsonObject.string, Json.str]
  have hsock : ∀ dialer : Option String,
      linksOfFields (fieldOf "sockopt" (dialer.map sockopt)) = dialer.toList := by
    intro dialer
    cases dialer <;>
      simp [sockopt, JsonObject.string, Json.str]
  have hmask : linksOfFields (fieldOf "finalmask" ((rt.objectOrNull p.finalMask).map .object)) =
      ((rt.objectOrNull p.finalMask).map linksOfFields).getD [] := by
    cases rt.objectOrNull p.finalMask <;> simp
  have hstream : ∀ dialer, linksOfFields
      (buildStreamSettings rt p dialer hop.xhttpHighConcurrency) =
      dialer.toList ++ (((rt.objectOrNull p.finalMask).map linksOfFields).getD [] ++
        if networkName p = "xhttp" then ((xhttpExtraOf rt p).map linksOfFields).getD []
          else []) := by
    intro dialer
    rw [buildStreamSettings]
    simp only [linksOfFields_append, hsock, hmask, linksOfFields_securitySettings,
      linksOfFields_transportSettings]
    simp
  rw [buildProxyOutbound]
  simp only [linksOfFields_append, linksOfFields_fieldIf, hproxy]
  cases hsocks : isLocalSocks p
  · simp [linksOfFields_outboundSettings, hstream, hopLinks, suppliedLinks, hsocks]
    tauto
  · simp [linksOfFields_outboundSettings, hopLinks, suppliedLinks, hsocks]

/-! ## What is defined -/

/-- The tags of the outbounds, in the order they are emitted. -/
def definedTags (a : BuildArgs) (hasWireguard : Bool) : List String :=
  ["proxy"] ++
  (if a.second.isSome then ["proxy-base"] else []) ++
  (if a.cascadeLoopActive then ["cascade-loop-out"] else []) ++
  (if hasWireguard then ["wireguard-base"] else []) ++
  ["direct", "block"] ++
  (if a.fakeEnabled then ["dns-out"] else []) ++
  (if a.traffic.fragmentEnabled && a.olcrtcChainPort.isNone then ["fragment"] else []) ++
  (if a.olcrtcChainPort.isSome then ["olcrtc-out"] else [])

theorem optional_sublist (c : Bool) (tag : String) :
    List.Sublist (if c then [tag] else []) [tag] := by
  cases c
  · exact nil_sublist _
  · exact List.Sublist.refl _

/-- Every combination of arguments defines some of nine tags, in one order. -/
theorem definedTags_sublist (a : BuildArgs) (hasWireguard : Bool) :
    List.Sublist (definedTags a hasWireguard)
      ["proxy", "proxy-base", "cascade-loop-out", "wireguard-base", "direct", "block", "dns-out",
        "fragment", "olcrtc-out"] := by
  have hsplit : ["proxy", "proxy-base", "cascade-loop-out", "wireguard-base", "direct", "block",
      "dns-out", "fragment", "olcrtc-out"] = ["proxy"] ++ ["proxy-base"] ++ ["cascade-loop-out"] ++
      ["wireguard-base"] ++ ["direct", "block"] ++ ["dns-out"] ++ ["fragment"] ++ ["olcrtc-out"] :=
    rfl
  rw [hsplit, definedTags]
  iterate 7 apply List.Sublist.append
  all_goals first | exact optional_sublist _ _ | exact List.Sublist.refl _

/-- No two outbounds have the same tag. -/
theorem definedTags_nodup (a : BuildArgs) (hasWireguard : Bool) :
    (definedTags a hasWireguard).Nodup :=
  (definedTags_sublist a hasWireguard).nodup (by decide)

/-- The tag of a piece of the output. -/
def tagOf (o : JsonObject) : Option String := JsonObject.string o "tag"

@[simp] theorem tagOf_cons (tag : String) (rest : JsonObject) :
    tagOf (("tag", .str tag) :: rest) = some tag := by
  simp [tagOf, JsonObject.string, Json.str]

/-- A proxy outbound has the tag of its hop. -/
theorem tagOf_buildProxyOutbound (rt : Runtime) (p : ServerProfile) (traffic : TrafficSettings)
    (hop : Hop) : tagOf (buildProxyOutbound rt p traffic hop) = some hop.tag := by
  simp [buildProxyOutbound]

/-- A converted WireGuard base is a WireGuard outbound under the given tag. -/
theorem wireguardBase_shape {p : ServerProfile} {tag : String}
    (h : buildWireguardBaseOutbound rt p tag = some (some o)) :
    ∃ secret peerPub endpoint addresses mtu keepalive,
      o = wireguardOutbound tag secret peerPub endpoint addresses mtu keepalive := by
  unfold buildWireguardBaseOutbound at h
  split at h
  · simp at h
  · simp only [orReturn_eq_some_some, bind_eq_some_iff, map_eq_some_iff, some.injEq] at h
    obtain ⟨secret, -, peerPub, -, server, -, port, -, addresses, -, mtu, -, keepalive, -, rfl⟩ := h
    exact ⟨_, _, _, _, _, _, rfl⟩

/-- What the proofs below use of the converted base: its tag, and that it dials for itself. -/
theorem wireguardBase_spec {a : BuildArgs} (h : wireguardBaseOutbound rt a = some (some o)) :
    tagOf o = some "wireguard-base" ∧ linksOfFields o = [] := by
  unfold wireguardBaseOutbound at h
  split at h
  · simp at h
  · obtain ⟨secret, peerPub, endpoint, addresses, mtu, keepalive, rfl⟩ := wireguardBase_shape h
    refine ⟨by simp [wireguardOutbound], ?_⟩
    cases mtu <;> simp [wireguardOutbound]

section Output

variable {rt : Runtime} {a : BuildArgs} {wgBase : Option JsonObject}

/-! ## Reading the output back -/

/-- What the generator writes is found again in the configuration. -/
theorem objectsOf_outbounds : objectsOf (config rt a wgBase) "outbounds" = outbounds rt a wgBase :=
  objectsOf_eq (by simp [config, lookup_append, lookup_fieldIf_ne, lookup_fieldOf_ne])

theorem objectsOf_inbounds : objectsOf (config rt a wgBase) "inbounds" = inbounds a :=
  objectsOf_eq (by simp [config, lookup_append, lookup_fieldIf_ne, lookup_fieldOf_ne])

theorem objectsOf_rules : objectsOf (routingOf (config rt a wgBase)) "rules" = routingRules a :=
  objectsOf_eq (by simp [routingOf, routing, config, lookup_append, lookup_fieldIf_ne,
    lookup_fieldOf_ne])

theorem linksOfItems_objects (l : List JsonObject) :
    linksOfItems (l.map .object) = l.flatMap linksOfFields := by
  rw [linksOfItems_eq, flatMap_map]
  simp

/-- The outbound a rule names. -/
def ruleTarget (rule : JsonObject) : Option String := JsonObject.string rule "outboundTag"

/-- A rule of the generator has the target it was given. -/
theorem ruleTarget_fieldRule {condition : String} (h : condition ≠ "outboundTag") (values : Json)
    (tag : String) : ruleTarget (fieldRule condition values tag) = some tag := by
  have hne : ("outboundTag" == condition) = false := by simpa using h.symm
  simp [ruleTarget, fieldRule, JsonObject.string, hne, Json.str]

/-- What the rules of the generator itself name. -/
theorem targets_ownRules : (ownRules a).filterMap ruleTarget =
    (if a.cascadeLoopActive then ["proxy-base"] else []) ++
    (if a.fakeEnabled then ["dns-out", "dns-out"] else []) ++
    ((if remoteDnsDomains a.traffic = [] then [] else [a.pinnedTag]) ++
      (if remoteDnsIps a.traffic = [] then [] else [a.pinnedTag])) ++
    (if a.fakeEnabled then [a.pinnedTag] else []) ++
    (if a.bypassLan && !a.directViaBase then ["direct"] else []) ++
    (if a.blockQuic then ["block"] else []) ++
      (if (forbiddenFamily a).isSome then ["block"] else []) ++
    (if blockZero a then ["block"] else []) := by
  have hfamily : (familyBlockRules a).filterMap ruleTarget =
      if (forbiddenFamily a).isSome then ["block"] else [] := by
    unfold familyBlockRules
    cases forbiddenFamily a <;> simp [ruleTarget_fieldRule]
  have hdns : dnsHijackRules.filterMap ruleTarget = ["dns-out", "dns-out"] := by
    simp [dnsHijackRules, ruleTarget, JsonObject.string, Json.str]
  have hquic : ruleTarget quicBlockRule = some "block" := by
    simp [quicBlockRule, ruleTarget, JsonObject.string, Json.str]
  rw [ownRules, remoteDnsProxyRules]
  simp only [filterMap_append, apply_ite (List.filterMap ruleTarget), filterMap_nil,
    filterMap_cons, hfamily, hdns, hquic, cascadeLoopRule, fakeDnsProxyRule, lanBypassRule,
    blockZeroRule]
  simp [ruleTarget_fieldRule]

/-- A rule of the profile has one condition, and a bucket's tag as its target. -/
theorem mem_profileRules {rule : JsonObject} (h : rule ∈ (a.routingProfile.map rules).getD []) :
    ∃ condition ∈ ["domain", "ip", "network"], ∃ texts bucket,
      rule = fieldRule condition (.strs texts) (bucketTag bucket) := by
  cases hp : a.routingProfile with
  | none => simp [hp] at h
  | some p =>
    rw [hp] at h
    exact mem_rules h

/-- The rules of a profile name the three bucket tags. -/
theorem targets_profileRules {tag : String}
    (h : tag ∈ ((a.routingProfile.map rules).getD []).filterMap ruleTarget) :
    ∃ bucket, tag = bucketTag bucket := by
  obtain ⟨rule, hrule, htarget⟩ := mem_filterMap.mp h
  obtain ⟨condition, hcondition, texts, bucket, rfl⟩ := mem_profileRules hrule
  rw [ruleTarget_fieldRule (by rintro rfl; simp at hcondition)] at htarget
  exact ⟨bucket, (some.inj htarget).symm⟩

/-- The routing rules hold no chain. -/
theorem links_routingRules : (routingRules a).flatMap linksOfFields = [] := by
  have hfamily : (familyBlockRules a).flatMap linksOfFields = [] := by
    unfold familyBlockRules
    cases forbiddenFamily a <;> simp [linksOfFields_fieldRule]
  have hdns : dnsHijackRules.flatMap linksOfFields = [] := by
    simp [dnsHijackRules]
  have hquic : linksOfFields quicBlockRule = [] := by simp [quicBlockRule]
  have hown : (ownRules a).flatMap linksOfFields = [] := by
    rw [ownRules, remoteDnsProxyRules]
    simp [apply_ite (List.flatMap linksOfFields), hfamily, hdns, hquic, cascadeLoopRule,
      fakeDnsProxyRule, lanBypassRule, blockZeroRule, linksOfFields_fieldRule]
  have hprofile : ((a.routingProfile.map rules).getD []).flatMap linksOfFields = [] := by
    refine flatMap_eq_nil_iff.mpr fun rule hrule => ?_
    obtain ⟨condition, -, texts, bucket, rfl⟩ := mem_profileRules hrule
    exact linksOfFields_fieldRule _ _
  rw [routingRules, flatMap_append, hown, hprofile, append_nil]

/-- Neither inbounds nor DNS name an outbound. -/
theorem links_inbounds : (inbounds a).flatMap linksOfFields = [] := by
  have hsettings : linksOfFields (socksSettings a.socksUsername a.socksPassword) = [] := by
    unfold socksSettings
    split_ifs <;> simp
  have hsniffing : linksOfFields (sniffing a) = [] := by
    simp [sniffing]
  unfold inbounds
  split_ifs <;>
    simp [hsettings, hsniffing, cascadeLoopInbound]

theorem links_dns : linksOfFields (dns rt a) = [] := by
  have hhosts : linksOfFields (hosts rt a) = [] := by
    refine linksOfFields_texts fun field hfield => ?_
    have hmem := mem_of_mem_toLinkedMap hfield
    simp only [mem_append, List.mem_map] at hmem
    rcases hmem with (hru | ⟨regex, -, rfl⟩) | ⟨entry, -, rfl⟩
    · split_ifs at hru
      · obtain ⟨host, -, rfl⟩ := List.mem_map.mp hru
        exact ⟨_, rfl⟩
      · simp at hru
    · exact ⟨_, rfl⟩
    · exact ⟨_, rfl⟩
  simp [dns, hhosts]

/-- Only outbounds chain. -/
theorem links_config :
    linksOfFields (config rt a wgBase) = (outbounds rt a wgBase).flatMap linksOfFields := by
  have hpolicy : ∀ timeout, linksOfFields (policy timeout) = [] := by
    simp [policy]
  have hrouting : linksOfFields (routing a) = [] := by
    simp [routing, linksOfItems_objects, links_routingRules]
  rw [config]
  cases a.handshakeTimeoutSec <;>
    simp [linksOfItems_objects, links_inbounds, links_dns, hrouting, hpolicy, fakeDnsPool]

/-! ## What is defined and what is named -/

/-- THE TAGS THAT ARE DEFINED, read off the generated outbounds. -/
theorem tags_outbounds (hwg : ∀ o ∈ wgBase, tagOf o = some "wireguard-base") :
    (outbounds rt a wgBase).filterMap tagOf = definedTags a wgBase.isSome := by
  have hproxy : (proxyOutbounds rt a wgBase).filterMap tagOf =
      ["proxy"] ++ (if a.second.isSome then ["proxy-base"] else []) ++
        (if a.cascadeLoopActive then ["cascade-loop-out"] else []) := by
    unfold proxyOutbounds
    cases hs : a.second with
    | none =>
      have hloop : a.cascadeLoopActive = false := by simp [BuildArgs.cascadeLoopActive, hs]
      simp [tagOf_buildProxyOutbound, singleHop, hloop]
    | some second =>
      cases a.cascadeLoopActive <;>
        simp [tagOf_buildProxyOutbound, secondHop, baseHop, cascadeLoopOutbound]
  have hbase : wgBase.toList.filterMap tagOf = if wgBase.isSome then ["wireguard-base"]
      else [] := by
    cases wgBase with
    | none => rfl
    | some o => simp [hwg o rfl]
  have holcrtc : (a.olcrtcChainPort.map fun port =>
      olcrtcSocksOutbound "olcrtc-out" port a.olcrtcChainUser a.olcrtcChainPass).toList.filterMap
        tagOf =
        if a.olcrtcChainPort.isSome then ["olcrtc-out"] else [] := by
    cases a.olcrtcChainPort <;> simp [olcrtcSocksOutbound]
  rw [outbounds, definedTags]
  simp only [filterMap_append, hproxy, hbase, holcrtc, apply_ite (List.filterMap tagOf),
    filterMap_nil, filterMap_cons]
  simp [directOutbound, blockOutbound, dnsOutOutbound, fragmentOutbound]

theorem outboundTags_config (hwg : ∀ o ∈ wgBase, tagOf o = some "wireguard-base") :
    outboundTags (config rt a wgBase) = definedTags a wgBase.isSome := by
  rw [outboundTags, objectsOf_outbounds]
  exact tags_outbounds hwg

/-- The tags that are asked for are the targets of the rules. -/
theorem ruleTargets_config :
    ruleTargets (config rt a wgBase) = (routingRules a).filterMap ruleTarget := by
  rw [ruleTargets, objectsOf_rules]
  rfl

variable {tag : String} {p : ServerProfile}

/-- What the rules can name, and when. -/
theorem routingTarget_cases (h : tag ∈ (routingRules a).filterMap ruleTarget) :
    (tag = "proxy-base" ∧ a.cascadeLoopActive = true) ∨ (tag = "dns-out" ∧ a.fakeEnabled = true) ∨
    (tag = a.pinnedTag ∧ ¬(a.fakeEnabled = false ∧ remoteDnsDomains a.traffic = [] ∧
      remoteDnsIps a.traffic = [])) ∨ tag ∈ ["proxy", "direct", "block"] := by
  rw [routingRules, filterMap_append, targets_ownRules] at h
  rcases mem_append.mp h with hown | hprofile
  · simp only [mem_append, mem_ite_nil_right, mem_ite_nil_left, mem_cons, not_mem_nil, or_false]
      at hown
    rcases hown with
      ((((((⟨hloop, rfl⟩ | ⟨hfake, rfl | rfl⟩) | ⟨hdomains, rfl⟩ | ⟨hips, rfl⟩) | ⟨hfake, rfl⟩) |
        ⟨-, rfl⟩) | ⟨-, rfl⟩) | ⟨-, rfl⟩) | ⟨-, rfl⟩
    · exact .inl ⟨rfl, hloop⟩
    · exact .inr (.inl ⟨rfl, hfake⟩)
    · exact .inr (.inl ⟨rfl, hfake⟩)
    · exact .inr (.inr (.inl ⟨rfl, fun hall => hdomains hall.2.1⟩))
    · exact .inr (.inr (.inl ⟨rfl, fun hall => hips hall.2.2⟩))
    · exact .inr (.inr (.inl ⟨rfl, fun hall => by simp [hfake] at hall⟩))
    all_goals exact .inr (.inr (.inr (by decide)))
  · obtain ⟨bucket, rfl⟩ := targets_profileRules hprofile
    exact .inr (.inr (.inr (by cases bucket <;> decide)))

/-- Whatever the arguments are, the rules name five tags. -/
theorem mem_routingTargets (h : tag ∈ (routingRules a).filterMap ruleTarget) :
    tag ∈ ["proxy", "proxy-base", "direct", "block", "dns-out"] := by
  obtain ⟨rfl, -⟩ | ⟨rfl, -⟩ | ⟨rfl, -⟩ | h := routingTarget_cases h
  · decide
  · decide
  · unfold BuildArgs.pinnedTag
    split_ifs <;> decide
  · simp only [mem_cons, not_mem_nil, or_false] at h
    rcases h with rfl | rfl | rfl <;> decide

theorem tags_inbounds : (inbounds a).filterMap tagOf =
    ["socks-in"] ++ if a.cascadeLoopActive then ["cascade-loop-in"] else [] := by
  unfold inbounds
  cases a.cascadeLoopActive <;> simp [cascadeLoopInbound]

/-- A hop dials through its detour, or through the fragment outbound where it has none. -/
theorem mem_hopLinks {traffic : TrafficSettings} {hop : Hop} (h : tag ∈ hopLinks p traffic hop) :
    hop.detourTag = some tag ∨ tag = "fragment" ∧ traffic.fragmentEnabled = true ∧
      hop.detourTag = none := by
  have hdialer : dialerProxyTag p hop = some tag → hop.detourTag = some tag := by
    unfold dialerProxyTag
    split_ifs <;> simp
  rcases mem_append.mp h with hsocket | hproxy
  · split_ifs at hsocket with hlocal
    · simp at hsocket
    · simp only [socketDialer, mem_toList] at hsocket
      cases hd : dialerProxyTag p hop with
      | some via =>
        rw [hd] at hsocket hdialer
        exact .inl (hdialer hsocket)
      | none =>
        rw [hd] at hsocket
        simp only at hsocket
        split_ifs at hsocket with hfragment
        obtain ⟨hon, hnone⟩ : traffic.fragmentEnabled = true ∧ hop.detourTag = none := by
          simpa using hfragment
        exact .inr ⟨by simpa using hsocket.symm, hon, hnone⟩
  · simp only [proxySettingsTag, mem_toList] at hproxy
    split_ifs at hproxy
    exact .inl hproxy

/-- The exit of the tunnel is among the outbounds. -/
theorem baseExitTag_defined (h : a.baseExitTag wgBase = some tag) :
    tag ∈ definedTags a wgBase.isSome := by
  unfold BuildArgs.baseExitTag at h
  split_ifs at h with hwg hport
  · obtain rfl : "wireguard-base" = tag := by simpa using h
    simp [definedTags, hwg]
  · obtain rfl : "olcrtc-out" = tag := by simpa using h
    simp [definedTags, hport]

/-- The fragment outbound is there whenever a hop dials through it. -/
theorem fragment_defined (hon : a.traffic.fragmentEnabled = true)
    (h : a.baseExitTag wgBase = none) :
    "fragment" ∈ definedTags a wgBase.isSome := by
  have hport : a.olcrtcChainPort.isNone = true := by
    unfold BuildArgs.baseExitTag at h
    split_ifs at h with hwg hport
    simpa using hport
  simp [definedTags, hon, hport]

/-- The chain of the main hop is defined, whatever tag the hop itself has. -/
theorem mainHop_defined {hop : Hop} (hhop : hop.detourTag = a.baseExitTag wgBase)
    (h : tag ∈ hopLinks p a.traffic hop) : tag ∈ definedTags a wgBase.isSome := by
  rcases mem_hopLinks h with hdetour | ⟨rfl, hon, hnone⟩
  · exact baseExitTag_defined (hhop ▸ hdetour)
  · exact fragment_defined hon (hhop ▸ hnone)

/-- And so is what the second hop dials through. -/
theorem secondHop_defined (hsecond : a.second.isSome = true)
    (h : tag ∈ hopLinks p a.traffic (secondHop a)) : tag ∈ definedTags a wgBase.isSome := by
  rcases mem_hopLinks h with hdetour | ⟨-, -, hnone⟩
  · cases hloop : a.cascadeLoopActive <;>
      simp only [secondHop, hloop, some.injEq] at hdetour
    · subst hdetour
      simp [definedTags, hsecond]
    · subst hdetour
      simp [definedTags, hloop]
  · simp [secondHop] at hnone

/-- The servers that become outbounds. -/
def emittedProfiles (a : BuildArgs) : List ServerProfile := a.second.toList ++ [a.profile]

/-- The links of all outbounds are those of the proxies and of the direct one. -/
theorem mem_links_outbounds (hwg : ∀ o ∈ wgBase, linksOfFields o = []) :
    tag ∈ (outbounds rt a wgBase).flatMap linksOfFields ↔
      tag ∈ (proxyOutbounds rt a wgBase).flatMap linksOfFields ∨
        directDialer a wgBase = some tag := by
  have hbase : wgBase.toList.flatMap linksOfFields = [] := by
    cases wgBase with
    | none => rfl
    | some o => simp [hwg o rfl]
  have holcrtc : (a.olcrtcChainPort.map fun port => olcrtcSocksOutbound "olcrtc-out" port
      a.olcrtcChainUser a.olcrtcChainPass).toList.flatMap linksOfFields = [] := by
    cases a.olcrtcChainPort <;>
      simp [olcrtcSocksOutbound]
  have hdirect : linksOfFields (directOutbound a wgBase) = (directDialer a wgBase).toList := by
    cases hd : directDialer a wgBase <;>
      simp [directOutbound, hd, sockopt, JsonObject.string, Json.str]
  rw [outbounds]
  simp only [flatMap_append, hbase, holcrtc, apply_ite (List.flatMap linksOfFields),
    flatMap_nil, flatMap_cons, hdirect]
  simp [blockOutbound, dnsOutOutbound, fragmentOutbound]

/-- What the proxy hops chain through: only what a share link brought along can be undefined. -/
theorem proxyLinks_iff :
    (∀ tag ∈ (proxyOutbounds rt a wgBase).flatMap linksOfFields,
      tag ∈ definedTags a wgBase.isSome) ↔
      ∀ p ∈ emittedProfiles a, ∀ tag ∈ suppliedLinks rt p, tag ∈ definedTags a wgBase.isSome := by
  have hloop : linksOfFields (cascadeLoopOutbound a) = [] := by
    simp [cascadeLoopOutbound]
  unfold proxyOutbounds emittedProfiles
  cases hs : a.second with
  | none =>
    simp only [flatMap_cons, flatMap_nil, append_nil, mem_links_buildProxyOutbound,
      toList_none, nil_append, mem_singleton, forall_eq]
    constructor
    · exact fun h tag htag => h tag (.inr htag)
    · rintro h tag (hown | hsupplied)
      · exact mainHop_defined rfl hown
      · exact h tag hsupplied
  | some second =>
    have hsome : a.second.isSome = true := by simp [hs]
    have hrelay : (if a.cascadeLoopActive = true then [cascadeLoopOutbound a] else []).flatMap
        linksOfFields = [] := by
      split_ifs <;> simp [hloop]
    simp only [flatMap_cons, append_nil, hrelay, mem_append,
      mem_links_buildProxyOutbound, toList_some, cons_append, nil_append,
      mem_cons, not_mem_nil, or_false, forall_eq_or_imp, forall_eq]
    constructor
    · exact fun h => ⟨fun tag htag => h tag (.inl (.inr htag)),
        fun tag htag => h tag (.inr (.inr htag))⟩
    · rintro ⟨hsecond, hmain⟩ tag ((hown | hsupplied) | (hown | hsupplied))
      · exact secondHop_defined hsome hown
      · exact hsecond tag hsupplied
      · exact mainHop_defined rfl hown
      · exact hmain tag hsupplied

/-- Nothing is pinned to the main hop of a cascade unless there is a cascade. -/
def PinnedDefined (a : BuildArgs) : Prop :=
  a.directViaBase = true → a.second.isSome = true ∨
    a.fakeEnabled = false ∧ remoteDnsDomains a.traffic = [] ∧ remoteDnsIps a.traffic = []

/-- The rules' targets are defined exactly if the pinned outbound is. -/
theorem routingTargets_iff (hasWireguard : Bool) :
    (∀ tag ∈ (routingRules a).filterMap ruleTarget, tag ∈ definedTags a hasWireguard) ↔
      PinnedDefined a := by
  constructor
  · intro h hdirect
    by_contra hnot
    simp only [not_or, not_and_or, Bool.not_eq_true, Bool.not_eq_false] at hnot
    obtain ⟨hsecond, hpinned⟩ := hnot
    -- then some rule names `proxy-base`, and nobody defines it
    have hundefined : "proxy-base" ∉ definedTags a hasWireguard := by
      have hloop : a.cascadeLoopActive = false := by simp [BuildArgs.cascadeLoopActive, hsecond]
      simp [definedTags, hsecond, hloop]
    refine hundefined (h "proxy-base" ?_)
    have htag : a.pinnedTag = "proxy-base" := by simp [BuildArgs.pinnedTag, hdirect]
    rw [routingRules, filterMap_append, targets_ownRules]
    rcases hpinned with hfake | hdomains | hips
    · simp [htag, hfake]
    · simp [htag, hdomains]
    · simp [htag, hips]
  · intro h tag htag
    obtain ⟨rfl, hloop⟩ | ⟨rfl, hfake⟩ | ⟨rfl, hsome⟩ | htag := routingTarget_cases htag
    · simp only [BuildArgs.cascadeLoopActive, Bool.and_eq_true] at hloop
      simp [definedTags, hloop.1]
    · simp [definedTags, hfake]
    · cases hdirect : a.directViaBase
      · simp [BuildArgs.pinnedTag, hdirect, definedTags]
      · have hsecond := (h hdirect).resolve_right hsome
        simp [BuildArgs.pinnedTag, hdirect, definedTags, hsecond]
    · simp only [mem_cons, not_mem_nil, or_false] at htag
      rcases htag with rfl | rfl | rfl <;> simp [definedTags]

/-- The arguments under which the output is closed: no pinned connection without a cascade, and
    every chain a share link brings along leads to an outbound that is emitted. -/
structure Resolves (rt : Runtime) (a : BuildArgs) : Prop where
  pinned : PinnedDefined a
  supplied : ∀ p ∈ emittedProfiles a, ∀ tag ∈ suppliedLinks rt p,
    tag ∈ definedTags a ((wireguardBaseOutbound rt a).join).isSome

/-- An output is the configuration over the converted base, if there is one. -/
theorem build_inv {out : JsonObject} (h : build rt a = some out) :
    ∃ wgBase, out = config rt a wgBase ∧ (wireguardBaseOutbound rt a).join = wgBase ∧
      ∀ o ∈ wgBase, tagOf o = some "wireguard-base" ∧ linksOfFields o = [] := by
  obtain ⟨wgBase, hconv, rfl⟩ := map_eq_some_iff.mp h
  refine ⟨wgBase, rfl, by rw [hconv]; rfl, ?_⟩
  rintro o rfl
  exact wireguardBase_spec hconv

/-- A generated configuration is closed over its tags exactly if its arguments resolve. -/
theorem closed_iff_resolves (rt : Runtime) (a : BuildArgs) (out : JsonObject)
    (h : build rt a = some out) : Closed out ↔ Resolves rt a := by
  obtain ⟨wgBase, rfl, hjoin, hspec⟩ := build_inv h
  have htags : outboundTags (config rt a wgBase) = definedTags a wgBase.isSome :=
    outboundTags_config fun o ho => (hspec o ho).1
  have hlinks : ∀ tag, tag ∈ links (.object (config rt a wgBase)) ↔
      tag ∈ (proxyOutbounds rt a wgBase).flatMap linksOfFields ∨
        directDialer a wgBase = some tag := by
    intro tag
    rw [links, links_config]
    exact mem_links_outbounds fun o ho => (hspec o ho).2
  have hdirect : ∀ tag, directDialer a wgBase = some tag → tag ∈ definedTags a wgBase.isSome := by
    intro tag htag
    unfold directDialer at htag
    split_ifs at htag
    exact baseExitTag_defined htag
  constructor
  · intro hclosed
    refine ⟨?_, ?_⟩
    · rw [← routingTargets_iff wgBase.isSome, ← ruleTargets_config, ← htags]
      exact hclosed.targets
    · rw [hjoin, ← proxyLinks_iff]
      intro tag htag
      exact htags ▸ hclosed.dialled tag ((hlinks tag).mpr (.inl htag))
  · rintro ⟨hpinned, hsupplied⟩
    rw [hjoin, ← proxyLinks_iff] at hsupplied
    refine ⟨?_, ?_, ?_, ?_⟩
    · rw [htags, ruleTargets_config, routingTargets_iff]
      exact hpinned
    · intro tag htag
      rw [htags]
      rcases (hlinks tag).mp htag with hproxy | hdir
      · exact hsupplied tag hproxy
      · exact hdirect tag hdir
    · rw [htags]
      exact definedTags_nodup a _
    · rw [inboundTags, objectsOf_inbounds,
        show (fun o : JsonObject => JsonObject.string o "tag") = tagOf
        from rfl, tags_inbounds]
      cases a.cascadeLoopActive <;> decide

end Output

/-- A platform that parses no JSON. -/
def plainRuntime : Runtime where
  parse _ := none
  toDoubleOrNull _ := none
  hostRegexps := []

/-- A VLESS server over the SOCKS port of a mandatory tunnel. -/
def tunnelledArgs : BuildArgs where
  profile := { server := "a.example", serverPort := 443, uuid := "u" }
  listenPort := 1080
  olcrtcChainPort := some 9000
  directViaBase := true

/-- The same with a second server on top. -/
def cascadeArgs : BuildArgs := { tunnelledArgs with secondProfile := some tunnelledArgs.profile }

/-- With a second server what is pinned to the first one is defined. -/
theorem cascade_closed : ∃ out, build plainRuntime cascadeArgs = some out ∧ Closed out := by
  refine ⟨_, rfl, (closed_iff_resolves plainRuntime cascadeArgs _ rfl).mpr ⟨fun _ => ?_, ?_⟩⟩
  · exact .inl (by decide)
  · have hprofiles : emittedProfiles cascadeArgs =
        [tunnelledArgs.profile, tunnelledArgs.profile] := by
      rfl
    have hnone : suppliedLinks plainRuntime tunnelledArgs.profile = [] := by decide
    intro p hp tag htag
    rw [hprofiles] at hp
    obtain rfl : p = tunnelledArgs.profile := by simpa using hp
    simp [hnone] at htag

/-- Without the second server the resolver's rule names an outbound that is not there. -/
theorem tunnelled_not_closed : ∃ out, build plainRuntime tunnelledArgs = some out ∧
      "proxy-base" ∈ ruleTargets out ∧ "proxy-base" ∉ outboundTags out ∧ ¬Closed out := by
  have hnamed : "proxy-base" ∈ ruleTargets (config plainRuntime tunnelledArgs none) := by
    decide
  have hundefined : "proxy-base" ∉ outboundTags (config plainRuntime tunnelledArgs none) := by
    decide
  exact ⟨_, rfl, hnamed, hundefined, fun hclosed => hundefined (hclosed.targets _ hnamed)⟩

end OlcVpn.Xray
