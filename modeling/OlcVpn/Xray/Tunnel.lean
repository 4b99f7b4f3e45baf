/-
  IS THE MANDATORY TUNNEL EVER BYPASSED by a generated Xray configuration?

  Some engines carry everything over a base tunnel: a WireGuard outbound, or the SOCKS port of
  olcRTC.  With `directViaBase` even the `direct` bucket has to leave through it, so whichever
  outbound a connection is given, the chain of outbounds it dials through must END at the base, or
  at an outbound that dials nothing (`block`, `dns-out`).

  THE SPECIFICATION follows `nextHop`, the one outbound an outbound dials through, read off the
  finished JSON value; it starts at the default outbound and at every outbound a rule names.

  THE CRUX is `dialsThrough_hop`: a hop with a detour says so in one of two ways, EXCEPT a local
  SOCKS hop whose detour has to be written as a socket option.  Such a hop is emitted without stream
  settings, so the option has no place to stand, and `proxySettings` is not written either.

  `tunnelled_iff` is exact.  The relay of an xhttp cascade is a chain that ends at a loopback
  outbound by design; `relay_reaches_base` follows it through the relay's own inbound.
-/
import OlcVpn.Lib.Chain
import OlcVpn.Xray.Closed

namespace OlcVpn.Xray

open Kotlin Generate Locations Lib List Option

/-! ## Following the chain -/

/-- The outbound an outbound dials through. -/
def dialsThrough (o : JsonObject) : Option String :=
  (((objectAt o "streamSettings").bind fun s => objectAt s "sockopt").bind fun k =>
    JsonObject.string k "dialerProxy").or
  ((objectAt o "proxySettings").bind fun s => JsonObject.string s "tag")

variable (out : JsonObject)

/-- The same between tags. -/
def nextHop (tag : String) : Option String :=
  ((objectsOf out "outbounds").find? fun o => tagOf o = some tag).bind dialsThrough

/-- Where a connection can start: the default outbound, which is the first one, and the outbounds
    the rules name. -/
def starts : List String :=
  (outboundTags out).take 1 ++ (ruleTargets out).filter (· ∈ outboundTags out)

/-- Every chain ends, and it ends at the base tunnel or at an outbound that dials nothing. -/
def NeverBypassed (base : String) : Prop :=
  ∀ start ∈ starts out, (∃ last, Ends (nextHop out) start last) ∧
    ∀ last, Ends (nextHop out) start last → last = base ∨ last = "block" ∨ last = "dns-out"

/-- The tag of the base tunnel, if one is usable. -/
def usableBase (rt : Runtime) (a : BuildArgs) : Option String :=
  a.baseExitTag (wireguardBaseOutbound rt a).join

/-! ## One hop -/

/-- A hop that has a detour but is emitted without one. -/
def unchained (p : ServerProfile) (hop : Hop) : Bool := isLocalSocks p && needsDialerProxy p hop

/-- The stream settings write the given dialer, and no other. -/
theorem sockopt_buildStreamSettings (rt : Runtime) (p : ServerProfile) (dialer : Option String)
    (highConcurrency : Bool) : (objectAt
      (buildStreamSettings rt p dialer highConcurrency) "sockopt").bind
      (fun k => JsonObject.string k "dialerProxy") = dialer := by
  have hsecurity : (securitySettings p).lookup "sockopt" = none := by
    unfold securitySettings
    split_ifs <;> simp
  have htransport : (transportSettings rt p highConcurrency).lookup "sockopt" = none := by
    unfold transportSettings
    split_ifs <;> simp
  have hlookup : (buildStreamSettings rt p dialer highConcurrency).lookup "sockopt" =
      dialer.map sockopt := by
    rw [buildStreamSettings]
    simp [lookup_append, hsecurity, htransport, lookup_fieldOf_ne]
  rw [objectAt, hlookup]
  cases dialer <;> simp [sockopt, JsonObject.string, Json.str]

/-- What a hop with a detour dials through. -/
theorem dialsThrough_hop {rt : Runtime} {p : ServerProfile} {traffic : TrafficSettings} {hop : Hop}
    {via : String} (h : hop.detourTag = some via) :
    dialsThrough (buildProxyOutbound rt p traffic hop) = if unchained p hop then none
      else some via := by
  have hstream : objectAt (buildProxyOutbound rt p traffic hop) "streamSettings" =
      if isLocalSocks p then none else
        some (buildStreamSettings rt p (socketDialer p traffic hop) hop.xhttpHighConcurrency) := by
    cases hs : isLocalSocks p <;>
      simp [hs, objectAt, buildProxyOutbound, lookup_append, lookup_fieldIf_ne, lookup_fieldOf_ne]
  have hproxy : (objectAt (buildProxyOutbound rt p traffic hop) "proxySettings").bind
      (fun s => JsonObject.string s "tag") = proxySettingsTag p hop := by
    cases ht : proxySettingsTag p hop <;>
      simp [ht, objectAt, buildProxyOutbound, lookup_append, lookup_fieldIf_ne,
        JsonObject.string, Json.str]
  have hdialer : dialerProxyTag p hop = if needsDialerProxy p hop then some via else none := by
    rw [dialerProxyTag, h]
  have hsocket : socketDialer p traffic hop = if needsDialerProxy p hop then some via
      else none := by
    rw [socketDialer, hdialer]
    cases needsDialerProxy p hop <;> simp [h]
  have hsettings : proxySettingsTag p hop = if needsDialerProxy p hop then none else some via := by
    rw [proxySettingsTag, hdialer, h]
    cases needsDialerProxy p hop <;> simp
  rw [dialsThrough, hproxy, hstream, hsettings, unchained]
  cases isLocalSocks p
  · simp only [Bool.false_eq_true, if_false, bind_some, sockopt_buildStreamSettings, hsocket,
      Bool.false_and]
    cases needsDialerProxy p hop <;> rfl
  · cases needsDialerProxy p hop <;> rfl

/-- The chain's next outbound is one of the links of the outbound. -/
theorem mem_links_of_dialsThrough {o : JsonObject} {tag : String} (h : dialsThrough o = some tag) :
    tag ∈ linksOfFields o := by
  have hfield : ∀ {l : JsonObject} {name : String} {value : Json}, l.lookup name = some value →
      ∀ t, t ∈ fieldLinks name value ∨ t ∈ links value → t ∈ linksOfFields l := by
    intro l name value hl t ht
    obtain ⟨before, rest, rfl, -⟩ := lookup_eq_some_iff.mp hl
    simp only [linksOfFields_append, linksOfFields, mem_append]
    tauto
  rw [dialsThrough, or_eq_some_iff] at h
  rcases h with hsocket | ⟨-, hproxy⟩
  · simp only [objectAt, bind_eq_some_iff] at hsocket
    obtain ⟨sock, ⟨stream, ⟨value, hvalue, hobject⟩, value', hvalue', hobject'⟩, htag⟩ := hsocket
    refine hfield hvalue tag (.inr ?_)
    cases value with
    | object fields =>
      obtain rfl : fields = stream := by simpa using hobject
      rw [links]
      refine hfield hvalue' tag (.inl ?_)
      simp [-jsonObjectOrNull, hobject', htag]
    | null | literal | array => simp at hobject
  · simp only [objectAt, bind_eq_some_iff] at hproxy
    obtain ⟨settings, ⟨value, hvalue, hobject⟩, htag⟩ := hproxy
    refine hfield hvalue tag (.inl ?_)
    simp [-jsonObjectOrNull, hobject, htag]

theorem dialsThrough_eq_none {o : JsonObject} (h : linksOfFields o = []) :
    dialsThrough o = none := by
  cases hd : dialsThrough o with
  | none => rfl
  | some tag =>
    have hmem := mem_links_of_dialsThrough hd
    simp [h] at hmem

/-! ## The hops of one configuration -/

section Output

variable (rt : Runtime) {a : BuildArgs} {wgBase : Option JsonObject} {base : String}

variable {o : JsonObject} {tag : String}

/-- With distinct tags, an outbound is found under its own. -/
theorem find_tag {l : List JsonObject} (hnd : (l.filterMap tagOf).Nodup) (ho : o ∈ l)
    (htag : tagOf o = some tag) : l.find? (fun o => tagOf o = some tag) = some o := by
  induction l with
  | nil => simp at ho
  | cons first rest ih =>
    by_cases hfirst : tagOf first = some tag
    · rcases mem_cons.mp ho with rfl | hrest
      · simp [hfirst]
      · rw [filterMap_cons, hfirst, nodup_cons] at hnd
        exact absurd (mem_filterMap.mpr ⟨o, hrest, htag⟩) hnd.1
    · have hrest : o ∈ rest := (mem_cons.mp ho).resolve_left fun e => hfirst (e ▸ htag)
      have hnd' : (rest.filterMap tagOf).Nodup := by
        rw [filterMap_cons] at hnd
        split at hnd
        · exact hnd
        · exact (nodup_cons.mp hnd).2
      simp [hfirst, ih hnd' hrest]

theorem nextHop_of_mem (hwg : ∀ o ∈ wgBase, tagOf o = some "wireguard-base")
    (ho : o ∈ outbounds rt a wgBase) (htag : tagOf o = some tag) :
    nextHop (config rt a wgBase) tag = dialsThrough o := by
  have hnd : ((outbounds rt a wgBase).filterMap tagOf).Nodup := by
    rw [tags_outbounds hwg]
    exact definedTags_nodup a _
  rw [nextHop, objectsOf_outbounds, find_tag hnd ho htag, bind_some]

/-- An outbound that was given no chain is an end. -/
theorem nextHop_eq_none (hwg : ∀ o ∈ wgBase, tagOf o = some "wireguard-base")
    (ho : o ∈ outbounds rt a wgBase) (htag : tagOf o = some tag) (hlinks : linksOfFields o = []) :
    nextHop (config rt a wgBase) tag = none := by
  rw [nextHop_of_mem rt hwg ho htag, dialsThrough_eq_none hlinks]

theorem proxyOutbounds_sublist : proxyOutbounds rt a wgBase ⊆ outbounds rt a wgBase := by
  intro o ho
  simp only [outbounds, append_assoc]
  exact mem_append_left _ ho

variable (hwg : ∀ o ∈ wgBase, tagOf o = some "wireguard-base" ∧ linksOfFields o = [])
include hwg

theorem nextHop_block : nextHop (config rt a wgBase) "block" = none := by
  refine nextHop_eq_none rt (fun o ho => (hwg o ho).1) (o := blockOutbound) ?_ ?_ ?_
  · simp [outbounds]
  · simp [blockOutbound]
  · simp [blockOutbound]

theorem nextHop_dnsOut (hfake : a.fakeEnabled = true) :
    nextHop (config rt a wgBase) "dns-out" = none := by
  refine nextHop_eq_none rt (fun o ho => (hwg o ho).1) (o := dnsOutOutbound) ?_ ?_ ?_
  · simp [outbounds, hfake]
  · simp [dnsOutOutbound]
  · simp [dnsOutOutbound]

/-- The base tunnel dials for itself. -/
theorem nextHop_base (hbase : a.baseExitTag wgBase = some base) :
    nextHop (config rt a wgBase) base = none := by
  unfold BuildArgs.baseExitTag at hbase
  split_ifs at hbase with hsome hport
  · obtain rfl : "wireguard-base" = base := by simpa using hbase
    obtain ⟨o, rfl⟩ := isSome_iff_exists.mp hsome
    refine nextHop_eq_none rt (fun o ho => (hwg o ho).1) (o := o) ?_ (hwg o rfl).1 (hwg o rfl).2
    simp [outbounds]
  · obtain rfl : "olcrtc-out" = base := by simpa using hbase
    obtain ⟨port, hp⟩ := isSome_iff_exists.mp hport
    refine nextHop_eq_none rt (fun o ho => (hwg o ho).1)
      (o := olcrtcSocksOutbound "olcrtc-out" port a.olcrtcChainUser a.olcrtcChainPass) ?_ ?_ ?_
    · simp [outbounds, hp]
    · simp [olcrtcSocksOutbound]
    · simp [olcrtcSocksOutbound]

theorem nextHop_direct (hdirect : a.directViaBase = true)
    (hbase : a.baseExitTag wgBase = some base) :
    nextHop (config rt a wgBase) "direct" = some base := by
  have ho : directOutbound a wgBase ∈ outbounds rt a wgBase := by simp [outbounds]
  have htag : tagOf (directOutbound a wgBase) = some "direct" := by simp [directOutbound]
  rw [nextHop_of_mem rt (fun o ho => (hwg o ho).1) ho htag]
  simp [dialsThrough, objectAt, directOutbound, directDialer, hdirect, hbase, fieldOf, sockopt,
    JsonObject.string, Json.str]

/-- A proxy hop goes where its detour says, unless it is emitted unchained. -/
theorem nextHop_hop {p : ServerProfile} {hop : Hop} {via : String}
    (ho : buildProxyOutbound rt p a.traffic hop ∈ proxyOutbounds rt a wgBase)
    (hvia : hop.detourTag = some via) :
    nextHop (config rt a wgBase) hop.tag = if unchained p hop then none else some via := by
  rw [nextHop_of_mem rt (fun o ho => (hwg o ho).1) (proxyOutbounds_sublist rt ho)
    (tagOf_buildProxyOutbound rt p a.traffic hop), dialsThrough_hop hvia]

theorem mem_starts {start : String} (h : start ∈ starts (config rt a wgBase)) :
    start = "proxy" ∨ start = "proxy-base" ∧ a.second.isSome = true ∨ start = "direct" ∨
      start = "block" ∨ start = "dns-out" ∧ a.fakeEnabled = true := by
  rw [starts, ruleTargets_config, outboundTags_config fun o ho => (hwg o ho).1] at h
  rcases mem_append.mp h with hfirst | hnamed
  · exact .inl (by simpa [definedTags] using hfirst)
  · obtain ⟨htarget, hdefined⟩ : start ∈ (routingRules a).filterMap ruleTarget ∧
        start ∈ definedTags a wgBase.isSome := by simpa using mem_filter.mp hnamed
    have hfive := mem_routingTargets htarget
    simp only [mem_cons, not_mem_nil, or_false] at hfive
    rcases hfive with rfl | rfl | rfl | rfl | rfl
    · simp
    · exact .inr (.inl ⟨rfl, by simpa [definedTags] using hdefined⟩)
    · simp
    · simp
    · exact .inr (.inr (.inr (.inr ⟨rfl, by simpa [definedTags] using hdefined⟩)))

theorem proxy_mem_starts : "proxy" ∈ starts (config rt a wgBase) := by
  rw [starts, outboundTags_config fun o ho => (hwg o ho).1]
  simp [definedTags]

end Output

/-! ## The theorem -/

/-- The arguments under which every chain reaches the base: the exit of a cascade is no local SOCKS
    hop and its main server is not xhttp; a single local SOCKS hop is chained by `proxySettings`. -/
def Tunnelled (a : BuildArgs) : Prop :=
  match a.second with
  | some second => second.type ≠ "socks" ∧ a.profile.network ≠ "xhttp"
  | none => a.profile.type = "socks" → a.profile.network ≠ "xhttp" ∧ a.chainViaDialerProxy = false

section Tunnel

variable (rt : Runtime) {a : BuildArgs} {wgBase : Option JsonObject} {base : String}

theorem base_ne (hbase : a.baseExitTag wgBase = some base) :
    base ≠ "proxy" ∧ base ≠ "proxy-base" ∧ base ≠ "cascade-loop-out" := by
  unfold BuildArgs.baseExitTag at hbase
  split_ifs at hbase <;> obtain rfl := Option.some.inj hbase <;> decide

/-- A hop over the base needs the socket option for its transport or on the caller's request. -/
theorem needsDialerProxy_over_base (hbase : a.baseExitTag wgBase = some base) (p : ServerProfile)
    (hop : Hop) (hhop : hop.detourTag = some base) :
    needsDialerProxy p hop = (decide (p.network = "xhttp") || hop.chainViaDialerProxy) := by
  have hne : ¬some base = some "proxy-base" := by simpa using (base_ne hbase).2.1
  simp [needsDialerProxy, hhop, hne]

variable (hwg : ∀ o ∈ wgBase, tagOf o = some "wireguard-base" ∧ linksOfFields o = [])
include hwg

/-- The main server of a cascade. -/
theorem nextHop_proxyBase (hbase : a.baseExitTag wgBase = some base) {second : ServerProfile}
    (hs : a.second = some second) (hmain : a.profile.type ≠ "socks" ∨ a.profile.network ≠ "xhttp") :
    nextHop (config rt a wgBase) "proxy-base" = some base := by
  have hmem : buildProxyOutbound rt a.profile a.traffic (baseHop a wgBase) ∈
      proxyOutbounds rt a wgBase := by
    simp [proxyOutbounds, hs]
  have hneeds := needsDialerProxy_over_base hbase a.profile (baseHop a wgBase) hbase
  have hchained : unchained a.profile (baseHop a wgBase) = false := by
    rw [unchained, hneeds]
    rcases hmain with htype | hnetwork
    · simp [isLocalSocks, htype]
    · simp [baseHop, hnetwork]
  rw [show "proxy-base" = (baseHop a wgBase).tag from rfl, nextHop_hop rt hwg hmem hbase, hchained,
    if_neg Bool.false_ne_true]

/-- The exit of a cascade. -/
theorem nextHop_cascade {second : ServerProfile} (hs : a.second = some second) :
    nextHop (config rt a wgBase) "proxy" = if second.type = "socks" then none
      else some (if a.cascadeLoopActive then "cascade-loop-out" else "proxy-base") := by
  have hmem : buildProxyOutbound rt second a.traffic
      (secondHop a) ∈ proxyOutbounds rt a wgBase := by
    simp [proxyOutbounds, hs]
  have hneeds : needsDialerProxy second (secondHop a) = true := by
    cases hloop : a.cascadeLoopActive <;> simp [needsDialerProxy, secondHop, hloop]
  rw [show "proxy" = (secondHop a).tag from rfl, nextHop_hop rt hwg hmem rfl, unchained, hneeds,
    Bool.and_true]
  simp [isLocalSocks]

/-- The main server as the only hop. -/
theorem nextHop_single (hbase : a.baseExitTag wgBase = some base) (hs : a.second = none) :
    nextHop (config rt a wgBase) "proxy" =
      if a.profile.type = "socks" ∧ (a.profile.network = "xhttp" ∨
        a.chainViaDialerProxy = true) then none
      else some base := by
  have hmem : buildProxyOutbound rt a.profile a.traffic (singleHop a wgBase) ∈
      proxyOutbounds rt a wgBase := by
    simp [proxyOutbounds, hs]
  have hneeds := needsDialerProxy_over_base hbase a.profile (singleHop a wgBase) hbase
  rw [show "proxy" = (singleHop a wgBase).tag from rfl, nextHop_hop rt hwg hmem hbase, unchained,
    hneeds]
  simp [isLocalSocks, singleHop]

/-- The relay is an end: what it dials is the loopback inbound. -/
theorem nextHop_relay (hloop : a.cascadeLoopActive = true) :
    nextHop (config rt a wgBase) "cascade-loop-out" = none := by
  refine nextHop_eq_none rt (fun o ho => (hwg o ho).1) (o := cascadeLoopOutbound a) ?_ ?_ ?_
  · refine proxyOutbounds_sublist rt ?_
    unfold proxyOutbounds
    cases hs : a.second with
    | none => simp [BuildArgs.cascadeLoopActive, hs] at hloop
    | some second => simp [hloop]
  · simp [cascadeLoopOutbound]
  · simp [cascadeLoopOutbound]

/-- Under the condition the exit's chain reaches the base. -/
theorem proxy_reaches_base (hbase : a.baseExitTag wgBase = some base) (h : Tunnelled a) :
    Ends (nextHop (config rt a wgBase)) "proxy" base := by
  have hend : Ends (nextHop (config rt a wgBase)) base base := .stop (nextHop_base rt hwg hbase)
  unfold Tunnelled at h
  cases hs : a.second with
  | none =>
    simp only [hs] at h
    refine .hop ?_ hend
    rw [nextHop_single rt hwg hbase hs, if_neg]
    rintro ⟨hsocks, hx | hchain⟩
    · exact (h hsocks).1 hx
    · simp [(h hsocks).2] at hchain
  | some second =>
    simp only [hs] at h
    have hloop : ¬a.cascadeLoopActive = true := by simp [BuildArgs.cascadeLoopActive, h.2]
    have hnext := nextHop_cascade rt hwg hs
    rw [if_neg h.1, if_neg hloop] at hnext
    exact .hop hnext (.hop (nextHop_proxyBase rt hwg hbase hs (.inr h.2)) hend)

/-- Otherwise it stops at the exit itself, or at the relay. -/
theorem proxy_strays (hbase : a.baseExitTag wgBase = some base) (h : ¬Tunnelled a) :
    Ends (nextHop (config rt a wgBase)) "proxy" "proxy" ∨
      Ends (nextHop (config rt a wgBase)) "proxy" "cascade-loop-out" := by
  unfold Tunnelled at h
  cases hs : a.second with
  | none =>
    simp only [hs, Classical.not_imp, not_and_or, ne_eq, not_not, Bool.not_eq_false] at h
    refine .inl (.stop ?_)
    rw [nextHop_single rt hwg hbase hs, if_pos h]
  | some second =>
    simp only [hs, not_and_or, ne_eq, not_not] at h
    have hnext := nextHop_cascade rt hwg hs
    by_cases hsocks : second.type = "socks"
    · rw [if_pos hsocks] at hnext
      exact .inl (.stop hnext)
    · have hloop : a.cascadeLoopActive = true := by
        simp [BuildArgs.cascadeLoopActive, hs, h.resolve_left hsocks]
      rw [if_neg hsocks, if_pos hloop] at hnext
      exact .inr (.hop hnext (.stop (nextHop_relay rt hwg hloop)))

end Tunnel

/-- With a mandatory base tunnel, every chain of a generated configuration ends at the tunnel (or at
    an outbound that dials nothing) exactly if no local SOCKS hop is left unchained and no relay is
    in use. -/
theorem tunnelled_iff (rt : Runtime) (a : BuildArgs) (out : JsonObject) (base : String)
    (h : build rt a = some out) (hdirect : a.directViaBase = true)
    (hbase : usableBase rt a = some base) : NeverBypassed out base ↔ Tunnelled a := by
  obtain ⟨wgBase, rfl, hjoin, hwg⟩ := build_inv h
  have hexit : a.baseExitTag wgBase = some base := hjoin ▸ hbase
  constructor
  · intro hnever
    have hproxy := (hnever "proxy" (proxy_mem_starts rt hwg)).2
    by_contra hnot
    obtain ⟨hne, -, hneRelay⟩ := base_ne hexit
    rcases proxy_strays rt hwg hexit hnot with hstray | hstray
    · rcases hproxy _ hstray with hb | hb | hb
      · exact hne hb.symm
      all_goals exact absurd hb (by decide)
    · rcases hproxy _ hstray with hb | hb | hb
      · exact hneRelay hb.symm
      all_goals exact absurd hb (by decide)
  · intro htunnelled start hstart
    have hend : Ends (nextHop (config rt a wgBase)) base base := .stop (nextHop_base rt hwg hexit)
    -- each start has a chain to one of the allowed ends, and a chain has one end only
    suffices hreach : ∃ last, Ends (nextHop (config rt a wgBase)) start last ∧
        (last = base ∨ last = "block" ∨ last = "dns-out") by
      obtain ⟨last, hlast, hallowed⟩ := hreach
      exact ⟨⟨last, hlast⟩, fun other hother => hother.unique hlast ▸ hallowed⟩
    rcases mem_starts rt hwg hstart with rfl | ⟨rfl, hsecond⟩ | rfl | rfl | ⟨rfl, hfake⟩
    · exact ⟨base, proxy_reaches_base rt hwg hexit htunnelled, .inl rfl⟩
    · obtain ⟨second, hs⟩ := isSome_iff_exists.mp hsecond
      have hx : a.profile.network ≠ "xhttp" := by
        simp only [Tunnelled, hs] at htunnelled
        exact htunnelled.2
      exact ⟨base, .hop (nextHop_proxyBase rt hwg hexit hs (.inr hx)) hend, .inl rfl⟩
    · exact ⟨base, .hop (nextHop_direct rt hwg hdirect hexit) hend, .inl rfl⟩
    · exact ⟨"block", .stop (nextHop_block rt hwg), by simp⟩
    · exact ⟨"dns-out", .stop (nextHop_dnsOut rt hwg hfake), by simp⟩

/-- The cascade of two VLESS servers over the SOCKS port stays inside the tunnel. -/
theorem cascade_never_bypassed :
    ∃ out, build plainRuntime cascadeArgs = some out ∧ NeverBypassed out "olcrtc-out" := by
  refine ⟨_, rfl, (tunnelled_iff plainRuntime cascadeArgs _ "olcrtc-out" rfl rfl rfl).mpr ?_⟩
  show (_ : String) ≠ "socks" ∧ (_ : String) ≠ "xhttp"
  decide

/-- A local SOCKS hop whose caller asks for the socket option. -/
def bareSocksArgs : BuildArgs :=
  { tunnelledArgs with
    profile := { type := "socks", server := "203.0.113.7", serverPort := 1080 }
    chainViaDialerProxy := true }

/-- It is the default outbound, and it dials its server itself. -/
theorem bareSocks_bypasses :
    ∃ out, build plainRuntime bareSocksArgs = some out ∧ "proxy" ∈ starts out ∧
      Ends (nextHop out) "proxy" "proxy" ∧ ¬NeverBypassed out "olcrtc-out" := by
  have hstart : "proxy" ∈ starts (config plainRuntime bareSocksArgs none) := by decide
  have hnext : nextHop (config plainRuntime bareSocksArgs none) "proxy" = none := by decide
  refine ⟨_, rfl, hstart, .stop hnext, fun hnever => ?_⟩
  rcases (hnever "proxy" hstart).2 "proxy"
      (.stop hnext) with h | h | h <;> exact absurd h (by decide)

/-- The relay of an xhttp cascade leads back to the main server, and from there to the base. -/
theorem relay_reaches_base (rt : Runtime) (a : BuildArgs) (out : JsonObject) (base : String)
    (h : build rt a = some out) (hbase : usableBase rt a = some base)
    (hloop : a.cascadeLoopActive = true) (hmain : a.profile.type ≠ "socks") :
    (objectsOf (routingOf out) "rules").head? = some (cascadeLoopRule "proxy-base") ∧
      Ends (nextHop out) "proxy-base" base := by
  obtain ⟨wgBase, rfl, hjoin, hwg⟩ := build_inv h
  have hexit : a.baseExitTag wgBase = some base := hjoin ▸ hbase
  obtain ⟨second, hs⟩ : ∃ second, a.second = some second := by
    simp only [BuildArgs.cascadeLoopActive, Bool.and_eq_true] at hloop
    exact isSome_iff_exists.mp hloop.1
  refine ⟨?_, .hop (nextHop_proxyBase rt hwg hexit hs (.inl hmain))
    (.stop (nextHop_base rt hwg hexit))⟩
  rw [objectsOf_rules]
  simp [routingRules, ownRules, hloop]

def relayArgs : BuildArgs := { cascadeArgs with profile.network := "xhttp" }

theorem relayArgs_reach_base : ∃ out, build plainRuntime relayArgs = some out ∧
    Ends (nextHop out) "proxy-base" "olcrtc-out" :=
  ⟨_, rfl, (relay_reaches_base plainRuntime relayArgs _ "olcrtc-out" rfl rfl (by decide)
    (by decide)).2⟩

end OlcVpn.Xray
