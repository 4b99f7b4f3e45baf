/-
  The REMOTE ENDPOINT of a location: the machine it talks to, engine by engine.

  The signature of a server is meant to tell endpoints apart.  For five engines it contains the
  whole endpoint.  A VK-TURN location has three possible cores, and only the link of the freeturn
  core is part of the signature: the servers of the WDTT and csqtt cores are not.
-/
import OlcVpn.Locations.Entry
import OlcVpn.Locations.Signature

namespace OlcVpn.Locations

open Kotlin List Option
open ProxyProfile (signature)
open String (ofList toList_ofList)

/-! ## The peers of the VK-TURN cores -/

/-- `port.takeIf { it in 1..65535 } ?: default`. -/
def portOr (port default : Int) : Int := if validPort port then port else default

def VkTurnConfig.wdttPeerAddr (v : VkTurnConfig) : String :=
  let host := trim v.wdttPeer
  if host = "" then ""
  else if (toIntOrNull (substringAfterLast host ':' "")).isSome &&
    host.toList.contains ':' then host
  else host ++ ":" ++ toString (portOr v.wdttPort 56000)

def VkTurnConfig.csqttPeerAddr (v : VkTurnConfig) : String :=
  let host := trim v.csqttPeer
  if host = "" then ""
  else
    let hasPort :=
      if startsWith host "[" then contains host "]:"
      else host.toList.count ':' = 1 && (toIntOrNull (substringAfterLast host ':' host)).isSome
    if hasPort then host
    else
      let port := portOr v.csqttPort 46000
      let bare := removeLast (removeFirst host '[') ']'
      if bare.toList.contains ':' then "[" ++ bare ++ "]:" ++ toString port
      else bare ++ ":" ++ toString port

/-- The peer `FreeturnUriParser.parse` reads off a link.  `wirePeer` stands for the newer format,
    where the text after the scheme is an encoded JSON object that names the peer. -/
def freeturnPeer (wirePeer : String → Option String) (uri : String) : Option String :=
  let trimmed := trim uri
  if !startsWithIgnoreCase trimmed "freeturn://" then none
  else
    let payload := ofList (trimmed.toList.drop 11)
    match wirePeer payload with
    | some peer => some peer
    | none =>
      let s := substringBeforeLast (substringBeforeLast payload '$') '#'
      let peer := substringAfterLast s '@' ""
      if isBlank peer then none else some peer

/-! ## Endpoints -/

inductive Endpoint where
  | olcRtc (provider room key : String)
  | proxy (type server : String) (port : Int)
  | chain (provider room key type server : String) (port : Int)
  | freeturn (peer : Option String)
  | wdtt (peer : String)
  | csqtt (peer : String)
  | masterDns (domains : String)
  | document (url : String)
  | callee (uid : String)
  | snolc (host : String) (port : Int)
  deriving DecidableEq

section

variable (wirePeer : String → Option String)

def VkTurnConfig.endpoint (v : VkTurnConfig) : Endpoint :=
  if v.usesWdtt then .wdtt v.wdttPeerAddr
  else if v.usesCsqtt then .csqtt v.csqttPeerAddr
  else .freeturn (freeturnPeer wirePeer v.uri)

def OpenFluxConfig.endpoint (o : OpenFluxConfig) : Endpoint :=
  if o.usesMax then .callee o.maxUid else .document o.docUrl

/-- The endpoint of a location; absent if the section of its engine is. -/
def LocationConfig.endpoint (c : LocationConfig) : Option Endpoint :=
  match c.engine with
  | .stealth => some (.olcRtc c.bypassProvider c.id c.key)
  | .standard => c.proxy.map fun p => .proxy p.type p.server p.serverPort
  | .chain => c.proxy.map fun p => .chain c.bypassProvider c.id c.key p.type p.server p.serverPort
  | .vkTurn => c.vkturn.map (VkTurnConfig.endpoint wirePeer)
  | .masterDns => c.masterDns.map fun d => .masterDns d.domains
  | .openFlux => c.openFlux.map OpenFluxConfig.endpoint
  | .snolc => c.snolc.map fun s => .snolc s.host s.port

/-- One engine, and one endpoint of it. -/
def SameServer (c d : LocationConfig) : Prop :=
  c.engine = d.engine ∧ c.endpoint wirePeer = d.endpoint wirePeer

/-- The link of the freeturn core: one `$` at most, which starts the comment.  In the older format
    the peer follows an `@`; the newer one has neither. -/
structure ReadableLink (uri : String) : Prop where
  trimmed : trim uri = uri
  comment : uri.toList.count '$' ≤ 1
  format : ('@' ∈ (substringBefore uri '$').toList ∧
    wirePeer (ofList (uri.toList.drop 11)) = none) ∨
    ('@' ∉ uri.toList ∧ '$' ∉ uri.toList)

/-- A VK-TURN section as the app stores it: only the freeturn core has a link. -/
structure VkTurnConfig.WellFormed (v : VkTurnConfig) : Prop where
  outbound : '@' ∉ v.outbound.toList
  link : if v.usesWdtt || v.usesCsqtt then v.uri = "" ∧ v.outboundProxyLink = ""
    else ReadableLink wirePeer v.uri

/-- A location whose signature can be read: the section of its engine and no other, and in the nine
    texts before the name no character that separates them.  The name is any text. -/
structure LocationConfig.WellFormed (c : LocationConfig) : Prop where
  normalized : c.normalized = c
  storable : c.isStorable = true
  /-- The section of its own engine, and no other. -/
  ownVkTurn : c.vkturn.isSome ↔ c.engine = .vkTurn
  ownMasterDns : c.masterDns.isSome ↔ c.engine = .masterDns
  ownOpenFlux : c.openFlux.isSome ↔ c.engine = .openFlux
  ownSnolc : c.snolc.isSome ↔ c.engine = .snolc
  noProxy : c.engine = .stealth → c.proxy = none
  noRoom : c.engine = .standard → c.id = ""
  /-- No text before the name could be taken for the punctuation of a signature. -/
  bars : ∀ part ∈ signatureParts c, '|' ∉ part.toList
  proxyAt : ∀ p ∈ c.proxy, '@' ∉ p.type.toList
  domainsAt : ∀ d ∈ c.masterDns, '@' ∉ d.domains.toList
  vkTurn : ∀ v ∈ c.vkturn, v.WellFormed wirePeer

/-- The location runs on a core whose server is not part of the signature. -/
def LocationConfig.hidesPeer (c : LocationConfig) : Bool :=
  c.vkturn.any fun v => v.usesWdtt || v.usesCsqtt

end

/-! ## Equal signatures -/

/-- The signatures of two sections that may be absent. -/
theorem section_eq {α : Type} {signature : α → String} (hat : ∀ a, '@' ∈ (signature a).toList)
    {a b : Option α} (h : (a.map signature).getD "" = (b.map signature).getD "") :
    a.map signature = b.map signature := by
  have hne : ∀ a, signature a ≠ "" := fun a hempty => by simpa [hempty] using hat a
  cases a with
  | none =>
    cases b with
    | none => rfl
    | some b => exact absurd h.symm (hne b)
  | some a =>
    cases b with
    | none => exact absurd h (hne a)
    | some b => exact congrArg some h

theorem ProxyProfile.signature_inj {p q : ProxyProfile} (hp : '@' ∉ p.type.toList)
    (hq : '@' ∉ q.type.toList) (h : p.signature = q.signature) :
    p.type = q.type ∧ p.server = q.server ∧ p.serverPort = q.serverPort := by
  have hsplit : ∀ r : ProxyProfile,
      r.signature = r.type ++ "@" ++ (r.server ++ ":" ++ toString r.serverPort) := by
    intro r
    simp only [signature, String.append_assoc]
  rw [hsplit, hsplit] at h
  obtain ⟨htype, hrest⟩ := append_at_inj hp hq h
  exact ⟨htype, append_port_inj hrest⟩

theorem SnolcConfig.signature_inj {s t : SnolcConfig} (h : s.signature = t.signature) :
    s.host = t.host ∧ s.port = t.port := by
  obtain ⟨hhost, hport⟩ := append_port_inj h
  exact ⟨(String.append_right_inj _).mp hhost, hport⟩

/-! ## The peer of a freeturn link -/

/-- A scheme without the delimiter lies before the first delimiter. -/
theorem length_le_of_scheme {scheme rest before t : List Char} {c : Char} (hc : c ∉ scheme)
    (h : scheme ++ rest = before ++ c :: t) : scheme.length ≤ before.length := by
  rcases append_eq_append_iff.mp h with ⟨d, rfl, -⟩ | ⟨d, rfl, hd⟩
  · simp
  · cases d with
    | nil => simp
    | cons e d =>
      obtain ⟨rfl, -⟩ := List.cons.inj hd
      simp at hc

/-- Without its scheme, a link with one `$` is what comes before it, and the comment. -/
theorem payload_before_comment {scheme rest before : List Char} {n : Nat}
    (hn : scheme.length = n) (hc : '$' ∉ scheme) (hfree : '$' ∉ before)
    (hcases : scheme ++ rest = before ∨ ∃ t, scheme ++ rest = before ++ '$' :: t)
    (hcount : (scheme ++ rest).count '$' ≤ 1) : substringBeforeLast
      (ofList ((scheme ++ rest).drop n)) '$' =
      ofList (before.drop n) := by
  subst hn
  rcases hcases with heq | ⟨comment, heq⟩
  · rw [heq]
    refine substringBeforeLast_of_notMem fun hmem => hfree ?_
    rw [toList_ofList] at hmem
    exact mem_of_mem_drop hmem
  · have hcomment : '$' ∉ comment := by
      rw [heq, count_append, count_cons_self] at hcount
      exact count_eq_zero.mp (by omega)
    rw [heq, drop_append_of_le_length (length_le_of_scheme hc heq)]
    exact substringBeforeLast_append hcomment

/-- The older format: the peer is read off what comes before the comment. -/
theorem freeturnPeer_classic {wirePeer : String → Option String} {uri : String}
    (h : ReadableLink wirePeer uri) (hscheme : startsWith uri "freeturn://" = true)
    (hwire : wirePeer (ofList (uri.toList.drop 11)) = none) :
    freeturnPeer wirePeer uri =
      (let s := substringBeforeLast
        (ofList ((substringBefore uri '$').toList.drop 11)) '#'
       let peer := substringAfterLast s '@' ""
       if isBlank peer then none else some peer) := by
  obtain ⟨rest, hrest⟩ := isPrefixOf_iff_prefix.mp hscheme
  have hfold : startsWithIgnoreCase uri "freeturn://" = true := by
    rw [startsWithIgnoreCase, ← hrest, map_append]
    exact isPrefixOf_iff_prefix.mpr ⟨_, rfl⟩
  obtain ⟨hfree, hcases⟩ := substringBefore_spec uri '$'
  have hpayload : substringBeforeLast (ofList (uri.toList.drop 11)) '$' =
      ofList ((substringBefore uri '$').toList.drop 11) := by
    have hcount := h.comment
    have hlists := hcases.imp_left (congrArg String.toList)
    generalize (substringBefore uri '$').toList = before at hfree hlists
    rw [← hrest] at hcount hlists ⊢
    exact payload_before_comment (by decide) (by decide) hfree hlists hcount
  simp [freeturnPeer, h.trimmed, hfold, hwire, hpayload]

/-- Links with one text before the comment have one peer. -/
theorem freeturnPeer_eq {wirePeer : String → Option String} {uri uri' : String}
    (h : ReadableLink wirePeer uri) (h' : ReadableLink wirePeer uri')
    (hscheme : startsWith uri "freeturn://" = true)
      (hscheme' : startsWith uri' "freeturn://" = true)
    (hbefore : substringBefore uri '$' = substringBefore uri' '$') :
    freeturnPeer wirePeer uri = freeturnPeer wirePeer uri' := by
  rcases h.format with ⟨hat, hwire⟩ | ⟨hat, hdollar⟩
  · rcases h'.format with ⟨-, hwire'⟩ | ⟨hat', -⟩
    · rw [freeturnPeer_classic h hscheme hwire, freeturnPeer_classic h' hscheme' hwire', hbefore]
    · exact absurd (mem_substringBefore (hbefore ▸ hat)) hat'
  · rcases h'.format with ⟨hat', -⟩ | ⟨-, hdollar'⟩
    · exact absurd (mem_substringBefore (hbefore ▸ hat')) hat
    · rw [← substringBefore_of_notMem hdollar, hbefore, substringBefore_of_notMem hdollar']

/-! ## Well-formed locations with one signature -/

/-- What two locations with equal signature texts have in common. -/
structure SameParts (c d : LocationConfig) : Prop where
  provider : c.bypassProvider = d.bypassProvider
  room : c.id = d.id
  key : c.key = d.key
  proxy : c.proxy.map signature = d.proxy.map signature
  vkturn : c.vkturn.map VkTurnConfig.signature = d.vkturn.map VkTurnConfig.signature
  masterDns : c.masterDns.map MasterDnsConfig.signature = d.masterDns.map MasterDnsConfig.signature
  openFlux : c.openFlux.map OpenFluxConfig.signature = d.openFlux.map OpenFluxConfig.signature
  snolc : c.snolc.map SnolcConfig.signature = d.snolc.map SnolcConfig.signature

theorem sameParts_of_eq {c d : LocationConfig} (hc : c.normalized = c) (hd : d.normalized = d)
    (h : signatureParts c = signatureParts d) : SameParts c d := by
  simp only [signatureParts, hc, hd, List.cons.injEq, and_true] at h
  obtain ⟨hprovider, -, hroom, hkey, hproxy, hvkturn, hdns, hflux, hsnolc⟩ := h
  exact ⟨hprovider, hroom, hkey, section_eq (by simp [signature]) hproxy,
    section_eq (by simp [VkTurnConfig.signature]) hvkturn,
    section_eq (by simp [MasterDnsConfig.signature]) hdns,
    section_eq (by simp [OpenFluxConfig.signature]) hflux,
    section_eq (by simp [SnolcConfig.signature]) hsnolc⟩

/-- Sections with one signature are both there or both absent. -/
theorem isSome_iff_of_map_eq {α β : Type} {f : α → β} {a b : Option α} (h : a.map f = b.map f) :
    a.isSome ↔ b.isSome := by
  rw [← isSome_map (f := f), h, isSome_map]

section

variable {wirePeer : String → Option String} {c d : LocationConfig}

theorem signatureParts_eq (hc : c.WellFormed wirePeer) (hd : d.WellFormed wirePeer)
    (h : subscriptionSignature c = subscriptionSignature d) : signatureParts c = signatureParts d :=
  joinToString_append_inj '|' hc.bars hd.bars (cons_ne_nil _ _) rfl
    (congrArg (· ++ "|" ++ "") h)

/-- **A named signature shows the nine texts**, whatever the name is. -/
theorem signatureParts_eq_of_named (hc : c.WellFormed wirePeer) (hd : d.WellFormed wirePeer)
    (h : namedSubscriptionSignature c = namedSubscriptionSignature d) :
    signatureParts c = signatureParts d :=
  -- The name comes last, so it may hold bars of its own.
  joinToString_append_inj '|' hc.bars hd.bars (cons_ne_nil _ _) rfl h

/-- The engine a location has by its sections. -/
def LocationConfig.shape (c : LocationConfig) : EngineType :=
  if c.vkturn.isSome then .vkTurn
  else if c.masterDns.isSome then .masterDns
  else if c.openFlux.isSome then .openFlux
  else if c.snolc.isSome then .snolc
  else if c.proxy.isNone then .stealth
  else if c.id = "" then .standard
  else .chain

/-- A well-formed location shows its engine in its sections. -/
theorem LocationConfig.WellFormed.shape_eq (hc : c.WellFormed wirePeer) : c.shape = c.engine := by
  have hstorable := hc.storable
  unfold isStorable at hstorable
  have hvk := hc.ownVkTurn
  have hdns := hc.ownMasterDns
  have hflux := hc.ownOpenFlux
  have hsnolc := hc.ownSnolc
  cases hengine : c.engine with
  | vkTurn => simp [shape, hvk, hengine]
  | masterDns => simp [shape, hvk, hdns, hengine]
  | openFlux => simp [shape, hvk, hdns, hflux, hengine]
  | snolc => simp [shape, hvk, hdns, hflux, hsnolc, hengine]
  | stealth => simp [shape, hvk, hdns, hflux, hsnolc, hengine, hc.noProxy hengine]
  | standard =>
    have hproxy : c.proxy.isNone = false := by
      cases hp : c.proxy <;> simp [hp, hengine] at hstorable ⊢
    simp [shape, hvk, hdns, hflux, hsnolc, hengine, hproxy, hc.noRoom hengine]
  | chain =>
    simp only [hengine, Bool.and_eq_true] at hstorable
    have hproxy : c.proxy.isNone = false := by
      cases hp : c.proxy <;> simp [hp] at hstorable ⊢
    simp [shape, hvk, hdns, hflux, hsnolc, hengine, hproxy, ne_empty_of_isNotBlank hstorable.1.2]

theorem shape_eq_of_sameParts (h : SameParts c d) : c.shape = d.shape := by
  have hvk := isSome_iff_of_map_eq h.vkturn
  have hdns := isSome_iff_of_map_eq h.masterDns
  have hflux := isSome_iff_of_map_eq h.openFlux
  have hsnolc := isSome_iff_of_map_eq h.snolc
  have hproxy : c.proxy.isNone = d.proxy.isNone := by
    have := isSome_iff_of_map_eq h.proxy
    cases hp : c.proxy <;> cases hq : d.proxy <;> simp_all
  simp only [LocationConfig.shape, hvk, hdns, hflux, hsnolc, hproxy, h.room]

theorem not_isBlank_of_scheme {uri : String} (h : startsWith uri "freeturn://" = true) :
    isBlank (substringBefore uri '$') = false := by
  obtain ⟨rest, hrest⟩ := isPrefixOf_iff_prefix.mp h
  have hmem : 'f' ∈ (substringBefore uri '$').toList := by
    rw [substringBefore, toList_ofList, ← hrest]
    exact mem_cons_self
  exact all_eq_false.mpr ⟨'f', hmem, by decide⟩

/-- What the freeturn core contributes to a signature is its link up to the comment. -/
theorem freeturn_link {v : VkTurnConfig} (hs : v.isStorable = true)
    (hcore : (v.usesWdtt || v.usesCsqtt) = false) : startsWith v.uri "freeturn://" = true ∧
      ifBlank (substringBefore v.uri '$') v.outboundProxyLink = substringBefore v.uri '$' := by
  rw [Bool.or_eq_false_iff] at hcore
  simp only [VkTurnConfig.isStorable, hcore.1, hcore.2, Bool.false_eq_true, if_false,
    Bool.and_eq_true] at hs
  refine ⟨hs.2, ?_⟩
  simp [ifBlank, not_isBlank_of_scheme hs.2]

/-- The freeturn core: the link is part of the signature, and it names the peer. -/
theorem vkTurn_endpoint_eq {v u : VkTurnConfig} (hv : v.WellFormed wirePeer)
    (hu : u.WellFormed wirePeer) (hvs : v.isStorable = true) (hus : u.isStorable = true)
    (h : v.signature = u.signature) (hcore : (v.usesWdtt || v.usesCsqtt) = false) :
    v.endpoint wirePeer = u.endpoint wirePeer := by
  obtain ⟨-, hlink⟩ := append_at_inj hv.outbound hu.outbound h
  obtain ⟨hscheme, hbefore⟩ := freeturn_link hvs hcore
  have hvlink := hv.link
  have hulink := hu.link
  rw [if_neg (by simp [hcore])] at hvlink
  rw [hbefore] at hlink
  cases hcore' : u.usesWdtt || u.usesCsqtt with
  | true =>
    -- the other cores have no link at all
    rw [if_pos hcore'] at hulink
    have hblank := not_isBlank_of_scheme hscheme
    rw [hlink, hulink.1, hulink.2] at hblank
    cases hblank
  | false =>
    rw [if_neg (by simp [hcore'])] at hulink
    obtain ⟨hscheme', hbefore'⟩ := freeturn_link hus hcore'
    rw [hbefore'] at hlink
    rw [Bool.or_eq_false_iff] at hcore hcore'
    simp [VkTurnConfig.endpoint, hcore.1, hcore.2, hcore'.1, hcore'.2,
      freeturnPeer_eq hvlink hulink hscheme hscheme' hlink]

theorem openFlux_endpoint_eq {o o' : OpenFluxConfig} (ho : o.normalized = o)
    (ho' : o'.normalized = o') (h : o.signature = o'.signature) : o.endpoint = o'.endpoint := by
  have hat : ∀ {x : OpenFluxConfig}, x.normalized = x → '@' ∉ x.transport.toList := by
    intro x hx
    have hnames : ∀ name ∈ "yandex" :: OpenFluxConfig.transports, '@' ∉ name.toList := by decide
    have heq := congrArg OpenFluxConfig.transport hx
    rw [← heq, OpenFluxConfig.normalized]
    refine hnames _ ?_
    split_ifs with hmem
    · exact mem_cons_of_mem _ hmem
    · exact mem_cons_self
  obtain ⟨htransport, htarget⟩ := append_at_inj (hat ho) (hat ho') h
  have huses : o.usesMax = o'.usesMax := by simp [OpenFluxConfig.usesMax, htransport]
  unfold OpenFluxConfig.endpoint
  rw [huses] at htarget ⊢
  split_ifs at htarget ⊢ with hmax <;> rw [htarget]

/-- Two sections with one signature, taken apart. -/
theorem exists_of_map_eq {α β : Type} {f : α → β} {a b : Option α} (h : a.map f = b.map f)
    (hsome : a.isSome) : ∃ x y, a = some x ∧ b = some y ∧ f x = f y := by
  cases a with
  | none => simp at hsome
  | some x =>
    cases b with
    | none => simp at h
    | some y => exact ⟨x, y, rfl, rfl, by simpa using h⟩

/-- On well-formed locations equal signature texts mean one server, except for the two cores whose
    server is not part of the signature. -/
theorem sameServer_of_parts (hc : c.WellFormed wirePeer) (hd : d.WellFormed wirePeer)
    (h : signatureParts c = signatureParts d) (hpeer : c.hidesPeer = false) :
    SameServer wirePeer c d := by
  have hparts := sameParts_of_eq hc.normalized hd.normalized h
  have hengine : c.engine = d.engine := by
    rw [← hc.shape_eq, ← hd.shape_eq, shape_eq_of_sameParts hparts]
  refine ⟨hengine, ?_⟩
  have hstorable := hc.storable
  have hstorable' := hd.storable
  unfold LocationConfig.isStorable at hstorable hstorable'
  unfold LocationConfig.endpoint
  rw [← hengine] at hstorable' ⊢
  have hproxy : c.proxy.isSome → ∃ p q, c.proxy = some p ∧ d.proxy = some q ∧
      p.type = q.type ∧ p.server = q.server ∧ p.serverPort = q.serverPort := by
    intro hsome
    obtain ⟨p, q, hp, hq, hsig⟩ := exists_of_map_eq hparts.proxy hsome
    exact ⟨p, q, hp, hq, ProxyProfile.signature_inj (hc.proxyAt p hp) (hd.proxyAt q hq) hsig⟩
  have hany : ∀ {α : Type} {a : Option α} {f : α → Bool}, a.any f = true → a.isSome := by
    intro α a f ha
    cases a with
    | none => simp at ha
    | some a => rfl
  cases he : c.engine with
  | stealth => simp only [hparts.provider, hparts.room, hparts.key]
  | standard =>
    simp only [he] at hstorable
    obtain ⟨p, q, hp, hq, htype, hserver, hport⟩ := hproxy (hany hstorable)
    simp [hp, hq, htype, hserver, hport]
  | chain =>
    simp only [he, Bool.and_eq_true] at hstorable
    obtain ⟨p, q, hp, hq, htype, hserver, hport⟩ := hproxy (hany hstorable.1.1)
    simp [hp, hq, htype, hserver, hport, hparts.provider, hparts.room, hparts.key]
  | vkTurn =>
    simp only [he, Bool.and_eq_true] at hstorable hstorable'
    obtain ⟨v, u, hv, hu, hsig⟩ := exists_of_map_eq hparts.vkturn (hany hstorable.1)
    have hcore : (v.usesWdtt || v.usesCsqtt) = false := by
      simpa [LocationConfig.hidesPeer, hv] using hpeer
    simp only [hv, any_some] at hstorable
    simp only [hu, any_some] at hstorable'
    simp [hv, hu, vkTurn_endpoint_eq (hc.vkTurn v hv)
      (hd.vkTurn u hu) hstorable.1 hstorable'.1 hsig hcore]
  | masterDns =>
    simp only [he] at hstorable
    obtain ⟨x, y, hx, hy, hsig⟩ := exists_of_map_eq hparts.masterDns (hany hstorable)
    obtain ⟨hdomains, -⟩ := append_at_inj (hc.domainsAt x hx) (hd.domainsAt y hy) hsig
    simp [hx, hy, hdomains]
  | openFlux =>
    simp only [he] at hstorable
    obtain ⟨x, y, hx, hy, hsig⟩ := exists_of_map_eq hparts.openFlux (hany hstorable)
    have hnorm : ∀ {e : LocationConfig} {z : OpenFluxConfig}, e.normalized = e →
        e.openFlux = some z → z.normalized = z := by
      intro e z hn hz
      have := congrArg LocationConfig.openFlux hn
      simpa [hz] using this
    simp [hx, hy, openFlux_endpoint_eq (hnorm hc.normalized hx) (hnorm hd.normalized hy) hsig]
  | snolc =>
    simp only [he] at hstorable
    obtain ⟨x, y, hx, hy, hsig⟩ := exists_of_map_eq hparts.snolc (hany hstorable)
    obtain ⟨hhost, hport⟩ := SnolcConfig.signature_inj hsig
    simp [hx, hy, hhost, hport]

end

end OlcVpn.Locations
