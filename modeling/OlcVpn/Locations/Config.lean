/-
  A LOCATION: what the client stores about one server, for each of its seven engines.

  Every engine keeps its own section (`proxy`, `vkturn`, `masterDns`, `openFlux`, `snolc`; the
  olcRTC engines use the room id and key of the record itself).  Two functions decide the life of
  a location: `normalized` brings it into the form that is stored, and `isStorable` says whether it
  is kept at all.
-/
import Mathlib.Data.Int.Order.Basic
import OlcVpn.Kotlin.Collections
import OlcVpn.Kotlin.Text

namespace OlcVpn.Locations

open Kotlin List

/-- Which core serves a location. -/
inductive EngineType where
  | stealth | standard | chain | vkTurn | masterDns | openFlux | snolc
  deriving DecidableEq, Repr

/-- `port in 1..65535`. -/
def validPort (port : Int) : Bool := 1 ≤ port && port ≤ 65535

/-- `coerceIn(low, high)`. -/
def coerceIn (value low high : Int) : Int :=
  if value < low then low else if value > high then high else value

/-- A value in range is left alone. -/
theorem coerceIn_coerceIn (value low high : Int) (h : low ≤ high := by decide) :
    coerceIn (coerceIn value low high) low high = coerceIn value low high := by
  unfold coerceIn
  split_ifs <;> omega

/-! ## The sections -/

/-- A proxy server, as far as identity and completeness read it. -/
structure ProxyProfile where
  tag : String := ""
  type : String := "vless"
  server : String := ""
  serverPort : Int := 0
  uuid : String := ""
  password : String := ""
  method : String := ""
  rawOutbound : Option String := none
  rawXrayConfig : Option String := none
  awgConfig : String := ""
  ttConfig : String := ""
  deriving DecidableEq

def ProxyProfile.isComplete (p : ProxyProfile) : Bool :=
  if p.type = "hysteria2" then isNotBlank p.server && validPort p.serverPort
  else if p.type = "naive" then isNotBlank p.server && validPort p.serverPort
  else if p.type = "amneziawg" then isNotBlank p.awgConfig
  else if p.type = "trusttunnel" then isNotBlank p.ttConfig
  else if p.rawXrayConfig.any isNotBlank then true
  else if p.rawOutbound.any isNotBlank then true
  else if isBlank p.server || !validPort p.serverPort then false
  else if p.type = "vless" ∨ p.type = "vmess" then isNotBlank p.uuid
  else if p.type = "trojan" then isNotBlank p.password
  else if p.type = "shadowsocks" then isNotBlank p.password && isNotBlank p.method
  else false

/-- The VK-TURN section: the link of the freeturn core, or the server of the WDTT or csqtt core. -/
structure VkTurnConfig where
  uri : String := ""
  listenPort : Int := 9000
  outbound : String := "wireguard"
  outboundProxyLink : String := ""
  core : String := "freeturn"
  wdttPeer : String := ""
  wdttPort : Int := 0
  csqttPeer : String := ""
  csqttPort : Int := 0
  deriving DecidableEq

variable (v : VkTurnConfig)

def VkTurnConfig.usesWdtt : Bool := equalsIgnoreCase v.core "wdtt"

def VkTurnConfig.usesCsqtt : Bool := equalsIgnoreCase v.core "csqtt"

def VkTurnConfig.isStorable : Bool :=
  validPort v.listenPort &&
    (if v.usesWdtt then isNotBlank v.wdttPeer
    else if v.usesCsqtt then isNotBlank v.csqttPeer
    else startsWith v.uri "freeturn://")

structure MasterDnsConfig where
  domains : String := ""
  encryptionKey : String := ""
  encryptionMethod : Int := 1
  resolvers : String := ""
  balancingStrategy : Int := 0
  packetDuplication : Int := 0
  proxyLink : String := ""
  deriving DecidableEq

/-- Comma, semicolon or any white space the regular expression `\s` knows. -/
def isSeparator (c : Char) : Bool :=
  c = ',' || c = ';' || c = ' ' || (0x09 ≤ c.toNat && c.toNat ≤ 0x0d)

/-- `splitEntries`: a run of separators is one, and what lies between two of a run is empty and
    filtered out. -/
def splitEntries (value : String) : List String :=
  distinctBy id (((splitWhere isSeparator value).map trim).filter (· ≠ ""))

variable (d : MasterDnsConfig)

def MasterDnsConfig.domainList : List String := splitEntries d.domains

def MasterDnsConfig.resolverList : List String := splitEntries d.resolvers

def MasterDnsConfig.isComplete : Bool :=
  !d.domainList.isEmpty && isNotBlank d.encryptionKey && !d.resolverList.isEmpty

def MasterDnsConfig.normalized : MasterDnsConfig where
  domains := joinToString "," d.domainList
  encryptionKey := trim d.encryptionKey
  encryptionMethod := coerceIn d.encryptionMethod 0 5
  resolvers := joinToString "," d.resolverList
  balancingStrategy := coerceIn d.balancingStrategy 0 8
  packetDuplication := coerceIn d.packetDuplication 0 10
  proxyLink := trim d.proxyLink

structure OpenFluxConfig where
  transport : String := "yandex"
  docUrl : String := ""
  maxToken : String := ""
  maxUid : String := ""
  dnsServer : String := "1.1.1.1:53"
  proxyLink : String := ""
  deriving DecidableEq

def OpenFluxConfig.transports : List String :=
  ["yandex", "vyandex", "mailru", "cupsonline", "oneme"]

variable (o : OpenFluxConfig)

def OpenFluxConfig.usesMax : Bool := o.transport = "oneme"

def OpenFluxConfig.isComplete : Bool :=
  if o.transport = "oneme" then isNotBlank o.maxToken && (toLongOrNull (trim o.maxUid)).isSome
  else startsWithIgnoreCase (trim o.docUrl) "http"

def OpenFluxConfig.normalized : OpenFluxConfig where
  transport := if o.transport ∈ OpenFluxConfig.transports then o.transport else "yandex"
  docUrl := trim o.docUrl
  maxToken := trim o.maxToken
  maxUid := trim o.maxUid
  dnsServer := trim o.dnsServer
  proxyLink := trim o.proxyLink

structure SnolcConfig where
  host : String := ""
  port : Int := 443
  publicKey : String := ""
  proxyLink : String := ""
  deriving DecidableEq

/-- `[0-9a-fA-F]{64}`. -/
def isHexKey (key : String) : Bool :=
  key.toList.length = 64 && key.toList.all fun c =>
    c.isDigit || ('a' ≤ c && c ≤ 'f') || ('A' ≤ c && c ≤ 'F')

def SnolcConfig.isComplete (s : SnolcConfig) : Bool :=
  isNotBlank s.host && validPort s.port && isHexKey s.publicKey

def SnolcConfig.normalized (s : SnolcConfig) : SnolcConfig :=
  { s with host := trim s.host, publicKey := lowercase (trim s.publicKey),
           proxyLink := trim s.proxyLink }

/-! ## The location -/

/-- Which backend runs the proxy of a location. -/
inductive ProxyCore where
  | auto | singBox | xray
  deriving DecidableEq, Repr

/-- Options of the proxy core for one location. -/
structure AdvancedCoreConfig where
  muxEnabled : Bool := false
  muxProtocol : String := "h2mux"
  muxMaxStreams : Int := 8
  tcpFastOpen : Bool := false
  sniff : Bool := true
  tlsFragment : Bool := false
  deriving DecidableEq

/-- The FakeDNS of an imported configuration. -/
structure FakeDnsSpec where
  inet4Range : String := "198.18.0.0/15"
  inet6Range : String := "fc00::/18"
  blockRegex : List String := []
  deriving DecidableEq

/-- One more olcRTC room. -/
structure ExtraRoom where
  provider : String := ""
  transport : String := ""
  room : String := ""
  key : String := ""
  deriving DecidableEq

/-- A location, with every field the client stores. -/
structure LocationConfig where
  name : String := ""
  description : String := ""
  id : String := ""
  key : String := ""
  bypassProvider : String := "wbstream"
  transport : String := "vp8channel"
  vp8Fps : Int := 60
  vp8Batch : Int := 64
  transportOptions : List (String × String) := []
  engine : EngineType := .stealth
  proxy : Option ProxyProfile := none
  proxy2 : Option ProxyProfile := none
  proxyEnabled : Bool := true
  core : ProxyCore := .auto
  vkturn : Option VkTurnConfig := none
  masterDns : Option MasterDnsConfig := none
  openFlux : Option OpenFluxConfig := none
  snolc : Option SnolcConfig := none
  advanced : Option AdvancedCoreConfig := none
  routingProfileId : String := ""
  fakeDns : Option FakeDnsSpec := none
  multiRoomEnabled : Bool := false
  extraRooms : List ExtraRoom := []
  multiRoomBond : Bool := false
  bondPort : Int := 0
  deriving DecidableEq

variable (table : List (String × List String))

/-- The canonical name of a value in a table of spellings. -/
def canonicalName (fallback value : String) : String :=
  ((table.find? fun row => row.2.contains (lowercase (trim value))).map Prod.fst).getD fallback

/-- A table whose canonical names are spellings of themselves and of nothing before them. -/
def selfNamed (fallback : String) : Prop :=
  ∀ name ∈ fallback :: table.map Prod.fst, canonicalName table fallback name = name

/-- What a table answers is one of its names or the fallback. -/
theorem canonicalName_mem (fallback value : String) :
    canonicalName table fallback value ∈ fallback :: table.map Prod.fst := by
  unfold canonicalName
  cases h : table.find? fun row => row.2.contains (lowercase (trim value)) with
  | none => simp
  | some row =>
    exact mem_cons_of_mem _ (mem_map.mpr ⟨row, mem_of_find?_eq_some h, rfl⟩)

/-- So a table whose names spell themselves normalises once. -/
theorem canonicalName_canonicalName {table : List (String × List String)} {fallback : String}
    (h : selfNamed table fallback) (value : String) :
    canonicalName table fallback (canonicalName table fallback value) =
      canonicalName table fallback value :=
  h _ (canonicalName_mem table fallback value)

def providerNames : List (String × List String) :=
  [("jazz", ["jazz", "sberjazz", "sber_jazz"]),
   ("telemost", ["telemost", "yandex", "yandex_telemost"]),
   ("wbstream", ["wbstream", "wb-stream", "wildberries"]),
   ("jitsi", ["jitsi", "jitsi-meet", "jitsi_meet", "meet"])]

@[irreducible] def normalizeProvider (value : String) : String :=
  canonicalName providerNames "wbstream" value

/-- The transports of a provider, best first. -/
def supportedTransportsForProvider (provider : String) : List String :=
  let provider := normalizeProvider provider
  if provider = "telemost" then ["vp8channel", "videochannel", "seichannel", "datachannel"]
  else if provider = "wbstream" then ["vp8channel", "seichannel", "videochannel", "datachannel"]
  else if provider = "jitsi" ∨ provider = "jazz" then
    ["datachannel", "vp8channel", "seichannel", "videochannel"]
  else ["datachannel", "vp8channel", "seichannel", "videochannel"]

def transportNames : List (String × List String) :=
  [("datachannel", ["datachannel", "data", "dc"]),
   ("vp8channel", ["vp8channel", "vp8", "video_vp8", "video-vp8"]),
   ("seichannel", ["seichannel", "sei", "sei_channel", "sei-channel", "h264_sei"]),
   ("videochannel", ["videochannel", "video", "video_channel", "video-channel"])]

@[irreducible] def normalizeTransport (value provider : String) : String :=
  let normalized := canonicalName transportNames "vp8channel" value
  let supported := supportedTransportsForProvider provider
  if normalized ∈ supported then normalized else supported.headD "vp8channel"

/-- Lower-case keys, trimmed values, no blanks. -/
def normalizeTransportOptions (options : List (String × String)) : List (String × String) :=
  toLinkedMap ((options.map fun option => (lowercase (trim option.1), trim option.2)).filter
    fun option => option.1 ≠ "" ∧ option.2 ≠ "")

@[simps] def LocationConfig.normalized (c : LocationConfig) : LocationConfig :=
  { c with
    name := trim c.name
    description := trim c.description
    id := trim c.id
    key := trim c.key
    bypassProvider := normalizeProvider c.bypassProvider
    transport := normalizeTransport c.transport (normalizeProvider c.bypassProvider)
    vp8Fps := coerceIn c.vp8Fps 1 120
    vp8Batch := coerceIn c.vp8Batch 1 64
    transportOptions := normalizeTransportOptions c.transportOptions
    masterDns := c.masterDns.map MasterDnsConfig.normalized
    openFlux := c.openFlux.map OpenFluxConfig.normalized
    snolc := c.snolc.map SnolcConfig.normalized
    routingProfileId := trim c.routingProfileId }

variable (c : LocationConfig)

/-- The exit of a VK-TURN location; the WDTT and csqtt servers hand theirs over at run time. -/
def LocationConfig.vkTurnExitPresent : Bool :=
  if c.vkturn.any VkTurnConfig.usesWdtt then true
  else if c.vkturn.any VkTurnConfig.usesCsqtt then true
  else if c.vkturn.map VkTurnConfig.outbound = some "proxy" then
    c.proxy.any ProxyProfile.isComplete
  else if c.vkturn.map VkTurnConfig.outbound = some "amneziawg" then
    c.proxy.any fun p => isNotBlank p.awgConfig
  else c.proxy.any fun p => p.rawOutbound.any isNotBlank

/-- Whether the location is kept in the list. -/
def LocationConfig.isStorable : Bool :=
  match c.engine with
  | .stealth => isNotBlank c.id && isNotBlank c.key
  | .standard => c.proxy.any ProxyProfile.isComplete
  | .chain => c.proxy.any ProxyProfile.isComplete && isNotBlank c.id && isNotBlank c.key
  | .vkTurn => c.vkturn.any VkTurnConfig.isStorable && c.vkTurnExitPresent
  | .masterDns => c.masterDns.any MasterDnsConfig.isComplete
  | .openFlux => c.openFlux.any OpenFluxConfig.isComplete
  | .snolc => c.snolc.any SnolcConfig.isComplete

def LocationConfig.displayName : String := ifBlank c.name c.id

/-! ## The stored form is a fixed point -/

/-- The entries of a list have no separator in them, so joining them loses nothing. -/
theorem splitEntries_spec (value : String) : ((splitEntries value).map id).Nodup ∧
      ∀ s ∈ splitEntries value, Trimmed s ∧ s ≠ "" ∧ ∀ c ∈ s.toList, isSeparator c = false := by
  refine ⟨nodup_distinctBy _, fun s hs => ?_⟩
  have hmem := (distinctBy_sublist _).subset hs
  obtain ⟨hmap, hne⟩ := mem_filter.mp hmem
  obtain ⟨piece, hpiece, rfl⟩ := mem_map.mp hmap
  refine ⟨trimmed_trim piece, by simpa using hne, fun c hc => ?_⟩
  obtain ⟨l, hl, rfl⟩ := mem_map.mp hpiece
  exact not_of_mem_splitOnP hl c (by simpa using mem_of_mem_trim hc)

/-- The list is read back from its joined text. -/
theorem splitEntries_joinToString (value : String) :
    splitEntries (joinToString "," (splitEntries value)) = splitEntries value := by
  obtain ⟨hnd, hall⟩ := splitEntries_spec value
  generalize splitEntries value = parts at hnd hall
  by_cases hne : parts = []
  · subst hne
    rfl
  · have hsplit : splitWhere isSeparator (joinToString "," parts) = parts :=
      splitWhere_joinToString ',' rfl hne fun s hs => (hall s hs).2.2
    have htrim : parts.map trim = parts := by
      refine (map_congr_left fun s hs => ?_).trans (map_id parts)
      exact trim_of_trimmed (hall s hs).1
    have hfilter : parts.filter (· ≠ "") = parts :=
      filter_eq_self.mpr fun s hs => by simpa using (hall s hs).2.1
    rw [splitEntries, hsplit, htrim, hfilter, distinctBy_eq_self hnd]

variable (d : MasterDnsConfig)

@[simp] theorem MasterDnsConfig.domainList_normalized : d.normalized.domainList = d.domainList :=
  splitEntries_joinToString _

@[simp] theorem MasterDnsConfig.resolverList_normalized :
    d.normalized.resolverList = d.resolverList :=
  splitEntries_joinToString _

/-- Lists, bounds and texts are all in their normal form after one pass. -/
theorem MasterDnsConfig.normalized_normalized : d.normalized.normalized = d.normalized := by
  have h1 := coerceIn_coerceIn d.encryptionMethod 0 5
  have h2 := coerceIn_coerceIn d.balancingStrategy 0 8
  have h3 := coerceIn_coerceIn d.packetDuplication 0 10
  rw [normalized, domainList_normalized, resolverList_normalized]
  simp [normalized, h1, h2, h3]

theorem OpenFluxConfig.normalized_normalized (o : OpenFluxConfig) :
    o.normalized.normalized = o.normalized := by
  have htransport : o.normalized.transport ∈ OpenFluxConfig.transports := by
    simp only [normalized]
    split_ifs with h
    · exact h
    · decide
  rw [normalized, if_pos htransport]
  simp [normalized]

/-- Lower case makes no white space. -/
theorem trim_lowercase_trim (s : String) : trim (lowercase (trim s)) = lowercase (trim s) :=
  trim_of_trimmed (trimmed_trim s).lowercase

theorem SnolcConfig.normalized_normalized (s : SnolcConfig) :
    s.normalized.normalized = s.normalized := by
  simp [normalized, trim_lowercase_trim]

/-- Both tables of the source spell their own names. -/
theorem providerNames_selfNamed : selfNamed providerNames "wbstream" := by
  unfold selfNamed
  decide

theorem transportNames_selfNamed : selfNamed transportNames "vp8channel" := by
  unfold selfNamed
  decide

@[simp] theorem normalizeProvider_normalizeProvider (value : String) :
    normalizeProvider (normalizeProvider value) = normalizeProvider value := by
  unfold normalizeProvider
  exact canonicalName_canonicalName providerNames_selfNamed value

/-- Every provider supports every transport, so the order of the list is only advice. -/
theorem mem_supportedTransports {name : String}
    (h : name ∈ "vp8channel" :: transportNames.map Prod.fst) (provider : String) :
    name ∈ supportedTransportsForProvider provider := by
  have hall : ∀ name ∈ "vp8channel" :: transportNames.map Prod.fst,
      name ∈ ["vp8channel", "videochannel", "seichannel", "datachannel"] ∧
      name ∈ ["vp8channel", "seichannel", "videochannel", "datachannel"] ∧
      name ∈ ["datachannel", "vp8channel", "seichannel", "videochannel"] := by decide
  obtain ⟨h1, h2, h3⟩ := hall name h
  unfold supportedTransportsForProvider
  dsimp only
  split_ifs
  · exact h1
  · exact h2
  · exact h3
  · exact h3

/-- Every provider offers every transport, so only the name is normalised. -/
theorem normalizeTransport_eq (value provider : String) :
    normalizeTransport value provider = canonicalName transportNames "vp8channel" value := by
  have h := mem_supportedTransports (canonicalName_mem transportNames "vp8channel" value) provider
  unfold normalizeTransport
  simp only [h, if_true]

/-- Also with another provider the second time. -/
@[simp] theorem normalizeTransport_normalizeTransport (value p q : String) :
    normalizeTransport (normalizeTransport value p) q = normalizeTransport value p := by
  rw [normalizeTransport_eq, normalizeTransport_eq,
    canonicalName_canonicalName transportNames_selfNamed]

/-- Options are trimmed, without blanks and one to a name; a second pass finds them so. -/
theorem normalizeTransportOptions_idem (options : List (String × String)) :
    normalizeTransportOptions (normalizeTransportOptions options) =
      normalizeTransportOptions options := by
  have hnd := nodup_toLinkedMap ((options.map fun o => (lowercase (trim o.1), trim o.2)).filter
    fun o => o.1 ≠ "" ∧ o.2 ≠ "")
  -- every option of the result is lower-cased and trimmed, and not empty
  have hall : ∀ o ∈ normalizeTransportOptions options,
      (lowercase (trim o.1), trim o.2) = o ∧ o.1 ≠ "" ∧ o.2 ≠ "" := by
    intro o ho
    obtain ⟨hmap, hne⟩ := mem_filter.mp (mem_of_mem_toLinkedMap ho)
    obtain ⟨raw, -, rfl⟩ := mem_map.mp hmap
    exact ⟨by simp [trim_lowercase_trim], by simpa using hne⟩
  change ((normalizeTransportOptions options).map Prod.fst).Nodup at hnd
  generalize normalizeTransportOptions options = result at hnd hall ⊢
  have hmap : (result.map fun o => (lowercase (trim o.1), trim o.2)) = result :=
    (map_congr_left fun o ho => (hall o ho).1).trans (map_id result)
  have hfilter : (result.filter fun o => o.1 ≠ "" ∧ o.2 ≠ "") = result :=
    filter_eq_self.mpr fun o ho => by simpa using (hall o ho).2
  rw [normalizeTransportOptions, hmap, hfilter, toLinkedMap_eq_self hnd]

/-- Storing a stored location changes nothing. -/
@[simp] theorem LocationConfig.normalized_normalized : c.normalized.normalized = c.normalized := by
  have h1 := coerceIn_coerceIn c.vp8Fps 1 120
  have h2 := coerceIn_coerceIn c.vp8Batch 1 64
  have h3 : (c.masterDns.map MasterDnsConfig.normalized).map MasterDnsConfig.normalized =
      c.masterDns.map MasterDnsConfig.normalized := by
    cases c.masterDns <;> simp [MasterDnsConfig.normalized_normalized]
  have h4 : (c.openFlux.map OpenFluxConfig.normalized).map OpenFluxConfig.normalized =
      c.openFlux.map OpenFluxConfig.normalized := by
    cases c.openFlux <;> simp [OpenFluxConfig.normalized_normalized]
  have h5 : (c.snolc.map SnolcConfig.normalized).map SnolcConfig.normalized =
      c.snolc.map SnolcConfig.normalized := by
    cases c.snolc <;> simp [SnolcConfig.normalized_normalized]
  unfold normalized
  simp only [h1, h2, h3, h4, h5, trim_trim, normalizeProvider_normalizeProvider,
    normalizeTransport_normalizeTransport, normalizeTransportOptions_idem]

end OlcVpn.Locations
