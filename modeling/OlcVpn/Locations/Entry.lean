/-
  STORED ENTRIES and the bundle that holds them.

  An entry is a location with a storage id, the URL of the subscription it came from and metadata.
  Old files spell many of its fields differently; `LocationEntry.location` reads whichever spelling
  is there, and `normalized` writes the current one and clears the rest.  A bundle is normalized
  before every save: entries that cannot be stored are dropped, and of two entries with one
  storage id only the FIRST survives.
-/
import Mathlib.Data.List.ReduceOption
import OlcVpn.Locations.Config

namespace OlcVpn.Locations

open Kotlin List Option

/-! ## Metadata -/

structure SubscriptionMetadata where
  name : Option String := none
  update : Option String := none
  refresh : Option String := none
  color : Option String := none
  icon : Option String := none
  used : Option String := none
  available : Option String := none
  updateIntervalHours : Option Int := none
  lastRefreshAtEpochMs : Option Int := none
  expiresAtEpochMs : Option Int := none
  lastAttemptAtEpochMs : Option Int := none
  autoUpdateEnabled : Bool := true
  supportUrl : Option String := none
  webPageUrl : Option String := none
  iconUrl : Option String := none
  announce : Option String := none
  providerId : Option String := none
  customName : Option String := none

/-- `cleanMetadataValue()`: trimmed, and absent if nothing is left. -/
def cleanMetadataValue (value : Option String) : Option String :=
  (value.map trim).filter (· ≠ "")

/-- `isNullOrBlank()`. -/
def isNullOrBlank (value : Option String) : Bool := value.all isBlank

variable (s : SubscriptionMetadata)

def SubscriptionMetadata.normalized : SubscriptionMetadata where
  name := cleanMetadataValue s.name
  update := cleanMetadataValue s.update
  refresh := cleanMetadataValue s.refresh
  color := cleanMetadataValue s.color
  icon := cleanMetadataValue s.icon
  used := cleanMetadataValue s.used
  available := cleanMetadataValue s.available
  updateIntervalHours := s.updateIntervalHours.map (coerceIn · 1 720)
  lastRefreshAtEpochMs := s.lastRefreshAtEpochMs.filter (0 < ·)
  expiresAtEpochMs := s.expiresAtEpochMs.filter (0 < ·)
  lastAttemptAtEpochMs := s.lastAttemptAtEpochMs.filter (0 < ·)
  autoUpdateEnabled := s.autoUpdateEnabled
  supportUrl := cleanMetadataValue s.supportUrl
  webPageUrl := cleanMetadataValue s.webPageUrl
  iconUrl := cleanMetadataValue s.iconUrl
  announce := cleanMetadataValue s.announce
  providerId := cleanMetadataValue s.providerId
  customName := cleanMetadataValue s.customName

/-- Nothing worth keeping.  The user's own name (`customName`) is not asked for. -/
def SubscriptionMetadata.isEmpty : Bool :=
  isNullOrBlank s.name && isNullOrBlank s.update && isNullOrBlank s.refresh &&
  isNullOrBlank s.color && isNullOrBlank s.icon && isNullOrBlank s.used &&
  isNullOrBlank s.available && s.updateIntervalHours.isNone && s.lastRefreshAtEpochMs.isNone &&
  s.expiresAtEpochMs.isNone && s.lastAttemptAtEpochMs.isNone && s.autoUpdateEnabled &&
  isNullOrBlank s.supportUrl && isNullOrBlank s.webPageUrl && isNullOrBlank s.iconUrl &&
  isNullOrBlank s.announce && isNullOrBlank s.providerId

structure LocationMetadata where
  name : Option String := none
  color : Option String := none
  icon : Option String := none
  used : Option String := none
  available : Option String := none
  ip : Option String := none
  comment : Option String := none
  mimo : Option String := none
  subscription : Option SubscriptionMetadata := none

variable (m : LocationMetadata)

def LocationMetadata.normalized : LocationMetadata where
  name := cleanMetadataValue m.name
  color := cleanMetadataValue m.color
  icon := cleanMetadataValue m.icon
  used := cleanMetadataValue m.used
  available := cleanMetadataValue m.available
  ip := cleanMetadataValue m.ip
  comment := cleanMetadataValue m.comment
  mimo := cleanMetadataValue m.mimo
  subscription := (m.subscription.map SubscriptionMetadata.normalized).filter (!·.isEmpty)

def LocationMetadata.isEmpty : Bool :=
  isNullOrBlank m.name && isNullOrBlank m.color && isNullOrBlank m.icon && isNullOrBlank m.used &&
  isNullOrBlank m.available && isNullOrBlank m.ip && isNullOrBlank m.comment &&
  isNullOrBlank m.mimo && m.subscription.all SubscriptionMetadata.isEmpty

/-! ## Entries -/

structure LocationEndpointConfig where
  roomId : String := ""
  key : String := ""

structure Vp8TransportConfig where
  fps : Int := 60
  batch : Int := 64

structure LocationTransportConfig where
  type : String := "vp8channel"
  vp8 : Option Vp8TransportConfig := none
  options : List (String × String) := []

/-- `LocationTransportConfig.from(config)`. -/
def LocationTransportConfig.ofConfig (config : LocationConfig) : LocationTransportConfig :=
  let normalized := config.normalized
  { type := normalized.transport
    vp8 :=
      if normalized.transport = "vp8channel" then
        some ⟨coerceIn normalized.vp8Fps 1 120, coerceIn normalized.vp8Batch 1 64⟩
      else none
    options := normalized.transportOptions }

/-- A stored entry.  The fields that begin with `legacy` are the spellings of older files. -/
structure LocationEntry where
  storageId : String
  name : String := ""
  description : String := ""
  subscriptionUrl : Option String := none
  endpoint : Option LocationEndpointConfig := none
  engine : Option EngineType := none
  proxy : Option ProxyProfile := none
  proxy2 : Option ProxyProfile := none
  proxyEnabled : Bool := true
  core : Option ProxyCore := none
  vkturn : Option VkTurnConfig := none
  masterDns : Option MasterDnsConfig := none
  openFlux : Option OpenFluxConfig := none
  snolc : Option SnolcConfig := none
  advanced : Option AdvancedCoreConfig := none
  fakeDns : Option FakeDnsSpec := none
  routingProfileId : Option String := none
  authProvider : Option String := none
  transport : Option LocationTransportConfig := none
  metadata : Option LocationMetadata := none
  legacyCarrier : Option String := none
  legacySubscriptionUrl : Option String := none
  legacyId : Option String := none
  legacyRoomId : Option String := none
  legacyServer : Option String := none
  legacyKey : Option String := none
  legacyPassword : Option String := none
  legacyBypassProvider : Option String := none
  legacyBypassProviderCamel : Option String := none
  legacyProvider : Option String := none
  legacyVp8Fps : Option Int := none
  legacyVp8FpsCamel : Option Int := none
  legacyVp8Batch : Option Int := none
  legacyVp8BatchCamel : Option Int := none
  multiRoomEnabled : Bool := false
  extraRooms : List ExtraRoom := []
  multiRoomBond : Bool := false
  bondPort : Int := 0

/-- `firstNotBlank(values)`. -/
def firstNotBlank (values : List (Option String)) : String :=
  (values.reduceOption.find? isNotBlank).getD ""

/-- The location an entry stands for. -/
def LocationEntry.location (e : LocationEntry) : LocationConfig :=
  let transport := e.transport.getD {}
  LocationConfig.normalized
    { name := e.name
      description := e.description
      id := firstNotBlank
        [e.endpoint.map LocationEndpointConfig.roomId, e.legacyId, e.legacyRoomId, e.legacyServer]
      key := firstNotBlank
        [e.endpoint.map LocationEndpointConfig.key, e.legacyKey, e.legacyPassword]
      bypassProvider := firstNotBlank
        [e.authProvider, e.legacyCarrier, e.legacyBypassProvider, e.legacyBypassProviderCamel,
         e.legacyProvider]
      transport := transport.type
      vp8Fps := ((transport.vp8.map Vp8TransportConfig.fps).or
        (e.legacyVp8Fps.or e.legacyVp8FpsCamel)).getD 60
      vp8Batch := ((transport.vp8.map Vp8TransportConfig.batch).or
        (e.legacyVp8Batch.or e.legacyVp8BatchCamel)).getD 64
      transportOptions := transport.options
      engine := e.engine.getD .stealth
      proxy := e.proxy
      proxy2 := e.proxy2
      proxyEnabled := e.proxyEnabled
      core := e.core.getD .auto
      vkturn := e.vkturn
      masterDns := e.masterDns
      openFlux := e.openFlux
      snolc := e.snolc
      advanced := e.advanced
      fakeDns := e.fakeDns
      routingProfileId := e.routingProfileId.getD ""
      multiRoomEnabled := e.multiRoomEnabled
      extraRooms := e.extraRooms
      multiRoomBond := e.multiRoomBond
      bondPort := e.bondPort }

/-- The entry of a location in the current spelling, shared by `normalized` and `ofLocation`. -/
def LocationEntry.ofConfig (storageId : String) (config : LocationConfig)
    (subscriptionUrl : Option String) (metadata : Option LocationMetadata) : LocationEntry where
  storageId := storageId
  name := config.name
  description := config.description
  subscriptionUrl := subscriptionUrl
  endpoint := some ⟨config.id, config.key⟩
  engine := some config.engine
  proxy := config.proxy
  proxy2 := config.proxy2
  proxyEnabled := config.proxyEnabled
  core := some config.core
  vkturn := config.vkturn
  masterDns := config.masterDns
  openFlux := config.openFlux
  snolc := config.snolc
  advanced := config.advanced
  fakeDns := config.fakeDns
  routingProfileId := if isBlank config.routingProfileId then none else some config.routingProfileId
  authProvider := some config.bypassProvider
  transport := some (LocationTransportConfig.ofConfig config)
  multiRoomEnabled := config.multiRoomEnabled
  extraRooms := config.extraRooms
  multiRoomBond := config.multiRoomBond
  bondPort := config.bondPort
  metadata := metadata

def LocationEntry.normalized (e : LocationEntry) : LocationEntry :=
  let url := firstNotBlank [e.subscriptionUrl, e.legacySubscriptionUrl]
  LocationEntry.ofConfig (trim e.storageId) e.location (if isBlank url then none else some url)
    ((e.metadata.map LocationMetadata.normalized).filter (!·.isEmpty))

/-- `LocationEntry.from(...)`. -/
def LocationEntry.ofLocation (storageId : String) (location : LocationConfig)
    (subscriptionUrl : Option String) (metadata : Option LocationMetadata) : LocationEntry :=
  (LocationEntry.ofConfig storageId location.normalized subscriptionUrl metadata).normalized

/-! ## The bundle -/

structure LocationBundle where
  activeLocationId : Option String := none
  locations : List LocationEntry := []

def LocationBundle.normalized (b : LocationBundle) : LocationBundle :=
  let normalizedLocations := distinctBy LocationEntry.storageId
    ((b.locations.map LocationEntry.normalized).filter
      fun e => isNotBlank e.storageId && e.location.isStorable)
  { activeLocationId :=
      (b.activeLocationId.filter fun id => normalizedLocations.any (·.storageId = id)).or
        (normalizedLocations.head?.map LocationEntry.storageId)
    locations := normalizedLocations }

/-! ## Saving again changes nothing -/

@[simp] theorem cleanMetadataValue_clean (value : Option String) :
    cleanMetadataValue (cleanMetadataValue value) = cleanMetadataValue value := by
  cases value with
  | none => rfl
  | some s =>
    by_cases h : trim s = "" <;> simp [cleanMetadataValue, Option.filter, h]

theorem SubscriptionMetadata.normalized_normalized : s.normalized.normalized = s.normalized := by
  have hhours : (s.updateIntervalHours.map (coerceIn · 1 720)).map (coerceIn · 1 720) =
      s.updateIntervalHours.map (coerceIn · 1 720) := by
    cases s.updateIntervalHours <;> simp [coerceIn_coerceIn]
  have htime : ∀ t : Option Int, (t.filter (0 < ·)).filter (0 < ·) = t.filter (0 < ·) := by
    intro t
    simp [Option.filter_filter]
  simp only [normalized, cleanMetadataValue_clean, hhours, htime]

/-- Cleaning and dropping what is empty is done in one pass. -/
theorem filter_map_idem {α : Type} {f : α → α} {keep : α → Bool} (hf : ∀ a, f (f a) = f a)
    (value : Option α) : (((value.map f).filter keep).map f).filter keep =
      (value.map f).filter keep := by
  cases value with
  | none => rfl
  | some a =>
    by_cases h : keep (f a) = true <;> simp [Option.filter, h, hf]

theorem LocationMetadata.normalized_normalized : m.normalized.normalized = m.normalized := by
  simp only [normalized, cleanMetadataValue_clean,
    filter_map_idem SubscriptionMetadata.normalized_normalized]

/-- What is left of a location once it is stored: the VP8 options go with their transport. -/
def LocationConfig.stored (c : LocationConfig) : LocationConfig :=
  { c with
    vp8Fps := if c.transport = "vp8channel" then c.vp8Fps else 60
    vp8Batch := if c.transport = "vp8channel" then c.vp8Batch else 64 }

@[simp] theorem LocationConfig.stored_isStorable (c : LocationConfig) :
    c.stored.isStorable = c.isStorable := rfl

variable {c : LocationConfig} {s : String} {b : LocationBundle} {e : LocationEntry}

/-- What is left of a normalised location is in its normal form. -/
theorem LocationConfig.stored_normalized (h : c.normalized = c) :
    c.stored.normalized = c.stored := by
  have hfps : coerceIn c.vp8Fps 1 120 = c.vp8Fps := congrArg LocationConfig.vp8Fps h
  have hbatch : coerceIn c.vp8Batch 1 64 = c.vp8Batch := congrArg LocationConfig.vp8Batch h
  calc c.stored.normalized
      = { c.normalized with
          vp8Fps := coerceIn c.stored.vp8Fps 1 120
          vp8Batch := coerceIn c.stored.vp8Batch 1 64 } := by
        simp only [normalized, stored]
    _ = c.stored := by
        rw [h]
        by_cases ht : c.transport = "vp8channel"
        · simp [stored, ht, hfps, hbatch]
        · simp [stored, ht, coerceIn]

theorem firstNotBlank_of_trimmed (h : Trimmed s) (rest : List (Option String))
    (hrest : rest.reduceOption = []) : firstNotBlank (some s :: rest) = s := by
  rw [firstNotBlank, reduceOption_cons_of_some, hrest]
  by_cases hb : isNotBlank s = true
  · simp [hb]
  · have hs : s = "" := h.isBlank_iff.mp (by simpa [isNotBlank] using hb)
    subst hs
    simp [isNotBlank]

theorem trimmed_of_trim_eq {t : String} (h : trim s = t) : Trimmed t := h ▸ trimmed_trim s

theorem trimmed_normalizeProvider (value : String) : Trimmed (normalizeProvider value) := by
  have hall : ∀ name ∈ "wbstream" :: providerNames.map Prod.fst, trim name = name := by decide
  unfold normalizeProvider
  exact trimmed_of_trim_eq (hall _ (canonicalName_mem providerNames "wbstream" value))

theorem ifBlank_none_getD (h : Trimmed s) : (if isBlank s then none else some s).getD "" = s := by
  split_ifs with hb
  · exact (h.isBlank_iff.mp hb).symm
  · rfl

/-- The location of an entry written from a normalized location. -/
theorem LocationEntry.ofConfig_location (h : c.normalized = c) (storageId : String)
    (url : Option String) (metadata : Option LocationMetadata) :
    (LocationEntry.ofConfig storageId c url metadata).location = c.stored := by
  have hid : firstNotBlank [some c.id, none, none, none] = c.id := by
    have heq := congrArg LocationConfig.id h
    rw [LocationConfig.normalized_id] at heq
    exact firstNotBlank_of_trimmed (trimmed_of_trim_eq heq) _ rfl
  have hkey : firstNotBlank [some c.key, none, none] = c.key := by
    have heq := congrArg LocationConfig.key h
    rw [LocationConfig.normalized_key] at heq
    exact firstNotBlank_of_trimmed (trimmed_of_trim_eq heq) _ rfl
  have hprovider : firstNotBlank [some c.bypassProvider, none, none, none, none] =
      c.bypassProvider := by
    have heq := congrArg LocationConfig.bypassProvider h
    rw [LocationConfig.normalized_bypassProvider] at heq
    have htrimmed := trimmed_normalizeProvider c.bypassProvider
    rw [heq] at htrimmed
    exact firstNotBlank_of_trimmed htrimmed _ rfl
  have hroute : (if isBlank c.routingProfileId then none else some c.routingProfileId).getD "" =
      c.routingProfileId := by
    have heq := congrArg LocationConfig.routingProfileId h
    rw [LocationConfig.normalized_routingProfileId] at heq
    exact ifBlank_none_getD (trimmed_of_trim_eq heq)
  have hfps := congrArg LocationConfig.vp8Fps h
  have hbatch := congrArg LocationConfig.vp8Batch h
  rw [LocationConfig.normalized_vp8Fps] at hfps
  rw [LocationConfig.normalized_vp8Batch] at hbatch
  rw [← LocationConfig.stored_normalized h]
  unfold location
  refine congrArg LocationConfig.normalized ?_
  simp only [ofConfig, LocationTransportConfig.ofConfig, h, getD_some, map_some,
    hid, hkey, hprovider, hroute, hfps, hbatch, LocationConfig.stored]
  by_cases ht : c.transport = "vp8channel" <;> simp [ht]

/-- The location of an entry is always in its normal form. -/
@[simp] theorem LocationEntry.location_isNormalized (e : LocationEntry) :
    e.location.normalized = e.location := LocationConfig.normalized_normalized _

/-- A saved entry stands for the same location. -/
theorem LocationEntry.location_normalized (e : LocationEntry) :
    e.normalized.location = e.location.stored :=
  ofConfig_location e.location_isNormalized _ _ _

/-- The VP8 options of another transport leave no trace in an entry. -/
theorem LocationEntry.ofConfig_stored (h : c.normalized = c) (storageId : String)
    (url : Option String) (metadata : Option LocationMetadata) :
    LocationEntry.ofConfig storageId c.stored url metadata =
      LocationEntry.ofConfig storageId c url metadata := by
  have htransport : LocationTransportConfig.ofConfig c.stored =
      LocationTransportConfig.ofConfig c := by
    simp only [LocationTransportConfig.ofConfig, LocationConfig.stored_normalized h, h]
    by_cases ht : c.transport = "vp8channel" <;> simp [LocationConfig.stored, ht]
  unfold ofConfig
  rw [htransport]
  rfl

/-- The subscription URL an entry is saved with. -/
def LocationEntry.savedUrl (e : LocationEntry) : Option String :=
  let url := firstNotBlank [e.subscriptionUrl, e.legacySubscriptionUrl]
  if isBlank url then none else some url

/-- The metadata an entry is saved with. -/
def savedMetadata (metadata : Option LocationMetadata) : Option LocationMetadata :=
  (metadata.map LocationMetadata.normalized).filter (!·.isEmpty)

theorem savedMetadata_savedMetadata (metadata : Option LocationMetadata) :
    savedMetadata (savedMetadata metadata) = savedMetadata metadata :=
  filter_map_idem LocationMetadata.normalized_normalized metadata

/-- NORMALISING AN ENTRY rewrites it from its id, location, URL and metadata. -/
theorem LocationEntry.normalized_eq (e : LocationEntry) : e.normalized =
      LocationEntry.ofConfig (trim e.storageId) e.location e.savedUrl (savedMetadata e.metadata) :=
    rfl

theorem LocationEntry.savedUrl_normalized (e : LocationEntry) :
    e.normalized.savedUrl = e.savedUrl := by
  have hurl : e.normalized.subscriptionUrl = e.savedUrl := rfl
  have hlegacy : e.normalized.legacySubscriptionUrl = none := rfl
  rw [savedUrl, hurl, hlegacy, savedUrl]
  generalize firstNotBlank [e.subscriptionUrl, e.legacySubscriptionUrl] = url
  by_cases hb : isBlank url = true
  · simp [hb, firstNotBlank, List.reduceOption]
  · simp [hb, firstNotBlank, List.reduceOption, isNotBlank]

/-- Saving a saved entry changes nothing. -/
@[simp] theorem LocationEntry.normalized_normalized (e : LocationEntry) :
    e.normalized.normalized = e.normalized := by
  have hmeta : savedMetadata e.normalized.metadata = savedMetadata e.metadata :=
    savedMetadata_savedMetadata e.metadata
  have hid : trim e.normalized.storageId = trim e.storageId := trim_trim e.storageId
  rw [normalized_eq e.normalized, location_normalized, savedUrl_normalized, hmeta, hid,
    ofConfig_stored e.location_isNormalized, ← normalized_eq]

/-- An entry the save keeps as it is. -/
structure LocationEntry.Stored (e : LocationEntry) : Prop where
  fixed : e.normalized = e
  named : isNotBlank e.storageId = true
  storable : e.location.isStorable = true

/-- Of stored entries the save drops only those whose id an earlier entry has. -/
theorem LocationBundle.locations_normalized (hall : ∀ e ∈ b.locations, e.Stored) :
    b.normalized.locations = distinctBy LocationEntry.storageId b.locations := by
  have hmap : b.locations.map LocationEntry.normalized = b.locations :=
    (map_congr_left fun e he => (hall e he).fixed).trans (map_id _)
  have hfilter : (b.locations.filter fun e => isNotBlank e.storageId && e.location.isStorable) =
      b.locations :=
    filter_eq_self.mpr fun e he => by simp [(hall e he).named, (hall e he).storable]
  simp only [normalized, hmap, hfilter]

/-- What the save leaves: stored entries with distinct ids. -/
theorem LocationBundle.stored_of_mem_normalized (h : e ∈ b.normalized.locations) : e.Stored := by
  have hmem := (distinctBy_sublist _).subset h
  obtain ⟨hmap, hkeep⟩ := mem_filter.mp hmem
  obtain ⟨raw, -, rfl⟩ := mem_map.mp hmap
  simp only [Bool.and_eq_true] at hkeep
  exact ⟨raw.normalized_normalized, hkeep.1, hkeep.2⟩

variable (b : LocationBundle)

/-- A normalised bundle has every id once. -/
theorem LocationBundle.nodup_normalized :
    (b.normalized.locations.map LocationEntry.storageId).Nodup :=
  nodup_distinctBy _

/-- A selection that is still in the list stays. -/
theorem LocationBundle.activeLocationId_normalized (hmem : e ∈ b.normalized.locations)
    (hactive : b.activeLocationId = some e.storageId) :
    b.normalized.activeLocationId = some e.storageId := by
  have hknown : b.normalized.locations.any (·.storageId = e.storageId) = true :=
    any_eq_true.mpr ⟨e, hmem, by simp⟩
  have hkeep : b.normalized.activeLocationId =
      (b.activeLocationId.filter fun id => b.normalized.locations.any (·.storageId = id)).or
        (b.normalized.locations.head?.map LocationEntry.storageId) := rfl
  rw [hkeep, hactive, filter_some, hknown]
  rfl

/-- A bundle as the storage has it: it has been through the save. -/
structure StoredBundle where
  bundle : LocationBundle
  isNormalized : bundle.normalized = bundle

theorem StoredBundle.stored (b : StoredBundle) (h : e ∈ b.bundle.locations) : e.Stored := by
  rw [← b.isNormalized] at h
  exact LocationBundle.stored_of_mem_normalized h

theorem StoredBundle.nodup (b : StoredBundle) :
    (b.bundle.locations.map LocationEntry.storageId).Nodup := by
  rw [← b.isNormalized]
  exact b.bundle.nodup_normalized

/-- The selection is one of the entries. -/
theorem LocationBundle.active_mem {id : String} (h : b.normalized.activeLocationId = some id) :
    id ∈ b.normalized.locations.map LocationEntry.storageId := by
  rcases or_eq_some_iff.mp h with h | ⟨-, h⟩
  · obtain ⟨e, he, hid⟩ := any_eq_true.mp (filter_eq_some_iff.mp h).2
    exact mem_map.mpr ⟨e, he, of_decide_eq_true hid⟩
  · obtain ⟨e, he, rfl⟩ := map_eq_some_iff.mp h
    exact mem_map_of_mem (mem_of_mem_head? he)

/-- Nothing is selected exactly where there is nothing to select. -/
theorem LocationBundle.active_eq_none_iff :
    b.normalized.activeLocationId = none ↔ b.normalized.locations = [] := by
  constructor
  · intro h
    exact head?_eq_none_iff.mp (map_eq_none_iff.mp (or_eq_none_iff.mp h).2)
  · intro h
    cases hid : b.normalized.activeLocationId with
    | none => rfl
    | some id => simpa [h] using b.active_mem hid

/-- Saving again changes nothing, so what the save leaves is a stored bundle. -/
theorem LocationBundle.normalized_normalized : b.normalized.normalized = b.normalized := by
  have hlocations : b.normalized.normalized.locations = b.normalized.locations :=
    (locations_normalized fun e he => stored_of_mem_normalized he).trans
      (distinctBy_eq_self b.nodup_normalized)
  have hactive : b.normalized.normalized.activeLocationId = b.normalized.activeLocationId := by
    cases hid : b.normalized.activeLocationId with
    | none =>
      exact b.normalized.active_eq_none_iff.mpr (hlocations.trans (b.active_eq_none_iff.mp hid))
    | some id =>
      obtain ⟨e, he, rfl⟩ := mem_map.mp (b.active_mem hid)
      exact b.normalized.activeLocationId_normalized (hlocations ▸ he) hid
  cases hb : b.normalized.normalized with
  | mk active locations => simp_all

/-- What is relied on where a bundle is normalized only when it is read. -/
structure LocationBundle.Settled (b : LocationBundle) : Prop where
  again : b.normalized.normalized = b.normalized
  distinct : (b.normalized.locations.map LocationEntry.storageId).Nodup
  stored : ∀ e ∈ b.normalized.locations, e.Stored
  ordered : b.normalized.locations.Sublist (b.locations.map LocationEntry.normalized)
  /-- Of the entries with one id that can be stored the first survives. -/
  first : ∀ before e after, b.locations = before ++ e :: after → e.normalized.Stored →
    (∀ d ∈ before, d.normalized.Stored → d.normalized.storageId ≠ e.normalized.storageId) →
    e.normalized ∈ b.normalized.locations
  unselected : b.normalized.activeLocationId = none ↔ b.normalized.locations = []
  selected : ∀ id, b.normalized.activeLocationId = some id →
    id ∈ b.normalized.locations.map LocationEntry.storageId
  requested : ∀ id ∈ b.normalized.locations.map LocationEntry.storageId,
    b.activeLocationId = some id →
    b.normalized.activeLocationId = some id

/-- NORMALIZATION IS A CLOSURE, whatever old spellings the bundle has. -/
theorem LocationBundle.normalized_settled : b.Settled where
  again := b.normalized_normalized
  distinct := b.nodup_normalized
  stored _ he := stored_of_mem_normalized he
  ordered := (distinctBy_sublist _).trans filter_sublist
  first before e after hsplit he hfirst := by
    change _ ∈ distinctBy _ _
    rw [hsplit, map_append, map_cons, filter_append,
      filter_cons_of_pos (by simp [he.named, he.storable])]
    refine mem_distinctByFrom not_mem_nil fun d hd => ?_
    obtain ⟨hmem, hkeep⟩ := mem_filter.mp hd
    obtain ⟨raw, hraw, rfl⟩ := mem_map.mp hmem
    rw [Bool.and_eq_true] at hkeep
    exact hfirst raw hraw ⟨raw.normalized_normalized, hkeep.1, hkeep.2⟩
  unselected := b.active_eq_none_iff
  selected _ := b.active_mem
  requested id hid hactive := by
    obtain ⟨e, he, rfl⟩ := mem_map.mp hid
    exact b.activeLocationId_normalized he hactive

/-- `saveBundleUnlocked`. -/
def LocationBundle.save : StoredBundle :=
  ⟨b.normalized, b.normalized_normalized⟩

end OlcVpn.Locations
