/-
  MERGING WHAT WAS IMPORTED into the stored bundle.

  An import comes in one of two modes.  ADDITIVE is a pasted link or a subscription: its entries are
  appended, each under an id the store does not have.  RESTORE is a whole exported bundle: an entry
  replaces the one with its id, and only the rest is appended.  Either way the ids of appended
  entries go through `uniqueStorageId`, which makes a slug of them first.
-/
import OlcVpn.Import.Links
import OlcVpn.Locations.RefreshSteps

namespace OlcVpn.Locations

open Kotlin List LocationEntry
open LocationEntry (storageId)
open Option (map_eq_some_iff filter_some some)

/-! ## The import -/

variable (e : LocationEntry)

def LocationEntry.isSubscription : Bool :=
  e.subscription.isSome || !isNullOrBlank e.subscriptionUrl

/-- The state of the refresh after an import: just refreshed, the user's choices as parsed. -/
def importStamp (now : Int) (importedInterval : Option Int) (e : LocationEntry) : RefreshStamp where
  updateIntervalHours :=
    ((e.subscription.bind SubscriptionMetadata.updateIntervalHours).or importedInterval).getD 24
  timestamp := now
  autoUpdateEnabled := (e.subscription.map SubscriptionMetadata.autoUpdateEnabled).getD true
  customName := e.subscription.bind SubscriptionMetadata.customName

def LocationEntry.stampImported (now : Int) (importedInterval : Option Int) :
    LocationEntry :=
  if e.isSubscription then
    LocationEntry.normalized
      { e with
        metadata :=
          some (withSubscriptionRefreshState e.metadata (importStamp now importedInterval e)) }
  else e

def importedBundle (now : Int) (importedInterval : Option Int) (parsed : LocationBundle) :
    LocationBundle :=
  { parsed.normalized with
    locations := parsed.normalized.locations.map (·.stampImported now importedInterval) }

/-- `associateBy { it.storageId }[id]`: the last entry with the id. -/
def entryById (entries : List LocationEntry) (id : String) : Option LocationEntry :=
  entries.reverse.find? (·.storageId = id)

def mergeImportedBundle (current imported : LocationBundle) (replaceMatchingStorageIds : Bool) :
    LocationBundle :=
  let currentBundle := current.normalized
  if currentBundle.locations.isEmpty then imported
  else
    let currentStorageIds := currentBundle.locations.map storageId
    let kept := if replaceMatchingStorageIds then
        currentBundle.locations.map fun existing =>
          (entryById imported.locations existing.storageId).getD existing
      else currentBundle.locations
    -- the rest is new; in a restore that is what replaced nothing
    let incoming := imported.locations.filter fun e =>
      !(replaceMatchingStorageIds && currentStorageIds.contains e.storageId)
    let newStorageIds := uniqueStorageIds currentStorageIds (incoming.map storageId)
    let importedIdMap := (incoming.map storageId).zip newStorageIds
    let mergedLocations :=
      kept ++ (reassignIds currentStorageIds incoming).map LocationEntry.normalized
    let known (id : String) : Bool := mergedLocations.any (·.storageId = id)
    let importedActive := (imported.activeLocationId.map fun id =>
      (importedIdMap.reverse.lookup id).getD id).filter known
    let currentActive := currentBundle.activeLocationId.filter known
    { activeLocationId :=
        (if replaceMatchingStorageIds then importedActive.or currentActive
          else currentActive.or importedActive).or
          (mergedLocations.head?.map storageId)
      locations := mergedLocations }

/-- A parsed text and where it came from. -/
structure ResolvedText where
  subscriptionUrl : Option String := none
  updateIntervalHours : Option Int := none
  parsed : ParsedImport

/-- The entries that stay while a subscription is imported again. -/
def importBasis (current : LocationBundle) (subscriptionUrl : Option String) : LocationBundle :=
  match (subscriptionUrl.map trim).filter isNotBlank with
  | some url =>
    { current with
      locations := current.locations.filter fun e => e.subscriptionUrl.map trim ≠ some url }
  | none => current

def importResolved (now : Int) (current : StoredBundle) (resolved : ResolvedText) : StoredBundle :=
  (mergeImportedBundle (importBasis current.bundle resolved.subscriptionUrl)
    (importedBundle now resolved.updateIntervalHours resolved.parsed.bundle)
    (resolved.parsed.mode = .restore)).save

/-- The parsers, and what an import needs besides. -/
structure Importer extends LinkParsers where
  /-- The panel's answer to a client it does not know. -/
  isUnsupportedClientStub : String → Bool
  subscriptionMetadataFromBody : String → Option SubscriptionMetadata
  /-- A subscription, downloaded and parsed. -/
  download : String → Option ResolvedText

def isHttpUrl (s : String) : Bool :=
  startsWith (lowercase (trim s)) "http://" || startsWith (lowercase (trim s)) "https://"

/-- The content of a pasted text. -/
def pastedContent (text : String) : String := normalizedImportText (normalizedImportText text)

def pastedContext (I : Importer) (text : String) : ImportContext :=
  { subscriptionMetadata := I.subscriptionMetadataFromBody (pastedContent text) }

def resolveParsedImport (I : Importer) (text : String) : Option ResolvedText :=
  let input := normalizedImportText text
  if isBlank input then none
  else if isHttpUrl input then I.download input
  else if I.isUnsupportedClientStub (pastedContent text) then none
  else
    (parseImport I.toLinkParsers (pastedContext I text)
      (normalizedImportText (pastedContent text))).map fun parsed => { parsed := parsed }

/-- `importText`: the bundle stored afterwards, or nothing where the import fails. -/
def importText (I : Importer) (now : Int) (current : StoredBundle) (text : String) :
    Option StoredBundle :=
  (resolveParsedImport I text).map (importResolved now current)

/-! ## The stamp -/

/-- The subscription metadata without the state of the refresh. -/
def SubscriptionMetadata.unstamped (s : SubscriptionMetadata) : SubscriptionMetadata :=
  { s with
    updateIntervalHours := none
    lastRefreshAtEpochMs := none
    lastAttemptAtEpochMs := none }

/-- An entry without the state of the refresh. -/
def LocationEntry.unstamped : LocationEntry :=
  e.mapSubscription SubscriptionMetadata.unstamped

/-- An entry without its id and the state of the refresh. -/
def LocationEntry.content : LocationEntry :=
  LocationEntry.unstamped { e with storageId := "" }

section Stamp

variable {e : LocationEntry} (h : e.Stored) {now : Int} (hnow : 0 < now)
  (importedInterval : Option Int)
include h hnow

/-- A stamp changes the interval and the two times, and nothing else. -/
theorem LocationEntry.stampImported_eq (hs : e.isSubscription = true) :
    e.stampImported now importedInterval = e.mapSubscription fun s =>
      { s with
        updateIntervalHours :=
          some (coerceIn ((s.updateIntervalHours.or importedInterval).getD 24) 1 720)
        lastRefreshAtEpochMs := some now
        lastAttemptAtEpochMs := some now } := by
  have hold := subscription_getD_normalized h.metadata
  have hstamp : importStamp now importedInterval e =
      { updateIntervalHours :=
          (((e.subscription.getD {}).updateIntervalHours).or importedInterval).getD 24
        timestamp := now
        autoUpdateEnabled := (e.subscription.getD {}).autoUpdateEnabled
        customName := (e.subscription.getD {}).customName } := by
    rw [importStamp]
    cases e.subscription <;> rfl
  rw [stampImported, if_pos hs, withSubscriptionRefreshState, h.normalized_rewritten,
    savedMetadata_withSubscription e.metadata hnow fun _ => rfl, hstamp, h.trim_id,
    getD_normalized h.metadata]
  have hsub : e.metadata.bind LocationMetadata.subscription = e.subscription := rfl
  rw [hsub] at hold ⊢
  rw [mapSubscription]
  generalize e.subscription.getD {} = s at hold ⊢
  have hnorm : SubscriptionMetadata.normalized
      { s with
        updateIntervalHours := some ((s.updateIntervalHours.or importedInterval).getD 24)
        lastRefreshAtEpochMs := some now
        lastAttemptAtEpochMs := some now } =
      { s.normalized with
        updateIntervalHours :=
          some (coerceIn ((s.updateIntervalHours.or importedInterval).getD 24) 1 720)
        lastRefreshAtEpochMs := some now
        lastAttemptAtEpochMs := some now } := by
    simp [SubscriptionMetadata.normalized, hnow]
  rw [hold] at hnorm
  rw [hnorm]

theorem LocationEntry.stampImported_storageId :
    (e.stampImported now importedInterval).storageId = e.storageId := by
  by_cases hs : e.isSubscription = true
  · rw [stampImported_eq h hnow importedInterval hs]
    rfl
  · rw [stampImported, if_neg hs]

/-- Stamping changes time stamps only. -/
theorem LocationEntry.stampImported_unstamped :
    (e.stampImported now importedInterval).unstamped = e.unstamped := by
  by_cases hs : e.isSubscription = true
  · rw [stampImported_eq h hnow importedInterval hs]
    rfl
  · rw [stampImported, if_neg hs]

omit hnow in
theorem LocationEntry.stampImported_stored : (e.stampImported now importedInterval).Stored := by
  by_cases hs : e.isSubscription = true
  · rw [stampImported, if_pos hs]
    refine stored_normalized ?_ ?_
    · rw [h.trim_id]
      exact h.named
    · rw [location_rewritten]
      exact h.storable
  · rw [stampImported, if_neg hs]
    exact h

end Stamp

/-! ## Stored entries under other ids -/

section Reassigned

variable {e : LocationEntry} (h : e.Stored) {id : String} (hid : IsSlug id)
include h hid

theorem LocationEntry.Stored.withId : LocationEntry.Stored { e with storageId := id } where
  fixed := by
    have heq := h.normalized_rewritten id e.metadata
    rwa [hid.trim_eq, h.metadata] at heq
  named := hid.isNotBlank
  storable := by
    rw [location_rewritten e id e.subscriptionUrl e.metadata]
    exact h.storable

end Reassigned

theorem stored_reassignIds {used : List String} {entries : List LocationEntry}
    (hall : ∀ e ∈ entries, e.Stored) : ∀ e ∈ reassignIds used entries, e.Stored := by
  intro e he
  obtain ⟨e', he', id, hid, rfl⟩ := mem_zipWith he
  exact (hall e' he').withId (isSlug_of_mem_uniqueStorageIds hid)

theorem map_normalized_reassignIds {used : List String} {entries : List LocationEntry}
    (hall : ∀ e ∈ entries, e.Stored) :
    (reassignIds used entries).map LocationEntry.normalized = reassignIds used entries :=
  (map_congr_left fun e he => (stored_reassignIds hall e he).fixed).trans (map_id _)

/-- New ids change nothing but the ids. -/
theorem content_reassignIds (used : List String) (entries : List LocationEntry) :
    (reassignIds used entries).map LocationEntry.content = entries.map LocationEntry.content :=
  map_reassignIds (fun _ _ => rfl) used entries

/-! ## The merged bundle -/

/-- A bundle the save leaves alone. -/
theorem LocationBundle.normalized_of_stored {b : LocationBundle}
    (hall : ∀ e ∈ b.locations, e.Stored) (hnd : (b.locations.map storageId).Nodup)
    {e : LocationEntry} (he : e ∈ b.locations) (hactive : b.activeLocationId = some e.storageId) :
    b.normalized = b := by
  have hlocations : b.normalized.locations = b.locations :=
    (locations_normalized hall).trans (distinctBy_eq_self hnd)
  have hkept := activeLocationId_normalized (b := b) (hlocations ▸ he) hactive
  calc b.normalized = ⟨b.normalized.activeLocationId, b.normalized.locations⟩ := rfl
    _ = ⟨b.activeLocationId, b.locations⟩ := by rw [hlocations, hkept, hactive]

/-- A store that is not empty has a selection, and it is one of its entries. -/
theorem StoredBundle.exists_active (b : StoredBundle) (hne : b.bundle.locations ≠ []) :
    ∃ e ∈ b.bundle.locations, b.bundle.activeLocationId = some e.storageId := by
  have hkeep : b.bundle.normalized.activeLocationId =
      (b.bundle.activeLocationId.filter fun id =>
        b.bundle.normalized.locations.any (·.storageId = id)).or
      (b.bundle.normalized.locations.head?.map storageId) := rfl
  rw [b.isNormalized] at hkeep
  cases hactive : b.bundle.activeLocationId.filter fun id =>
      b.bundle.locations.any (·.storageId = id) with
  | some id =>
    obtain ⟨hid, hany⟩ := Option.filter_eq_some_iff.mp hactive
    obtain ⟨e, he, heq⟩ := List.any_eq_true.mp hany
    exact ⟨e, he, by simpa [hid] using (of_decide_eq_true heq).symm⟩
  | none =>
    obtain ⟨e, rest, hlist⟩ := exists_cons_of_ne_nil hne
    refine ⟨e, by simp [hlist], ?_⟩
    rw [hkeep, hactive, hlist]
    rfl

section Merge

variable (before : StoredBundle) (hne : before.bundle.locations ≠ []) {imported : LocationBundle}
  (hall : ∀ e ∈ imported.locations, e.Stored)

/-- The ids of the store. -/
def StoredBundle.storageIds (b : StoredBundle) : List String :=
  b.bundle.locations.map storageId

include hne hall

/-- After an additive merge the store holds what it held, then the imported entries under new ids;
    the selection stays. -/
theorem merge_additive :
    (mergeImportedBundle before.bundle imported false).save.bundle =
      { activeLocationId := before.bundle.activeLocationId
        locations :=
          before.bundle.locations ++ reassignIds before.storageIds imported.locations } := by
  obtain ⟨e, he, hactive⟩ := before.exists_active hne
  have hfilter : (imported.locations.filter fun e =>
      !(false && before.storageIds.contains e.storageId)) = imported.locations := by simp
  have hmem : e ∈ before.bundle.locations ++ reassignIds before.storageIds imported.locations :=
    mem_append_left _ he
  have hknown : (before.bundle.locations ++
      reassignIds before.storageIds imported.locations).any (·.storageId = e.storageId) = true :=
    List.any_eq_true.mpr ⟨e, hmem, by simp⟩
  have hmerge : mergeImportedBundle before.bundle imported false = ⟨before.bundle.activeLocationId,
      before.bundle.locations ++ reassignIds before.storageIds imported.locations⟩ := by
    have hids : before.bundle.locations.map storageId = before.storageIds := rfl
    rw [mergeImportedBundle, before.isNormalized, hids]
    simp only [isEmpty_eq_false_iff.mpr hne, hfilter, map_normalized_reassignIds hall, hactive,
      Bool.false_eq_true, if_false, filter_some, hknown, if_true, Option.some_or]
  rw [LocationBundle.save, hmerge]
  refine LocationBundle.normalized_of_stored ?_ ?_ hmem hactive
  · intro s hs
    rcases mem_append.mp hs with hs | hs
    · exact before.stored hs
    · exact stored_reassignIds hall s hs
  · obtain ⟨hnd, hfresh⟩ := nodup_uniqueStorageIds before.storageIds
      (imported.locations.map storageId)
    rw [map_append, storageIds_reassignIds]
    exact nodup_append.mpr ⟨before.nodup, hnd, fun a ha b hb hab => hfresh b hb (hab ▸ ha)⟩

end Merge

/-! ## An additive import only adds -/

/-- What was stored is there first and unchanged, what was imported follows, and the selection
    stays. -/
structure OnlyAdds (before : StoredBundle) (imported : List LocationEntry) (after : StoredBundle) :
    Prop where
  added : ∃ added, after.bundle.locations = before.bundle.locations ++ added ∧
    List.Forall₂ (fun e s => e.normalized.content = s.content)
      (imported.filter (·.location.isStorable)) added
  distinct : after.storageIds.Nodup
  active : after.bundle.activeLocationId = before.bundle.activeLocationId

/-- The text is a JSON object that is read as an entry, and the storage id it names is blank. -/
def BlankDocument (I : Importer) (text : String) : Prop :=
  parseForeign I.toLinkParsers (pastedContext I text)
      (normalizedImportText (pastedContent text)) = none ∧
    ∃ root entry, I.parseToJsonElement (normalizedImportText (pastedContent text)) =
        some (.object root) ∧ I.decodeEntry root = some entry ∧
      isBlank entry.storageId = true ∧ entry.location.isStorable = true

theorem LocationEntry.isStorable_normalized (e : LocationEntry) :
    e.normalized.location.isStorable = e.location.isStorable := by
  rw [location_normalized, LocationConfig.stored_isStorable]

/-- Where ids are given and distinct, the save drops only what cannot be stored. -/
theorem LocationBundle.locations_of_named {b : LocationBundle}
    (hnamed : ∀ e ∈ b.locations, isNotBlank (trim e.storageId) = true)
    (hnd : (b.locations.map fun e => trim e.storageId).Nodup) :
    b.normalized.locations =
      (b.locations.filter (·.location.isStorable)).map LocationEntry.normalized := by
  have hfilter : ((b.locations.map LocationEntry.normalized).filter fun e =>
        isNotBlank e.storageId && e.location.isStorable) =
      (b.locations.filter (·.location.isStorable)).map LocationEntry.normalized := by
    rw [filter_map]
    refine congrArg _ (filter_congr fun e he => ?_)
    have hid : isNotBlank e.normalized.storageId = true := hnamed e he
    rw [Function.comp_apply, hid, isStorable_normalized, Bool.true_and]
  have hdistinct : (((b.locations.filter (·.location.isStorable)).map
      LocationEntry.normalized).map storageId).Nodup := by
    rw [map_map]
    exact hnd.sublist (filter_sublist.map _)
  simp only [normalized, hfilter]
  exact distinctBy_eq_self hdistinct

/-- Imported entries are what was parsed, but for the id and the stamp. -/
theorem content_importedBundle {now : Int} (hnow : 0 < now) (interval : Option Int)
    (parsed : LocationBundle) :
    (importedBundle now interval parsed).locations.map LocationEntry.content =
      parsed.normalized.locations.map LocationEntry.content := by
  rw [importedBundle, map_map]
  refine map_congr_left fun e he => ?_
  have hstored := LocationBundle.stored_of_mem_normalized he
  have hunstamped := stampImported_unstamped hstored hnow interval
  have hcontent : ∀ e : LocationEntry, e.content = { e.unstamped with storageId := "" } :=
    fun _ => rfl
  rw [Function.comp_apply, hcontent, hunstamped, ← hcontent]

/-- What is imported is stored as it is. -/
theorem stored_importedBundle (now : Int) (interval : Option Int) (parsed : LocationBundle) :
    ∀ e ∈ (importedBundle now interval parsed).locations, e.Stored := by
  intro e he
  obtain ⟨e', he', rfl⟩ := mem_map.mp he
  exact stampImported_stored (LocationBundle.stored_of_mem_normalized he') interval

section OnlyAdds

variable {now : Int} {before : StoredBundle} (hne : before.bundle.locations ≠ [])
  (parsed : LocationBundle)
include hne

/-- An additive import: the stored entries, then the new ones under free ids. -/
theorem importResolved_additive :
    (importResolved now before { parsed := ⟨parsed, .additive⟩ }).bundle =
      ⟨before.bundle.activeLocationId, before.bundle.locations ++
        reassignIds before.storageIds (importedBundle now none parsed).locations⟩ :=
  merge_additive before hne (stored_importedBundle now none parsed)

/-- NOTHING STORED IS LOST, and every entry with an id of its own arrives. -/
theorem onlyAdds_of_named (hnow : 0 < now)
    (hnamed : ∀ e ∈ parsed.locations, isNotBlank (trim e.storageId) = true)
    (hnd : (parsed.locations.map fun e => trim e.storageId).Nodup) :
    OnlyAdds before parsed.locations
      (importResolved now before { parsed := ⟨parsed, .additive⟩ }) := by
  refine ⟨⟨_, by rw [importResolved_additive hne], ?_⟩, StoredBundle.nodup _,
    by rw [importResolved_additive hne]⟩
  have hcontents : (reassignIds before.storageIds (importedBundle now none parsed).locations).map
      LocationEntry.content =
      (parsed.locations.filter (·.location.isStorable)).map fun e => e.normalized.content := by
    rw [content_reassignIds, content_importedBundle hnow,
      LocationBundle.locations_of_named hnamed hnd, map_map]
    rfl
  refine List.forall₂_map_left_iff.mp (List.forall₂_map_right_iff.mp ?_)
  rw [List.forall₂_eq_eq_eq]
  exact hcontents.symm

/-- Entries that lose their place in the bundle leave the store as it was. -/
theorem not_onlyAdds_of_dropped (hempty : parsed.normalized.locations = [])
    (hmem : ∃ e ∈ parsed.locations, e.location.isStorable = true) :
    ¬ OnlyAdds before parsed.locations
      (importResolved now before { parsed := ⟨parsed, .additive⟩ }) := by
  rintro ⟨⟨added, hadded, hforall⟩, -, -⟩
  have hnone : (importedBundle now none parsed).locations = [] := by simp [importedBundle, hempty]
  rw [importResolved_additive hne, hnone] at hadded
  have hnil : added = [] := by simpa [reassignIds] using hadded
  obtain ⟨e, he, hstorable⟩ := hmem
  have hlen := hforall.length_eq
  rw [hnil, length_nil, length_eq_zero_iff] at hlen
  exact absurd hlen (ne_nil_of_mem (mem_filter.mpr ⟨he, hstorable⟩))

end OnlyAdds

theorem isNotBlank_firstNotBlank {values : List (Option String)} {s : String}
    (hmem : some s ∈ values) (hs : isNotBlank s = true) :
    isNotBlank (firstNotBlank values) = true := by
  rw [firstNotBlank]
  cases hfind : values.reduceOption.find? isNotBlank with
  | none =>
    have hmem' : s ∈ values.reduceOption := reduceOption_mem_iff.mpr hmem
    exact absurd hs (find?_eq_none.mp hfind s hmem')
  | some t => exact find?_some hfind

theorem decodeLocationEntry_pasted (P : LinkParsers) (root : JsonObject) :
    decodeLocationEntry P root none =
      ((P.decodeEntry root).filter (·.location.isStorable)).map LocationEntry.normalized := by
  rw [decodeLocationEntry]
  cases P.decodeEntry root with
  | none => rfl
  | some entry =>
    have hnull : isNullOrBlank none = true := rfl
    cases h : entry.location.isStorable <;>
      simp [hnull, filter_some, isStorable_normalized, h]

/-- A location that is read as an entry has the id it names; any other gets one. -/
theorem parseSingleLocation_pasted {P : LinkParsers} {root : JsonObject} {e : LocationEntry}
    (h : parseSingleLocation P root none none = some e) :
    (∃ entry, P.decodeEntry root = some entry ∧ entry.location.isStorable = true ∧
      e = entry.normalized) ∨
    ((∀ entry, P.decodeEntry root = some entry → entry.location.isStorable = false) ∧
      isBlank e.storageId = false) := by
  rw [parseSingleLocation, decodeLocationEntry_pasted, Option.or_eq_some_iff] at h
  rcases h with h | ⟨hnone, h⟩
  · obtain ⟨entry, hentry, rfl⟩ := map_eq_some_iff.mp h
    obtain ⟨hdecode, hstorable⟩ := Option.filter_eq_some_iff.mp hentry
    exact .inl ⟨entry, hdecode, hstorable, rfl⟩
  · refine .inr ⟨fun entry hentry => ?_, ?_⟩
    · simpa [hentry, filter_some] using hnone
    · dsimp only at h
      split_ifs at h
      obtain rfl := some.inj h
      rw [storageId_ofLocation, isBlank_trim, ← Bool.not_eq_true']
      refine isNotBlank_firstNotBlank (mem_cons_of_mem _
        (mem_append_right _ (mem_singleton.mpr rfl))) ?_
      -- the text starts with a letter
      simp [isNotBlank, isBlank, String.toList_append, show isWhitespace 'i' = false by decide]

/-- What an additive import parses: slugs, or one location of the app's own JSON. -/
theorem additive_parsed {P : LinkParsers} {ctx : ImportContext} {text : String} {p : ParsedImport}
    (h : parseImport P ctx text = some p) (hmode : p.mode = .additive) :
    (parseForeign P ctx text = some p.bundle) ∨
    (parseForeign P ctx text = none ∧ ∃ root e, P.parseToJsonElement text = some (.object root) ∧
      parseSingleLocation P root none ctx.subscriptionUrl = some e ∧
      p.bundle.locations = [e.withInterval ctx.updateIntervalHours]) := by
  rw [parseImport, Option.or_eq_some_iff, Option.map_eq_none_iff] at h
  rcases h with h | ⟨hforeign, h⟩
  · obtain ⟨bundle, hbundle, rfl⟩ := map_eq_some_iff.mp h
    exact .inl hbundle
  · refine .inr ⟨hforeign, ?_⟩
    unfold parseJsonText at h
    split_ifs at h
    obtain ⟨root, hroot, h⟩ := Option.bind_eq_some_iff.mp h
    obtain ⟨element, helement, hobject⟩ := Option.bind_eq_some_iff.mp hroot
    have heq : element = .object root := by
      cases element <;> simp_all [jsonObjectOrNull]
    cases hbundle : parseBundle P root ctx.subscriptionUrl ctx.updateIntervalHours with
    | some bundle =>
      rw [hbundle] at h
      obtain rfl := some.inj h
      simp at hmode
    | none =>
      rw [hbundle] at h
      obtain ⟨e, he, rfl⟩ := map_eq_some_iff.mp h
      exact ⟨root, e, heq ▸ helement, he, rfl⟩

/-- A pasted text that is no URL is parsed as it is. -/
theorem resolved_pasted {I : Importer} {text : String} {resolved : ResolvedText}
    (hurl : isHttpUrl (normalizedImportText text) = false)
    (h : resolveParsedImport I text = some resolved) :
    ∃ p, parseImport I.toLinkParsers (pastedContext I text)
      (normalizedImportText (pastedContent text)) = some p ∧ resolved = { parsed := p } := by
  simp only [resolveParsedImport, hurl, Bool.false_eq_true, if_false] at h
  split_ifs at h
  obtain ⟨p, hp, rfl⟩ := map_eq_some_iff.mp h
  exact ⟨p, hp, rfl⟩

/-- An additive import only adds, unless the text is one location that is read as an entry with a
    blank storage id: the import then reports success and stores nothing. -/
theorem import_only_adds_iff (I : Importer) {now : Int} (hnow : 0 < now) (before : StoredBundle)
    (hne : before.bundle.locations ≠ []) {text : String}
    (hurl : isHttpUrl (normalizedImportText text) = false) {resolved : ResolvedText}
    (hresolved : resolveParsedImport I text = some resolved)
    (hmode : resolved.parsed.mode = .additive) :
    (∃ after, importText I now before text = some after ∧
      OnlyAdds before resolved.parsed.bundle.locations after) ↔ ¬ BlankDocument I text := by
  obtain ⟨⟨bundle, mode⟩, hparsed, rfl⟩ := resolved_pasted hurl hresolved
  obtain rfl : mode = .additive := hmode
  have himport : importText I now before text =
      some (importResolved now before { parsed := ⟨bundle, .additive⟩ }) := by
    rw [importText, hresolved]
    rfl
  simp only [himport, some.injEq, exists_eq_left']
  rcases additive_parsed hparsed rfl with hforeign | ⟨hforeign, root, e, hroot, hsingle, hlist⟩
  · -- slugs are neither blank nor changed by trimming
    have hslugged := slugged_parseForeign hforeign
    have htrim : (bundle.locations.map fun e => trim e.storageId) =
        bundle.locations.map storageId :=
      map_congr_left fun e he => (hslugged.slugs e he).trim_eq
    have hadds := onlyAdds_of_named hne bundle hnow
      (fun e he => by
        rw [(hslugged.slugs e he).trim_eq]
        exact (hslugged.slugs e he).isNotBlank)
      (htrim ▸ hslugged.nodup)
    refine iff_of_true hadds fun hblank => ?_
    rw [hblank.1] at hforeign
    simp at hforeign
  · replace hlist : bundle.locations = [e.normalized] := hlist
    have hone : isBlank e.storageId = false → OnlyAdds before bundle.locations
        (importResolved now before { parsed := ⟨bundle, .additive⟩ }) := by
      intro hid
      refine onlyAdds_of_named hne bundle hnow (fun s hs => ?_) ?_
      · obtain rfl : s = e.normalized := by simpa [hlist] using hs
        have heq : e.normalized.storageId = trim e.storageId := rfl
        simp [heq, isNotBlank, hid]
      · simp [hlist]
    have hread : ∀ {root' : JsonObject} {entry : LocationEntry},
        I.parseToJsonElement (normalizedImportText (pastedContent text)) = some (.object root') →
        I.decodeEntry root' = some entry → I.decodeEntry root = some entry := by
      intro root' entry hroot' hentry
      rw [hroot] at hroot'
      cases some.inj hroot'
      exact hentry
    rcases parseSingleLocation_pasted hsingle with
      ⟨entry, hentry, hstorable, rfl⟩ | ⟨hother, hid⟩
    · cases hblank : isBlank entry.storageId with
      | true =>
        have hdropped : bundle.normalized.locations = [] := by
          have heq : entry.normalized.storageId = trim entry.storageId := rfl
          simp [LocationBundle.normalized, hlist, distinctBy, distinctByFrom, isNotBlank,
            heq, hblank]
        refine iff_of_false (not_onlyAdds_of_dropped hne bundle hdropped ?_)
          (not_not_intro ⟨hforeign, root, entry, hroot, hentry, hblank, hstorable⟩)
        refine ⟨entry.normalized.normalized, by simp [hlist], ?_⟩
        rw [normalized_normalized, isStorable_normalized, hstorable]
      | false =>
        have heq : entry.normalized.storageId = trim entry.storageId := rfl
        refine iff_of_true (hone (by rw [heq, isBlank_trim, hblank])) ?_
        rintro ⟨-, root', entry', hroot', hentry', hblank', -⟩
        rw [hread hroot' hentry'] at hentry
        obtain rfl := some.inj hentry
        rw [hblank] at hblank'
        exact absurd hblank' (by decide)
    · refine iff_of_true (hone hid) ?_
      rintro ⟨-, root', entry', hroot', hentry', -, hstorable'⟩
      rw [hother entry' (hread hroot' hentry')] at hstorable'
      exact absurd hstorable' (by decide)

/-- A store with one room. -/
def homeStore : StoredBundle :=
  LocationBundle.save
    { locations := [LocationEntry.ofLocation "home" { name := "home", id := "r1", key := "k1" }
        none none] }

variable (storageId : String)

/-- A room as JSON, under a storage id. -/
def roomText : String :=
  "\x7b\"storage_id\":\"" ++ storageId ++ "\",\"id\":\"r\",\"key\":\"k\"\x7d"

def roomEntry : LocationEntry :=
  { storageId := storageId, legacyId := some "r", legacyKey := some "k" }

/-- An importer that reads such a text. -/
def roomImporter : Importer :=
  { noParsers with
    parseToJsonElement := fun _ => some (.object
      [("storage_id", .str storageId), ("id", .str "r"), ("key", .str "k")])
    decodeEntry := fun _ => some (roomEntry storageId)
    isUnsupportedClientStub := fun _ => false
    subscriptionMetadataFromBody := fun _ => none
    download := fun _ => none }

/-- A room beside the one that is stored. -/
theorem room_import_only_adds : ∃ resolved after,
    resolveParsedImport (roomImporter "room") (roomText "room") = some resolved ∧
    importText (roomImporter "room") 1 homeStore (roomText "room") = some after ∧
    OnlyAdds homeStore resolved.parsed.bundle.locations after := by
  have hmode : (resolveParsedImport (roomImporter "room") (roomText "room")).map
      (·.parsed.mode) = some .additive := by decide
  obtain ⟨resolved, hresolved, hadditive⟩ := map_eq_some_iff.mp hmode
  have hnamed : ¬ BlankDocument (roomImporter "room") (roomText "room") := by
    rintro ⟨-, root, entry, -, hentry, hblank, -⟩
    obtain rfl := some.inj hentry
    exact absurd hblank (by decide)
  obtain ⟨after, hafter, hadds⟩ := (import_only_adds_iff (roomImporter "room")
    (show (0 : Int) < 1 by decide) homeStore (List.length_pos_iff.mp (by decide))
      (by decide) hresolved
    hadditive).mpr hnamed
  exact ⟨resolved, after, hresolved, hafter, hadds⟩

/-- The same room with an empty storage id is accepted and lost. -/
theorem blank_room_is_lost : ∃ resolved after,
    resolveParsedImport (roomImporter "") (roomText "") = some resolved ∧
    resolved.parsed.mode = .additive ∧
    importText (roomImporter "") 1 homeStore (roomText "") = some after ∧
    ¬ OnlyAdds homeStore resolved.parsed.bundle.locations after := by
  have hvalue : (resolveParsedImport (roomImporter "") (roomText "")).map
      (fun r => (r.parsed.mode, r.parsed.bundle.locations.any (·.location.isStorable),
        r.parsed.bundle.normalized.locations.isEmpty)) = some (.additive, true, true) := by
    decide
  obtain ⟨resolved, hresolved, hvalues⟩ := map_eq_some_iff.mp hvalue
  obtain ⟨⟨bundle, mode⟩, -, rfl⟩ := resolved_pasted (by decide) hresolved
  simp only [Prod.mk.injEq, List.any_eq_true, List.isEmpty_iff] at hvalues
  obtain ⟨rfl, hstorable, hdropped⟩ := hvalues
  refine ⟨_, _, hresolved, rfl, by rw [importText, hresolved]; rfl, ?_⟩
  exact not_onlyAdds_of_dropped (List.length_pos_iff.mp (by decide)) bundle hdropped
    hstorable

end OlcVpn.Locations
