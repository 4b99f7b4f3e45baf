/-
  What ONE STEP of a refresh does, stated once for every later argument.

  ** What is here **
    • an entry stamped with an attempt, and an answered server under its id: both can be stored,
    both
      are grouped under the URL they came from, and both say what they said before but for the
      fields that are meant to change (`attempted_sameButAttempt`, `refreshed_panelView`);
    • `reuse_spec`: ids are taken over from entries with the same signature, no id twice;
    • `refreshGroup_failed`, `refreshGroup_answered`: the state after one URL.
-/
import OlcVpn.Locations.Refresh

namespace OlcVpn.Locations

open Kotlin List LocationEntry
open LocationEntry (attempted savedUrl storageId)
open Option (map_some filter_some filter_eq_some_iff)

/-! ## Stamped metadata -/

/-- A time of an attempt keeps the metadata from being dropped as empty. -/
theorem SubscriptionMetadata.isEmpty_of_attempt {s : SubscriptionMetadata} {t : Int}
    (h : s.lastAttemptAtEpochMs = some t) : s.isEmpty = false := by
  simp [isEmpty, h]

/-- Metadata with the time of an attempt is saved as it is. -/
theorem savedMetadata_withSubscription (metadata : Option LocationMetadata)
    {update : SubscriptionMetadata → SubscriptionMetadata} {t : Int} (ht : 0 < t)
    (hattempt : ∀ s, (update s).lastAttemptAtEpochMs = some t) :
    savedMetadata (some (withSubscription metadata update)) =
      some { (metadata.getD {}).normalized with
        subscription :=
          some (update ((metadata.bind LocationMetadata.subscription).getD {})).normalized } := by
  set subscription := (metadata.bind LocationMetadata.subscription).getD {}
  have hsub : (update subscription).normalized.isEmpty = false := by
    refine SubscriptionMetadata.isEmpty_of_attempt (t := t) ?_
    simp [SubscriptionMetadata.normalized, hattempt, ht]
  have hwith : withSubscription metadata update =
      { (metadata.getD {}).normalized with
        subscription := some (update subscription).normalized } := by
    simp [withSubscription, LocationMetadata.normalized, hsub, subscription, Option.filter]
  have hfull : (withSubscription metadata update).isEmpty = false := by
    simp [hwith, LocationMetadata.isEmpty, hsub]
  have hnorm : (withSubscription metadata update).normalized = withSubscription metadata update :=
    LocationMetadata.normalized_normalized _
  rw [savedMetadata, map_some, hnorm, filter_some, hfull, hwith]
  rfl

/-- The location of an entry does not depend on what a refresh rewrites. -/
theorem LocationEntry.location_rewritten (e : LocationEntry) (storageId : String)
    (url : Option String) (metadata : Option LocationMetadata) :
    LocationEntry.location
      { e with storageId := storageId, subscriptionUrl := url, metadata := metadata } =
      e.location := by
  simp only [location]

/-- Normalising an entry whose id, URL and metadata were replaced: its location is rewritten only
    from itself. -/
theorem LocationEntry.normalized_rewritten (e : LocationEntry) (storageId : String)
    (url : Option String) (metadata : Option LocationMetadata) :
    LocationEntry.normalized
      { e with storageId := storageId, subscriptionUrl := url, metadata := metadata } =
      { e.normalized with
        storageId := trim storageId
        subscriptionUrl := savedUrl { e with subscriptionUrl := url }
        metadata := savedMetadata metadata } := by
  rw [normalized_eq, normalized_eq, location_rewritten]
  generalize e.location = c
  rfl

/-! ## Stored entries -/

section

variable {e : LocationEntry}

theorem LocationEntry.Stored.trim_id (h : e.Stored) : trim e.storageId = e.storageId :=
  congrArg storageId h.fixed

theorem LocationEntry.Stored.url (h : e.Stored) : e.savedUrl = e.subscriptionUrl :=
  congrArg LocationEntry.subscriptionUrl h.fixed

theorem LocationEntry.Stored.metadata (h : e.Stored) : savedMetadata e.metadata = e.metadata :=
  congrArg LocationEntry.metadata h.fixed

/-- A stored entry under another id, with other metadata. -/
theorem LocationEntry.Stored.normalized_rewritten (h : e.Stored) (storageId : String)
    (metadata : Option LocationMetadata) :
    LocationEntry.normalized { e with storageId := storageId, metadata := metadata } =
      { e with storageId := trim storageId, metadata := savedMetadata metadata } := by
  have hurl : savedUrl { e with subscriptionUrl := e.subscriptionUrl } =
      e.subscriptionUrl := h.url
  rw [LocationEntry.normalized_rewritten e storageId e.subscriptionUrl metadata, hurl, h.fixed]

end

/-- Metadata that was saved once is in its normal form. -/
theorem normalized_of_saved {m : LocationMetadata} (h : savedMetadata (some m) = some m) :
    m.normalized = m := by
  rw [savedMetadata, map_some, filter_eq_some_iff] at h
  exact Option.some.inj h.1

theorem getD_normalized {metadata : Option LocationMetadata}
    (h : savedMetadata metadata = metadata) :
    (metadata.getD {}).normalized = metadata.getD {} := by
  cases metadata with
  | none => rfl
  | some m => exact normalized_of_saved h

theorem subscription_getD_normalized {metadata : Option LocationMetadata}
    (h : savedMetadata metadata = metadata) :
    ((metadata.bind LocationMetadata.subscription).getD {}).normalized =
      (metadata.bind LocationMetadata.subscription).getD {} := by
  cases metadata with
  | none => rfl
  | some m =>
    have hm := congrArg LocationMetadata.subscription (normalized_of_saved h)
    cases hs : m.subscription with
    | none => simp [hs, SubscriptionMetadata.normalized, cleanMetadataValue]
    | some s =>
      have hkeep : (some s.normalized).filter (!·.isEmpty) = some s := by
        simpa [LocationMetadata.normalized, hs] using hm
      simpa [hs] using (filter_eq_some_iff.mp hkeep).1

variable (e : LocationEntry)

/-- The metadata of an entry with its subscription part rewritten, absent parts counting as
    defaults. -/
def LocationEntry.mapSubscription (f : SubscriptionMetadata → SubscriptionMetadata) :
    LocationEntry :=
  { e with
    metadata := some { e.metadata.getD {} with subscription := some (f (e.subscription.getD {})) } }

/-- What the panel says never touches the location. -/
theorem LocationEntry.location_mapSubscription
    (f : SubscriptionMetadata → SubscriptionMetadata) : (e.mapSubscription f).location =
      e.location := by
  rw [mapSubscription, location_rewritten]

/-- Two entries that differ in the time of the last attempt at most. -/
def LocationEntry.SameButAttempt (e e' : LocationEntry) : Prop :=
  e'.mapSubscription (fun s => { s with lastAttemptAtEpochMs := none }) =
    e.mapSubscription (fun s => { s with lastAttemptAtEpochMs := none })

/-- The subscription metadata without what a refresh keeps there. -/
def SubscriptionMetadata.panelPart (s : SubscriptionMetadata) : SubscriptionMetadata :=
  { s with
    updateIntervalHours := none
    lastRefreshAtEpochMs := none
    lastAttemptAtEpochMs := none
    autoUpdateEnabled := true
    customName := none }

/-- What the panel says about a server: everything but the id, the URL and the state of the
    refresh. -/
def LocationEntry.panelView : LocationEntry :=
  LocationEntry.mapSubscription { e with storageId := "", subscriptionUrl := none }
    SubscriptionMetadata.panelPart

/-- A FAILED ATTEMPT CHANGES ONE TIME STAMP of a stored entry and nothing else. -/
theorem LocationEntry.attempted_eq {e : LocationEntry} (h : e.Stored) {t : Int} (ht : 0 < t) :
    e.attempted t = e.mapSubscription fun s => { s with lastAttemptAtEpochMs := some t } := by
  have hsub : SubscriptionMetadata.normalized
      { (e.metadata.bind LocationMetadata.subscription).getD {} with
        lastAttemptAtEpochMs := some t } =
      { (e.metadata.bind LocationMetadata.subscription).getD {} with
        lastAttemptAtEpochMs := some t } := by
    have hold := subscription_getD_normalized h.metadata
    generalize (e.metadata.bind LocationMetadata.subscription).getD {} = s at hold
    calc SubscriptionMetadata.normalized { s with lastAttemptAtEpochMs := some t }
        = { s.normalized with lastAttemptAtEpochMs := some t } := by
          simp [SubscriptionMetadata.normalized, ht]
      _ = { s with lastAttemptAtEpochMs := some t } := by rw [hold]
  rw [attempted, withSubscriptionAttemptState, h.normalized_rewritten,
    savedMetadata_withSubscription e.metadata ht fun _ => rfl, hsub,
    getD_normalized h.metadata, h.trim_id]
  rfl

/-- What is normalised with an id and a storable location is stored as it is. -/
theorem LocationEntry.stored_normalized {e : LocationEntry}
    (hid : isNotBlank (trim e.storageId) = true)
    (hlocation : e.location.isStorable = true) : e.normalized.Stored where
  fixed := e.normalized_normalized
  named := hid
  storable := by rw [location_normalized, LocationConfig.stored_isStorable, hlocation]

section Attempted

variable {e : LocationEntry} (h : e.Stored) {t : Int} (ht : 0 < t)
include h ht

theorem LocationEntry.attempted_id : (e.attempted t).storageId = e.storageId := by
  rw [attempted_eq h ht]
  rfl

theorem LocationEntry.attempted_groupUrl : (e.attempted t).groupUrl = e.groupUrl := by
  rw [attempted_eq h ht]
  rfl

theorem LocationEntry.attempted_sameButAttempt : e.SameButAttempt (e.attempted t) := by
  rw [attempted_eq h ht]
  rfl

omit ht in
/-- A stored entry stays one. -/
theorem LocationEntry.attempted_stored : (e.attempted t).Stored := by
  refine stored_normalized ?_ ?_
  · rw [h.trim_id]
    exact h.named
  · rw [location_rewritten]
    exact h.storable

end Attempted

/-! ## Answered servers -/

/-- What is left of a value is trimmed and not empty, so it is blank only if nothing is left. -/
theorem isNullOrBlank_clean (value : Option String) :
    isNullOrBlank (cleanMetadataValue value) = true ↔ cleanMetadataValue value = none := by
  constructor
  · intro h
    cases hc : cleanMetadataValue value with
    | none => rfl
    | some s =>
      have hb : isBlank s = true := by simpa [isNullOrBlank, hc] using h
      rw [cleanMetadataValue, filter_eq_some_iff, Option.map_eq_some_iff] at hc
      obtain ⟨⟨raw, -, rfl⟩, hne⟩ := hc
      simp [(trimmed_trim raw).isBlank_iff.mp hb] at hne
  · intro h
    rw [h]
    rfl

/-- Empty metadata may be dropped: the panel's part of it is the default one. -/
theorem SubscriptionMetadata.panelPart_of_isEmpty {s : SubscriptionMetadata}
    (h : s.normalized.isEmpty = true) : s.normalized.panelPart = panelPart {} := by
  simp only [isEmpty, normalized, Bool.and_eq_true, isNullOrBlank_clean, Option.isNone_iff_eq_none]
    at h
  simp only [normalized, panelPart, h]

theorem LocationMetadata.eq_default_of_isEmpty {m : LocationMetadata}
    (h : m.normalized.isEmpty = true) : m.normalized = {} := by
  have hsub : m.normalized.subscription = none := by
    cases hs : m.normalized.subscription with
    | none => rfl
    | some s =>
      -- a part that is there is not empty
      have hkeep := (filter_eq_some_iff.mp hs).2
      simp only [isEmpty, hs, Bool.and_eq_true, Option.all_some] at h
      simp [h.2] at hkeep
  simp only [isEmpty, normalized, Bool.and_eq_true, isNullOrBlank_clean] at h
  simp only [normalized] at hsub
  simp only [normalized, h, hsub]

theorem savedMetadata_some (m : LocationMetadata) :
    savedMetadata (some m) = if m.normalized.isEmpty then none else some m.normalized := by
  cases h : m.normalized.isEmpty <;> simp [savedMetadata, filter_some, h]

/-- Saving metadata loses nothing the panel says. -/
theorem savedMetadata_getD (metadata : Option LocationMetadata) :
    (savedMetadata metadata).getD {} = (metadata.getD {}).normalized := by
  cases metadata with
  | none => rfl
  | some m =>
    rw [savedMetadata_some]
    split_ifs with h
    · exact (LocationMetadata.eq_default_of_isEmpty h).symm
    · rfl

/-- Saving keeps the panel's part, also where it drops the metadata. -/
theorem panelPart_savedMetadata (metadata : Option LocationMetadata) :
    (((savedMetadata metadata).bind LocationMetadata.subscription).getD {}).panelPart =
      ((metadata.bind LocationMetadata.subscription).getD {}).normalized.panelPart := by
  cases metadata with
  | none => rfl
  | some m =>
    have hbind : ((savedMetadata (some m)).bind LocationMetadata.subscription) =
        m.normalized.subscription := by
      rw [savedMetadata_some]
      split_ifs with h
      · rw [LocationMetadata.eq_default_of_isEmpty h]
        rfl
      · rfl
    rw [hbind, Option.bind_some, LocationMetadata.normalized]
    cases m.subscription with
    | none => rfl
    | some s =>
      by_cases h : s.normalized.isEmpty = true
      · simp [filter_some, h, SubscriptionMetadata.panelPart_of_isEmpty h]
      · simp [filter_some, h]

section Refreshed

variable (e : LocationEntry) {url : String} (hurl : isNotBlank url = true) (stamp : RefreshStamp)
  (id : String)

/-- An answered entry is stored as it is. -/
theorem LocationEntry.refreshed_stored (hid : isNotBlank (trim id) = true)
    (hlocation : e.location.isStorable = true) : (e.refreshed url stamp id).Stored := by
  refine stored_normalized hid ?_
  rw [location_rewritten]
  exact hlocation

theorem LocationEntry.refreshed_id : (e.refreshed url stamp id).storageId = trim id := rfl

include hurl

theorem LocationEntry.refreshed_url : (e.refreshed url stamp id).subscriptionUrl = some url := by
  have hblank : isBlank url = false := by simpa [isNotBlank] using hurl
  have hsaved : savedUrl { e with subscriptionUrl := some url } = some url := by
    simp [savedUrl, firstNotBlank, hurl, hblank]
  rw [refreshed, normalized_rewritten, hsaved]

theorem LocationEntry.refreshed_groupUrl (htrim : trim url = url) :
    (e.refreshed url stamp id).groupUrl = some url := by
  simp [groupUrl, refreshed_url e hurl, htrim, hurl]

omit hurl in
/-- An answered server is stored with everything the panel says about it. -/
theorem LocationEntry.refreshed_panelView (ht : 0 < stamp.timestamp) :
    (e.refreshed url stamp id).panelView = e.normalized.panelView := by
  have heq : e.refreshed url stamp id = LocationEntry.normalized _ := rfl
  have hold : e.normalized.metadata = savedMetadata e.metadata := rfl
  rw [normalized_rewritten, withSubscriptionRefreshState,
    savedMetadata_withSubscription e.metadata ht fun _ => rfl] at heq
  rw [heq]
  generalize e.normalized = n at hold ⊢
  simp only [panelView, mapSubscription, subscription, hold, savedMetadata_getD,
    panelPart_savedMetadata]
  rfl

end Refreshed

/-! ## Who takes over which id -/

/-- The candidates for an answered server are the stored entries of the same signature. -/
theorem pool_eq (signature : LocationConfig → String) (previous : List LocationEntry)
    (e : LocationEntry) : pool signature previous e =
      previous.filter fun p => signature p.location = signature e.location := lookup_groupBy _ _

/-- What `reuse` decides: `pairs` are the answered servers, each with the entry whose id it takes
    over. -/
structure Reuse (previous refreshed : List LocationEntry)
    (pairs : List (LocationEntry × Option LocationEntry)) (taken : List String) : Prop where
  claimants : pairs.map Prod.fst = refreshed
  held : ∀ e p, (e, some p) ∈ pairs → p ∈ previous ∧
    (namedSubscriptionSignature p.location = namedSubscriptionSignature e.location ∨
      subscriptionSignature p.location = subscriptionSignature e.location)
  taken_iff : ∀ id, id ∈ taken ↔ id ∈ Claim.heldKeys storageId pairs
  nodup : (Claim.heldKeys storageId pairs).Nodup

/-- Before the first claim no id is held. -/
theorem heldKeys_unclaimed (refreshed : List LocationEntry) : Claim.heldKeys storageId
      (refreshed.map fun e => (e, (none : Option LocationEntry))) = [] := by
  induction refreshed with
  | nil => rfl
  | cons e refreshed ih => simpa using ih

/-- THE REUSE PASS is a run of the claim library: every pair it makes is a claim of equal
    signature. -/
theorem reuse_spec (previous refreshed : List LocationEntry) :
    Reuse previous refreshed (reuse previous refreshed).1 (reuse previous refreshed).2 := by
  have hexact : Claim.Pass storageId (pool namedSubscriptionSignature previous) []
      (refreshed.map fun e => (e, none)) _ _ :=
    Claim.pass_spec _ (by simp [heldKeys_unclaimed]) (by simp [heldKeys_unclaimed])
  have hfallback := Claim.pass_spec (pool subscriptionSignature previous)
    (fun k hk => (hexact.taken_iff k).mpr (.inr hk)) hexact.nodup
  refine ⟨?_, ?_, ?_, hfallback.nodup⟩
  · rw [reuse, hfallback.claimants, hexact.claimants, map_map]
    exact map_id _
  · intro e p hmem
    rcases hfallback.held hmem with hmem | hpool
    · rcases hexact.held hmem with hmem | hpool
      · obtain ⟨_, _, heq⟩ := mem_map.mp hmem
        cases heq
      · rw [pool_eq, mem_filter, decide_eq_true_eq] at hpool
        exact ⟨hpool.1, .inl hpool.2⟩
    · rw [pool_eq, mem_filter, decide_eq_true_eq] at hpool
      exact ⟨hpool.1, .inr hpool.2⟩
  · intro id
    rw [reuse, hfallback.taken_iff, hexact.taken_iff]
    constructor
    · rintro ((h | h) | h)
      · simp at h
      · -- what the first round took is held after the second
        obtain ⟨e, p, hmem, rfl⟩ := Claim.mem_heldKeys.mp h
        obtain ⟨i, hi⟩ := mem_iff_getElem?.mp hmem
        exact Claim.mem_heldKeys.mpr
          ⟨e, p, mem_iff_getElem?.mpr ⟨i, Claim.pass_getElem?_held _ _ hi⟩, rfl⟩
      · exact h
    · exact .inr

/-! ## One URL -/

/-- The URL of a group is trimmed and not blank. -/
theorem groupUrl_eq_some {e : LocationEntry} {url : String} (h : e.groupUrl = some url) :
    trim url = url ∧ isNotBlank url = true := by
  rw [LocationEntry.groupUrl, filter_eq_some_iff, Option.map_eq_some_iff] at h
  obtain ⟨⟨raw, -, rfl⟩, hnb⟩ := h
  exact ⟨trim_trim raw, hnb⟩

/-- A URL with its entries, as the bundle has them. -/
structure UrlGroup (group : String × List LocationEntry) : Prop where
  nonempty : group.2 ≠ []
  url : ∀ e ∈ group.2, e.groupUrl = some group.1
  stored : ∀ e ∈ group.2, e.Stored
  nodup : (group.2.map storageId).Nodup

theorem UrlGroup.url_spec {group : String × List LocationEntry} (h : UrlGroup group) :
    trim group.1 = group.1 ∧ isNotBlank group.1 = true := by
  obtain ⟨e, he⟩ := exists_mem_of_ne_nil _ h.nonempty
  exact groupUrl_eq_some (h.url e he)

/-- All a URL should leave in the list: its entries if it failed, its answer if there is one. -/
def Complete (w : World) (group : String × List LocationEntry) (added : List LocationEntry) :
    Prop :=
  match w.answer group.1 with
  | none => List.Forall₂ LocationEntry.SameButAttempt group.2 added
  | some answer =>
    List.Forall₂ (fun parsed e => e.panelView = parsed.normalized.panelView)
      answer.locations added

/-- What one URL does to the state: `added` goes to the end of the list. -/
structure Appends (w : World) (group : String × List LocationEntry) (s s' : RefreshState)
    (added : List LocationEntry) : Prop where
  locations : s'.refreshedLocations = s.refreshedLocations ++ added
  used_iff : ∀ id, id ∈ s'.usedStorageIds ↔
    id ∈ s.usedStorageIds ∨ id ∈ added.map storageId
  stored : ∀ e ∈ added, e.Stored
  url : ∀ e ∈ added, e.groupUrl = some group.1
  nodup : (added.map storageId).Nodup
  /-- Every id belonged to this URL, or is new. -/
  origin : ∀ e ∈ added, e.storageId ∈ group.2.map storageId ∨
    Generated e.storageId ∧ e.storageId ∉ s.usedStorageIds
  failed : w.answer group.1 = none → ∀ e ∈ added, e.storageId ∉ s.usedStorageIds
  /-- Nothing is missing, if no id of this URL is in use already. -/
  complete : (∀ e ∈ group.2, e.storageId ∉ s.usedStorageIds) → Complete w group added

/-- What a failed group appends, without the loop. -/
theorem preservePreviousEntries_eq (timestamp : Int) (s : RefreshState)
    (entries : List LocationEntry) :
    preservePreviousEntries timestamp s entries =
      { s with
        refreshedLocations := s.refreshedLocations ++
          (distinctByFrom storageId s.usedStorageIds entries).map
            (attempted · timestamp)
        usedStorageIds :=
          ((distinctByFrom storageId s.usedStorageIds entries).map
            storageId).reverse ++ s.usedStorageIds } := by
  fun_induction preservePreviousEntries timestamp s entries with
  | case1 s => simp [distinctByFrom]
  | case2 s e entries hused ih => rw [ih, distinctByFrom, if_pos hused]
  | case3 s e entries hused ih =>
    rw [ih, distinctByFrom, if_neg hused]
    simp

/-- A generated id is new beside all that are used. -/
theorem freshStorageId_not_mem (index : Nat) (e : LocationEntry) (used : List String) :
    freshStorageId index e used ∉ used := uniqueStorageId_not_mem _ used

theorem generated_freshStorageId (index : Nat) (e : LocationEntry) (used : List String) :
    Generated (freshStorageId index e used) :=
  generated_uniqueStorageId e.location_isNormalized index used

/-- The ids of the answered servers. -/
structure AnswerIds (previous : List LocationEntry) (used : List String)
    (refreshed : List LocationEntry) (ids used' : List String) : Prop where
  length : refreshed.length = ids.length
  used_iff : ∀ id, id ∈ used' ↔ id ∈ used ∨ id ∈ ids
  nodup : ids.Nodup
  origin : ∀ id ∈ ids, id ∈ previous.map storageId ∨ Generated id ∧ id ∉ used
  clean : (∀ p ∈ previous, p.Stored) → ∀ id ∈ ids, trim id = id ∧ isNotBlank id = true

/-- THE IDS OF AN ANSWER: reused ones are those of their entries, the others are new, and no two are
    the same. -/
theorem answerIds (previous refreshed : List LocationEntry) (used : List String) :
    let reused := reuse previous refreshed
    let assigned := Claim.assign storageId freshStorageId (reused.2 ++ used) 0 reused.1
    AnswerIds previous used refreshed assigned.1 assigned.2 := by
  intro reused assigned
  have hreuse : Reuse previous refreshed reused.1 reused.2 := reuse_spec previous refreshed
  have hassign : Claim.Assign storageId freshStorageId (reused.2 ++ used) reused.1
      assigned.1 assigned.2 :=
    Claim.assign_spec freshStorageId_not_mem 0
      (fun id hid => mem_append_left _ ((hreuse.taken_iff id).mpr hid)) hreuse.nodup
  have hheld : ∀ id ∈ Claim.heldKeys storageId reused.1,
      ∃ p ∈ previous, p.storageId = id := by
    intro id hid
    obtain ⟨e, p, hmem, rfl⟩ := Claim.mem_heldKeys.mp hid
    exact ⟨p, (hreuse.held e p hmem).1, rfl⟩
  refine ⟨?_, ?_, hassign.nodup, ?_, ?_⟩
  · rw [← hassign.each.length_eq, ← length_map Prod.fst, hreuse.claimants]
  · intro id
    rw [hassign.used_iff, mem_append]
    constructor
    · rintro ((htaken | hused) | hid)
      · -- an id that is taken over is handed out
        exact .inr (hassign.held_mem ((hreuse.taken_iff id).mp htaken))
      · exact .inl hused
      · exact .inr hid
    · rintro (hused | hid)
      · exact .inl (.inr hused)
      · exact .inr hid
  · intro id hid
    rcases hassign.origin id hid with hheld' | hfree
    · obtain ⟨p, hp, rfl⟩ := hheld id hheld'
      exact .inl (mem_map_of_mem hp)
    · rcases hassign.held_or_fresh hid with hheld' | ⟨i, e, u, rfl⟩
      · obtain ⟨p, hp, rfl⟩ := hheld id hheld'
        exact .inl (mem_map_of_mem hp)
      · exact .inr ⟨generated_freshStorageId i e u, fun h => hfree (mem_append_right _ h)⟩
  · intro hstored id hid
    rcases hassign.held_or_fresh hid with hheld' | ⟨i, e, u, rfl⟩
    · obtain ⟨p, hp, rfl⟩ := hheld id hheld'
      exact ⟨(hstored p hp).trim_id, (hstored p hp).named⟩
    · have hslug : IsSlug (freshStorageId i e u) := isSlug_uniqueStorageId _ u
      exact ⟨hslug.trim_eq, hslug.isNotBlank⟩

/-- The answer of a URL, under its ids. -/
def answered (s : RefreshState) (url : String) (timestamp : Int) (previous : List LocationEntry)
    (answer : ResolvedImport) : List LocationEntry :=
  let reused := reuse previous answer.locations
  List.zipWith (fun e id => e.refreshed url (refreshStamp timestamp previous answer) id)
    answer.locations
    (Claim.assign storageId freshStorageId (reused.2 ++ s.usedStorageIds) 0 reused.1).1

section Group

variable (w : World) (activeBefore : Option String) (s : RefreshState)
  {group : String × List LocationEntry} (h : UrlGroup group)

include h

/-- A group without an answer keeps its entries, with the attempt noted. -/
theorem refreshGroup_failed (hanswer : w.answer group.1 = none) :
    ∃ added, Appends w group s (refreshGroup w activeBefore s group) added := by
  set t := w.nowEpochMs group.1 with ht
  have hpos : 0 < t := w.nowEpochMs_pos group.1
  set kept := distinctByFrom storageId s.usedStorageIds group.2 with hkept
  have hmem : ∀ e ∈ kept, e ∈ group.2 := fun e he =>
    (distinctByFrom_sublist s.usedStorageIds group.2).subset he
  have hids : (kept.map (attempted · t)).map storageId =
      kept.map storageId := by
    rw [map_map]
    exact map_congr_left fun e he => attempted_id (h.stored e (hmem e he)) hpos
  obtain ⟨hnodup, hfree⟩ : (kept.map storageId).Nodup ∧
      ∀ e ∈ kept, e.storageId ∉ s.usedStorageIds := distinctByFrom_nodup s.usedStorageIds group.2
  have hstate : refreshGroup w activeBefore s group =
      { preservePreviousEntries t s group.2 with attemptStateChanged := true } := by
    simp only [refreshGroup, hanswer, ht]
  rw [preservePreviousEntries_eq] at hstate
  refine ⟨kept.map (attempted · t), ?_⟩
  have hattempted : ∀ e ∈ kept.map (attempted · t),
      ∃ p ∈ kept, e = p.attempted t ∧ e.storageId = p.storageId := by
    intro e he
    obtain ⟨p, hp, rfl⟩ := mem_map.mp he
    exact ⟨p, hp, rfl, attempted_id (h.stored p (hmem p hp)) hpos⟩
  exact
    { locations := by rw [hstate]
      used_iff := by
        intro id
        rw [hstate, hids]
        simp [or_comm, hkept]
      stored := by
        intro e he
        obtain ⟨p, hp, rfl, -⟩ := hattempted e he
        exact attempted_stored (h.stored p (hmem p hp))
      url := by
        intro e he
        obtain ⟨p, hp, rfl, -⟩ := hattempted e he
        rw [attempted_groupUrl (h.stored p (hmem p hp)) hpos, h.url p (hmem p hp)]
      nodup := by rw [hids]; exact hnodup
      origin := by
        intro e he
        obtain ⟨p, hp, -, hid⟩ := hattempted e he
        exact .inl (hid ▸ mem_map_of_mem (hmem p hp))
      failed := by
        intro _ e he
        obtain ⟨p, hp, -, hid⟩ := hattempted e he
        exact hid ▸ hfree p hp
      complete := by
        intro hdisjoint
        have hall : kept = group.2 := distinctByFrom_eq_self hdisjoint h.nodup
        rw [Complete, hanswer, hall, List.forall₂_map_right_iff, List.forall₂_same]
        exact fun e he => attempted_sameButAttempt (h.stored e he) hpos }

/-- A group with an answer is replaced by it, known servers under their old ids. -/
theorem refreshGroup_answered {answer : ResolvedImport} (hanswer : w.answer group.1 = some answer) :
    Appends w group s (refreshGroup w activeBefore s group)
      (answered s group.1 (w.nowEpochMs group.1) group.2 answer) := by
  obtain ⟨htrim, hnb⟩ := h.url_spec
  have hids := answerIds group.2 answer.locations s.usedStorageIds
  set added := answered s group.1 (w.nowEpochMs group.1) group.2 answer with hadded
  set reused := reuse group.2 answer.locations with hreused
  set assigned := Claim.assign storageId freshStorageId
    (reused.2 ++ s.usedStorageIds) 0 reused.1 with hassigned
  have hclean := hids.clean h.stored
  have hmem : ∀ e ∈ added, ∃ parsed ∈ answer.locations, ∃ id ∈ assigned.1,
      e = parsed.refreshed group.1
        (refreshStamp (w.nowEpochMs group.1) group.2 answer) id := fun e he => mem_zipWith he
  have hkeys : added.map storageId = assigned.1 := by
    have hzip : List.Forall₂ (fun id e => id = e.storageId) assigned.1 added := by
      rw [hadded, answered, zipWith_comm]
      refine forall₂_zipWith hids.length.symm fun id hid parsed _ => ?_
      rw [refreshed_id, (hclean id hid).1]
    have heq := List.forall₂_map_right_iff.mpr hzip
    rw [List.forall₂_eq_eq_eq] at heq
    exact heq.symm
  have hstate : refreshGroup w activeBefore s group =
      acceptAnswer activeBefore (w.nowEpochMs group.1) s group.1 group.2 answer := by
    simp only [refreshGroup, hanswer]
  exact
    { locations := by rw [hstate]; rfl
      used_iff := by
        intro id
        rw [hstate, hkeys]
        exact hids.used_iff id
      stored := by
        intro e he
        obtain ⟨parsed, hparsed, id, hid, rfl⟩ := hmem e he
        refine refreshed_stored parsed _ id ?_ (answer.storable parsed hparsed)
        rw [(hclean id hid).1]
        exact (hclean id hid).2
      url := by
        intro e he
        obtain ⟨parsed, -, id, -, rfl⟩ := hmem e he
        exact refreshed_groupUrl parsed hnb _ id htrim
      nodup := by rw [hkeys]; exact hids.nodup
      origin := by
        intro e he
        exact hids.origin _ (hkeys ▸ mem_map_of_mem he)
      failed := by
        intro hnone
        rw [hanswer] at hnone
        cases hnone
      complete := by
        intro _
        rw [Complete, hanswer]
        exact forall₂_zipWith hids.length fun parsed _ id _ =>
          refreshed_panelView parsed _ id (w.nowEpochMs_pos group.1) }

/-- Whatever the answer, a URL appends to the list. -/
theorem refreshGroup_appends :
    ∃ added, Appends w group s (refreshGroup w activeBefore s group) added := by
  cases hanswer : w.answer group.1 with
  | none => exact refreshGroup_failed w activeBefore s h hanswer
  | some answer => exact ⟨_, refreshGroup_answered w activeBefore s h hanswer⟩

end Group

/-! ## The groups of a bundle -/

/-- A group is all entries of one targeted URL. -/
theorem mem_groupedByUrl {bundle : LocationBundle} {onlyUrls : Option (List String)} {url : String}
    {previous : List LocationEntry} :
    (url, previous) ∈ groupedByUrl bundle onlyUrls ↔
      isTarget onlyUrls url = true ∧ (∃ e ∈ bundle.locations, e.groupUrl = some url) ∧
        previous = bundle.locations.filter fun e => e.groupUrl = some url := by
  have hgroup : ∀ l : List LocationEntry,
      ((l.filterMap fun e => e.groupUrl.map fun u => (u, e)).filter
        fun pair => pair.1 = url).map Prod.snd = l.filter fun e => e.groupUrl = some url := by
    intro l
    induction l with
    | nil => rfl
    | cons e l ih =>
      cases hurl : e.groupUrl with
      | none => simpa [hurl] using ih
      | some u =>
        by_cases hu : u = url <;> simpa [hurl, hu] using ih
  have hkeys : url ∈ (bundle.locations.filterMap fun e => e.groupUrl.map fun u => (u, e)).map
      Prod.fst ↔ ∃ e ∈ bundle.locations, e.groupUrl = some url := by
    simp
  rw [groupedByUrl, mem_filter, mem_map]
  constructor
  · rintro ⟨⟨⟨k, group⟩, hmem, heq⟩, htarget⟩
    obtain ⟨rfl, rfl⟩ := Prod.mk.inj heq
    obtain ⟨hk, rfl⟩ := mem_groupBy.mp hmem
    exact ⟨htarget, hkeys.mp hk, hgroup _⟩
  · rintro ⟨htarget, hex, rfl⟩
    exact ⟨⟨(url, _), mem_groupBy.mpr ⟨hkeys.mpr hex, rfl⟩, Prod.ext rfl (hgroup _)⟩, htarget⟩

/-- No URL has two groups. -/
theorem groupedByUrl_nodup (bundle : LocationBundle) (onlyUrls : Option (List String)) :
    ((groupedByUrl bundle onlyUrls).map Prod.fst).Nodup := by
  refine List.Nodup.sublist (filter_sublist.map _) ?_
  rw [map_map]
  exact groupBy_keys_nodup _

section

variable (b : StoredBundle) (onlyUrls : Option (List String))

theorem urlGroup_of_mem {group : String × List LocationEntry}
    (h : group ∈ groupedByUrl b.bundle onlyUrls) : UrlGroup group := by
  obtain ⟨url, previous⟩ := group
  obtain ⟨-, ⟨e, he, hurl⟩, rfl⟩ := mem_groupedByUrl.mp h
  exact
    { nonempty := ne_nil_of_mem (mem_filter.mpr ⟨he, by simpa using hurl⟩)
      url := fun e he => by simpa using (mem_filter.mp he).2
      stored := fun e he => b.stored (mem_filter.mp he).1
      nodup := b.nodup.sublist (filter_sublist.map _) }

/-- An id belongs to one group only. -/
theorem eq_of_id_eq {group group' : String × List LocationEntry}
    (h : group ∈ groupedByUrl b.bundle onlyUrls) (h' : group' ∈ groupedByUrl b.bundle onlyUrls)
    {e e' : LocationEntry} (he : e ∈ group.2) (he' : e' ∈ group'.2)
    (hid : e.storageId = e'.storageId) : group.1 = group'.1 := by
  obtain ⟨url, previous⟩ := group
  obtain ⟨url', previous'⟩ := group'
  obtain ⟨-, -, rfl⟩ := mem_groupedByUrl.mp h
  obtain ⟨-, -, rfl⟩ := mem_groupedByUrl.mp h'
  simp only [mem_filter, decide_eq_true_eq] at he he'
  have hsame : e = e' := inj_on_of_nodup_map b.nodup he.1 he'.1 hid
  rw [hsame, he'.2] at he
  exact (Option.some.inj he.2).symm

end

end OlcVpn.Locations
