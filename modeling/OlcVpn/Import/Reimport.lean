/-
  IMPORTING A SUBSCRIPTION AGAIN, compared with refreshing it.

  Both ask the URL and replace its entries by the answer.  A refresh recognises the servers it knows
  and gives them their ids, and it carries over what the user set: the name and the switch for
  automatic updates.  An import drops the entries of the URL and then MERGES the answer as if it had
  never seen it: ids are made from the answer, the selection is looked for in what is left, and the
  metadata is what was parsed.
-/
import OlcVpn.Import.Restore
import OlcVpn.Locations.RefreshIdentity

namespace OlcVpn.Locations

open Kotlin List
open LocationBundle (locations_normalized)
open LocationEntry (groupUrl location_mapSubscription storageId)
open Option (map_some filter_some some)

/-! ## Where imported entries land -/

/-- The entries that stay while a URL is imported again. -/
def restOf (current : StoredBundle) (url : String) : StoredBundle :=
  (importBasis current.bundle (some url)).save

/-- The imported entries, each with the id it comes to.  With nothing else in the store they keep
    their own ids; a restore replaces what has the id. -/
def landings (rest : StoredBundle) (mode : ImportMode) (entries : List LocationEntry) :
    List (LocationEntry × String) :=
  if rest.bundle.locations.isEmpty then entries.map fun e => (e, e.storageId)
  else if mode = .restore then
    ((entries.filter fun e => rest.storageIds.contains e.storageId).map fun e =>
        (e, e.storageId)) ++
      (missing rest.storageIds entries).zip (uniqueStorageIds rest.storageIds
        ((missing rest.storageIds entries).map storageId))
  else entries.zip (uniqueStorageIds rest.storageIds (entries.map storageId))

/-- An entry under another id. -/
def LocationEntry.withId (e : LocationEntry) (id : String) : LocationEntry :=
  { e with storageId := id }

theorem mem_reassignIds {used : List String} {entries : List LocationEntry} {s : LocationEntry} :
    s ∈ reassignIds used entries ↔ ∃ pair ∈ entries.zip (uniqueStorageIds used
      (entries.map storageId)), s = pair.1.withId pair.2 := by
  rw [reassignIds, ← map_uncurry_zip_eq_zipWith, mem_map]
  exact exists_congr fun pair => and_congr_right fun _ => eq_comm

/-- What does not touch the ids does not touch where they land. -/
theorem landings_map (rest : StoredBundle) (mode : ImportMode) {entries : List LocationEntry}
    {f : LocationEntry → LocationEntry}
    (hf : ∀ e ∈ entries, (f e).storageId = e.storageId) :
    landings rest mode (entries.map f) =
      (landings rest mode entries).map fun pair => (f pair.1, pair.2) := by
  have hids : ∀ l : List LocationEntry, (∀ e ∈ l, e ∈ entries) →
      (l.map f).map storageId = l.map storageId := by
    intro l hl
    rw [map_map]
    exact map_congr_left fun e he => hf e (hl e he)
  have hfilter : ∀ keep : String → Bool, (entries.map f).filter (fun e => keep e.storageId) =
      (entries.filter fun e => keep e.storageId).map f := by
    intro keep
    rw [filter_map]
    refine congrArg _ (filter_congr fun e he => ?_)
    rw [Function.comp_apply, hf e he]
  have hmissing : missing rest.storageIds (entries.map f) =
      (missing rest.storageIds entries).map f := hfilter fun id => !rest.storageIds.contains id
  have hsub : ∀ e ∈ missing rest.storageIds entries, e ∈ entries :=
    fun e he => (mem_filter.mp he).1
  have hown : ∀ l : List LocationEntry, (∀ e ∈ l, e ∈ entries) →
      ((l.map f).map fun e => (e, e.storageId)) = l.map fun e => (f e, e.storageId) := by
    intro l hl
    rw [map_map]
    refine map_congr_left fun e he => ?_
    rw [Function.comp_apply, hf e (hl e he)]
  rw [landings, landings]
  split_ifs
  · rw [hown entries fun _ he => he, map_map]
    rfl
  · rw [hfilter fun id => rest.storageIds.contains id, hmissing, hids _ hsub,
      hown _ (fun e he => (mem_filter.mp he).1), zip_map_left, map_append, map_map]
    rfl
  · rw [hids entries fun _ he => he, zip_map_left]
    rfl

section Merged

variable (rest : StoredBundle) {imported : LocationBundle}
  (hall : ∀ e ∈ imported.locations, e.Stored)
  (hnd : (imported.locations.map storageId).Nodup) (mode : ImportMode)

include hall hnd

theorem save_imported : imported.save.bundle.locations = imported.locations := by
  rw [LocationBundle.save, locations_normalized hall, distinctBy_eq_self hnd]

/-- After an import the store holds what landed, and of the rest what was not replaced. -/
theorem mem_merge {s : LocationEntry} :
    s ∈ (mergeImportedBundle rest.bundle imported (mode = .restore)).save.bundle.locations ↔
      (∃ pair ∈ landings rest mode imported.locations, s = pair.1.withId pair.2) ∨
        (s ∈ rest.bundle.locations ∧
          (mode = .restore → s.storageId ∉ imported.locations.map storageId)) := by
  by_cases hempty : rest.bundle.locations = []
  · rw [merge_nothing hempty, save_imported hall hnd, landings, hempty]
    simp [LocationEntry.withId]
  rw [landings, if_neg (by simpa using hempty)]
  cases mode with
  | additive =>
    have hfalse : (ImportMode.additive = .restore : Bool) = false := by decide
    rw [hfalse, merge_additive rest hempty hall, mem_append, mem_reassignIds, or_comm]
    simp
  | restore =>
    have htrue : (ImportMode.restore = .restore : Bool) = true := by decide
    rw [htrue, save_restore_locations hempty hall, restoredLocations, mem_append, mem_reassignIds]
    have hown : (∃ pair ∈ (imported.locations.filter fun e =>
        rest.storageIds.contains e.storageId).map fun e => (e, e.storageId),
          s = pair.1.withId pair.2) ↔
        s ∈ imported.locations ∧ s.storageId ∈ rest.storageIds := by
      simp only [mem_map, mem_filter, contains_iff_mem]
      constructor
      · rintro ⟨-, ⟨e, he, rfl⟩, rfl⟩
        exact he
      · intro hs
        exact ⟨(s, s.storageId), ⟨s, hs, rfl⟩, rfl⟩
    rw [mem_map_replaced hnd, if_pos rfl]
    simp only [mem_append, or_and_right, exists_or, true_imp_iff]
    rw [hown]
    exact or_right_comm

/-- Where the imported selection counts, it is selected under the id it came to. -/
theorem active_merge {pair : LocationEntry × String}
    (hpair : pair ∈ landings rest mode imported.locations)
    (hmode : rest.bundle.locations = [] ∨ mode = .restore)
    (hactive : imported.activeLocationId = some pair.1.storageId) :
    (mergeImportedBundle rest.bundle imported (mode = .restore)).save.bundle.activeLocationId =
      some pair.2 := by
  have hmem : pair.1.withId pair.2 ∈ (mergeImportedBundle rest.bundle imported
      (mode = .restore)).save.bundle.locations := (mem_merge rest hall hnd mode).mpr
    (.inl ⟨pair, hpair, rfl⟩)
  refine LocationBundle.activeLocationId_normalized _ hmem ?_
  by_cases hempty : rest.bundle.locations = []
  · rw [landings, if_pos (by simpa using hempty), mem_map] at hpair
    obtain ⟨e, -, rfl⟩ := hpair
    rw [merge_nothing hempty]
    exact hactive
  obtain rfl : mode = .restore := hmode.resolve_left hempty
  have htrue : (ImportMode.restore = .restore : Bool) = true := by decide
  -- the entries that are not replaced are looked up by the id they had
  have hlanded : landedId rest.storageIds ((missing rest.storageIds imported.locations).map
      storageId) pair.1.storageId = pair.2 := by
    rw [landings, if_neg (by simpa using hempty), if_pos rfl] at hpair
    rcases mem_append.mp hpair with hpair | hpair
    · obtain ⟨e, he, rfl⟩ := mem_map.mp hpair
      have hold : e.storageId ∈ rest.storageIds := by simpa using (mem_filter.mp he).2
      refine landedId_of_not_mem fun hin => ?_
      obtain ⟨other, hother, hid⟩ := mem_map.mp hin
      simp [missing, hid, hold] at hother
    · refine landedId_of_mem_zip (hnd.sublist (filter_sublist.map _)) ?_
      rw [zip_map_left]
      exact mem_map_of_mem hpair
  have hknown : (mergeImportedBundle rest.bundle imported true).locations.any
      (·.storageId = pair.2) = true := by
    rw [htrue, save_restore_locations hempty hall, ← merge_restore_locations hempty hall] at hmem
    exact any_eq_true.mpr ⟨_, hmem, by simp [LocationEntry.withId]⟩
  rw [htrue, active_merge_restore hempty, hactive, map_some, hlanded, filter_some, hknown]
  rfl

omit hnd in
/-- Otherwise the selection is of the rest. -/
theorem active_rest (hne : rest.bundle.locations ≠ []) (hmode : mode ≠ .restore) :
    ∃ e ∈ rest.bundle.locations,
      (mergeImportedBundle rest.bundle imported (mode = .restore)).save.bundle.activeLocationId =
        some e.storageId := by
  have hfalse : (mode = .restore : Bool) = false := by simpa using hmode
  obtain ⟨e, he, hactive⟩ := rest.exists_active hne
  refine ⟨e, he, ?_⟩
  rw [hfalse, merge_additive rest hne hall]
  exact hactive

end Merged

/-! ## A parse result, imported and refreshed -/

/-- A parse result: what a refresh reads of it, and what an import reads besides. -/
structure Reparsed where
  answer : ResolvedImport
  activeLocationId : Option String := none
  mode : ImportMode := .additive

def Reparsed.bundle (parsed : Reparsed) : LocationBundle where
  activeLocationId := parsed.activeLocationId
  locations := parsed.answer.locations

def Reparsed.resolved (parsed : Reparsed) (url : String) : ResolvedText where
  subscriptionUrl := some url
  updateIntervalHours := parsed.answer.updateIntervalHours
  parsed := ⟨parsed.bundle, parsed.mode⟩

/-- The parsed entries as they are stored. -/
def Reparsed.entries (parsed : Reparsed) : List LocationEntry :=
  parsed.bundle.normalized.locations

section Imported

variable {now : Int} (hnow : 0 < now) (current : StoredBundle) {url : String}
  (hurl : isNotBlank url = true) (htrim : trim url = url) (parsed : Reparsed)

/-- An imported entry in its place. -/
def Reparsed.landed (parsed : Reparsed) (now : Int) (pair : LocationEntry × String) :
    LocationEntry :=
  (pair.1.stampImported now parsed.answer.updateIntervalHours).withId pair.2

/-- A second import: the entries of the URL go, and the answer is merged into the rest. -/
theorem importResolved_eq : importResolved now current (parsed.resolved url) =
    (mergeImportedBundle (restOf current url).bundle
      (importedBundle now parsed.answer.updateIntervalHours parsed.bundle)
      (parsed.mode = .restore)).save := by
  have hbasis : ∀ b imported replace, mergeImportedBundle b imported replace =
      mergeImportedBundle b.save.bundle imported replace := by
    intro b imported replace
    rw [mergeImportedBundle, mergeImportedBundle, LocationBundle.save, b.normalized_normalized]
  rw [importResolved, Reparsed.resolved, restOf, hbasis]

include hurl htrim in
/-- What stays has another URL. -/
theorem mem_restOf {e : LocationEntry} : e ∈ (restOf current url).bundle.locations ↔
    e ∈ current.bundle.locations ∧ e.groupUrl ≠ some url := by
  have hbasis : (importBasis current.bundle (some url)).locations =
      current.bundle.locations.filter fun e => e.subscriptionUrl.map trim ≠ some url := by
    simp [importBasis, htrim, filter_some, hurl]
  have hkept : (restOf current url).bundle.locations =
      current.bundle.locations.filter fun e => e.subscriptionUrl.map trim ≠ some url := by
    rw [restOf, LocationBundle.save, locations_normalized, hbasis]
    · exact distinctBy_eq_self (current.nodup.sublist (filter_sublist.map _))
    · rw [hbasis]
      exact fun e he => current.stored (mem_filter.mp he).1
  have hgroup : ∀ e : LocationEntry,
      e.groupUrl = some url ↔ e.subscriptionUrl.map trim = some url := by
    intro e
    rw [groupUrl, Option.filter_eq_some_iff]
    exact ⟨fun h => h.1, fun h => ⟨h, hurl⟩⟩
  rw [hkept, mem_filter, decide_eq_true_eq, Ne, Ne, hgroup]

theorem stored_entries {e : LocationEntry} (he : e ∈ parsed.entries) : e.Stored :=
  LocationBundle.stored_of_mem_normalized he

include hnow

theorem stampImported_storageId {e : LocationEntry} (he : e ∈ parsed.entries) :
    (e.stampImported now parsed.answer.updateIntervalHours).storageId = e.storageId :=
  LocationEntry.stampImported_storageId (stored_entries parsed he) hnow _

theorem nodup_importedBundle :
    ((importedBundle now parsed.answer.updateIntervalHours parsed.bundle).locations.map
      storageId).Nodup := by
  have hids : (importedBundle now parsed.answer.updateIntervalHours parsed.bundle).locations.map
      storageId = parsed.entries.map storageId := by
    rw [importedBundle, map_map]
    exact map_congr_left fun e he => stampImported_storageId hnow parsed he
  rw [hids]
  exact parsed.bundle.nodup_normalized

/-- The landings of the stamped entries. -/
theorem landings_imported (rest : StoredBundle) :
    landings rest parsed.mode
        (importedBundle now parsed.answer.updateIntervalHours parsed.bundle).locations =
      (landings rest parsed.mode parsed.entries).map fun pair =>
        (pair.1.stampImported now parsed.answer.updateIntervalHours, pair.2) :=
  landings_map rest parsed.mode fun _ he => stampImported_storageId hnow parsed he

/-- What lands is stored. -/
theorem landed_mem {pair : LocationEntry × String}
    (hpair : pair ∈ landings (restOf current url) parsed.mode parsed.entries) :
    parsed.landed now pair ∈
      (importResolved now current (parsed.resolved url)).bundle.locations := by
  rw [importResolved_eq, mem_merge _ (stored_importedBundle _ _ _)
    (nodup_importedBundle hnow parsed),
    landings_imported hnow parsed]
  exact .inl ⟨_, mem_map_of_mem hpair, rfl⟩

include hurl htrim

/-- The entries of the URL after the import are what landed. -/
theorem exists_landing {e : LocationEntry}
    (he : e ∈ entriesOf (importResolved now current (parsed.resolved url)).bundle url) :
    ∃ pair ∈ landings (restOf current url) parsed.mode parsed.entries,
      e = parsed.landed now pair := by
  obtain ⟨hmem, hgroup⟩ := mem_filter.mp he
  rw [importResolved_eq, mem_merge _ (stored_importedBundle _ _ _)
    (nodup_importedBundle hnow parsed),
    landings_imported hnow parsed] at hmem
  rcases hmem with ⟨stamped, hstamped, rfl⟩ | ⟨hrest, -⟩
  · obtain ⟨pair, hpair, rfl⟩ := mem_map.mp hstamped
    exact ⟨pair, hpair, rfl⟩
  · exact absurd (by simpa using hgroup) ((mem_restOf current hurl htrim).mp hrest).2

end Imported

/-! ## What lands is what was parsed -/

section Landed

variable {now : Int} (hnow : 0 < now) (parsed : Reparsed) {pair : LocationEntry × String}
  (hstored : pair.1.Stored)

theorem mem_of_landing {rest : StoredBundle}
    (hpair : pair ∈ landings rest parsed.mode parsed.entries) : pair.1 ∈ parsed.entries := by
  rw [landings] at hpair
  split_ifs at hpair
  · obtain ⟨e, he, rfl⟩ := mem_map.mp hpair
    exact he
  · rcases mem_append.mp hpair with hpair | hpair
    · obtain ⟨e, he, rfl⟩ := mem_map.mp hpair
      exact (mem_filter.mp he).1
    · exact (mem_filter.mp (of_mem_zip hpair).1).1
  · exact (of_mem_zip hpair).1

/-- Every entry lands somewhere. -/
theorem exists_landing_of_mem (rest : StoredBundle) {e : LocationEntry} (he : e ∈ parsed.entries) :
    ∃ id, (e, id) ∈ landings rest parsed.mode parsed.entries := by
  have hzip : ∀ {l : List LocationEntry} {ids : List String}, l.length = ids.length → e ∈ l →
      ∃ id, (e, id) ∈ l.zip ids := by
    intro l ids hlen hmem
    rw [← map_fst_zip hlen.le, mem_map] at hmem
    obtain ⟨⟨e, id⟩, hpair, rfl⟩ := hmem
    exact ⟨id, hpair⟩
  rw [landings]
  split_ifs
  · exact ⟨e.storageId, mem_map_of_mem (f := fun e => (e, e.storageId)) he⟩
  · by_cases hold : e.storageId ∈ rest.storageIds
    · have hin : e ∈ parsed.entries.filter fun e => rest.storageIds.contains e.storageId :=
        mem_filter.mpr ⟨he, by simpa using hold⟩
      exact ⟨e.storageId, mem_append_left _ (mem_map_of_mem (f := fun e => (e, e.storageId)) hin)⟩
    · have hin : e ∈ missing rest.storageIds parsed.entries :=
        mem_filter.mpr ⟨he, by simpa using hold⟩
      have hlen : (missing rest.storageIds parsed.entries).length =
          (uniqueStorageIds rest.storageIds ((missing rest.storageIds parsed.entries).map
            storageId)).length := by simp [length_uniqueStorageIds]
      obtain ⟨id, hid⟩ := hzip hlen hin
      exact ⟨id, mem_append_right _ hid⟩
  · exact hzip (by simp [length_uniqueStorageIds]) he

/-- What of an entry the comparison looks at, apart from its id: the server, the URL, and the name
    and the switch the user set. -/
def LocationEntry.view (e : LocationEntry) :
    LocationConfig × Option String × Option String × Bool :=
  (e.location, e.groupUrl, e.subscription.bind SubscriptionMetadata.customName,
    (e.subscription.map SubscriptionMetadata.autoUpdateEnabled).getD true)

include hnow hstored in
/-- The time of the import does not show, and neither does the id. -/
theorem landed_view : (parsed.landed now pair).view = pair.1.view := by
  have hid : ∀ e : LocationEntry, (e.withId pair.2).view = e.view := by
    intro e
    rw [LocationEntry.view, LocationEntry.withId, LocationEntry.location_rewritten]
    rfl
  rw [Reparsed.landed, hid]
  by_cases hs : pair.1.isSubscription = true
  · have hsub : ∀ f, (pair.1.mapSubscription f).subscription =
        some (f (pair.1.subscription.getD {})) := fun _ => rfl
    rw [LocationEntry.stampImported_eq hstored hnow _ hs, LocationEntry.view,
      location_mapSubscription, hsub, LocationEntry.view]
    cases pair.1.subscription <;> rfl
  · rw [LocationEntry.stampImported, if_neg hs]

include hnow hstored in
theorem landed_parts : (parsed.landed now pair).location = pair.1.location ∧
    (parsed.landed now pair).groupUrl = pair.1.groupUrl :=
  ⟨congrArg (·.1) (landed_view hnow parsed hstored),
    congrArg (·.2.1) (landed_view hnow parsed hstored)⟩

end Landed

/-! ## What a refresh leaves -/

section Refreshed

variable (w : World) (current : StoredBundle) {url : String}

/-- Asking for one URL that has entries and may be asked, there is one group. -/
theorem groupedByUrl_only (hentries : entriesOf current.bundle url ≠ [])
    (hfree : url ≠ freeServersUrl) :
    (groupedByUrl current.bundle (some [url])).map Prod.fst = [url] := by
  have hmem : (url, entriesOf current.bundle url) ∈ groupedByUrl current.bundle (some [url]) := by
    obtain ⟨e, he⟩ := exists_mem_of_ne_nil _ hentries
    obtain ⟨he, hurl⟩ := mem_filter.mp he
    exact mem_groupedByUrl.mpr ⟨by simp [isTarget, hfree], ⟨e, he, by simpa using hurl⟩, rfl⟩
  have hall : ∀ u ∈ (groupedByUrl current.bundle (some [url])).map Prod.fst, u = url := by
    intro u hu
    obtain ⟨⟨u, previous⟩, hgroup, rfl⟩ := mem_map.mp hu
    have htarget := (mem_groupedByUrl.mp hgroup).1
    simp only [isTarget, Option.all_some, Bool.and_eq_true] at htarget
    simpa using htarget.2
  have hin := mem_map_of_mem (f := Prod.fst) hmem
  have hnodup := groupedByUrl_nodup current.bundle (some [url])
  generalize (groupedByUrl current.bundle (some [url])).map Prod.fst = urls at *
  match urls with
  | [] => simp at hin
  | [u] => rw [hall u mem_cons_self]
  | u :: v :: rest =>
    have hu := hall u mem_cons_self
    have hv := hall v (by simp)
    simp [hu, hv] at hnodup

/-- The entries of the URL are all it should leave, whether it answered or not. -/
theorem complete_single
    (hsingle : (groupedByUrl current.bundle (some [url])).map Prod.fst = [url]) :
    Complete w (url, entriesOf current.bundle url)
      (entriesOf (refreshSubscriptions w current.bundle (some [url])).2 url) := by
  have hgroup : (url, entriesOf current.bundle url) ∈ groupedByUrl current.bundle (some [url]) := by
    rw [groupedByUrl_single hsingle]
    exact mem_cons_self
  obtain ⟨added, happends⟩ := refreshGroup_appends w current.bundle.activeLocationId
    (refreshStart current.bundle (some [url])) (urlGroup_of_mem current _ hgroup)
  have hlist : (refreshAll w current.bundle (some [url])).refreshedLocations =
      untouched current.bundle (some [url]) ++ added := by
    rw [refreshAll, groupedByUrl_single hsingle]
    exact happends.locations
  have hnone : ((untouched current.bundle (some [url])).filter fun e => e.groupUrl = some url) =
      [] := by
    refine filter_eq_nil_iff.mpr fun e he => ?_
    simpa using (mem_untouched.mp he).2 _ hgroup
  have hadded : entriesOf (refreshSubscriptions w current.bundle (some [url])).2 url = added := by
    rw [entriesOf, saved_single_locations hsingle, hlist, filter_append, hnone, nil_append,
      filter_eq_self]
    intro e he
    simpa using happends.url e he
  rw [hadded]
  exact happends.complete (start_free current _ _ hgroup)

theorem location_panelView (e : LocationEntry) : e.panelView.location = e.location := by
  rw [LocationEntry.panelView, location_mapSubscription,
    LocationEntry.location_rewritten e "" none e.metadata]

theorem location_sameButAttempt {e e' : LocationEntry} (h : e.SameButAttempt e') :
    e'.location = e.location := by
  have heq := congrArg LocationEntry.location h
  rwa [location_mapSubscription, location_mapSubscription] at heq

/-- The servers of a URL after a refresh: its answer, or what it had if there is none.  The public
    list is never asked. -/
def refreshedServers (current : StoredBundle) (url : String) (answer : ResolvedImport) :
    List LocationConfig :=
  if url = freeServersUrl ∨ answer.locations = [] then
    (entriesOf current.bundle url).map LocationEntry.location
  else answer.locations.map fun e => e.location.stored

/-- The servers a refresh leaves. -/
theorem map_location_refreshed (hentries : entriesOf current.bundle url ≠ [])
    {answer : ResolvedImport}
    (hanswer : w.resolveParsedImport url = some answer) :
    (entriesOf (refreshSubscriptions w current.bundle (some [url])).2 url).map
      LocationEntry.location =
      refreshedServers current url answer := by
  by_cases hfree : url = freeServersUrl
  · have hnone : groupedByUrl current.bundle (some [url]) = [] := by
      refine eq_nil_iff_forall_not_mem.mpr fun ⟨u, previous⟩ hgroup => ?_
      have htarget := (mem_groupedByUrl.mp hgroup).1
      simp only [isTarget, Option.all_some, Bool.and_eq_true] at htarget
      have hu : u = url := by simpa using htarget.2
      simp [hu, hfree] at htarget
    have hsame : (refreshSubscriptions w current.bundle (some [url])).2 = current.bundle := by
      simp [refreshSubscriptions, hnone]
    rw [hsame, refreshedServers, if_pos (.inl hfree)]
  have hcomplete := complete_single w current (groupedByUrl_only current hentries hfree)
  rw [Complete, World.answer, hanswer] at hcomplete
  by_cases hempty : answer.locations = []
  · rw [refreshedServers, if_pos (.inr hempty)]
    simp only [filter_some, hempty, isEmpty_nil, Bool.not_true, Bool.false_eq_true, if_false]
      at hcomplete
    exact map_eq_of_forall₂ hcomplete fun _ _ => location_sameButAttempt
  · rw [refreshedServers, if_neg (by simp [hfree, hempty])]
    simp only [filter_some, isEmpty_eq_false_iff.mpr hempty, Bool.not_false, if_true] at hcomplete
    refine map_eq_of_forall₂ hcomplete fun parsed e heq => ?_
    rw [← location_panelView e, heq, location_panelView, LocationEntry.location_normalized]

end Refreshed

/-! ## The comparison -/

/-- The answered server `e` is the stored entry `p`, as a refresh recognises it. -/
def StillExists (current : StoredBundle) (url : String) (parsed : Reparsed) (e p : LocationEntry) :
    Prop :=
  (e, some p) ∈ (reuse (entriesOf current.bundle url) parsed.answer.locations).1

/-- `after` has the servers a refresh would leave, and the user's state is kept. -/
structure LikeRefresh (w : World) (current : StoredBundle) (url : String) (parsed : Reparsed)
    (after : StoredBundle) : Prop where
  servers : ∀ c, (∃ e ∈ entriesOf after.bundle url, e.location = c) ↔
    ∃ e ∈ entriesOf (refreshSubscriptions w current.bundle (some [url])).2 url, e.location = c
  ids : ∀ e p, StillExists current url parsed e p →
    ∃ s ∈ entriesOf after.bundle url,
      s.storageId = p.storageId ∧ s.location = e.location.stored
  selection : ∀ e p, StillExists current url parsed e p →
    current.bundle.activeLocationId = some p.storageId →
    ∃ s ∈ entriesOf after.bundle url,
      after.bundle.activeLocationId = some s.storageId ∧ s.location = e.location.stored
  customName : ∀ s ∈ entriesOf after.bundle url,
    s.subscription.bind SubscriptionMetadata.customName =
      subscriptionCustomName (entriesOf current.bundle url)
  autoUpdate : ∀ s ∈ entriesOf after.bundle url,
    (s.subscription.map SubscriptionMetadata.autoUpdateEnabled).getD true =
      subscriptionAutoUpdateEnabled (entriesOf current.bundle url)

/-- The answers for which that is so.  An entry counts if it is parsed as one of the URL. -/
structure ReimportSafe (current : StoredBundle) (url : String) (parsed : Reparsed) : Prop where
  /-- No server is dropped for its id, and there is an answer. -/
  servers : ∀ c, (∃ n ∈ parsed.entries, n.groupUrl = some url ∧ n.location = c) ↔
    c ∈ refreshedServers current url parsed.answer
  /-- A first import would give a known server the id it has. -/
  ids : ∀ e p, StillExists current url parsed e p →
    ∃ n, (n, p.storageId) ∈ landings (restOf current url) parsed.mode parsed.entries ∧
      n.groupUrl = some url ∧ n.location = e.location.stored
  /-- A selected server is the answer's own selection, and that counts. -/
  selection : ∀ e p, StillExists current url parsed e p →
    current.bundle.activeLocationId = some p.storageId →
    ((restOf current url).bundle.locations = [] ∨ parsed.mode = .restore) ∧
    ∃ n ∈ parsed.entries, parsed.bundle.normalized.activeLocationId = some n.storageId ∧
      n.groupUrl = some url ∧ n.location = e.location.stored
  /-- The answer itself says what the user had set. -/
  customName : ∀ n ∈ parsed.entries, n.groupUrl = some url →
    n.subscription.bind SubscriptionMetadata.customName =
      subscriptionCustomName (entriesOf current.bundle url)
  autoUpdate : ∀ n ∈ parsed.entries, n.groupUrl = some url →
    (n.subscription.map SubscriptionMetadata.autoUpdateEnabled).getD true =
      subscriptionAutoUpdateEnabled (entriesOf current.bundle url)

/-- Whether that is so can be computed. -/
instance (current : StoredBundle) (url : String) (parsed : Reparsed) :
    Decidable (ReimportSafe current url parsed) :=
  decidable_of_iff
    (((∀ n ∈ parsed.entries, n.groupUrl = some url →
          n.location ∈ refreshedServers current url parsed.answer) ∧
        ∀ c ∈ refreshedServers current url parsed.answer,
          ∃ n ∈ parsed.entries, n.groupUrl = some url ∧ n.location = c) ∧
      (∀ known ∈ (reuse (entriesOf current.bundle url) parsed.answer.locations).1,
        ∀ p ∈ known.2,
          (∃ landing ∈ landings (restOf current url) parsed.mode parsed.entries,
            landing.2 = p.storageId ∧ landing.1.groupUrl = some url ∧
              landing.1.location = known.1.location.stored) ∧
          (current.bundle.activeLocationId = some p.storageId →
            ((restOf current url).bundle.locations.isEmpty = true ∨ parsed.mode = .restore) ∧
            ∃ n ∈ parsed.entries, parsed.bundle.normalized.activeLocationId = some n.storageId ∧
              n.groupUrl = some url ∧ n.location = known.1.location.stored)) ∧
      ∀ n ∈ parsed.entries, n.groupUrl = some url →
        n.subscription.bind SubscriptionMetadata.customName =
          subscriptionCustomName (entriesOf current.bundle url) ∧
        (n.subscription.map SubscriptionMetadata.autoUpdateEnabled).getD true =
          subscriptionAutoUpdateEnabled (entriesOf current.bundle url))
    (by
      constructor
      · rintro ⟨⟨hinto, honto⟩, hknown, hset⟩
        refine ⟨fun c => ⟨?_, honto c⟩, fun e p hp => ?_, fun e p hp hactive => ?_,
          fun n hn hurl => (hset n hn hurl).1, fun n hn hurl => (hset n hn hurl).2⟩
        · rintro ⟨n, hn, hurl, rfl⟩
          exact hinto n hn hurl
        · obtain ⟨⟨landing, hmem, hid, hurl, hlocation⟩, -⟩ := hknown _ hp p rfl
          exact ⟨landing.1, hid ▸ hmem, hurl, hlocation⟩
        · obtain ⟨hrest, hn⟩ := (hknown _ hp p rfl).2 hactive
          exact ⟨hrest.imp_left isEmpty_iff.mp, hn⟩
      · intro h
        refine ⟨⟨fun n hn hurl => (h.servers _).mp ⟨n, hn, hurl, rfl⟩,
          fun c hc => (h.servers c).mpr hc⟩, ?_,
          fun n hn hurl => ⟨h.customName n hn hurl, h.autoUpdate n hn hurl⟩⟩
        rintro ⟨e, known⟩ hmem p hp
        obtain rfl : known = some p := hp
        refine ⟨?_, fun hactive => ?_⟩
        · obtain ⟨n, hn, hurl, hlocation⟩ := h.ids e p hmem
          exact ⟨(n, p.storageId), hn, rfl, hurl, hlocation⟩
        · obtain ⟨hrest, hn⟩ := h.selection e p hmem hactive
          exact ⟨hrest.imp_left isEmpty_iff.mpr, hn⟩)

section Compare

variable {w : World} {now : Int} (hnow : 0 < now) {current : StoredBundle} {url : String}
  (hentries : entriesOf current.bundle url ≠ []) {parsed : Reparsed}

include hentries in
theorem url_of_entries : isNotBlank url = true ∧ trim url = url := by
  obtain ⟨e, he⟩ := exists_mem_of_ne_nil _ hentries
  have hurl : e.groupUrl = some url := by simpa using (mem_filter.mp he).2
  exact (groupUrl_eq_some hurl).symm

include hnow

/-- A parsed entry of the URL is stored as one. -/
theorem landed_entriesOf {pair : LocationEntry × String}
    (hpair : pair ∈ landings (restOf current url) parsed.mode parsed.entries)
    (hgroup : pair.1.groupUrl = some url) : parsed.landed now pair ∈
      entriesOf (importResolved now current (parsed.resolved url)).bundle url := by
  have hstored := stored_entries parsed (mem_of_landing parsed hpair)
  refine mem_filter.mpr ⟨landed_mem hnow current parsed hpair, ?_⟩
  rw [decide_eq_true_eq, (landed_parts hnow parsed hstored).2, hgroup]

include hentries

/-- And an entry of the URL after the import is one that landed. -/
theorem landing_of_entriesOf {s : LocationEntry}
    (hs : s ∈ entriesOf (importResolved now current (parsed.resolved url)).bundle url) :
    ∃ pair ∈ landings (restOf current url) parsed.mode parsed.entries,
      s = parsed.landed now pair ∧ pair.1 ∈ parsed.entries ∧ pair.1.groupUrl = some url := by
  obtain ⟨hurl, htrim⟩ := url_of_entries hentries
  obtain ⟨pair, hpair, rfl⟩ := exists_landing hnow current hurl htrim parsed hs
  have hmem := mem_of_landing parsed hpair
  refine ⟨pair, hpair, rfl, hmem, ?_⟩
  rw [← (landed_parts hnow parsed (stored_entries parsed hmem)).2]
  simpa using (mem_filter.mp hs).2

variable (parsed) in
/-- The entries of the URL after the import, in what the comparison looks at. -/
theorem exists_imported_iff (P : LocationConfig × Option String × Option String × Bool → Prop) :
    (∃ s ∈ entriesOf (importResolved now current (parsed.resolved url)).bundle url, P s.view) ↔
      ∃ n ∈ parsed.entries, n.groupUrl = some url ∧ P n.view := by
  constructor
  · rintro ⟨s, hs, hview⟩
    obtain ⟨pair, -, rfl, hmem, hgroup⟩ := landing_of_entriesOf hnow hentries hs
    exact ⟨pair.1, hmem, hgroup, landed_view hnow parsed (stored_entries parsed hmem) ▸ hview⟩
  · rintro ⟨n, hn, hgroup, hview⟩
    obtain ⟨id, hpair⟩ := exists_landing_of_mem parsed (restOf current url) hn
    have hsame : (parsed.landed now (n, id)).view = n.view :=
      landed_view hnow parsed (stored_entries parsed hn)
    exact ⟨_, landed_entriesOf hnow hpair hgroup, hsame ▸ hview⟩

variable (parsed) in
theorem forall_imported_iff (P : LocationConfig × Option String × Option String × Bool → Prop) :
    (∀ s ∈ entriesOf (importResolved now current (parsed.resolved url)).bundle url, P s.view) ↔
      ∀ n ∈ parsed.entries, n.groupUrl = some url → P n.view := by
  have h := not_congr (exists_imported_iff hnow hentries parsed fun view => ¬P view)
  simpa only [not_exists, not_and, not_not] using h

/-- Which ids its servers have. -/
theorem ids_iff (id : String) (c : LocationConfig) :
    (∃ s ∈ entriesOf (importResolved now current (parsed.resolved url)).bundle url,
        s.storageId = id ∧ s.location = c) ↔
      ∃ n, (n, id) ∈ landings (restOf current url) parsed.mode parsed.entries ∧
        n.groupUrl = some url ∧ n.location = c := by
  constructor
  · rintro ⟨s, hs, rfl, rfl⟩
    obtain ⟨pair, hpair, rfl, hmem, hgroup⟩ := landing_of_entriesOf hnow hentries hs
    exact ⟨pair.1, hpair, hgroup, (landed_parts hnow parsed (stored_entries parsed hmem)).1.symm⟩
  · rintro ⟨n, hpair, hgroup, rfl⟩
    exact ⟨_, landed_entriesOf hnow hpair hgroup, rfl,
      (landed_parts hnow parsed (stored_entries parsed (mem_of_landing parsed hpair))).1⟩

/-- The selection after the import is a server of the URL only where the answer's own selection
    counts. -/
theorem selection_iff (c : LocationConfig) :
    (∃ s ∈ entriesOf (importResolved now current (parsed.resolved url)).bundle url,
        (importResolved now current (parsed.resolved url)).bundle.activeLocationId =
          some s.storageId ∧ s.location = c) ↔
      ((restOf current url).bundle.locations = [] ∨ parsed.mode = .restore) ∧
      ∃ n ∈ parsed.entries, parsed.bundle.normalized.activeLocationId = some n.storageId ∧
        n.groupUrl = some url ∧ n.location = c := by
  have hall := stored_importedBundle now parsed.answer.updateIntervalHours parsed.bundle
  have hnd := nodup_importedBundle hnow parsed
  have hlanded : ∀ pair ∈ landings (restOf current url) parsed.mode parsed.entries,
      ((restOf current url).bundle.locations = [] ∨ parsed.mode = .restore) →
      parsed.bundle.normalized.activeLocationId = some pair.1.storageId →
      (importResolved now current (parsed.resolved url)).bundle.activeLocationId = some pair.2 := by
    intro pair hpair hmode hactive
    have hin : (pair.1.stampImported now parsed.answer.updateIntervalHours, pair.2) ∈
        landings (restOf current url) parsed.mode
          (importedBundle now parsed.answer.updateIntervalHours parsed.bundle).locations := by
      rw [landings_imported hnow parsed]
      exact mem_map_of_mem hpair
    have hstamped :
        (importedBundle now parsed.answer.updateIntervalHours parsed.bundle).activeLocationId =
        some (pair.1.stampImported now parsed.answer.updateIntervalHours).storageId := by
      rw [stampImported_storageId hnow parsed (mem_of_landing parsed hpair)]
      exact hactive
    have hmerged := active_merge (restOf current url) hall hnd parsed.mode hin hmode hstamped
    rw [importResolved_eq]
    exact hmerged
  constructor
  · rintro ⟨s, hs, hactive, rfl⟩
    obtain ⟨hurl, htrim⟩ := url_of_entries hentries
    have hmode : (restOf current url).bundle.locations = [] ∨ parsed.mode = .restore := by
      by_contra hnot
      obtain ⟨hne, hmode⟩ := not_or.mp hnot
      obtain ⟨e, he, hother⟩ := active_rest (restOf current url) hall parsed.mode hne hmode
      rw [← importResolved_eq, hactive, some.injEq] at hother
      have hkept : e ∈ (importResolved now current (parsed.resolved url)).bundle.locations := by
        rw [importResolved_eq, mem_merge _ hall hnd]
        exact .inr ⟨he, fun hrestore => absurd hrestore hmode⟩
      obtain ⟨hmem, hgroup⟩ := mem_filter.mp hs
      obtain rfl : s = e := inj_on_of_nodup_map (StoredBundle.nodup _) hmem hkept hother
      exact ((mem_restOf current hurl htrim).mp he).2 (by simpa using hgroup)
    refine ⟨hmode, ?_⟩
    obtain ⟨pair, hpair, rfl, hmem, hgroup⟩ := landing_of_entriesOf hnow hentries hs
    -- the answer has a selection of its own, and it lands where the selection is
    obtain ⟨n, hn, hselected⟩ := parsed.bundle.save.exists_active (ne_nil_of_mem hmem)
    obtain ⟨id, hlanding⟩ := exists_landing_of_mem parsed (restOf current url) hn
    have hid := hlanded _ hlanding hmode hselected
    rw [hactive, some.injEq] at hid
    have hsame : parsed.landed now pair = parsed.landed now (n, id) :=
      inj_on_of_nodup_map (StoredBundle.nodup _) (mem_filter.mp hs).1
        (landed_mem hnow current parsed hlanding) hid
    obtain ⟨hlocation, hgroupUrl⟩ : (parsed.landed now (n, id)).location = n.location ∧ _ :=
      landed_parts hnow parsed (stored_entries parsed hn)
    rw [← hsame] at hlocation hgroupUrl
    rw [(landed_parts hnow parsed (stored_entries parsed hmem)).2, hgroup] at hgroupUrl
    exact ⟨n, hn, hselected, hgroupUrl.symm, hlocation.symm⟩
  · rintro ⟨hmode, n, hn, hselected, hgroup, rfl⟩
    obtain ⟨id, hlanding⟩ := exists_landing_of_mem parsed (restOf current url) hn
    exact ⟨_, landed_entriesOf hnow hlanding hgroup, hlanded _ hlanding hmode hselected,
      (landed_parts hnow parsed (stored_entries parsed hn)).1⟩

/-- The comparison, field by field, once both sides are known. -/
theorem likeRefresh_iff (hanswer : w.resolveParsedImport url = some parsed.answer) :
    LikeRefresh w current url parsed (importResolved now current (parsed.resolved url)) ↔
      ReimportSafe current url parsed := by
  have hservers : ∀ c,
      ((∃ s ∈ entriesOf (importResolved now current (parsed.resolved url)).bundle url,
      s.location = c) ↔ ∃ e ∈ entriesOf (refreshSubscriptions w current.bundle (some [url])).2 url,
        e.location = c) ↔ ((∃ n ∈ parsed.entries, n.groupUrl = some url ∧ n.location = c) ↔
          c ∈ refreshedServers current url parsed.answer) := by
    intro c
    rw [← map_location_refreshed w current hentries hanswer, mem_map]
    exact iff_congr (exists_imported_iff hnow hentries parsed (·.1 = c)) Iff.rfl
  have hname := forall_imported_iff hnow hentries parsed
    (·.2.2.1 = subscriptionCustomName (entriesOf current.bundle url))
  have hauto := forall_imported_iff hnow hentries parsed
    (·.2.2.2 = subscriptionAutoUpdateEnabled (entriesOf current.bundle url))
  constructor
  · intro h
    exact ⟨fun c => (hservers c).mp (h.servers c),
      fun e p hp => (ids_iff hnow hentries _ _).mp (h.ids e p hp),
      fun e p hp hactive => (selection_iff hnow hentries _).mp (h.selection e p hp hactive),
      hname.mp h.customName, hauto.mp h.autoUpdate⟩
  · intro h
    exact ⟨fun c => (hservers c).mpr (h.servers c),
      fun e p hp => (ids_iff hnow hentries _ _).mpr (h.ids e p hp),
      fun e p hp hactive => (selection_iff hnow hentries _).mpr (h.selection e p hp hactive),
      hname.mpr h.customName, hauto.mpr h.autoUpdate⟩

end Compare

/-- For which stores and answers importing the URL again does what a refresh does. -/
theorem reimport_iff_refresh {I : Importer} {w : World} {now : Int} (hnow : 0 < now)
    {current : StoredBundle} {url : String} (hentries : entriesOf current.bundle url ≠ [])
    {parsed : Reparsed} (himport : resolveParsedImport I url = some (parsed.resolved url))
    (hanswer : w.resolveParsedImport url = some parsed.answer) :
    (∃ after, importText I now current url = some after ∧
      LikeRefresh w current url parsed after) ↔ ReimportSafe current url parsed := by
  have htext : importText I now current url =
      some (importResolved now current (parsed.resolved url)) := by
    rw [importText, himport, map_some]
  rw [htext, ← likeRefresh_iff hnow hentries hanswer]
  constructor
  · rintro ⟨after, hafter, h⟩
    exact some.inj hafter ▸ h
  · exact fun h => ⟨_, rfl, h⟩

/-- The answer that changes nothing. -/
def sameAnswer (current : StoredBundle) (url : String) : Reparsed where
  answer :=
    { locations := entriesOf current.bundle url
      storable := fun _ he => (current.stored (mem_filter.mp he).1).storable }

/-- An importer for which every URL has one answer. -/
def answeringImporter (resolved : ResolvedText) : Importer :=
  { noParsers with
    isUnsupportedClientStub := fun _ => false
    subscriptionMetadataFromBody := fun _ => none
    download := fun _ => some resolved }

def panelUrl : String := "https://a.example/sub"

theorem resolve_panelUrl (resolved : ResolvedText) :
    resolveParsedImport (answeringImporter resolved) panelUrl = some resolved := by
  have hblank : isBlank (normalizedImportText panelUrl) = false := by decide
  have hhttp : isHttpUrl (normalizedImportText panelUrl) = true := by decide
  simp only [resolveParsedImport, hblank, hhttp, Bool.false_eq_true, if_false, if_true]
  rfl

theorem oneAnswer_resolves (url : String) (answer : ResolvedImport) :
    (oneAnswer url answer).resolveParsedImport url = some answer := by
  simp [oneAnswer]

/-- What the user called the subscription. -/
def workName : LocationMetadata := { subscription := some { customName := some "Work" } }

/-- Two servers of a subscription with a name of the user's, and the selected one of another. -/
def workPanel : StoredBundle :=
  LocationBundle.save
    { activeLocationId := some "imported_nl"
      locations :=
        [{ storageId := "imported_de", name := "DE", subscriptionUrl := some panelUrl
           endpoint := some ⟨"room-de", "key-de"⟩, metadata := some workName },
         { storageId := "imported_fr", name := "FR", subscriptionUrl := some panelUrl
           endpoint := some ⟨"room-fr", "key-fr"⟩, metadata := some workName },
         { storageId := "imported_nl", name := "NL", subscriptionUrl := some "https://b.example/sub"
           endpoint := some ⟨"room-b", "key-b"⟩ }] }

/-- One of the servers is gone, there is a new one, and the answer says the user's name. -/
def workAnswer : Reparsed where
  answer :=
    { locations :=
        [{ storageId := "imported_fr", name := "FR", subscriptionUrl := some panelUrl
           endpoint := some ⟨"room-fr", "key-fr"⟩, metadata := some workName },
         { storageId := "imported_se", name := "SE", subscriptionUrl := some panelUrl
           endpoint := some ⟨"room-se", "key-se"⟩, metadata := some workName }]
      storable := by decide }

/-- Importing it again is a refresh. -/
theorem workPanel_reimport : ∃ after,
    importText (answeringImporter (workAnswer.resolved panelUrl)) 1 workPanel panelUrl =
      some after ∧
    LikeRefresh (oneAnswer panelUrl workAnswer.answer) workPanel panelUrl workAnswer after := by
  have hentries : entriesOf workPanel.bundle panelUrl ≠ [] := by
    have hlength : (entriesOf workPanel.bundle panelUrl).length = 2 := by decide
    intro hnil
    simp [hnil] at hlength
  exact (reimport_iff_refresh (show (0 : Int) < 1 by decide) hentries
    (resolve_panelUrl _) (oneAnswer_resolves _ _)).mpr (by decide +kernel)

/-- With another subscription stored, the same answer moves the selection to it. -/
theorem twoPanels_reimport_moves_selection :
    entriesOf twoPanels.bundle panelUrl ≠ [] ∧ ¬∃ after,
      importText (answeringImporter ((sameAnswer twoPanels panelUrl).resolved panelUrl)) 1 twoPanels
        panelUrl = some after ∧
      LikeRefresh (oneAnswer panelUrl (sameAnswer twoPanels panelUrl).answer) twoPanels panelUrl
        (sameAnswer twoPanels panelUrl) after := by
  have hone : (entriesOf twoPanels.bundle panelUrl).length = 1 := by decide
  obtain ⟨x, hx⟩ := length_eq_one_iff.mp hone
  have hentries : entriesOf twoPanels.bundle panelUrl ≠ [] := by simp [hx]
  refine ⟨hentries, ?_⟩
  rintro ⟨after, hafter, hlike⟩
  rw [importText, resolve_panelUrl, map_some, some.injEq] at hafter
  subst hafter
  have hsafe := (likeRefresh_iff (show (0 : Int) < 1 by decide) hentries
    (oneAnswer_resolves _ _)).mp hlike
  have hexists : StillExists twoPanels panelUrl (sameAnswer twoPanels panelUrl) x x := by
    have hsurvives : Survives [x] [x] x 0 x := ⟨by simp, rfl, rfl, by simp, by simp⟩
    have hanswer : (sameAnswer twoPanels panelUrl).answer.locations = [x] := hx
    rw [StillExists, hx, hanswer]
    exact mem_of_getElem? (reuse_survives (by simp) hsurvives)
  have hactive : twoPanels.bundle.activeLocationId = some x.storageId := by
    have hids : (entriesOf twoPanels.bundle panelUrl).map (fun e => some e.storageId) =
        [twoPanels.bundle.activeLocationId] := by decide
    simpa [hx] using hids.symm
  have hrest : (restOf twoPanels panelUrl).bundle.locations.length = 1 := by decide
  rcases (hsafe.selection x x hexists hactive).1 with hempty | hmode
  · simp [hempty] at hrest
  · exact absurd hmode (by decide)

end OlcVpn.Locations
