/-
  DOES A REFRESH LOSE A SERVER?

  The save drops an entry whose storage id another entry has already, so nothing is lost exactly if
  all ids handed to the save are distinct.  The ids reserved while one URL is processed are those of
  the new list so far; the URLs still to come keep theirs in the OLD list.  A new server of an early
  URL may therefore be given an id that an entry of a later URL owns, and that entry is then
  dropped: by `preservePreviousEntries` if the later URL fails, by the save if it answers.
-/
import Mathlib.Data.Finset.Order
import OlcVpn.Locations.RefreshSteps

namespace OlcVpn.Locations

open Kotlin List
open Option (some)
open LocationEntry (storageId)

/-- What a refresh should leave in the storage. -/
structure NothingLost (w : World) (b : StoredBundle) (onlyUrls : Option (List String)) : Prop where
  /-- The ids handed to the save are distinct. -/
  distinct : ((refreshAll w b.bundle onlyUrls).refreshedLocations.map storageId).Nodup
  /-- Entries no target URL owns are stored unchanged. -/
  untouched : ∀ e ∈ b.bundle.locations,
    (∀ group ∈ groupedByUrl b.bundle onlyUrls, e.groupUrl ≠ some group.1) →
    e ∈ (refreshSubscriptions w b.bundle onlyUrls).2.locations
  /-- Of a URL that failed every entry is still stored, but for the time of the attempt. -/
  failed : ∀ group ∈ groupedByUrl b.bundle onlyUrls, w.answer group.1 = none →
    ∀ e ∈ group.2, ∃ e' ∈ (refreshSubscriptions w b.bundle onlyUrls).2.locations,
      e.SameButAttempt e'
  /-- Of a URL that answered the stored entries are the answer, in its order. -/
  answered : ∀ group ∈ groupedByUrl b.bundle onlyUrls, ∀ answer, w.answer group.1 = some answer →
    List.Forall₂ (fun parsed e => e.panelView = parsed.normalized.panelView) answer.locations
      ((refreshSubscriptions w b.bundle onlyUrls).2.locations.filter
        fun e => e.groupUrl = some group.1)

/-! ## The list while the URLs are gone through -/

/-- The list so far, and the ids in use. -/
structure Listed (s : RefreshState) : Prop where
  used_iff : ∀ id, id ∈ s.usedStorageIds ↔ id ∈ s.refreshedLocations.map storageId
  stored : ∀ e ∈ s.refreshedLocations, e.Stored

variable {s : RefreshState} {onlyUrls : Option (List String)} {e : LocationEntry}

theorem Appends.listed {w : World} {group : String × List LocationEntry} {s' : RefreshState}
    {added : List LocationEntry} (h : Appends w group s s' added) (hs : Listed s) : Listed s' where
  used_iff := by
    intro id
    rw [h.used_iff, h.locations, map_append, mem_append, hs.used_iff]
  stored := by
    intro e he
    rw [h.locations, mem_append] at he
    rcases he with he | he
    · exact hs.stored e he
    · exact h.stored e he

variable (w : World)

theorem listed_foldl (activeBefore : Option String)
    {groups : List (String × List LocationEntry)} (hgroups : ∀ group ∈ groups, UrlGroup group)
    (hs : Listed s) : Listed (groups.foldl (refreshGroup w activeBefore) s) := by
  induction groups generalizing s with
  | nil => exact hs
  | cons group groups ih =>
    obtain ⟨added, hadded⟩ :=
      refreshGroup_appends w activeBefore s (hgroups group mem_cons_self)
    exact ih (fun g hg => hgroups g (mem_cons_of_mem _ hg)) (hadded.listed hs)

theorem mem_untouched {bundle : LocationBundle} :
    e ∈ untouched bundle onlyUrls ↔ e ∈ bundle.locations ∧
      ∀ group ∈ groupedByUrl bundle onlyUrls, e.groupUrl ≠ some group.1 := by
  rw [untouched, mem_filter, and_congr_right_iff]
  intro _
  cases hurl : e.groupUrl with
  | none => simp
  | some url =>
    rw [Option.all_some, Bool.not_eq_true', ← Bool.not_eq_true, contains_iff_mem, mem_map]
    simp only [not_exists, not_and, ne_eq, some.injEq]
    exact ⟨fun h group hg heq => h group hg heq.symm, fun h group hg heq => h group hg heq.symm⟩

variable (b : StoredBundle)

theorem listed_start (onlyUrls : Option (List String)) :
    Listed (refreshStart b.bundle onlyUrls) where
  used_iff := fun _ => Iff.rfl
  stored := fun _ he => b.stored (mem_untouched.mp he).1

/-- All that is handed to the save can be stored. -/
theorem listed_refreshAll (onlyUrls : Option (List String)) :
    Listed (refreshAll w b.bundle onlyUrls) :=
  listed_foldl w _ (fun _ hg => urlGroup_of_mem b onlyUrls hg) (listed_start b onlyUrls)

/-- A URL was refreshed, or an attempt is recorded. -/
def Progress (s : RefreshState) : Prop :=
  s.successfulRefreshes ≠ 0 ∨ s.attemptStateChanged = true

theorem progress_refreshGroup (activeBefore : Option String) (s : RefreshState)
    (group : String × List LocationEntry) : Progress (refreshGroup w activeBefore s group) := by
  unfold refreshGroup
  cases w.answer group.1 with
  | none => exact .inr rfl
  | some answer => exact .inl (Nat.succ_ne_zero _)

theorem progress_refreshAll {bundle : LocationBundle}
    (h : groupedByUrl bundle onlyUrls ≠ []) : Progress (refreshAll w bundle onlyUrls) := by
  obtain ⟨init, last, hgroups⟩ := (eq_nil_or_concat' (groupedByUrl bundle onlyUrls)).resolve_left h
  rw [refreshAll, hgroups, foldl_append]
  exact progress_refreshGroup w _ _ last

/-- A refresh that asks any URL ends with a save. -/
theorem refreshSubscriptions_saves {bundle : LocationBundle}
    (h : groupedByUrl bundle onlyUrls ≠ []) :
    (refreshSubscriptions w bundle onlyUrls).2 = LocationBundle.normalized
      { activeLocationId := (refreshAll w bundle onlyUrls).activeAfter
        locations := (refreshAll w bundle onlyUrls).refreshedLocations } := by
  have hne : bundle.locations.isEmpty = false := by
    rw [isEmpty_eq_false_iff]
    intro hnil
    exact h (by simp [groupedByUrl, hnil, groupBy, distinctBy, distinctByFrom])
  have hsaved : ((refreshAll w bundle onlyUrls).successfulRefreshes = 0 &&
      !(refreshAll w bundle onlyUrls).attemptStateChanged) = false := by
    rcases progress_refreshAll w h with h | h <;> simp [h]
  simp [refreshSubscriptions, hne, isEmpty_eq_false_iff.mpr h, hsaved]

/-- What a refresh leaves stored: the list handed to the save, of equal ids the first entry. -/
theorem refreshSubscriptions_locations (onlyUrls : Option (List String)) :
    (refreshSubscriptions w b.bundle onlyUrls).2.locations = distinctBy storageId
      (refreshAll w b.bundle onlyUrls).refreshedLocations := by
  by_cases hgroups : groupedByUrl b.bundle onlyUrls = []
  · -- no URL is asked, and the list is that of the bundle
    have hall : untouched b.bundle onlyUrls = b.bundle.locations := by
      refine filter_eq_self.mpr fun e _ => ?_
      cases e.groupUrl <;> simp [hgroups]
    have hrefresh : refreshSubscriptions w b.bundle onlyUrls = (0, b.bundle) := by
      simp [refreshSubscriptions, hgroups]
    rw [hrefresh, refreshAll, hgroups, foldl_nil, refreshStart, hall, distinctBy_eq_self b.nodup]
  · rw [refreshSubscriptions_saves w hgroups]
    exact LocationBundle.locations_normalized (listed_refreshAll w b onlyUrls).stored

/-! ## Nothing is lost while no later URL owns an id that can be generated -/

/-- What a run over several URLs has appended, URL by URL. -/
structure Run (w : World) (groups : List (String × List LocationEntry)) (s s' : RefreshState)
    (results : List ((String × List LocationEntry) × List LocationEntry)) : Prop where
  groups : results.map Prod.fst = groups
  locations : s'.refreshedLocations = s.refreshedLocations ++ (results.map Prod.snd).flatten
  complete : ∀ result ∈ results, Complete w result.1 result.2
  url : ∀ result ∈ results, ∀ e ∈ result.2, e.groupUrl = some result.1.1
  nodup : (s'.refreshedLocations.map storageId).Nodup

theorem refresh_run (onlyUrls : Option (List String))
    (activeBefore : Option String) {groups : List (String × List LocationEntry)}
    (hsub : ∀ group ∈ groups, group ∈ groupedByUrl b.bundle onlyUrls)
      (hurls : (groups.map Prod.fst).Nodup)
    (hlater : ∀ group ∈ groups.tail, ∀ e ∈ group.2, ¬Generated e.storageId) (hs : Listed s)
    (hnodup : (s.refreshedLocations.map storageId).Nodup)
    (hfree : ∀ group ∈ groups, ∀ e ∈ group.2, e.storageId ∉ s.usedStorageIds) :
    ∃ results, Run w groups s (groups.foldl (refreshGroup w activeBefore) s) results := by
  -- over the URLs, for every state whose ids are distinct and not those of the URLs to come
  induction groups generalizing s with
  | nil => exact ⟨[], rfl, by simp, by simp, by simp, hnodup⟩
  | cons group groups ih =>
    have hgroup := hsub group mem_cons_self
    obtain ⟨added, hadded⟩ :=
      refreshGroup_appends w activeBefore s (urlGroup_of_mem b onlyUrls hgroup)
    set s₁ := refreshGroup w activeBefore s group
    simp only [map_cons, nodup_cons] at hurls
    have hnew : ∀ e ∈ added, e.storageId ∉ s.usedStorageIds := by
      intro e he
      rcases hadded.origin e he with hown | ⟨-, hfresh⟩
      · obtain ⟨p, hp, hid⟩ := mem_map.mp hown
        exact hid ▸ hfree group mem_cons_self p hp
      · exact hfresh
    have hnodup₁ : (s₁.refreshedLocations.map storageId).Nodup := by
      rw [hadded.locations, map_append, nodup_append]
      refine ⟨hnodup, hadded.nodup, ?_⟩
      rintro id hid _ hid' rfl
      obtain ⟨e, he, rfl⟩ := mem_map.mp hid'
      exact hnew e he ((hs.used_iff _).mpr hid)
    have hfree₁ : ∀ g ∈ groups, ∀ e ∈ g.2, e.storageId ∉ s₁.usedStorageIds := by
      intro g hg e he hused
      rcases (hadded.used_iff _).mp hused with hold | hid
      · exact hfree g (mem_cons_of_mem _ hg) e he hold
      · obtain ⟨e', he', hid⟩ := mem_map.mp hid
        rcases hadded.origin e' he' with hown | ⟨hgenerated, -⟩
        · -- an id of this URL is no id of a later one
          obtain ⟨p, hp, hpid⟩ := mem_map.mp hown
          have hsame := eq_of_id_eq b onlyUrls hgroup (hsub g (mem_cons_of_mem _ hg)) hp he
            (hpid.trans hid)
          exact hurls.1 (hsame ▸ mem_map_of_mem hg)
        · exact hlater g hg e he (hid ▸ hgenerated)
    obtain ⟨results, hrun⟩ := ih (fun g hg => hsub g (mem_cons_of_mem _ hg)) hurls.2
      (fun g hg => hlater g (mem_of_mem_tail hg)) (hadded.listed hs) hnodup₁ hfree₁
    refine ⟨(group, added) :: results, ?_, ?_, ?_, ?_, hrun.nodup⟩
    · rw [map_cons, hrun.groups]
    · rw [foldl_cons, hrun.locations, hadded.locations, map_cons, flatten_cons, append_assoc]
    · intro result hresult
      rcases mem_cons.mp hresult with rfl | hresult
      · exact hadded.complete (hfree group mem_cons_self)
      · exact hrun.complete result hresult
    · intro result hresult
      rcases mem_cons.mp hresult with rfl | hresult
      · exact hadded.url
      · exact hrun.url result hresult

/-- The ids of the start are distinct, and no target URL owns one of them. -/
theorem start_free (onlyUrls : Option (List String)) :
    ∀ group ∈ groupedByUrl b.bundle onlyUrls, ∀ e ∈ group.2,
      e.storageId ∉ (refreshStart b.bundle onlyUrls).usedStorageIds := by
  intro group hgroup e he hused
  obtain ⟨e', he', hid⟩ := mem_map.mp hused
  obtain ⟨hmem', hother⟩ := mem_untouched.mp he'
  have hurl := (urlGroup_of_mem b onlyUrls hgroup).url e he
  have hmem : e ∈ b.bundle.locations := by
    obtain ⟨-, -, heq⟩ := mem_groupedByUrl.mp hgroup
    rw [heq] at he
    exact (mem_filter.mp he).1
  obtain rfl : e' = e := inj_on_of_nodup_map b.nodup hmem' hmem hid
  exact hother group hgroup hurl

theorem nothingLost_of_safe (onlyUrls : Option (List String))
    (hlater : ∀ group ∈ (groupedByUrl b.bundle onlyUrls).tail, ∀ e ∈ group.2,
      ¬Generated e.storageId) : NothingLost w b onlyUrls := by
  have hnodup : ((refreshStart b.bundle onlyUrls).refreshedLocations.map
      storageId).Nodup := b.nodup.sublist (filter_sublist.map _)
  obtain ⟨results, hrun⟩ : ∃ results, Run w (groupedByUrl b.bundle onlyUrls)
      (refreshStart b.bundle onlyUrls) (refreshAll w b.bundle onlyUrls) results :=
    refresh_run w b onlyUrls b.bundle.activeLocationId (fun _ h => h)
      (groupedByUrl_nodup b.bundle onlyUrls) hlater (listed_start b onlyUrls) hnodup
      (start_free b onlyUrls)
  have hsaved : (refreshSubscriptions w b.bundle onlyUrls).2.locations =
      untouched b.bundle onlyUrls ++ (results.map Prod.snd).flatten := by
    rw [refreshSubscriptions_locations, distinctBy_eq_self hrun.nodup]
    exact hrun.locations
  have hresult : ∀ group ∈ groupedByUrl b.bundle onlyUrls, ∃ added, (group, added) ∈ results := by
    intro group hgroup
    rw [← hrun.groups] at hgroup
    obtain ⟨⟨_, added⟩, hmem, rfl⟩ := mem_map.mp hgroup
    exact ⟨added, hmem⟩
  refine ⟨hrun.nodup, ?_, ?_, ?_⟩
  · intro e he hother
    rw [hsaved]
    exact mem_append_left _ (mem_untouched.mpr ⟨he, hother⟩)
  · intro group hgroup hanswer e he
    obtain ⟨added, hmem⟩ := hresult group hgroup
    have hcomplete := hrun.complete _ hmem
    rw [Complete, hanswer] at hcomplete
    obtain ⟨e', he', hsame⟩ := exists_of_forall₂ hcomplete he
    refine ⟨e', ?_, hsame⟩
    rw [hsaved]
    exact mem_append_right _ (mem_flatten.mpr ⟨added, mem_map_of_mem hmem, he'⟩)
  · intro group hgroup answer hanswer
    obtain ⟨added, hmem⟩ := hresult group hgroup
    have hcomplete := hrun.complete _ hmem
    rw [Complete, hanswer] at hcomplete
    -- of the whole list, the entries of this URL are those it added
    have hnone : ((untouched b.bundle onlyUrls).filter fun e => e.groupUrl = some group.1) =
        [] := by
      refine filter_eq_nil_iff.mpr fun e he => ?_
      simpa using (mem_untouched.mp he).2 group hgroup
    have hurls : (results.map fun result => some result.1.1).Nodup := by
      have hnd := groupedByUrl_nodup b.bundle onlyUrls
      rw [← hrun.groups, map_map] at hnd
      have hsome := hnd.map (Option.some_injective String)
      rwa [map_map] at hsome
    have hown : ((results.map Prod.snd).flatten.filter fun e => e.groupUrl = some group.1) =
        added :=
      filter_flatten (fun g => some g.1) hurls hrun.url hmem
    rw [hsaved, filter_append, hnone, hown, nil_append]
    exact hcomplete

/-! ## Any id that can be generated can be taken -/

/-- A key of a given length. -/
def longKey (n : Nat) : String := String.ofList (List.replicate (n + 1) 'k')

theorem isSlug_longKey (n : Nat) : IsSlug (longKey n) := by
  constructor
  · intro c hc
    rw [longKey, String.toList_ofList] at hc
    obtain rfl := eq_of_mem_replicate hc
    decide
  · intro h
    have := congrArg String.toList h
    simp [longKey] at this

variable (name : String)

/-- An olcRTC server with a given name and a long key. -/
def probe (n : Nat) : LocationEntry :=
  { storageId := "probe", name := name, endpoint := some ⟨"r", longKey n⟩ }

theorem probe_key (n : Nat) : (probe name n).location.key = longKey n := by
  have hkey : firstNotBlank [some (longKey n), none, none] = longKey n := by
    simp [firstNotBlank, List.reduceOption, (isSlug_longKey n).isNotBlank]
  simp only [LocationEntry.location, probe, Option.map_some, hkey, LocationConfig.normalized_key]
  exact (isSlug_longKey n).trim_eq

theorem probe_name (n : Nat) : (probe name n).location.name = trim name := by
  simp only [LocationEntry.location, probe, LocationConfig.normalized_name]

theorem probe_storable (n : Nat) : (probe name n).location.isStorable = true := by
  have hid : (probe name n).location.id = "r" := by
    simp only [LocationEntry.location, probe, Option.map_some, LocationConfig.normalized_id]
    decide
  have hengine : (probe name n).location.engine = .stealth := by
    simp [LocationEntry.location, probe, LocationConfig.normalized_engine]
  have hr : isNotBlank "r" = true := by decide
  rw [LocationConfig.isStorable, hengine, hid, probe_key, hr, (isSlug_longKey n).isNotBlank]
  rfl

/-- The id of a probe comes from its name. -/
theorem probe_slug {name : String} (hname : trim name = name) (hnb : isNotBlank name = true)
    (n : Nat) : (probe name n).location.storageSlug = storageSlug name := by
  have hb : isBlank name = false := by simpa [isNotBlank] using hnb
  rw [LocationConfig.storageSlug, LocationConfig.displayName, probe_name, hname]
  simp [ifBlank, hb]

/-- A probe with a key longer than every signature is recognised by none of the entries. -/
theorem probe_unclaimed {previous : List LocationEntry} {n : Nat}
    (hn : ∀ p ∈ previous, (namedSubscriptionSignature p.location).toList.length ≤ n)
    (name : String) {signature : LocationConfig → String}
    (hsig : signature = subscriptionSignature ∨ signature = namedSubscriptionSignature) :
    pool signature previous (probe name n) = [] := by
  have hshort : ∀ c, (subscriptionSignature c).toList.length ≤
      (namedSubscriptionSignature c).toList.length := by
    intro c
    simp only [namedSubscriptionSignature, String.toList_append, length_append]
    omega
  have hlong : n < (subscriptionSignature (probe name n).location).toList.length := by
    have hmem : longKey n ∈ signatureParts (probe name n).location := by
      simp [signatureParts, probe_key]
    have hle := length_le_joinToString "|" hmem
    rw [longKey, String.toList_ofList, length_replicate] at hle
    exact hle
  rw [pool_eq, filter_eq_nil_iff]
  intro p hp
  simp only [decide_eq_true_eq]
  intro heq
  have hp' := hn p hp
  have h₁ := hshort p.location
  have h₂ := hshort (probe name n).location
  rcases hsig with rfl | rfl
  · rw [heq] at h₁
    omega
  · rw [heq] at hp'
    omega

/-- An answer of `m` equal servers. -/
def probes (n m : Nat) : ResolvedImport where
  locations := List.replicate m (probe name n)
  storable := by
    intro e he
    rw [eq_of_mem_replicate he]
    exact probe_storable name n

/-- A world in which one URL answers. -/
def oneAnswer (url : String) (answer : ResolvedImport) : World where
  resolveParsedImport := fun u => if u = url then some answer else none
  nowEpochMs := fun _ => 1
  nowEpochMs_pos := fun _ => Int.one_pos

/-- Servers that are not recognised use up the candidates of their name one after the other. -/
theorem probes_take (activeBefore : Option String) (timestamp : Int) (s : RefreshState)
    (url : String) {previous : List LocationEntry} {n : Nat}
    (hn : ∀ p ∈ previous, (namedSubscriptionSignature p.location).toList.length ≤ n)
    {name : String} (hname : trim name = name) (hnb : isNotBlank name = true) (i : Nat) :
    candidate (storageSlug ("imported_" ++ storageSlug name)) i ∈
      (acceptAnswer activeBefore timestamp s url previous
        (probes name n (i + 1))).usedStorageIds := by
  have hreuse : reuse previous (probes name n (i + 1)).locations =
      (List.replicate (i + 1) (probe name n, none), []) := by
    have hpairs : ((probes name n (i + 1)).locations.map fun e =>
        (e, (none : Option LocationEntry))) = List.replicate (i + 1) (probe name n, none) :=
      map_replicate
    have hempty : ∀ {signature : LocationConfig → String},
        (signature = subscriptionSignature ∨ signature = namedSubscriptionSignature) →
        ∀ pair ∈ List.replicate (i + 1) (probe name n, (none : Option LocationEntry)),
          pool signature previous pair.1 = [] := by
      intro signature hsig pair hpair
      rw [eq_of_mem_replicate hpair]
      exact probe_unclaimed hn name hsig
    rw [reuse, hpairs, Claim.pass_of_pools_empty _ _ (hempty (.inr rfl)),
      Claim.pass_of_pools_empty _ _ (hempty (.inl rfl))]
  have hfresh : ∀ j u, freshStorageId j (probe name n) u =
      Fresh.pick (candidate (storageSlug ("imported_" ++ storageSlug name))) u := by
    intro j u
    rw [freshStorageId, importedBase_eq, probe_slug hname hnb, uniqueStorageId]
  have hused : (acceptAnswer activeBefore timestamp s url previous
      (probes name n (i + 1))).usedStorageIds =
      (fun u => Fresh.pick (candidate (storageSlug ("imported_" ++ storageSlug name))) u :: u)^[i +
        1]
        s.usedStorageIds := by
    rw [acceptAnswer, hreuse]
    exact Claim.assign_replicate hfresh _ 0 (i + 1)
  rw [hused]
  exact Fresh.mem_iterate_pick (candidate_injective _) _ _ i (Nat.lt_succ_self i)

/-- An entry whose id is in use already is not in the list of a URL that fails. -/
theorem dropped_foldl (activeBefore : Option String)
    {groups : List (String × List LocationEntry)} (hgroups : ∀ group ∈ groups, UrlGroup group)
    {url id : String} (hanswer : w.answer url = none) (hused : id ∈ s.usedStorageIds)
    (hs : ∀ e ∈ s.refreshedLocations, e.groupUrl = some url → e.storageId ≠ id) :
    ∀ e ∈ (groups.foldl (refreshGroup w activeBefore) s).refreshedLocations,
      e.groupUrl = some url → e.storageId ≠ id := by
  induction groups generalizing s with
  | nil => exact hs
  | cons group groups ih =>
    obtain ⟨added, hadded⟩ :=
      refreshGroup_appends w activeBefore s (hgroups group mem_cons_self)
    refine ih (fun g hg => hgroups g (mem_cons_of_mem _ hg))
      ((hadded.used_iff id).mpr (.inl hused)) ?_
    intro e he hurl
    rw [hadded.locations, mem_append] at he
    rcases he with he | he
    · exact hs e he hurl
    · -- only this very URL could add it, and it does not
      have hsame : group.1 = url := some.inj ((hadded.url e he).symm.trans hurl)
      rintro rfl
      exact hadded.failed (hsame ▸ hanswer) e he hused

theorem LocationEntry.SameButAttempt.id_eq {e' : LocationEntry} (h : e.SameButAttempt e') :
    e'.storageId = e.storageId := by
  have heq := congrArg storageId (show _ = _ from h)
  exact heq

theorem LocationEntry.SameButAttempt.groupUrl_eq {e' : LocationEntry} (h : e.SameButAttempt e') :
    e'.groupUrl = e.groupUrl := by
  have heq := congrArg LocationEntry.groupUrl (show _ = _ from h)
  exact heq

/-- A generated id of a later URL is lost in some refresh. -/
theorem lost_of_generated (onlyUrls : Option (List String))
    {group : String × List LocationEntry} (hgroup : group ∈ (groupedByUrl b.bundle onlyUrls).tail)
    (he : e ∈ group.2) (hgenerated : Generated e.storageId) : ∃ w, ¬NothingLost w b onlyUrls := by
  cases hgroups : groupedByUrl b.bundle onlyUrls with
  | nil => simp [hgroups] at hgroup
  | cons first rest =>
    rw [hgroups, tail_cons] at hgroup
    have hall : ∀ g ∈ first :: rest, g ∈ groupedByUrl b.bundle onlyUrls := by
      rw [hgroups]
      exact fun _ h => h
    have hnd := groupedByUrl_nodup b.bundle onlyUrls
    rw [hgroups, map_cons, nodup_cons] at hnd
    have hne : group.1 ≠ first.1 := fun h => hnd.1 (h ▸ mem_map_of_mem hgroup)
    -- a name that is not blank makes the same ids
    obtain ⟨name, i, hname, hnb, hid⟩ : ∃ name i, trim name = name ∧ isNotBlank name = true ∧
        e.storageId = candidate (storageSlug ("imported_" ++ storageSlug name)) i := by
      obtain ⟨name, i, hname, hid⟩ := hgenerated
      by_cases hnb : isNotBlank name = true
      · exact ⟨name, i, hname, hnb, hid⟩
      · have hempty : name = "" := by
          refine (hname ▸ trimmed_trim name : Trimmed name).isBlank_iff.mp ?_
          simpa [isNotBlank] using hnb
        have hslug : storageSlug "" = storageSlug "location" := by decide
        refine ⟨"location", i, by decide, by decide, ?_⟩
        rw [hid, hempty, hslug]
    obtain ⟨n, hn⟩ := Finset.exists_le
      (first.2.map fun p => (namedSubscriptionSignature p.location).toList.length).toFinset
    replace hn : ∀ p ∈ first.2, (namedSubscriptionSignature p.location).toList.length ≤ n :=
      fun p hp => hn _ (mem_toFinset.mpr (mem_map.mpr ⟨p, hp, rfl⟩))
    set w := oneAnswer first.1 (probes name n (i + 1)) with hw
    have hfirst : w.answer first.1 = some (probes name n (i + 1)) := by
      simp [World.answer, hw, oneAnswer, probes, Option.filter_some]
    have hfailed : w.answer group.1 = none := by
      simp [World.answer, hw, oneAnswer, hne]
    refine ⟨w, fun hlost => ?_⟩
    obtain ⟨e', he', hsame⟩ := hlost.failed group (hall group (mem_cons_of_mem _ hgroup))
      hfailed e he
    have hmem : e' ∈ (refreshAll w b.bundle onlyUrls).refreshedLocations := by
      rw [refreshSubscriptions_locations] at he'
      exact (distinctBy_sublist _).subset he'
    have hurl : e'.groupUrl = some group.1 := hsame.groupUrl_eq.trans
      ((urlGroup_of_mem b onlyUrls (hall group (mem_cons_of_mem _ hgroup))).url e he)
    rw [refreshAll, hgroups, foldl_cons] at hmem
    have hadded := refreshGroup_answered w b.bundle.activeLocationId
      (refreshStart b.bundle onlyUrls) (urlGroup_of_mem b onlyUrls (hall first mem_cons_self))
      hfirst
    refine dropped_foldl w _ (fun g hg => urlGroup_of_mem b onlyUrls
      (hall g (mem_cons_of_mem _ hg))) hfailed ?_ ?_ e' hmem hurl hsame.id_eq
    · rw [hid]
      simp only [refreshGroup, hfirst]
      exact probes_take _ _ _ _ hn hname hnb i
    · intro e₀ he₀ hurl₀
      rw [hadded.locations, mem_append] at he₀
      rcases he₀ with he₀ | he₀
      · exact absurd hurl₀ ((mem_untouched.mp he₀).2 group (hall group (mem_cons_of_mem _ hgroup)))
      · exact absurd (some.inj (hurl₀.symm.trans (hadded.url e₀ he₀))) hne

/-- For a stored bundle and a choice of URLs: no refresh whatsoever loses a server, if and only if
    no URL but the first owns an id that a refresh could generate. -/
theorem nothingLost_iff (onlyUrls : Option (List String)) : (∀ w, NothingLost w b onlyUrls) ↔
      ∀ group ∈ (groupedByUrl b.bundle onlyUrls).tail, ∀ e ∈ group.2, ¬Generated e.storageId := by
  constructor
  · intro h group hgroup e he hgenerated
    obtain ⟨w, hw⟩ := lost_of_generated b onlyUrls hgroup he hgenerated
    exact hw (h w)
  · exact fun hlater w => nothingLost_of_safe w b onlyUrls hlater

/-- Two subscriptions with one server each; the second one's was imported as "NL". -/
def twoPanels : StoredBundle :=
  LocationBundle.save
    { locations :=
        [{ storageId := "imported_de", name := "DE", subscriptionUrl := some "https://a.example/sub"
           endpoint := some ⟨"room-de", "key-de"⟩ },
         { storageId := "imported_nl", name := "NL", subscriptionUrl := some "https://b.example/sub"
           endpoint := some ⟨"room-b", "key-b"⟩ }] }

/-- The first panel has grown a server of that name, and the second cannot be reached. -/
def grownPanel : ResolvedImport where
  locations :=
    [{ storageId := "x1", name := "DE", endpoint := some ⟨"room-de", "key-de"⟩ },
     { storageId := "x2", name := "NL", endpoint := some ⟨"room-nl", "key-nl"⟩ }]
  storable := by decide

/-- The server of the second panel is gone. -/
theorem grown_panel_loses_server :
    ¬NothingLost (oneAnswer "https://a.example/sub" grownPanel) twoPanels none := by
  intro h
  have hlist : (refreshSubscriptions (oneAnswer "https://a.example/sub" grownPanel)
      twoPanels.bundle none).2.locations.all
        (fun e => e.groupUrl ≠ some "https://b.example/sub") = true := by
    decide +kernel
  have howned : twoPanels.bundle.locations.any
      (fun e => e.groupUrl = some "https://b.example/sub") = true := by decide
  obtain ⟨e, he, hurl⟩ := any_eq_true.mp howned
  rw [decide_eq_true_eq] at hurl
  have hgroup : ("https://b.example/sub", twoPanels.bundle.locations.filter
      fun e => e.groupUrl = some "https://b.example/sub") ∈ groupedByUrl twoPanels.bundle none :=
    mem_groupedByUrl.mpr ⟨by decide, ⟨e, he, hurl⟩, rfl⟩
  obtain ⟨e', he', hsame⟩ := h.failed _ hgroup (by decide) e
    (mem_filter.mpr ⟨he, by simpa using hurl⟩)
  have hnot := all_eq_true.mp hlist e' he'
  rw [decide_eq_true_eq] at hnot
  exact hnot (hsame.groupUrl_eq.trans hurl)

end OlcVpn.Locations
