/-
  SERVER IDENTITY across a refresh.

  The storage id carries the selection and the measured pings, so a server the panel still has
  should keep it.  A refresh recognises a server by its named signature first, and only then by its
  endpoint alone.
-/
import OlcVpn.Locations.RefreshKeeps

namespace OlcVpn.Locations

open Kotlin List
open LocationEntry (storageId)

/-- The answered server `q` at place `i` is the previous entry `p`: they have one named signature,
    and it occurs once on either side. -/
structure Survives (previous refreshed : List LocationEntry) (p : LocationEntry) (i : Nat)
    (q : LocationEntry) : Prop where
  mem : p ∈ previous
  place : refreshed[i]? = some q
  signature : namedSubscriptionSignature q.location = namedSubscriptionSignature p.location
  previousOnce : (previous.countP fun e =>
    namedSubscriptionSignature e.location = namedSubscriptionSignature p.location) = 1
  refreshedOnce : (refreshed.countP fun e =>
    namedSubscriptionSignature e.location = namedSubscriptionSignature p.location) = 1

theorem filter_of_countP_one {α : Type} {holds : α → Bool} {l : List α}
    (hcount : l.countP holds = 1) {a : α} (ha : a ∈ l) (h : holds a = true) : l.filter holds =
      [a] := by
  rw [countP_eq_length_filter, length_eq_one_iff] at hcount
  obtain ⟨b, hb⟩ := hcount
  have hmem : a ∈ l.filter holds := mem_filter.mpr ⟨ha, h⟩
  rw [hb, mem_singleton] at hmem
  rw [hb, hmem]

/-- A property that holds once in a list holds at one place only. -/
theorem index_of_countP_one {α : Type} {holds : α → Bool} {l : List α}
    (hcount : l.countP holds = 1) {i j : Nat} {a b : α} (hi : l[i]? = some a) (hj : l[j]? = some b)
    (ha : holds a = true) (hb : holds b = true) : i = j := by
  induction l generalizing i j with
  | nil => simp at hi
  | cons c l ih =>
    have hrest : ∀ {k : Nat} {d : α}, l[k]? = some d → holds d = true → l.countP holds ≠ 0 := by
      intro k d hk hd hzero
      exact countP_eq_zero.mp hzero d (mem_iff_getElem?.mpr ⟨k, hk⟩) hd
    rw [countP_cons] at hcount
    cases i with
    | zero =>
      cases j with
      | zero => rfl
      | succ j =>
        obtain rfl : c = a := by simpa using hi
        have := hrest (by simpa using hj) hb
        rw [if_pos ha] at hcount
        omega
    | succ i =>
      cases j with
      | zero =>
        obtain rfl : c = b := by simpa using hj
        have := hrest (by simpa using hi) ha
        rw [if_pos hb] at hcount
        omega
      | succ j =>
        have hone : l.countP holds = 1 := by
          have := hrest (by simpa using hi) ha
          split_ifs at hcount <;> omega
        exact congrArg (· + 1) (ih hone (by simpa using hi) (by simpa using hj))

theorem reuse_survives {previous refreshed : List LocationEntry}
    (hnodup : (previous.map storageId).Nodup) {p q : LocationEntry} {i : Nat}
    (h : Survives previous refreshed p i q) : (reuse previous refreshed).1[i]? =
      some (q, some p) := by
  have hpool : pool namedSubscriptionSignature previous q = [p] := by
    rw [pool_eq, h.signature]
    exact filter_of_countP_one h.previousOnce h.mem (by simp)
  have hexact : (Claim.pass storageId (pool namedSubscriptionSignature previous) []
      (refreshed.map fun e => (e, none))).1[i]? = some (q, some p) := by
    refine Claim.pass_unique _ (by simp [h.place]) hpool (by simp) ?_
    intro j q' hj hq' c hc hid
    obtain ⟨e, he, heq⟩ : ∃ e, refreshed[j]? = some e ∧ e = q' := by simpa using hq'
    subst heq
    rw [pool_eq, mem_filter, decide_eq_true_eq] at hc
    -- an entry with the id of `p` is `p`, so the other server would have its signature
    obtain rfl : c = p := inj_on_of_nodup_map hnodup hc.1 h.mem hid
    exact hj (index_of_countP_one h.refreshedOnce he h.place (by simpa using hc.2.symm)
      (by simpa using h.signature))
  exact Claim.pass_getElem?_held _ _ hexact

/-! ## A refresh of one URL -/

section OneUrl

variable {w : World} {b : StoredBundle} {onlyUrls : Option (List String)} {url : String}
  {answer : ResolvedImport}

/-- The entries of a URL. -/
def entriesOf (bundle : LocationBundle) (url : String) : List LocationEntry :=
  bundle.locations.filter fun e => e.groupUrl = some url

theorem groupedByUrl_single (h : (groupedByUrl b.bundle onlyUrls).map Prod.fst = [url]) :
    groupedByUrl b.bundle onlyUrls = [(url, entriesOf b.bundle url)] := by
  obtain ⟨group, hgroup, rfl⟩ := map_eq_singleton_iff.mp h
  have hmem : group ∈ groupedByUrl b.bundle onlyUrls := by simp [hgroup]
  obtain ⟨-, -, hprevious⟩ := mem_groupedByUrl.mp hmem
  rw [hgroup, entriesOf, ← hprevious]

section

variable (hsingle : (groupedByUrl b.bundle onlyUrls).map Prod.fst = [url])
include hsingle

theorem nothingLost_single : NothingLost w b onlyUrls := by
  refine nothingLost_of_safe w b onlyUrls ?_
  rw [groupedByUrl_single hsingle]
  simp

theorem saved_single : (refreshSubscriptions w b.bundle onlyUrls).2 = LocationBundle.normalized
      { activeLocationId := (refreshAll w b.bundle onlyUrls).activeAfter
        locations := (refreshAll w b.bundle onlyUrls).refreshedLocations } := by
  refine refreshSubscriptions_saves w ?_
  rw [groupedByUrl_single hsingle]
  simp

/-- The list handed to the save is stored as it is. -/
theorem saved_single_locations : (refreshSubscriptions w b.bundle onlyUrls).2.locations =
    (refreshAll w b.bundle onlyUrls).refreshedLocations := by
  rw [refreshSubscriptions_locations, distinctBy_eq_self (nothingLost_single hsingle).distinct]

/-- What is stored and was selected by the refresh is selected. -/
theorem active_single {e : LocationEntry}
    (hmem : e ∈ (refreshSubscriptions w b.bundle onlyUrls).2.locations)
    (hactive : (refreshAll w b.bundle onlyUrls).activeAfter = some e.storageId) :
    (refreshSubscriptions w b.bundle onlyUrls).2.activeLocationId = some e.storageId := by
  rw [saved_single hsingle] at hmem ⊢
  exact LocationBundle.activeLocationId_normalized _ hmem hactive

variable (hanswer : w.answer url = some answer)
include hanswer

theorem refreshAll_single : refreshAll w b.bundle onlyUrls =
    acceptAnswer b.bundle.activeLocationId (w.nowEpochMs url) (refreshStart b.bundle onlyUrls) url
      (entriesOf b.bundle url) answer := by
  rw [refreshAll, groupedByUrl_single hsingle, foldl_cons, foldl_nil, refreshGroup, hanswer]

/-- The stored entries of the URL are its answer under its ids. -/
theorem entriesOf_single : entriesOf (refreshSubscriptions w b.bundle onlyUrls).2 url =
    answered (refreshStart b.bundle onlyUrls) url (w.nowEpochMs url)
      (entriesOf b.bundle url) answer := by
  have hgroup : (url, entriesOf b.bundle url) ∈ groupedByUrl b.bundle onlyUrls := by
    rw [groupedByUrl_single hsingle]
    exact mem_cons_self
  have happends := refreshGroup_answered w b.bundle.activeLocationId
    (refreshStart b.bundle onlyUrls) (urlGroup_of_mem b onlyUrls hgroup) hanswer
  have hlist : (refreshAll w b.bundle onlyUrls).refreshedLocations =
      untouched b.bundle onlyUrls ++ answered (refreshStart b.bundle onlyUrls) url
        (w.nowEpochMs url) (entriesOf b.bundle url) answer := by
    rw [refreshAll_single hsingle hanswer]
    rfl
  rw [entriesOf, saved_single_locations hsingle, hlist, filter_append]
  have hnone : ((untouched b.bundle onlyUrls).filter fun e => e.groupUrl = some url) = [] := by
    refine filter_eq_nil_iff.mpr fun e he => ?_
    simpa using (mem_untouched.mp he).2 _ hgroup
  rw [hnone, nil_append, filter_eq_self]
  intro e he
  simpa using happends.url e he

/-- A surviving server is stored in its new place under its old id. -/
theorem survives_stored {p q : LocationEntry} {i : Nat}
    (h : Survives (entriesOf b.bundle url) answer.locations p i q) :
    ∃ e, (entriesOf (refreshSubscriptions w b.bundle onlyUrls).2 url)[i]? = some e ∧
      e.storageId = p.storageId ∧ e.panelView = q.normalized.panelView := by
  have hnodup : ((entriesOf b.bundle url).map storageId).Nodup :=
    b.nodup.sublist (filter_sublist.map _)
  have hp : p.Stored := b.stored (mem_filter.mp h.mem).1
  have hassign := (Claim.assign_spec freshStorageId_not_mem 0
    (fun id hid => mem_append_left (refreshStart b.bundle onlyUrls).usedStorageIds
      (((reuse_spec (entriesOf b.bundle url) answer.locations).taken_iff id).mpr hid))
    (reuse_spec (entriesOf b.bundle url) answer.locations).nodup)
  have hid := hassign.getElem?_held (reuse_survives hnodup h)
  refine ⟨q.refreshed url (refreshStamp (w.nowEpochMs url) (entriesOf b.bundle url) answer)
    p.storageId, ?_, ?_, ?_⟩
  · rw [entriesOf_single hsingle hanswer, answered, getElem?_zipWith, h.place, hid]
  · rw [LocationEntry.refreshed_id, hp.trim_id]
  · exact LocationEntry.refreshed_panelView q _ _ (w.nowEpochMs_pos url)

/-- If it was selected it still is. -/
theorem survives_active {p q : LocationEntry} {i : Nat}
    (h : Survives (entriesOf b.bundle url) answer.locations p i q)
    (hactive : b.bundle.activeLocationId = some p.storageId) :
    (refreshSubscriptions w b.bundle onlyUrls).2.activeLocationId = some p.storageId := by
  obtain ⟨e, he, hid, -⟩ := survives_stored hsingle hanswer h
  have hnodup : ((entriesOf b.bundle url).map storageId).Nodup :=
    b.nodup.sublist (filter_sublist.map _)
  have hreused : (reuse (entriesOf b.bundle url) answer.locations).1.any
      (fun pair => pair.2.map storageId = some p.storageId) = true := by
    refine any_eq_true.mpr ⟨(q, some p), ?_, by simp⟩
    exact mem_iff_getElem?.mpr ⟨i, reuse_survives hnodup h⟩
  rw [← hid] at hactive hreused ⊢
  refine active_single hsingle (mem_of_mem_filter (mem_of_getElem? he)) ?_
  rw [refreshAll_single hsingle hanswer]
  simp only [acceptAnswer, hactive, hreused, Option.isSome_some, Bool.and_self, if_true]

/-- A selection outside the URL is left alone. -/
theorem other_active {e : LocationEntry} (he : e ∈ b.bundle.locations)
    (hactive : b.bundle.activeLocationId = some e.storageId) (hurl : e.groupUrl ≠ some url) :
    (refreshSubscriptions w b.bundle onlyUrls).2.activeLocationId = some e.storageId := by
  have hother : ∀ p ∈ entriesOf b.bundle url, p.storageId ≠ e.storageId := by
    intro p hp hid
    obtain ⟨hmem, hp⟩ := mem_filter.mp hp
    obtain rfl : p = e := inj_on_of_nodup_map b.nodup hmem he hid
    exact hurl (by simpa using hp)
  have hkept : e ∈ (refreshSubscriptions w b.bundle onlyUrls).2.locations := by
    refine (nothingLost_single hsingle).untouched e he ?_
    rw [groupedByUrl_single hsingle]
    simpa using hurl
  refine active_single hsingle hkept ?_
  have hgroup : (entriesOf b.bundle url).any
      (fun p => some e.storageId = some p.storageId) = false := by
    rw [any_eq_false]
    intro p hp
    simpa using fun h => hother p hp h.symm
  have hreused : (reuse (entriesOf b.bundle url) answer.locations).1.any
      (fun pair => pair.2.map storageId = some e.storageId) = false := by
    rw [any_eq_false]
    rintro ⟨q, held⟩ hpair
    cases held with
    | none => simp
    | some p => simpa using hother p ((reuse_spec _ _).held q p hpair).1
  rw [refreshAll_single hsingle hanswer]
  simp only [acceptAnswer, hactive, hreused, hgroup, Bool.and_false, Bool.false_eq_true, if_false,
    refreshStart]

/-- A refresh of one URL keeps the identity of every server that is there before and after, and the
    selection: a surviving server keeps its id and stays selected, and a selection that is not of
    this URL does not change. -/
theorem refresh_keeps_identity :
    (∀ p i q, Survives (entriesOf b.bundle url) answer.locations p i q →
      (∃ e, (entriesOf (refreshSubscriptions w b.bundle onlyUrls).2 url)[i]? = some e ∧
        e.storageId = p.storageId ∧ e.panelView = q.normalized.panelView) ∧
      (b.bundle.activeLocationId = some p.storageId →
        (refreshSubscriptions w b.bundle onlyUrls).2.activeLocationId = some p.storageId)) ∧
    (∀ e ∈ b.bundle.locations, b.bundle.activeLocationId = some e.storageId →
      e.groupUrl ≠ some url →
      (refreshSubscriptions w b.bundle onlyUrls).2.activeLocationId = some e.storageId) := by
  refine ⟨fun p i q h => ⟨?_, ?_⟩, fun e he hactive hurl => ?_⟩
  · exact survives_stored hsingle hanswer h
  · exact survives_active hsingle hanswer h
  · exact other_active hsingle hanswer he hactive hurl

end

end OneUrl

/-- The panel with a new server: the old one keeps its id. -/
theorem grown_panel_keeps_id :
    (entriesOf (refreshSubscriptions (oneAnswer "https://a.example/sub" grownPanel) twoPanels.bundle
      (some ["https://a.example/sub"])).2 "https://a.example/sub")[0]?.map
        storageId = some "imported_de" := by
  have hsingle : (groupedByUrl twoPanels.bundle (some ["https://a.example/sub"])).map Prod.fst =
      ["https://a.example/sub"] := by decide
  have hanswer : (oneAnswer "https://a.example/sub" grownPanel).answer "https://a.example/sub" =
      some grownPanel := rfl
  let p := (entriesOf twoPanels.bundle "https://a.example/sub").get ⟨0, by decide⟩
  have hsurvives : Survives (entriesOf twoPanels.bundle "https://a.example/sub")
      grownPanel.locations p 0 (grownPanel.locations.get ⟨0, by decide⟩) :=
    { mem := get_mem _ _
      place := rfl
      signature := by decide +kernel
      previousOnce := by decide +kernel
      refreshedOnce := by decide +kernel }
  obtain ⟨⟨e, he, hid, -⟩, -⟩ := (refresh_keeps_identity hsingle hanswer).1 p 0 _ hsurvives
  have hp : p.storageId = "imported_de" := by decide
  rw [he, Option.map_some, hid, hp]

end OlcVpn.Locations
