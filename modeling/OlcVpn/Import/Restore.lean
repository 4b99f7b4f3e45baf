/-
  RESTORING A BACKUP: importing the text that `exportBundle` wrote.

  An entry of the backup replaces the stored entry with its id, in place.  The entries the store
  lacks are appended, and there the id goes through `uniqueStorageId`: it is lower-cased, cut to 32
  characters and, if that is taken, numbered.  An id that does not come out of this as it went in is
  lost, and with it the match the next restore would make.
-/
import OlcVpn.Import.Merge

namespace OlcVpn.Locations

open Kotlin List LocationEntry
open LocationBundle (activeLocationId normalized_of_stored)
open LocationEntry (storageId)
open Option (getD_some bind_some filter_some getD_none)

/-! ## The ids the store lacks -/

/-- Each id in turn is the first free candidate of its own slug. -/
def KeepsIds (used : List String) : List String → Prop
  | [] => True
  | id :: rest =>
    (∃ n, id = candidate (storageSlug id) n ∧
      ∀ m < n, candidate (storageSlug id) m ∈ used) ∧ KeepsIds (id :: used) rest

variable {id : String} {used ids : List String} {e s : LocationEntry}
  {imported : List LocationEntry}

/-- Which free ids `uniqueStorageId` leaves alone: the first free candidate of their own slug. -/
theorem uniqueStorageId_eq_self_iff (hfree : id ∉ used) :
    uniqueStorageId id used = id ↔ ∃ n, id = candidate (storageSlug id) n ∧
      ∀ m < n, candidate (storageSlug id) m ∈ used := by
  constructor
  · intro heq
    exact ⟨_, heq.symm, fun m hm => Fresh.mem_of_lt_firstFree hm⟩
  · rintro ⟨n, hid, hused⟩
    have hn : Fresh.firstFree (candidate (storageSlug id)) used = n :=
      Fresh.firstFree_eq (candidate_injective _) hused (hid ▸ hfree)
    rw [uniqueStorageId, Fresh.pick, hn, ← hid]

/-- The same for a list, where each id is taken before the next is asked for. -/
theorem uniqueStorageIds_eq_self_iff (hnd : ids.Nodup) (hfree : ∀ id ∈ ids, id ∉ used) :
    uniqueStorageIds used ids = ids ↔ KeepsIds used ids := by
  induction ids generalizing used with
  | nil => simp [uniqueStorageIds, KeepsIds]
  | cons id ids ih =>
    obtain ⟨hnotin, hnd⟩ := nodup_cons.mp hnd
    have hrest : ∀ other ∈ ids, other ∉ id :: used := by
      intro other hother hmem
      rcases mem_cons.mp hmem with rfl | hmem
      · exact hnotin hother
      · exact hfree other (mem_cons_of_mem _ hother) hmem
    rw [uniqueStorageIds, KeepsIds, List.cons.injEq, ← ih hnd hrest,
      uniqueStorageId_eq_self_iff (hfree id mem_cons_self)]
    refine and_congr_right fun hkept => ?_
    rw [(uniqueStorageId_eq_self_iff (hfree id mem_cons_self)).mpr hkept]

variable {entries : List LocationEntry}

/-- Ids that are kept leave the entries as they are. -/
theorem reassignIds_eq_self (h : uniqueStorageIds used (entries.map storageId) =
      entries.map storageId) : reassignIds used entries = entries := by
  rw [reassignIds, h]
  induction entries generalizing used with
  | nil => rfl
  | cons e entries ih =>
    rw [map_cons, uniqueStorageIds, List.cons.injEq] at h
    rw [map_cons, zipWith_cons_cons, ih h.2]

/-! ## The merge -/

/-- An entry of the store, or the one that replaces it. -/
def replaced (imported : List LocationEntry) (e : LocationEntry) : LocationEntry :=
  (entryById imported e.storageId).getD e

/-- The imported entries that replace nothing. -/
def missing (used : List String) (imported : List LocationEntry) : List LocationEntry :=
  imported.filter fun e => !used.contains e.storageId

theorem entryById_eq_some (h : entryById entries id = some e) :
    e ∈ entries ∧ e.storageId = id :=
  ⟨mem_reverse.mp (mem_of_find?_eq_some h), by simpa using find?_some h⟩

/-- Among distinct ids there is only one entry to find. -/
theorem entryById_of_mem (hnd : (entries.map storageId).Nodup) (he : e ∈ entries) :
    entryById entries e.storageId = some e := by
  cases hfind : entryById entries e.storageId with
  | none =>
    have hnone := find?_eq_none.mp hfind e (mem_reverse.mpr he)
    simp at hnone
  | some found =>
    obtain ⟨hmem, hid⟩ := entryById_eq_some hfind
    rw [inj_on_of_nodup_map hnd hmem he hid]

@[simp] theorem replaced_storageId (imported : List LocationEntry) (e : LocationEntry) :
    (replaced imported e).storageId = e.storageId := by
  cases hfind : entryById imported e.storageId with
  | none => rw [replaced, hfind, getD_none]
  | some found => rw [replaced, hfind, getD_some, (entryById_eq_some hfind).2]

/-- An entry the backup does not have is left alone. -/
theorem replaced_of_not_mem (h : e.storageId ∉ imported.map storageId) :
    replaced imported e = e := by
  cases hfind : entryById imported e.storageId with
  | none => rw [replaced, hfind, getD_none]
  | some found =>
    obtain ⟨hmem, hid⟩ := entryById_eq_some hfind
    exact absurd (hid ▸ mem_map_of_mem hmem) h

/-- The stored entries, each replaced by an imported one of its id. -/
theorem mem_map_replaced (hnd : (imported.map storageId).Nodup) :
    s ∈ entries.map (replaced imported) ↔
      (s ∈ imported ∧ s.storageId ∈ entries.map storageId) ∨
        (s ∈ entries ∧ s.storageId ∉ imported.map storageId) := by
  rw [mem_map]
  constructor
  · rintro ⟨old, hold, rfl⟩
    by_cases hin : old.storageId ∈ imported.map storageId
    · obtain ⟨e, he, hid⟩ := mem_map.mp hin
      have heq : replaced imported old = e := by
        rw [replaced, ← hid, entryById_of_mem hnd he, getD_some]
      rw [heq, hid]
      exact .inl ⟨he, mem_map_of_mem hold⟩
    · rw [replaced_of_not_mem hin]
      exact .inr ⟨hold, hin⟩
  · rintro (⟨hs, hid⟩ | ⟨hs, hid⟩)
    · obtain ⟨old, hold, hsame⟩ := mem_map.mp hid
      refine ⟨old, hold, ?_⟩
      rw [replaced, hsame, entryById_of_mem hnd hs, getD_some]
    · exact ⟨s, hs, replaced_of_not_mem hid⟩

/-- The id an appended entry comes to; any other is left alone. -/
def landedId (used ids : List String) (id : String) : String :=
  ((ids.zip (uniqueStorageIds used ids)).reverse.lookup id).getD id

theorem landedId_of_not_mem (h : id ∉ ids) : landedId used ids id = id := by
  have hnone : (ids.zip (uniqueStorageIds used ids)).reverse.lookup id = none :=
    lookup_eq_none_iff.mpr fun pair hpair => bne_iff_ne.mpr fun e =>
      h (e ▸ (of_mem_zip (mem_reverse.mp hpair)).1)
  rw [landedId, hnone, getD_none]

theorem landedId_of_mem_zip {landed : String} (hnd : ids.Nodup)
    (h : (id, landed) ∈ ids.zip (uniqueStorageIds used ids)) : landedId used ids id = landed := by
  rw [landedId, lookup_eq_some_of_mem ?_ (mem_reverse.mpr h), getD_some]
  rw [map_reverse, nodup_reverse, map_fst_zip (by simp [length_uniqueStorageIds])]
  exact hnd

theorem landedId_eq_self (hkeep : uniqueStorageIds used ids = ids) :
    landedId used ids = fun id => id := by
  funext id
  rw [landedId, hkeep]
  cases hfind : (ids.zip ids).reverse.lookup id with
  | none => rfl
  | some new =>
    have hpair := mem_reverse.mp (mem_of_lookup_eq_some hfind)
    rw [zip_eq_zipWith, zipWith_self, mem_map] at hpair
    obtain ⟨same, -, hsame⟩ := hpair
    obtain ⟨rfl, rfl⟩ := Prod.mk.inj hsame
    rfl

section Restore

variable {before : StoredBundle} (hne : before.bundle.locations ≠ []) {imported : LocationBundle}
  (hall : ∀ e ∈ imported.locations, e.Stored)

/-- What a restore puts together. -/
def restoredLocations (before : StoredBundle) (imported : List LocationEntry) :
    List LocationEntry :=
  before.bundle.locations.map (replaced imported) ++
    reassignIds before.storageIds (missing before.storageIds imported)

/-- The ids after a restore: those of the store, then what became of the missing ones. -/
theorem storageIds_restored (before : StoredBundle) (imported : List LocationEntry) :
    (restoredLocations before imported).map storageId =
      before.storageIds ++ uniqueStorageIds before.storageIds
        ((missing before.storageIds imported).map storageId) := by
  rw [restoredLocations, map_append, storageIds_reassignIds, map_map]
  refine congrArg (· ++ _) (map_congr_left fun e _ => ?_)
  exact replaced_storageId imported e

/-- No two of them are the same. -/
theorem nodup_restored (before : StoredBundle) (imported : List LocationEntry) :
    ((restoredLocations before imported).map storageId).Nodup := by
  obtain ⟨hnd, hfresh⟩ := nodup_uniqueStorageIds before.storageIds
    ((missing before.storageIds imported).map storageId)
  rw [storageIds_restored]
  exact nodup_append.mpr ⟨before.nodup, hnd, fun a ha b hb hab => hfresh b hb (hab ▸ ha)⟩

omit hall in
/-- An empty store takes what is imported as it is. -/
theorem merge_nothing (hempty : before.bundle.locations = []) (replace : Bool) :
    mergeImportedBundle before.bundle imported replace = imported := by
  rw [mergeImportedBundle, before.isNormalized, hempty]
  rfl

include hall

theorem stored_restored : ∀ e ∈ restoredLocations before imported.locations, e.Stored := by
  intro e he
  rcases mem_append.mp he with he | he
  · obtain ⟨old, hold, rfl⟩ := mem_map.mp he
    cases hfind : entryById imported.locations old.storageId with
    | none =>
      rw [replaced, hfind]
      exact before.stored hold
    | some found =>
      rw [replaced, hfind]
      exact hall found (entryById_eq_some hfind).1
  · exact stored_reassignIds (fun e he => hall e (mem_filter.mp he).1) e he

include hne

/-- The merge in restore mode, without its loop. -/
theorem merge_restore_locations :
    (mergeImportedBundle before.bundle imported true).locations =
      restoredLocations before imported.locations := by
  have hids : before.bundle.locations.map storageId = before.storageIds := rfl
  have hmissing : ∀ e ∈ missing before.storageIds imported.locations, e.Stored :=
    fun e he => hall e (mem_filter.mp he).1
  rw [mergeImportedBundle, before.isNormalized, hids]
  simp only [isEmpty_eq_false_iff.mpr hne, Bool.false_eq_true, if_false, if_true, Bool.true_and]
  rw [show (imported.locations.filter fun e => !before.storageIds.contains e.storageId) =
    missing before.storageIds imported.locations from rfl, map_normalized_reassignIds hmissing]
  rfl

/-- Saving changes nothing of it. -/
theorem save_restore_locations :
    (mergeImportedBundle before.bundle imported true).save.bundle.locations =
      restoredLocations before imported.locations := by
  have hlocations := merge_restore_locations hne hall
  rw [LocationBundle.save, LocationBundle.locations_normalized, hlocations]
  · exact distinctBy_eq_self (nodup_restored before imported.locations)
  · rw [hlocations]
    exact stored_restored hall

omit hall in
/-- The imported selection comes first, under the id it came to. -/
theorem active_merge_restore : (mergeImportedBundle before.bundle imported true).activeLocationId =
    (((imported.activeLocationId.map (landedId before.storageIds
      ((missing before.storageIds imported.locations).map storageId))).filter fun id =>
        (mergeImportedBundle before.bundle imported true).locations.any (·.storageId = id)).or
      (before.bundle.activeLocationId.filter fun id =>
        (mergeImportedBundle before.bundle imported true).locations.any (·.storageId = id))).or
      ((mergeImportedBundle before.bundle imported true).locations.head?.map
        storageId) := by
  have hbefore : before.bundle.locations.map storageId = before.storageIds := rfl
  rw [mergeImportedBundle, before.isNormalized, hbefore]
  simp only [isEmpty_eq_false_iff.mpr hne, Bool.false_eq_true, if_false, if_true, Bool.true_and]
  rfl

/-- Where new ids come out as they went in, the imported selection is found again. -/
theorem merge_restore
    (hkeep : uniqueStorageIds before.storageIds
      ((missing before.storageIds imported.locations).map storageId) =
        (missing before.storageIds imported.locations).map storageId)
    (hactive : ∀ id, imported.activeLocationId = some id → id ∈ imported.locations.map storageId) :
    (mergeImportedBundle before.bundle imported true).save.bundle =
      { activeLocationId := imported.activeLocationId.or before.bundle.activeLocationId
        locations := before.bundle.locations.map (replaced imported.locations) ++
          missing before.storageIds imported.locations } := by
  obtain ⟨current, hcurrent, hselected⟩ := before.exists_active hne
  have hlocations := merge_restore_locations hne hall
  have hids := storageIds_restored before imported.locations
  rw [hkeep] at hids
  -- every id of either side is among the merged ones
  have hknown : ∀ id, id ∈ before.storageIds ∨ id ∈ imported.locations.map storageId →
      (restoredLocations before imported.locations).any (·.storageId = id) = true := by
    intro id hid
    have hmem : id ∈ (restoredLocations before imported.locations).map storageId := by
      rw [hids, mem_append]
      by_cases hold : id ∈ before.storageIds
      · exact .inl hold
      · obtain ⟨e, he, rfl⟩ := mem_map.mp (hid.resolve_left hold)
        exact .inr (mem_map_of_mem (mem_filter.mpr ⟨he, by simpa using hold⟩))
    obtain ⟨e, he, rfl⟩ := mem_map.mp hmem
    exact any_eq_true.mpr ⟨e, he, by simp⟩
  have hselection : (mergeImportedBundle before.bundle imported true).activeLocationId =
      imported.activeLocationId.or before.bundle.activeLocationId := by
    rw [active_merge_restore hne, landedId_eq_self hkeep, hlocations]
    simp only [Option.map_id_fun', id_eq]
    have hbeforeKnown := hknown current.storageId (.inl (mem_map_of_mem hcurrent))
    cases himported : imported.activeLocationId with
    | none => simp [hselected, filter_some, hbeforeKnown]
    | some id => simp [filter_some, hknown id (.inr (hactive id himported))]
  have hkept : restoredLocations before imported.locations =
      before.bundle.locations.map (replaced imported.locations) ++
        missing before.storageIds imported.locations := by
    rw [restoredLocations, reassignIds_eq_self hkeep]
  have hmerge : mergeImportedBundle before.bundle imported true =
      { activeLocationId := imported.activeLocationId.or before.bundle.activeLocationId
        locations := restoredLocations before imported.locations } := by
    rw [← hselection, ← hlocations]
  rw [← hkept, LocationBundle.save, hmerge]
  obtain ⟨id, hid, hmem⟩ : ∃ id, imported.activeLocationId.or before.bundle.activeLocationId =
      some id ∧ (restoredLocations before imported.locations).any (·.storageId = id) = true := by
    cases himported : imported.activeLocationId with
    | none => exact ⟨_, hselected, hknown _ (.inl (mem_map_of_mem hcurrent))⟩
    | some id => exact ⟨id, rfl, hknown id (.inr (hactive id himported))⟩
  obtain ⟨e, he, heq⟩ := any_eq_true.mp hmem
  obtain rfl : e.storageId = id := of_decide_eq_true heq
  exact normalized_of_stored (stored_restored hall)
    (nodup_restored before imported.locations) he hid

end Restore

/-! ## The text of a backup -/

/-- `exportBundle`, given how an entry is written. -/
def exportJson (encode : LocationEntry → JsonObject) (b : LocationBundle) : JsonObject :=
  ("version", .literal false "5") ::
    ((b.activeLocationId.map fun id => ("active_location_id", Json.str id)).toList ++
      [("locations", .array (b.locations.map fun e => .object (encode e)))])

/-- The text of a backup: an object that holds no links and no foreign configuration, and from which
    the JSON library reads the bundle back. -/
structure ExportedText (I : Importer) (backup : StoredBundle) (text : String) : Prop where
  opens : text.toList.head? = some '{'
  closes : text.toList.getLast? = some '}'
  own : parseForeign I.toLinkParsers (pastedContext I text) text = none
  number : I.intOrNull "5" = some 5
  read : ∃ encode, I.parseToJsonElement text = some (.object (exportJson encode backup.bundle)) ∧
    ∀ e ∈ backup.bundle.locations, I.decodeEntry (encode e) = some e

/-- A text between braces has nothing to strip. -/
theorem trim_braced {text : String} (hopens : text.toList.head? = some '{')
    (hcloses : text.toList.getLast? = some '}') : trim text = text := by
  refine trim_of_trimmed ⟨fun c hc => ?_, fun c hc => ?_⟩
  · obtain rfl : c = '{' := by simpa [hopens, eq_comm] using hc
    decide
  · obtain rfl : c = '}' := by simpa [hcloses, eq_comm] using hc
    decide

theorem normalizedImportText_braced {text : String} (hopens : text.toList.head? = some '{')
    (hcloses : text.toList.getLast? = some '}') : normalizedImportText text = text := by
  have htrim := trim_braced hopens hcloses
  have hbom : startsWith text utf8Bom = false := by
    rw [Bool.eq_false_iff, Ne, startsWith_iff_head (d := Char.ofNat 0xfeff) (by decide), hopens]
    decide
  rw [normalizedImportText, htrim, removeStart, hbom, if_neg (by decide), htrim]

theorem isHttpUrl_braced {text : String} (hopens : text.toList.head? = some '{')
    (hcloses : text.toList.getLast? = some '}') : isHttpUrl text = false := by
  have htrim := trim_braced hopens hcloses
  obtain ⟨rest, hrest⟩ := head?_eq_some_iff.mp hopens
  have hlower : (lowercase text).toList = '{' :: rest.flatMap lowercaseChar := by
    rw [lowercase, String.toList_ofList, hrest, flatMap_cons, show lowercaseChar '{' =
      ['{'] by decide]
    rfl
  have hscheme : ∀ scheme : String, scheme.toList.head? = some 'h' →
      startsWith (lowercase text) scheme = false := by
    intro scheme hhead
    obtain ⟨l, hl⟩ := head?_eq_some_iff.mp hhead
    simp [startsWith, hl, hlower, isPrefixOf]
  rw [isHttpUrl, htrim, hscheme "http://" (by decide), hscheme "https://" (by decide),
    Bool.or_false]

section Exported

variable {I : Importer} {backup : StoredBundle} {text : String} (h : ExportedText I backup text)
include h

/-- THE BUNDLE IS READ BACK from its JSON as it was exported. -/
theorem ExportedText.parseBundle_eq {root : JsonObject}
    (hroot : I.parseToJsonElement text = some (.object root)) :
    parseBundle I.toLinkParsers root none none = some backup.bundle := by
  obtain ⟨encode, hread, hdecode⟩ := h.read
  rw [hroot] at hread
  cases Option.some.inj hread
  have hentry : ∀ e ∈ backup.bundle.locations,
      decodeLocationEntry I.toLinkParsers (encode e) none = some e := by
    intro e he
    have hstored := backup.stored he
    rw [decodeLocationEntry_pasted, hdecode e he, filter_some, hstored.storable, if_pos rfl,
      Option.map_some, hstored.fixed]
  have hitems : ((backup.bundle.locations.map fun e => Json.object (encode e)).filterMap
        jsonObjectOrNull).filterMap (fun item =>
      ((decodeLocationEntry I.toLinkParsers item none).or
        (parseSingleLocation I.toLinkParsers item (itemStorageId item) none)).map
          (·.withInterval none)) = backup.bundle.locations := by
    rw [filterMap_map, filterMap_filterMap]
    refine (filterMap_congr fun e he => ?_).trans filterMap_some
    have hfixed : e.withInterval none = e := (backup.stored he).fixed
    simp [hentry e he, hfixed]
  have hlocations : (exportJson encode backup.bundle).lookup "locations" =
      some (.array (backup.bundle.locations.map fun e => .object (encode e))) := by
    cases hactive : backup.bundle.activeLocationId <;> simp [exportJson, hactive]
  have hversion : JsonObject.string (exportJson encode backup.bundle) "version" = some "5" := rfl
  have hactive : (JsonObject.string (exportJson encode backup.bundle) "active_location_id").or
      (JsonObject.string (exportJson encode backup.bundle) "activeLocationId") =
      backup.bundle.activeLocationId := by
    cases hid : backup.bundle.activeLocationId <;>
      simp [exportJson, hid, JsonObject.string, Json.str]
  simp only [parseBundle, hlocations, bind_some, jsonArrayOrNull, hitems, hversion, h.number,
    getD_some, hactive]
  simp

/-- The text of a backup is restored, unless it is taken for a panel's refusal. -/
theorem ExportedText.importText_eq (now : Int) (current : StoredBundle) :
    importText I now current text =
      if I.isUnsupportedClientStub text then none
      else some (importResolved now current { parsed := ⟨backup.bundle, .restore⟩ }) := by
  have hnorm := normalizedImportText_braced h.opens h.closes
  have hcontent : pastedContent text = text := by rw [pastedContent, hnorm, hnorm]
  have hblank : isBlank text = false := by
    rw [isBlank, all_eq_false]
    exact ⟨'{', mem_of_mem_head? h.opens, by decide⟩
  have hstart : startsWith text "\x7b" = true :=
    (startsWith_iff_head (d := '{') (by decide)).mpr h.opens
  obtain ⟨encode, hread, -⟩ := h.read
  have hparse : parseImport I.toLinkParsers (pastedContext I text) text =
      some ⟨backup.bundle, .restore⟩ := by
    have hjson : parseJsonText I.toLinkParsers (pastedContext I text) text =
        some ⟨backup.bundle, .restore⟩ := by
      simp only [parseJsonText, hstart, h.closes, hread, bind_some, jsonObjectOrNull,
        pastedContext, h.parseBundle_eq hread]
      rfl
    rw [parseImport, h.own, hjson]
    rfl
  rw [importText, resolveParsedImport]
  simp only [hnorm, hcontent, hblank, isHttpUrl_braced h.opens h.closes, Bool.false_eq_true,
    if_false, hparse]
  split_ifs <;> rfl

end Exported

/-! ## Faithful and idempotent -/

/-- The subscription metadata without the times of a refresh. -/
def SubscriptionMetadata.untimed (s : SubscriptionMetadata) : SubscriptionMetadata :=
  { s with lastRefreshAtEpochMs := none, lastAttemptAtEpochMs := none }

def LocationEntry.untimed (e : LocationEntry) : LocationEntry :=
  e.mapSubscription SubscriptionMetadata.untimed

/-- The entries of the backup are in the store under their own ids, the others are what they were,
    and the selection is the backup's. -/
structure Restored (backup before once : StoredBundle) : Prop where
  entries : ∀ e ∈ backup.bundle.locations, ∃ s ∈ once.bundle.locations, s.unstamped = e.unstamped
  others : ∀ c ∈ before.bundle.locations, c.storageId ∉ backup.storageIds →
    c ∈ once.bundle.locations
  nothingElse : ∀ s ∈ once.bundle.locations,
    s.storageId ∈ backup.storageIds ∨ s ∈ before.bundle.locations
  active : ∀ id, backup.bundle.activeLocationId = some id →
    once.bundle.activeLocationId = some id

structure SameButTimes (once twice : StoredBundle) : Prop where
  entries : List.Forall₂ (fun s t => t.untimed = s.untimed) once.bundle.locations
    twice.bundle.locations
  active : twice.bundle.activeLocationId = once.bundle.activeLocationId

/-- Importing the text restores the backup, and importing it again changes nothing but times. -/
def RestoresTwice (I : Importer) (text : String) (backup before : StoredBundle)
    (now later : Int) : Prop :=
  ∃ once twice, importText I now before text = some once ∧ Restored backup before once ∧
    importText I later once text = some twice ∧ SameButTimes once twice

/-- The store is empty, or the ids it lacks come out of `uniqueStorageId` as they go in. -/
def Restorable (before : StoredBundle) (ids : List String) : Prop :=
  before.bundle.locations = [] ∨
    KeepsIds before.storageIds (ids.filter fun id => !before.storageIds.contains id)

/-- The entries of a backup, stamped. -/
def stampedEntries (now : Int) (backup : StoredBundle) : List LocationEntry :=
  backup.bundle.locations.map (·.stampImported now none)

/-- Two imports at different times stamp an entry alike, the times apart. -/
theorem LocationEntry.stampImported_untimed (h : e.Stored) {now later : Int} (hnow : 0 < now)
    (hlater : 0 < later) :
    (e.stampImported later none).untimed = (e.stampImported now none).untimed := by
  by_cases hs : e.isSubscription = true
  · rw [stampImported_eq h hnow none hs, stampImported_eq h hlater none hs]
    rfl
  · rw [stampImported, stampImported, if_neg hs, if_neg hs]

theorem importedBundle_backup (now : Int) (backup : StoredBundle) :
    importedBundle now none backup.bundle =
      { activeLocationId := backup.bundle.activeLocationId
        locations := stampedEntries now backup } := by
  rw [importedBundle, backup.isNormalized]
  rfl

/-- What a restore writes: the merge of the stamped backup, saved. -/
theorem importResolved_backup (now : Int) (backup before : StoredBundle) :
    (importResolved now before { parsed := ⟨backup.bundle, .restore⟩ }).bundle =
      (mergeImportedBundle before.bundle
        { activeLocationId := backup.bundle.activeLocationId
          locations := stampedEntries now backup } true).save.bundle := by
  rw [← importedBundle_backup]
  rfl

/-- The entries the store lacks, by their ids. -/
theorem missing_storageIds (used : List String) (entries : List LocationEntry) :
    (missing used entries).map storageId =
      (entries.map storageId).filter fun id => !used.contains id := by
  rw [missing, filter_map]
  rfl

/-- Afterwards there are the entries of the backup and what they did not replace. -/
theorem mem_restored_iff (before : StoredBundle)
    (hnd : (imported.map storageId).Nodup) :
    s ∈ before.bundle.locations.map (replaced imported) ++ missing before.storageIds imported ↔
      s ∈ imported ∨ (s ∈ before.bundle.locations ∧
        s.storageId ∉ imported.map storageId) := by
  have hmissing : s ∈ missing before.storageIds imported ↔
      s ∈ imported ∧ s.storageId ∉ before.storageIds := by
    simp [missing]
  rw [mem_append, mem_map_replaced hnd, hmissing, or_right_comm]
  refine or_congr_left ?_
  rw [← and_or_left]
  exact and_iff_left (em _)

section Backup

variable {now : Int} (hnow : 0 < now) (backup before : StoredBundle)
include hnow

/-- Stamping keeps the ids. -/
theorem storageIds_stamped :
    (stampedEntries now backup).map storageId = backup.storageIds := by
  rw [stampedEntries, map_map]
  exact map_congr_left fun e he =>
    stampImported_storageId (backup.stored he) hnow none

theorem nodup_stamped : ((stampedEntries now backup).map storageId).Nodup := by
  rw [storageIds_stamped hnow]
  exact backup.nodup

omit hnow in
theorem stored_stamped : ∀ e ∈ stampedEntries now backup, e.Stored := by
  intro e he
  obtain ⟨e', he', rfl⟩ := mem_map.mp he
  exact stampImported_stored (backup.stored he') none

theorem active_stamped {id : String} (h : backup.bundle.activeLocationId = some id) :
    id ∈ (stampedEntries now backup).map storageId := by
  rw [storageIds_stamped hnow]
  have hknown := congrArg activeLocationId backup.isNormalized
  rw [h] at hknown
  rcases Option.or_eq_some_iff.mp hknown with hkept | ⟨-, hfirst⟩
  · obtain ⟨e, he, heq⟩ := any_eq_true.mp (Option.filter_eq_some_iff.mp hkept).2
    rw [← of_decide_eq_true heq]
    exact mem_map_of_mem (backup.isNormalized ▸ he)
  · obtain ⟨e, he, rfl⟩ := Option.map_eq_some_iff.mp hfirst
    exact mem_map_of_mem (backup.isNormalized ▸ mem_of_mem_head? he)

/-- The store after a restore. -/
theorem restore_eq (h : Restorable before backup.storageIds) :
    (importResolved now before { parsed := ⟨backup.bundle, .restore⟩ }).bundle =
      { activeLocationId := backup.bundle.activeLocationId.or before.bundle.activeLocationId
        locations := before.bundle.locations.map (replaced (stampedEntries now backup)) ++
          missing before.storageIds (stampedEntries now backup) } := by
  rw [importResolved_backup]
  by_cases hne : before.bundle.locations = []
  · -- an empty store takes the backup as it is
    have hids : before.storageIds = [] := by simp [StoredBundle.storageIds, hne]
    have hnone : before.bundle.activeLocationId = none := by
      have hactive := congrArg activeLocationId before.isNormalized
      cases hid : before.bundle.activeLocationId with
      | none => rfl
      | some id => simp [LocationBundle.normalized, hne, hid, distinctBy, distinctByFrom] at hactive
    have hmissing : missing [] (stampedEntries now backup) = stampedEntries now backup := by
      simp [missing]
    rw [merge_nothing hne, hnone, hne, hids, hmissing, Option.or_none, map_nil, nil_append,
      LocationBundle.save]
    by_cases hempty : backup.bundle.locations = []
    · have hfixed := backup.isNormalized
      have hnil : stampedEntries now backup = backup.bundle.locations := by
        simp [stampedEntries, hempty]
      rw [hnil]
      exact hfixed
    · obtain ⟨e, he, hactive⟩ := backup.exists_active hempty
      refine normalized_of_stored (e := e.stampImported now none)
        (stored_stamped backup) (nodup_stamped hnow backup) (mem_map_of_mem he) ?_
      rw [hactive, stampImported_storageId (backup.stored he) hnow none]
  · refine merge_restore hne (stored_stamped backup) ?_ fun id hid => active_stamped hnow backup hid
    have hids : (missing before.storageIds (stampedEntries now backup)).map
        storageId =
        backup.storageIds.filter fun id => !before.storageIds.contains id := by
      rw [missing_storageIds, storageIds_stamped hnow]
    have hnd : backup.storageIds.Nodup := backup.nodup
    rw [hids, uniqueStorageIds_eq_self_iff (hnd.filter _)]
    · exact h.resolve_left hne
    · intro id hid
      simpa using (mem_filter.mp hid).2

/-- FAITHFUL: under the condition on the ids one import restores the backup. -/
theorem restored_once (h : Restorable before backup.storageIds) :
    Restored backup before
      (importResolved now before { parsed := ⟨backup.bundle, .restore⟩ }) := by
  have hids := storageIds_stamped hnow backup
  have hmem : ∀ s, s ∈ _ ↔ _ :=
    fun s => mem_restored_iff before (nodup_stamped hnow backup) (s := s)
  rw [hids] at hmem
  constructor
  · intro e he
    refine ⟨e.stampImported now none, ?_, stampImported_unstamped (backup.stored he) hnow none⟩
    rw [restore_eq hnow backup before h]
    exact (hmem _).mpr (.inl (mem_map_of_mem he))
  · intro c hc hother
    rw [restore_eq hnow backup before h]
    exact (hmem c).mpr (.inr ⟨hc, hother⟩)
  · intro s hs
    rw [restore_eq hnow backup before h] at hs
    rcases (hmem s).mp hs with hs | hs
    · exact .inl (hids ▸ mem_map_of_mem hs)
    · exact .inr hs.1
  · intro id hid
    rw [restore_eq hnow backup before h, hid]
    rfl

/-- A second restore meets entries of the backup only under their own ids. -/
theorem restored_twice (h : Restorable before backup.storageIds) {later : Int}
    (hlater : 0 < later) :
    let once := importResolved now before { parsed := ⟨backup.bundle, .restore⟩ }
    SameButTimes once (importResolved later once { parsed := ⟨backup.bundle, .restore⟩ }) := by
  intro once
  have honce := restore_eq hnow backup before h
  have hids := storageIds_stamped hnow backup
  have hlaterIds := storageIds_stamped hlater backup
  have hpresent : ∀ id ∈ backup.storageIds, id ∈ once.storageIds := by
    intro id hid
    rw [← hids] at hid
    obtain ⟨e, he, rfl⟩ := mem_map.mp hid
    refine mem_map_of_mem ?_
    rw [honce]
    exact (mem_restored_iff before (nodup_stamped hnow backup)).mpr (.inl he)
  have hnone : missing once.storageIds (stampedEntries later backup) = [] := by
    refine filter_eq_nil_iff.mpr fun e he => ?_
    simpa using hpresent e.storageId (hlaterIds ▸ mem_map_of_mem he)
  have hagain : Restorable once backup.storageIds := by
    refine .inr ?_
    have hnil : (backup.storageIds.filter fun id => !once.storageIds.contains id) = [] :=
      filter_eq_nil_iff.mpr fun id hid => by simpa using hpresent id hid
    rw [hnil]
    trivial
  have htwice := restore_eq hlater backup once hagain
  rw [hnone, append_nil] at htwice
  constructor
  · rw [htwice, List.forall₂_map_right_iff]
    refine List.forall₂_same.mpr fun s hs => ?_
    by_cases hid : s.storageId ∈ backup.storageIds
    · -- the entry is a stamped one of the backup, and so is the one that replaces it
      have hmem : s ∈ stampedEntries now backup := by
        rw [honce] at hs
        rcases (mem_restored_iff before (nodup_stamped hnow backup)).mp hs with hs | ⟨-, hother⟩
        · exact hs
        · exact absurd (hids ▸ hid) hother
      obtain ⟨e, he, rfl⟩ := mem_map.mp hmem
      have hstored := backup.stored he
      have hfound : entryById (stampedEntries later backup) (e.stampImported now none).storageId =
          some (e.stampImported later none) := by
        rw [stampImported_storageId hstored hnow, ← stampImported_storageId hstored hlater none]
        exact entryById_of_mem (nodup_stamped hlater backup) (mem_map_of_mem he)
      rw [replaced, hfound, getD_some]
      exact stampImported_untimed hstored hnow hlater
    · rw [← hlaterIds] at hid
      rw [replaced_of_not_mem hid]
  · rw [htwice, honce]
    cases backup.bundle.activeLocationId <;> rfl

end Backup

/-! ## Which ids -/

/-- A room named after its id. -/
def namedRoom (id : String) : LocationEntry :=
  LocationEntry.normalized { storageId := id, name := id, endpoint := some ⟨"r", "k"⟩ }

theorem namedRoom_stored (hid : isNotBlank (trim id) = true) : (namedRoom id).Stored := by
  refine stored_normalized hid ?_
  have hgiven : (isNotBlank (trim (firstNotBlank [some "r", none, none, none])) &&
      isNotBlank (trim (firstNotBlank [some "k", none, none]))) = true := by decide
  simpa [LocationConfig.isStorable, LocationEntry.location] using hgiven

/-- The name tells the rooms of a backup apart, whatever ids they get. -/
theorem namedRoom_name (id : String) : (namedRoom id).name = trim id := by
  simp [namedRoom, LocationEntry.normalized, LocationEntry.location, LocationEntry.ofConfig]

theorem storageIds_rooms (hids : ∀ id ∈ ids, trim id = id ∧ isNotBlank id = true) :
    (ids.map namedRoom).map storageId = ids := by
  rw [map_map]
  exact (map_congr_left fun id hid => (hids id hid).1).trans (map_id _)

/-- The backup of such rooms. -/
def roomBackup (ids : List String) : LocationBundle :=
  { activeLocationId := ids.head?, locations := ids.map namedRoom }

/-- The backup of such rooms is one the app can have exported. -/
theorem roomBackup_normalized (hids : ∀ id ∈ ids, trim id = id ∧ isNotBlank id = true)
    (hnd : ids.Nodup) : (roomBackup ids).normalized = roomBackup ids := by
  cases hlist : ids with
  | nil => rfl
  | cons first rest =>
    rw [← hlist]
    have hfirst : first ∈ ids := by simp [hlist]
    refine normalized_of_stored (e := namedRoom first) ?_ ?_
      (mem_map_of_mem hfirst) ?_
    · intro e he
      obtain ⟨id, hid, rfl⟩ := mem_map.mp he
      exact namedRoom_stored (by rw [(hids id hid).1, (hids id hid).2])
    · rw [roomBackup, storageIds_rooms hids]
      exact hnd
    · have hid : (namedRoom first).storageId = trim first := rfl
      rw [hid, (hids first hfirst).1, roomBackup, hlist]
      rfl

/-- Decoders that know JSON and no link. -/
def jsonParsers (parse : String → Option Json) (decode : JsonObject → Option LocationEntry)
    (int : String → Option Int) : LinkParsers :=
  { noParsers with parseToJsonElement := parse, decodeEntry := decode, intOrNull := int }

/-- The fields of a room in the JSON of a backup; the others have their defaults. -/
def writtenEntry (e : LocationEntry) : JsonObject :=
  [("storage_id", .str e.storageId), ("name", .str e.name),
   ("endpoint", .object [("room_id", .str "r"), ("key", .str "k")])]

/-- The libraries on one text, the JSON of a backup. -/
def backupImporter (backup : LocationBundle) (encode : LocationEntry → JsonObject)
    (text : String) : Importer :=
  { jsonParsers
      (fun read => if read = text then some (.object (exportJson encode backup)) else none)
      (fun root => (JsonObject.string root "storage_id").bind (entryById backup.locations))
      (fun digits => if digits = "5" then some 5 else none) with
    isUnsupportedClientStub := fun _ => false
    subscriptionMetadataFromBody := fun _ => none
    download := fun _ => none }

/-- The JSON of a backup has no fields but its own three. -/
theorem lookup_exportJson {encode : LocationEntry → JsonObject} {b : LocationBundle} {name : String}
    (h : name ∉ ["version", "active_location_id", "locations"]) :
    (exportJson encode b).lookup name = none := by
  simp only [mem_cons, not_mem_nil, or_false, not_or] at h
  obtain ⟨h₁, h₂, h₃⟩ := h
  cases hactive : b.activeLocationId <;>
    simp [exportJson, hactive, beq_eq_false_iff_ne.mpr h₁, beq_eq_false_iff_ne.mpr h₂,
      beq_eq_false_iff_ne.mpr h₃]

section Json

variable {parse : String → Option Json} {decode : JsonObject → Option LocationEntry}
  {int : String → Option Int}

/-- Such decoders find no link in any line. -/
theorem parseShareLink_json (line : String) :
    parseShareLink (jsonParsers parse decode int) line = none := by
  unfold parseShareLink
  dsimp only
  split_ifs <;> rfl

/-- A TEXT WITHOUT A SLASH IS NO LIST OF LINKS: nothing but the app's own JSON is found in it. -/
theorem parseForeign_json (ctx : ImportContext) {text : String} {root : JsonObject}
    (htrim : trim text = text) (hslash : '/' ∉ text.toList)
    (hroot : parse text = some (.object root))
    (hnames : ∀ name ∈ ["links", "ssConfLinks"], root.lookup name = none) :
    parseForeign (jsonParsers parse decode int) ctx text = none := by
  have hread : (jsonParsers parse decode int).parseToJsonElement text = some (.object root) := hroot
  have hno : ∀ word : String, '/' ∈ word.toList → contains text word = false := by
    intro word hword
    rw [Bool.eq_false_iff]
    exact fun h => hslash (((contains_iff_isInfix _ _).mp h).subset hword)
  have hlinks : extractJsonLinks (jsonParsers parse decode int) text = none := by
    simp [extractJsonLinks, hread, linksOf, hnames]
  have hbase : maybeBase64Decode (jsonParsers parse decode int) text = none := by
    simp [maybeBase64Decode, hno "://" (by decide), jsonParsers, noParsers]
  have htext : toLinkText (jsonParsers parse decode int) text = text := by
    rw [toLinkText, htrim, hlinks, hbase]
    rfl
  have hfound : linkBundles (jsonParsers parse decode int) ctx text = [] := by
    simp [linkBundles, parseYptunInboundText, parseOlcRtcText, parseFreeturnText, parseQwdttText,
      parseCsqttText, parseOpenFluxText, bundleOf, hno inboundPrefix (by decide),
      hno olcRtcPrefix (by decide), jsonParsers, noParsers]
  have hshare : parseSubscription (jsonParsers parse decode int) text = [] := by
    simp [parseSubscription, parseShareLink_json]
  have hproxy : parseProxyText (jsonParsers parse decode int) text ctx.subscriptionUrl
      ctx.subscriptionMetadata = none := by
    simp [parseProxyText, hshare, bundleOf]
  have hawg : parseAmneziaWgText (jsonParsers parse decode int) text ctx.subscriptionUrl =
      none := by
    simp [parseAmneziaWgText, bundleOf, jsonParsers, noParsers]
  have hraw : parseRawXray (jsonParsers parse decode int) text ctx.subscriptionUrl = none := by
    simp [parseRawXray, bundleOf, jsonParsers, noParsers]
  have hsing : parseRawSingBox (jsonParsers parse decode int) text ctx.subscriptionUrl = none := by
    simp [parseRawSingBox, bundleOf, jsonParsers, noParsers]
  simp [parseForeign, htext, hfound, hawg, hraw, hproxy, hsing, mergeParsedBundles]

end Json

/-- THE ASSUMPTIONS CAN BE MET: by every backup and any text in braces without a slash. -/
theorem exportedText_backupImporter (backup : StoredBundle)
    (encode : LocationEntry → JsonObject) {text : String}
    (hid : ∀ e, JsonObject.string (encode e) "storage_id" = some e.storageId)
    (hopens : text.toList.head? = some '{') (hcloses : text.toList.getLast? = some '}')
    (hslash : '/' ∉ text.toList) :
    ExportedText (backupImporter backup.bundle encode text) backup text where
  opens := hopens
  closes := hcloses
  number := rfl
  read := by
    refine ⟨encode, if_pos rfl, fun e he => ?_⟩
    show (JsonObject.string (encode e) "storage_id").bind _ = _
    rw [hid, Option.bind_some]
    exact entryById_of_mem backup.nodup he
  own := by
    refine parseForeign_json _ (trim_braced hopens hcloses) hslash (if_pos rfl)
      fun name hname => lookup_exportJson ?_
    revert hname
    simp only [mem_cons, not_mem_nil, or_false]
    rintro (rfl | rfl) <;> decide

theorem LocationEntry.storageId_of_unstamped (h : s.unstamped = e.unstamped) :
    s.storageId = e.storageId := by
  have hkeep : ∀ e : LocationEntry, e.unstamped.storageId = e.storageId := fun _ => rfl
  rw [← hkeep s, h, hkeep]

theorem LocationEntry.name_of_unstamped (h : s.unstamped = e.unstamped) : s.name = e.name := by
  have hkeep : ∀ e : LocationEntry, e.unstamped.name = e.name := fun _ => rfl
  rw [← hkeep s, h, hkeep]

/-- Pairs of equals everywhere make the lists equal. -/
theorem eq_of_zip_diagonal {new : List String} (hnd : ids.Nodup) (hlen : new.length = ids.length)
    (h : ∀ id ∈ ids, (id, id) ∈ ids.zip new) : new = ids := by
  induction ids generalizing new with
  | nil => simpa using hlen
  | cons id ids ih =>
    obtain ⟨hnotin, hnd⟩ := nodup_cons.mp hnd
    cases new with
    | nil => simp at hlen
    | cons first new =>
      have hfirst : first = id := by
        rcases mem_cons.mp (h id mem_cons_self) with heq | hmem
        · exact (Prod.mk.inj heq).2.symm
        · exact absurd (of_mem_zip hmem).1 hnotin
      have htail : new = ids := by
        refine ih hnd (by simpa using hlen) fun other hother => ?_
        rcases mem_cons.mp (h other (mem_cons_of_mem _ hother)) with heq | hmem
        · exact absurd ((Prod.mk.inj heq).1 ▸ hother) hnotin
        · exact hmem
      rw [hfirst, htail]

/-- Rooms that are all found again under their ids came out of the merge with them. -/
theorem keepsIds_of_restored {before backup : StoredBundle} (hne : before.bundle.locations ≠ [])
    (hnames : ∀ e ∈ backup.bundle.locations, e.name = e.storageId) {now : Int} (hnow : 0 < now)
    (h : Restored backup before (importResolved now before
      { parsed := ⟨backup.bundle, .restore⟩ })) :
    KeepsIds before.storageIds
      (backup.storageIds.filter fun id => !before.storageIds.contains id) := by
  have hlocations : (importResolved now before
      { parsed := ⟨backup.bundle, .restore⟩ }).bundle.locations =
      restoredLocations before (stampedEntries now backup) := by
    rw [importResolved_backup]
    exact save_restore_locations hne (stored_stamped backup)
  have hids := storageIds_stamped hnow backup
  have hnd : backup.storageIds.Nodup := backup.nodup
  set absent := missing before.storageIds (stampedEntries now backup) with habsent
  have habsentIds : absent.map storageId =
      backup.storageIds.filter fun id => !before.storageIds.contains id := by
    rw [habsent, missing_storageIds, hids]
  rw [← uniqueStorageIds_eq_self_iff (hnd.filter _) fun id hid => by
    simpa using (mem_filter.mp hid).2, ← habsentIds]
  refine eq_of_zip_diagonal ?_ (length_uniqueStorageIds _ _) fun id hid => ?_
  · rw [habsentIds]
    exact hnd.filter _
  rw [habsentIds, mem_filter] at hid
  obtain ⟨e, he, rfl⟩ := mem_map.mp hid.1
  obtain ⟨s, hs, hsame⟩ := h.entries e he
  have hsid := storageId_of_unstamped hsame
  have hsname := name_of_unstamped hsame
  rw [hlocations] at hs
  rcases mem_append.mp hs with hs | hs
  · obtain ⟨c, hc, rfl⟩ := mem_map.mp hs
    rw [replaced_storageId] at hsid
    have hold : e.storageId ∈ before.storageIds := hsid ▸ mem_map_of_mem hc
    simp [hold] at hid
  · -- the entry was appended: its name tells which one it was
    rw [reassignIds, ← map_uncurry_zip_eq_zipWith] at hs
    obtain ⟨⟨origin, new⟩, hpair, rfl⟩ := mem_map.mp hs
    have horigin : origin.storageId = e.storageId := by
      have hmem : origin ∈ stampedEntries now backup := (mem_filter.mp (of_mem_zip hpair).1).1
      obtain ⟨raw, hraw, rfl⟩ := mem_map.mp hmem
      have hunstamped := stampImported_unstamped (backup.stored hraw) hnow none
      calc (raw.stampImported now none).storageId
          = raw.storageId := storageId_of_unstamped hunstamped
        _ = raw.name := (hnames raw hraw).symm
        _ = (raw.stampImported now none).name := (name_of_unstamped hunstamped).symm
        _ = e.name := hsname
        _ = e.storageId := hnames e he
    have hnew : new = e.storageId := hsid
    have hmapped := mem_map_of_mem (f := Prod.map storageId id) hpair
    rw [← zip_map_left] at hmapped
    simpa [horigin, hnew] using hmapped

/-- Restoring a backup is faithful, and doing it twice changes nothing but times, for all backups
    with given ids exactly if the store is empty or each id it lacks comes out of `uniqueStorageId`
    as it went in.  A text with a panel's refusal in it is never restored. -/
theorem restore_faithful_iff (before sample : StoredBundle) :
    (∀ backup : StoredBundle, backup.storageIds = sample.storageIds →
      ∀ (I : Importer) (text : String), ExportedText I backup text → ∀ now later : Int,
        0 < now → 0 < later →
        (RestoresTwice I text backup before now later ↔ I.isUnsupportedClientStub text = false)) ↔
      Restorable before sample.storageIds := by
  constructor
  · intro hall
    by_cases hne : before.bundle.locations = []
    · exact .inl hne
    · refine .inr ?_
      have hids : ∀ id ∈ sample.storageIds, trim id = id ∧ isNotBlank id = true := by
        intro id hid
        obtain ⟨e, he, rfl⟩ := mem_map.mp hid
        exact ⟨(sample.stored he).trim_id, (sample.stored he).named⟩
      let backup : StoredBundle :=
        ⟨roomBackup sample.storageIds, roomBackup_normalized hids sample.nodup⟩
      have hsame : backup.storageIds = sample.storageIds := storageIds_rooms hids
      have htext := exportedText_backupImporter backup writtenEntry (fun _ => rfl)
        (show ("\x7b\x7d" : String).toList.head? = some '{' by decide) (by decide) (by decide)
      obtain ⟨once, -, honce, hrestored, -, -⟩ := (hall backup hsame _ _ htext 1 1 (by decide)
        (by decide)).mpr rfl
      have hstub : (backupImporter backup.bundle writtenEntry "\x7b\x7d").isUnsupportedClientStub
          "\x7b\x7d" = false := rfl
      rw [htext.importText_eq, hstub] at honce
      obtain rfl := Option.some.inj honce
      rw [← hsame]
      refine keepsIds_of_restored hne (fun e he => ?_) (by decide) hrestored
      obtain ⟨id, -, rfl⟩ := mem_map.mp he
      exact namedRoom_name id
  · intro hrestorable backup hsame I text htext now later hnow hlater
    rw [← hsame] at hrestorable
    cases hstub : I.isUnsupportedClientStub text with
    | true =>
      refine iff_of_false ?_ (by decide)
      rintro ⟨once, -, honce, -⟩
      rw [htext.importText_eq, hstub] at honce
      simp at honce
    | false =>
      refine iff_of_true ⟨_, _, by rw [htext.importText_eq, hstub]; rfl,
        restored_once hnow backup before hrestorable, by rw [htext.importText_eq, hstub]; rfl,
        restored_twice hnow backup before hrestorable hlater⟩ rfl

/-- The backup of a room whose id the app made itself: the second of its name, 34 characters. -/
def secondRoom : StoredBundle :=
  (roomBackup ["imported_amsterdam_netherlands_a_2"]).save

/-- Its text. -/
@[irreducible] def secondRoomText : String :=
  "\x7b\"version\": 5, \"active_location_id\": \"imported_amsterdam_netherlands_a_2\"," ++
  " \"locations\": [\x7b\"storage_id\": \"imported_amsterdam_netherlands_a_2\"," ++
  " \"name\": \"imported_amsterdam_netherlands_a_2\"," ++
  " \"endpoint\": \x7b\"room_id\": \"r\", \"key\": \"k\"\x7d\x7d]\x7d"

theorem secondRoomText_exported :
    ExportedText (backupImporter secondRoom.bundle writtenEntry secondRoomText) secondRoom
      secondRoomText := by
  -- the characters of a literal are there without running `toList`
  have htext : ∃ l, secondRoomText.toList = l ∧ l.head? = some '{' ∧ l.getLast? = some '}' ∧
      '/' ∉ l := by
    simp only [secondRoomText, String.toList_append]
    rw [String.toList_ofList, String.toList_ofList, String.toList_ofList, String.toList_ofList]
    exact ⟨_, rfl, rfl, rfl, by decide⟩
  obtain ⟨l, rfl, hopens, hcloses, hslash⟩ := htext
  exact exportedText_backupImporter secondRoom writtenEntry (fun _ => rfl) hopens hcloses hslash

/-- RESTORING IT INTO A STORE WITHOUT THE FIRST ONE cuts the id, and restoring it again adds the
    room a second time; so does every importer that reads the text back. -/
theorem second_room_is_doubled :
    (∃ I, ExportedText I secondRoom secondRoomText ∧
      I.isUnsupportedClientStub secondRoomText = false) ∧
    ∀ I text, ExportedText I secondRoom text → I.isUnsupportedClientStub text = false →
      ∃ once twice, importText I 1 homeStore text = some once ∧
        ¬ Restored secondRoom homeStore once ∧ importText I 2 once text = some twice ∧
        once.storageIds = ["home", "imported_amsterdam_netherlands_a"] ∧
        twice.storageIds = ["home", "imported_amsterdam_netherlands_a",
          "imported_amsterdam_netherlands_a_2"] := by
  refine ⟨⟨_, secondRoomText_exported, rfl⟩, fun I text htext hstub => ?_⟩
  have honce : (importResolved 1 homeStore { parsed := ⟨secondRoom.bundle, .restore⟩ }).storageIds =
      ["home", "imported_amsterdam_netherlands_a"] := by decide +kernel
  refine ⟨_, _, by rw [htext.importText_eq, hstub]; rfl, ?_,
    by rw [htext.importText_eq, hstub]; rfl, honce, by decide +kernel⟩
  intro hrestored
  have hid : "imported_amsterdam_netherlands_a_2" ∈ secondRoom.storageIds := by decide
  obtain ⟨e, he, heq⟩ := mem_map.mp hid
  obtain ⟨s, hs, hsame⟩ := hrestored.entries e he
  have hmem : s.storageId ∈ StoredBundle.storageIds _ := mem_map_of_mem hs
  rw [honce, storageId_of_unstamped hsame, heq] at hmem
  exact absurd hmem (by decide)

end OlcVpn.Locations
