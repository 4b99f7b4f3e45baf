/-
  SAVING ONE LOCATION and loading it back.

  `saveLocation` writes a location over the entry with its id, or behind all others, and the whole
  bundle goes through the save once more.  A location is normalized on the way in, flattened into
  the fields of an entry, and built again from these by `LocationEntry.location`; an entry that
  cannot be stored would be dropped.

  THE CRUX is that normalizing takes nothing away that makes a location storable
  (`isStorable_normalized`), engine by engine.  What does not come back are the VP8 options of a
  location with another transport: they go with it (`LocationConfig.stored`).
-/
import OlcVpn.Kotlin.Lines
import OlcVpn.Locations.StorageId

namespace OlcVpn.Locations

open Kotlin List
open Function (comp_def)
open LocationEntry (metadata ofLocation storageId subscriptionUrl)

/-- The list with an entry written: in place, so that editing does not reorder it, or at the end. -/
def putEntry (locations : List LocationEntry) (entry : LocationEntry) : List LocationEntry :=
  if locations.any (·.storageId = entry.storageId) then
    locations.map fun e => if e.storageId = entry.storageId then entry else e
  else locations ++ [entry]

/-- `saveLocation(storageId, location)`. -/
def saveLocation (storageId : String) (location : LocationConfig) (current : StoredBundle) :
    StoredBundle :=
  let normalizedId := ifBlank storageId location.storageSlug
  let bundle := current.bundle
  let found := bundle.locations.find? (·.storageId = normalizedId)
  let entry := ofLocation normalizedId location (found.bind subscriptionUrl)
    (found.bind metadata)
  LocationBundle.save
    { activeLocationId := some entry.storageId, locations := putEntry bundle.locations entry }

/-- `loadLocation(storageId)`. -/
def loadLocation (storageId : String) (current : StoredBundle) : Option LocationConfig :=
  (current.bundle.locations.find? (·.storageId = storageId)).map LocationEntry.location

/-! ## Normalizing keeps a location storable -/

/-- What `isHexKey` asks of each character. -/
def isHexKeyChar (c : Char) : Bool := c.isDigit || ('a' ≤ c && c ≤ 'f') || ('A' ≤ c && c ≤ 'F')

theorem isHexKey_iff {key : String} :
    isHexKey key = true ↔ key.toList.length = 64 ∧ ∀ c ∈ key.toList, isHexKeyChar c = true := by
  rw [isHexKey, Bool.and_eq_true, decide_eq_true_eq, all_eq_true]
  rfl

theorem hexKey_table :
    ∀ n < 103, isHexKeyChar (Char.ofNat n) = true → isWhitespace (Char.ofNat n) = false ∧
    lowercaseChar (Char.ofNat n) = [(Char.ofNat n).toLower] ∧
      isHexKeyChar (Char.ofNat n).toLower = true := by
  decide

theorem isHexKeyChar_spec {c : Char} (h : isHexKeyChar c = true) : isWhitespace c = false ∧
    lowercaseChar c = [c.toLower] ∧ isHexKeyChar c.toLower = true := by
  have hsmall : c.toNat < 103 := by
    have hc := h
    simp only [isHexKeyChar, Char.isDigit, Bool.or_eq_true, Bool.and_eq_true, decide_eq_true_eq,
      Char.le_def,
      UInt32.le_iff_toNat_le] at hc
    simp at hc
    have hval : c.toNat = c.val.toNat := rfl
    omega
  have htable := hexKey_table c.toNat hsmall
  rw [Char.ofNat_toNat] at htable
  exact htable h

/-- A key of 64 hexadecimal digits is one in lower case, too. -/
theorem isHexKey_lowercase {key : String} (h : isHexKey key = true) :
    isHexKey (lowercase (trim key)) = true := by
  obtain ⟨hlength, hhex⟩ := isHexKey_iff.mp h
  have hlower : key.toList.flatMap lowercaseChar = key.toList.map Char.toLower := by
    rw [map_eq_flatMap]
    exact flatMap_congr fun c hc => (isHexKeyChar_spec (hhex c hc)).2.1
  have hsolid : Trimmed key := trimmed_of_solid fun c hc => (isHexKeyChar_spec (hhex c hc)).1
  rw [trim_of_trimmed hsolid, isHexKey_iff, lowercase, String.toList_ofList, hlower, length_map]
  refine ⟨hlength, fun d hd => ?_⟩
  obtain ⟨c, hc, rfl⟩ := mem_map.mp hd
  exact (isHexKeyChar_spec (hhex c hc)).2.2

/-- The three sections that are normalized themselves stay complete. -/
theorem isComplete_normalized :
    (∀ d : MasterDnsConfig, d.isComplete = true → d.normalized.isComplete = true) ∧
    (∀ o : OpenFluxConfig, o.isComplete = true → o.normalized.isComplete = true) ∧
    ∀ s : SnolcConfig, s.isComplete = true → s.normalized.isComplete = true := by
  refine ⟨fun d h => ?_, fun o h => ?_, fun s h => ?_⟩
  · have hkey : isNotBlank d.normalized.encryptionKey = isNotBlank d.encryptionKey :=
      isNotBlank_trim _
    rw [MasterDnsConfig.isComplete, d.domainList_normalized, d.resolverList_normalized, hkey]
    exact h
  · -- an unknown transport becomes one that needs the same field
    by_cases hmax : o.transport = "oneme"
    · simpa [OpenFluxConfig.isComplete, OpenFluxConfig.normalized, OpenFluxConfig.transports, hmax,
        isNotBlank_trim] using h
    · have hother : o.normalized.transport ≠ "oneme" := by
        simp only [OpenFluxConfig.normalized]
        split_ifs
        · exact hmax
        · decide
      rw [OpenFluxConfig.isComplete, if_neg hmax] at h
      rw [OpenFluxConfig.isComplete, if_neg hother]
      simpa [OpenFluxConfig.normalized] using h
  · simp only [SnolcConfig.isComplete, Bool.and_eq_true] at h ⊢
    exact ⟨⟨(isNotBlank_trim _).trans h.1.1, h.1.2⟩, isHexKey_lowercase h.2⟩

/-- What makes a location storable survives the normalization, whatever its engine is. -/
theorem LocationConfig.isStorable_normalized {c : LocationConfig} (h : c.isStorable = true) :
    c.normalized.isStorable = true := by
  have hsection : ∀ {α : Type} {f : α → α} {complete : α → Bool} {o : Option α},
      (∀ a, complete a = true → complete (f a) = true) → o.any complete = true →
        (o.map f).any complete = true := by
    intro α f complete o hf ho
    cases o with
    | none => simp at ho
    | some a => simpa using hf a (by simpa using ho)
  have hengine : c.normalized.engine = c.engine := rfl
  have hexit : c.normalized.vkTurnExitPresent = c.vkTurnExitPresent := rfl
  unfold isStorable at h ⊢
  rw [hengine, hexit]
  cases he : c.engine with
  | stealth | chain => simpa [he, isNotBlank_trim] using h
  | standard | vkTurn => simpa [he] using h
  | masterDns => exact hsection isComplete_normalized.1 (by simpa [he] using h)
  | openFlux => exact hsection isComplete_normalized.2.1 (by simpa [he] using h)
  | snolc => exact hsection isComplete_normalized.2.2 (by simpa [he] using h)

/-! ## What is loaded -/

/-- What is written is found, and nothing else is touched. -/
theorem putEntry_spec {l : List LocationEntry} (entry : LocationEntry)
    (hnd : (l.map storageId).Nodup) :
    (putEntry l entry).find? (·.storageId = entry.storageId) = some entry ∧
      (putEntry l entry).filter (·.storageId ≠ entry.storageId) =
        l.filter (·.storageId ≠ entry.storageId) ∧
      ((putEntry l entry).map storageId).Nodup ∧ ∀ e ∈ putEntry l entry, e = entry ∨ e ∈ l := by
  rw [putEntry]
  split_ifs with hany
  · -- replacing keeps every id
    have hid : ∀ e : LocationEntry, (if e.storageId = entry.storageId then entry else e).storageId =
        e.storageId := by
      intro e
      split_ifs with he
      · exact he.symm
      · rfl
    obtain ⟨x, hx⟩ : ∃ x, l.find? (·.storageId = entry.storageId) = some x := by
      rwa [← Option.isSome_iff_exists, find?_isSome, ← any_eq_true]
    refine ⟨?_, ?_, ?_, fun e he => ?_⟩
    · rw [find?_map]
      simp only [comp_def, hid, hx, Option.map_some]
      rw [if_pos (by simpa using find?_some hx)]
    · rw [filter_map]
      simp only [comp_def, hid]
      refine (map_congr_left fun e he => if_neg ?_).trans (map_id _)
      simpa using (mem_filter.mp he).2
    · rw [map_map]
      simpa only [comp_def, hid] using hnd
    · obtain ⟨old, hold, rfl⟩ := mem_map.mp he
      split_ifs
      · exact .inl rfl
      · exact .inr hold
  · have hnew : ∀ e ∈ l, e.storageId ≠ entry.storageId := by simpa using hany
    refine ⟨?_, ?_, ?_, fun e he => ?_⟩
    · rw [find?_append, find?_eq_none.mpr (by simpa using hnew)]
      simp
    · rw [filter_append]
      simp
    · rw [map_append, nodup_append]
      refine ⟨hnd, nodup_singleton _, fun a ha b hb => ?_⟩
      obtain ⟨e, he, rfl⟩ := mem_map.mp ha
      rw [map_singleton, mem_singleton] at hb
      exact hb ▸ hnew e he
    · rcases mem_append.mp he with he | he
      · exact .inr he
      · exact .inl (mem_singleton.mp he)

section Saved

variable {id : String} (hid : isNotBlank id = true) (htrim : trim id = id) {c : LocationConfig}
  (hc : c.isStorable = true) (url : Option String) (metadata : Option LocationMetadata)
include hid htrim hc

/-- The entry that is written: stored as it is, and it stands for the location. -/
theorem ofLocation_spec : (ofLocation id c url metadata).Stored ∧
    (ofLocation id c url metadata).storageId = id ∧
    (ofLocation id c url metadata).location = c.normalized.stored := by
  have hstorageId : (ofLocation id c url metadata).storageId = id := htrim
  have hlocation : (ofLocation id c url metadata).location = c.normalized.stored := by
    rw [ofLocation, LocationEntry.location_normalized,
      LocationEntry.ofConfig_location c.normalized_normalized]
    generalize c.normalized = d
    by_cases hvp8 : d.transport = "vp8channel" <;> simp [LocationConfig.stored, hvp8]
  refine ⟨⟨LocationEntry.normalized_normalized _, by rw [hstorageId]; exact hid, ?_⟩,
    hstorageId, hlocation⟩
  rw [hlocation, LocationConfig.stored_isStorable]
  exact LocationConfig.isStorable_normalized hc

/-- A LOCATION IS LOADED AS IT WAS SAVED, its VP8 options only if they are its transport's, and the
    other entries stay as they are. -/
theorem loadLocation_saveLocation (current : StoredBundle) :
    loadLocation id (saveLocation id c current) = some c.normalized.stored ∧
      (saveLocation id c current).bundle.locations.filter (·.storageId ≠ id) =
        current.bundle.locations.filter (·.storageId ≠ id) := by
  have hslug : ifBlank id c.storageSlug = id := ifBlank_eq_self hid
  rw [loadLocation, saveLocation, hslug]
  generalize (current.bundle.locations.find? (·.storageId = id)).bind subscriptionUrl = url
  generalize (current.bundle.locations.find? (·.storageId = id)).bind metadata = metadata
  obtain ⟨hstored, hown, hlocation⟩ := ofLocation_spec hid htrim hc url metadata
  generalize ofLocation id c url metadata = entry at *
  obtain ⟨hfind, hfilter, hnd, hmem⟩ := putEntry_spec entry current.nodup
  have hsave : ∀ active, (LocationBundle.save ⟨active,
      putEntry current.bundle.locations entry⟩).bundle.locations =
      putEntry current.bundle.locations entry := by
    intro active
    rw [LocationBundle.save, LocationBundle.locations_normalized, distinctBy_eq_self hnd]
    intro e he
    rcases hmem e he with rfl | he
    · exact hstored
    · exact current.stored he
  rw [hsave, ← hown, hfind, Option.map_some, hlocation]
  exact ⟨rfl, hfilter⟩

end Saved

/-- A chain over two rooms on a data channel, cascaded and bonded, with a frame rate of its own. -/
def channelRoom : LocationConfig :=
  { name := "home", id := "r", key := "k", transport := "datachannel", vp8Fps := 30
    engine := .chain
    proxy := some { server := "198.51.100.1", serverPort := 443, uuid := "0b1c" }
    proxy2 := some { type := "trojan", server := "203.0.113.7", serverPort := 443 }
    core := .xray
    advanced := some { muxEnabled := true }
    fakeDns := some {}
    multiRoomEnabled := true
    extraRooms := [{ provider := "jazz", room := "s", key := "l" }]
    multiRoomBond := true
    bondPort := 7000 }

/-- A store with nothing in it. -/
def emptyStore : StoredBundle := ⟨{}, rfl⟩

theorem channelRoom_loaded :
    loadLocation "home" (saveLocation "home" channelRoom emptyStore) =
      some channelRoom.normalized.stored :=
  (loadLocation_saveLocation (by decide) (by decide) (by decide) emptyStore).1

/-- Its frame rate is not stored. -/
theorem frameRate_not_stored : channelRoom.isStorable = true ∧
    (loadLocation "home" (saveLocation "home" channelRoom emptyStore)).map LocationConfig.vp8Fps =
      some 60 ∧
    channelRoom.normalized.vp8Fps = 30 := by
  decide +kernel

end OlcVpn.Locations
