/-
  STORAGE IDS: the key under which an entry is stored, selected and pinged.

  An imported server gets an id made from its name: `storageSlug` reduces the name to lower-case
  ASCII letters, digits, `_` and `-`, and `uniqueStorageId` appends `_2`, `_3`, … until the id is
  not in use.  An id is a CANDIDATE number `n` of a slug, and the search takes the first free
  candidate.
-/
import OlcVpn.Lib.Fresh
import OlcVpn.Locations.Entry

namespace OlcVpn.Locations

open Kotlin

/-- `[a-z0-9_-]`. -/
def isSlugChar (c : Char) : Bool :=
  c.isLower || c.isDigit || c = '_' || c = '-'

/-- `replace(Regex("[^a-z0-9_-]+"), "_")`, with whether the last character was replaced. -/
def replaceRuns (inRun : Bool) : List Char → List Char
  | [] => []
  | c :: rest =>
    if isSlugChar c then c :: replaceRuns false rest
    else if inRun then replaceRuns true rest
    else '_' :: replaceRuns true rest

/-- `String.storageSlug()`. -/
def storageSlug (s : String) : String :=
  ifBlank
    (take (trimWhere (· = '_') (String.ofList (replaceRuns false (lowercase s).toList))) 32)
    "location"

/-- `LocationConfig.storageSlug()`. -/
def LocationConfig.storageSlug (c : LocationConfig) : String :=
  Locations.storageSlug (ifBlank c.displayName c.id)

/-- The ids the search for a free one goes through: `base`, `base_2`, `base_3`, … -/
def candidate (base : String) : Nat → String
  | 0 => base
  | n + 1 => base ++ "_" ++ toString (n + 2)

/-- `uniqueStorageId(base, used)`; the caller adds the result to `used`. -/
def uniqueStorageId (base : String) (used : List String) : String :=
  Fresh.pick (candidate (storageSlug base)) used

/-- The base of an imported server's id. -/
def importedBase (slug : String) (index : Nat) : String :=
  "imported_" ++ ifBlank slug ("location_" ++ toString (index + 1))

variable (base : String)

/-- A suffix makes a candidate longer than its base. -/
theorem length_lt_candidate (n : Nat) : base.length < (candidate base (n + 1)).length := by
  have hsep : "_".length = 1 := by decide
  simp only [candidate, String.length_append, hsep]
  omega

/-- So there are enough candidates for the search to end. -/
theorem candidate_injective : Function.Injective (candidate base) := by
  intro i j h
  cases i with
  | zero =>
    cases j with
    | zero => rfl
    | succ j =>
      have hlt := length_lt_candidate base j
      rw [← h] at hlt
      exact absurd hlt (Nat.lt_irrefl _)
  | succ i =>
    cases j with
    | zero =>
      have hlt := length_lt_candidate base i
      rw [h] at hlt
      exact absurd hlt (Nat.lt_irrefl _)
    | succ j =>
      have hnum : toString (i + 2) = toString (j + 2) := (String.append_right_inj _).mp h
      have := eq_of_toString_eq hnum
      omega

/-- THE ID IS NEW beside every used one. -/
theorem uniqueStorageId_not_mem (used : List String) : uniqueStorageId base used ∉ used :=
  Fresh.pick_not_mem (candidate_injective _) used

/-! ## What ids look like -/

/-- A text of slug characters, and not empty. -/
structure IsSlug (s : String) : Prop where
  chars : ∀ c ∈ s.toList, isSlugChar c = true
  nonempty : s ≠ ""

theorem isWhitespace_of_slugChar {c : Char} (h : isSlugChar c = true) : isWhitespace c = false := by
  have hrange : 0x21 ≤ c.toNat ∧ c.toNat < 0x7b := by
    have hlower : c.isLower = (decide (97 ≤ c.toNat) && decide (c.toNat ≤ 122)) := rfl
    have hdigit : c.isDigit = (decide (48 ≤ c.toNat) && decide (c.toNat ≤ 57)) := rfl
    simp only [isSlugChar, hlower, hdigit, Bool.or_eq_true, Bool.and_eq_true, decide_eq_true_eq]
      at h
    rcases h with ((h | h) | rfl) | rfl
    · omega
    · omega
    · decide
    · decide
  -- the printable ASCII characters lie between two of the ranges
  have hapart : ∀ range ∈ whitespaceRanges, range.2 < 0x21 ∨ 0x7b ≤ range.1 := by decide
  simp only [isWhitespace, List.any_eq_false, Bool.and_eq_true, decide_eq_true_eq]
  intro range hmem
  have := hapart range hmem
  omega

/-- Every run of other characters has become one underscore. -/
theorem slugChar_of_mem_replaceRuns {inRun : Bool} {l : List Char} {c : Char}
    (h : c ∈ replaceRuns inRun l) : isSlugChar c = true := by
  induction l generalizing inRun with
  | nil => simp [replaceRuns] at h
  | cons d l ih =>
    unfold replaceRuns at h
    split_ifs at h with hd hrun
    · rcases List.mem_cons.mp h with rfl | h
      · exact hd
      · exact ih h
    · exact ih h
    · rcases List.mem_cons.mp h with rfl | h
      · decide
      · exact ih h

theorem isSlug_storageSlug (s : String) : IsSlug (storageSlug s) := by
  unfold storageSlug ifBlank
  split_ifs with hb
  · exact ⟨List.all_eq_true.mp (by decide), by decide⟩
  · constructor
    · intro c hc
      simp only [take, trimWhere, String.toList_ofList] at hc
      have hrun := (List.rdropWhile_prefix _ _).subset (List.mem_of_mem_take hc)
      exact slugChar_of_mem_replaceRuns ((List.dropWhile_sublist _).subset hrun)
    · intro he
      rw [he] at hb
      exact hb rfl

theorem isSlug_candidate {base : String} (h : IsSlug base) (n : Nat) :
    IsSlug (candidate base n) := by
  cases n with
  | zero => exact h
  | succ n =>
    constructor
    · intro c hc
      simp only [candidate, String.toList_append, List.mem_append] at hc
      rcases hc with (hc | hc) | hc
      · exact h.chars c hc
      · obtain rfl : c = '_' := by simpa using hc
        decide
      · simp [isSlugChar, isDigit_of_mem_toString hc]
    · simp [candidate]

/-- An id is made of slug characters, with its suffix. -/
theorem isSlug_uniqueStorageId (used : List String) : IsSlug (uniqueStorageId base used) :=
  isSlug_candidate (isSlug_storageSlug base) _

/-- Nothing of a slug is stripped when it is stored. -/
theorem IsSlug.trim_eq {s : String} (h : IsSlug s) : trim s = s :=
  trim_of_trimmed
    ⟨fun c hc => isWhitespace_of_slugChar (h.chars c (List.mem_of_mem_head? hc)),
     fun c hc => isWhitespace_of_slugChar (h.chars c (List.mem_of_getLast? hc))⟩

theorem IsSlug.isNotBlank {s : String} (h : IsSlug s) : isNotBlank s = true := by
  obtain ⟨c, hc⟩ : ∃ c, c ∈ s.toList := by
    refine List.exists_mem_of_ne_nil _ ?_
    simpa using h.nonempty
  simp only [Kotlin.isNotBlank, isBlank, Bool.not_eq_true', List.all_eq_false]
  exact ⟨c, hc, by simp [isWhitespace_of_slugChar (h.chars c hc)]⟩

/-- A slug is never blank, so the positional fallback is never taken. -/
theorem importedBase_eq (c : LocationConfig) (index : Nat) :
    importedBase c.storageSlug index = "imported_" ++ c.storageSlug := by
  have hblank := (isSlug_storageSlug (ifBlank c.displayName c.id)).isNotBlank
  rw [Kotlin.isNotBlank, Bool.not_eq_true'] at hblank
  rw [importedBase, ifBlank, LocationConfig.storageSlug, hblank]
  simp

/-- The ids a refresh can generate: candidates for a server of some name. -/
def Generated (id : String) : Prop :=
  ∃ name n, trim name = name ∧ id = candidate (storageSlug ("imported_" ++ storageSlug name)) n

/-- Whatever a stored location is called, its generated id has that shape. -/
theorem generated_uniqueStorageId {c : LocationConfig} (h : c.normalized = c) (index : Nat)
    (used : List String) : Generated (uniqueStorageId (importedBase c.storageSlug index) used) := by
  have hname : trim c.name = c.name := congrArg LocationConfig.name h
  have hid : trim c.id = c.id := congrArg LocationConfig.id h
  have htrim : trim (ifBlank c.displayName c.id) = ifBlank c.displayName c.id := by
    unfold LocationConfig.displayName ifBlank
    split_ifs <;> assumption
  rw [importedBase_eq]
  exact ⟨_, _, htrim, rfl⟩

end OlcVpn.Locations
