/-
  HOW THE CORE READS A LIST OF SELECTORS, of names and of addresses.

  A selector of addresses is a range, or a category of a geo file.  Marks `!` in front of it, or of
  the code of its category, turn it round.  The core does not match the texts of a list one by one.
  It sorts them into FOUR sets: ranges and categories, as they are and turned round; an address
  meets the list if it meets one of the four.  A set that is turned round is met by the addresses
  outside ALL of its members, and so to take a member away ADDS addresses to it.

  ** What is here **

  - `parseIPRule`, `geoSiteRule`: what a text is to the core, and whether it needs a geo file.
  - `IpMatch`: the four sets.
  - `CategoriesKept`: what a shorter list may leave out.  With it no address is added, whatever the
    categories hold (`IpMatch.mono`); without it some address is (`exists_added`).
-/
import OlcVpn.Kotlin.Text
import Mathlib.Data.Set.Insert

namespace OlcVpn.Xray

open Kotlin List
open String (ofList)

/-! ## Addresses -/

inductive Address where
  | v4 (bits : BitVec 32)
  | v6 (bits : BitVec 128)
  deriving DecidableEq

namespace Address

def isV4 : Address → Bool
  | v4 _ => true
  | v6 _ => false

/-- No family has just one address. -/
theorem exists_other (a : Address) : ∃ b : Address, b.isV4 = a.isV4 ∧ b ≠ a := by
  cases a with
  | v4 bits => exact ⟨v4 (~~~bits), rfl, by simp⟩
  | v6 bits => exact ⟨v6 (~~~bits), rfl, by simp⟩

end Address

/-! ## What a text is to the core -/

/-- `cutReversePrefix`: each mark turns the selector round once more. -/
def cutReversePrefix (text : String) : String × Bool :=
  (ofList (text.toList.dropWhile (· = '!')),
    (text.toList.takeWhile (· = '!')).length % 2 == 1)

/-- What follows the first of some words that the text starts with. -/
def afterWord (words : List String) (text : String) : Option String :=
  (words.find? (startsWith text)).map fun word => ofList (text.toList.drop word.length)

/-- A category by `file:code`.  The short form stands for the default file. -/
def geoRule (short file : String) (words : List String) (text : String) : Option String :=
  match afterWord [short] text with
  | some code => some (file ++ ":" ++ code)
  | none => afterWord words text

def geoIPRule : String → Option String :=
  geoRule "geoip:" "geoip.dat" ["ext:", "ext-ip:"]

def geoSiteRule : String → Option String :=
  geoRule "geosite:" "geosite.dat" ["ext:", "ext-domain:", "ext-site:"]

structure Category where
  file : String
  code : String
  deriving DecidableEq

inductive IPRule where
  | custom (cidr : String) (reverse : Bool)
  | geoip (category : Category) (reverse : Bool)
  deriving DecidableEq

/-- `parseGeoIPRule`, which refuses a rule without a file or without a code. -/
def parseGeoIPRule (rule : String) (reverse : Bool) : Option IPRule := do
  let (file, code) ← cutAt [':'] rule.toList
  let (code, codeReverse) := cutReversePrefix (ofList code)
  guard (file ≠ [] ∧ code ≠ "")
  some (.geoip ⟨ofList file, ofList (code.toList.map Char.toUpper)⟩ (reverse != codeReverse))

/-- One turn of `ParseIPRules`. -/
def parseIPRule (text : String) : Option IPRule :=
  let cut := cutReversePrefix text
  match geoIPRule cut.1 with
  | some rule => parseGeoIPRule rule cut.2
  | none => some (.custom cut.1 cut.2)

/-- A selector that is looked up in a geo file. -/
inductive Selector where
  | site (text : String)
  | range (text : String)

def Selector.needsFile : Selector → Bool
  | site text => (geoSiteRule text).isSome
  | range text => (geoIPRule (cutReversePrefix text).1).isSome

theorem isSome_afterWord (words : List String) (text : String) :
    (afterWord words text).isSome = words.any (startsWith text) := by
  rw [afterWord, Option.isSome_map, Bool.eq_iff_iff, find?_isSome, any_eq_true]

theorem needsFile_site (text : String) : (Selector.site text).needsFile =
    ["geosite:", "ext:", "ext-domain:", "ext-site:"].any (startsWith text) := by
  rw [any_cons, ← isSome_afterWord, Selector.needsFile, geoSiteRule, geoRule]
  cases hshort : afterWord ["geosite:"] text with
  | none =>
    have hno : startsWith text "geosite:" = false := by
      simpa [hshort] using (isSome_afterWord ["geosite:"] text).symm
    rw [hno, Bool.false_or]
  | some code =>
    have hyes : startsWith text "geosite:" = true := by
      simpa [hshort] using (isSome_afterWord ["geosite:"] text).symm
    rw [hyes, Bool.true_or]
    rfl

/-! ## The four sets -/

def IPRule.cidrWhen (reverse : Bool) : IPRule → Option String
  | custom cidr r => if r = reverse then some cidr else none
  | geoip _ _ => none

def IPRule.categoryWhen (reverse : Bool) : IPRule → Option Category
  | custom _ _ => none
  | geoip category r => if r = reverse then some category else none

variable (reverse : Bool) (texts : List String)

/-- The ranges of a list, and its categories: as they are, or turned round.  A text the core cannot
    read is neither. -/
def customs : List String :=
  (texts.filterMap parseIPRule).filterMap (IPRule.cidrWhen reverse)

def categories : List Category :=
  (texts.filterMap parseIPRule).filterMap (IPRule.categoryWhen reverse)

/-- How the selectors are read that need no geo file. -/
structure PlainReading where
  site : String → String → Prop
  range : String → Set Address

/-- What the geo files hold. -/
structure GeoFiles where
  site : String → String → Prop
  range : Category → Set Address

variable (plain : PlainReading) (geo : GeoFiles)

def customSet : Set Address := {a | ∃ cidr ∈ customs reverse texts, a ∈ plain.range cidr}

def categorySet : Set Address := {a | ∃ category ∈ categories reverse texts, a ∈ geo.range category}

/-- A set that is turned round, and has an entry of the family of the address: `matchAddr`. -/
def Outside (s : Set Address) (a : Address) : Prop := (∃ b ∈ s, b.isV4 = a.isV4) ∧ a ∉ s

def PlainMatch (a : Address) : Prop :=
  a ∈ customSet false texts plain ∨ Outside (customSet true texts plain) a

def CategoryMatch (a : Address) : Prop :=
  a ∈ categorySet false texts geo ∨ Outside (categorySet true texts geo) a

/-- The matcher of `buildOptimizedIPMatcher`. -/
def IpMatch (a : Address) : Prop := PlainMatch texts plain a ∨ CategoryMatch texts geo a

/-! ## A shorter list -/

/-- The categories that are turned round may go all together; or those that go stay in another text,
    or are also named as they are; or the ranges hold every address by themselves. -/
def CategoriesKept (left : List String) : Prop :=
  categories true left = [] ∨
    (∀ category ∈ categories true texts,
      category ∈ categories true left ∨ category ∈ categories false texts) ∨
    ∀ a, PlainMatch texts plain a

variable {reverse texts} {plain} {geo} {left : List String} {a : Address}

theorem customs_subset (h : left ⊆ texts) : customs reverse left ⊆ customs reverse texts :=
  filterMap_subset _ (filterMap_subset _ h)

theorem categories_subset (h : left ⊆ texts) : categories reverse left ⊆ categories reverse texts :=
  filterMap_subset _ (filterMap_subset _ h)

theorem customSet_mono (h : customs reverse left ⊆ customs reverse texts) :
    customSet reverse left plain ⊆ customSet reverse texts plain :=
  fun _ ⟨cidr, hmem, ha⟩ => ⟨cidr, h hmem, ha⟩

theorem categorySet_mono (h : categories reverse left ⊆ categories reverse texts) :
    categorySet reverse left geo ⊆ categorySet reverse texts geo :=
  fun _ ⟨category, hmem, ha⟩ => ⟨category, h hmem, ha⟩

/-- A text without a mark in front is no reversed range. -/
theorem cidrWhen_of_unmarked {text : String} (h : (cutReversePrefix text).2 = false) :
    (parseIPRule text).bind (IPRule.cidrWhen true) = none := by
  simp only [parseIPRule, h]
  cases geoIPRule (cutReversePrefix text).1 with
  | none => rfl
  | some rule =>
    refine Option.bind_eq_none_iff.mpr fun parsed hparsed => ?_
    obtain ⟨cut, -, hparsed⟩ := Option.bind_eq_some_iff.mp hparsed
    obtain ⟨-, -, hparsed⟩ := Option.bind_eq_some_iff.mp hparsed
    obtain rfl := Option.some.inj hparsed
    rfl

theorem PlainMatch.mono (h : left ⊆ texts) (hreversed : customs true left = customs true texts)
    (ha : PlainMatch left plain a) : PlainMatch texts plain a := by
  refine ha.imp (fun hin => customSet_mono (customs_subset h) hin) fun hout => ?_
  rwa [customSet, ← hreversed]

/-- Nothing is added under the condition, whatever the categories hold. -/
theorem IpMatch.mono (h : left ⊆ texts) (hreversed : customs true left = customs true texts)
    (hkept : CategoriesKept texts plain left) (ha : IpMatch left plain geo a) :
    IpMatch texts plain geo a := by
  rcases ha with hplain | hin | ⟨⟨b, hb, hfamily⟩, hout⟩
  · exact .inl (hplain.mono h hreversed)
  · exact .inr (.inl (categorySet_mono (categories_subset h) hin))
  · -- outside all the categories that are left and turned round
    rcases hkept with hnone | hsame | hall
    · obtain ⟨category, hmem, -⟩ := hb
      rw [hnone] at hmem
      cases hmem
    · by_cases hin : a ∈ categorySet true texts geo
      · obtain ⟨category, hmem, ha⟩ := hin
        rcases hsame category hmem with hstays | hnamed
        · exact absurd ⟨category, hstays, ha⟩ hout
        · exact .inr (.inl ⟨category, hnamed, ha⟩)
      · exact .inr (.inr ⟨⟨b, categorySet_mono (categories_subset h) hb, hfamily⟩, hin⟩)
    · exact .inl (hall a)

/-- Geo files in which one category holds one address and another one holds another. -/
def twoEntries (lost kept : Category) (a b : Address) (category : Category) : Set Address :=
  if category = lost then {a} else if category = kept then {b} else ∅

theorem mem_twoEntries {lost kept category : Category} {a b : Address} (h : b ≠ a) :
    a ∈ twoEntries lost kept a b category ↔ category = lost := by
  unfold twoEntries
  split_ifs <;> simp_all [eq_comm]

/-- Without the condition some address is added: the one address of a category that was turned
    round, and is gone. -/
theorem exists_added (site : String → String → Prop) (hkept : ¬ CategoriesKept texts plain left) :
    ∃ (geo : GeoFiles) (a : Address), geo.site = site ∧ IpMatch left plain geo a ∧
      ¬ IpMatch texts plain geo a := by
  simp only [CategoriesKept, not_or, not_forall] at hkept
  obtain ⟨hleft, ⟨lost, hlost, hgone, hnamed⟩, a, hplain⟩ := hkept
  obtain ⟨kept, hmem⟩ := exists_mem_of_ne_nil _ hleft
  obtain ⟨b, hfamily, hne⟩ := a.exists_other
  have hsame : kept ≠ lost := fun h => hgone (h ▸ hmem)
  refine ⟨⟨site, twoEntries lost kept a b⟩, a, rfl, .inr (.inr ⟨⟨b, ?_, hfamily⟩, ?_⟩), ?_⟩
  · exact ⟨kept, hmem, by simp [twoEntries, hsame]⟩
  · rintro ⟨category, hcategory, ha⟩
    rw [mem_twoEntries hne] at ha
    exact hgone (ha ▸ hcategory)
  · rintro (h | ⟨category, hcategory, ha⟩ | ⟨-, hout⟩)
    · exact hplain h
    · rw [mem_twoEntries hne] at ha
      exact hnamed (ha ▸ hcategory)
    · exact hout ⟨lost, hlost, (mem_twoEntries hne).mpr rfl⟩

end OlcVpn.Xray
