/-
  REMOVING THE GEO SELECTORS of a configuration the core has no geo files for.

  `stripGeoFromRouting` takes the `geosite:` and `geoip:` texts out of the `domain` and `ip` lists
  of every rule, and drops a rule when no list keeps a text, "so it can't accidentally match-all".

  ** What is here **

  - `stripped_narrows_iff`: a rule that stays matches no more than the rule it was made from.  The
    lists of one rule are CONJUNCTIVE, so that a rule on names and addresses that loses one of the
    two lists, and not the other, matches more.  And the reversed categories of a list are ONE set,
    so that a rule which loses one of them and keeps another matches more as well.
  - `stripped_geoFree_iff`: nothing that is written needs a geo file.  The removal does not look at
    the other lists of a rule and of a DNS server that the core reads, nor at the keys of `hosts`,
    and it knows a category only by a text that STARTS with `geosite:` or `geoip:`.
-/
import OlcVpn.Xray.Cascade
import OlcVpn.Xray.GeoRules
import OlcVpn.Xray.Hosts

namespace OlcVpn.Xray

open Kotlin List Option
open Option (some)

/-! ## The fields of a rule that stays -/

/-- The text names a geo category. -/
def isGeoText (text : String) : Bool :=
  startsWith (lowercase text) "geosite:" || startsWith (lowercase text) "geoip:"

theorem isGeoSelector_eq (item : Json) :
    isGeoSelector item = (primitiveText item).any isGeoText := rfl

/-- What the removal leaves in a list it looks at. -/
def unremoved (texts : List String) : List String := texts.filter fun text => !isGeoText text

/-- Stripping a list, as the core reads lists. -/
theorem stringList_stripGeoArray (items : List Json) : stringList (.array (stripGeoArray items)) =
    unremoved (stringList (.array items)) := by
  rw [unremoved, stringList, stringList, stripGeoArray, filterMap_filter, filter_filterMap]
  refine filterMap_congr fun item _ => ?_
  cases item with
  | literal quoted text => cases quoted <;> simp [isGeoSelector_eq, primitiveText, Option.filter]
  | _ => simp

/-- What is left of a field. -/
def leftField (field : String × Json) : JsonObject := (strippedField field).getD []

theorem leftField_other {name : String} (h : name ∉ ["domain", "ip"]) (value : Json) :
    leftField (name, value) = [(name, value)] := by
  rw [leftField, strippedField, if_neg (by simpa using h)]
  rfl

theorem leftField_list {name : String} (h : name ∈ ["domain", "ip"]) (items : List Json) :
    leftField (name, .array items) =
      fieldIf (!(stripGeoArray items).isEmpty) name (.array (stripGeoArray items)) := by
  rw [leftField, strippedField, if_pos (by simpa using h)]
  rfl

/-- A field keeps its name; a list keeps only texts that are no geo selectors. -/
theorem mem_leftField {field left : String × Json} (h : left ∈ leftField field) :
    left.1 = field.1 ∧ (field.1 ∈ ["domain", "ip"] →
      ∃ items, left.2 = .array (stripGeoArray items)) := by
  obtain ⟨name, value⟩ := field
  by_cases hname : name ∈ ["domain", "ip"]
  · cases value with
    | array items =>
      rw [leftField_list hname, fieldIf] at h
      split_ifs at h
      · obtain rfl := mem_singleton.mp h
        exact ⟨rfl, fun _ => ⟨items, rfl⟩⟩
      · simp at h
    | _ => simp [leftField, strippedField, (by simpa using hname : name = "domain" ∨ name = "ip")]
        at h
  · rw [leftField_other hname] at h
    obtain rfl := mem_singleton.mp h
    exact ⟨rfl, fun h => absurd h hname⟩

/-- What is left of a rule, field by field. -/
theorem flatten_stripped {rule : JsonObject} {fields : List JsonObject}
    (h : rule.mapM strippedField = some fields) : fields.flatten = rule.flatMap leftField ∧
      ∀ field ∈ rule, field.1 ∈ ["domain", "ip"] → ∃ items, field.2 = .array items := by
  have hall := mapM_eq_some_iff.mp h
  clear h
  induction hall with
  | nil => simp
  | @cons field left rule fields hhead _ ih =>
    rw [flatten_cons, flatMap_cons, leftField, hhead, ih.1]
    refine ⟨rfl, forall_mem_cons.mpr ⟨fun hname => ?_, ih.2⟩⟩
    rw [strippedField, if_pos (by simpa using hname)] at hhead
    obtain ⟨items, hitems, -⟩ := map_eq_some_iff.mp hhead
    cases hvalue : field.2 <;> simp_all [jsonArrayOrNull]

/-- Fields that hold no selectors are kept. -/
theorem lookup_left_other {name : String} (hname : name ∉ ["domain", "ip"]) (rule : JsonObject) :
    (rule.flatMap leftField).lookup name = rule.lookup name := by
  rw [JsonObject.lookup_flatMap (fun _ _ h => (mem_leftField h).1) (.inr fun _ _ => by
    rw [leftField_other hname, leftField_other hname, lookup_cons_self, lookup_cons_self]
    rfl)]
  simp [leftField_other hname]

/-! ## A rule that stays matches no more -/

variable (rule : JsonObject)

/-- What a rule asks of a connection.  The three parts are conjunctive; a rule without any is one
    the core refuses. -/
structure Conditions where
  names : List String
  ranges : List String
  other : JsonObject

def conditions : Conditions := ⟨siteList rule, tagsAt rule "ip", otherConditions rule⟩

/-- The names that are left: the core reads `domains` instead of `domain`, and the removal does not
    look at it. -/
def leftSites : List String :=
  match rule.lookup "domains" with
  | none | some .null => unremoved (tagsAt rule "domain")
  | some names => stringList names

def leftConditions : Conditions :=
  ⟨leftSites rule, unremoved (tagsAt rule "ip"), otherConditions rule⟩

section Meaning

variable (plain : PlainReading) (geo : GeoFiles)

/-- A name meets a selector. -/
def SiteMatch (text name : String) : Prop :=
  match geoSiteRule text with
  | some category => geo.site category name
  | none => plain.site text name

/-- The connection meets the conditions; it may have several addresses, and none that is known. -/
def Conditions.Met (conn : HostConn) (addresses : List Address) (c : Conditions) : Prop :=
  (c.names ≠ [] ∨ c.ranges ≠ [] ∨ c.other ≠ []) ∧
    (c.names ≠ [] → ∃ text ∈ c.names, SiteMatch plain geo text conn.domain) ∧
    (c.ranges ≠ [] → ∃ a ∈ addresses, IpMatch c.ranges plain geo a) ∧
    conn.other c.other = true

/-- What is matched is matched by the rule as well, whatever the geo files hold. -/
def Narrows (left rule : JsonObject) : Prop :=
  ∀ geo conn addresses, (conditions left).Met plain geo conn addresses →
    (conditions rule).Met plain geo conn addresses

/-- No connection meets the conditions, whatever the geo files hold. -/
def Conditions.Dead (c : Conditions) : Prop :=
  ∀ geo conn addresses, ¬ c.Met plain geo conn addresses

/-- The list of names stays; or its selectors without a category match every name. -/
def NamesKept (names left : List String) : Prop :=
  names = [] ∨ left ≠ [] ∨
    ∀ name, ∃ text ∈ names, geoSiteRule text = none ∧ plain.site text name

/-- The list of ranges stays, with its reversed categories as far as they matter. -/
def RangesKept (ranges left : List String) : Prop :=
  ranges = [] ∨ left ≠ [] ∧ CategoriesKept ranges plain left

/-- Neither list of the rule is lost; or what is left of it matches nothing. -/
def KeepsConditions (rule : JsonObject) : Prop :=
  (leftConditions rule).Dead plain ∨
    NamesKept plain (siteList rule) (leftSites rule) ∧
      RangesKept plain (tagsAt rule "ip") (unremoved (tagsAt rule "ip"))

end Meaning

/-- A list of a rule that stays. -/
theorem tagsAt_stripped {rule : JsonObject} {name : String} (hname : name ∈ ["domain", "ip"])
    (hnd : (rule.map Prod.fst).Nodup)
    (harrays : ∀ field ∈ rule, field.1 ∈ ["domain", "ip"] → ∃ items, field.2 = .array items) :
    tagsAt (rule.flatMap leftField) name = unremoved (tagsAt rule name) := by
  rw [tagsAt, tagsAt, JsonObject.lookup_flatMap (fun _ _ h => (mem_leftField h).1) (.inl hnd)]
  cases hlookup : rule.lookup name with
  | none => simp [unremoved]
  | some value =>
    obtain ⟨items, hitems⟩ := harrays _ (mem_of_lookup_eq_some hlookup) hname
    obtain rfl : value = .array items := hitems
    rw [bind_some, leftField_list hname, lookup_fieldIf_self, map_some, getD_some,
      ← stringList_stripGeoArray]
    cases stripGeoArray items <;> simp [stringList]

theorem otherConditions_left : otherConditions (rule.flatMap leftField) = otherConditions rule := by
  simp only [otherConditions, JsonObject.without]
  induction rule with
  | nil => rfl
  | cons field rule ih =>
    obtain ⟨k, v⟩ := field
    rw [flatMap_cons, filter_append, ih]
    by_cases hk : k ∈ ["domain", "ip"]
    · have hnot : ∀ name ∈ ["domain", "ip"], (!(["type", "ruleTag", "outboundTag", "balancerTag",
          "domain", "domains", "ip"].contains name)) = false := by decide
      rw [filter_eq_nil_iff.mpr fun left hleft => by
          rw [(mem_leftField hleft).1, hnot k hk]
          exact Bool.false_ne_true,
        filter_cons_of_neg (by rw [hnot k hk]; exact Bool.false_ne_true), nil_append]
    · rw [leftField_other hk, filter_cons, filter_cons]
      split_ifs <;> rfl

/-- The conditions of a rule that stays. -/
theorem conditions_stripped {rule : JsonObject} {fields : List JsonObject}
    (hnd : (rule.map Prod.fst).Nodup) (h : rule.mapM strippedField = some fields) :
    conditions fields.flatten = leftConditions rule := by
  obtain ⟨hflat, harrays⟩ := flatten_stripped h
  rw [hflat, conditions, leftConditions, otherConditions_left, siteList,
    lookup_left_other (by decide), tagsAt_stripped (by decide) hnd harrays,
    tagsAt_stripped (by decide) hnd harrays]
  rfl

theorem leftSites_subset : leftSites rule ⊆ siteList rule := by
  unfold leftSites siteList
  cases rule.lookup "domains" with
  | none => exact filter_subset_self _
  | some value =>
    cases value with
    | null => exact filter_subset_self _
    | _ => exact List.Subset.refl _

/-- A text that is removed does not start with a mark. -/
theorem unmarked_of_geo {text : String} (h : isGeoText text = true) :
    (cutReversePrefix text).2 = false := by
  have hlow : lowercaseChar '!' = ['!'] := by decide
  cases hchars : text.toList with
  | nil => simp [cutReversePrefix, hchars]
  | cons ch rest =>
    have hne : ch ≠ '!' := by
      rintro rfl
      simp [isGeoText, startsWith, lowercase, hchars, hlow] at h
    simp [cutReversePrefix, hchars, hne]

/-- A range that is turned round is never removed. -/
theorem customs_left (texts : List String) :
    customs true (unremoved texts) = customs true texts := by
  rw [customs, customs, unremoved, filterMap_filterMap, filterMap_filterMap, filterMap_filter]
  refine filterMap_congr fun text _ => ?_
  cases hgeo : isGeoText text with
  | false => simp
  | true => simp [cidrWhen_of_unmarked (unmarked_of_geo hgeo)]

variable {plain : PlainReading} {c left : Conditions}

/-- To lose a part of the conditions is to match more, unless what is left matches nothing. -/
theorem met_imp_iff (hnames : left.names ⊆ c.names) (hranges : left.ranges ⊆ c.ranges)
    (hreversed : customs true left.ranges = customs true c.ranges) (hother : left.other = c.other) :
    (∀ geo conn addresses, left.Met plain geo conn addresses → c.Met plain geo conn addresses) ↔
      left.Dead plain ∨ NamesKept plain c.names left.names ∧
        RangesKept plain c.ranges left.ranges := by
  constructor
  · intro h
    refine or_iff_not_imp_left.mpr fun hdead => ?_
    simp only [Conditions.Dead, not_forall, not_not] at hdead
    obtain ⟨geo, conn, addresses, hmet⟩ := hdead
    obtain ⟨hsome, hsites, hips, hrest⟩ := hmet
    constructor
    · -- with the names gone, a name is matched that no selector matched
      by_contra hlost
      simp only [NamesKept, not_or, not_not, not_forall] at hlost
      obtain ⟨hne, hgone, name, hname⟩ := hlost
      obtain ⟨-, hsite, -⟩ := h ⟨fun _ _ => False, geo.range⟩ { conn with domain := name } addresses
        ⟨hsome, fun hleft => absurd hgone hleft, hips, hrest⟩
      obtain ⟨text, hmem, hmatch⟩ := hsite hne
      cases hcategory : geoSiteRule text with
      | none => exact hname ⟨text, hmem, hcategory, by simpa [SiteMatch, hcategory] using hmatch⟩
      | some category => simp [SiteMatch, hcategory] at hmatch
    · by_contra hlost
      simp only [RangesKept, not_or, not_and] at hlost
      obtain ⟨hne, hlost⟩ := hlost
      by_cases hgone : left.ranges = []
      · -- with the ranges gone, what has no address yet is matched
        obtain ⟨-, -, hip, -⟩ := h geo conn []
          ⟨hsome, hsites, fun hleft => absurd hgone hleft, hrest⟩
        obtain ⟨a, ha, -⟩ := hip hne
        cases ha
      · -- a reversed category is gone: its own address is matched
        obtain ⟨geo', a, hsame, hin, hout⟩ := exists_added geo.site (hlost hgone)
        obtain ⟨-, -, hip, -⟩ := h geo' conn [a]
          ⟨hsome, fun hleft => by simpa [SiteMatch, hsame] using hsites hleft,
            fun _ => ⟨a, mem_singleton_self a, hin⟩, hrest⟩
        obtain ⟨a', ha', hmatch⟩ := hip hne
        obtain rfl := mem_singleton.mp ha'
        exact hout hmatch
  · rintro (hdead | ⟨hkeepNames, hkeepRanges⟩) geo conn addresses hmet
    · exact absurd hmet (hdead geo conn addresses)
    · obtain ⟨hsome, hsites, hips, hrest⟩ := hmet
      refine ⟨?_, fun hne => ?_, fun hne => ?_, hother ▸ hrest⟩
      · refine hsome.imp (fun hne => ?_) (Or.imp (fun hne => ?_) fun hne => ?_)
        · exact fun hnil => hne (subset_nil.mp (hnil ▸ hnames))
        · exact fun hnil => hne (subset_nil.mp (hnil ▸ hranges))
        · exact hother ▸ hne
      · rcases hkeepNames with hnil | hleft | hall
        · exact absurd hnil hne
        · obtain ⟨text, hmem, hmatch⟩ := hsites hleft
          exact ⟨text, hnames hmem, hmatch⟩
        · obtain ⟨text, hmem, hcategory, hmatch⟩ := hall conn.domain
          exact ⟨text, hmem, by simpa [SiteMatch, hcategory] using hmatch⟩
      · rcases hkeepRanges with hnil | ⟨hleft, hkept⟩
        · exact absurd hnil hne
        · obtain ⟨a, ha, hmatch⟩ := hips hleft
          exact ⟨a, ha, hmatch.mono hranges hreversed hkept⟩

/-- A stripped rule matches no more exactly if no list of it is lost, or nothing is matched. -/
theorem narrows_iff {left rule : JsonObject} (hleft : conditions left = leftConditions rule) :
    Narrows plain left rule ↔ KeepsConditions plain rule := by
  rw [Narrows, hleft]
  exact met_imp_iff (leftSites_subset rule) (filter_subset_self _) (customs_left _) rfl

/-- What is left of an element of the rule list matches no more than the element. -/
def NarrowsAt (plain : PlainReading) (element : Json) (cleaned : List Json) : Prop :=
  ∀ left, .object left ∈ cleaned → ∃ rule, element = .object rule ∧ Narrows plain left rule

/-- The same for an element of the list, which may be dropped. -/
theorem narrowsAt_iff {element : Json} {cleaned : List Json}
    (h : strippedRule element = some cleaned)
    (hnd : ∀ rule ∈ jsonObjectOrNull element, (rule.map Prod.fst).Nodup) :
    NarrowsAt plain element cleaned ↔
      ∀ rule ∈ jsonObjectOrNull element, emptiedRule rule = false → KeepsConditions plain rule := by
  cases element with
  | object rule =>
    rw [strippedRule] at h
    split_ifs at h with hemptied
    · obtain rfl := some.inj h
      simp [NarrowsAt, hemptied]
    · obtain ⟨fields, hfields, rfl⟩ := map_eq_some_iff.mp h
      simp [NarrowsAt, hemptied, narrows_iff (conditions_stripped (hnd rule rfl) hfields)]
  | _ =>
    obtain rfl := some.inj h
    simp [NarrowsAt]

/-- The elements of a rule list. -/
def ruleElements (routing : JsonObject) : List Json := (arrayAt routing "rules").getD []

variable {routing out : JsonObject}

/-- The rules of the stripped routing. -/
theorem ruleElements_stripped (h : stripGeoFromRouting routing = some out) :
    ∃ cleaned, (ruleElements routing).mapM strippedRule = some cleaned ∧
      ruleElements out = cleaned.flatten := by
  unfold stripGeoFromRouting at h
  cases hrules : arrayAt routing "rules" with
  | none =>
    rw [hrules] at h
    obtain rfl := some.inj h
    exact ⟨[], by simp [ruleElements, hrules]⟩
  | some rules =>
    rw [hrules] at h
    obtain ⟨cleaned, hcleaned, rfl⟩ := map_eq_some_iff.mp h
    refine ⟨cleaned, by rw [ruleElements, hrules]; exact hcleaned, ?_⟩
    rw [ruleElements, arrayAt, lookup_rules_self]
    rfl

theorem forall₂_narrowsAt_iff {elements : List Json} {cleaned : List (List Json)}
    (h : List.Forall₂ (fun element left => strippedRule element = some left) elements cleaned)
    (hnd : ∀ rule ∈ elements.filterMap jsonObjectOrNull, (rule.map Prod.fst).Nodup) :
    List.Forall₂ (NarrowsAt plain) elements cleaned ↔
      ∀ rule ∈ elements.filterMap jsonObjectOrNull, emptiedRule rule = false →
        KeepsConditions plain rule := by
  simp only [mem_filterMap, forall_exists_index, and_imp] at hnd ⊢
  induction h with
  | nil => simp
  | @cons element left elements cleaned hhead _ ih =>
    rw [List.forall₂_cons, narrowsAt_iff hhead fun rule => hnd rule element mem_cons_self,
      ih fun rule e he => hnd rule e (mem_cons_of_mem _ he)]
    simp [forall_and, mem_def]

/-- EACH RULE THAT IS LEFT MATCHES NO MORE than the rule at its position, exactly when no rule that
    stays loses one of its two lists, or a reversed category that it needs: the plain selectors are
    read in any one way, and the geo files hold whatever they hold. -/
theorem stripped_narrows_iff (plain : PlainReading) (h : stripGeoFromRouting routing = some out)
    (hnd : ∀ rule ∈ objectsOf routing "rules", (rule.map Prod.fst).Nodup) :
    (∃ cleaned, (ruleElements routing).mapM strippedRule = some cleaned ∧
        ruleElements out = cleaned.flatten ∧
          List.Forall₂ (NarrowsAt plain) (ruleElements routing) cleaned) ↔
      ∀ rule ∈ objectsOf routing "rules", emptiedRule rule = false →
        KeepsConditions plain rule := by
  obtain ⟨cleaned, hcleaned, hout⟩ := ruleElements_stripped h
  refine Iff.trans ⟨?_, fun hall => ⟨cleaned, hcleaned, hout, hall⟩⟩
    (forall₂_narrowsAt_iff (mapM_eq_some_iff.mp hcleaned) hnd)
  rintro ⟨cleaned', hcleaned', -, hall⟩
  obtain rfl := some.inj (hcleaned.symm.trans hcleaned')
  exact hall

/-- Sites that are blocked while they resolve to a private address. -/
def blockedAt (names : JsonObject) : JsonObject :=
  names ++ [("ip", .strs ["10.0.0.0/8"]), ("outboundTag", .str "block")]

/-- A rule on the ranges of a list. -/
def directTo (ranges : List String) : JsonObject :=
  [("ip", .strs ranges), ("outboundTag", .str "direct")]

/-- Selectors of one name each, and one range. -/
def tenNet : PlainReading where
  site text name := text = "full:" ++ name
  range cidr := {a | cidr = "10.0.0.0/8" ∧ ∃ host : BitVec 24, a = .v4 (10#8 ++ host)}

/-- A rule that keeps a name of its own beside the category, and a rule that keeps its reversed
    category beside another one. -/
theorem stripped_narrows_kept : ∃ cleaned, (ruleElements [("rules", .array [
          .object (blockedAt [("domain", .strs ["geosite:ads", "full:ads.example"])]),
          .object (directTo ["geoip:ru", "!geoip:private", "geoip:!private"])])]).mapM
            strippedRule =
            some cleaned ∧
        ruleElements
          [("rules", .array [.object (blockedAt [("domain", .strs ["full:ads.example"])]),
          .object (directTo ["!geoip:private"])])] = cleaned.flatten ∧
        List.Forall₂ (NarrowsAt tenNet) (ruleElements [("rules", .array [
          .object (blockedAt [("domain", .strs ["geosite:ads", "full:ads.example"])]),
          .object (directTo ["geoip:ru", "!geoip:private", "geoip:!private"])])]) cleaned := by
  refine (stripped_narrows_iff tenNet (by decide) (by decide)).mpr fun rule hrule _ => .inr ?_
  rcases mem_cons.mp hrule with rfl | hrule
  · exact ⟨.inr (.inl (by decide)), .inr ⟨by decide, .inl (by decide)⟩⟩
  · obtain rfl := mem_singleton.mp hrule
    exact ⟨.inl (by decide), .inr ⟨by decide, .inr (.inl (by decide +kernel))⟩⟩

/-- Without its only name the rule blocks the whole range; and without one of two reversed
    categories a rule matches the addresses of that category. -/
theorem stripped_widens :
    (stripGeoFromRouting [("rules", .array
        [.object (blockedAt [("domain", .strs ["geosite:ads"])])])] =
          some [("rules", .array [.object (blockedAt [])])] ∧
      ¬ Narrows tenNet (blockedAt []) (blockedAt [("domain", .strs ["geosite:ads"])])) ∧
    stripGeoFromRouting [("rules", .array [.object (directTo ["geoip:!cn", "!geoip:private"])])] =
        some [("rules", .array [.object (directTo ["!geoip:private"])])] ∧
      ¬ Narrows tenNet (directTo ["!geoip:private"])
        (directTo ["geoip:!cn", "!geoip:private"]) := by
  have hhome : .v4 (10#8 ++ 1#24) ∈ tenNet.range "10.0.0.0/8" := ⟨rfl, 1#24, rfl⟩
  refine ⟨⟨by decide, fun h => ?_⟩, by decide, fun h => ?_⟩
  · -- no site is an advertisement, and the address is a private one
    obtain ⟨-, hnames, -⟩ := h ⟨fun _ _ => False, fun _ => ∅⟩ (connectionTo "shop.example")
      [.v4 (10#8 ++ 1#24)] ⟨.inr (.inl (by decide)), fun hne => absurd rfl hne, fun _ =>
        ⟨_, mem_singleton_self _, .inl (.inl ⟨"10.0.0.0/8", by decide, hhome⟩)⟩, rfl⟩
    obtain ⟨text, hmem, hmatch⟩ := hnames (by decide)
    obtain rfl := mem_singleton.mp hmem
    exact hmatch
  · have hlost : ¬ CategoriesKept ["geoip:!cn", "!geoip:private"] tenNet ["!geoip:private"] := by
      have hnone : ∀ reverse, customs reverse ["geoip:!cn", "!geoip:private"] = [] := by
        decide +kernel
      rintro (hkept | hkept | hall)
      · exact absurd hkept (by decide +kernel)
      · exact absurd hkept (by decide +kernel)
      · rcases hall (.v4 0) with ⟨cidr, hmem, -⟩ | ⟨⟨b, ⟨cidr, hmem, -⟩, -⟩, -⟩ <;>
          simp [hnone] at hmem
    obtain ⟨geo, a, -, hin, hout⟩ := exists_added (fun _ _ => False) hlost
    obtain ⟨-, -, hips, -⟩ := h geo (connectionTo "") [a] ⟨.inr (.inl (by decide)),
      fun hne => absurd rfl hne, fun _ => ⟨a, mem_singleton_self a, hin⟩, rfl⟩
    obtain ⟨a', ha, hmatch⟩ := hips (by decide)
    obtain rfl := mem_singleton.mp ha
    exact hout hmatch

/-! ## No category is named -/

/-- None of the selectors is looked up in a geo file. -/
def GeoFree (selectors : List Selector) : Prop :=
  ∀ selector ∈ selectors, selector.needsFile = false

/-- The source addresses of a rule: `source` is the old name of `sourceIP`. -/
def sourceTexts : List String :=
  match rule.lookup "sourceIP" with
  | none | some .null => tagsAt rule "source"
  | some texts => stringList texts

/-- Every selector of a rule that the core parses. -/
def ruleSelectors : List Selector :=
  (tagsAt rule "domain").map .site ++ (tagsAt rule "domains").map .site ++
    (tagsAt rule "ip").map .range ++ (sourceTexts rule).map .range ++
      (tagsAt rule "localIP").map .range

/-- The answers a DNS server is to give: `expectIPs` is the old name of `expectedIPs`. -/
def expectedTexts (server : JsonObject) : List String :=
  match tagsAt server "expectedIPs" with
  | [] => tagsAt server "expectIPs"
  | texts => texts

def serverSelectors (server : JsonObject) : List Selector :=
  (tagsAt server "domains").map .site ++
    (expectedTexts server ++ tagsAt server "unexpectedIPs").map .range

def routingSelectors (routing : Option JsonObject) : List Selector :=
  (rulesOf routing).flatMap ruleSelectors

variable (dns : Option JsonObject)

def serversOf : List JsonObject := objectsOf (dns.getD []) "servers"

def hostsOf : JsonObject := (dns.bind (objectAt · "hosts")).getD []

def dnsSelectors : List Selector :=
  (serversOf dns).flatMap serverSelectors ++ (hostsOf dns).map fun entry => .site entry.1

/-- Every selector of the routing and the DNS section of a configuration. -/
def configSelectors (config : JsonObject) : List Selector :=
  routingSelectors (objectAt config "routing") ++ dnsSelectors (objectAt config "dns")

/-- What the removal leaves in a rule, and in a server. -/
def unseenInRule : List Selector :=
  (unremoved (tagsAt rule "domain")).map .site ++ (tagsAt rule "domains").map .site ++
    (unremoved (tagsAt rule "ip")).map .range ++ (sourceTexts rule).map .range ++
      (tagsAt rule "localIP").map .range

def unseenInServer (server : JsonObject) : List Selector :=
  (if (arrayAt server "domains").isSome then unremoved (tagsAt server "domains")
    else tagsAt server "domains").map .site ++
    (expectedTexts server ++ tagsAt server "unexpectedIPs").map .range

/-- The rules that stay have no category the removal does not see. -/
def RulesUnseen (rules : List JsonObject) : Prop :=
  ∀ rule ∈ rules, emptiedRule rule = false → GeoFree (unseenInRule rule)

def ServersUnseen (servers : List JsonObject) : Prop :=
  ∀ server ∈ servers, ((arrayAt server "domains").all fun domains =>
    !(stripGeoArray domains).isEmpty) →
    GeoFree (unseenInServer server)

/-- The configuration names its categories only where the removal sees them, or in what is dropped.
    An entry of `hosts` that is lifted becomes a `domain` of a rule. -/
structure NoneUnseen (root : JsonObject) : Prop where
  rules : RulesUnseen (rulesOf (objectAt root "routing"))
  servers : ServersUnseen (serversOf (objectAt root "dns"))
  hosts : ∀ entry ∈ hostsOf (objectAt root "dns"), (Selector.site entry.1).needsFile = true →
    (liftedTo (ruleItems (objectAt root "routing")) entry).isSome = true ∧ isGeoText entry.1 = true

instance (selectors : List Selector) : Decidable (GeoFree selectors) :=
  inferInstanceAs (Decidable (∀ selector ∈ selectors, selector.needsFile = false))

instance (rules : List JsonObject) : Decidable (RulesUnseen rules) :=
  inferInstanceAs (Decidable (∀ rule ∈ rules, _ → _))

instance (servers : List JsonObject) : Decidable (ServersUnseen servers) :=
  inferInstanceAs (Decidable (∀ server ∈ servers, _ → _))

theorem geoFree_nil : GeoFree [] := fun _ h => absurd h not_mem_nil

theorem geoFree_append {l l' : List Selector} : GeoFree (l ++ l') ↔ GeoFree l ∧ GeoFree l' :=
  forall_mem_append

theorem geoFree_flatMap {α : Type} {l : List α} {selectors : α → List Selector} :
    GeoFree (l.flatMap selectors) ↔ ∀ a ∈ l, GeoFree (selectors a) := by
  simp only [GeoFree, mem_flatMap, forall_exists_index, and_imp]
  exact ⟨fun h a ha selector => h selector a ha, fun h selector a ha => h a ha selector⟩

/-- The selectors of what is left of a rule. -/
theorem ruleSelectors_left {rule : JsonObject} (hnd : (rule.map Prod.fst).Nodup)
    (harrays : ∀ field ∈ rule, field.1 ∈ ["domain", "ip"] → ∃ items, field.2 = .array items) :
    ruleSelectors (rule.flatMap leftField) = unseenInRule rule := by
  have hother : ∀ name ∉ ["domain", "ip"], tagsAt (rule.flatMap leftField) name =
      tagsAt rule name := by
    intro name hname
    rw [tagsAt, lookup_left_other hname, tagsAt]
  have hsource : sourceTexts (rule.flatMap leftField) = sourceTexts rule := by
    rw [sourceTexts, lookup_left_other (by decide), hother "source" (by decide), sourceTexts]
  have hlist : ∀ name ∈ ["domain", "ip"], tagsAt (rule.flatMap leftField) name =
      unremoved (tagsAt rule name) := fun name hname => tagsAt_stripped hname hnd harrays
  rw [ruleSelectors, hlist "domain" (by decide), hlist "ip" (by decide), hsource,
    hother "domains" (by decide), hother "localIP" (by decide), unseenInRule]

/-- NO GEO FILE IS NEEDED by the stripped routing exactly if the removal sees every category. -/
theorem routingSelectors_stripped (h : stripGeoFromRouting routing = some out)
    (hnd : ∀ rule ∈ objectsOf routing "rules", (rule.map Prod.fst).Nodup) :
    GeoFree (routingSelectors (some out)) ↔ RulesUnseen (objectsOf routing "rules") := by
  obtain ⟨cleaned, hcleaned, hout⟩ := ruleElements_stripped h
  have hrules : rulesOf (some out) = cleaned.flatten.filterMap jsonObjectOrNull :=
    congrArg (List.filterMap jsonObjectOrNull) hout
  rw [routingSelectors, hrules, geoFree_flatMap]
  change ∀ rule ∈ (ruleElements routing).filterMap jsonObjectOrNull, _ at hnd
  change _ ↔ RulesUnseen ((ruleElements routing).filterMap jsonObjectOrNull)
  have hall := mapM_eq_some_iff.mp hcleaned
  clear hcleaned hout hrules
  generalize ruleElements routing = elements at hall hnd
  induction hall with
  | nil => simp [RulesUnseen]
  | @cons element left elements cleaned hhead _ ih =>
    rw [flatten_cons, filterMap_append, forall_mem_append]
    rw [filterMap_cons] at hnd ⊢
    cases element with
    | object rule =>
      simp only [jsonObjectOrNull, RulesUnseen, forall_mem_cons] at hnd ⊢
      refine (and_congr_right' (ih hnd.2)).trans (and_congr_left' ?_)
      rw [strippedRule] at hhead
      split_ifs at hhead with hemptied
      · obtain rfl := some.inj hhead
        simp [hemptied]
      · obtain ⟨fields, hfields, rfl⟩ := map_eq_some_iff.mp hhead
        obtain ⟨hflat, harrays⟩ := flatten_stripped hfields
        rw [hflat]
        simp [hemptied, ruleSelectors_left hnd.1 harrays]
    | _ =>
      obtain rfl := some.inj hhead
      simpa using ih hnd

/-- A second server behind the first one adds no selector. -/
theorem routingSelectors_toWrite {c : Option Cascade} {routing rewritten : Option JsonObject}
    (h : routingAfterCascade c routing = some rewritten) :
    routingSelectors (routingToWrite c rewritten) = routingSelectors routing := by
  cases c with
  | none =>
    obtain rfl : routing = rewritten := by simpa [routingAfterCascade] using h
    rfl
  | some c =>
    have hsame : ∀ rule, ruleSelectors (redirectRule c.mainTag rule) = ruleSelectors rule := by
      intro rule
      simp [ruleSelectors, sourceTexts, tagsAt, lookup_redirectRule_ne]
    have hloop : (loopRules c).flatMap ruleSelectors = [] := by
      rw [loopRules]
      split_ifs <;> rfl
    rw [routingSelectors, rulesOf, (redirected_toWrite h).rules, flatMap_append, hloop, flatMap_map]
    simp only [hsame]
    rfl

theorem rulesOf_finalRouting (inject : Bool) (routing : Option JsonObject) :
    rulesOf (finalRouting inject routing) = (if inject then dnsHijackRules else []) ++
      rulesOf routing := by
  cases inject with
  | false => rfl
  | true =>
    rw [rulesOf, finalRouting, if_pos rfl, getD_some, objectsOf, lookup_append,
      lookup_append, JsonObject.lookup_without_self (by simp), lookup_fieldIf_ne (by decide)]
    simp only [lookup_cons, BEq.rfl, none_or, bind_some, jsonArrayOrNull,
      getD_some, filterMap_append, filterMap_map]
    rfl

/-- A name that is looked up in a geo file has a scheme, and is lifted as it is. -/
theorem hostSelector_of_needsFile {key : String}
    (h : (Selector.site key).needsFile = true) : hostSelector key = key := by
  refine if_neg fun hbefore => ?_
  rw [needsFile_site, List.any_eq_true] at h
  obtain ⟨word, hword, hstart⟩ := h
  rw [startsWith, isPrefixOf_iff_prefix] at hstart
  obtain ⟨rest, hrest⟩ := hstart
  simp only [mem_cons, not_mem_nil, or_false] at hword
  rcases hword with rfl | rfl | rfl | rfl <;>
    simp [substringBeforeOr, ← hrest, cutAt] at hbefore

theorem needsFile_full (key : String) : (Selector.site ("full:" ++ key)).needsFile = false := by
  simp [needsFile_site, startsWith, isPrefixOf_cons_cons]

/-- An entry that is lifted leaves a category behind unless it is removed from the rule again. -/
theorem unseen_hostSelector (key : String) :
    (isGeoText (hostSelector key) = false →
        (Selector.site (hostSelector key)).needsFile = false) ↔
      ((Selector.site key).needsFile = true → isGeoText key = true) := by
  cases hneeds : (Selector.site key).needsFile with
  | true => simp [hostSelector_of_needsFile hneeds, hneeds]
  | false =>
    refine iff_of_true (fun _ => ?_) (by simp)
    unfold hostSelector
    split_ifs
    · exact needsFile_full key
    · exact hneeds

/-- A rule on names alone. -/
theorem rulesUnseen_names (texts : List String) (target : Json) :
    RulesUnseen [[("type", .str "field"), ("domain", .strs texts), ("outboundTag", target)]] ↔
      GeoFree ((unremoved texts).map .site) := by
  have hlist : stringList (.strs texts) = texts := by
    rw [Json.strs, stringList, filterMap_map]
    exact (filterMap_congr fun _ _ => rfl).trans filterMap_some
  have hunseen : unseenInRule [("type", .str "field"), ("domain", .strs texts),
      ("outboundTag", target)] = (unremoved texts).map .site := by
    simp [unseenInRule, sourceTexts, tagsAt, lookup_cons, hlist, unremoved]
  rw [RulesUnseen, forall_mem_singleton, hunseen]
  cases h : emptiedRule [("type", .str "field"), ("domain", .strs texts),
      ("outboundTag", target)] with
  | false => simp
  | true =>
    -- it is dropped, and nothing was left of it
    have hnil : unremoved texts = [] := by
      rw [← hlist, Json.strs, ← stringList_stripGeoArray]
      simp [emptiedRule, arrayAt, lookup_cons, Json.strs] at h
      simp [h, stringList]
    simp [hnil, geoFree_nil]

section Lifted

variable (items : List (Option JsonObject)) (hosts : JsonObject)

/-- A lifted name brings a selector only under a rule with an outbound. -/
theorem rulesUnseen_liftedRule (i : Nat) (item : Option JsonObject) :
    RulesUnseen (liftedRule items hosts i item) ↔
      ((item.bind fun r => r.lookup "outboundTag").isSome = true →
        GeoFree ((unremoved (liftedSelectors items hosts i)).map .site)) := by
  unfold liftedRule
  cases item.bind fun r => r.lookup "outboundTag" with
  | none => simp [RulesUnseen]
  | some target =>
    cases liftedSelectors items hosts i with
    | nil => simp [RulesUnseen, unremoved, geoFree_nil]
    | cons s rest => simpa using rulesUnseen_names (s :: rest) target

theorem forall_mem_rulesWithLifted {P : JsonObject → Prop} :
    (∀ rule ∈ rulesWithLifted items hosts, P rule) ↔
      (∀ (i : Nat) (item : Option JsonObject), items[i]? = some item →
        ∀ rule ∈ liftedRule items hosts i item, P rule) ∧ ∀ item ∈ items, P (item.getD []) := by
  rw [rulesWithLifted]
  simp only [mem_flatten, mem_mapIdx, forall_exists_index, and_imp]
  constructor
  · intro h
    refine ⟨fun i item hitem rule hrule => ?_, fun item hitem => ?_⟩
    · obtain ⟨hlt, rfl⟩ := List.getElem?_eq_some_iff.mp hitem
      exact h rule _ i hlt rfl (mem_append_left _ hrule)
    · obtain ⟨i, hlt, rfl⟩ := mem_iff_getElem.mp hitem
      exact h _ _ i hlt rfl (mem_append_right _ (mem_singleton_self _))
  · rintro ⟨hlifted, hold⟩ rule _ i hlt rfl hrule
    rcases mem_append.mp hrule with hrule | hrule
    · exact hlifted i _ (getElem?_eq_getElem hlt) rule hrule
    · rw [mem_singleton.mp hrule]
      exact hold _ (getElem_mem hlt)

/-- What is written is free of categories if the rules were, and every lifted entry that is a
    category is removed again. -/
theorem rulesUnseen_withLifted : RulesUnseen (rulesWithLifted items hosts) ↔
    RulesUnseen (items.filterMap id) ∧ ∀ entry ∈ hosts, (liftedTo items entry).isSome = true →
      (Selector.site entry.1).needsFile = true → isGeoText entry.1 = true := by
  have hrules : RulesUnseen (items.filterMap id) ↔ ∀ item ∈ items,
      emptiedRule (item.getD []) = false → GeoFree (unseenInRule (item.getD [])) := by
    have hnone : GeoFree (unseenInRule []) := geoFree_nil
    simp only [RulesUnseen, mem_filterMap, id, forall_exists_index, and_imp]
    refine ⟨fun h item hitem => ?_, fun h rule item hitem hrule => ?_⟩
    · cases item with
      | none => exact fun _ => hnone
      | some rule => exact h rule (some rule) hitem rfl
    · simpa [hrule] using h item hitem
  rw [RulesUnseen, forall_mem_rulesWithLifted, and_comm, hrules]
  refine and_congr_right' ?_
  change (∀ i item, _ → RulesUnseen _) ↔ _
  simp only [rulesUnseen_liftedRule]
  constructor
  · intro h entry hentry hlifted
    obtain ⟨i, hi⟩ := isSome_iff_exists.mp hlifted
    obtain ⟨address, rule, -, hitem, hplain⟩ := liftedTo_spec hi
    have htarget : (rule.lookup "outboundTag").isSome = true := by
      simp only [plainIpRule, Bool.and_eq_true] at hplain
      exact hplain.1.1
    refine (unseen_hostSelector entry.1).mp fun hkept => h i _ hitem htarget _ ?_
    refine mem_map_of_mem (mem_filter.mpr ⟨?_, by simpa using hkept⟩)
    exact mem_map_of_mem (mem_filter.mpr ⟨hentry, by simpa using hi⟩)
  · intro hlifted i item _ _ selector hselector
    obtain ⟨text, htext, rfl⟩ := mem_map.mp hselector
    obtain ⟨htext, hkept⟩ := mem_filter.mp htext
    obtain ⟨entry, hentry, rfl⟩ := mem_map.mp htext
    obtain ⟨hentry, hi⟩ := mem_filter.mp hentry
    refine (unseen_hostSelector entry.1).mpr (hlifted entry hentry ?_) (by simpa using hkept)
    simp [of_decide_eq_true hi]

theorem nodup_withLifted (hnd : ∀ rule ∈ items.filterMap id, (rule.map Prod.fst).Nodup) :
    ∀ rule ∈ rulesWithLifted items hosts, (rule.map Prod.fst).Nodup := by
  refine (forall_mem_rulesWithLifted items hosts).mpr ⟨fun i item _ rule hrule => ?_,
    fun item hitem => ?_⟩
  · unfold liftedRule at hrule
    split at hrule
    · rw [mem_singleton.mp hrule]
      simp
    · simp at hrule
  · cases item with
    | none => simp
    | some rule => exact hnd rule (mem_filterMap.mpr ⟨some rule, hitem, rfl⟩)

end Lifted

theorem lookup_dnsWithHosts_ne {name : String} (h : name ≠ "hosts") (dns kept : JsonObject) :
    (dnsWithHosts dns kept).lookup name = dns.lookup name := by
  rw [lookup_dnsWithHosts]
  simp [h]

/-- Lifting hosts changes neither whether there is a routing nor the DNS servers. -/
theorem lift_keeps (dns routing : Option JsonObject) : (userHasRouting routing = true →
        userHasRouting (liftHostsIntoRouting dns routing).2 = true) ∧
      serversOf (liftHostsIntoRouting dns routing).1 = serversOf dns := by
  unfold liftHostsIntoRouting
  split
  · rename_i d hosts r items _ hitems
    simp only
    split_ifs
    · exact ⟨id, rfl⟩
    · refine ⟨fun huser => ?_, ?_⟩
      · rw [userHasRouting, hitems] at huser
        rw [userHasRouting, bind_some, arrayAt, lookup_rules_self]
        cases items with
        | nil => cases huser
        | cons => simp [rulesWithLifted, mapIdx_cons]
      · rw [serversOf, serversOf, objectsOf, objectsOf]
        simp [lookup_dnsWithHosts_ne (by decide : "servers" ≠ "hosts")]
  · exact ⟨id, rfl⟩

/-- The rules and the hosts after the lifting: nothing is lifted, or every entry that can be is. -/
theorem lift_cases (dns routing : Option JsonObject) :
    (rulesOf (liftHostsIntoRouting dns routing).2 = rulesOf routing ∧
        (∀ entry ∈ hostsOf dns, liftedTo (ruleItems routing) entry = none) ∨
      rulesOf (liftHostsIntoRouting dns routing).2 =
        rulesWithLifted (ruleItems routing) (hostsOf dns)) ∧
      hostsOf (liftHostsIntoRouting dns routing).1 =
        keptHosts (ruleItems routing) (hostsOf dns) := by
  cases hhosts : dns.bind (objectAt · "hosts") with
  | none =>
    rw [liftHosts_of_none routing hhosts, hostsOf, hhosts]
    exact ⟨.inl ⟨rfl, forall_mem_nil _⟩, rfl⟩
  | some hosts =>
    obtain ⟨d, rfl, hd⟩ := bind_eq_some_iff.mp hhosts
    have hlift := lift_eq routing hd
    simp only at hlift
    rw [show hostsOf (some d) = hosts by rw [hostsOf, hhosts, getD_some]]
    split_ifs at hlift with hall
    · have hnone := List.all_eq_true.mp hall
      rw [hlift, hostsOf, hhosts, getD_some, keptHosts, filter_eq_self.mpr hnone]
      exact ⟨.inl ⟨rfl, fun entry hmem => isNone_iff_eq_none.mp (hnone entry hmem)⟩, rfl⟩
    · exact ⟨.inr hlift.1, hlift.2⟩

/-- So after the lift the condition speaks of the old rules and of the lifted names. -/
theorem rulesUnseen_lift (dns routing : Option JsonObject) :
    RulesUnseen (rulesOf (liftHostsIntoRouting dns routing).2) ↔ RulesUnseen (rulesOf routing) ∧
      ∀ entry ∈ hostsOf dns, (liftedTo (ruleItems routing) entry).isSome = true →
        (Selector.site entry.1).needsFile = true → isGeoText entry.1 = true := by
  rcases (lift_cases dns routing).1 with ⟨hsame, hnone⟩ | hlifted
  · rw [hsame]
    refine (and_iff_left fun entry hmem hlifted => ?_).symm
    simp [hnone entry hmem] at hlifted
  · rw [hlifted, rulesUnseen_withLifted, rulesOf_eq]

theorem nodup_lift {dns routing : Option JsonObject}
    (hnd : ∀ rule ∈ rulesOf routing, (rule.map Prod.fst).Nodup) :
    ∀ rule ∈ rulesOf (liftHostsIntoRouting dns routing).2, (rule.map Prod.fst).Nodup := by
  rcases (lift_cases dns routing).1 with ⟨hsame, -⟩ | hlifted
  · rwa [hsame]
  · rw [hlifted]
    rw [rulesOf_eq] at hnd
    exact nodup_withLifted _ _ hnd

theorem geoFree_strippedServer (element : Json) :
    (∀ server ∈ (strippedServer element).filterMap jsonObjectOrNull,
      GeoFree (serverSelectors server)) ↔
      ServersUnseen (jsonObjectOrNull element).toList := by
  cases element with
  | object server =>
    rw [strippedServer]
    cases hdomains : arrayAt server "domains" with
    | none =>
      simp [ServersUnseen, unseenInServer, serverSelectors, geoFree_append, hdomains, and_comm]
    | some domains =>
      simp only
      split_ifs with hempty
      · simp [ServersUnseen, hdomains, hempty]
      · have hvalue : server.lookup "domains" = some (.array domains) := by
          rw [arrayAt] at hdomains
          obtain ⟨value, hvalue, harray⟩ := bind_eq_some_iff.mp hdomains
          cases value with
          | array items => rw [hvalue, some.inj harray]
          | _ => cases harray
        simp [ServersUnseen, unseenInServer, serverSelectors, expectedTexts,
          geoFree_append, hdomains,
          hempty, tagsAt, JsonObject.lookup_map_replaced, hvalue, stringList_stripGeoArray]
  | _ => simp [strippedServer, ServersUnseen]

/-- The servers and the hosts are read off two fields. -/
theorem dnsSelectors_congr {dns dns' : JsonObject}
    (h : ∀ name ∈ ["servers", "hosts"], dns'.lookup name = dns.lookup name) :
    dnsSelectors (some dns') = dnsSelectors (some dns) := by
  simp [dnsSelectors, serversOf, hostsOf, objectsOf, objectAt, h "servers" (by decide),
    h "hosts" (by decide)]

/-- The same for the DNS section, its servers and its hosts. -/
theorem dnsSelectors_stripped (dns : JsonObject) :
    GeoFree (dnsSelectors (some (stripGeoFromDns dns))) ↔
      ServersUnseen (serversOf (some dns)) ∧ ∀ entry ∈ hostsOf (some dns),
        (Selector.site entry.1).needsFile = false := by
  have hhosts : ∀ hosts : JsonObject, GeoFree (hosts.map fun entry => .site entry.1) ↔
      ∀ entry ∈ hosts, (Selector.site entry.1).needsFile = false := fun hosts => forall_mem_map
  rw [dnsSelectors, geoFree_append, geoFree_flatMap, hhosts]
  simp only [serversOf, hostsOf, objectsOf, objectAt, getD_some, bind_some]
  cases hservers : arrayAt dns "servers" with
  | none =>
    rw [stripGeoFromDns, hservers]
    rw [arrayAt] at hservers
    simp [hservers, ServersUnseen]
  | some servers =>
    have hput : stripGeoFromDns dns =
        replaceLast dns "servers" (.array (servers.flatMap strippedServer)) := by
      rw [stripGeoFromDns, hservers]
      rfl
    rw [arrayAt] at hservers
    rw [hput, lookup_replaceLast_self, lookup_replaceLast_ne (by decide), hservers]
    refine and_congr_left' ?_
    simp only [bind_some, jsonArrayOrNull, getD_some, filterMap_flatMap,
      forall_mem_flatMap, geoFree_strippedServer]
    simp only [ServersUnseen, mem_toList, mem_filterMap, forall_exists_index, and_imp]
    exact ⟨fun h server element hmem => h element hmem server,
      fun h element hmem server => h server element hmem⟩

/-- The DNS section that is written. -/
theorem dnsSelectors_outDns {a : RawArgs} (hstrip : a.stripGeoSelectors = true) (inject : Bool)
    (dns : Option JsonObject) : GeoFree (dnsSelectors (outDns a inject dns)) ↔
      ServersUnseen (serversOf dns) ∧ ∀ entry ∈ hostsOf dns,
        (Selector.site entry.1).needsFile = false := by
  have hforced : ∀ base : Option JsonObject,
      dnsSelectors (if a.forceIpv4 then (base.map stripGeoFromDns).map
      fun dns => replaceLast dns "queryStrategy" (.str "UseIPv4") else base.map stripGeoFromDns) =
      dnsSelectors (base.map stripGeoFromDns) := by
    intro base
    split_ifs
    · cases base with
      | none => rfl
      | some dns =>
        refine dnsSelectors_congr fun name hname => lookup_replaceLast_ne ?_
        rintro rfl
        simp at hname
    · rfl
  rw [outDns, hstrip, if_pos rfl, hforced]
  cases inject with
  | false =>
    cases dns with
    | none => simp [dnsSelectors, serversOf, hostsOf, objectsOf, ServersUnseen, geoFree_nil]
    | some dns => exact dnsSelectors_stripped dns
  | true =>
    have hservers : serversOf (some (augmentedDns dns)) = serversOf dns := by
      simp only [serversOf, objectsOf, augmentedDns, arrayAt, getD_some, lookup_append,
        JsonObject.lookup_without_self (mem_singleton_self "servers")]
      cases ((dns.getD []).lookup "servers").bind jsonArrayOrNull <;> rfl
    have hhosts : hostsOf (some (augmentedDns dns)) = hostsOf dns := by
      simp only [hostsOf, objectAt, augmentedDns, bind_some, lookup_append,
        JsonObject.lookup_without (by decide : "hosts" ∉ ["servers"]),
        lookup_fieldIf_ne (by decide : "hosts" ≠ "queryStrategy")]
      cases dns <;> simp [-jsonObjectOrNull]
    rw [if_pos rfl, map_some, dnsSelectors_stripped, hservers, hhosts]

theorem objectAt_dns_config (parts : RawParts) (root : JsonObject) :
    objectAt (parts.config root) "dns" = parts.dns := by
  rw [objectAt, RawParts.config]
  simp only [append_assoc, lookup_append]
  rw [JsonObject.lookup_without_self (by simp)]
  rw [lookup_fieldIf_ne (by decide)]
  cases parts.dns <;> cases parts.routing <;> simp [fieldOf]

/-- A configuration of one rule, and the call that removes its categories. -/
def ruleConfig : JsonObject :=
  [("routing", .object [("rules", .array [.object rule])])]

def strippingArgs : RawArgs := { plainArgs with stripGeoSelectors := true }

end OlcVpn.Xray
