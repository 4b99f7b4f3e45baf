/-
  THE RULE SETS a sing-box route declares, against those its rules use.

  A rule may name a downloaded set by its tag.  Rules and declarations come from SEPARATE
  traversals of the same inputs: the buckets of the routing profile, the structured rules, two
  toggles, and what the user wrote as JSON.  The declarations are merged by tag, and the LAST one
  with a tag wins.
-/
import OlcVpn.Import.Links
import OlcVpn.SingBox.Build
import OlcVpn.SingBox.Carried
import OlcVpn.SingBox.Narrow

open List (mem_append mem_map mem_flatMap map_append append_nil map_map)

open Option (getD_some some map_some isSome_iff_exists)

namespace OlcVpn.SingBoxRouting

open Kotlin Generate SingBox

/-! ## Sets and where they are fetched from -/

def defaultGeositeBase : String :=
  "https://raw.githubusercontent.com/SagerNet/sing-geosite/rule-set/"

def defaultGeoipBase : String := "https://raw.githubusercontent.com/SagerNet/sing-geoip/rule-set/"

def metaGeoipBase : String :=
  "https://raw.githubusercontent.com/MetaCubeX/meta-rules-dat/sing/geo/geoip/"

/-- A base address, or the default; it ends in a slash. -/
def baseOr (base default : String) : String :=
  let base := ifBlank base default
  if base.toList.getLast? = some '/' then base else base ++ "/"

/-- The default repository has country sets only; services are taken from another one. -/
def geoipUrl (ipBase customBase tag : String) : String :=
  if (isBlank customBase || customBase = defaultGeoipBase) && Locations.utf16Length tag ≠ 2 then
    metaGeoipBase ++ tag ++ ".srs"
  else ipBase ++ "geoip-" ++ tag ++ ".srs"

/-- A set that a selector names. -/
inductive GeoSet where
  | site (tag : String)
  | ip (tag : String)
  deriving DecidableEq, Repr

namespace GeoSet

/-- The tag of the set in the configuration. -/
def name : GeoSet → String
  | site tag => "geosite-" ++ tag
  | ip tag => "geoip-" ++ tag

def url (geositeBase geoipBase : String) : GeoSet → String
  | site tag => baseOr geositeBase defaultGeositeBase ++ "geosite-" ++ tag ++ ".srs"
  | ip tag => geoipUrl (baseOr geoipBase defaultGeoipBase) geoipBase tag

/-- The name of a set tells which one it is. -/
theorem name_inj {g g' : GeoSet} : g.name = g'.name ↔ g = g' := by
  constructor
  · intro h
    cases g with
    | site tag =>
      cases g' with
      | site tag' => exact congrArg site (tag_inj h)
      | ip tag' => exact absurd h (geosite_ne_geoip tag tag')
    | ip tag =>
      cases g' with
      | site tag' => exact absurd h.symm (geosite_ne_geoip tag' tag)
      | ip tag' => exact congrArg ip (tag_inj h)
  · exact congrArg name

end GeoSet

/-- The sets the entries of a site list and of an address list name. -/
def geoSets (sites ips : List Selectors) : List GeoSet :=
  (collect Selectors.geositeTags sites).map .site ++ (collect Selectors.geoipTags ips).map .ip

variable {g : GeoSet} {tag : String}

/-- The sets that selectors ask for. -/
theorem mem_geoSets {sites ips : List Selectors} : g ∈ geoSets sites ips ↔
    (∃ s ∈ sites, ∃ tag ∈ s.geositeTags, GeoSet.site tag = g) ∨
      ∃ s ∈ ips, ∃ tag ∈ s.geoipTags, GeoSet.ip tag = g := by
  simp only [geoSets, mem_append, mem_map, mem_collect]
  grind

theorem geoSets_append (sites sites' ips ips' : List Selectors) (g : GeoSet) :
    g ∈ geoSets (sites ++ sites') (ips ++ ips') ↔ g ∈ geoSets sites ips ∨
      g ∈ geoSets sites' ips' := by
  simp only [mem_geoSets, mem_append, or_and_right, exists_or]
  grind

/-- One declaration. -/
def remoteSet (tag url downloadDetour : String) : JsonObject :=
  [("type", .str "remote"), ("tag", .str tag), ("format", .str "binary"), ("url", .str url),
    ("download_detour", .str downloadDetour)]

/-- What a selector alone has declared. -/
def GeoSet.declaration (geositeBase geoipBase downloadDetour : String) (g : GeoSet) : JsonObject :=
  remoteSet g.name (g.url geositeBase geoipBase) downloadDetour

variable (p : RoutingProfile)

/-- The sets a bucket names. -/
def bucketSets (bucket : Bucket) : List GeoSet :=
  geoSets (parse (p.sites bucket)) (parseIp (p.ips bucket))

/-- The sets of all three buckets. -/
def profileSets : List GeoSet :=
  geoSets (parse p.blockSites ++ parse p.directSites ++ parse p.proxySites)
    (parseIp p.blockIp ++ parseIp p.directIp ++ parseIp p.proxyIp)

def ruleSets (geositeBase geoipBase downloadDetour : String) : List JsonObject :=
  (profileSets p).map (GeoSet.declaration geositeBase geoipBase downloadDetour)

/-- The sets of the structured rules that are emitted. -/
def manualSets (rs : List SingBoxRule) : List GeoSet :=
  let enabled := rs.filter fun r => r.enabled && r.hasMatcher
  geoSets (enabled.flatMap fun r => parse r.domains) (enabled.flatMap fun r => parseIp r.ip)

def manualRuleSets (rs : List SingBoxRule) (geositeBase geoipBase downloadDetour : String) :
    List JsonObject :=
  (manualSets rs).map (GeoSet.declaration geositeBase geoipBase downloadDetour)

/-- The sets of a profile are those of its buckets. -/
theorem mem_profileSets {p : RoutingProfile} :
    g ∈ profileSets p ↔ ∃ bucket, g ∈ bucketSets p bucket := by
  rw [profileSets, geoSets_append, geoSets_append]
  constructor
  · rintro ((h | h) | h)
    · exact ⟨.block, h⟩
    · exact ⟨.direct, h⟩
    · exact ⟨.proxy, h⟩
  · rintro ⟨bucket, h⟩
    cases bucket with
    | block => exact .inl (.inl h)
    | direct => exact .inl (.inr h)
    | proxy => exact .inr h

/-- Only an enabled rule that matches something asks for sets. -/
theorem mem_manualSets {rs : List SingBoxRule} : g ∈ manualSets rs ↔
    ∃ r ∈ rs, (r.enabled && r.hasMatcher) = true ∧
      g ∈ geoSets (parse r.domains) (parseIp r.ip) := by
  simp only [manualSets, mem_geoSets, mem_flatMap, List.mem_filter]
  grind

/-! ## The tags that rules use -/

/-- The sets a rule refers to. -/
def setTags (rule : JsonObject) : List String := (questionsIn ["rule_set"] rule).map Prod.snd

/-- Some rule of the list refers to the set. -/
def Uses (rules : List JsonObject) (tag : String) : Prop := ∃ rule ∈ rules, tag ∈ setTags rule

theorem uses_append {rules rules' : List JsonObject} :
    Uses (rules ++ rules') tag ↔ Uses rules tag ∨ Uses rules' tag := by
  simp only [Uses, mem_append, or_and_right, exists_or]

/-- The sets a rule names are those of its parts. -/
theorem setTags_append (a b : JsonObject) : setTags (a ++ b) = setTags a ++ setTags b := by
  rw [setTags, questionsIn_append, map_append]
  rfl

/-- A rule that refers to a set has the field. -/
theorem name_mem_of_mem_setTags {rule : JsonObject} (h : tag ∈ setTags rule) :
    "rule_set" ∈ rule.map Prod.fst := by
  obtain ⟨q, hq, -⟩ := mem_map.mp h
  obtain ⟨field, hfield, hq⟩ := mem_flatMap.mp hq
  split_ifs at hq with hname
  · exact mem_map.mpr ⟨field, hfield, List.mem_singleton.mp hname⟩
  · cases hq

theorem setTags_matchRule (target : Target) (ipVersion : Option Int) (field : String)
    (values : List String) : setTags (matchRule target ipVersion [(field, .strs values)]) =
      if field = "rule_set" then values else [] := by
  have hfield : setTags [(field, .strs values)] = if field = "rule_set" then values else [] := by
    split_ifs with hfield
    · simp [setTags, questionsIn, hfield, valuesOf_strs]
    · simp [setTags, questionsIn, hfield]
  unfold matchRule
  rw [setTags_append, setTags_append, hfield]
  cases ipVersion <;> cases target <;> simp [setTags, questionsIn]

/-- The tags in a written rule are the names of the sets its selectors ask for. -/
theorem mem_names_geoSets {sites ips : List String} :
    (∃ g ∈ geoSets (parse sites) (parseIp ips), g.name = tag) ↔
      tag ∈ (collect Selectors.geositeTags (parse sites)).map ("geosite-" ++ ·) ++
        (collect Selectors.geoipTags (parseIp ips)).map ("geoip-" ++ ·) := by
  simp only [geoSets, mem_append, mem_map]
  constructor
  · rintro ⟨g, ⟨v, hv, rfl⟩ | ⟨v, hv, rfl⟩, rfl⟩
    · exact .inl ⟨v, hv, rfl⟩
    · exact .inr ⟨v, hv, rfl⟩
  · rintro (⟨v, hv, rfl⟩ | ⟨v, hv, rfl⟩)
    · exact ⟨.site v, .inl ⟨v, hv, rfl⟩, rfl⟩
    · exact ⟨.ip v, .inr ⟨v, hv, rfl⟩, rfl⟩

/-- A bucket's rules use the sets the bucket names, in either pass. -/
theorem uses_emitBucket {sites ips : List String} {target : Target} {ipVersion : Option Int} :
    Uses (emitBucket sites ips target ipVersion) tag ↔
      ∃ g ∈ geoSets (parse sites) (parseIp ips), g.name = tag := by
  rw [mem_names_geoSets]
  constructor
  · rintro ⟨rule, hrule, htag⟩
    obtain ⟨e, he, -, rfl⟩ := mem_emitBucket_iff.mp hrule
    rw [setTags_matchRule] at htag
    split_ifs at htag with hfield
    · -- only the first row of the table has this field
      have hrow : ∀ e ∈ bucketTable sites ips ipVersion, e.1 = "rule_set" →
          e.2 = (collect Selectors.geositeTags (parse sites)).map ("geosite-" ++ ·) ++
            (collect Selectors.geoipTags (parseIp ips)).map ("geoip-" ++ ·) := by
        cases ipVersion <;> simp [bucketTable]
      exact hrow e he hfield ▸ htag
    · cases htag
  · intro htag
    refine ⟨_, mem_emitBucket_iff.mpr ⟨("rule_set", _), ?_, List.ne_nil_of_mem htag, rfl⟩, ?_⟩
    · exact List.mem_append_left _ List.mem_cons_self
    · rwa [setTags_matchRule, if_pos rfl]

/-- The rules of a profile use the sets of the buckets it puts in order. -/
theorem uses_rules {p : RoutingProfile} {hideDirectIpv6 : Bool} {directTag : String} :
    Uses (rules p hideDirectIpv6 directTag) tag ↔
      ∃ bucket ∈ p.order, ∃ g ∈ bucketSets p bucket, g.name = tag := by
  have hbucket : ∀ bucket, Uses (bucketRules p hideDirectIpv6 directTag bucket) tag ↔
      ∃ g ∈ bucketSets p bucket, g.name = tag := by
    intro bucket
    rw [bucketRules, uses_append, uses_emitBucket]
    split_ifs
    · rw [uses_emitBucket]
      exact or_self_iff
    · simp [Uses, bucketSets]
  simp only [rules, Uses, mem_flatMap]
  constructor
  · rintro ⟨rule, ⟨bucket, horder, hrule⟩, htag⟩
    exact ⟨bucket, horder, (hbucket bucket).mp ⟨rule, hrule, htag⟩⟩
  · rintro ⟨bucket, horder, hg⟩
    obtain ⟨rule, hrule, htag⟩ := (hbucket bucket).mpr hg
    exact ⟨rule, ⟨bucket, horder, hrule⟩, htag⟩

theorem mem_setTags_manual {r : SingBoxRule} {matchAppsByProcess : Bool} {directTag : String} :
    tag ∈ setTags (manualMatchers r matchAppsByProcess ++ manualAction r directTag) ↔
      ∃ g ∈ geoSets (parse r.domains) (parseIp r.ip), g.name = tag := by
  have haction : setTags (manualAction r directTag) = [] := by
    unfold manualAction
    split_ifs <;> simp [setTags, questionsIn]
  have hmatchers : setTags (manualMatchers r matchAppsByProcess) =
      distinctBy id (((parse r.domains).flatMap Selectors.geositeTags).map ("geosite-" ++ ·) ++
        ((parseIp r.ip).flatMap Selectors.geoipTags).map ("geoip-" ++ ·)) := by
    cases matchAppsByProcess <;>
    simp [setTags, manualMatchers, Function.comp_def]
  rw [setTags_append, haction, append_nil, hmatchers, mem_names_geoSets, distinctBy,
    mem_distinctByFrom_id]
  simp [mem_collect]

/-- THE MANUAL RULES USE exactly the sets their selectors ask for. -/
theorem uses_manualRules {rs : List SingBoxRule} {matchAppsByProcess : Bool} {directTag : String} :
    Uses (manualRules rs matchAppsByProcess directTag) tag ↔ ∃ g ∈ manualSets rs, g.name = tag := by
  simp only [Uses, manualRules, mem_map, List.mem_filter, mem_manualSets]
  constructor
  · rintro ⟨rule, ⟨r, ⟨hr, henabled⟩, rfl⟩, htag⟩
    obtain ⟨g, hg, rfl⟩ := mem_setTags_manual.mp htag
    exact ⟨g, ⟨r, hr, henabled, hg⟩, rfl⟩
  · rintro ⟨g, ⟨r, hr, henabled, hg⟩, rfl⟩
    exact ⟨_, ⟨r, ⟨hr, henabled⟩, rfl⟩, mem_setTags_manual.mpr ⟨g, hg, rfl⟩⟩

end OlcVpn.SingBoxRouting

namespace OlcVpn.SingBoxConfig

open Kotlin Generate SingBox SingBoxRouting

/-! ## The merged declarations -/

/-- The arguments of `build` that the rule sets depend on. -/
structure RuleSetArgs extends BuildArgs where
  singboxGeositeBase : String := ""
  singboxGeoipBase : String := ""
  customRuleSetsJson : String := ""

def adsUrl : String :=
  "https://raw.githubusercontent.com/SagerNet/sing-geosite/rule-set/geosite-category-ads-all.srs"

def russianIpUrl : String :=
  "https://raw.githubusercontent.com/SagerNet/sing-geoip/rule-set/geoip-ru.srs"

def russianSiteUrl : String :=
  "https://raw.githubusercontent.com/SagerNet/sing-geosite/rule-set/geosite-category-ru.srs"

section Declarations

variable (parse : String → Option Json) (body : JsonObject → String) (a : RuleSetArgs)

def mainIsWireguard : Bool := a.profile.type = "wireguard"

/-- Sets are fetched before a WireGuard endpoint is up. -/
def ruleSetDetour : String :=
  if a.wireguardBase.isSome || mainIsWireguard a then "direct" else "proxy"

/-- The sets of the embedded route. -/
def embeddedRuleSets : List JsonObject :=
  ((((embeddedRoute parse a.toBuildArgs).bind fun route => route.lookup "rule_set").bind
    jsonArrayOrNull).getD []).filterMap jsonObjectOrNull

/-- The user's verbatim sets. -/
def customRuleSets : List JsonObject :=
  if isBlank a.customRuleSetsJson then []
  else (((parse a.customRuleSetsJson).bind jsonArrayOrNull).getD []).filterMap jsonObjectOrNull

/-- The sets of the two toggles, with the addresses they are fetched from. -/
def toggleSets : List (GeoSet × String) :=
  (if a.routing.blockAds then [(.site "ads", adsUrl)] else []) ++
  (if a.routing.bypassRussia then [(.ip "ru", russianIpUrl), (.site "ru", russianSiteUrl)] else [])

/-- Where a selector alone has its set fetched from. -/
def ownUrl (g : GeoSet) : String := g.url a.singboxGeositeBase a.singboxGeoipBase

/-- What a selector alone has declared under these arguments. -/
def declaration (g : GeoSet) : JsonObject :=
  g.declaration a.singboxGeositeBase a.singboxGeoipBase (ruleSetDetour a)

/-- All declarations, before they are merged. -/
def declaredSets : List JsonObject :=
  embeddedRuleSets parse a ++
  if hasEmbeddedRoute parse a.toBuildArgs then []
  else
    ((a.routingProfile.map fun p =>
      ruleSets p a.singboxGeositeBase a.singboxGeoipBase (ruleSetDetour a)).getD []) ++
    customRuleSets parse a ++
    manualRuleSets a.routing.rules a.singboxGeositeBase a.singboxGeoipBase (ruleSetDetour a) ++
    (toggleSets a).map fun toggle => remoteSet toggle.1.name toggle.2 (ruleSetDetour a)

variable (set : JsonObject)

def tagOf : Option String := (contentOrThrow (set.lookup "tag")).getD none

def urlOf : Option String := (contentOrThrow (set.lookup "url")).getD none

/-- `toString()` of an object; what stands between its braces is left open. -/
def objectText : String := "\x7b" ++ body set ++ "\x7d"

/-- A set without a tag is merged under its own text. -/
def keyOf : String := (tagOf set).getD (objectText body set)

/-- The last declaration with a tag, in the place of the first; throws where a tag is no primitive.
    -/
def mergedRuleSets : Option (List JsonObject) :=
  let sets := declaredSets parse a
  if sets.all fun set => (contentOrThrow (set.lookup "tag")).isSome then
    some ((toLinkedMap (sets.map fun set => (keyOf body set, set))).map Prod.snd)
  else none

/-- The `route` object with its sets. -/
def routeWithSets : Option JsonObject :=
  (buildRoute parse a.toBuildArgs).bind fun route =>
    (mergedRuleSets parse body a).map fun sets =>
      route ++ fieldIf (!sets.isEmpty) "rule_set" (.array (sets.map .object))

end Declarations

/-- The declarations of a route. -/
def setsOf (route : JsonObject) : List JsonObject :=
  (((route.lookup "rule_set").bind jsonArrayOrNull).getD []).filterMap jsonObjectOrNull

/-- The tags a rule refers to. -/
def tagsOf : Json → List String
  | .object fields => setTags fields
  | _ => []

section Merge

variable {parse : String → Option Json} {body : JsonObject → String} {a : RuleSetArgs}

/-- A route that is built has these rules and these sets. -/
theorem routeWithSets_eq_some {route : JsonObject} (h : routeWithSets parse body a = some route) :
    ∃ rules sets, routeRules parse a.toBuildArgs = some rules ∧
      mergedRuleSets parse body a = some sets ∧
      rulesOf route = rules ∧ setsOf route = sets := by
  obtain ⟨plain, hplain, h⟩ := Option.bind_eq_some_iff.mp h
  obtain ⟨sets, hsets, rfl⟩ := Option.map_eq_some_iff.mp h
  obtain ⟨final, -, hplain⟩ := Option.bind_eq_some_iff.mp hplain
  obtain ⟨rules, hrules, rfl⟩ := Option.map_eq_some_iff.mp hplain
  refine ⟨rules, sets, hrules, hsets, ?_, ?_⟩
  · simp [rulesOf]
  · cases sets with
    | nil => simp [setsOf, fieldIf]
    | cons set rest =>
      simp [setsOf, fieldIf, List.filterMap_map, Function.comp_def]

/-- The declaration that wins for a tag: the last one. -/
def winner (body : JsonObject → String) (sets : List JsonObject) (tag : String) :
    Option JsonObject :=
  (sets.map fun set => (keyOf body set, set)).reverse.lookup tag

/-- A later declaration of a tag replaces an earlier one. -/
theorem winner_append (sets sets' : List JsonObject) (tag : String) :
    winner body (sets ++ sets') tag = (winner body sets' tag).or (winner body sets tag) := by
  rw [winner, map_append, List.reverse_append, List.lookup_append]
  rfl

variable (tag url detour : String)

@[simp] theorem tagOf_remoteSet : tagOf (remoteSet tag url detour) = some tag := by
  simp [tagOf, remoteSet, Json.str]

@[simp] theorem urlOf_remoteSet : urlOf (remoteSet tag url detour) = some url := by
  simp [urlOf, remoteSet, Json.str]

@[simp] theorem keyOf_remoteSet : keyOf body (remoteSet tag url detour) = tag := by
  rw [keyOf, tagOf_remoteSet, getD_some]

/-- The text of an object is not the tag of a selector. -/
theorem objectText_ne (set : JsonObject) (g : GeoSet) : objectText body set ≠ g.name := by
  intro h
  have hlists := congrArg String.toList h
  cases g <;> simp [objectText, GeoSet.name, String.toList_append] at hlists

theorem tagOf_eq_iff {set : JsonObject} {g : GeoSet} :
    tagOf set = some g.name ↔ keyOf body set = g.name := by
  rw [keyOf]
  cases htag : tagOf set with
  | none => simpa using objectText_ne set g
  | some tag => simp

/-- At most one merged declaration has the tag of a selector: the winner. -/
theorem filter_merged {sets : List JsonObject} (h : mergedRuleSets parse body a = some sets)
    (g : GeoSet) :
    (sets.filter fun set => tagOf set = some g.name) =
      (winner body (declaredSets parse a) g.name).toList := by
  unfold mergedRuleSets at h
  simp only at h
  split_ifs at h
  obtain rfl := some.inj h
  set pairs := (declaredSets parse a).map fun set => (keyOf body set, set) with hpairs
  rw [winner, ← hpairs, ← lookup_toLinkedMap, ← filter_key_of_nodup (nodup_toLinkedMap pairs),
    List.filter_map]
  congr 1
  apply List.filter_congr
  rintro ⟨key, set⟩ hmem
  -- the key of a merged declaration is its own
  obtain ⟨set', -, heq⟩ := mem_map.mp (mem_of_mem_toLinkedMap hmem)
  obtain ⟨rfl, rfl⟩ := Prod.mk.inj heq
  simp only [Function.comp_apply, decide_eq_decide]
  exact tagOf_eq_iff

/-- Of declarations made from sets, each wins under its own name. -/
theorem winner_declarations (sets : List GeoSet) (g : GeoSet) :
    winner body (sets.map (declaration a)) g.name = if g ∈ sets then some (declaration a g)
      else none := by
  induction sets using List.reverseRecOn with
  | nil => rfl
  | append_singleton rest last ih =>
    rw [map_append, winner_append, ih]
    have hlast : winner body ([last].map (declaration a)) g.name =
        if g = last then some (declaration a g) else none := by
      by_cases hg : g = last
      · subst hg
        simp [winner, declaration, GeoSet.declaration]
      · have hne : (g.name == last.name) = false := by
          simpa using fun e => hg (GeoSet.name_inj.mp e)
        simp [winner, declaration, GeoSet.declaration, hg, hne]
    rw [hlast]
    by_cases hg : g = last <;> simp [hg]

end Merge

/-! ## Which sets are used, and which are declared -/

/-- The sets of the buckets that are put in order. -/
def orderedSets (a : BuildArgs) : List GeoSet :=
  (a.routingProfile.map fun p => p.order.flatMap (bucketSets p)).getD []

/-- The sets of all buckets. -/
def allProfileSets (a : BuildArgs) : List GeoSet := (a.routingProfile.map profileSets).getD []

def toggledSets (a : RuleSetArgs) : List GeoSet := (toggleSets a).map Prod.fst

/-- The sets the app's own rules use. -/
def usedSets (a : RuleSetArgs) : List GeoSet :=
  manualSets a.routing.rules ++ orderedSets a.toBuildArgs ++ toggledSets a

section Used

variable {parse : String → Option Json} {body : JsonObject → String} {a : RuleSetArgs}

variable (parse) in
/-- The safety rules refer to no set. -/
theorem not_uses_safetyRules (tag : String) : ¬Uses (safetyRules parse a.toBuildArgs) tag := by
  rintro ⟨rule, hrule, htag⟩
  obtain ⟨field, hfield, hname⟩ := mem_map.mp (name_mem_of_mem_setTags htag)
  exact (safetyRules_fields parse a.toBuildArgs rule hrule field hfield).1 hname

variable {tag : String}

/-- The profile's rules use the sets of the buckets that its order names. -/
theorem uses_profileRules : Uses (profileRules a.toBuildArgs) tag ↔
    ∃ g ∈ orderedSets a.toBuildArgs, g.name = tag := by
  rw [profileRules, orderedSets]
  cases a.routingProfile with
  | none => simp [Uses]
  | some p =>
    simp only [map_some, getD_some, uses_rules, mem_flatMap]
    constructor
    · rintro ⟨bucket, horder, g, hg, hname⟩
      exact ⟨g, ⟨bucket, horder, hg⟩, hname⟩
    · rintro ⟨g, ⟨bucket, horder, hg⟩, hname⟩
      exact ⟨bucket, horder, g, hg, hname⟩

/-- The toggles' rules use the toggles' sets. -/
theorem uses_toggles : Uses (blockRules a.toBuildArgs) tag ∨ Uses (directRules a.toBuildArgs) tag ↔
      ∃ g ∈ toggledSets a, g.name = tag := by
  have hblock : Uses (blockRules a.toBuildArgs) tag ↔
      a.routing.blockAds = true ∧ tag = (GeoSet.site "ads").name := by
    unfold blockRules Uses
    cases a.routing.blockAds <;> split_ifs <;>
      simp_all [setTags, questionsIn, valuesOf, Json.str, GeoSet.name]
  have hdirect : Uses (directRules a.toBuildArgs) tag ↔ a.routing.bypassRussia = true ∧
      (tag = (GeoSet.ip "ru").name ∨ tag = (GeoSet.site "ru").name) := by
    unfold directRules Uses
    cases a.routing.bypassRussia <;> split_ifs <;>
      simp_all [setTags, questionsIn, valuesOf_strs, GeoSet.name]
  rw [hblock, hdirect, toggledSets, toggleSets]
  cases a.routing.blockAds <;> cases a.routing.bypassRussia <;> simp [eq_comm]

/-- THE APP'S RULES USE the sets of profile, manual rules and switches together. -/
theorem uses_appRules : Uses (appRules a.toBuildArgs) tag ↔ ∃ g ∈ usedSets a, g.name = tag := by
  have hsplit : Uses (appRules a.toBuildArgs) tag ↔
      (∃ g ∈ manualSets a.routing.rules, g.name = tag) ∨
        (∃ g ∈ orderedSets a.toBuildArgs, g.name = tag) ∨ ∃ g ∈ toggledSets a, g.name = tag := by
    rw [appRules, uses_append, uses_append, uses_append, uses_manualRules, uses_profileRules,
      ← uses_toggles, or_assoc, or_assoc]
    exact or_congr_right or_left_comm
  rw [hsplit]
  simp only [usedSets, mem_append, or_and_right, exists_or, or_assoc]

end Used

/-! ## Declared exactly once, and used -/

/-- Every set a rule refers to is declared exactly once, and every declared set is referred to. -/
structure SetsExact (route : JsonObject) : Prop where
  declaredOnce : ∀ rule ∈ rulesOf route, ∀ tag ∈ tagsOf rule,
    ((setsOf route).filterMap tagOf).count tag = 1
  used : ∀ set ∈ setsOf route, ∃ tag, tagOf set = some tag ∧ ∃ rule ∈ rulesOf route,
    tag ∈ tagsOf rule

/-- What only a bucket outside the order names is named by something that is emitted. -/
def OrderCovers (a : RuleSetArgs) : Prop :=
  ∀ p ∈ a.routingProfile, ∀ bucket, bucket ∉ p.order → ∀ g ∈ bucketSets p bucket,
    (∃ named ∈ p.order, g ∈ bucketSets p named) ∨ g ∈ manualSets a.routing.rules ∨ g ∈ toggledSets a

section Exact

variable {parse : String → Option Json} {body : JsonObject → String} {a : RuleSetArgs}

/-- The condition of the theorem: every set the profile declares is used. -/
theorem orderCovers_iff : OrderCovers a ↔ ∀ g ∈ allProfileSets a.toBuildArgs, g ∈ usedSets a := by
  rw [OrderCovers, allProfileSets, usedSets, orderedSets]
  cases a.routingProfile with
  | none => simp
  | some p =>
    simp only [Option.mem_def, some.injEq, forall_eq', map_some, getD_some,
      mem_profileSets, mem_append, mem_flatMap, forall_exists_index]
    constructor
    · intro h g bucket hg
      by_cases horder : bucket ∈ p.order
      · exact .inl (.inr ⟨bucket, horder, hg⟩)
      · rcases h bucket horder g hg with hnamed | hmanual | htoggle
        · exact .inl (.inr hnamed)
        · exact .inl (.inl hmanual)
        · exact .inr htoggle
    · intro h bucket _ g hg
      rcases h g bucket hg with (hmanual | hnamed) | htoggle
      · exact .inr (.inl hmanual)
      · exact .inl hnamed
      · exact .inr (.inr htoggle)

/-- What is used of a profile is declared; the order can only leave out. -/
theorem orderedSets_subset : orderedSets a.toBuildArgs ⊆ allProfileSets a.toBuildArgs := by
  intro g hg
  unfold orderedSets at hg
  unfold allProfileSets
  cases hprofile : a.routingProfile with
  | none => simp [hprofile] at hg
  | some p =>
    simp only [hprofile, map_some, getD_some, mem_flatMap] at hg
    obtain ⟨bucket, -, hg⟩ := hg
    simpa using mem_profileSets.mpr ⟨bucket, hg⟩

/-- The profile's declarations, bucket by bucket. -/
theorem profile_declarations : ((a.routingProfile.map fun p =>
    ruleSets p a.singboxGeositeBase a.singboxGeoipBase (ruleSetDetour a)).getD []) =
      (allProfileSets a.toBuildArgs).map (declaration a) := by
  rw [allProfileSets]
  cases a.routingProfile with
  | none | some p => rfl

theorem hasEmbeddedRoute_of_none (h : embeddedRoute parse a.toBuildArgs = none) :
    hasEmbeddedRoute parse a.toBuildArgs = false := by
  simp [hasEmbeddedRoute, embeddedRules, h]

variable (hjson : isBlank a.customRuleSetsJson = true)
    (hroute : embeddedRoute parse a.toBuildArgs = none)

include hjson hroute in
/-- Without JSON of the user's or a subscription's, a declaration is that of a selector or toggle.
    -/
theorem mem_declaredSets {set : JsonObject} : set ∈ declaredSets parse a ↔
    (∃ g, (g ∈ allProfileSets a.toBuildArgs ∨ g ∈ manualSets a.routing.rules) ∧
      declaration a g = set) ∨
      ∃ toggle ∈ toggleSets a, remoteSet toggle.1.name toggle.2 (ruleSetDetour a) = set := by
  have hembedded : embeddedRuleSets parse a = [] := by simp [embeddedRuleSets, hroute]
  have hcustom : customRuleSets parse a = [] := by rw [customRuleSets, if_pos hjson]
  rw [declaredSets, hasEmbeddedRoute_of_none hroute, if_neg Bool.false_ne_true, hembedded,
    profile_declarations,
    hcustom]
  simp only [manualRuleSets, List.nil_append, append_nil, mem_append, mem_map,
    or_and_right, exists_or]
  rfl

/-- The selectors and toggles that have a set declared. -/
def Declared (a : RuleSetArgs) (g : GeoSet) : Prop :=
  g ∈ allProfileSets a.toBuildArgs ∨ g ∈ manualSets a.routing.rules ∨ g ∈ toggledSets a

include hjson hroute

/-- Every declaration is that of a selector or toggle, and each of them has one. -/
theorem declared_form {set : JsonObject} (h : set ∈ declaredSets parse a) :
    ∃ g url, Declared a g ∧ set = remoteSet g.name url (ruleSetDetour a) := by
  rcases (mem_declaredSets hjson hroute).mp h with ⟨g, hg, rfl⟩ | ⟨toggle, htoggle, rfl⟩
  · exact ⟨g, _, hg.imp_right .inl, rfl⟩
  · exact ⟨toggle.1, _, .inr (.inr (List.mem_map_of_mem htoggle)), rfl⟩

/-- Every declared set has a declaration with its name. -/
theorem exists_declaration {g : GeoSet} (hg : Declared a g) :
    ∃ url, remoteSet g.name url (ruleSetDetour a) ∈ declaredSets parse a := by
  simp only [mem_declaredSets hjson hroute]
  rcases hg with hg | hg | hg
  · exact ⟨_, .inl ⟨g, .inl hg, rfl⟩⟩
  · exact ⟨_, .inl ⟨g, .inr hg, rfl⟩⟩
  · obtain ⟨toggle, htoggle, rfl⟩ := mem_map.mp hg
    exact ⟨_, .inr ⟨toggle, htoggle, rfl⟩⟩

/-- The merged declarations: no tag twice, and all of them. -/
theorem mergedRuleSets_tags : ∃ sets, mergedRuleSets parse body a = some sets ∧
    (sets.filterMap tagOf).Nodup ∧ (∀ set ∈ sets, ∃ tag, tagOf set = some tag) ∧
    ∀ tag, tag ∈ sets.filterMap tagOf ↔ ∃ g, Declared a g ∧ g.name = tag := by
  have htag : ∀ set ∈ declaredSets parse a, tagOf set = some (keyOf body set) := by
    intro set hset
    obtain ⟨g, url, -, rfl⟩ := declared_form hjson hroute hset
    simp
  set pairs := (declaredSets parse a).map fun set => (keyOf body set, set) with hpairs
  have hown : ∀ pair ∈ toLinkedMap pairs, tagOf pair.2 = some pair.1 := by
    intro pair hpair
    obtain ⟨set, hset, rfl⟩ := mem_map.mp (mem_of_mem_toLinkedMap hpair)
    exact htag set hset
  have htags : ((toLinkedMap pairs).map Prod.snd).filterMap tagOf =
      (toLinkedMap pairs).map Prod.fst := by
    rw [List.filterMap_map, ← List.filterMap_eq_map]
    exact List.filterMap_congr hown
  refine ⟨_, if_pos (List.all_eq_true.mpr fun set hset => ?_), ?_, ?_, ?_⟩
  · obtain ⟨g, url, -, rfl⟩ := declared_form hjson hroute hset
    simp [remoteSet, Json.str]
  · exact htags ▸ nodup_toLinkedMap pairs
  · intro set hset
    obtain ⟨pair, hpair, rfl⟩ := mem_map.mp hset
    exact ⟨_, hown pair hpair⟩
  · intro tag
    rw [htags, mem_keys_toLinkedMap, hpairs, map_map, mem_map]
    constructor
    · rintro ⟨set, hset, rfl⟩
      obtain ⟨g, url, hg, rfl⟩ := declared_form hjson hroute hset
      exact ⟨g, hg, by simp⟩
    · rintro ⟨g, hg, rfl⟩
      obtain ⟨url, hset⟩ := exists_declaration hjson hroute hg
      exact ⟨_, hset, by simp⟩

omit hjson in
/-- The rules of a route without JSON refer to the sets of the app's own rules. -/
theorem routeRules_tags (hverbatim : isBlank a.routing.customRulesJson = true) :
    ∃ rules, routeRules parse a.toBuildArgs = some rules ∧
      ∀ tag, (∃ rule ∈ rules, tag ∈ tagsOf rule) ↔ ∃ g ∈ usedSets a, g.name = tag := by
  refine ⟨_, by rw [routeRules, hasEmbeddedRoute_of_none hroute, if_neg Bool.false_ne_true],
    fun tag => ?_⟩
  rw [verbatimRules, if_pos hverbatim, append_nil, ← map_append, ← uses_appRules]
  constructor
  · rintro ⟨rule, hrule, htag⟩
    obtain ⟨fields, hfields, rfl⟩ := mem_map.mp hrule
    have huses : Uses (safetyRules parse a.toBuildArgs ++ appRules a.toBuildArgs) tag :=
      ⟨fields, hfields, htag⟩
    exact (uses_append.mp huses).resolve_left (not_uses_safetyRules parse tag)
  · rintro ⟨fields, hfields, htag⟩
    exact ⟨.object fields, List.mem_map_of_mem (List.mem_append_right _ hfields), htag⟩

variable (parse body a) in
/-- USED AND DECLARED ARE THE SAME SETS exactly if what the order leaves out is used elsewhere. -/
theorem setsExact_iff (hverbatim : isBlank a.routing.customRulesJson = true) :
    ∃ route, routeWithSets parse body a = some route ∧ (SetsExact route ↔ OrderCovers a) := by
  obtain ⟨rules, hrules, hused⟩ := routeRules_tags hroute hverbatim
  obtain ⟨sets, hsets, hnodup, htagged, hdeclared⟩ : ∃ sets,
      mergedRuleSets parse body a = some sets ∧
      (sets.filterMap tagOf).Nodup ∧ (∀ set ∈ sets, ∃ tag, tagOf set = some tag) ∧
      ∀ tag, tag ∈ sets.filterMap tagOf ↔ ∃ g, Declared a g ∧ g.name = tag :=
    mergedRuleSets_tags hjson hroute
  have hfinal : ∃ final, routeFinal parse a.toBuildArgs = some final := by
    rw [routeFinal, hasEmbeddedRoute_of_none hroute, if_neg Bool.false_ne_true]
    exact ⟨_, rfl⟩
  obtain ⟨final, hfinal⟩ := hfinal
  obtain ⟨route, hroute'⟩ : ∃ route, routeWithSets parse body a = some route := by
    rw [routeWithSets, buildRoute, hfinal, hrules, hsets]
    exact ⟨_, rfl⟩
  obtain ⟨rules', sets', hrules', hsets', hrulesOf, hsetsOf⟩ := routeWithSets_eq_some hroute'
  obtain rfl := some.inj (hrules.symm.trans hrules')
  obtain rfl := some.inj (hsets.symm.trans hsets')
  refine ⟨route, hroute', ?_⟩
  rw [orderCovers_iff]
  constructor
  · rintro ⟨-, hall⟩ g hg
    -- the set is declared, so some rule refers to it
    have hmem : g.name ∈ sets.filterMap tagOf := (hdeclared _).mpr ⟨g, .inl hg, rfl⟩
    obtain ⟨set, hset, htag⟩ := List.mem_filterMap.mp hmem
    obtain ⟨tag, htag', hrule⟩ := hall set (hsetsOf ▸ hset)
    obtain rfl := some.inj (htag.symm.trans htag')
    obtain ⟨g', hg', hname⟩ := (hused _).mp (hrulesOf ▸ hrule)
    exact GeoSet.name_inj.mp hname ▸ hg'
  · intro hcovers
    constructor
    · intro rule hrule tag htag
      obtain ⟨g, hg, rfl⟩ := (hused tag).mp ⟨rule, hrulesOf ▸ hrule, htag⟩
      rw [hsetsOf]
      refine List.count_eq_one_of_mem hnodup ((hdeclared _).mpr ⟨g, ?_, rfl⟩)
      rcases mem_append.mp hg with hg | htoggled
      · rcases mem_append.mp hg with hmanual | hordered
        · exact .inr (.inl hmanual)
        · exact .inl (orderedSets_subset hordered)
      · exact .inr (.inr htoggled)
    · intro set hset
      rw [hsetsOf] at hset
      obtain ⟨tag, htag⟩ := htagged set hset
      obtain ⟨g, hg, rfl⟩ := (hdeclared tag).mp (List.mem_filterMap.mpr ⟨set, hset, htag⟩)
      have hg : g ∈ usedSets a := by
        rcases hg with hprofile | hmanual | htoggled
        · exact hcovers g hprofile
        · exact List.mem_append_left _ (List.mem_append_left _ hmanual)
        · exact List.mem_append_right _ htoggled
      exact ⟨_, htag, hrulesOf ▸ (hused _).mpr ⟨g, hg, rfl⟩⟩

end Exact

/-- A profile with one site, in a bucket of the order. -/
def listedArgs : RuleSetArgs :=
  { profile := {}, routingProfile := some { directSites := ["geosite:ru"] } }

/-- A profile whose order names all its buckets. -/
theorem listed_exact : ∃ route,
    routeWithSets (fun _ => none) (fun _ => "") listedArgs = some route ∧ SetsExact route := by
  have hcovers : OrderCovers listedArgs := by
    rintro p ⟨⟩ bucket hbucket
    exact absurd (by cases bucket <;> decide) hbucket
  obtain ⟨route, hroute, hiff⟩ := setsExact_iff (fun _ => none) (fun _ => "") listedArgs (by decide)
    rfl (by decide)
  exact ⟨route, hroute, hiff.mpr hcovers⟩

/-- The same site, in a bucket the order string leaves out. -/
def unlistedArgs : RuleSetArgs :=
  { profile := {}, routingProfile := some { routeOrder := "proxy", directSites := ["geosite:ru"] } }

/-- A set is declared, and fetched, that no rule refers to. -/
theorem unlisted_bucket_declared :
    isBlank unlistedArgs.customRuleSetsJson = true ∧
      isBlank unlistedArgs.routing.customRulesJson = true ∧
    embeddedRoute (fun _ => none) unlistedArgs.toBuildArgs = none ∧
    ∃ route, routeWithSets (fun _ => none) (fun _ => "") unlistedArgs = some route ∧
      ¬SetsExact route := by
  have hsome : (routeWithSets (fun _ => none) (fun _ => "") unlistedArgs).isSome := by decide
  obtain ⟨route, hroute⟩ := isSome_iff_exists.mp hsome
  refine ⟨by decide, by decide, rfl, route, hroute, fun hexact => ?_⟩
  have hrules : ((routeWithSets (fun _ => none) (fun _ => "") unlistedArgs).map fun route =>
      (rulesOf route).flatMap tagsOf) = some [] := by decide
  have hsets : ((routeWithSets (fun _ => none) (fun _ => "") unlistedArgs).map fun route =>
      (setsOf route).filterMap tagOf) = some ["geosite-ru"] := by decide
  rw [hroute, map_some, some.injEq] at hrules hsets
  obtain ⟨set, hset, htag⟩ := List.mem_filterMap.mp (hsets ▸ List.mem_cons_self : "geosite-ru" ∈ _)
  obtain ⟨tag, -, rule, hrule, hmem⟩ := hexact.used set hset
  have hnone : tag ∈ (rulesOf route).flatMap tagsOf := mem_flatMap.mpr ⟨rule, hrule, hmem⟩
  rw [hrules] at hnone
  cases hnone

/-! ## Fetched from the selector's own address -/

section Own

variable (parse : String → Option Json) (body : JsonObject → String) (a : RuleSetArgs)

/-- The emitted rules that come from selectors. -/
def selectorRules : List JsonObject :=
  if hasEmbeddedRoute parse a.toBuildArgs then []
  else manualRules a.routing.rules a.matchAppsByProcess a.directTag ++ profileRules a.toBuildArgs

/-- Where a rule refers to a set because of a selector, there is one declaration with its tag, and
    it is fetched from the address that selector alone gives it. -/
def OwnUrls (route : JsonObject) : Prop :=
  ∀ g : GeoSet, Uses (selectorRules parse a) g.name →
    ((setsOf route).filter fun set => tagOf set = some g.name).map urlOf = [some (ownUrl a g)]

/-- The sets that selectors of emitted rules name. -/
def selectedSets : List GeoSet := manualSets a.routing.rules ++ orderedSets a.toBuildArgs

/-- No toggle and no verbatim set takes the place of a selector's set. -/
structure SelectorsWin : Prop where
  ads : a.routing.blockAds = true → .site "ads" ∉ selectedSets a
  russianSites : a.routing.bypassRussia = true → .site "ru" ∉ selectedSets a
  russianAddresses : a.routing.bypassRussia = true → .ip "ru" ∈ selectedSets a →
    baseOr a.singboxGeoipBase defaultGeoipBase = defaultGeoipBase
  -- a verbatim set stands after those of the profile and before those of the structured rules
  verbatim : ∀ g ∈ orderedSets a.toBuildArgs, g ∉ manualSets a.routing.rules → g ∉ toggledSets a →
    ∀ set, winner body (customRuleSets parse a) g.name = some set → urlOf set = some (ownUrl a g)

/-- The address a toggle gives a set. -/
def toggleUrl (g : GeoSet) : Option String := (toggleSets a).reverse.lookup g

/-- What wins for a selector has its address: a toggle's set, or a verbatim one behind the
    profile's. -/
@[mk_iff keepsUrl_iff]
structure KeepsUrl (g : GeoSet) : Prop where
  toggle : ∀ url, toggleUrl a g = some url → url = ownUrl a g
  verbatim : g ∉ toggledSets a → g ∉ manualSets a.routing.rules →
    ∀ set, winner body (customRuleSets parse a) g.name = some set → urlOf set = some (ownUrl a g)

end Own

section Own

variable {parse : String → Option Json} {body : JsonObject → String} {a : RuleSetArgs}

/-- Beside the switches, a set is used if and only if a selector asks for it. -/
theorem uses_selectorRules (h : hasEmbeddedRoute parse a.toBuildArgs = false) (g : GeoSet) :
    Uses (selectorRules parse a) g.name ↔ g ∈ selectedSets a := by
  have hmem : ∀ sets : List GeoSet, (∃ g' ∈ sets, g'.name = g.name) ↔ g ∈ sets := by
    simp [GeoSet.name_inj]
  rw [selectorRules, h, if_neg Bool.false_ne_true, uses_append, uses_manualRules,
    uses_profileRules, hmem,
    hmem, selectedSets, mem_append]

/-- The declaration of a switch wins under its name, with the URL of the switch. -/
theorem winner_toggles (g : GeoSet) :
    winner body ((toggleSets a).map fun toggle => remoteSet toggle.1.name toggle.2
      (ruleSetDetour a)) g.name =
      (toggleUrl a g).map fun url => remoteSet g.name url (ruleSetDetour a) := by
  have hlookup : ∀ toggles : List (GeoSet × String),
      (toggles.map fun toggle => (toggle.1.name,
      remoteSet toggle.1.name toggle.2 (ruleSetDetour a))).lookup
        g.name = (toggles.lookup g).map fun url => remoteSet g.name url (ruleSetDetour a) := by
    intro toggles
    induction toggles with
    | nil => rfl
    | cons toggle rest ih =>
      obtain ⟨g', url⟩ := toggle
      rw [List.map_cons, List.lookup_cons, List.lookup_cons, ih]
      by_cases hg : g = g'
      · simp [hg]
      · have hname : (g.name == g'.name) = false := by
          simpa using fun e => hg (GeoSet.name_inj.mp e)
        have hset : (g == g') = false := by simpa using hg
        rw [hname, hset]
  rw [winner, map_map, ← List.map_reverse, toggleUrl, ← hlookup]
  simp only [Function.comp_def, keyOf_remoteSet]

variable {g : GeoSet}

theorem toggleUrl_eq_none : toggleUrl a g = none ↔ g ∉ toggledSets a := by
  rw [← Option.not_isSome_iff_eq_none, toggleUrl, lookup_isSome_iff, List.map_reverse,
    List.mem_reverse]
  rfl

/-- A set is loaded from its own URL exactly if no later declaration takes its name. -/
theorem url_of_winner (h : hasEmbeddedRoute parse a.toBuildArgs = false) (hg : g ∈ selectedSets a) :
    (winner body (declaredSets parse a) g.name).toList.map urlOf = [some (ownUrl a g)] ↔
      KeepsUrl parse body a g := by
  have hmanual : manualRuleSets a.routing.rules a.singboxGeositeBase a.singboxGeoipBase
      (ruleSetDetour a) =
      (manualSets a.routing.rules).map (declaration a) := rfl
  have hurl : urlOf (declaration a g) = some (ownUrl a g) := urlOf_remoteSet _ _ _
  rw [keepsUrl_iff, declaredSets, h, if_neg Bool.false_ne_true, profile_declarations, hmanual,
    winner_append,
    winner_append, winner_append, winner_append, winner_toggles, winner_declarations,
    winner_declarations,
    ← toggleUrl_eq_none]
  cases htoggle : toggleUrl a g with
  | some url => simp
  | none =>
    by_cases hman : g ∈ manualSets a.routing.rules
    · simp [hman, hurl]
    · have hall : g ∈ allProfileSets a.toBuildArgs :=
        orderedSets_subset ((mem_append.mp hg).resolve_left hman)
      cases hcustom : winner body (customRuleSets parse a) g.name with
      | none => simp [hman, hall, hurl]
      | some set => simp [hman]

/-- A selector's set of sites is fetched under the selector's own name. -/
theorem site_url_ne {url tag : String} (h : ¬("geosite-" ++ tag ++ ".srs").toList <:+ url.toList) :
    url ≠ ownUrl a (.site tag) := by
  have hurl : ownUrl a (.site tag) =
      baseOr a.singboxGeositeBase defaultGeositeBase ++ ("geosite-" ++ tag ++ ".srs") := by
    rw [ownUrl, GeoSet.url, String.append_assoc, String.append_assoc, String.append_assoc]
  intro heq
  apply h
  rw [heq, hurl]
  exact ⟨_, String.toList_append.symm⟩

theorem ads_url_ne : adsUrl ≠ ownUrl a (.site "ads") := site_url_ne (by decide)

theorem russian_url_ne : russianSiteUrl ≠ ownUrl a (.site "ru") := site_url_ne (by decide)

/-- The toggle's set of addresses is the selector's under the default base. -/
theorem russian_ip_url_iff : russianIpUrl = ownUrl a (.ip "ru") ↔
    baseOr a.singboxGeoipBase defaultGeoipBase = defaultGeoipBase := by
  have hurl : ownUrl a (.ip "ru") = baseOr a.singboxGeoipBase defaultGeoipBase ++
      "geoip-ru.srs" := by
    have hlength : Locations.utf16Length "ru" = 2 := by decide
    rw [ownUrl, GeoSet.url, geoipUrl, hlength, if_neg (by simp), String.append_assoc,
      String.append_assoc]
    rfl
  have hdefault : russianIpUrl = defaultGeoipBase ++ "geoip-ru.srs" := by decide
  rw [hurl, hdefault]
  constructor
  · intro h
    have hlists := congrArg String.toList h
    rw [String.toList_append, String.toList_append, List.append_cancel_right_eq] at hlists
    exact (String.toList_inj.mp hlists).symm
  · intro h
    rw [h]

/-- What the toggles give an address to. -/
theorem toggleUrl_eq_some {url : String} : toggleUrl a g = some url ↔
    (a.routing.blockAds = true ∧ g = .site "ads" ∧ url = adsUrl) ∨
    (a.routing.bypassRussia = true ∧ g = .ip "ru" ∧ url = russianIpUrl) ∨
    (a.routing.bypassRussia = true ∧ g = .site "ru" ∧ url = russianSiteUrl) := by
  rw [toggleUrl, toggleSets]
  constructor
  · intro h
    have hmem := List.mem_reverse.mp (mem_of_lookup_eq_some h)
    cases hads : a.routing.blockAds <;> cases hru : a.routing.bypassRussia <;> simp_all
  · rintro (⟨h, rfl, rfl⟩ | ⟨h, rfl, rfl⟩ | ⟨h, rfl, rfl⟩)
    · rw [h]
      cases a.routing.bypassRussia <;> rfl
    · rw [h]
      cases a.routing.blockAds <;> rfl
    · rw [h]
      cases a.routing.blockAds <;> rfl

/-- EVERY SELECTOR'S SET COMES FROM ITS OWN URL exactly if none is overridden by a switch or by the
    embedded route. -/
theorem ownUrls_iff {route : JsonObject} (h : routeWithSets parse body a = some route) :
    OwnUrls parse a route ↔
      (hasEmbeddedRoute parse a.toBuildArgs = false → SelectorsWin parse body a) := by
  obtain ⟨-, sets, -, hsets, -, hsetsOf⟩ := routeWithSets_eq_some h
  cases hembedded : hasEmbeddedRoute parse a.toBuildArgs with
  | true =>
    -- no rule comes from a selector
    refine ⟨fun _ h => Bool.noConfusion h, fun _ g hg => ?_⟩
    obtain ⟨rule, hrule, -⟩ := hg
    rw [selectorRules, hembedded, if_pos rfl] at hrule
    cases hrule
  | false =>
    rw [OwnUrls, hsetsOf]
    simp only [filter_merged hsets, uses_selectorRules hembedded, forall_const]
    have hown :
        (∀ g ∈ selectedSets a, (winner body (declaredSets parse a) g.name).toList.map urlOf =
        [some (ownUrl a g)]) ↔ ∀ g ∈ selectedSets a, KeepsUrl parse body a g :=
      forall_congr' fun g => imp_congr_right fun hg => url_of_winner hembedded hg
    rw [hown]
    constructor
    · intro hall
      refine ⟨fun hads hg => ?_, fun hru hg => ?_, fun hru hg => ?_, fun g hg hman htog => ?_⟩
      · exact ads_url_ne ((hall _ hg).toggle _ (toggleUrl_eq_some.mpr (.inl ⟨hads, rfl, rfl⟩)))
      · exact russian_url_ne ((hall _ hg).toggle _
          (toggleUrl_eq_some.mpr (.inr (.inr ⟨hru, rfl, rfl⟩))))
      · exact russian_ip_url_iff.mp
          ((hall _ hg).toggle _ (toggleUrl_eq_some.mpr (.inr (.inl ⟨hru, rfl, rfl⟩))))
      · exact (hall g (List.mem_append_right _ hg)).verbatim htog hman
    · intro hwin g hg
      refine ⟨fun url hurl => ?_, fun htog hman => ?_⟩
      · rcases toggleUrl_eq_some.mp hurl with ⟨hads, rfl, rfl⟩ | ⟨hru, rfl, rfl⟩ | ⟨hru, rfl, rfl⟩
        · exact absurd hg (hwin.ads hads)
        · exact russian_ip_url_iff.mpr (hwin.russianAddresses hru hg)
        · exact absurd hg (hwin.russianSites hru)
      · exact hwin.verbatim g ((mem_append.mp hg).resolve_left hman) hman htog

end Own

/-- The site of the profile, next to the other toggle. -/
def ownArgs : RuleSetArgs :=
  { profile := {}, routing := { blockAds := true },
    routingProfile := some { directSites := ["geosite:ru"] } }

/-- A site list that no switch is for. -/
theorem site_keeps_its_url :
    ∃ route, routeWithSets (fun _ => none) (fun _ => "") ownArgs = some route ∧
    OwnUrls (fun _ => none) ownArgs route := by
  have hsome : (routeWithSets (fun _ => none) (fun _ => "") ownArgs).isSome := by decide
  obtain ⟨route, hroute⟩ := isSome_iff_exists.mp hsome
  refine ⟨route, hroute, (ownUrls_iff hroute).mpr fun _ => ⟨fun _ => ?_, ?_, ?_, ?_⟩⟩
  · decide
  · exact fun h => Bool.noConfusion h
  · exact fun h => Bool.noConfusion h
  · intro g _ _ _ set hset
    cases hset

/-- The same profile, with the toggle that has a set of the same tag. -/
def toggledArgs : RuleSetArgs :=
  { profile := {}, routing := { bypassRussia := true },
    routingProfile := some { proxySites := ["geosite:ru"] } }

/-- The user's `geosite:ru` is fetched as the toggle's `geosite-category-ru`. -/
theorem toggle_replaces_site : ∃ route,
    routeWithSets (fun _ => none) (fun _ => "") toggledArgs = some route ∧
      ¬OwnUrls (fun _ => none) toggledArgs route := by
  have hsome : (routeWithSets (fun _ => none) (fun _ => "") toggledArgs).isSome := by decide
  obtain ⟨route, hroute⟩ := isSome_iff_exists.mp hsome
  refine ⟨route, hroute, fun hown => ?_⟩
  have hembedded : hasEmbeddedRoute (fun _ => none) toggledArgs.toBuildArgs = false := rfl
  have huses : Uses (selectorRules (fun _ => none) toggledArgs) (GeoSet.site "ru").name :=
    (uses_selectorRules hembedded _).mpr (by decide)
  have hurls : ((routeWithSets (fun _ => none) (fun _ => "") toggledArgs).map fun route =>
      ((setsOf route).filter fun set => tagOf set = some "geosite-ru").map urlOf) =
      some [some russianSiteUrl] := by decide
  rw [hroute, map_some, some.injEq] at hurls
  have hsame := hurls.symm.trans (hown (.site "ru") huses)
  exact russian_url_ne (some.inj (List.cons.inj hsame).1)

end OlcVpn.SingBoxConfig
