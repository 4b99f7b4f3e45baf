/-
  HOW THE TWO CORES EVALUATE a routing profile.

  Both generators translate the same profile, each into the matching language of its core.  Here
  are the two languages as far as such a profile uses them, on the JSON rules themselves: which
  connections a rule matches, and what the first matching rule decides.

  A connection has a domain name, or not, and a destination address, or not.  Both cores lower the
  name's case before they look at it.  Xray lowers the case of the texts it compares with too, and
  sing-box takes them as they are written.  A core that cannot read a rule (a pattern that is none,
  for sing-box also an empty name) refuses the whole configuration, and nothing is decided.

  Patterns, the lowering of a character and address ranges are the same for both cores, so they are
  parameters (`Semantics`); an address stands for the range of that one address.
-/
import OlcVpn.Lib.FirstMatch
import OlcVpn.SingBox.Routing
import OlcVpn.Xray.Routing

namespace OlcVpn.Cores

open Kotlin Generate Lib List

/-! ## Connections -/

/-- Patterns, which may be invalid, the case of characters, and address ranges. -/
structure Semantics where
  Addr : Type
  regex : String → Option (String → Bool)
  lowerChar : Char → Char
  inRange : String → Addr → Bool
  lowerChar_lowerChar : ∀ c, lowerChar (lowerChar c) = lowerChar c
  lowerChar_ascii : ∀ c, c.toNat < 128 → lowerChar c = c.toLower
  inRange_toCidr : ∀ entry addr, inRange (SingBoxRouting.toCidr entry) addr = inRange entry addr

/-- `strings.ToLower`. -/
def Semantics.lower (S : Semantics) (s : String) : String :=
  String.ofList (s.toList.map S.lowerChar)

inductive Network where
  | tcp | udp
  deriving DecidableEq, Repr

def Network.name : Network → String
  | .tcp => "tcp"
  | .udp => "udp"

structure Connection (S : Semantics) where
  domain : Option String
  address : Option S.Addr
  network : Network

variable (S : Semantics)

/-- The texts of an array field. -/
def textsAt (rule : JsonObject) (name : String) : Option (List String) :=
  ((rule.lookup name).bind jsonArrayOrNull).map fun items =>
    items.filterMap fun item => match item with
      | .literal _ content => some content
      | _ => none

/-- A condition that is absent holds. -/
def holds (rule : JsonObject) (name : String) (test : List String → Bool) : Bool :=
  ((textsAt rule name).map test).getD true

/-- The name both cores look at; an empty one counts as none. -/
def Connection.name {S : Semantics} (conn : Connection S) : Option String :=
  (conn.domain.filter (· ≠ "")).map S.lower

/-- The name is one a test accepts. -/
def onDomain {S : Semantics} (conn : Connection S) (test : String → Bool) : Bool :=
  conn.name.any test

/-- The address lies in one of the ranges. -/
def inRanges {S : Semantics} (conn : Connection S) (ranges : List String) : Bool :=
  conn.address.any fun addr => ranges.any fun range => S.inRange range addr

/-- `endsWith`. -/
def endsWith (text ending : String) : Bool := ending.toList.isSuffixOf text.toList

/-- The name itself and its subdomains. -/
def isSubdomain (name domain : String) : Bool := domain = name || endsWith domain ("." ++ name)

/-- A valid pattern that fits the name. -/
def fits (pattern domain : String) : Bool := (S.regex pattern).any fun found => found domain

/-! ## Xray -/

/-- One entry of a `domain` list: the scheme is read as it is written, anything else is a substring.
    All texts but patterns are put into lower case. -/
def xraySite (entry domain : String) : Bool :=
  if startsWith entry "regexp:" then fits S (substringFrom entry 7) domain
  else if startsWith entry "domain:" then isSubdomain (S.lower (substringFrom entry 7)) domain
  else if startsWith entry "full:" then domain = S.lower (substringFrom entry 5)
  else if startsWith entry "keyword:" then contains domain (S.lower (substringFrom entry 8))
  else contains domain (S.lower entry)

/-- The pattern of an entry is one. -/
def xrayReads (entry : String) : Bool :=
  if startsWith entry "regexp:" then (S.regex (substringFrom entry 7)).isSome else true

/-- Xray can load a rule. -/
def xrayLoads (rule : JsonObject) : Bool := holds rule "domain" fun l => l.all (xrayReads S)

variable (conn : Connection S)

/-- Xray ANDs the conditions of a rule. -/
def xrayMatches (rule : JsonObject) : Bool :=
  holds rule "domain" (fun entries => onDomain conn fun d => entries.any fun e => xraySite S e d) &&
    holds rule "ip" (inRanges conn) &&
    holds rule "network" (fun names => names.contains conn.network.name)

/-- What a rule for a tag decides. -/
def xrayDecision (rule : JsonObject) : Option Bucket :=
  (JsonObject.string rule "outboundTag").bind RoutingProfile.bucketOf

variable (p : RoutingProfile)

/-- First match; the default outbound of the core is the proxy. -/
def xrayVerdict : Option Bucket :=
  if (Xray.rules p).all (xrayLoads S) then
    firstMatch (xrayMatches S conn) xrayDecision (some .proxy) (Xray.rules p)
  else none

/-! ## sing-box -/

/-- The fields a profile uses, each with its test. -/
def singBoxTests : List (String × (List String → Bool)) :=
  [("domain_suffix", fun l => onDomain conn fun d => l.any fun e => endsWith d e),
    ("domain", fun l => onDomain conn fun d => l.any fun e => d = e),
    ("domain_keyword", fun l => onDomain conn fun d => l.any fun e => contains d e),
    ("domain_regex", fun l => onDomain conn fun d => l.any fun e => fits S e d),
    ("ip_cidr", inRanges conn),
    -- rule sets are downloaded; a profile without geo selectors has none
    ("rule_set", fun _ => false)]

def singBoxMatches (rule : JsonObject) : Bool :=
  (singBoxTests S conn).all fun field => holds rule field.1 field.2

def singBoxDecision (rule : JsonObject) : Option Bucket :=
  if JsonObject.string rule "action" = some "reject" then some .block
  else (JsonObject.string rule "outbound").bind RoutingProfile.bucketOf

/-- sing-box can load a rule: no name is empty, and the patterns are patterns. -/
def singBoxLoads (rule : JsonObject) : Bool :=
  holds rule "domain" (fun l => l.all (· ≠ "")) &&
    holds rule "domain_suffix" (fun l => l.all (· ≠ "")) &&
    holds rule "domain_regex" fun l => l.all fun e => (S.regex e).isSome

def singBoxVerdict : Option Bucket :=
  if (SingBoxRouting.rules p false "direct").all (singBoxLoads S) then
    firstMatch (singBoxMatches S conn) singBoxDecision
      (RoutingProfile.bucketOf (SingBoxRouting.finalOutbound p "direct"))
      (SingBoxRouting.rules p false "direct")
  else none

/-- The names one parsed selector matches. -/
def selectorMatches (s : SingBoxRouting.Selectors) (domain : String) : Bool :=
  s.domainSuffix.any (endsWith domain ·) || s.domainExact.any (domain = ·) ||
    s.domainKeyword.any (contains domain ·) || s.domainRegex.any (fits S · domain)

/-- A parsed selector that sing-box can load. -/
def selectorLoads (s : SingBoxRouting.Selectors) : Bool :=
  s.domainExact.all (· ≠ "") && s.domainSuffix.all (· ≠ "") &&
    s.domainRegex.all fun e => (S.regex e).isSome

/-- The names one entry of a site list matches. -/
def singBoxSite (entry domain : String) : Bool :=
  (SingBoxRouting.parseSite entry).any fun s => selectorMatches S s domain

/-! ## Buckets -/

/-- Where a connection goes that no bucket caught. -/
def rest : Bucket := if p.globalProxy then .proxy else .direct

def xrayBucket (bucket : Bucket) : Bool :=
  onDomain conn (fun d => (Xray.siteEntries (p.sites bucket)).any fun e => xraySite S e d) ||
    inRanges conn (Xray.ipEntries (p.ips bucket))

theorem holds_of_lookup {rule : JsonObject} {name : String} (texts : List String)
    (h : rule.lookup name = some (.strs texts)) (test : List String → Bool) :
    holds rule name test = test texts := by
  simp [holds, textsAt, h, Json.strs, filterMap_map, Function.comp_def, Json.str]

theorem holds_of_none {rule : JsonObject} {name : String} (h : rule.lookup name = none)
    (test : List String → Bool) : holds rule name test = true := by
  simp [holds, textsAt, h]

/-- The rules of a bucket match where one of its entries does. -/
theorem any_bucketSplitRules (sites ips : List String) (tag : String) :
    (Xray.bucketSplitRules sites ips tag).any (xrayMatches S conn) =
      (onDomain conn (fun d => (Xray.siteEntries sites).any fun e => xraySite S e d) ||
        inRanges conn (Xray.ipEntries ips)) := by
  have hsite : ∀ texts, xrayMatches S conn (Xray.fieldRule "domain" (.strs texts) tag) =
      onDomain conn fun d => texts.any fun e => xraySite S e d := by
    intro texts
    rw [xrayMatches, Xray.fieldRule, holds_of_lookup texts (by simp),
      holds_of_none (by simp), holds_of_none (by simp)]
    simp
  have hip : ∀ texts, xrayMatches S conn (Xray.fieldRule "ip" (.strs texts) tag) =
      inRanges conn texts := by
    intro texts
    rw [xrayMatches, Xray.fieldRule, holds_of_none (by simp),
      holds_of_lookup texts (by simp),
      holds_of_none (by simp)]
    simp
  rw [Xray.bucketSplitRules, any_append]
  congr 1
  · split_ifs with hempty
    · cases hd : conn.name <;> simp [onDomain, hd, hempty]
    · simp [hsite]
  · split_ifs with hempty
    · cases ha : conn.address <;> simp [inRanges, ha, hempty]
    · simp [hip]

/-- Xray loads the rules of a profile if it can read the entries of the buckets in the order. -/
theorem xrayLoads_rules : (Xray.rules p).all (xrayLoads S) = p.order.all fun bucket =>
    (Xray.siteEntries (p.sites bucket)).all (xrayReads S) := by
  have hsplit : ∀ sites ips tag, (Xray.bucketSplitRules sites ips tag).all (xrayLoads S) =
      (Xray.siteEntries sites).all (xrayReads S) := by
    intro sites ips tag
    have hsite : ∀ texts, xrayLoads S (Xray.fieldRule "domain" (.strs texts) tag) =
        texts.all (xrayReads S) := by
      intro texts
      rw [xrayLoads, Xray.fieldRule, holds_of_lookup texts (by simp)]
    have hip : ∀ texts, xrayLoads S (Xray.fieldRule "ip" (.strs texts) tag) = true := by
      intro texts
      rw [xrayLoads, Xray.fieldRule, holds_of_none (by simp)]
    rw [Xray.bucketSplitRules, all_append]
    split_ifs with hsites hips hips <;> simp [hsite, hip, hsites]
  have hcatch : (Xray.catchAllDirectRule p).all (xrayLoads S) = true := by
    unfold Xray.catchAllDirectRule
    split_ifs
    · rfl
    · rw [all_cons, all_nil, Bool.and_true, xrayLoads, Xray.fieldRule, holds_of_none (by simp)]
  rw [Xray.rules, all_append, hcatch, Bool.and_true, Xray.bucketRules, all_flatMap]
  simp only [hsplit]

/-- Xray tries the buckets in order; the rest goes where the profile says. -/
theorem xrayVerdict_eq (hloads : (Xray.rules p).all (xrayLoads S) = true) :
    xrayVerdict S conn p = firstMatch (xrayBucket S conn p) some (some (rest p)) p.order := by
  have hdecision : ∀ bucket ∈ p.order,
      ∀ rule ∈ Xray.bucketSplitRules (p.sites bucket) (p.ips bucket)
      (Xray.bucketTag bucket), xrayDecision rule = some bucket := by
    intro bucket _ rule hrule
    obtain ⟨condition, hcondition, texts, rfl⟩ := Xray.mem_bucketSplitRules hrule
    have hne : ("outboundTag" == condition) = false := by
      simp only [mem_cons, not_mem_nil, or_false] at hcondition
      rcases hcondition with rfl | rfl <;> decide
    cases bucket <;>
      simp [xrayDecision, Xray.fieldRule, JsonObject.string, hne, Json.str, Xray.bucketTag,
        RoutingProfile.bucketOf]
  have hcatch : firstMatch (xrayMatches S conn) xrayDecision (some .proxy)
      (Xray.catchAllDirectRule p) = some (rest p) := by
    unfold Xray.catchAllDirectRule rest
    split_ifs
    · rfl
    · have hmatch : xrayMatches S conn (Xray.fieldRule "network" (.strs ["tcp", "udp"]) "direct") =
          true := by
        rw [xrayMatches, Xray.fieldRule, holds_of_none (by simp),
          holds_of_none (by simp),
          holds_of_lookup ["tcp", "udp"] (by simp)]
        cases conn.network <;> decide
      rw [firstMatch_cons, if_pos hmatch]
      decide
  rw [xrayVerdict, if_pos hloads, Xray.rules, firstMatch_append, hcatch, Xray.bucketRules,
    firstMatch_flatMap hdecision]
  refine firstMatch_congr fun bucket _ => ?_
  exact any_bucketSplitRules S conn _ _ _

/-! ## The buckets of sing-box -/

/-- No entry needs a downloaded rule set. -/
def NoSets : Prop :=
  ∀ bucket, (∀ s ∈ SingBoxRouting.parse (p.sites bucket), s.geositeTags = []) ∧
    ∀ s ∈ SingBoxRouting.parseIp (p.ips bucket), s.geoipTags = []

def singBoxBucket (bucket : Bucket) : Bool :=
  onDomain conn (fun d => (p.sites bucket).any fun e => singBoxSite S e d) ||
    inRanges conn (SingBoxRouting.collect SingBoxRouting.Selectors.ipCidr
      (SingBoxRouting.parseIp (p.ips bucket)))

theorem any_collect (field : SingBoxRouting.Selectors → List String)
    (l : List SingBoxRouting.Selectors) (test : String → Bool) :
    (SingBoxRouting.collect field l).any test = l.any fun s => (field s).any test := by
  rw [Bool.eq_iff_iff]
  simp only [SingBoxRouting.collect, distinctBy, any_eq_true, mem_distinctByFrom_id,
    mem_flatMap, not_mem_nil, not_false_eq_true, and_true]
  constructor
  · rintro ⟨x, ⟨s, hs, hx⟩, htest⟩
    exact ⟨s, hs, x, hx, htest⟩
  · rintro ⟨s, hs, x, hx, htest⟩
    exact ⟨x, ⟨s, hs, hx⟩, htest⟩

/-- A rule has its one condition and what it does. -/
theorem matchRule_shape (target : SingBoxRouting.Target) (field : String) (values : List String) :
    ∃ name ∈ ["action", "outbound"], ∃ value,
      SingBoxRouting.matchRule target none [(field, .strs values)] =
        [(field, .strs values), (name, value)] := by
  cases target with
  | reject => exact ⟨"action", by simp, _, rfl⟩
  | outbound tag => exact ⟨"outbound", by simp, _, rfl⟩

/-- A rule on one field matches where the field's own test does. -/
theorem singBoxMatches_single {conn : Connection S} {field : String} {test : List String → Bool}
    (h : (field, test) ∈ singBoxTests S conn) {name : String}
      (hname : name ∈ ["action", "outbound"])
    (values : List String) (value : Json) :
    singBoxMatches S conn [(field, .strs values), (name, value)] = test values := by
  have hnames : (singBoxTests S conn).map Prod.fst =
      ["domain_suffix", "domain", "domain_keyword", "domain_regex", "ip_cidr", "rule_set"] := rfl
  have hself : ∀ t, holds [(field, .strs values), (name, value)] field t = t values :=
    holds_of_lookup values (by simp)
  rw [Bool.eq_iff_iff, singBoxMatches, all_eq_true]
  constructor
  · intro hall
    rw [← hself test]
    exact hall _ h
  · intro htest other hother
    by_cases hfield : other.1 = field
    · -- one test for each field
      have hnd : ((singBoxTests S conn).map Prod.fst).Nodup := hnames ▸ by decide
      have heq : other.2 = test := by
        have h1 := lookup_eq_some_of_mem hnd h
        have h2 := lookup_eq_some_of_mem (k := other.1) (v := other.2) hnd hother
        rw [hfield, h1] at h2
        exact (Option.some.inj h2).symm
      rw [hfield, hself, heq]
      exact htest
    · have hmem : other.1 ∈ (singBoxTests S conn).map Prod.fst := mem_map_of_mem hother
      refine holds_of_none ?_ _
      have h1 : (other.1 == field) = false := by simpa using hfield
      have h2 : (other.1 == name) = false := by
        simp only [beq_eq_false_iff_ne]
        intro e
        rw [hnames, e] at hmem
        simp only [mem_cons, not_mem_nil, or_false] at hname
        rcases hname with rfl | rfl <;> exact absurd hmem (by decide)
      simp [h1, h2]

theorem any_ruleOn {conn : Connection S} {field : String} {test : List String → Bool}
    (h : (field, test) ∈ singBoxTests S conn) (hempty : test [] = false)
    (target : SingBoxRouting.Target) (values : List String) :
    (SingBoxRouting.ruleOn target none field values).any (singBoxMatches S conn) = test values := by
  unfold SingBoxRouting.ruleOn
  split_ifs with hnil
  · rw [hnil, hempty]
    rfl
  · obtain ⟨name, hname, value, hshape⟩ := matchRule_shape target field values
    rw [hshape, any_cons, singBoxMatches_single S h hname, any_nil, Bool.or_false]

theorem collect_eq_nil {field : SingBoxRouting.Selectors → List String}
    {l : List SingBoxRouting.Selectors} (h : ∀ s ∈ l, field s = []) :
    SingBoxRouting.collect field l = [] := by
  rw [SingBoxRouting.collect, flatMap_eq_nil_iff.mpr h]
  rfl

/-- The rules of a bucket match where one of its entries does. -/
theorem any_emitBucket (sites ips : List String) (target : SingBoxRouting.Target)
    (hsites : ∀ s ∈ SingBoxRouting.parse sites, s.geositeTags = [])
    (hips : ∀ s ∈ SingBoxRouting.parseIp ips, s.geoipTags = []) :
    (SingBoxRouting.emitBucket sites ips target none).any (singBoxMatches S conn) =
      (onDomain conn (fun d => sites.any fun e => singBoxSite S e d) ||
        inRanges conn (SingBoxRouting.collect SingBoxRouting.Selectors.ipCidr
          (SingBoxRouting.parseIp ips))) := by
  have hdomain : ∀ test : String → String → Bool,
      (onDomain conn fun d => ([] : List String).any fun e => test d e) = false := by
    intro test
    cases hd : conn.name <;> simp [onDomain, hd]
  have hranges : inRanges conn [] = false := by
    cases ha : conn.address <;> simp [inRanges, ha]
  have hset : (SingBoxRouting.ruleOn target none "rule_set" []).any (singBoxMatches S conn) =
      false :=
    rfl
  have hsuffix : ∀ values, (SingBoxRouting.ruleOn target none "domain_suffix" values).any
      (singBoxMatches S conn) = onDomain conn fun d => values.any fun e => endsWith d e :=
    any_ruleOn S (by simp [singBoxTests]) (hdomain _) target
  have hexact : ∀ values, (SingBoxRouting.ruleOn target none "domain" values).any
      (singBoxMatches S conn) = onDomain conn fun d => values.any fun e => d = e :=
    any_ruleOn S (by simp [singBoxTests]) (hdomain _) target
  have hkeyword : ∀ values, (SingBoxRouting.ruleOn target none "domain_keyword" values).any
      (singBoxMatches S conn) = onDomain conn fun d => values.any fun e => contains d e :=
    any_ruleOn S (by simp [singBoxTests]) (hdomain _) target
  have hregex : ∀ values, (SingBoxRouting.ruleOn target none "domain_regex" values).any
      (singBoxMatches S conn) = onDomain conn fun d => values.any fun e => fits S e d :=
    any_ruleOn S (by simp [singBoxTests]) (hdomain _) target
  have hcidr : ∀ values, (SingBoxRouting.ruleOn target none "ip_cidr" values).any
      (singBoxMatches S conn) = inRanges conn values :=
    any_ruleOn S (by simp [singBoxTests]) hranges target
  have hentries : ∀ d, (sites.any fun e => singBoxSite S e d) =
      (SingBoxRouting.parse sites).any fun s => selectorMatches S s d := by
    intro d
    rw [SingBoxRouting.parse, any_filterMap]
    rfl
  unfold SingBoxRouting.emitBucket
  simp only [collect_eq_nil hsites, collect_eq_nil hips, map_nil, append_nil,
    any_append, hset, Bool.false_or, Option.isNone_none, if_true, hsuffix, hexact, hkeyword,
    hregex, hcidr, hentries]
  congr 1
  cases hd : conn.name with
  | none => simp [onDomain, hd]
  | some d =>
    simp only [onDomain, hd, Option.any_some, any_collect, selectorMatches]
    rw [Bool.eq_iff_iff]
    simp only [Bool.or_eq_true, any_eq_true, and_or_left, exists_or]

theorem bucketRules_eq (bucket : Bucket) : SingBoxRouting.bucketRules p false "direct" bucket =
    SingBoxRouting.emitBucket (p.sites bucket) (p.ips bucket)
      (SingBoxRouting.bucketTarget "direct" bucket) none := by
  simp [SingBoxRouting.bucketRules]

theorem all_collect (field : SingBoxRouting.Selectors → List String)
    (l : List SingBoxRouting.Selectors) (test : String → Bool) :
    (SingBoxRouting.collect field l).all test = l.all fun s => (field s).all test := by
  rw [← Bool.not_inj_iff, not_all_eq_any_not, not_all_eq_any_not, any_collect]
  simp only [not_all_eq_any_not]

/-- A rule on one field can be loaded if the field's own values can. -/
theorem singBoxLoads_matchRule (target : SingBoxRouting.Target) (field : String)
    (values : List String) : singBoxLoads S (SingBoxRouting.matchRule target none
      [(field, .strs values)]) =
    if field = "domain" ∨ field = "domain_suffix" then values.all (· ≠ "")
    else if field = "domain_regex" then values.all fun e => (S.regex e).isSome else true := by
  obtain ⟨name, hname, value, hshape⟩ := matchRule_shape target field values
  have hfield : ∀ other test, other ∉ ["action", "outbound"] →
      holds [(field, .strs values), (name, value)] other test =
        if field = other then test values else true := by
    intro other test hother
    split_ifs with heq
    · subst heq
      exact holds_of_lookup values (by simp) test
    · have hne : (other == name) = false := by
        rw [beq_eq_false_iff_ne]
        rintro rfl
        exact hother hname
      exact holds_of_none (by simp [hne, beq_eq_false_iff_ne.mpr (Ne.symm heq)]) test
  rw [hshape, singBoxLoads, hfield _ _ (by decide), hfield _ _ (by decide), hfield _ _ (by decide)]
  by_cases h1 : field = "domain"
  · subst h1
    simp
  by_cases h2 : field = "domain_suffix"
  · subst h2
    simp
  by_cases h3 : field = "domain_regex"
  · subst h3
    simp
  · simp [h1, h2, h3]

theorem all_ruleOn (target : SingBoxRouting.Target) (field : String) (values : List String) :
    (SingBoxRouting.ruleOn target none field values).all (singBoxLoads S) =
    if field = "domain" ∨ field = "domain_suffix" then values.all (· ≠ "")
    else if field = "domain_regex" then values.all fun e => (S.regex e).isSome else true := by
  unfold SingBoxRouting.ruleOn
  split_ifs with hnil h1 h2 <;> simp_all [singBoxLoads_matchRule]

/-- sing-box loads the rules of a profile if it can load the entries of the buckets in the order. -/
theorem singBoxLoads_rules : (SingBoxRouting.rules p false "direct").all (singBoxLoads S) =
    p.order.all fun bucket => (SingBoxRouting.parse (p.sites bucket)).all (selectorLoads S) := by
  have hemit : ∀ sites ips target,
      (SingBoxRouting.emitBucket sites ips target none).all (singBoxLoads S) =
        (SingBoxRouting.parse sites).all (selectorLoads S) := by
    intro sites ips target
    simp only [SingBoxRouting.emitBucket, all_append, all_ruleOn, all_collect, Option.isNone_none,
      if_true]
    rw [Bool.eq_iff_iff]
    simp [selectorLoads, all_eq_true]
    grind
  rw [SingBoxRouting.rules, all_flatMap]
  simp only [bucketRules_eq, hemit]

/-- sing-box tries the buckets in order; the rest goes where the profile says. -/
theorem singBoxVerdict_eq (hsets : NoSets p)
    (hloads : (SingBoxRouting.rules p false "direct").all (singBoxLoads S) = true) :
    singBoxVerdict S conn p = firstMatch (singBoxBucket S conn p) some (some (rest p)) p.order := by
  have hdecision : ∀ bucket ∈ p.order, ∀ rule ∈ SingBoxRouting.bucketRules p false "direct" bucket,
      singBoxDecision rule = some bucket := by
    intro bucket _ rule hrule
    rw [bucketRules_eq] at hrule
    obtain ⟨field, hfield, values, rfl⟩ := SingBoxRouting.mem_emitBucket hrule
    have haction : ("action" == field) = false := by
      simp only [beq_eq_false_iff_ne]
      rintro rfl
      exact absurd hfield (by decide)
    have houtbound : ("outbound" == field) = false := by
      simp only [beq_eq_false_iff_ne]
      rintro rfl
      exact absurd hfield (by decide)
    cases bucket <;>
      simp [singBoxDecision, SingBoxRouting.matchRule, SingBoxRouting.bucketTarget,
        JsonObject.string, haction, houtbound, Json.str, RoutingProfile.bucketOf]
  have hfinal : RoutingProfile.bucketOf (SingBoxRouting.finalOutbound p "direct") =
      some (rest p) := by
    unfold SingBoxRouting.finalOutbound rest
    cases p.globalProxy <;> rfl
  rw [singBoxVerdict, if_pos hloads, hfinal, SingBoxRouting.rules, firstMatch_flatMap hdecision]
  refine firstMatch_congr fun bucket _ => ?_
  rw [bucketRules_eq]
  exact any_emitBucket S conn _ _ _ (hsets bucket).1 (hsets bucket).2

end OlcVpn.Cores
