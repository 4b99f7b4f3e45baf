/-
  IS EVERY SELECTOR OF A PROFILE CARRIED BY A RULE?

  A bucket has a list of sites and a list of addresses.  Both parsers understand both kinds of
  entries: an address or `geoip:` in the site list is parsed into a range or a set, `geosite:` in
  the address list into a set.  But the bucket COLLECTS ranges and `geoip` sets from the address
  list only, and `geosite` sets from the site list only: what stands in the other list is parsed and
  dropped.  A bucket the order string does not name is dropped as a whole, and `domain:` without a
  name asks for nothing.
-/
import OlcVpn.Kotlin.Lines
import OlcVpn.SingBox.Matching

namespace OlcVpn.SingBoxRouting

open Kotlin Generate SingBox List
open Selectors (questions)

/-! ## The rules of a bucket as a table -/

variable (sites ips : List String)

/-- The fields of a bucket's rules with their values; the pass for one address family has no ranges.
    -/
def bucketTable (ipVersion : Option Int) : List (String × List String) :=
  [("rule_set", (collect Selectors.geositeTags (parse sites)).map ("geosite-" ++ ·) ++
      (collect Selectors.geoipTags (parseIp ips)).map ("geoip-" ++ ·)),
    ("domain_suffix", collect Selectors.domainSuffix (parse sites)),
    ("domain", collect Selectors.domainExact (parse sites)),
    ("domain_keyword", collect Selectors.domainKeyword (parse sites)),
    ("domain_regex", collect Selectors.domainRegex (parse sites))] ++
  if ipVersion.isNone then [("ip_cidr", collect Selectors.ipCidr (parseIp ips))] else []

theorem emitBucket_eq (target : Target) (ipVersion : Option Int) :
    emitBucket sites ips target ipVersion =
      (bucketTable sites ips ipVersion).flatMap fun e => ruleOn target ipVersion e.1 e.2 := by
  cases ipVersion <;> simp [emitBucket, bucketTable]

theorem mem_ruleOn {target : Target} {ipVersion : Option Int} {field : String}
    {values : List String}
    {rule : JsonObject} : rule ∈ ruleOn target ipVersion field values ↔
      values ≠ [] ∧ rule = matchRule target ipVersion [(field, .strs values)] := by
  rw [ruleOn]
  split_ifs with hnil <;> simp [hnil]

/-- The rules of a bucket, one for each list that is not empty. -/
theorem mem_emitBucket_iff {sites ips : List String} {target : Target} {ipVersion : Option Int}
    {rule : JsonObject} : rule ∈ emitBucket sites ips target ipVersion ↔
      ∃ e ∈ bucketTable sites ips ipVersion, e.2 ≠ [] ∧
        rule = matchRule target ipVersion [(e.1, .strs e.2)] := by
  rw [emitBucket_eq, mem_flatMap]
  exact exists_congr fun e => and_congr_right fun _ => mem_ruleOn

/-- A rule tells its field, its values, its address family and what it does. -/
theorem matchRule_inj {target target' : Target} {ipVersion ipVersion' : Option Int}
    {field field' : String}
    {values values' : List String} (h : matchRule target ipVersion [(field, .strs values)] =
      matchRule target' ipVersion' [(field', .strs values')]) :
    target = target' ∧ ipVersion.isNone = ipVersion'.isNone ∧ field = field' ∧
      values = values' := by
  simp only [matchRule, cons_append, nil_append, List.cons.injEq, Prod.mk.injEq] at h
  obtain ⟨⟨rfl, hvalues⟩, htail⟩ := h
  have hvalues := congrArg valuesOf hvalues
  rw [valuesOf_strs, valuesOf_strs] at hvalues
  cases ipVersion <;> cases ipVersion' <;> cases target <;> cases target' <;>
    simp_all [Json.str, Json.num]

/-! ## Which questions the rules of a profile ask -/

/-- A rule asks this question, asks nothing else, and does what the target says. -/
def AsksAlone (rules : List JsonObject) (target : Target) (q : Question) : Prop :=
  ∃ values, q.2 ∈ values ∧ matchRule target none [(q.1, .strs values)] ∈ rules

/-- A selector's questions are all asked, and there is one. -/
structure Carried (rules : List JsonObject) (target : Target) (questions : List Question) :
    Prop where
  some_question : questions ≠ []
  asked : ∀ q ∈ questions, AsksAlone rules target q

/-- What the rules of a bucket ask. -/
def tableQuestions : List Question :=
  (bucketTable sites ips none).flatMap fun e => e.2.map (e.1, ·)

theorem bucketTarget_inj {directTag : String} (h : directTag ≠ "proxy") {bucket bucket' : Bucket}
    (heq : bucketTarget directTag bucket = bucketTarget directTag bucket') : bucket = bucket' := by
  cases bucket <;> cases bucket' <;> simp_all [bucketTarget]

/-- The rules of a profile ask the questions of the buckets it names. -/
theorem asksAlone_iff {p : RoutingProfile} {hideDirectIpv6 : Bool} {directTag : String}
    (h : directTag ≠ "proxy") {bucket : Bucket} {q : Question} :
    AsksAlone (rules p hideDirectIpv6 directTag) (bucketTarget directTag bucket) q ↔
      bucket ∈ p.order ∧ q ∈ tableQuestions (p.sites bucket) (p.ips bucket) := by
  constructor
  · rintro ⟨values, hvalue, hrule⟩
    obtain ⟨bucket', hbucket, hrule⟩ := mem_flatMap.mp hrule
    rcases mem_append.mp hrule with hhide | hrule
    · -- the pass that hides IPv6 asks for the address family too
      split_ifs at hhide
      · obtain ⟨e, -, -, heq⟩ := mem_emitBucket_iff.mp hhide
        exact absurd (matchRule_inj heq).2.1 (by decide)
      · cases hhide
    · obtain ⟨e, he, -, heq⟩ := mem_emitBucket_iff.mp hrule
      obtain ⟨htarget, -, hfield, hvalues⟩ := matchRule_inj heq
      obtain rfl := bucketTarget_inj h htarget
      refine ⟨hbucket, mem_flatMap.mpr ⟨e, he, ?_⟩⟩
      rw [← hfield, ← hvalues]
      exact mem_map.mpr ⟨q.2, hvalue, rfl⟩
  · rintro ⟨hbucket, hq⟩
    obtain ⟨e, he, hq⟩ := mem_flatMap.mp hq
    obtain ⟨value, hvalue, rfl⟩ := mem_map.mp hq
    refine ⟨e.2, hvalue, mem_flatMap.mpr ⟨bucket, hbucket, mem_append_right _ ?_⟩⟩
    exact mem_emitBucket_iff.mpr ⟨e, he, ne_nil_of_mem hvalue, rfl⟩

/-! ## Which questions of an entry a bucket asks -/

section Table

variable {sites ips : List String}

theorem mem_tableQuestions {q : Question} : q ∈ tableQuestions sites ips ↔
    (∃ s ∈ parse sites, (∃ tag ∈ s.geositeTags, q = ("rule_set", "geosite-" ++ tag)) ∨
      (∃ v ∈ s.domainSuffix, q = ("domain_suffix", v)) ∨ (∃ v ∈ s.domainExact, q = ("domain", v)) ∨
      (∃ v ∈ s.domainKeyword, q = ("domain_keyword", v)) ∨ ∃ v ∈ s.domainRegex,
        q = ("domain_regex", v)) ∨
    ∃ s ∈ parseIp ips, (∃ tag ∈ s.geoipTags, q = ("rule_set", "geoip-" ++ tag)) ∨
      ∃ v ∈ s.ipCidr, q = ("ip_cidr", v) := by
  simp only [tableQuestions, bucketTable, Option.isNone_none, if_true, flatMap_append,
    flatMap_cons, flatMap_nil, append_nil, mem_append, mem_map, mem_collect, map_append]
  grind

theorem tag_inj {scheme tag tag' : String} (h : scheme ++ tag = scheme ++ tag') : tag = tag' := by
  have hlists := congrArg String.toList h
  rw [String.toList_append, String.toList_append, append_cancel_left_eq] at hlists
  exact String.toList_inj.mp hlists

theorem geosite_ne_geoip (tag tag' : String) : "geosite-" ++ tag ≠ "geoip-" ++ tag' := by
  intro h
  have hlists := congrArg String.toList h
  simp [String.toList_append] at hlists

/-- What an entry of the site list asks is asked by the bucket where the address list has its ranges
    and address sets. -/
theorem site_asked_iff {s : Selectors} (hs : s ∈ parse sites) :
    (∀ q ∈ s.questions, q ∈ tableQuestions sites ips) ↔
      (∀ range ∈ s.ipCidr, ∃ s' ∈ parseIp ips, range ∈ s'.ipCidr) ∧
        ∀ tag ∈ s.geoipTags, ∃ s' ∈ parseIp ips, tag ∈ s'.geoipTags := by
  constructor
  · intro h
    constructor
    · intro range hrange
      have hq := h ("ip_cidr", range) (by simp [questions, hrange])
      rw [mem_tableQuestions] at hq
      simpa using hq
    · intro tag htag
      have hq := h ("rule_set", "geoip-" ++ tag) (by simp [questions, htag])
      rw [mem_tableQuestions] at hq
      rcases hq with ⟨s', -, ⟨tag', -, heq⟩ | hq⟩ | ⟨s', hs', ⟨tag', htag', heq⟩ | hq⟩
      · exact absurd (Prod.mk.inj heq).2.symm (geosite_ne_geoip tag' tag)
      · simp at hq
      · exact ⟨s', hs', tag_inj (Prod.mk.inj heq).2 ▸ htag'⟩
      · simp at hq
  · rintro ⟨hranges, htags⟩ q hq
    rw [mem_tableQuestions]
    simp only [questions, mem_append, mem_map] at hq
    rcases hq with
        (((((⟨v, hv, rfl⟩ | ⟨v, hv, rfl⟩) | ⟨v, hv, rfl⟩) | ⟨v, hv, rfl⟩) | ⟨v, hv, rfl⟩) |
      ⟨v, hv, rfl⟩) | ⟨v, hv, rfl⟩
    · exact .inl ⟨s, hs, .inl ⟨v, hv, rfl⟩⟩
    · obtain ⟨s', hs', hv'⟩ := htags v hv
      exact .inr ⟨s', hs', .inl ⟨v, hv', rfl⟩⟩
    · exact .inl ⟨s, hs, .inr (.inl ⟨v, hv, rfl⟩)⟩
    · exact .inl ⟨s, hs, .inr (.inr (.inl ⟨v, hv, rfl⟩))⟩
    · exact .inl ⟨s, hs, .inr (.inr (.inr (.inl ⟨v, hv, rfl⟩)))⟩
    · exact .inl ⟨s, hs, .inr (.inr (.inr (.inr ⟨v, hv, rfl⟩)))⟩
    · obtain ⟨s', hs', hv'⟩ := hranges v hv
      exact .inr ⟨s', hs', .inr ⟨v, hv', rfl⟩⟩

/-- An entry of the address list is a set or a range. -/
theorem parseAddress_cases {raw : String} (hblank : isNotBlank raw = true)
    (hasn : isAsnSelector raw = false) :
    ∃ s, parseAddress raw = some s ∧ ((∃ tag, s = { geoipTags := [tag] }) ∨
      (∃ tag, s = { geositeTags := [tag] }) ∨ ∃ range, s = { ipCidr := [range] }) := by
  have hne : trim raw ≠ "" := ne_empty_of_isNotBlank ((isNotBlank_trim raw).trans hblank)
  have hasn' : isAsnSelector (trim raw) = false := by rwa [isAsnSelector, trim_trim]
  rw [parseAddress, if_neg hne]
  split_ifs with hgeoip hgeosite hselector
  · exact ⟨_, rfl, .inl ⟨_, rfl⟩⟩
  · exact ⟨_, rfl, .inr (.inl ⟨_, rfl⟩)⟩
  · rw [hasn'] at hselector
    cases hselector
  · exact ⟨_, rfl, .inr (.inr ⟨_, rfl⟩)⟩

theorem address_asked_iff {s : Selectors} (hs : s ∈ parseIp ips)
    (hcases : (∃ tag, s = { geoipTags := [tag] }) ∨
      (∃ tag, s = { geositeTags := [tag] }) ∨ ∃ range, s = { ipCidr := [range] }) :
    (∀ q ∈ s.questions, q ∈ tableQuestions sites ips) ↔
      ∀ tag ∈ s.geositeTags, ∃ s' ∈ parse sites, tag ∈ s'.geositeTags := by
  rcases hcases with ⟨tag, rfl⟩ | ⟨tag, rfl⟩ | ⟨range, rfl⟩
  · simp only [questions, map_nil, map_cons, nil_append, append_nil,
      forall_mem_singleton, mem_tableQuestions, not_mem_nil, false_imp_iff, implies_true, iff_true]
    exact .inr ⟨_, hs, .inl ⟨tag, mem_singleton_self tag, rfl⟩⟩
  · simp only [questions, map_nil, map_cons, append_nil, forall_mem_singleton]
    rw [mem_tableQuestions]
    constructor
    · rintro (⟨s', hs', ⟨tag', htag', heq⟩ | hq⟩ | ⟨s', -, ⟨tag', -, heq⟩ | hq⟩)
      · exact ⟨s', hs', tag_inj (Prod.mk.inj heq).2 ▸ htag'⟩
      · simp at hq
      · exact absurd (Prod.mk.inj heq).2 (geosite_ne_geoip tag tag')
      · simp at hq
    · rintro ⟨s', hs', htag⟩
      exact .inl ⟨s', hs', .inl ⟨tag, htag, rfl⟩⟩
  · simp only [questions, map_nil, map_cons, nil_append, append_nil,
      forall_mem_singleton, mem_tableQuestions, not_mem_nil, false_imp_iff, implies_true, iff_true]
    exact .inr ⟨_, hs, .inr ⟨range, mem_singleton_self range, rfl⟩⟩

end Table

/-! ## Exactly which entries are carried -/

def siteQuestions (raw : String) : List Question := ((parseSite raw).getD {}).questions

def addressQuestions (raw : String) : List Question := ((parseAddress raw).getD {}).questions

/-- Every entry of a profile that is not blank and no `asn:` is carried, with the verdict of its
    bucket. -/
structure AllCarried (p : RoutingProfile) (hideDirectIpv6 : Bool) (directTag : String) : Prop where
  sites : ∀ bucket, ∀ raw ∈ p.sites bucket, isNotBlank raw = true → isAsnSelector raw = false →
    Carried (rules p hideDirectIpv6 directTag) (bucketTarget directTag bucket) (siteQuestions raw)
  ips : ∀ bucket, ∀ raw ∈ p.ips bucket, isNotBlank raw = true → isAsnSelector raw = false →
    Carried (rules p hideDirectIpv6 directTag) (bucketTarget directTag bucket)
      (addressQuestions raw)

/-- An entry of the site list asks something, and its ranges and address sets stand in the address
    list too. -/
structure SiteUsable (ips : List String) (s : Selectors) : Prop where
  asks : s.questions ≠ []
  ranges : ∀ range ∈ s.ipCidr, ∃ s' ∈ parseIp ips, range ∈ s'.ipCidr
  geoip : ∀ tag ∈ s.geoipTags, ∃ s' ∈ parseIp ips, tag ∈ s'.geoipTags

/-- The profile names every bucket that has entries, no site entry is empty, an address, or a set of
    addresses, and no address entry is a set of sites, unless the other list has it too. -/
structure AllUsable (p : RoutingProfile) : Prop where
  sites : ∀ bucket, ∀ raw ∈ p.sites bucket, isNotBlank raw = true → isAsnSelector raw = false →
    bucket ∈ p.order ∧ SiteUsable (p.ips bucket) ((parseSite raw).getD {})
  ips : ∀ bucket, ∀ raw ∈ p.ips bucket, isNotBlank raw = true → isAsnSelector raw = false →
    bucket ∈ p.order ∧ ∀ tag ∈ ((parseAddress raw).getD {}).geositeTags,
      ∃ s' ∈ parse (p.sites bucket), tag ∈ s'.geositeTags

section Profile

variable {p : RoutingProfile} {hideDirectIpv6 : Bool} {directTag : String}

/-- A bucket's questions are asked by rules of its own target, if the targets differ. -/
theorem carried_questions_iff (h : directTag ≠ "proxy") {bucket : Bucket}
    {questions : List Question} :
    Carried (rules p hideDirectIpv6 directTag) (bucketTarget directTag bucket) questions ↔
      bucket ∈ p.order ∧ questions ≠ [] ∧
        ∀ q ∈ questions, q ∈ tableQuestions (p.sites bucket) (p.ips bucket) := by
  constructor
  · rintro ⟨hne, hasked⟩
    obtain ⟨q, hq⟩ := exists_mem_of_ne_nil _ hne
    exact ⟨((asksAlone_iff h).mp (hasked q hq)).1, hne,
      fun q hq => ((asksAlone_iff h).mp (hasked q hq)).2⟩
  · rintro ⟨hbucket, hne, hasked⟩
    exact ⟨hne, fun q hq => (asksAlone_iff h).mpr ⟨hbucket, hasked q hq⟩⟩

theorem parseSite_isSome {raw : String} (h : isNotBlank raw = true) :
    ∃ s, parseSite raw = some s := by
  rw [parseSite, if_neg (ne_empty_of_isNotBlank ((isNotBlank_trim raw).trans h))]
  split_ifs <;> exact ⟨_, rfl⟩

end Profile

/-- NO ENTRY OF A PROFILE IS IGNORED exactly if all of them are usable where they stand. -/
theorem carried_iff (p : RoutingProfile) (hideDirectIpv6 : Bool) (directTag : String)
    (h : directTag ≠ "proxy") : AllCarried p hideDirectIpv6 directTag ↔ AllUsable p := by
  have hsite : ∀ bucket, ∀ raw ∈ p.sites bucket, isNotBlank raw = true →
      (Carried (rules p hideDirectIpv6 directTag) (bucketTarget directTag bucket)
        (siteQuestions raw) ↔
        bucket ∈ p.order ∧ SiteUsable (p.ips bucket) ((parseSite raw).getD {})) := by
    intro bucket raw hraw hblank
    obtain ⟨s, hs⟩ := parseSite_isSome hblank
    have hmem : s ∈ parse (p.sites bucket) := mem_filterMap.mpr ⟨raw, hraw, hs⟩
    rw [carried_questions_iff h, siteQuestions, hs, Option.getD_some, site_asked_iff hmem]
    exact and_congr_right fun _ => ⟨fun hu => ⟨hu.1, hu.2.1, hu.2.2⟩,
      fun hu => ⟨hu.asks, hu.ranges, hu.geoip⟩⟩
  have haddress : ∀ bucket, ∀ raw ∈ p.ips bucket, isNotBlank raw = true →
      isAsnSelector raw = false →
      (Carried (rules p hideDirectIpv6 directTag) (bucketTarget directTag bucket)
        (addressQuestions raw) ↔
        bucket ∈ p.order ∧ ∀ tag ∈ ((parseAddress raw).getD {}).geositeTags,
          ∃ s' ∈ parse (p.sites bucket), tag ∈ s'.geositeTags) := by
    intro bucket raw hraw hblank hasn
    obtain ⟨s, hs, hcases⟩ := parseAddress_cases hblank hasn
    have hmem : s ∈ parseIp (p.ips bucket) := mem_filterMap.mpr ⟨raw, hraw, hs⟩
    have hne : s.questions ≠ [] := by
      rcases hcases with ⟨_, rfl⟩ | ⟨_, rfl⟩ | ⟨_, rfl⟩ <;> simp [questions]
    rw [carried_questions_iff h, addressQuestions, hs, Option.getD_some,
      address_asked_iff hmem hcases]
    exact and_congr_right fun _ => and_iff_right hne
  constructor
  · intro hall
    exact ⟨fun b raw hraw hblank hasn => (hsite b raw hraw hblank).mp
      (hall.sites b raw hraw hblank hasn),
      fun b raw hraw hblank hasn => (haddress b raw hraw hblank hasn).mp
      (hall.ips b raw hraw hblank hasn)⟩
  · intro hall
    exact ⟨fun b raw hraw hblank hasn => (hsite b raw hraw hblank).mpr
      (hall.sites b raw hraw hblank hasn),
      fun b raw hraw hblank hasn => (haddress b raw hraw hblank hasn).mpr
      (hall.ips b raw hraw hblank hasn)⟩

/-- A profile with one site. -/
def oneSite : RoutingProfile where directSites := ["domain:example.org"]

theorem oneSite_carried : AllCarried oneSite false "direct" := by
  refine (carried_iff oneSite false "direct" (by decide)).mpr ⟨?_, ?_⟩
  · rintro bucket raw hraw - -
    cases bucket with
    | direct =>
      obtain rfl := mem_singleton.mp hraw
      exact ⟨by decide, by decide, by decide, by decide⟩
    | block | proxy => cases hraw
  · rintro bucket raw hraw
    cases bucket <;> cases hraw

/-- An address in a site list, a set of sites in an address list, and a bucket the order does not
    name leave no rule. -/
theorem selectors_ignored :
    rules { blockSites := ["203.0.113.7"], directIp := ["geosite:ru"], proxySites :=
  ["domain:example.org"],
            routeOrder := "block-direct" } false "direct" = [] := by
  decide

end OlcVpn.SingBoxRouting
