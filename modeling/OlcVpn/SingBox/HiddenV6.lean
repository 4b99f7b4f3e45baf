/-
  DOES HYBRID MODE HIDE THE REAL IPv6 ADDRESS?

  With `hideDirectIpv6` every rule of the direct bucket is preceded by the same rule with
  `ip_version: 6` and a reject, so that "direct sites are hard-pinned to IPv4".  One kind of rule
  has no such shadow: the address ranges ("an IPv6-reject pass over IPv4-only ip_cidr entries would
  never match").  An entry of the list need not be IPv4.

  A connection has its destination address, and whatever is true of its name.  How ranges and
  address sets are read is a parameter.
-/
import OlcVpn.Lib.FirstMatch
import OlcVpn.SingBox.Carried

namespace OlcVpn.SingBoxRouting

open Kotlin Generate SingBox List Option
open Lib.Clauses (Sat Holds)

/-! ## Connections to an address -/

/-- How address ranges and downloaded address sets are read. -/
structure Addresses where
  Addr : Type
  isV6 : Addr → Bool
  inRange : String → Addr → Bool
  inSet : String → Addr → Bool

/-- A connection: its destination, and which names, patterns and sets of names it fits. -/
structure Contact (A : Addresses) where
  address : A.Addr
  named : Question → Bool

variable {A : Addresses}

variable (c : Contact A)

/-- The answer to a question a rule asks. -/
def Contact.answer (q : Question) : Bool :=
  if q.1 = "ip_cidr" then A.inRange q.2 c.address
  else if q.1 = "rule_set" ∧ startsWith q.2 "geoip-" = true then A.inSet q.2 c.address
  else if q.1 = "ip_version" then q.2 = if A.isV6 c.address then "6" else "4"
  else c.named q

def Contact.fits (rule : JsonObject) : Bool :=
  decide (Matches (fun q => c.answer q = true) rule)

/-- The first rule that matches hands the connection to this tag. -/
def Yields (rules : List JsonObject) (tag : String) : Prop :=
  ∃ rule, rules.find? c.fits = some rule ∧ rule.lookup "outbound" = some (.str tag)

/-! ## A rule with one field -/

theorem clauses_matchRule {target : Target} {ipVersion : Option Int} {field : String}
    (hfield : field ∈ bucketFields) {values : List String} (hvalues : values ≠ []) :
    clauses (matchRule target ipVersion [(field, .strs values)]) =
      values.map (field, ·) :: (ipVersion.map fun n => [("ip_version", toString n)]).toList := by
  have htail : ∀ group ∈ groups, questionsIn group
      (matchRule target ipVersion [(field, .strs values)]) =
      (if field ∈ group then values.map (field, ·) else []) ++
        if "ip_version" ∈ group then (ipVersion.map fun n => ("ip_version", toString n)).toList
          else [] := by
    have hnames : ∀ g ∈ groups, "action" ∉ g ∧ "outbound" ∉ g := by decide
    intro group hgroup
    obtain ⟨haction, houtbound⟩ := hnames group hgroup
    have hnum : ∀ n : Int, valuesOf (.num n) = [toString n] := fun _ => rfl
    cases target <;> cases ipVersion <;>
      simp [matchRule, questionsIn, valuesOf_strs, haction, houtbound, hnum]
  have hmap : values.map (field, ·) ≠ [] := by simpa using hvalues
  rw [clauses, map_congr_left htail]
  simp only [bucketFields, mem_cons, not_mem_nil, or_false] at hfield
  rcases hfield with rfl | rfl | rfl | rfl | rfl | rfl <;> cases ipVersion <;> simp
      [groups, hvalues]

theorem fits_matchRule {target : Target} {ipVersion : Option Int}
    {field : String} (hfield : field ∈ bucketFields) {values : List String}
      (hvalues : values ≠ []) :
    c.fits (matchRule target ipVersion [(field, .strs values)]) = true ↔
      (∃ v ∈ values, c.answer (field, v) = true) ∧
        ∀ n ∈ ipVersion, c.answer ("ip_version", toString n) = true := by
  rw [Contact.fits, decide_eq_true_eq, Matches, clauses_matchRule hfield hvalues]
  cases ipVersion <;> simp [Sat, Holds]

/-! ## What an address meets -/

section Hidden

variable {A : Addresses} {p : RoutingProfile} {directTag : String}

/-- The address ranges and address sets of a bucket. -/
def ranges (p : RoutingProfile) (bucket : Bucket) : List String :=
  collect Selectors.ipCidr (parseIp (p.ips bucket))

def addressSets (p : RoutingProfile) (bucket : Bucket) : List String :=
  (collect Selectors.geoipTags (parseIp (p.ips bucket))).map ("geoip-" ++ ·)

def InRanges (A : Addresses) (p : RoutingProfile) (bucket : Bucket) (a : A.Addr) : Prop :=
  ∃ range ∈ ranges p bucket, A.inRange range a = true

def InSets (A : Addresses) (p : RoutingProfile) (bucket : Bucket) (a : A.Addr) : Prop :=
  ∃ tag ∈ addressSets p bucket, A.inSet tag a = true

variable {ipVersion : Option Int} {bucket : Bucket}

theorem fst_mem_bucketTable {sites ips : List String} {e : String × List String}
    (h : e ∈ bucketTable sites ips ipVersion) : e.1 ∈ bucketFields := by
  cases ipVersion <;> simp only [bucketTable, isNone_none, isNone_some, if_true, mem_append,
    mem_cons, not_mem_nil, or_false, Bool.false_eq_true, if_false] at h
  · rcases h with (rfl | rfl | rfl | rfl | rfl) | rfl <;> simp [bucketFields]
  · rcases h with rfl | rfl | rfl | rfl | rfl <;> simp [bucketFields]

/-- An address in a range of a bucket meets its rule of ranges. -/
theorem fits_of_inRanges (c : Contact A) (target : Target) (h : InRanges A p bucket c.address) :
    ∃ rule ∈ emitBucket (p.sites bucket) (p.ips bucket) target none, c.fits rule = true := by
  obtain ⟨range, hrange, hin⟩ := h
  have hne : ranges p bucket ≠ [] := ne_nil_of_mem hrange
  have hfield : "ip_cidr" ∈ bucketFields := by decide
  refine ⟨_, mem_emitBucket_iff.mpr ⟨("ip_cidr", ranges p bucket), ?_, hne, rfl⟩,
    (fits_matchRule c hfield hne).mpr ⟨⟨range, hrange, ?_⟩, by simp⟩⟩
  · simp [bucketTable, ranges]
  · simpa [Contact.answer] using hin

theorem not_startsWith_geosite (tag : String) :
    startsWith ("geosite-" ++ tag) "geoip-" = false := by
  rw [Bool.eq_false_iff, startsWith, ne_eq, isPrefixOf_iff_prefix, String.toList_append]
  rintro ⟨rest, hrest⟩
  simp at hrest

/-- An address in a set of a bucket meets its rule of sets, in either pass. -/
theorem fits_of_inSets (c : Contact A) (target : Target)
    (hversion : ∀ n ∈ ipVersion, c.answer ("ip_version", toString n) = true)
    (h : InSets A p bucket c.address) :
    ∃ rule ∈ emitBucket (p.sites bucket) (p.ips bucket) target ipVersion, c.fits rule = true := by
  obtain ⟨tag, htag, hin⟩ := h
  let values := (collect Selectors.geositeTags (parse (p.sites bucket))).map ("geosite-" ++ ·) ++
    addressSets p bucket
  have hmem : tag ∈ values := mem_append_right _ htag
  have hne : values ≠ [] := ne_nil_of_mem hmem
  have hfield : "rule_set" ∈ bucketFields := by decide
  refine ⟨_, mem_emitBucket_iff.mpr ⟨("rule_set", values), ?_, hne, rfl⟩,
    (fits_matchRule c hfield hne).mpr ⟨⟨tag, hmem, ?_⟩, hversion⟩⟩
  · exact mem_append_left _ mem_cons_self
  · obtain ⟨t, -, rfl⟩ := mem_map.mp htag
    simpa [Contact.answer, startsWith_append] using hin

/-- A connection without a name meets a bucket's rules only by its address. -/
theorem caught_of_fits {c : Contact A} (hnamed : ∀ q, c.named q = false) {target : Target}
    {rule : JsonObject} (hrule : rule ∈ emitBucket (p.sites bucket) (p.ips bucket) target ipVersion)
    (hfits : c.fits rule = true) :
    (ipVersion = none ∧ InRanges A p bucket c.address) ∨ InSets A p bucket c.address := by
  obtain ⟨e, he, hne, rfl⟩ := mem_emitBucket_iff.mp hrule
  obtain ⟨⟨v, hv, hanswer⟩, -⟩ := (fits_matchRule c (fst_mem_bucketTable he) hne).mp hfits
  rw [bucketTable] at he
  rcases mem_append.mp he with he | he
  · simp only [mem_cons, not_mem_nil, or_false] at he
    rcases he with rfl | hname
    · refine .inr ?_
      rcases mem_append.mp hv with hv | hv
      · obtain ⟨t, -, rfl⟩ := mem_map.mp hv
        simp [Contact.answer, not_startsWith_geosite, hnamed] at hanswer
      · obtain ⟨t, ht, rfl⟩ := mem_map.mp hv
        refine ⟨_, hv, ?_⟩
        simpa [Contact.answer, startsWith_append] using hanswer
    · rcases hname with rfl | rfl | rfl | rfl <;> simp [Contact.answer, hnamed] at hanswer
  · cases ipVersion with
    | some n => simp at he
    | none =>
      obtain rfl : e = ("ip_cidr", ranges p bucket) := by simpa [ranges] using he
      refine .inl ⟨rfl, v, hv, ?_⟩
      simpa [Contact.answer] using hanswer

theorem outbound_ne {field : String} (hfield : field ∈ bucketFields) :
    ("outbound" == field) = false := by
  rw [beq_eq_false_iff_ne]
  rintro rfl
  exact absurd hfield (by decide)

theorem lookup_outbound_matchRule {target : Target} {field : String} (hfield : field ∈ bucketFields)
    {values : List String} {tag : String}
    (h : (matchRule target ipVersion [(field, .strs values)]).lookup "outbound" = some (.str tag)) :
    target = .outbound tag := by
  have hne := outbound_ne hfield
  cases target with
  | reject => cases ipVersion <;> simp [matchRule, hne] at h
  | outbound tag' =>
    have htag : tag' = tag := by
      cases ipVersion <;> simpa [matchRule, hne, Json.str] using h
    rw [htag]

/-- A bucket whose rules hand over to the direct tag is the direct one. -/
theorem target_direct (h : directTag ≠ "proxy")
    (heq : bucketTarget directTag bucket = .outbound directTag) : bucket = .direct := by
  cases bucket with
  | block => cases heq
  | direct => rfl
  | proxy => exact absurd (Target.outbound.inj heq).symm h

/-- Every IPv6 address in a direct range is caught before: by an address set of the same bucket, or
    by a bucket tried earlier. -/
def V6Caught (A : Addresses) (p : RoutingProfile) : Prop :=
  Bucket.direct ∈ p.order → ∀ a, A.isV6 a = true → InRanges A p .direct a →
    InSets A p .direct a ∨
      ∃ bucket ∈ p.order.takeWhile (· ≠ .direct), InRanges A p bucket a ∨ InSets A p bucket a

/-- What comes before some occurrence holds all that comes before the first. -/
theorem mem_before {order before after : List Bucket} (h : order = before ++ .direct :: after)
    (hmem : bucket ∈ order.takeWhile (· ≠ .direct)) : bucket ∈ before := by
  rw [h, takeWhile_append] at hmem
  split_ifs at hmem
  · simpa using hmem
  · exact (takeWhile_sublist _).subset hmem

theorem takeWhile_split {order : List Bucket} (h : Bucket.direct ∈ order) :
    ∃ after, order = order.takeWhile (· ≠ .direct) ++ .direct :: after := by
  obtain ⟨before, after, rfl, hfirst⟩ := eq_append_cons_of_mem h
  have hbefore : ∀ b ∈ before, decide (b ≠ .direct) = true :=
    fun b hb => decide_eq_true (ne_of_mem_of_not_mem hb hfirst)
  exact ⟨after, by rw [takeWhile_append_of_pos hbefore]; simp⟩

theorem answer_v6 {c : Contact A} (h : A.isV6 c.address = true) :
    ∀ n ∈ (some 6 : Option Int), c.answer ("ip_version", toString n) = true := by
  rintro n ⟨⟩
  simp [Contact.answer, h, show toString (6 : Int) = "6" from rfl]

end Hidden

/-- IPv6 IS HIDDEN exactly if every IPv6 address in a direct range is caught before. -/
theorem hidden_iff (A : Addresses) (p : RoutingProfile) (directTag : String)
    (h : directTag ≠ "proxy") :
    (∀ c : Contact A, A.isV6 c.address = true → ¬ Yields c (rules p true directTag) directTag) ↔
      V6Caught A p := by
  constructor
  · intro hhidden hdirect a ha hin
    by_contra hfree
    rw [not_or, not_exists] at hfree
    -- a connection to this address that has no name
    let c : Contact A := ⟨a, fun _ => false⟩
    obtain ⟨after, horder⟩ := takeWhile_split hdirect
    have hbefore : ∀ bucket ∈ p.order.takeWhile (· ≠ .direct),
        ∀ rule ∈ bucketRules p true directTag bucket,
        c.fits rule = false := by
      intro bucket hbucket rule hrule
      by_contra hfits
      refine hfree.2 bucket ⟨hbucket, ?_⟩
      rcases mem_append.mp hrule with hrule | hrule
      · split_ifs at hrule
        · exact (caught_of_fits (c := c) (fun _ => rfl) hrule (by simpa using hfits)).imp
            And.right id
        · cases hrule
      · exact (caught_of_fits (c := c) (fun _ => rfl) hrule (by simpa using hfits)).imp And.right id
    -- of the direct bucket, no rule of the first pass fits, and then one of the second does
    have hpass : (emitBucket (p.sites .direct) (p.ips .direct) .reject (some 6)).find? c.fits =
        none := by
      rw [find?_eq_none]
      intro rule hrule hfits
      rcases caught_of_fits (c := c) (fun _ => rfl) hrule hfits with ⟨hnone, -⟩ | hsets
      · cases hnone
      · exact hfree.1 hsets
    obtain ⟨rule, hrule, hfits⟩ := fits_of_inRanges c (.outbound directTag) hin
    obtain ⟨found, hfound⟩ := isSome_iff_exists.mp
      (find?_isSome.mpr ⟨rule, hrule, hfits⟩ :
        ((emitBucket (p.sites .direct) (p.ips .direct) (.outbound directTag) none).find?
          c.fits).isSome = true)
    refine hhidden c ha ⟨found, ?_, ?_⟩
    · rw [rules, horder]
      refine Lib.find?_flatMap_of_first hbefore ?_
      rw [bucketRules, if_pos ⟨rfl, rfl⟩, find?_append, hpass, none_or]
      exact hfound
    · obtain ⟨e, he, -, rfl⟩ := mem_emitBucket_iff.mp (mem_of_find?_eq_some hfound)
      simp [matchRule, outbound_ne (fst_mem_bucketTable he)]
  · rintro hcaught c hv6 ⟨rule, hfind, houtbound⟩
    obtain ⟨before, bucket, after, horder, hbefore, hfound⟩ := Lib.find?_flatMap hfind
    rw [bucketRules, find?_append] at hfound
    -- a rule of the pass that hides rejects
    cases hpass : (if bucket = .direct ∧ true = true then
        emitBucket (p.sites bucket) (p.ips bucket) .reject (some 6) else []).find? c.fits with
    | some shadow =>
      rw [hpass, some_or] at hfound
      obtain rfl := Option.some.inj hfound
      have hmem := mem_of_find?_eq_some hpass
      split_ifs at hmem
      · obtain ⟨e, he, -, rfl⟩ := mem_emitBucket_iff.mp hmem
        cases lookup_outbound_matchRule (fst_mem_bucketTable he) houtbound
      · cases hmem
    | none =>
      rw [hpass, none_or] at hfound
      obtain ⟨e, he, hne, rfl⟩ := mem_emitBucket_iff.mp (mem_of_find?_eq_some hfound)
      have hfield := fst_mem_bucketTable he
      obtain rfl := target_direct h (lookup_outbound_matchRule hfield houtbound)
      rw [if_pos ⟨rfl, rfl⟩, find?_eq_none] at hpass
      obtain ⟨hanswers, -⟩ := (fits_matchRule c hfield hne).mp (find?_some hfound)
      rw [bucketTable] at he
      rcases mem_append.mp he with he | he
      · -- the same field with `ip_version: 6` was tried in the first pass
        exact hpass _ (mem_emitBucket_iff.mpr ⟨e, mem_append_left _ he, hne, rfl⟩)
          ((fits_matchRule c hfield hne).mpr ⟨hanswers, answer_v6 hv6⟩)
      · obtain rfl : e = ("ip_cidr", ranges p .direct) := by simpa [ranges] using he
        obtain ⟨range, hrange, hin⟩ := hanswers
        have hin : InRanges A p .direct c.address :=
          ⟨range, hrange, by simpa [Contact.answer] using hin⟩
        rcases hcaught (horder ▸ by simp) c.address hv6 hin with hsets | ⟨bucket, hbucket, hearlier⟩
        · obtain ⟨shadow, hshadow, hfits⟩ := fits_of_inSets c .reject (answer_v6 hv6) hsets
          exact hpass shadow hshadow hfits
        · have hmem := mem_before horder hbucket
          have hearlier : ∃ rule ∈ emitBucket (p.sites bucket) (p.ips bucket)
              (bucketTarget directTag bucket) none, c.fits rule = true := by
            rcases hearlier with hearlier | hearlier
            · exact fits_of_inRanges c _ hearlier
            · exact fits_of_inSets c _ (by simp) hearlier
          obtain ⟨earlier, hrule, hfits⟩ := hearlier
          have hnone := hbefore bucket hmem earlier (mem_append_right _ hrule)
          rw [hfits] at hnone
          cases hnone

/-- Addresses as their own texts, ranges of one address, no sets. -/
def textAddresses : Addresses where
  Addr := String
  isV6 a := contains a ":"
  inRange range a := range = toCidr a
  inSet _ _ := false

/-- Where the direct bucket has no addresses, IPv6 is hidden. -/
theorem names_hidden :
    "direct" ≠ "proxy" ∧ ∀ c : Contact textAddresses, textAddresses.isV6 c.address = true →
    ¬ Yields c (rules { directSites := ["domain:ru", "geosite:ru"] } true "direct") "direct" := by
  refine ⟨by decide, ?_⟩
  refine (hidden_iff textAddresses _ "direct" (by decide)).mpr fun _ a _ hin => ?_
  obtain ⟨range, hrange, -⟩ := hin
  cases hrange

/-- A direct IPv6 range sends the connection out with the real address. -/
theorem v6_range_direct : ∃ c : Contact textAddresses, textAddresses.isV6 c.address = true ∧
    Yields c (rules { directIp := ["2001:db8::1"] } true "direct") "direct" := by
  refine ⟨⟨"2001:db8::1", fun _ => false⟩, by decide, ?_⟩
  exact ⟨[("ip_cidr", .strs ["2001:db8::1/128"]), ("outbound", .str "direct")],
    by decide, by decide⟩

end OlcVpn.SingBoxRouting
