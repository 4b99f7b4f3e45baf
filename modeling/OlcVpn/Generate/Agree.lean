/-
  DO THE TWO CORES ROUTE A PROFILE THE SAME WAY?

  Both generators read the same lists.  For addresses they agree.  For sites it depends on the form
  of the entry, and the two disagree exactly where the translation is not the meaning Xray gives to
  the text it is handed:

    • a BARE entry stays bare for Xray, where it is a substring of the name; for sing-box it becomes
      the name and its subdomains, as if `domain:` stood before it;
    • Xray lowers the case of a value and sing-box does not, so that a value with a capital letter
      is found in no name by sing-box;
    • `regex:` is a pattern for sing-box, and no scheme at all for Xray;
    • sing-box trims what stands behind the scheme, Xray gets it as it is;
    • a `domain:` value that is empty or starts with a dot is no name with subdomains.

  An entry that is read apart does not always show.  Its bucket may not be in the order; another
  bucket may catch the name before; both cores may find the name in the bucket, by other entries; or
  what is left of the order decides the same anyway.

  THE SPECIFICATION is `RoutedAlike`: one profile, every connection, one verdict.

  ** The argument **
    • `apart_iff`: on which names one entry is read apart, by its form (`entry_agrees_iff`: the
      entries that are read apart on no name at all);
    • the verdicts are first match over the same buckets with the same decisions
      (`xrayVerdict_eq`, `singBoxVerdict_eq`), so they differ exactly if the first bucket that only
      one core matches makes a difference (`firstMatch_eq_iff_first`).
-/
import OlcVpn.Generate.Entries

namespace OlcVpn.Cores

open Kotlin Generate Lib

variable (S : Semantics) {entry : String}

/-! ## Buckets -/

/-- A profile whose entries have the forms in question. -/
structure Formed (p : RoutingProfile) : Prop where
  sites : ∀ bucket, ∀ entry ∈ p.sites bucket, SiteForm (trim entry)
  ips : ∀ bucket, ∀ entry ∈ p.ips bucket, AddressForm entry

theorem any_siteEntries (sites : List String) (name : String) :
    ((Xray.siteEntries sites).any fun e => xraySite S e name) =
      sites.any fun e => xrayEntry S e name := by
  rw [Xray.siteEntries, List.any_filter, List.any_map]
  rfl

theorem parseAddress_of_form (h : AddressForm entry) : SingBoxRouting.parseAddress entry =
      if trim entry = "" ∨ isAsnSelector (trim entry) = true then none
      else some { ipCidr := [SingBoxRouting.toCidr (trim entry)] } := by
  unfold SingBoxRouting.parseAddress
  by_cases hblank : trim entry = ""
  · simp [hblank]
  · by_cases hasn : isAsnSelector (trim entry) = true <;> simp [hblank, h.1, h.2, hasn]

/-- The address ranges of a bucket are the same in both cores. -/
theorem inRanges_ips {ips : List String} (h : ∀ entry ∈ ips, AddressForm entry)
    (conn : Connection S) :
    inRanges conn (Xray.ipEntries ips) = inRanges conn
      (SingBoxRouting.collect SingBoxRouting.Selectors.ipCidr (SingBoxRouting.parseIp ips)) := by
  unfold inRanges
  congr 1
  funext addr
  rw [any_collect, Xray.ipEntries, List.any_filter, List.any_map, SingBoxRouting.parseIp,
    List.any_filterMap]
  refine any_congr_mem fun entry hentry => ?_
  rw [parseAddress_of_form (h entry hentry)]
  by_cases hblank : trim entry = ""
  · simp [hblank]
  · by_cases hasn : isAsnSelector (trim entry) = true
    · simp [hblank, hasn]
    · simp [hblank, hasn, S.inRange_toCidr]

theorem noTags_of_siteForm (h : SiteForm (trim entry)) :
    ∀ s ∈ SingBoxRouting.parseSite entry, s.geositeTags = [] := by
  have hnames : ∀ v, (SingBoxRouting.domainAndSubdomains v).geositeTags = [] := by
    intro v
    simp only [SingBoxRouting.domainAndSubdomains]
    split_ifs <;> rfl
  generalize htext : trim entry = text at h
  cases h with
  | blank => simp [SingBoxRouting.parseSite, htext]
  | schemed s v =>
    rw [parseSite_scheme s v htext]
    cases s <;> simp [hnames]
  | bare hne hcolon hname =>
    subst htext
    rw [parseSite_bare hne hcolon hname]
    simp [hnames]

theorem Formed.noSets {p : RoutingProfile} (h : Formed p) : NoSets p := by
  refine fun bucket => ⟨?_, ?_⟩
  · intro s hs
    obtain ⟨entry, hentry, hparse⟩ := List.mem_filterMap.mp hs
    exact noTags_of_siteForm (h.sites bucket entry hentry) s hparse
  · intro s hs
    obtain ⟨entry, hentry, hparse⟩ := List.mem_filterMap.mp hs
    rw [parseAddress_of_form (h.ips bucket entry hentry)] at hparse
    split_ifs at hparse
    rw [← Option.some.inj hparse]

section Profile

variable {S} {p : RoutingProfile} {conn : Connection S}

/-- A bucket that only one core matches has an entry that is read apart on the name. -/
theorem exists_apart (h : Formed p) {bucket : Bucket}
    (hdiffers : xrayBucket S conn p bucket ≠ singBoxBucket S conn p bucket) :
    ∃ name ∈ conn.name, ∃ entry ∈ p.sites bucket, Apart S entry name := by
  by_contra hnone
  refine hdiffers ?_
  rw [xrayBucket, singBoxBucket, inRanges_ips S (h.ips bucket), onDomain, onDomain]
  cases hname : conn.name with
  | none => rfl
  | some name =>
    simp only [Option.any_some, any_siteEntries]
    rw [any_congr_mem fun entry hentry => ?_]
    by_contra hne
    exact hnone ⟨name, hname, entry, hentry, (apart_iff S (h.sites bucket entry hentry)).mp hne⟩

/-- Which profiles Xray loads, and which sing-box does. -/
theorem xrayLoads_iff (h : Formed p) : (Xray.rules p).all (xrayLoads S) = true ↔
    ∀ bucket ∈ p.order, ∀ entry ∈ p.sites bucket, ¬ XrayRefuses S entry := by
  rw [xrayLoads_rules, List.all_eq_true]
  refine forall₂_congr fun bucket _ => ?_
  rw [Xray.siteEntries, List.all_filter, List.all_map, List.all_eq_true]
  refine forall₂_congr fun entry hentry => ?_
  rw [← xrayReads_iff S (h.sites bucket entry hentry)]
  simp only [Function.comp_apply, ne_eq, decide_not, Bool.not_not, Bool.or_eq_true,
    decide_eq_true_eq]

theorem singBoxLoads_iff (h : Formed p) :
    (SingBoxRouting.rules p false "direct").all (singBoxLoads S) = true ↔
      ∀ bucket ∈ p.order, ∀ entry ∈ p.sites bucket, ¬ SingBoxRefuses S entry := by
  rw [singBoxLoads_rules, List.all_eq_true]
  refine forall₂_congr fun bucket _ => ?_
  rw [SingBoxRouting.parse, List.all_filterMap, List.all_eq_true]
  refine forall₂_congr fun entry hentry => ?_
  rw [← selectorLoads_iff S (h.sites bucket entry hentry)]
  cases SingBoxRouting.parseSite entry <;> simp

end Profile

/-! ## Profiles -/

variable (p : RoutingProfile)

/-- The two cores decide alike for every connection. -/
def RoutedAlike : Prop := ∀ conn : Connection S, xrayVerdict S conn p = singBoxVerdict S conn p

/-- Some entry of a bucket in the order is refused. -/
def Refused (refuses : String → Prop) : Prop :=
  ∃ bucket ∈ p.order, ∃ entry ∈ p.sites bucket, refuses entry

/-- WHERE AN ENTRY READ APART DOES NOT SHOW.  A connection that no earlier bucket catches comes to
    a bucket with an entry that is read apart on its name.  If then only one core finds it in the
    bucket, what is left of the order decides for the other core what the bucket decides. -/
def Settled (conn : Connection S) : Prop :=
  ∀ before bucket after, p.order = before ++ bucket :: after →
    (∀ earlier ∈ before,
      xrayBucket S conn p earlier = false ∧ singBoxBucket S conn p earlier = false) →
    (∃ name ∈ conn.name, ∃ entry ∈ p.sites bucket, Apart S entry name) →
    (xrayBucket S conn p bucket = true → singBoxBucket S conn p bucket = false →
      some bucket = firstMatch (singBoxBucket S conn p) some (some (rest p)) after) ∧
    (xrayBucket S conn p bucket = false → singBoxBucket S conn p bucket = true →
      firstMatch (xrayBucket S conn p) some (some (rest p)) after = some bucket)

/-- First match over the buckets is the same exactly if every entry read apart is settled. -/
theorem firstMatch_eq_iff_settled (h : Formed p) (conn : Connection S) :
    firstMatch (xrayBucket S conn p) some (some (rest p)) p.order =
      firstMatch (singBoxBucket S conn p) some (some (rest p)) p.order ↔ Settled S p conn := by
  rw [firstMatch_eq_iff_first]
  constructor
  · exact fun hall before bucket after hsplit hbefore _ => hall before bucket after hsplit hbefore
  · intro hall before bucket after hsplit hbefore
    constructor
    · intro hx hy
      exact (hall before bucket after hsplit hbefore
        (exists_apart h (by rw [hx, hy]; decide))).1 hx hy
    · intro hx hy
      exact (hall before bucket after hsplit hbefore
        (exists_apart h (by rw [hx, hy]; decide))).2 hx hy

/-- Where every entry of the buckets in the order has an agreeing form, nothing is read apart. -/
theorem settled_of_agrees {p : RoutingProfile} (h : Formed p)
    (hagrees : ∀ bucket ∈ p.order, ∀ entry ∈ p.sites bucket, Agrees S entry)
    (conn : Connection S) : Settled S p conn := by
  rintro before bucket after hsplit - ⟨name, hname, entry, hentry, hapart⟩
  have hmem : bucket ∈ p.order := by
    rw [hsplit]
    exact List.mem_append_right _ List.mem_cons_self
  rw [Connection.name, Option.mem_def, Option.map_eq_some_iff] at hname
  obtain ⟨domain, hdomain, rfl⟩ := hname
  have hne : domain ≠ "" := by simpa using (Option.filter_eq_some_iff.mp hdomain).2
  have hisName : IsName S (S.lower domain) := by
    refine ⟨lower_lower S domain, fun hnil => hne ?_⟩
    have hlength := length_lower S domain
    rw [hnil] at hlength
    exact String.toList_injective (List.length_eq_zero_iff.mp hlength.symm)
  exact absurd hapart ((entry_agrees_iff S (h.sites bucket entry hentry)).mpr
    (hagrees bucket hmem entry hentry) _ hisName)

theorem toLower_toLower (c : Char) : c.toLower.toLower = c.toLower := by
  by_cases hupper : c.val ≥ 'A'.val ∧ c.val ≤ 'Z'.val
  · have hlower : c.toLower.val = c.val + ('a'.val - 'A'.val) :=
      congrArg Char.val (dif_pos hupper)
    refine dif_neg ?_
    rw [hlower]
    obtain ⟨hge, hle⟩ := hupper
    have ha : 'A'.val.toNat = 65 := rfl
    have hz : 'Z'.val.toNat = 90 := rfl
    have hd : ('a'.val - 'A'.val).toNat = 32 := rfl
    simp only [ge_iff_le, UInt32.le_iff_toNat_le, UInt32.toNat_add, hd, ha, hz] at hge hle ⊢
    omega
  · have hsame : c.toLower = c := dif_neg hupper
    rw [hsame, hsame]

/-- A reading of patterns and ranges: a pattern is a plain text, a range is one address. -/
def plain : Semantics where
  Addr := String
  regex := fun pattern => some fun name => contains name pattern
  lowerChar := Char.toLower
  inRange := fun entry addr => SingBoxRouting.toCidr entry = SingBoxRouting.toCidr addr
  lowerChar_lowerChar := toLower_toLower
  lowerChar_ascii := fun _ _ => rfl
  inRange_toCidr := by
    intro entry addr
    have hslash : ∀ v, contains (SingBoxRouting.toCidr v) "/" = true := by
      intro v
      unfold SingBoxRouting.toCidr
      split_ifs with h
      · exact h
      · have h' := contains_of_append v "/" "128"
        rwa [String.append_assoc] at h'
      · have h' := contains_of_append v "/" "32"
        rwa [String.append_assoc] at h'
    have hidem : SingBoxRouting.toCidr (SingBoxRouting.toCidr entry) =
        SingBoxRouting.toCidr entry := by
      rw [SingBoxRouting.toCidr, if_pos (hslash entry)]
    rw [hidem]

/-- A profile with a bare site in a bucket that is not in the order. -/
def unorderedBare : RoutingProfile where
  blockSites := ["keyword:ads", "full:www.example.org"]
  directSites := ["example.com"]
  directIp := ["192.0.2.0/24"]
  proxySites := ["domain:example.net"]
  proxyIp := ["198.51.100.7"]
  routeOrder := "block-proxy"

theorem formed_unorderedBare : Formed unorderedBare where
  sites := by
    intro bucket entry hentry
    cases bucket <;> simp only [unorderedBare, RoutingProfile.sites, List.mem_cons,
      List.not_mem_nil, or_false] at hentry
    · rcases hentry with rfl | rfl
      · exact SiteForm.schemed .keyword "ads"
      · exact SiteForm.schemed .full "www.example.org"
    · subst hentry
      exact SiteForm.bare (by decide) (by decide) (by decide)
    · subst hentry
      exact SiteForm.schemed .domain "example.net"
  ips := by
    intro bucket entry hentry
    cases bucket <;> simp only [unorderedBare, RoutingProfile.ips, List.mem_cons,
      List.not_mem_nil, or_false] at hentry
    · subst hentry
      exact ⟨by decide, by decide⟩
    · subst hentry
      exact ⟨by decide, by decide⟩

/-- A connection known by its name only. -/
def toName (name : String) : Connection plain :=
  { domain := some name, address := none, network := .tcp }

end OlcVpn.Cores
