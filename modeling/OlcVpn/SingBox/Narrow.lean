/-
  DO THE USER'S OWN RULES MATCH MORE THAN THE USER WROTE?

  "Every populated field is ANDed together (a connection must match all of them); within a field the
  entries are ORed."  Each field goes through its own parser, and each parser drops what it does not
  understand.  `hasMatcher` ("otherwise it would match everything") looks at the fields BEFORE they
  are parsed, so a field of which nothing is left becomes no condition at all:

    • a package pattern that fits no installed package leaves a rule for EVERY connection;
    • an unresolved `asn:`, a port text without a port, an address in the domain list;
    • and with domains AND addresses in one rule the core takes them as alternatives.

    • `keyword:` and `regexp:` with nothing behind them become a pattern every name fits.

  THE SPECIFICATION: `written`, one clause per populated field of the rule as the user wrote it, by
  the syntax of SingBox/Written.  `Narrow`: the emitted object asks something, and whatever it
  matches satisfies all clauses.

  THE RESULT, `manual_narrow_iff`: exactly the `Faithful` rules are narrow.
-/
import OlcVpn.SingBox.Written

open List (any_eq_false map_id map_map mem_append mem_map mem_flatMap)

namespace OlcVpn.Generate

open Kotlin

/-! ## Expansion before a configuration is built -/

/-- `Asn.normalize`. -/
def Asn.normalize (raw : String) : Option String :=
  let v := trim raw
  let v := if startsWithIgnoreCase v "asn:" then trim (substringFrom v 4) else v
  let v := if startsWithIgnoreCase v "as" then trim (substringFrom v 2) else v
  if v ≠ "" ∧ v.toList.all (fun c => (digitToIntOrNull c).isSome) = true then some v else none

/-- `Asn.expand`: the ranges of a network in place of its number; an unknown one leaves nothing. -/
def Asn.expand (cidrsByAsn : String → Option (List String)) (selectors : List String) :
    List String :=
  if selectors.all (fun selector => !isAsnSelector selector) then selectors
  else selectors.flatMap fun selector =>
    if isAsnSelector selector then ((Asn.normalize selector).bind cidrsByAsn).getD []
      else [selector]

/-- What expansion looks up: the ASN table, the installed packages, and which patterns are valid and
    what they are found in. -/
structure Device where
  cidrsByAsn : String → Option (List String)
  installedPackages : List String
  regex : String → Option (String → Bool)

namespace Device

variable (device : Device)

def usesAsn (r : SingBoxRule) : Bool := r.ip.any isAsnSelector

variable (rules : List SingBoxRule)

def expandAsn : List SingBoxRule :=
  if rules.any usesAsn then
    rules.map fun r => if usesAsn r then { r with ip := Asn.expand device.cidrsByAsn r.ip } else r
  else rules

variable (r : SingBoxRule)

/-- The installed packages a rule's patterns are found in. -/
def matched : List String :=
  device.installedPackages.filter fun package =>
    (r.packageRegex.filterMap device.regex).any fun found => found package

/-- `expandPackageRegex` on one rule: with no match the rule stays as it is. -/
def expandPackages : SingBoxRule :=
  if r.packageRegex = [] ∨ (r.packageRegex.filterMap device.regex).isEmpty = true then r
  else if device.matched r = [] then r
  else { r with packageNames := distinctBy id (r.packageNames ++ device.matched r) }

def expandPackageRegex : List SingBoxRule :=
  if rules.any (fun r => !r.packageRegex.isEmpty) then rules.map device.expandPackages else rules

/-- Both expansions on one rule. -/
def expand : SingBoxRule :=
  device.expandPackages { r with ip := Asn.expand device.cidrsByAsn r.ip }

theorem expand_asn_self {r : SingBoxRule} (h : usesAsn r = false) :
    Asn.expand device.cidrsByAsn r.ip = r.ip := by
  rw [Asn.expand, if_pos]
  rw [List.all_eq_true]
  intro selector hselector
  rw [usesAsn, any_eq_false] at h
  simpa using h selector hselector

theorem expandAsn_eq : device.expandAsn rules =
    rules.map fun r => { r with ip := Asn.expand device.cidrsByAsn r.ip } := by
  rw [expandAsn]
  split_ifs with hany
  · refine List.map_congr_left fun r _ => ?_
    split_ifs with huses
    · rfl
    · rw [device.expand_asn_self (by simpa using huses)]
  · rw [Bool.not_eq_true, any_eq_false] at hany
    conv_lhs => rw [← map_id rules]
    refine List.map_congr_left fun r hr => ?_
    rw [device.expand_asn_self (by simpa using hany r hr)]
    rfl

theorem expandPackageRegex_eq :
    device.expandPackageRegex rules = rules.map device.expandPackages := by
  rw [expandPackageRegex]
  split_ifs with hany
  · rfl
  · rw [Bool.not_eq_true, any_eq_false] at hany
    conv_lhs => rw [← map_id rules]
    refine List.map_congr_left fun r hr => ?_
    have hnone : r.packageRegex = [] := by simpa using hany r hr
    rw [expandPackages, if_pos (.inl hnone)]
    rfl

/-- Expanding a list is expanding its rules. -/
theorem expand_list :
    device.expandPackageRegex (device.expandAsn rules) = rules.map device.expand := by
  rw [expandPackageRegex_eq, expandAsn_eq, map_map]
  rfl

/-- The packages after expansion are the named and the found ones. -/
theorem mem_packageNames_expand {r : SingBoxRule} {package : String} :
    package ∈ (device.expand r).packageNames ↔ package ∈ r.packageNames ++ device.matched r := by
  rw [expand, expandPackages]
  split_ifs with hnone hempty
  · have hmatched : device.matched r = [] := by
      rw [matched, List.filter_eq_nil_iff]
      rcases hnone with hnone | hnone
      · simp [show r.packageRegex = [] from hnone]
      · simp [List.isEmpty_iff.mp (show (r.packageRegex.filterMap device.regex).isEmpty = true
          from hnone)]
    simp [hmatched]
  · simp [show device.matched r = [] from hempty]
  · exact mem_distinctByFrom_id.trans (by simp; rfl)

/-- Expansion touches addresses and packages only. -/
theorem expand_eq : device.expand r =
    { r with ip := Asn.expand device.cidrsByAsn r.ip, packageNames :=
  (device.expand r).packageNames } := by
  simp only [expand, expandPackages]
  split_ifs <;> rfl

/-- What it does not touch, and the expanded addresses. -/
@[simp] theorem expand_fields (r : SingBoxRule) : (device.expand r).domains = r.domains ∧
    (device.expand r).ip = Asn.expand device.cidrsByAsn r.ip ∧ (device.expand r).source = r.source ∧
    (device.expand r).port = r.port ∧ (device.expand r).sourcePort = r.sourcePort ∧
    (device.expand r).network = r.network ∧ (device.expand r).networkType = r.networkType ∧
    (device.expand r).protocol = r.protocol ∧ (device.expand r).client = r.client ∧
    (device.expand r).networkIsExpensive = r.networkIsExpensive ∧
    (device.expand r).clashMode = r.clashMode ∧ (device.expand r).packageRegex =
      r.packageRegex := by
  rw [expand_eq]
  simp only [and_self]

end Device

end OlcVpn.Generate

namespace OlcVpn.SingBoxRouting

open Kotlin Generate SingBox
open Lib.Clauses (Sat Holds entails_iff)

/-! ## What the user wrote -/

/-- A populated field is a clause. -/
def clauseIf (populated : Bool) (alternatives : List Question) : List (List Question) :=
  if populated then [alternatives] else []

def appField (matchAppsByProcess : Bool) : String :=
  if matchAppsByProcess then "process_name" else "package_name"

def writtenDomains (r : SingBoxRule) : List Question := r.domains.flatMap domainQuestions

/-- The number of a network stands for its ranges; without any it matches nothing. -/
def writtenIps (device : Device) (r : SingBoxRule) : List Question :=
  r.ip.flatMap fun entry =>
    if schemeOf (trim entry) = some "asn" then
      (((asnNumber entry).bind device.cidrsByAsn).getD []).flatMap ipQuestions
    else ipQuestions entry

/-- The named packages, and the installed ones a pattern is found in. -/
def writtenPackages (device : Device) (r : SingBoxRule) : List String :=
  r.packageNames ++ device.installedPackages.filter fun package =>
    r.packageRegex.any fun pattern => (device.regex pattern).any fun found => found package

/-- THE RULE AS WRITTEN: one clause per populated field, its entries as alternatives. -/
def written (device : Device) (matchAppsByProcess : Bool) (r : SingBoxRule) :
    List (List Question) :=
  clauseIf (!r.domains.isEmpty) (writtenDomains r) ++
  clauseIf (!r.ip.isEmpty) (writtenIps device r) ++
  clauseIf (!r.source.isEmpty) (r.source.flatMap sourceQuestions) ++
  clauseIf (isNotBlank r.port) (portQuestions "port" "port_range" r.port) ++
  clauseIf (isNotBlank r.sourcePort) (portQuestions "source_port" "source_port_range"
    r.sourcePort) ++
  clauseIf (isNotBlank r.network) [("network", r.network)] ++
  clauseIf (!r.networkType.isEmpty) (r.networkType.map ("network_type", ·)) ++
  clauseIf (!r.protocol.isEmpty) (r.protocol.map ("protocol", ·)) ++
  clauseIf (!r.client.isEmpty) (r.client.map ("client", ·)) ++
  clauseIf r.networkIsExpensive [("network_is_expensive", "true")] ++
  clauseIf (isNotBlank r.clashMode) [("clash_mode", r.clashMode)] ++
  clauseIf (!r.packageNames.isEmpty || !r.packageRegex.isEmpty)
    ((writtenPackages device r).map (appField matchAppsByProcess, ·))

/-- The emitted object asks something, and matches only what satisfies every populated field. -/
structure Narrow (device : Device) (matchAppsByProcess : Bool) (r : SingBoxRule)
    (rule : JsonObject) :
    Prop where
  asks : clauses rule ≠ []
  sound : ∀ connection, Matches connection rule →
    Sat connection (written device matchAppsByProcess r)

/-! ## What is left of it -/

/-- The destinations that are left of a rule. -/
def destinations (r : SingBoxRule) : List Question :=
  (distinctBy id (((parse r.domains).flatMap Selectors.geositeTags).map ("geosite-" ++ ·) ++
    ((parseIp r.ip).flatMap Selectors.geoipTags).map ("geoip-" ++ ·))).map ("rule_set", ·) ++
  (collect Selectors.domainSuffix (parse r.domains)).map ("domain_suffix", ·) ++
  (collect Selectors.domainExact (parse r.domains)).map ("domain", ·) ++
  (collect Selectors.domainKeyword (parse r.domains)).map ("domain_keyword", ·) ++
  (collect Selectors.domainRegex (parse r.domains)).map ("domain_regex", ·) ++
  (collect Selectors.ipCidr (parseIp r.ip)).map ("ip_cidr", ·)

/-- A rule whose populated fields all have an entry that means something, with no empty pattern, and
    not with sites and addresses in one. -/
structure Faithful (device : Device) (r : SingBoxRule) : Prop where
  destination : r.domains = [] ∨ r.ip = []
  domains : r.domains ≠ [] →
    (∃ entry ∈ r.domains, domainQuestions entry ≠ [] ∧ ¬ AddressAsSite entry) ∧
      ∀ entry ∈ r.domains, ¬ EmptyPattern entry
  ip : r.ip ≠ [] → writtenIps device r ≠ []
  source : r.source ≠ [] → r.source.flatMap sourceQuestions ≠ []
  port : isNotBlank r.port = true → portQuestions "port" "port_range" r.port ≠ []
  sourcePort : isNotBlank r.sourcePort = true →
    portQuestions "source_port" "source_port_range" r.sourcePort ≠ []
  packages : r.packageNames ≠ [] ∨ r.packageRegex ≠ [] → writtenPackages device r ≠ []

section Object

variable (r : SingBoxRule) (matchAppsByProcess : Bool) (directTag : String)

/-- The action asks nothing. -/
theorem questionsIn_manualAction {group : List String} (hgroup : group ∈ groups) :
    questionsIn group (manualAction r directTag) = [] := by
  have hnames : ∀ g ∈ groups, "action" ∉ g ∧ "outbound" ∉ g := by decide
  obtain ⟨haction, houtbound⟩ := hnames group hgroup
  unfold manualAction
  split_ifs <;> simp [questionsIn, haction, houtbound]

theorem questionsIn_manual {group : List String} (hgroup : group ∈ groups) :
    questionsIn group (manualMatchers r matchAppsByProcess ++ manualAction r directTag) =
      questionsIn group (manualMatchers r matchAppsByProcess) := by
  rw [questionsIn_append, questionsIn_manualAction r directTag hgroup, List.append_nil]

/-- What the object asks, group by group. -/
theorem questionsIn_destination : questionsIn
    ["rule_set", "domain_suffix", "domain", "domain_keyword", "domain_regex", "ip_cidr",
      "ip_is_private"]
    (manualMatchers r matchAppsByProcess) = destinations r := by
  cases matchAppsByProcess <;> simp [manualMatchers, destinations]

theorem questionsIn_source : questionsIn ["source_ip_cidr", "source_geoip"]
    (manualMatchers r matchAppsByProcess) =
      (collect Selectors.ipCidr (parseIp r.source)).map ("source_ip_cidr", ·) := by
  cases matchAppsByProcess <;> simp [manualMatchers]

theorem questionsIn_port :
    questionsIn ["port", "port_range"] (manualMatchers r matchAppsByProcess) =
    emittedPorts "port" "port_range" r.port := by
  cases matchAppsByProcess <;> simp [manualMatchers, emittedPorts]

theorem questionsIn_sourcePort : questionsIn ["source_port", "source_port_range"]
    (manualMatchers r matchAppsByProcess) =
      emittedPorts "source_port" "source_port_range" r.sourcePort := by
  cases matchAppsByProcess <;> simp [manualMatchers, emittedPorts]

theorem questionsIn_app :
    questionsIn [appField matchAppsByProcess] (manualMatchers r matchAppsByProcess) =
    r.packageNames.map (appField matchAppsByProcess, ·) := by
  cases matchAppsByProcess <;> simp [manualMatchers, appField]

/-- A field that is a text or a flag is asked about as it stands. -/
theorem questionsIn_text : questionsIn ["network"] (manualMatchers r matchAppsByProcess) =
      (if isNotBlank r.network then [("network", r.network)] else []) ∧
    questionsIn ["clash_mode"] (manualMatchers r matchAppsByProcess) =
      (if isNotBlank r.clashMode then [("clash_mode", r.clashMode)] else []) ∧
    questionsIn ["network_is_expensive"] (manualMatchers r matchAppsByProcess) =
      if r.networkIsExpensive then [("network_is_expensive", "true")] else [] := by
  cases matchAppsByProcess <;>
    simp [manualMatchers, valuesOf, Json.str, Json.bool, show toString true = "true" from rfl]

theorem questionsIn_list : questionsIn ["network_type"] (manualMatchers r matchAppsByProcess) =
      r.networkType.map ("network_type", ·) ∧
    questionsIn ["protocol"] (manualMatchers r matchAppsByProcess) =
      r.protocol.map ("protocol", ·) ∧
    questionsIn ["client"] (manualMatchers r matchAppsByProcess) = r.client.map ("client", ·) := by
  cases matchAppsByProcess <;> simp [manualMatchers]

end Object

/-! ## Exactly the faithful rules -/

theorem forall_mem_clauseIf {populated : Bool} {d : List Question} {P : List Question → Prop} :
    (∀ c ∈ clauseIf populated d, P c) ↔ (populated = true → P d) := by
  cases populated <;> simp [clauseIf]

/-- The emitted object for a rule. -/
def manualRule (matchAppsByProcess : Bool) (directTag : String) (r : SingBoxRule) : JsonObject :=
  manualMatchers r matchAppsByProcess ++ manualAction r directTag

section Clause

variable {r : SingBoxRule} {matchAppsByProcess : Bool} {directTag : String}

/-- A clause about one group, of the emitted object. -/
theorem manual_subsumed_iff {group : List String} (hgroup : group ∈ groups)
    {d asked : List Question}
    (hasked : questionsIn group (manualMatchers r matchAppsByProcess) = asked)
      (hd : ∀ q ∈ d, q.1 ∈ group) :
    (∃ c ∈ clauses (manualRule matchAppsByProcess directTag r), c ⊆ d) ↔ asked ≠ [] ∧
      asked ⊆ d := by
  rw [subsumed_iff hgroup hd, manualRule, questionsIn_manual r matchAppsByProcess directTag hgroup,
    hasked]

/-- A field that is emitted as it stands, when it is populated. -/
theorem manual_subsumed_self {name : String} (hgroup : [name] ∈ groups) {values : List String}
    (hasked : questionsIn [name] (manualMatchers r matchAppsByProcess) = values.map (name, ·))
    (hne : values ≠ []) :
    ∃ c ∈ clauses (manualRule matchAppsByProcess directTag r), c ⊆ values.map (name, ·) := by
  refine (manual_subsumed_iff hgroup hasked fun q hq => ?_).mpr ⟨by simpa using hne, fun _ h => h⟩
  obtain ⟨value, -, rfl⟩ := mem_map.mp hq
  exact List.mem_singleton_self name

end Clause

theorem notEmpty_iff {α : Type} {l : List α} : (!l.isEmpty) = true ↔ l ≠ [] := by
  cases l <;> simp

/-! ### Destinations -/

/-- What is left of the destinations, entry by entry. -/
theorem mem_destinations {r : SingBoxRule} {q : Question} : q ∈ destinations r ↔
    (∃ entry ∈ r.domains, q ∈ siteAsked entry) ∨ ∃ entry ∈ r.ip, q ∈ addressAsked entry := by
  have hsets : ∀ tags : List String, ∀ tag, tag ∈ distinctBy id tags ↔ tag ∈ tags :=
    fun tags tag => mem_distinctByFrom_id.trans (by simp)
  simp only [destinations, mem_append, mem_map, hsets, mem_collect, mem_flatMap, parse, parseIp,
    List.mem_filterMap, siteAsked, addressAsked, Selectors.siteQuestions, Option.mem_toList]
  grind

theorem fst_domainQuestions {entry : String} {q : Question} (h : q ∈ domainQuestions entry) :
    (q.1 = "rule_set" ∧ ∃ tag, q.2 = "geosite-" ++ tag) ∨
      q.1 ∈ ["domain_suffix", "domain", "domain_keyword", "domain_regex"] := by
  have hunder : ∀ name, q ∈ underName name → q.1 ∈ ["domain_suffix", "domain"] := by
    intro name hq
    unfold underName at hq
    split_ifs at hq <;> simp at hq
    · simp [hq]
    · rcases hq with rfl | rfl <;> simp
  have hfound : ∀ field text, q ∈ foundIn field text → q.1 = field := by
    intro field text hq
    unfold foundIn at hq
    split_ifs at hq
    · cases hq
    · rw [List.mem_singleton.mp hq]
  unfold domainQuestions at h
  simp only at h
  split_ifs at h
  · rw [List.mem_singleton.mp h]
    exact .inl ⟨rfl, _, rfl⟩
  · cases h
  · exact .inr (List.mem_append_left ["domain_keyword", "domain_regex"] (hunder _ h))
  · rw [List.mem_singleton.mp h]
    exact .inr (by simp)
  · exact .inr (by simp [hfound _ _ h])
  · exact .inr (by simp [hfound _ _ h])
  · exact .inr (List.mem_append_left ["domain_keyword", "domain_regex"] (hunder _ h))

theorem fst_ipQuestions {entry : String} {q : Question} (h : q ∈ ipQuestions entry) :
    (q.1 = "rule_set" ∧ ∃ tag, q.2 = "geoip-" ++ tag) ∨ q.1 = "ip_cidr" := by
  unfold ipQuestions at h
  simp only at h
  split_ifs at h
  · rw [List.mem_singleton.mp h]
    exact .inl ⟨rfl, _, rfl⟩
  · cases h
  · rw [List.mem_singleton.mp h]
    exact .inr rfl

theorem isAsnSelector_iff (entry : String) :
    isAsnSelector entry = true ↔ schemeOf (trim entry) = some "asn" :=
  @startsWithIgnoreCase_iff_scheme "asn" (by decide) _

/-- The client's number of a network is the one that was written. -/
theorem normalize_eq {entry : String} (h : schemeOf (trim entry) = some "asn") :
    Asn.normalize entry = asnNumber entry := by
  have hcolon : ':' ∈ (trim entry).toList := by
    by_contra hnone
    rw [schemeOf, if_neg hnone] at h
    cases h
  have hvalue : trim (substringFrom (trim entry) 4) = behindColon (trim entry) := by
    rw [schemeOf, if_pos hcolon, Option.some.injEq, ← String.toList_inj, String.toList_ofList] at h
    have hlength : ((trim entry).toList.takeWhile (· ≠ ':')).length = 3 := by
      simpa using congrArg List.length h
    have hsplit : (trim entry).toList.takeWhile (· ≠ ':') ++
        (trim entry).toList.dropWhile (· ≠ ':') = (trim entry).toList :=
          List.takeWhile_append_dropWhile
    have hdrop : (trim entry).toList.drop 4 =
        ((trim entry).toList.dropWhile (· ≠ ':')).drop 1 := by
      conv_lhs => rw [← hsplit, show 4 = 3 + 1 from rfl, ← hlength, List.drop_length_add_append]
    rw [substringFrom, behindColon, hdrop]
  have hasn : startsWithIgnoreCase (trim entry) "asn:" = true := (isAsnSelector_iff entry).mpr h
  rw [Asn.normalize, asnNumber]
  simp only [hasn, if_true, hvalue]
  rfl

/-- Each number of a network gives way to its ranges, and every other entry stays. -/
theorem mem_expand {table : String → Option (List String)} {ips : List String} {range : String} :
    range ∈ Asn.expand table ips ↔ ∃ entry ∈ ips,
      (schemeOf (trim entry) = some "asn" ∧
        range ∈ ((asnNumber entry).bind table).getD []) ∨
      schemeOf (trim entry) ≠ some "asn" ∧ range = entry := by
  have hall : Asn.expand table ips = ips.flatMap fun selector =>
      if isAsnSelector selector then ((Asn.normalize selector).bind table).getD []
        else [selector] := by
    unfold Asn.expand
    split_ifs with hnone
    · have hplain : ∀ selector ∈ ips, (if isAsnSelector selector then
          ((Asn.normalize selector).bind table).getD [] else [selector]) = [selector] := by
        intro selector hselector
        exact if_neg (by simpa using List.all_eq_true.mp hnone selector hselector)
      rw [List.flatMap_congr hplain]
      simp
    · rfl
  rw [hall, mem_flatMap]
  refine exists_congr fun entry => and_congr_right' ?_
  simp only [isAsnSelector_iff]
  by_cases hasn : schemeOf (trim entry) = some "asn"
  · simp [hasn, normalize_eq hasn]
  · simp [hasn]

theorem mem_writtenIps {device : Device} {r : SingBoxRule} {q : Question} :
    q ∈ writtenIps device r ↔ ∃ entry ∈ Asn.expand device.cidrsByAsn r.ip,
      q ∈ ipQuestions entry := by
  constructor
  · intro hq
    obtain ⟨entry, hentry, hq⟩ := mem_flatMap.mp hq
    split_ifs at hq with hasn
    · obtain ⟨range, hrange, hq⟩ := mem_flatMap.mp hq
      exact ⟨range, mem_expand.mpr ⟨entry, hentry, .inl ⟨hasn, hrange⟩⟩, hq⟩
    · exact ⟨entry, mem_expand.mpr ⟨entry, hentry, .inr ⟨hasn, rfl⟩⟩, hq⟩
  · rintro ⟨range, hrange, hq⟩
    obtain ⟨entry, hentry, ⟨hasn, hrange⟩ | ⟨hasn, rfl⟩⟩ := mem_expand.mp hrange
    · refine mem_flatMap.mpr ⟨entry, hentry, ?_⟩
      rw [if_pos hasn]
      exact mem_flatMap.mpr ⟨range, hrange, hq⟩
    · exact mem_flatMap.mpr ⟨range, hentry, by rwa [if_neg hasn]⟩

/-- A question about a site is none about an address. -/
theorem destinations_apart {device : Device} {r : SingBoxRule} {q : Question}
    (hsite : q ∈ writtenDomains r) (hip : q ∈ writtenIps device r) : False := by
  obtain ⟨entry, -, hsite⟩ := mem_flatMap.mp hsite
  obtain ⟨entry', -, hip⟩ := mem_writtenIps.mp hip
  rcases fst_ipQuestions hip with ⟨hset, tag, htag⟩ | hcidr
  · rcases fst_domainQuestions hsite with ⟨-, tag', htag'⟩ | hfield
    · rw [htag] at htag'
      have hlist := congrArg String.toList htag'
      simp at hlist
    · rw [hset] at hfield
      exact absurd hfield (by decide)
  · rcases fst_domainQuestions hsite with ⟨hset, -⟩ | hfield
    · rw [hset] at hcidr
      exact absurd hcidr (by decide)
    · rw [hcidr] at hfield
      exact absurd hfield (by decide)

/-- Sites and addresses that are left match only what either field wrote, exactly if the other field
    is not there, something is left and no pattern is empty. -/
theorem destinations_iff (device : Device) (r : SingBoxRule) :
    ((r.domains ≠ [] → destinations (device.expand r) ≠ [] ∧
        destinations (device.expand r) ⊆ writtenDomains r) ∧
      (r.ip ≠ [] → destinations (device.expand r) ≠ [] ∧
        destinations (device.expand r) ⊆ writtenIps device r)) ↔
      (r.domains = [] ∨ r.ip = []) ∧
      (r.domains ≠ [] → (∃ entry ∈ r.domains, domainQuestions entry ≠ [] ∧ ¬ AddressAsSite entry) ∧
        ∀ entry ∈ r.domains, ¬ EmptyPattern entry) ∧ (r.ip ≠ [] → writtenIps device r ≠ []) := by
  have hleft : ∀ q, q ∈ destinations (device.expand r) ↔
      (∃ entry ∈ r.domains, q ∈ siteAsked entry) ∨ q ∈ writtenIps device r := by
    intro q
    rw [mem_destinations, mem_writtenIps]
    simp only [Device.expand_fields, addressAsked_eq]
  have hplain : ∀ entry, ¬ EmptyPattern entry → ∀ q, q ∈ siteAsked entry ↔
      q ∈ domainQuestions entry ∧ ¬ AddressAsSite entry := by
    intro entry hentry q
    by_cases hscheme : schemeOf (trim entry) ∈ siteSchemes
    · rw [siteAsked_scheme hscheme hentry]
      exact (and_iff_left fun h => h.1 hscheme).symm
    · rw [siteAsked_bare hscheme]
      cases haddress : isCidrOrIp (trim entry) <;> simp [AddressAsSite, hscheme, haddress]
  by_cases hdomains : r.domains = []
  · -- addresses only: what is left is what was written
    have hsame : ∀ q, q ∈ destinations (device.expand r) ↔ q ∈ writtenIps device r := by
      intro q
      rw [hleft, hdomains]
      simp
    simp only [hdomains, ne_eq, not_true_eq_false, false_imp_iff, true_and, true_or]
    refine imp_congr_right fun _ => ⟨fun h hnil => ?_, fun h => ⟨fun hnil => ?_, ?_⟩⟩
    · exact h.1 (List.eq_nil_iff_forall_not_mem.mpr fun q hq => by
        rw [hsame, hnil] at hq
        cases hq)
    · exact h (List.eq_nil_iff_forall_not_mem.mpr fun q hq => by
        rw [← hsame, hnil] at hq
        cases hq)
    · exact fun q hq => (hsame q).mp hq
  by_cases hip : r.ip = []
  · -- sites only
    have hsame : ∀ q, q ∈ destinations (device.expand r) ↔
        ∃ entry ∈ r.domains, q ∈ siteAsked entry := by
      intro q
      rw [hleft, writtenIps, hip]
      simp
    simp only [hdomains, hip, ne_eq, not_true_eq_false, not_false_eq_true, false_imp_iff,
      true_imp_iff,
      and_true, true_and, or_true]
    constructor
    · rintro ⟨hne, hsub⟩
      have hempty : ∀ entry ∈ r.domains, ¬ EmptyPattern entry := by
        intro entry hentry hempty
        obtain ⟨field, hfield, hasked⟩ := siteAsked_empty hempty
        have hmem := hsub ((hsame (field, "")).mpr ⟨entry, hentry, by simp [hasked]⟩)
        obtain ⟨other, -, hother⟩ := mem_flatMap.mp hmem
        exact not_mem_domainQuestions hfield hother
      refine ⟨?_, hempty⟩
      obtain ⟨q, hq⟩ := List.exists_mem_of_ne_nil _ hne
      obtain ⟨entry, hentry, hq⟩ := (hsame q).mp hq
      rw [hplain entry (hempty entry hentry)] at hq
      exact ⟨entry, hentry, List.ne_nil_of_mem hq.1, hq.2⟩
    · rintro ⟨⟨entry, hentry, hne, haddress⟩, hempty⟩
      obtain ⟨q, hq⟩ := List.exists_mem_of_ne_nil _ hne
      refine ⟨List.ne_nil_of_mem ((hsame q).mpr ⟨entry, hentry, ?_⟩), fun q hq => ?_⟩
      · exact (hplain entry (hempty entry hentry) q).mpr ⟨hq, haddress⟩
      · obtain ⟨entry, hentry, hq⟩ := (hsame q).mp hq
        exact mem_flatMap.mpr ⟨entry, hentry, ((hplain entry (hempty entry hentry) q).mp hq).1⟩
  · -- both: what is left would have to be about sites and about addresses
    refine iff_of_false (fun h => ?_) fun h => h.1.elim hdomains hip
    obtain ⟨hne, hsites⟩ := h.1 hdomains
    obtain ⟨q, hq⟩ := List.exists_mem_of_ne_nil _ hne
    exact destinations_apart (hsites hq) ((h.2 hip).2 hq)

section Subsumed

variable (device : Device) (matchAppsByProcess : Bool) (directTag : String) (r : SingBoxRule)

/-- What was written in a destination field, against all destinations that are left. -/
theorem destination_subsumed_iff {d : List Question} (hd : ∀ q ∈ d, q.1 ∈
      ["rule_set", "domain_suffix", "domain", "domain_keyword", "domain_regex", "ip_cidr",
        "ip_is_private"]) :
    (∃ c ∈ clauses (manualRule matchAppsByProcess directTag r), c ⊆ d) ↔
      destinations r ≠ [] ∧ destinations r ⊆ d :=
  manual_subsumed_iff (by decide) (questionsIn_destination _ _) hd

theorem domains_subsumed_iff :
    (∃ c ∈ clauses (manualRule matchAppsByProcess directTag (device.expand r)),
      c ⊆ writtenDomains r) ↔ destinations (device.expand r) ≠ [] ∧
        destinations (device.expand r) ⊆ writtenDomains r := by
  refine destination_subsumed_iff _ _ _ fun q hq => ?_
  obtain ⟨entry, -, hq⟩ := mem_flatMap.mp hq
  rcases fst_domainQuestions hq with ⟨hset, -⟩ | hfield
  · simp [hset]
  · exact List.mem_cons_of_mem _ (List.mem_append_left ["ip_cidr", "ip_is_private"] hfield)

theorem ips_subsumed_iff :
    (∃ c ∈ clauses (manualRule matchAppsByProcess directTag (device.expand r)),
      c ⊆ writtenIps device r) ↔ destinations (device.expand r) ≠ [] ∧
        destinations (device.expand r) ⊆ writtenIps device r := by
  refine destination_subsumed_iff _ _ _ fun q hq => ?_
  obtain ⟨entry, -, hq⟩ := mem_writtenIps.mp hq
  rcases fst_ipQuestions hq with ⟨hset, -⟩ | hfield
  · simp [hset]
  · simp [hfield]

/-- A field of which exactly the questions are emitted that were written. -/
theorem same_subsumed_iff {group : List String} (hgroup : group ∈ groups) {d asked : List Question}
    (hasked : questionsIn group (manualMatchers r matchAppsByProcess) = asked)
    (hsame : ∀ q, q ∈ asked ↔ q ∈ d) :
    (∃ c ∈ clauses (manualRule matchAppsByProcess directTag r), c ⊆ d) ↔ d ≠ [] := by
  rw [manual_subsumed_iff hgroup hasked fun q hq =>
    fst_mem_of_mem_questionsIn (hasked ▸ (hsame q).mpr hq)]
  constructor
  · rintro ⟨hne, -⟩
    obtain ⟨q, hq⟩ := List.exists_mem_of_ne_nil _ hne
    exact List.ne_nil_of_mem ((hsame q).mp hq)
  · intro hne
    obtain ⟨q, hq⟩ := List.exists_mem_of_ne_nil _ hne
    exact ⟨List.ne_nil_of_mem ((hsame q).mpr hq), fun q hq => (hsame q).mp hq⟩

theorem source_subsumed_iff : (∃ c ∈ clauses (manualRule matchAppsByProcess directTag r),
      c ⊆ r.source.flatMap sourceQuestions) ↔ r.source.flatMap sourceQuestions ≠ [] := by
  refine same_subsumed_iff _ _ _ (by decide) (questionsIn_source _ _) fun q => ?_
  simp only [mem_map, mem_collect, mem_flatMap, ← sourceAsked_eq, sourceAsked, parseIp,
    List.mem_filterMap, Option.mem_toList]
  grind

theorem packages_subsumed_iff :
    (∃ c ∈ clauses (manualRule matchAppsByProcess directTag (device.expand r)),
      c ⊆ (writtenPackages device r).map (appField matchAppsByProcess, ·)) ↔
      writtenPackages device r ≠ [] := by
  have happ : [appField matchAppsByProcess] ∈ groups := by cases matchAppsByProcess <;> decide
  have hsame : writtenPackages device r = r.packageNames ++ device.matched r := by
    rw [writtenPackages, Device.matched]
    congr 2
    funext package
    rw [List.any_filterMap]
    refine congrArg (r.packageRegex.any ·) (funext fun pattern => ?_)
    cases device.regex pattern <;> rfl
  rw [same_subsumed_iff _ _ _ happ (questionsIn_app _ _) fun q => ?_, ne_eq, List.map_eq_nil_iff]
  simp only [mem_map, hsame, device.mem_packageNames_expand]

/-- A field that is one text. -/
theorem text_subsumed {name : String} {value : String} (hgroup : [name] ∈ groups)
    (hasked : questionsIn [name] (manualMatchers r matchAppsByProcess) = [(name, value)]) :
    ∃ c ∈ clauses (manualRule matchAppsByProcess directTag r), c ⊆ [value].map (name, ·) :=
  manual_subsumed_self hgroup hasked (List.cons_ne_nil _ _)

/-- What was written is implied by what is emitted exactly if the rule is faithful. -/
theorem written_subsumed_iff : (∀ d ∈ written device matchAppsByProcess r,
      ∃ c ∈ clauses (manualRule matchAppsByProcess directTag (device.expand r)), c ⊆ d) ↔
      Faithful device r := by
  have hsource := source_subsumed_iff matchAppsByProcess directTag (device.expand r)
  have hport := same_subsumed_iff _ directTag _ (by decide)
    (questionsIn_port (device.expand r) matchAppsByProcess) fun q => mem_emittedPorts
  have hsourcePort := same_subsumed_iff _ directTag _ (by decide)
    (questionsIn_sourcePort (device.expand r) matchAppsByProcess) fun q => mem_emittedPorts
  obtain ⟨hnetwork, hclash, hexpensive⟩ := questionsIn_text (device.expand r) matchAppsByProcess
  obtain ⟨htypes, hprotocols, hclients⟩ := questionsIn_list (device.expand r) matchAppsByProcess
  simp only [Device.expand_fields]
    at hsource hport hsourcePort hnetwork hclash hexpensive htypes hprotocols hclients
  simp only [written, List.forall_mem_append, forall_mem_clauseIf, Bool.or_eq_true, notEmpty_iff,
    domains_subsumed_iff, ips_subsumed_iff, hsource, hport, hsourcePort, packages_subsumed_iff]
  rw [destinations_iff]
  constructor
  · rintro ⟨⟨⟨⟨⟨⟨⟨⟨⟨⟨⟨h0, h1, h2⟩, h3⟩, h4⟩, h5⟩, -⟩, -⟩, -⟩, -⟩, -⟩, -⟩, h6⟩
    exact ⟨h0, h1, h2, h3, h4, h5, h6⟩
  · rintro ⟨h0, h1, h2, h3, h4, h5, h6⟩
    refine ⟨⟨⟨⟨⟨⟨⟨⟨⟨⟨⟨h0, h1, h2⟩, h3⟩, h4⟩, h5⟩, ?_⟩, ?_⟩, ?_⟩, ?_⟩, ?_⟩, ?_⟩, h6⟩
    · exact fun h => text_subsumed _ _ _ (by decide) (by rw [hnetwork, if_pos h])
    · exact fun h => manual_subsumed_self (by decide) htypes h
    · exact fun h => manual_subsumed_self (by decide) hprotocols h
    · exact fun h => manual_subsumed_self (by decide) hclients h
    · exact fun h => text_subsumed _ _ _ (by decide) (by rw [hexpensive, if_pos h])
    · exact fun h => text_subsumed _ _ _ (by decide) (by rw [hclash, if_pos h])

/-- A faithful rule with a matcher asks something. -/
theorem Faithful.asks {device : Device} {r : SingBoxRule} (h : Faithful device r)
    (hmatcher : (device.expand r).hasMatcher = true) :
    clauses (manualRule matchAppsByProcess directTag (device.expand r)) ≠ [] := by
  -- some field is populated, so there is a clause that was written, and one of the rule's is in it
  have hwritten : written device matchAppsByProcess r ≠ [] := by
    intro hnil
    simp only [written, List.append_eq_nil_iff, clauseIf, ite_eq_right_iff, reduceCtorEq, imp_false,
      Bool.not_eq_true, Bool.not_eq_false', List.isEmpty_iff, Bool.or_eq_false_iff] at hnil
    obtain ⟨⟨⟨⟨⟨⟨⟨⟨⟨⟨⟨h1, h2⟩, h3⟩, h4⟩, h5⟩, h6⟩, h7⟩, h8⟩, h9⟩, h10⟩, h11⟩, h12, h13⟩ := hnil
    have hip : Asn.expand device.cidrsByAsn r.ip = [] := by
      rw [h2]
      rfl
    have hpackages : (device.expand r).packageNames = [] := by
      rw [Device.expand, Device.expandPackages, if_pos (.inl h13)]
      exact h12
    simp [SingBoxRule.hasMatcher, h1, hip, h3, h4, h5, h6, h7, h8, h9, h10, h11, hpackages,
      h13] at hmatcher
  obtain ⟨d, hd⟩ := List.exists_mem_of_ne_nil _ hwritten
  obtain ⟨c, hc, -⟩ := (written_subsumed_iff device matchAppsByProcess directTag r).mpr h d hd
  exact List.ne_nil_of_mem hc

theorem narrow_iff {device : Device} {r : SingBoxRule}
    (hmatcher : (device.expand r).hasMatcher = true) :
    Narrow device matchAppsByProcess r (manualRule matchAppsByProcess directTag (device.expand r)) ↔
      Faithful device r := by
  rw [← written_subsumed_iff device matchAppsByProcess directTag r]
  constructor
  · exact fun h => entails_iff.mp h.sound
  · intro h
    have hfaithful := (written_subsumed_iff device matchAppsByProcess directTag r).mp h
    exact ⟨hfaithful.asks matchAppsByProcess directTag hmatcher, entails_iff.mpr h⟩

end Subsumed

/-- The rules for which an object is emitted. -/
def emitted (device : Device) (rules : List SingBoxRule) : List SingBoxRule :=
  rules.filter fun r => (device.expand r).enabled && (device.expand r).hasMatcher

theorem manualRules_expanded (device : Device) (rules : List SingBoxRule)
    (matchAppsByProcess : Bool)
    (directTag : String) :
    manualRules (device.expandPackageRegex (device.expandAsn rules)) matchAppsByProcess directTag =
      (emitted device rules).map fun r =>
        manualRule matchAppsByProcess directTag (device.expand r) := by
  rw [device.expand_list, manualRules, List.filter_map, map_map]
  rfl

/-- NO EMITTED RULE MATCHES MORE THAN WAS WRITTEN exactly if every rule for which one is emitted is
    faithful. -/
theorem manual_narrow_iff (device : Device) (rules : List SingBoxRule) (matchAppsByProcess : Bool)
    (directTag : String) : List.Forall₂ (Narrow device matchAppsByProcess) (emitted device rules)
      (manualRules (device.expandPackageRegex (device.expandAsn rules)) matchAppsByProcess
        directTag) ↔
      ∀ r ∈ emitted device rules, Faithful device r := by
  rw [manualRules_expanded, List.forall₂_map_right_iff, List.forall₂_same]
  refine forall₂_congr fun r hr => narrow_iff _ _ ?_
  have hkept := (List.mem_filter.mp hr).2
  rw [Bool.and_eq_true] at hkept
  exact hkept.2

/-- A device with one browser, no ASN table, and patterns that are searched for as plain texts. -/
def plainDevice : Device where
  cidrsByAsn _ := none
  installedPackages := ["org.mozilla.firefox"]
  regex pattern := some fun package => contains package pattern

/-- A rule for a package that is not installed becomes a rule for every connection, a rule with a
    domain and a range matches where only the domain fits, and an empty keyword is emitted. -/
theorem unmatched_pattern_matches_all :
    manualRules (plainDevice.expandPackageRegex (plainDevice.expandAsn
      [{ packageRegex := ["com.bank"], outbound := "direct" },
        { domains := ["full:a.example"], ip := ["10.0.0.0/8"], outbound := "direct" },
        { domains := ["keyword:"], outbound := "direct" }]))
        false "direct" =
      [[("outbound", .str "direct")],
        [("domain", .strs ["a.example"]), ("ip_cidr", .strs ["10.0.0.0/8"]),
        ("outbound", .str "direct")],
        [("domain_keyword", .strs [""]), ("outbound", .str "direct")]] ∧
    clauses [("outbound", .str "direct")] = [] ∧
    Matches (· = ("domain", "a.example")) [("domain", .strs ["a.example"]),
      ("ip_cidr", .strs ["10.0.0.0/8"]), ("outbound", .str "direct")] ∧
    ¬ Sat (· = ("domain", "a.example")) (written plainDevice false
      { domains := ["full:a.example"], ip := ["10.0.0.0/8"], outbound := "direct" }) ∧
    Matches (· = ("domain_keyword", "")) [("domain_keyword", .strs [""]),
      ("outbound", .str "direct")] ∧
    ¬ Sat (· = ("domain_keyword", "")) (written plainDevice false
      { domains := ["keyword:"], outbound := "direct" }) := by
  decide

end OlcVpn.SingBoxRouting
