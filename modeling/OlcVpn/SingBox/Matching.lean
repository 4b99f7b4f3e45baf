/-
  WHICH CONNECTIONS A SING-BOX RULE MATCHES.

  The fields of a rule fall into GROUPS.  The core takes the fields of one group as alternatives,
  values and all, and asks for one of them in every group that has any: a connection must fit the
  destination, AND the port, AND the source, and so on.  The destination group holds domain names,
  address ranges and downloaded sets together, so that a rule with a name and a range matches where
  EITHER fits.  A group without values asks for nothing.

  A connection appears only through the QUESTIONS a rule can ask about it: a field and a value.
-/
import OlcVpn.Lib.Clauses
import OlcVpn.SingBox.Routing

namespace OlcVpn.SingBox

open Kotlin Lib List
open Lib.Clauses (Sat Holds)

/-! ## Questions -/

/-- A field of a rule and one of its values. -/
abbrev Question := String × String

/-- The values of a field, which may be one or a list. -/
def valuesOf : Json → List String
  | .literal _ content => [content]
  | .array items => items.filterMap fun item => match item with
      | .literal _ content => some content
      | _ => none
  | _ => []

/-- The fields that are alternatives of one another. -/
def groups : List (List String) :=
  [["rule_set", "domain_suffix", "domain", "domain_keyword", "domain_regex", "ip_cidr",
    "ip_is_private"],
    ["source_ip_cidr", "source_geoip"], ["port", "port_range"],
    ["source_port", "source_port_range"],
    ["network"], ["network_type"], ["protocol"], ["client"], ["network_is_expensive"],
    ["clash_mode"],
    ["package_name"], ["process_name"], ["ip_version"]]

variable (group : List String)

/-- What a rule asks in one group. -/
def questionsIn (rule : JsonObject) : List Question :=
  rule.flatMap fun field => if field.1 ∈ group then (valuesOf field.2).map (field.1, ·) else []

def clauses (rule : JsonObject) : List (List Question) :=
  (groups.map (questionsIn · rule)).filter (· ≠ [])

/-- The rule matches a connection of which these things are true. -/
def Matches (connection : Question → Prop) (rule : JsonObject) : Prop :=
  Sat connection (clauses rule)

instance (connection : Question → Prop) [DecidablePred connection] (rule : JsonObject) :
    Decidable (Matches connection rule) :=
  inferInstanceAs (Decidable (Sat connection (clauses rule)))

/-! ## What a rule implies -/

/-- A field belongs to one group. -/
theorem groups_disjoint : ∀ g ∈ groups, ∀ g' ∈ groups, ∀ name ∈ g, name ∈ g' → g = g' := by decide

theorem fst_mem_of_mem_questionsIn {group : List String} {rule : JsonObject} {q : Question}
    (h : q ∈ questionsIn group rule) : q.1 ∈ group := by
  obtain ⟨field, -, hq⟩ := mem_flatMap.mp h
  split_ifs at hq with hfield
  · obtain ⟨value, -, rfl⟩ := mem_map.mp hq
    exact hfield
  · cases hq

/-- A clause about one group. -/
theorem subsumed_iff {rule : JsonObject} {group : List String} (hgroup : group ∈ groups)
    {d : List Question} (hd : ∀ q ∈ d, q.1 ∈ group) :
    (∃ c ∈ clauses rule, c ⊆ d) ↔ questionsIn group rule ≠ [] ∧ questionsIn group rule ⊆ d := by
  constructor
  · rintro ⟨c, hc, hsub⟩
    obtain ⟨hc, hne⟩ := mem_filter.mp hc
    obtain ⟨g, hg, rfl⟩ := mem_map.mp hc
    have hne : questionsIn g rule ≠ [] := by simpa using hne
    -- what the rule asks there belongs to both groups, so they are one
    obtain ⟨q, hq⟩ := exists_mem_of_ne_nil _ hne
    obtain rfl :=
      groups_disjoint g hg group hgroup q.1 (fst_mem_of_mem_questionsIn hq) (hd q (hsub hq))
    exact ⟨hne, hsub⟩
  · rintro ⟨hne, hsub⟩
    exact ⟨_, mem_filter.mpr ⟨mem_map_of_mem hgroup, by simpa using hne⟩, hsub⟩

/-! ## Reading the generator's fields -/

/-- What a rule asks is what its parts ask. -/
@[simp] theorem questionsIn_append (a b : JsonObject) :
    questionsIn group (a ++ b) = questionsIn group a ++ questionsIn group b := flatMap_append

@[simp] theorem questionsIn_fieldIf (c : Bool) (name : String) (value : Json) :
    questionsIn group (fieldIf c name value) =
      if name ∈ group ∧ c = true then (valuesOf value).map (name, ·) else [] := by
  cases c with
  | false | true => simp [fieldIf, questionsIn]

theorem valuesOf_strs (values : List String) : valuesOf (.strs values) = values := by
  rw [Json.strs, valuesOf, filterMap_map]
  exact filterMap_some

theorem valuesOf_nums (values : List Int) :
    valuesOf (.array (values.map .num)) = values.map toString := by
  rw [valuesOf, filterMap_map]
  exact congrFun filterMap_eq_map values

@[simp] theorem questionsIn_textsField (name : String) (values : List String) :
    questionsIn group (SingBoxRouting.textsField name values) =
      if name ∈ group then values.map (name, ·) else [] := by
  rw [SingBoxRouting.textsField, questionsIn_fieldIf, valuesOf_strs]
  by_cases hname : name ∈ group
  · cases values <;> simp [hname]
  · simp [hname]

@[simp] theorem questionsIn_numsField (name : String) (values : List Int) :
    questionsIn group (SingBoxRouting.numsField name values) =
      if name ∈ group then values.map fun n => (name, toString n) else [] := by
  rw [SingBoxRouting.numsField, questionsIn_fieldIf, valuesOf_nums, map_map]
  by_cases hname : name ∈ group
  · cases values <;> simp [hname]
  · simp [hname]

end OlcVpn.SingBox

namespace OlcVpn.SingBoxRouting

open SingBox (Question)

/-- What the parts of a parsed entry ask of a connection. -/
def Selectors.questions (s : Selectors) : List Question :=
  s.geositeTags.map (fun tag => ("rule_set", "geosite-" ++ tag)) ++
  s.geoipTags.map (fun tag => ("rule_set", "geoip-" ++ tag)) ++
  s.domainSuffix.map ("domain_suffix", ·) ++ s.domainExact.map ("domain", ·) ++
  s.domainKeyword.map ("domain_keyword", ·) ++ s.domainRegex.map ("domain_regex", ·) ++
  s.ipCidr.map ("ip_cidr", ·)

end OlcVpn.SingBoxRouting
