/-
  DO THE ENTRIES OF `dns.hosts` THAT ARE LIFTED INTO ROUTING route as before?

  A panel steers a site by giving it a synthetic address in `hosts` and a rule on that address.
  `liftHostsIntoRouting` turns such an entry into a rule on the NAME right before the rule on the
  address, and drops the entry, so that afterwards the name resolves to its real address.

  A rule is looked at in more detail than elsewhere: the list of names, the list of address ranges,
  and all else as one opaque condition.  A rule without any condition is one the core refuses; it
  matches nothing here.

  THE SPECIFICATION compares the outbound chosen for a name that exactly one entry covers: before
  with the address of that entry, afterwards with any real address if the entry was removed.

  Under IPIfNonMatch the lifted rule competes in the FIRST pass, where the rule on the address did
  not: it wins over every later rule on names, and over every earlier rule that looks at the
  address. Under IPOnDemand an earlier rule that looks at the address now sees another one.
  `lift_keeps_verdict_iff` says exactly when that makes a difference; an entry that is not lifted is
  never affected.
-/
import OlcVpn.Lib.FirstMatch
import OlcVpn.Xray.RawRouting

namespace OlcVpn.Xray

open Kotlin Generate Lib List
open JsonObject (without)
open Option (bind_eq_some_iff getD_some bind_some none_or some_or some isNone_some map_or)

/-! ## Rules on names and addresses -/

/-- How the core reads a selector of names and a range of addresses.  A dotted range holds the
    addresses the client thinks it holds. -/
structure Matching where
  site : String → String → Bool
  inRange : String → String → Bool
  inRange_of_ipv4 : ∀ {range address}, ipv4InCidr address (some range) = true →
    inRange range address = true

/-- What the rules are asked about, apart from the address: the name, and every other condition. -/
structure HostConn where
  domain : String
  other : JsonObject → Bool
  other_nil : other [] = true

variable (rule : JsonObject)

/-- The names of a rule, under either of the two field names the core knows. -/
def siteList : List String :=
  match rule.lookup "domains" with
  | none | some .null => tagsAt rule "domain"
  | some names => stringList names

/-- The address ranges of a rule. -/
def ipList : List String :=
  match rule.lookup "ip" with
  | some (.array items) => items.filterMap primitiveText
  | some (.literal true text) => splitWhere (· = ',') text
  | _ => []

def otherConditions : JsonObject :=
  without rule
    ["type", "ruleTag", "outboundTag", "balancerTag", "domain", "domains", "ip"]

/-- The outbound or balancer a rule chooses. -/
def chosen : Option String × Option String :=
  (targetTag rule "outboundTag", targetTag rule "balancerTag")

section Verdict

variable (M : Matching) (conn : HostConn)

/-- A rule matches; a rule on addresses does not while no address is known. -/
def applies (address : Option String) (rule : JsonObject) : Bool :=
  (!(siteList rule).isEmpty || !(ipList rule).isEmpty || !(otherConditions rule).isEmpty) &&
    ((siteList rule).isEmpty || (siteList rule).any fun e => M.site e conn.domain) &&
    ((ipList rule).isEmpty || address.any fun a => (ipList rule).any fun range =>
      M.inRange range a) &&
    conn.other (otherConditions rule)

inductive Strategy where
  | ifNonMatch | onDemand
  deriving DecidableEq, Repr

variable (strategy : Strategy)

/-- The outbound chosen; `none` is the default. -/
def verdict (rules : List JsonObject) (address : String) :
    Option (Option String × Option String) :=
  match strategy with
  | .onDemand => (rules.find? (applies M conn (some address))).map chosen
  | .ifNonMatch =>
    ((rules.find? (applies M conn none)).or
      (rules.find? (applies M conn (some address)))).map chosen

/-- `hosts` reads a key as routing reads the selector it is lifted to. -/
def covers (entry : String × Json) : Bool := M.site (hostSelector entry.1) conn.domain

/-! ## The specification -/

variable (routing : Option JsonObject)

/-- The rules of a routing section that may be missing. -/
def rulesOf : List JsonObject := objectsOf (routing.getD []) "rules"

/-- The address a name has afterwards: its real one if the entry is gone. -/
def addressAfter (dns : Option JsonObject) (key hostsAddress realAddress : String) : String :=
  if (((dns.bind (objectAt · "hosts")).getD []).lookup key).isSome then hostsAddress
    else realAddress

/-! ## The condition -/

/-- What an entry that is lifted to the rule `at` has to meet, with the rules before and after it.
    -/
def LiftSafeAt (before after : List JsonObject) (rule : JsonObject)
    (hostsAddress realAddress : String) : Prop :=
  match strategy with
  | .onDemand =>
    -- the rules before it decide alike for both addresses
    firstMatch (applies M conn (some hostsAddress)) chosen (chosen rule) before =
      firstMatch (applies M conn (some realAddress)) chosen (chosen rule) before
  | .ifNonMatch =>
    -- a rule before it decides by the name alone, or the one that decided before chose the same
    (before.find? (applies M conn none)).isSome = true ∨
      match after.find? (applies M conn none) with
      | some later => chosen later = chosen rule
      | none => firstMatch (applies M conn (some hostsAddress)) chosen (chosen rule) before =
          chosen rule

/-- The elements of a rule list, with what is no object as `none`. -/
def ruleItems : List (Option JsonObject) :=
  ((routing.bind (arrayAt · "rules")).getD []).map jsonObjectOrNull

def LiftSafe (entry : String × Json)
    (hostsAddress realAddress : String) : Prop :=
  ∀ i ∈ liftedTo (ruleItems routing) entry, ∀ rule, (ruleItems routing)[i]? = some (some rule) →
    LiftSafeAt M conn strategy (((ruleItems routing).take i).filterMap id)
      (((ruleItems routing).drop (i + 1)).filterMap id) rule hostsAddress realAddress

end Verdict

/-! ## Walking the rewritten list -/

section Walk

variable {M : Matching} {conn : HostConn}

/-- The rule an entry is lifted to. -/
theorem liftedTo_spec {items : List (Option JsonObject)} {entry : String × Json} {i : Nat}
    (h : liftedTo items entry = some i) :
    ∃ address rule, hostAddress entry.2 = some address ∧ items[i]? = some (some rule) ∧
      plainIpRule address rule = true := by
  obtain ⟨address, haddress, hrule⟩ := bind_eq_some_iff.mp h
  obtain ⟨hlt, hi, -⟩ := findIdx?_eq_some_iff_getElem.mp hrule
  cases hitem : items.get ⟨i, hlt⟩ with
  | none =>
    rw [get_eq_getElem] at hitem
    rw [hitem] at hi
    cases hi
  | some rule =>
    rw [get_eq_getElem] at hitem
    rw [hitem] at hi
    exact ⟨address, rule, haddress, by rw [getElem?_eq_getElem hlt, hitem], hi⟩

/-- A rule on addresses alone matches the addresses it holds, and nothing while none is known. -/
theorem applies_plainIpRule {address : String} {rule : JsonObject}
    (h : plainIpRule address rule = true) :
    applies M conn (some address) rule = true ∧ applies M conn none rule = false := by
  simp only [plainIpRule, Bool.and_eq_true] at h
  obtain ⟨⟨-, hfields⟩, hany⟩ := h
  have hallowed : ∀ field ∈ rule, field.1 ∈ ["type", "ip", "outboundTag", "ruleTag"] := by
    intro field hfield
    have hf := all_eq_true.mp hfields field hfield
    simpa using hf
  have hnone : ∀ name, name ∉ ["type", "ip", "outboundTag", "ruleTag"] →
      rule.lookup name = none := by
    intro name hname
    refine lookup_eq_none_iff.mpr fun field hfield => bne_iff_ne.mpr ?_
    rintro rfl
    exact hname (hallowed field hfield)
  have hsites : siteList rule = [] := by
    rw [siteList, hnone "domains" (by decide)]
    simp only [tagsAt, hnone "domain" (by decide)]
    rfl
  have hother : otherConditions rule = [] := by
    unfold otherConditions without
    rw [filter_eq_nil_iff]
    intro field hfield
    have hsub : ["type", "ip", "outboundTag", "ruleTag"] ⊆
        ["type", "ruleTag", "outboundTag", "balancerTag", "domain", "domains", "ip"] := by decide
    have hin := contains_iff_mem.mpr (hsub (hallowed field hfield))
    rw [hin]
    decide
  -- the range that holds the address is one of the rule's
  have hrange : ∃ range ∈ ipList rule, M.inRange range address = true := by
    obtain ⟨cidr, hcidr, hin⟩ := any_eq_true.mp hany
    cases hip : arrayAt rule "ip" with
    | none => simp [hip] at hcidr
    | some items =>
      rw [hip, getD_some] at hcidr
      rw [arrayAt, bind_eq_some_iff] at hip
      obtain ⟨value, hlookup, hvalue⟩ := hip
      cases value with
      | array items' =>
        obtain rfl : items' = items := by simpa using hvalue
        cases htext : primitiveText cidr with
        | none => simp [htext, ipv4InCidr] at hin
        | some range =>
          rw [htext] at hin
          refine ⟨range, ?_, M.inRange_of_ipv4 hin⟩
          rw [ipList, hlookup]
          exact mem_filterMap.mpr ⟨cidr, hcidr, htext⟩
      | null | literal | object => simp at hvalue
  have hips : (ipList rule).isEmpty = false := by
    obtain ⟨range, hmem, -⟩ := hrange
    simpa using ne_nil_of_mem hmem
  have hany' : ((ipList rule).any fun range => M.inRange range address) = true := by
    obtain ⟨range, hmem, hin⟩ := hrange
    exact any_eq_true.mpr ⟨range, hmem, hin⟩
  constructor
  · simp [applies, hsites, hips, hother, hany', conn.other_nil]
  · simp [applies, hips]

/-- A lifted rule asks for the name only. -/
theorem applies_lifted {selectors : List String} (hne : selectors ≠ []) (target : Json)
    (address : Option String) : applies M conn address
        [("type", .str "field"), ("domain", .strs selectors), ("outboundTag", target)] =
      selectors.any fun e => M.site e conn.domain := by
  generalize hrule : [("type", .str "field"), ("domain", .strs selectors),
    ("outboundTag", target)] = rule
  have hsites : siteList rule = selectors := by
    simp [← hrule, siteList, tagsAt, stringList, Json.strs, Json.str, filterMap_map,
      Function.comp_def]
  have hips : ipList rule = [] := by simp [← hrule, ipList]
  have hother : otherConditions rule = [] := by simp [← hrule, otherConditions, without]
  have hempty : selectors.isEmpty = false := by simpa using hne
  simp [applies, hsites, hips, hother, hempty, conn.other_nil]

section Lifted

variable {items : List (Option JsonObject)} {hosts : JsonObject} {entry : String × Json}
  {i : Nat} {rule : JsonObject}

/-- The list around a rule. -/
theorem items_eq (hrule : items[i]? = some (some rule)) :
    items = items.take i ++ (some rule :: items.drop (i + 1)) := by
  obtain ⟨hlt, hget⟩ := List.getElem?_eq_some_iff.mp hrule
  rw [← hget, List.getElem_cons_drop, List.take_append_drop]

/-- The same for the rules: the ones before the one at `i`, it, and the rest. -/
theorem items_split (hrule : items[i]? = some (some rule)) : items.filterMap id =
      (items.take i).filterMap id ++ rule :: (items.drop (i + 1)).filterMap id := by
  conv_lhs => rw [items_eq hrule, filterMap_append]
  rfl

-- one entry covers the name
variable (hone : hosts.filter (covers M conn) = [entry])

include hone

theorem covers_iff (e : String × Json) : e ∈ hosts ∧ covers M conn e = true ↔ e = entry := by
  rw [← mem_filter, hone, mem_singleton]

/-- The name is among the selectors of one position only. -/
theorem selectors_cover (i : Nat) :
    ((liftedSelectors items hosts i).any fun e => M.site e conn.domain) =
      decide (liftedTo items entry = some i) := by
  rw [Bool.eq_iff_iff, decide_eq_true_iff, liftedSelectors, any_map, any_filter, any_eq_true]
  constructor
  · rintro ⟨e, he, htest⟩
    simp only [Bool.and_eq_true, decide_eq_true_eq, Function.comp_apply] at htest
    obtain rfl := (covers_iff hone e).mp ⟨he, htest.2⟩
    exact htest.1
  · intro hi
    obtain ⟨hmem, hcover⟩ := (covers_iff hone entry).mpr rfl
    refine ⟨entry, hmem, ?_⟩
    simp only [Bool.and_eq_true, decide_eq_true_eq, Function.comp_apply]
    exact ⟨hi, hcover⟩

/-- A lifted rule for other names matches nothing. -/
theorem find?_liftedRule_ne (hi : liftedTo items entry ≠ some i) (item : Option JsonObject)
    (address : Option String) : (liftedRule items hosts i item).find? (applies M conn address) =
      none := by
  have hcover : ((liftedSelectors items hosts i).any fun e => M.site e conn.domain) = false := by
    rw [selectors_cover hone, decide_eq_false hi]
  unfold liftedRule
  split
  · rename_i s rest target hselectors _
    rw [hselectors] at hcover
    rw [find?_singleton, applies_lifted (by simp), hcover]
    rfl
  · rfl

/-- A stretch of the list that the entry is not lifted to decides as before. -/
theorem find?_stretch (address : Option String) (stretch : List (Option JsonObject)) (k : Nat)
    (hk : ∀ j, j < stretch.length → liftedTo items entry ≠ some (j + k)) :
      ((stretch.mapIdx fun j item =>
        liftedRule items hosts (j + k) item ++ [item.getD []]).flatten).find?
          (applies M conn address) =
      (stretch.filterMap id).find? (applies M conn address) := by
  induction stretch generalizing k with
  | nil => rfl
  | cons item stretch ih =>
    have hhead : liftedTo items entry ≠ some (0 + k) := hk 0 (by simp)
    have hrest := ih (k + 1) fun j hj => by
      have h := hk (j + 1) (by simpa using hj)
      rwa [Nat.add_right_comm, Nat.add_assoc] at h
    have hshift : (stretch.mapIdx fun j item =>
        liftedRule items hosts (j + 1 + k) item ++ [item.getD []]) =
        stretch.mapIdx fun j item => liftedRule items hosts (j + (k + 1)) item ++
          [item.getD []] := by
      congr 1
      funext j item
      rw [Nat.add_assoc, Nat.add_comm 1 k]
    rw [mapIdx_cons, flatten_cons, find?_append, find?_append,
      find?_liftedRule_ne hone hhead, none_or, hshift, hrest]
    cases item with
    | none =>
      rw [filterMap_cons_none rfl]
      rfl
    | some rule =>
      have hcons : (some rule :: stretch).filterMap id = rule :: stretch.filterMap id := rfl
      rw [hcons, getD_some, find?_cons, find?_cons]
      cases applies M conn address rule <;> rfl

/-- At its own position the name matches the lifted rule, which chooses what the rule there does. -/
theorem find?_liftedRule_self (hi : liftedTo items entry = some i)
    (hrule : items[i]? = some (some rule)) (address : Option String) :
    ((liftedRule items hosts i (some rule)).find? (applies M conn address)).map chosen =
      some (chosen rule) := by
  obtain ⟨host, rule', -, hrule', hplain⟩ := liftedTo_spec hi
  obtain rfl : rule = rule' := some.inj (some.inj (hrule.symm.trans hrule'))
  simp only [plainIpRule, Bool.and_eq_true] at hplain
  obtain ⟨⟨htarget, hfields⟩, -⟩ := hplain
  obtain ⟨target, htarget⟩ := Option.isSome_iff_exists.mp htarget
  have hbalancer : rule.lookup "balancerTag" = none := by
    refine lookup_eq_none_iff.mpr fun field hfield => bne_iff_ne.mpr ?_
    intro he
    have hf := all_eq_true.mp hfields field hfield
    rw [← he] at hf
    exact absurd hf (by decide)
  have hcover : ((liftedSelectors items hosts i).any fun e => M.site e conn.domain) = true := by
    rw [selectors_cover hone, decide_eq_true hi]
  unfold liftedRule
  rw [bind_some, htarget]
  cases hselectors : liftedSelectors items hosts i with
  | nil => simp [hselectors] at hcover
  | cons s rest =>
    rw [hselectors] at hcover
    simp only
    rw [find?_singleton, applies_lifted (by simp), hcover]
    simp [chosen, targetTag, JsonObject.string, htarget, hbalancer]

/-- The whole list, for an entry that is lifted to the rule at `i`: the rules before it, or it. -/
theorem find?_withLifted (hi : liftedTo items entry = some i)
    (hrule : items[i]? = some (some rule)) (address : Option String) :
    ((rulesWithLifted items hosts).find? (applies M conn address)).map chosen =
      some (firstMatch (applies M conn address) chosen (chosen rule)
        ((items.take i).filterMap id)) := by
  have hlength : (items.take i).length = i := by
    obtain ⟨hlt, -⟩ := List.getElem?_eq_some_iff.mp hrule
    rw [List.length_take]
    omega
  have hbefore := find?_stretch hone address (items.take i) 0 fun j hj => by
    rw [hi, Nat.add_zero]
    rw [hlength] at hj
    simp only [ne_eq, some.injEq]
    omega
  have hself := find?_liftedRule_self hone hi hrule address
  have hlist : rulesWithLifted items hosts =
      ((items.take i).mapIdx fun j item => liftedRule items hosts (j + 0) item ++
        [item.getD []]).flatten ++
        (liftedRule items hosts i (some rule) ++ [rule] ++
          ((items.drop (i + 1)).mapIdx fun j item =>
            liftedRule items hosts (j + 1 + i) item ++ [item.getD []]).flatten) := by
    rw [rulesWithLifted]
    conv_lhs => rw [show (items.mapIdx fun j item => liftedRule items hosts j item ++
      [item.getD []]) =
      ((items.take i ++ (some rule :: items.drop (i + 1))).mapIdx fun j item =>
        liftedRule items hosts j item ++ [item.getD []]) from by rw [← items_eq hrule]]
    rw [mapIdx_append, flatten_append, mapIdx_cons, flatten_cons, hlength, Nat.zero_add, getD_some]
    rfl
  rw [hlist, find?_append, find?_append, find?_append, hbefore, firstMatch]
  cases ((items.take i).filterMap id).find? (applies M conn address) with
  | some r => rfl
  | none =>
    rw [none_or]
    obtain ⟨r, hr, hchosen⟩ := Option.map_eq_some_iff.mp hself
    rw [hr, some_or, some_or, Option.map_some, hchosen]
    rfl

end Lifted

end Walk

/-! ## The sections of the output -/

theorem lookup_dnsWithHosts (name : String) (dns kept : JsonObject) :
    (dnsWithHosts dns kept).lookup name = (dns.lookup name).bind fun value =>
      if name = "hosts" then (if kept = [] then none else some (.object kept)) else some value := by
  rw [dnsWithHosts, JsonObject.lookup_flatMap]
  · congr 1
    funext value
    split_ifs with hname
    · rfl
    · exact hname ▸ lookup_cons_self
    · exact lookup_cons_self
  · intro field left hleft
    split_ifs at hleft <;> simp_all
  · right
    intro value other
    split_ifs <;> simp

theorem objectAt_dnsWithHosts {dns hosts : JsonObject} (kept : JsonObject)
    (h : objectAt dns "hosts" = some hosts) : (objectAt (dnsWithHosts dns kept) "hosts").getD
      [] = kept := by
  obtain ⟨value, hvalue, -⟩ := bind_eq_some_iff.mp h
  rw [objectAt, lookup_dnsWithHosts, hvalue, bind_some, if_pos rfl]
  split_ifs with hkept
  · exact hkept.symm
  · rfl

theorem rulesOf_eq (routing : Option JsonObject) :
    rulesOf routing = (ruleItems routing).filterMap id := by
  cases routing with
  | none => rfl
  | some r =>
    rw [rulesOf, ruleItems, objectsOf, bind_some, getD_some, arrayAt, filterMap_map]
    rfl

/-- Everything the lift gives: the rules with the lifted ones, and the entries that stay. -/
theorem lift_eq {dns hosts : JsonObject} (routing : Option JsonObject)
    (h : objectAt dns "hosts" = some hosts) : let out := liftHostsIntoRouting (some dns) routing
    if hosts.all fun entry => (liftedTo (ruleItems routing) entry).isNone then out =
      (some dns, routing)
    else rulesOf out.2 = rulesWithLifted (ruleItems routing) hosts ∧
      (out.1.bind (objectAt · "hosts")).getD [] = keptHosts (ruleItems routing) hosts := by
  have hnone : ∀ entry, liftedTo [] entry = none := by
    intro entry
    rw [liftedTo]
    cases hostAddress entry.2 <;> rfl
  cases hrules : routing.bind (arrayAt · "rules") with
  | none =>
    have hitems : ruleItems routing = [] := by rw [ruleItems, hrules]; rfl
    have hsame : liftHostsIntoRouting (some dns) routing = (some dns, routing) := by
      unfold liftHostsIntoRouting
      rw [hrules]
      cases routing <;> simp [h]
    simp [hitems, hnone, hsame]
  | some items =>
    obtain ⟨r, rfl, hr⟩ := bind_eq_some_iff.mp hrules
    have hitems : ruleItems (some r) = items.map jsonObjectOrNull := by rw [ruleItems, hrules]; rfl
    rw [hitems]
    unfold liftHostsIntoRouting
    simp only [bind_some, h, hr]
    split_ifs with hall
    · rfl
    · refine ⟨?_, objectAt_dnsWithHosts _ h⟩
      refine objectsOf_eq ?_
      rw [getD_some, lookup_append, JsonObject.lookup_without_self (by simp)]
      simp

/-! ## The theorem -/

section Main

variable {M : Matching} {conn : HostConn} {items : List (Option JsonObject)} {hosts : JsonObject}
  {entry : String × Json}

/-- An entry stays exactly if it is not lifted. -/
theorem lookup_keptHosts (hone : hosts.filter (covers M conn) = [entry]) :
    ((keptHosts items hosts).lookup entry.1).isSome = (liftedTo items entry).isNone := by
  obtain ⟨hmem, hcover⟩ := (covers_iff hone entry).mpr rfl
  cases hlifted : liftedTo items entry with
  | none => exact JsonObject.lookup_isSome_of_mem (mem_filter.mpr ⟨hmem, by simp [hlifted]⟩)
  | some i =>
    rw [isNone_some, ← Bool.not_eq_true, Option.not_isSome_iff_eq_none]
    refine lookup_eq_none_iff.mpr fun e he => bne_iff_ne.mpr fun hkey => ?_
    obtain ⟨he, hstays⟩ := mem_filter.mp he
    -- another entry of the same key would cover the name too
    have hcover' : covers M conn e = true := by
      rw [covers, ← hkey]
      exact hcover
    obtain rfl := (covers_iff hone e).mp ⟨he, hcover'⟩
    simp [hlifted] at hstays

/-- The verdict on the original rules, for an entry that is lifted to the rule at `i`. -/
theorem verdict_before {i : Nat} {rule : JsonObject} {hostsAddress : String}
    (hrule : items[i]? = some (some rule)) (hplain : plainIpRule hostsAddress rule = true)
    (strategy : Strategy) :
    verdict M conn strategy (items.filterMap id) hostsAddress = some (match strategy with
      | .onDemand => firstMatch (applies M conn (some hostsAddress)) chosen (chosen rule)
          ((items.take i).filterMap id)
      | .ifNonMatch =>
        firstMatch (applies M conn none) chosen
          (firstMatch (applies M conn none) chosen
            (firstMatch (applies M conn (some hostsAddress)) chosen (chosen rule)
              ((items.take i).filterMap id)) ((items.drop (i + 1)).filterMap id))
          ((items.take i).filterMap id)) := by
  have hyes : applies M conn (some hostsAddress) rule = true := (applies_plainIpRule hplain).1
  have hno : applies M conn none rule = false := (applies_plainIpRule hplain).2
  have hresolved : ((items.filterMap id).find? (applies M conn (some hostsAddress))).map chosen =
      some (firstMatch (applies M conn (some hostsAddress)) chosen (chosen rule)
        ((items.take i).filterMap id)) := by
    rw [items_split hrule, find?_append, find?_cons, hyes, firstMatch]
    cases ((items.take i).filterMap id).find? (applies M conn (some hostsAddress)) <;> rfl
  cases strategy with
  | onDemand => exact hresolved
  | ifNonMatch =>
    have hplainPass : ((items.filterMap id).find? (applies M conn none)) =
        (((items.take i).filterMap id).find? (applies M conn none)).or
          (((items.drop (i + 1)).filterMap id).find? (applies M conn none)) := by
      rw [items_split hrule, find?_append, find?_cons, hno]
    rw [verdict, map_or, hresolved, hplainPass]
    simp only [firstMatch]
    cases ((items.take i).filterMap id).find? (applies M conn none) with
    | some r => rfl
    | none => cases ((items.drop (i + 1)).filterMap id).find? (applies M conn none) <;> rfl

/-- The verdict on the rewritten rules. -/
theorem verdict_after (hone : hosts.filter (covers M conn) = [entry]) {i : Nat}
    (hi : liftedTo items entry = some i) {rule : JsonObject} (hrule : items[i]? = some (some rule))
    (strategy : Strategy) (address : String) :
    verdict M conn strategy (rulesWithLifted items hosts) address = some (match strategy with
      | .onDemand => firstMatch (applies M conn (some address)) chosen (chosen rule)
          ((items.take i).filterMap id)
      | .ifNonMatch => firstMatch (applies M conn none) chosen (chosen rule)
          ((items.take i).filterMap id)) := by
  cases strategy with
  | onDemand => exact find?_withLifted hone hi hrule (some address)
  | ifNonMatch =>
    rw [verdict, map_or, find?_withLifted hone hi hrule none]
    rfl

/-- LIFTING AN ENTRY KEEPS THE VERDICT for a name exactly if the rules around the one it is lifted
    to allow it; for an entry that stays, always. -/
theorem lift_keeps_verdict_iff (M : Matching) (conn : HostConn) (strategy : Strategy)
    {dns hosts : JsonObject} (routing : Option JsonObject) {entry : String × Json}
    (hhosts : objectAt dns "hosts" = some hosts) (hone : hosts.filter (covers M conn) = [entry])
    {hostsAddress : String} (haddress : ∀ x ∈ hostAddress entry.2, x = hostsAddress)
      (realAddress : String) :
    verdict M conn strategy (rulesOf (liftHostsIntoRouting (some dns) routing).2)
        (addressAfter (liftHostsIntoRouting (some dns) routing).1 entry.1 hostsAddress
          realAddress) =
      verdict M conn strategy (rulesOf routing) hostsAddress ↔
    LiftSafe M conn strategy routing entry hostsAddress realAddress := by
  have hmem : entry ∈ hosts := ((covers_iff hone entry).mpr rfl).1
  have hlift := lift_eq routing hhosts
  simp only at hlift
  split_ifs at hlift with hall
  · -- nothing is lifted at all
    have hstays := all_eq_true.mp hall entry hmem
    have hkey := JsonObject.lookup_isSome_of_mem hmem
    rw [hlift]
    simp only [addressAfter, bind_some, hhosts, getD_some, hkey, if_true, true_iff]
    intro i hi
    rw [Option.mem_def.mp hi] at hstays
    cases hstays
  · obtain ⟨hrules, hkept⟩ := hlift
    rw [hrules, addressAfter, hkept, lookup_keptHosts hone, rulesOf_eq]
    cases hlifted : liftedTo (ruleItems routing) entry with
    | none =>
      -- this entry stays: no lifted rule is for its name
      have hfind : ∀ address, (rulesWithLifted (ruleItems routing) hosts).find?
          (applies M conn address) =
          ((ruleItems routing).filterMap id).find? (applies M conn address) := by
        intro address
        exact find?_stretch hone address (ruleItems routing) 0 fun j _ => by simp [hlifted]
      have hsame : verdict M conn strategy
          (rulesWithLifted (ruleItems routing) hosts) hostsAddress =
          verdict M conn strategy ((ruleItems routing).filterMap id) hostsAddress := by
        cases strategy <;> simp only [verdict, hfind]
      simp [LiftSafe, hlifted, hsame]
    | some i =>
      obtain ⟨address, rule, hhost, hrule, hplain⟩ := liftedTo_spec hlifted
      obtain rfl := haddress address hhost
      have hsafe : LiftSafe M conn strategy routing entry address realAddress ↔
          LiftSafeAt M conn strategy (((ruleItems routing).take i).filterMap id)
            (((ruleItems routing).drop (i + 1)).filterMap id) rule address realAddress := by
        simp [LiftSafe, hlifted, hrule]
      rw [hsafe, verdict_before hrule hplain, isNone_some, verdict_after hone hlifted hrule]
      cases strategy with
      | onDemand =>
        simp only [Bool.false_eq_true, if_false, some.injEq, LiftSafeAt]
        exact eq_comm
      | ifNonMatch =>
        simp only [some.injEq, LiftSafeAt, firstMatch]
        cases (((ruleItems routing).take i).filterMap id).find? (applies M conn none) with
        | some r => simp
        | none =>
          cases (((ruleItems routing).drop (i + 1)).filterMap id).find? (applies M conn none) with
          | some later | none => simp [eq_comm]

end Main

/-- Full names and domains, and dotted ranges as the client reads them. -/
def plainMatching : Matching where
  site selector name :=
    selector == "full:" ++ name ||
      (substringAfterOr selector "domain:" "").toList.isSuffixOf name.toList &&
        startsWith selector "domain:"
  inRange range address := ipv4InCidr address (some range)
  inRange_of_ipv4 h := h

/-- A connection to a name that meets every other condition. -/
def connectionTo (name : String) : HostConn := ⟨name, fun _ => true, rfl⟩

/-- Two names on the synthetic range, and one that has an address of its own. -/
def shopHosts : JsonObject :=
  [("cdn.example", .str "198.18.0.2"), ("shop.example", .str "198.18.0.1"),
   ("mail.example", .str "203.0.113.9")]

/-- Rules on a name and on another range, the rule on the synthetic range, and one on a name. -/
def layeredRouting : JsonObject :=
  [("rules", .array
    [.object (fieldRule "domain" (.strs ["domain:ads.test"]) "block"),
     .object (fieldRule "ip" (.strs ["10.0.0.0/8"]) "direct"),
     .object (fieldRule "ip" (.strs ["198.18.0.0/15"]) "direct"),
     .object (fieldRule "domain" (.strs ["domain:video.test"]) "proxy")])]

/-- Neither strategy lets the lifted rule of `shop.example` overtake one that used to decide: the
    rules around it are on other names and on a range that holds neither address. -/
theorem steered_entry_keeps_verdict :
    let dns : JsonObject := [("hosts", .object shopHosts)]
    let out := liftHostsIntoRouting (some dns) (some layeredRouting)
    let kept := fun strategy =>
      verdict plainMatching (connectionTo "shop.example") strategy (rulesOf out.2)
          (addressAfter out.1 "shop.example" "198.18.0.1" "203.0.113.7") =
        verdict plainMatching (connectionTo "shop.example") strategy
          (rulesOf (some layeredRouting)) "198.18.0.1"
    kept .onDemand ∧ kept .ifNonMatch := by
  have hone : shopHosts.filter (covers plainMatching (connectionTo "shop.example")) =
      [("shop.example", .str "198.18.0.1")] := by
    decide
  have haddress : ∀ x ∈ hostAddress (.str "198.18.0.1"), x = "198.18.0.1" := by
    rintro x ⟨⟩
    rfl
  intro dns out kept
  have hsafe : ∀ strategy, LiftSafe plainMatching (connectionTo "shop.example") strategy
      (some layeredRouting) ("shop.example", .str "198.18.0.1") "198.18.0.1" "203.0.113.7" := by
    intro strategy i hi rule hrule
    obtain rfl : 2 = i := some.inj hi
    obtain rfl := some.inj (some.inj hrule)
    cases strategy with
    | onDemand =>
      show firstMatch _ _ _ _ = firstMatch _ _ _ _
      decide
    | ifNonMatch => exact Or.inr rfl
  have hkept : ∀ strategy, kept strategy := fun strategy =>
    (lift_keeps_verdict_iff plainMatching (connectionTo "shop.example") strategy
      (some layeredRouting) (show objectAt dns "hosts" = some shopHosts from rfl) hone haddress
      "203.0.113.7").mpr (hsafe strategy)
  exact ⟨hkept .onDemand, hkept .ifNonMatch⟩

def shopDns : JsonObject := [("hosts", .object [("shop.example", .str "198.18.0.1")])]

/-- A rule on the synthetic range, then the rules of a test. -/
def steeringRouting (rest : List Json) : JsonObject :=
  [("rules", .array (.object [("type", .str "field"), ("ip", .array [.str "198.18.0.0/15"]),
    ("outboundTag", .str "direct")] :: rest))]

/-- A later rule on the name used to decide in the first pass; the lifted rule now comes before it.
    -/
theorem lifted_rule_overtakes :
    let later : Json := .object [("type", .str "field"), ("domain", .array [.str "domain:example"]),
      ("outboundTag", .str "proxy")]
    let out := liftHostsIntoRouting (some shopDns) (some (steeringRouting [later]))
    verdict plainMatching (connectionTo "shop.example") .ifNonMatch
        (rulesOf (some (steeringRouting [later]))) "198.18.0.1" = some (some "proxy", none) ∧
      verdict plainMatching (connectionTo "shop.example") .ifNonMatch (rulesOf out.2)
        (addressAfter out.1 "shop.example" "198.18.0.1" "203.0.113.7") =
          some (some "direct", none) := by
  decide

end OlcVpn.Xray
