/-
  Does an imported route decide every connection as the original configuration did?

  The argument runs the two searches side by side.  A rule of the original is either DROPPED, and
  then it selects nothing or answers a DNS query, or it stays with the SAME conditions and a
  re-pointed action (`Rewritten`).  So both searches stop at the same rule (`matchRule_rewritten`),
  and what is left is one comparison of outbounds: of the rule's target, or of the default.

  ** The result: `route_kept_iff` **
  The verdict is kept exactly if what decides the connection (`Config.Faithful`)
    • is a rule whose target is the tunnel or carries a tag the rewriter knows, or
    • is a rule copied verbatim whose tag happens to be the app's own, or
    • is the default, and that is the tunnel, or a direct outbound that `final` names.
-/
import Mathlib.Data.List.ReduceOption
import Mathlib.Data.Option.Basic
import OlcVpn.SingBox.Normalize

namespace OlcVpn.SingBox

open Kotlin List
open JsonObject (without)
open Option (bind_eq_some_iff bind_eq_bind)

/-! ## What the rewriter knows -/

/-- The tag is one its author wrote, and it is not blank. -/
def Config.names (c : Config) (tag : String) : Bool :=
  (c.outbounds.lookup tag).any fun outbound => isNotBlank outbound.given

/-- The outbounds that carry a tag, with what they are. -/
def namedKinds (outs : List Outbound) : List (String × Kind) :=
  (outs.filter fun o => isNotBlank o.given).map fun o => (o.given, o.kind)

variable {o fields root : JsonObject} {obs : List JsonObject} {outs : List Outbound} {tag : String}
  {r : Rule} {c : Config} {intOrNull : String → Option Int}

/-- A field sing-box reads as a string is the same string for the rewriter, or absent and empty. -/
theorem string_of_stringField {name s : String} (h : stringField o name = some s) :
    JsonObject.string o name = some s ∨ JsonObject.string o name = none ∧ s = "" := by
  unfold stringField at h
  unfold JsonObject.string
  split at h
  case h_1 heq => exact .inr ⟨by rw [heq], by simpa using h.symm⟩
  case h_2 heq => exact .inr ⟨by rw [heq], by simpa using h.symm⟩
  case h_3 heq => exact .inl (by rw [heq]; exact h)
  case h_4 => cases h

theorem outboundKind_kindOfType :
    ∀ type ∈ outboundTypes, outboundKind type = some (kindOfType (some type)) := by
  decide

theorem tagKind_of_decode {ob : JsonObject} {o : Outbound} (h : decodeOutbound ob = some o) :
    tagKind ob = if isNotBlank o.given then some (o.given, o.kind) else none := by
  simp only [decodeOutbound, bind_eq_bind, bind_eq_some_iff] at h
  obtain ⟨given, hgiven, type, htype, kind, hkind, heq⟩ := h
  cases heq
  have hmem : type ∈ outboundTypes := by
    by_contra hnot
    simp [outboundKind, hnot] at hkind
  have hkind' : kindOfType (some type) = kind := by
    have := outboundKind_kindOfType type hmem
    rw [hkind] at this
    exact (Option.some.inj this).symm
  have htype' : JsonObject.string ob "type" = some type := by
    rcases string_of_stringField htype with h | ⟨-, rfl⟩
    · exact h
    · exact absurd hmem (by decide)
  rcases string_of_stringField hgiven with h | ⟨h, rfl⟩
  · by_cases hb : isNotBlank given = true
    · simp [tagKind, h, htype', hkind', hb]
    · simp [tagKind, h, hb]
  · simp [tagKind, h, isNotBlank]

/-- The client's table of tags is the core's, as far as tags are given. -/
theorem filterMap_tagKind (h : obs.mapM decodeOutbound = some outs) :
    obs.filterMap tagKind = namedKinds outs := by
  have hall := mapM_eq_some_iff.mp h
  clear h
  induction hall with
  | nil => rfl
  | @cons ob o obs outs hob _ ih =>
    by_cases hb : isNotBlank o.given = true <;> simp [namedKinds, tagKind_of_decode hob, hb, ih]

theorem map_snd_tagOutbounds (outs : List Outbound) : (tagOutbounds outs).map Prod.snd = outs := by
  refine ext_getElem? fun i => ?_
  simp [tagOutbounds, Option.map_map, Function.comp_def]

/-- A tag the author wrote is the effective tag. -/
theorem tag_of_mem {o : Outbound} (h : (tag, o) ∈ tagOutbounds outs)
    (hb : isNotBlank o.given = true) : tag = o.given := by
  simp only [tagOutbounds, mem_mapIdx] at h
  obtain ⟨i, hi, heq⟩ := h
  cases heq
  simp [tagOr, ne_empty_of_isNotBlank hb]

/-- Named outbounds stand under their own tags, so their tags are distinct if all tags are. -/
theorem namedKinds_nodup (hnd : ((tagOutbounds outs).map Prod.fst).Nodup) :
    ((namedKinds outs).map Prod.fst).Nodup := by
  have hkeys : (namedKinds outs).map Prod.fst =
      ((tagOutbounds outs).filter fun p => isNotBlank p.2.given).map Prod.fst := by
    calc (namedKinds outs).map Prod.fst
        = ((tagOutbounds outs).map Prod.snd |>.filter fun o => isNotBlank o.given).map
            Outbound.given := by
          rw [map_snd_tagOutbounds, namedKinds, map_map]
          rfl
      _ = ((tagOutbounds outs).filter fun p => isNotBlank p.2.given).map fun p => p.2.given := by
          rw [filter_map, map_map]
          rfl
      _ = _ := by
          refine map_congr_left fun p hp => ?_
          obtain ⟨hmem, hb⟩ := mem_filter.mp hp
          exact (tag_of_mem hmem hb).symm
  rw [hkeys]
  exact hnd.sublist (filter_sublist.map _)

/-- `kindByTag` holds the named outbounds and nothing else. -/
theorem kindByTag_eq_some_iff (h : obs.mapM decodeOutbound = some outs)
    (hnd : ((tagOutbounds outs).map Prod.fst).Nodup) {k : Kind} : kindByTag obs tag = some k ↔
      ∃ o, (tagOutbounds outs).lookup tag = some o ∧ isNotBlank o.given = true ∧ o.kind = k := by
  rw [kindByTag, filterMap_tagKind h, toMap_eq_some_iff (namedKinds_nodup hnd)]
  constructor
  · intro hmem
    simp only [namedKinds, mem_map, mem_filter] at hmem
    obtain ⟨o, ⟨ho, hb⟩, heq⟩ := hmem
    cases heq
    rw [← map_snd_tagOutbounds outs] at ho
    obtain ⟨⟨tag, o⟩, hpair, rfl⟩ := mem_map.mp ho
    obtain rfl := tag_of_mem hpair hb
    exact ⟨o, lookup_eq_some_of_mem hnd hpair, hb, rfl⟩
  · rintro ⟨o, hlookup, hb, rfl⟩
    have hpair := mem_of_lookup_eq_some hlookup
    obtain rfl := tag_of_mem hpair hb
    have ho : o ∈ outs := by
      rw [← map_snd_tagOutbounds outs]
      exact mem_map.mpr ⟨_, hpair, rfl⟩
    exact mem_map.mpr ⟨o, mem_filter.mpr ⟨ho, hb⟩, rfl⟩

/-! ## One rule -/

/-- The rule keeps the tag it has in the original configuration: its action is none the rewriter
    knows to carry an outbound. -/
def Rule.copied (r : Rule) : Bool :=
  match r.action with
  | .bypass _ => true
  | .route _ => JsonObject.string r.fields "action" == some ""
  | _ => false

/-- The action of a known kind of target in the app's configuration. -/
def Kind.action : Kind → Action
  | .reject => .reject
  | .direct => .route "direct"
  | .dns | .proxy => .route "proxy"

/-- The action a rule has after the rewrite. -/
def renamedAction (kinds : String → Option Kind) (r : Rule) : Action :=
  match r.action with
  | .route target => if r.copied then r.action else ((kinds target).getD .proxy).action
  | _ => r.action

/-- A rule that answers DNS queries. -/
def answersDns (kinds : String → Option Kind) (r : Rule) : Prop :=
  r.action = .hijackDns ∨ ∃ target, r.action = .route target ∧ kinds target = some .dns

/-- What becomes of a rule. -/
inductive Rewritten (kinds : String → Option Kind) (r : Rule) : Option JsonObject → Prop where
  | dropped (h : r.action.selects = false ∨ answersDns kinds r) : Rewritten kinds r none
  | kept {fields : JsonObject} {r' : Rule} (hdec : decodeRule fields = some r')
      (hcond : r'.conditions = r.conditions) (hact : r'.action = renamedAction kinds r) :
      Rewritten kinds r (some fields)

/-- The parts of a decoded rule. -/
theorem decodeRule_eq_some (h : decodeRule fields = some r) :
    ∃ action outbound, stringField fields "action" = some action ∧
      stringField fields "outbound" = some outbound ∧
      decodeAction action outbound = some r.action ∧ r.fields = fields := by
  simp only [decodeRule, bind_eq_bind, bind_eq_some_iff] at h
  obtain ⟨action, haction, outbound, houtbound, decoded, hdecoded, heq⟩ := h
  cases heq
  exact ⟨action, outbound, haction, houtbound, hdecoded, rfl⟩

theorem stringField_put_ne {names : List String} {name other : String} {value : Json}
    (hne : other ≠ name) (hother : other ∉ names) :
    stringField (put (without o names) name value) other = stringField o other := by
  unfold stringField
  rw [lookup_put_ne hne, JsonObject.lookup_without hother]

theorem stringField_put_self (o : JsonObject) (name s : String) :
    stringField (put o name (.str s)) name = some s := by
  simp [stringField, Json.str]

/-- A routing rule pointed at another outbound. -/
theorem decodeRule_repoint {action : String} (haction : stringField fields "action" = some action)
    (hroute : action = "" ∨ action = "route") (htag : tag ≠ "") :
    decodeRule (put (without fields ["outbound"]) "outbound" (.str tag)) =
      some ⟨put (without fields ["outbound"]) "outbound" (.str tag), .route tag⟩ := by
  simp [decodeRule, stringField_put_ne, stringField_put_self, haction, decodeAction, hroute, htag]

theorem decodeRule_reject (fields : JsonObject) :
    decodeRule (put (without fields ["outbound", "action"]) "action" (.str "reject")) =
      some ⟨put (without fields ["outbound", "action"]) "action" (.str "reject"), .reject⟩ := by
  have hout : stringField
      (put (without fields ["outbound", "action"]) "action" (.str "reject"))
      "outbound" = some "" := by
    unfold stringField
    rw [lookup_put_ne (by decide), JsonObject.lookup_without_self (by decide)]
  simp [decodeRule, stringField_put_self, hout, decodeAction]

/-- Repointing a rule leaves its conditions. -/
theorem conditions_repoint (fields : JsonObject) {names : List String} {name : String}
    {value : Json} (hnames : names ⊆ ["outbound", "action"]) (hname : name ∈ ["outbound", "action"])
    (a b : Action) : Rule.conditions ⟨put (without fields names) name value, a⟩ =
      Rule.conditions ⟨fields, b⟩ := by
  simp only [Rule.conditions]
  rw [JsonObject.without_put hname, JsonObject.without_without hnames]

/-- The actions the rewriter copies. -/
def verbatimActions : List String := ["route-options", "direct", "bypass", "reject", "resolve"]

theorem lowercase_verbatim :
    ∀ action ∈ verbatimActions, lowercase action ∉ ["sniff", "hijack-dns", "route"] := by
  decide

/-- THE ACTIONS OF THE CORE, by how they are written. -/
theorem decodeAction_cases {action outbound : String} {a : Action}
    (h : decodeAction action outbound = some a) :
    ((action = "" ∨ action = "route") ∧ outbound ≠ "" ∧ a = .route outbound) ∨
    (action = "sniff" ∧ a = .sniff) ∨ (action = "hijack-dns" ∧ a = .hijackDns) ∨
    (action ∈ verbatimActions ∧ ∀ target, a ≠ .route target) := by
  unfold decodeAction at h
  split_ifs at h with hroute hempty h1 h2 h3 h4 h5 h6 h7
  · cases h
    exact .inl ⟨hroute, hempty, rfl⟩
  all_goals cases h; subst action; simp [verbatimActions]

theorem renamedAction_of_not_route {kinds : String → Option Kind}
    (h : ∀ target, r.action ≠ .route target) : renamedAction kinds r = r.action := by
  unfold renamedAction
  split
  · rename_i target heq
    exact absurd heq (h target)
  · rfl

variable (kinds : String → Option Kind)

/-- A rule that is rewritten sends to the renamed target. -/
theorem repoint_rewritten {action target : String}
    (haction : stringField fields "action" = some action)
    (hroute : action = "" ∨ action = "route")
      (hcopied : Rule.copied ⟨fields, .route target⟩ = false) :
    Rewritten kinds ⟨fields, .route target⟩ (repoint fields ((kinds target).getD .proxy)) := by
  have hrenamed : renamedAction kinds ⟨fields, .route target⟩ =
      ((kinds target).getD .proxy).action := by
    simp [renamedAction, hcopied]
  cases hk : (kinds target).getD .proxy with
  | dns =>
    refine .dropped (.inr (.inr ⟨target, rfl, ?_⟩))
    cases hkind : kinds target with
    | none => simp [hkind] at hk
    | some k => simpa [hkind] using hk
  | reject =>
    refine .kept (decodeRule_reject fields) ?_ ?_
    · exact conditions_repoint fields (List.Subset.refl _) (by simp) _ _
    · rw [hrenamed, hk]
      rfl
  | direct | proxy =>
    refine .kept (decodeRule_repoint haction hroute (by decide)) ?_ ?_
    · exact conditions_repoint fields (by simp) (by simp) _ _
    · rw [hrenamed, hk]
      rfl

/-- Every rule sing-box accepts, and that is not tied to an inbound, is dropped or re-pointed. -/
theorem mapRule_rewritten (hdec : decodeRule fields = some r)
    (hin : fields.lookup "inbound" = none) : Rewritten kinds r (mapRule kinds fields) := by
  obtain ⟨action, outbound, haction, houtbound, hact, hfields⟩ := decodeRule_eq_some hdec
  have htext := string_of_stringField haction
  rcases decodeAction_cases hact with ⟨hroute, hne, ha⟩ | ⟨rfl, ha⟩ | ⟨rfl, ha⟩ | ⟨hverb, ha⟩
  · obtain rfl : r = ⟨fields, .route outbound⟩ := by
      rw [← hfields, ← ha]
    have htarget : JsonObject.string fields "outbound" = some outbound := by
      rcases string_of_stringField houtbound with h | ⟨-, rfl⟩
      · exact h
      · exact absurd rfl hne
    by_cases hcopied : JsonObject.string fields "action" = some ""
    · -- the action is spelled out as the empty string
      have hmap : mapRule kinds fields = some fields := by
        simp [mapRule, hin, hcopied, show lowercase "" = "" from rfl]
      rw [hmap]
      exact .kept hdec rfl (by simp [renamedAction, Rule.copied, hcopied])
    · have hmap : mapRule kinds fields = repoint fields ((kinds outbound).getD .proxy) := by
        rcases htext with h | ⟨h, -⟩
        · obtain rfl := hroute.resolve_left (fun e => hcopied (e ▸ h))
          simp [mapRule, hin, h, htarget, show lowercase "route" = "route" from rfl]
        · simp [mapRule, hin, h, htarget]
      rw [hmap]
      exact repoint_rewritten kinds haction hroute (by simp [Rule.copied, hcopied])
  · -- sniff is dropped, and it selects nothing
    have htext : JsonObject.string fields "action" = some "sniff" := by simpa using htext
    have hmap : mapRule kinds fields = none := by
      simp [mapRule, hin, htext, show lowercase "sniff" = "sniff" from rfl]
    rw [hmap]
    exact .dropped (.inl (by rw [ha]; rfl))
  · have htext : JsonObject.string fields "action" = some "hijack-dns" := by simpa using htext
    have hmap : mapRule kinds fields = none := by
      simp [mapRule, hin, htext, show lowercase "hijack-dns" = "hijack-dns" from rfl]
    rw [hmap]
    exact .dropped (.inr (.inl ha))
  · have htext : JsonObject.string fields "action" = some action := by
      rcases htext with h | ⟨-, rfl⟩
      · exact h
      · exact absurd hverb (by decide)
    have hlow := lowercase_verbatim action hverb
    have hmap : mapRule kinds fields = some fields := by
      simp only [mem_cons, not_mem_nil, or_false, not_or] at hlow
      simp [mapRule, hin, htext, hlow]
    rw [hmap]
    exact .kept hdec rfl (renamedAction_of_not_route ha).symm

/-! ## The search -/

/-- Renaming changes no rule from deciding to passing on. -/
theorem selects_renamed (r : Rule) : (renamedAction kinds r).selects = r.action.selects := by
  unfold renamedAction
  split
  · rename_i target heq
    split_ifs
    · rfl
    · rw [heq]
      cases (kinds target).getD .proxy <;> rfl
  · rfl

/-- The first rule that matches and decides. -/
theorem matchRule_cons (m : JsonObject → Bool) (r : Rule) (rules : List Rule) :
    matchRule m (r :: rules) =
      if m r.conditions && r.action.selects then some r else matchRule m rules := by
  cases h : m r.conditions && r.action.selects <;> simp [matchRule, h]

/-- Both searches stop at the same rule, unless the original then answers a DNS query. -/
theorem matchRule_rewritten {objects : List JsonObject} {rules : List Rule}
    (hdec : List.Forall₂ (fun f r => decodeRule f = some r) objects rules)
    (hin : ∀ fields ∈ objects, fields.lookup "inbound" = none) :
    ∃ rules', (objects.filterMap (mapRule kinds)).mapM decodeRule = some rules' ∧
      ∀ m, match matchRule m rules with
        | none => matchRule m rules' = none
        | some r => answersDns kinds r ∨
            ∃ r', matchRule m rules' = some r' ∧ r'.action = renamedAction kinds r := by
  induction hdec with
  | nil => exact ⟨[], rfl, fun m => rfl⟩
  | @cons fields r objects rules hr _ ih =>
    obtain ⟨rules', hrules', hmatch⟩ := ih fun f hf => hin f (mem_cons_of_mem _ hf)
    have hrew := mapRule_rewritten kinds hr (hin fields mem_cons_self)
    generalize hmap : mapRule kinds fields = mapped at hrew
    cases hrew with
    | dropped h =>
      refine ⟨rules', by simpa [hmap] using hrules', fun m => ?_⟩
      rw [matchRule_cons]
      by_cases hsel : m r.conditions && r.action.selects
      · -- a dropped rule that selects answers DNS queries
        rw [if_pos hsel]
        refine .inl (h.resolve_left ?_)
        simp_all
      · rw [if_neg hsel]
        exact hmatch m
    | @kept fields' r' hdec' hcond hact =>
      refine ⟨r' :: rules', ?_, fun m => ?_⟩
      · rw [mapM_eq_some_iff] at hrules' ⊢
        simpa [hmap] using ⟨hdec', hrules'⟩
      have hsame : (m r'.conditions && r'.action.selects) =
          (m r.conditions && r.action.selects) := by
        rw [hcond, hact, selects_renamed]
      rw [matchRule_cons, matchRule_cons, hsame]
      by_cases hsel : m r.conditions && r.action.selects
      · rw [if_pos hsel, if_pos hsel]
        exact .inr ⟨r', rfl, hact⟩
      · rw [if_neg hsel, if_neg hsel]
        exact hmatch m

/-! ## From the import to the two configurations -/

/-- The facts about a decoded configuration that the rewriter's input shares. -/
structure Decodes (root : JsonObject) (c : Config) (obs rules : List JsonObject)
    (route : JsonObject) : Prop where
  known : ∀ field ∈ root, field.1 ∈ optionFields
  outbound_objects : listField root "outbounds" = some obs
  outbounds : ∃ outs, obs.mapM decodeOutbound = some outs ∧ c.outbounds = tagOutbounds outs
  route_object : routeField root = some route
  rule_objects : listField route "rules" = some rules
  rules : List.Forall₂ (fun f r => decodeRule f = some r) rules c.rules
  final : stringField route "final" = some c.final
  distinct : (c.outbounds.map Prod.fst).Nodup

theorem decodes_of_decodeConfig (h : decodeConfig root = some c) :
    ∃ obs rules route, Decodes root c obs rules route := by
  simp only [decodeConfig, bind_eq_bind, bind_eq_some_iff] at h
  obtain ⟨_, hknown, obs, hobs, outs, houts, endpoints, -, tags, -, route, hroute, rules, hrules,
    decoded, hdecoded, final, hfinal, _, hnd, _, -, heq⟩ := h
  cases heq
  refine ⟨obs, rules, route, ?_, hobs, ⟨outs, houts, rfl⟩, hroute, hrules,
    mapM_eq_some_iff.mp hdecoded, hfinal, ?_⟩
  · simpa using (Option.guard_eq_some' _).mp hknown
  · exact (nodup_append.mp ((Option.guard_eq_some' _).mp hnd)).1

theorem objectsOf_of_listField {name : String} {objs objs' : List JsonObject}
    (h : listField o name = some objs) (h' : objectsOf o name = some objs') : objs' = objs := by
  simp only [objectsOf, Option.map_eq_some_iff, bind_eq_some_iff] at h'
  obtain ⟨items, ⟨value, hvalue, harray⟩, rfl⟩ := h'
  cases value with
  | array items' =>
    cases harray
    simp only [listField, hvalue] at h
    have hall := mapM_eq_some_iff.mp h
    clear h hvalue
    induction hall with
    | nil => rfl
    | cons hitem _ ih => rw [filterMap_cons_some hitem, ih]
  | _ => cases harray

/-- Every server of a document carries its route. -/
theorem rawProfile_route {route : Option JsonObject} {outbound : JsonObject} {p : ProxyProfile}
    (h : rawProfile intOrNull route outbound = .ok (some p)) : p.rawSingBoxRoute = route := by
  unfold rawProfile at h
  split at h
  · cases h
  · split at h
    case h_5 =>
      simp only [Except.ok.injEq, bind_eq_bind, bind_eq_some_iff] at h
      obtain ⟨port, -, type, -, heq⟩ := h
      cases heq
      rfl
    all_goals cases h

theorem mapM_rawProfile_route {route : Option JsonObject} {servers : List JsonObject}
    {entries : List (Option ProxyProfile)}
      (h : servers.mapM (rawProfile intOrNull route) = .ok entries) :
    ∀ p, some p ∈ entries → p.rawSingBoxRoute = route := by
  induction servers generalizing entries with
  | nil =>
    cases h
    simp
  | cons server servers ih =>
    rw [mapM_cons] at h
    cases hs : rawProfile intOrNull route server with
    | error e => simp [hs, bind, Except.bind] at h
    | ok entry =>
      cases ht : servers.mapM (rawProfile intOrNull route) with
      | error e => simp [hs, ht, bind, Except.bind] at h
      | ok rest =>
        simp only [hs, ht, bind, Except.bind, pure, Except.pure, Except.ok.injEq] at h
        subst entries
        intro p hp
        rcases mem_cons.mp hp with rfl | hmem
        · exact rawProfile_route hs
        · exact ih ht p hmem

/-- Every location of the import carries the rewritten route. -/
theorem route_of_profile {profiles : List ProxyProfile} {p : ProxyProfile}
    (hparse : parseRawSingBox intOrNull (.object root) = .ok (some profiles)) (hp : p ∈ profiles) :
    ∃ outbounds, rawOutbounds (.object root) = some outbounds ∧ serverOutbounds outbounds ≠ [] ∧
      p.rawSingBoxRoute = normalizeSingBoxRoute root outbounds := by
  unfold parseRawSingBox at hparse
  cases hraw : rawOutbounds (.object root) with
  | none => simp [hraw] at hparse
  | some outbounds =>
    simp only [hraw] at hparse
    split_ifs at hparse with hservers
    · cases hparse
    refine ⟨outbounds, rfl, hservers, ?_⟩
    cases hm : (serverOutbounds outbounds).mapM
        (rawProfile intOrNull (embeddedRoute (.object root) outbounds)) with
    | error e => simp [hm, bind, Except.bind] at hparse
    | ok entries =>
      simp only [hm, bind, Except.bind, pure, Except.pure, Except.ok.injEq] at hparse
      split_ifs at hparse with hempty
      cases hparse
      exact mapM_rawProfile_route hm p (reduceOption_mem_iff.mp hp)

/-- For a configuration sing-box accepts, the rewriter sees the outbounds sing-box sees. -/
theorem rawOutbounds_eq {rules outbounds : List JsonObject} {route : JsonObject}
    (hdec : Decodes root c obs rules route) (hraw : rawOutbounds (.object root) = some outbounds)
    (hservers : serverOutbounds outbounds ≠ []) : outbounds = obs := by
  simp only [rawOutbounds] at hraw
  split_ifs at hraw with hsome
  · exact objectsOf_of_listField hdec.outbound_objects hraw
  · -- a lone outbound has a top-level field `server`, which no configuration has
    cases hraw
    exfalso
    apply hservers
    refine filter_eq_nil_iff.mpr fun o ho => ?_
    obtain rfl := mem_singleton.mp ho
    have hnone : o.lookup "server" = none := by
      cases hs : o.lookup "server" with
      | none => rfl
      | some value =>
        have hmem : "server" ∈ optionFields := hdec.known _ (mem_of_lookup_eq_some hs)
        exact absurd hmem (by decide)
    simp [hnone]

/-- The route of the import, as the app's configuration reads it. -/
theorem appConfig_of_normalize {rules : List JsonObject} {route imported : JsonObject}
    (hdec : Decodes root c obs rules route)
      (hnorm : normalizeSingBoxRoute root obs = some imported) :
    appConfig imported = ((rules.filterMap (mapRule (kindByTag obs))).mapM decodeRule).map fun rs =>
      appRoute rs (finalTag (kindByTag obs) (JsonObject.string route "final")) := by
  simp only [normalizeSingBoxRoute, bind_eq_bind, bind_eq_some_iff] at hnorm
  obtain ⟨route', ⟨value, hvalue, hobject⟩, rules', hrules', _, -, _, -, heq⟩ := hnorm
  obtain rfl : route' = route := by
    cases value <;> simp at hobject
    have := hdec.route_object
    simp only [routeField, hvalue, Option.some.injEq] at this
    rw [← this, hobject]
  obtain rfl : rules' = rules := objectsOf_of_listField hdec.rule_objects hrules'
  cases heq
  have hobjects : ∀ l : List JsonObject, (l.map Json.object).mapM jsonObjectOrNull = some l := by
    intro l
    rw [mapM_eq_some_iff]
    simp [List.forall₂_map_left_iff]
  simp only [Option.map_eq_bind]
  simp [appConfig, listField, stringField, hobjects, Json.str]

/-! ## The comparison -/

theorem names_iff : c.names tag = true ↔
      ∃ o, c.outbounds.lookup tag = some o ∧ isNotBlank o.given = true := by
  unfold Config.names
  cases c.outbounds.lookup tag <;> simp

/-- What decides the connection comes through the rewrite unharmed. -/
def Config.Faithful (c : Config) (m : JsonObject → Bool) : Prop :=
  match matchRule m c.rules with
  | some r =>
    match r.action with
    | .route tag | .bypass tag =>
      if r.copied then
        tag = "proxy" ∧ c.kind? tag = some .proxy ∨ tag = "direct" ∧ c.kind? tag = some .direct
      else c.kind? tag = some .proxy ∨ c.names tag = true
    | _ => True
  | none => c.defaultKind = some .proxy ∨ c.defaultKind = some .direct ∧ c.names c.final = true

section

variable {root : JsonObject} {c : Config} {obs rules : List JsonObject} {route : JsonObject}
variable (hdec : Decodes root c obs rules route)
include hdec

variable {tag : String}

/-- Where a tag is given, the client knows its kind. -/
theorem kindByTag_of_names (h : c.names tag = true) : kindByTag obs tag = c.kind? tag := by
  obtain ⟨outs, houts, heq⟩ := hdec.outbounds
  have hnd := hdec.distinct
  obtain ⟨o, ho, hblank⟩ := names_iff.mp h
  rw [Config.kind?, ho]
  rw [heq] at ho hnd
  exact (kindByTag_eq_some_iff houts hnd).mpr ⟨o, ho, hblank, rfl⟩

theorem kindByTag_of_not_names (h : c.names tag = false) : kindByTag obs tag = none := by
  obtain ⟨outs, houts, heq⟩ := hdec.outbounds
  have hnd := hdec.distinct
  rw [heq] at hnd
  refine Option.eq_none_iff_forall_ne_some.mpr fun k hk => ?_
  obtain ⟨o, ho, hblank, -⟩ := (kindByTag_eq_some_iff houts hnd).mp hk
  rw [← heq] at ho
  rw [names_iff.mpr ⟨o, ho, hblank⟩] at h
  cases h

/-- No outbound goes by the empty tag. -/
theorem names_empty : c.names "" = false := by
  obtain ⟨outs, -, heq⟩ := hdec.outbounds
  by_contra hne
  obtain ⟨o, ho, hblank⟩ := names_iff.mp (by simpa using hne)
  rw [heq] at ho
  have htag := tag_of_mem (mem_of_lookup_eq_some ho) hblank
  exact ne_empty_of_isNotBlank hblank htag.symm

/-- The default outbound: direct where the document's is, the proxy otherwise. -/
theorem finalTag_eq : finalTag (kindByTag obs) (JsonObject.string route "final") =
      if kindByTag obs c.final = some .direct then "direct" else "proxy" := by
  have hsome : finalTag (kindByTag obs) (some c.final) =
      if kindByTag obs c.final = some .direct then "direct" else "proxy" := by
    simp only [finalTag]
    cases kindByTag obs c.final <;> simp
  rcases string_of_stringField hdec.final with h | ⟨h, hempty⟩
  · rw [h, hsome]
  · rw [h, hempty, kindByTag_of_not_names hdec (names_empty hdec)]
    rfl

/-- The default of the import against the default of the original. -/
theorem default_kept (rs : List Rule) {v : Verdict}
    (hv : c.defaultKind.bind Kind.verdict = some v) :
    (appRoute rs (finalTag (kindByTag obs) (JsonObject.string route "final"))).defaultKind.bind
        Kind.verdict = some v ↔
      c.defaultKind = some .proxy ∨ c.defaultKind = some .direct ∧ c.names c.final = true := by
  obtain ⟨k, hk, hkv⟩ := bind_eq_some_iff.mp hv
  rw [finalTag_eq hdec, hk]
  cases hn : c.names c.final with
  | false =>
    rw [kindByTag_of_not_names hdec hn]
    cases k <;> cases hkv <;> simp [Kind.verdict]
  | true =>
    have hfinal : c.final ≠ "" := by
      intro h
      rw [h, names_empty hdec] at hn
      cases hn
    have hkind : kindByTag obs c.final = some k := by
      rw [kindByTag_of_names hdec hn, ← hk, Config.defaultKind, if_neg hfinal]
    rw [hkind]
    cases k <;> cases hkv <;> simp [Kind.verdict]

/-- A re-pointed rule against the original one. -/
theorem target_kept (rs : List Rule) (final : String) {v : Verdict}
    (hv : (c.kind? tag).bind Kind.verdict = some v) :
    (appRoute rs final).apply ((kindByTag obs tag).getD .proxy).action = some v ↔
      c.kind? tag = some .proxy ∨ c.names tag = true := by
  obtain ⟨k, hk, hkv⟩ := bind_eq_some_iff.mp hv
  rw [hk]
  cases hn : c.names tag with
  | false =>
    rw [kindByTag_of_not_names hdec hn]
    cases k <;> cases hkv <;> simp [Kind.action, Config.apply, Kind.verdict]
  | true =>
    rw [kindByTag_of_names hdec hn, hk]
    cases k <;> cases hkv <;> simp [Kind.action, Config.apply, Kind.verdict]

end

/-- A rule copied with its tag against the original one. -/
theorem copied_kept (rs : List Rule) (final : String) {v : Verdict}
    (hv : (c.kind? tag).bind Kind.verdict = some v) :
    ((appRoute rs final).kind? tag).bind Kind.verdict = some v ↔
      tag = "proxy" ∧ c.kind? tag = some .proxy ∨ tag = "direct" ∧ c.kind? tag = some .direct := by
  obtain ⟨k, hk, hkv⟩ := bind_eq_some_iff.mp hv
  rw [hk]
  by_cases hp : tag = "proxy"
  · subst hp
    cases k <;> cases hkv <;> simp [Kind.verdict]
  by_cases hd : tag = "direct"
  · subst hd
    cases k <;> cases hkv <;> simp [Kind.verdict]
  · simp [appRoute_other hp hd, hp, hd]

section

variable {root : JsonObject} {c : Config} {obs rules : List JsonObject} {route : JsonObject}
variable (hdec : Decodes root c obs rules route) {r : Rule}
include hdec

/-- A rule that answers DNS itself decides no outbound. -/
theorem apply_answersDns (h : answersDns (kindByTag obs) r) : c.apply r.action = none := by
  rcases h with hact | ⟨target, hact, hkind⟩
  · rw [hact]
    rfl
  · have hn : c.names target = true := by
      by_contra hn
      rw [kindByTag_of_not_names hdec (by simpa using hn)] at hkind
      cases hkind
    rw [kindByTag_of_names hdec hn] at hkind
    simp [hact, Config.apply, hkind, Kind.verdict]

/-- The rule both searches stop at. -/
theorem rule_kept (rs : List Rule) (final : String) {v : Verdict}
    (hv : c.apply r.action = some v) :
    (appRoute rs final).apply (renamedAction (kindByTag obs) r) = some v ↔
      match r.action with
      | .route tag | .bypass tag =>
        if r.copied then
          tag = "proxy" ∧ c.kind? tag = some .proxy ∨ tag = "direct" ∧ c.kind? tag = some .direct
        else c.kind? tag = some .proxy ∨ c.names tag = true
      | _ => True := by
  unfold renamedAction
  cases ha : r.action with
  | route tag =>
    rw [ha] at hv
    by_cases hcopied : r.copied = true
    · simpa [hcopied, Config.apply] using copied_kept rs final hv
    · simpa [hcopied] using target_kept hdec rs final hv
  | bypass tag =>
    rw [ha] at hv
    have hcopied : r.copied = true := by simp [Rule.copied, ha]
    simpa [hcopied, Config.apply] using copied_kept rs final hv
  | reject =>
    rw [ha] at hv
    simpa [Config.apply] using hv
  | hijackDns | routeOptions | direct | sniff | resolve =>
    rw [ha] at hv
    cases hv

end

/-- **The imported route decides a connection as the original configuration does, exactly if
    `Faithful`.**  For every configuration sing-box accepts, every location its import creates with
    a route, every connection that the original carries or rejects, and no rule tied to an
    inbound. -/
theorem route_kept_iff (intOrNull : String → Option Int) (root : JsonObject) (c : Config)
    (profiles : List ProxyProfile) (p : ProxyProfile) (imported : JsonObject)
    (m : JsonObject → Bool) (v : Verdict)
    (hparse : parseRawSingBox intOrNull (.object root) = .ok (some profiles)) (hp : p ∈ profiles)
    (himported : p.rawSingBoxRoute = some imported) (hconfig : decodeConfig root = some c)
    (hinbound : ∀ r ∈ c.rules, r.fields.lookup "inbound" = none) (hv : c.verdict m = some v) :
    importedVerdict imported m = some v ↔ c.Faithful m := by
  obtain ⟨obs, rules, route, hdec⟩ := decodes_of_decodeConfig hconfig
  obtain ⟨outbounds, hraw, hservers, hnorm⟩ := route_of_profile hparse hp
  obtain rfl := rawOutbounds_eq hdec hraw hservers
  have happ := appConfig_of_normalize hdec (himported ▸ hnorm).symm
  have hin : ∀ fields ∈ rules, fields.lookup "inbound" = none := by
    intro fields hf
    obtain ⟨r, hr, hdecoded⟩ := exists_of_forall₂ hdec.rules hf
    obtain ⟨-, -, -, -, -, rfl⟩ := decodeRule_eq_some hdecoded
    exact hinbound r hr
  obtain ⟨rules', hrules', hmatch⟩ := matchRule_rewritten (kindByTag outbounds) hdec.rules hin
  have hverdict : importedVerdict imported m = (appRoute rules' (finalTag (kindByTag outbounds)
      (JsonObject.string route "final"))).verdict m := by
    simp [importedVerdict, happ, hrules']
  rw [hverdict]
  specialize hmatch m
  unfold Config.verdict at hv ⊢
  unfold Config.Faithful
  cases hm : matchRule m c.rules with
  | none =>
    simp only [hm] at hv hmatch
    simp only [appRoute_rules, hmatch]
    exact default_kept hdec rules' hv
  | some r =>
    simp only [hm] at hv hmatch
    rcases hmatch with hdns | ⟨r', hr', hact⟩
    · rw [apply_answersDns hdec hdns] at hv
      cases hv
    · simp only [appRoute_rules, hr', hact]
      exact rule_kept hdec rules' _ hv

/-- A configuration with a server, a direct and a block outbound; its one rule sends a domain past
    the tunnel, and `final` takes the rest. -/
def sampleRoot (final : String) : JsonObject :=
  [("outbounds", .array [
      .object [("type", .str "vless"), ("tag", .str "vless-out"), ("server", .str "1.2.3.4"),
               ("server_port", .literal false "443")],
      .object [("type", .str "direct"), ("tag", .str "direct-out")],
      .object [("type", .str "block"), ("tag", .str "block-out")]]),
   ("route", .object [("final", .str final),
      ("rules", .array [.object [("domain", .array [.str "mail.ru"]),
      ("outbound", .str "direct-out")]])])]

/-- `intOrNull` on the one number of the sample. -/
def samplePort (s : String) : Option Int := if s = "443" then some 443 else none

/-- The sample with the tunnel as default, on a connection to the domain of its rule. -/
theorem route_kept_sample : ∃ c p imported,
      parseRawSingBox samplePort (.object (sampleRoot "vless-out")) = .ok (some [p]) ∧
      p.rawSingBoxRoute = some imported ∧ decodeConfig (sampleRoot "vless-out") = some c ∧
      (∀ r ∈ c.rules, r.fields.lookup "inbound" = none) ∧ c.verdict (fun _ => true) = some .direct ∧
      (importedVerdict imported (fun _ => true) = some .direct ↔ c.Faithful fun _ => true) := by
  refine ⟨_, _, _, rfl, rfl, rfl, ?_, rfl,
    route_kept_iff samplePort (sampleRoot "vless-out") _ _ _ _
    (fun _ => true) .direct rfl mem_cons_self rfl rfl ?_ rfl⟩
  all_goals
    intro r hr
    obtain rfl := mem_singleton.mp hr
    rfl

/-- With a block outbound as default, a connection no rule matches is REJECTED by the original
    configuration, and the imported route sends it through the tunnel. -/
theorem block_default_becomes_proxy : ∃ c p imported,
      parseRawSingBox samplePort (.object (sampleRoot "block-out")) = .ok (some [p]) ∧
      p.rawSingBoxRoute = some imported ∧ decodeConfig (sampleRoot "block-out") = some c ∧
      (∀ r ∈ c.rules, r.fields.lookup "inbound" = none) ∧
      (∀ r ∈ c.rules, ∀ tag, r.action = .route tag → c.kind? tag ≠ some .dns) ∧
      c.verdict (fun _ => false) = some .reject ∧
      importedVerdict imported (fun _ => false) = some .proxy := by
  refine ⟨_, _, _, rfl, rfl, rfl, ?_, ?_, rfl, rfl⟩
  · intro r hr
    obtain rfl := mem_singleton.mp hr
    rfl
  · intro r hr tag htag
    obtain rfl := mem_singleton.mp hr
    cases htag
    decide

end OlcVpn.SingBox
