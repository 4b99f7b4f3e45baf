/-
  DOES A SECOND SERVER REALLY BECOME THE EXIT of a user's own configuration?

  With a second server `prepareRaw` puts a new outbound, the cascade exit, before all others, chains
  it to the configuration's main proxy, and renames the target of every rule that named the main
  proxy.  For an xhttp main proxy the two are joined over a local relay, which has its own outbound,
  its own inbound and one rule before all others.

  THE SPECIFICATION (`AddsHop`) compares with the configuration the same call gives without a second
  server.  Outbounds are positions; the new ones shift the old ones, and the main proxy's place is
  taken by the exit.  A connection from the app's inbound has to have the redirected exits; the exit
  has to be chained to the main proxy; the core has to start with the configuration; and no rule but
  the relay's may lead to the main proxy.

  THE CRUX: the rename changes neither which rules are for the app's inbound nor their conditions,
  so the SAME rule decides before and after (`find?_triedRules`).  What remains is to look at each
  rule that decides for some connection, and at the default if some connection gets to it.

  `addsHop_iff` is exact.  It fails for a main proxy without a tag, where the default outbound is
  another one and some connection gets to it, where a balancer can pick the main proxy (balancers
  are not rewritten), and where a tag of the cascade is taken.
-/
import OlcVpn.Xray.RawRouting
import OlcVpn.Xray.Tunnel

namespace OlcVpn.Xray

open Kotlin Generate Locations Lib List
open JsonObject (without)
open Option (bind_eq_some_iff map_eq_some_iff getD_some bind_some map_none filter_some_pos
  toList_none filter_none mem_def all_some some)

/-! ## The routing section -/

/-- A rule with the main proxy's tag renamed. -/
def redirectRule (source : String) (rule : JsonObject) : JsonObject :=
  if JsonObject.string rule "outboundTag" = some source then
    rule.map fun field =>
      if field.1 = "outboundTag" then ("outboundTag", .str "cascade-exit") else field
  else rule

theorem string_of_contentAt {o : JsonObject} {name : String} {text : Option String}
    (h : contentAt o name = some text) : JsonObject.string o name = text := by
  unfold JsonObject.string
  rw [contentAt] at h
  cases hlookup : o.lookup name with
  | none =>
    rw [hlookup] at h
    exact some.inj h
  | some value =>
    rw [hlookup] at h
    cases value with
    | null | literal => exact some.inj h
    | array | object => cases h

variable {source t : String} {rule root base : JsonObject} {c : Cascade}
  {tags new : List (Option String)} {i m : Nat} {rt : Runtime} {a : RawArgs}

theorem rewrittenRule_object {rewritten : Json}
    (h : rewrittenRule source "cascade-exit" (.object rule) = some rewritten) :
    rewritten = .object (redirectRule source rule) := by
  obtain ⟨tag, htag, rfl⟩ := map_eq_some_iff.mp h
  rw [redirectRule, string_of_contentAt htag]
  split_ifs <;> rfl

/-- Rewriting the rules changes each by itself. -/
theorem objects_of_rewritten {items rewritten : List Json}
    (h : items.mapM (rewrittenRule source "cascade-exit") = some rewritten) :
    rewritten.filterMap jsonObjectOrNull =
      (items.filterMap jsonObjectOrNull).map (redirectRule source) := by
  have hall := mapM_eq_some_iff.mp h
  clear h
  induction hall with
  | nil => rfl
  | @cons item item' items items' hhead _ ih =>
    cases item with
    | object rule =>
      rw [rewrittenRule_object hhead]
      exact congrArg (redirectRule source rule :: ·) ih
    | null | literal | array =>
      obtain rfl := some.inj hhead
      exact ih

theorem lookup_rules_ne {r : JsonObject} {items : List Json} {name : String} (h : name ≠ "rules") :
    (without r ["rules"] ++ [("rules", Json.array items)]).lookup name = r.lookup name :=
  lookup_replaceLast_ne h

theorem lookup_rules_self (r : JsonObject) (items : List Json) :
    (without r ["rules"] ++ [("rules", Json.array items)]).lookup "rules" = some (.array items) :=
  lookup_replaceLast_self r "rules" _

/-- The relay's rule. -/
def loopRules (c : Cascade) : List JsonObject := if c.loop then [cascadeLoopRule c.mainTag] else []

/-- The routing section of a cascade, against the one without. -/
structure Redirected (c : Cascade) (routing routing' : JsonObject) : Prop where
  rules : objectsOf routing' "rules" =
    loopRules c ++ (objectsOf routing "rules").map (redirectRule c.mainTag)
  rest : ∀ name, name ≠ "rules" → routing'.lookup name = routing.lookup name

/-- The rules after the cascade, one redirected rule for each. -/
theorem redirected_afterCascade {routing rewritten : Option JsonObject}
    (h : routingAfterCascade (some c) routing = some rewritten) :
    objectsOf (rewritten.getD []) "rules" =
        (objectsOf (routing.getD []) "rules").map (redirectRule c.mainTag) ∧
      ∀ name, name ≠ "rules" → (rewritten.getD []).lookup name = (routing.getD []).lookup name := by
  cases routing with
  | none =>
    obtain rfl := some.inj h
    exact ⟨rfl, fun _ _ => rfl⟩
  | some r =>
    obtain ⟨r', hr', rfl⟩ := map_eq_some_iff.mp h
    simp only [getD_some]
    unfold rewriteOutboundTag at hr'
    cases hrules : arrayAt r "rules" with
    | none =>
      rw [hrules] at hr'
      obtain rfl := some.inj hr'
      have hnone : objectsOf r "rules" = [] := by
        rw [arrayAt] at hrules
        rw [objectsOf, hrules]
        rfl
      rw [hnone]
      exact ⟨rfl, fun _ _ => rfl⟩
    | some items =>
      rw [hrules] at hr'
      obtain ⟨items', hitems, rfl⟩ := map_eq_some_iff.mp hr'
      refine ⟨?_, fun name hname => lookup_rules_ne hname⟩
      rw [arrayAt] at hrules
      rw [objectsOf, objectsOf, lookup_rules_self, hrules]
      exact objects_of_rewritten hitems

/-- THE WRITTEN ROUTING is the old one with its targets moved. -/
theorem redirected_toWrite {routing rewritten : Option JsonObject}
    (h : routingAfterCascade (some c) routing = some rewritten) :
    Redirected c (routing.getD []) ((routingToWrite (some c) rewritten).getD []) := by
  obtain ⟨hrules, hrest⟩ := redirected_afterCascade h
  unfold routingToWrite
  cases hloop : c.loop with
  | false =>
    rw [Option.filter_some_neg (by simp [hloop])]
    exact ⟨by simp [loopRules, hloop, hrules], hrest⟩
  | true =>
    rw [filter_some_pos hloop]
    refine ⟨?_, fun name hname => ?_⟩
    · simp only [getD_some]
      rw [objectsOf, lookup_rules_self]
      simp only [bind_some, jsonArrayOrNull, getD_some]
      rw [filterMap_cons_some (show jsonObjectOrNull (.object _) = some _ from rfl), loopRules,
        hloop, if_pos rfl, ← hrules]
      rfl
    · simp only [getD_some]
      rw [lookup_rules_ne hname]
      exact hrest name hname

/-! ## The rule that decides -/

theorem lookup_redirectRule_ne {name : String} (h : name ≠ "outboundTag") :
    (redirectRule source rule).lookup name = rule.lookup name := by
  unfold redirectRule
  split_ifs
  · rw [JsonObject.lookup_map_replaced, if_neg h]
  · rfl

/-- A redirected rule matches what it matched. -/
theorem inboundAccepts_redirectRule (source tag : String) (rule : JsonObject) :
    inboundAccepts tag (redirectRule source rule) = inboundAccepts tag rule := by
  unfold inboundAccepts tagsAt
  rw [lookup_redirectRule_ne (by decide)]

theorem ruleKey_redirectRule (source : String) (rule : JsonObject) :
    ruleKey (redirectRule source rule) = ruleKey rule := by
  unfold redirectRule
  split_ifs with hsource
  · clear hsource
    unfold ruleKey without
    induction rule with
    | nil => rfl
    | cons field rule ih =>
      rw [map_cons]
      by_cases hk : field.1 = "outboundTag"
      · rw [if_pos hk, filter_cons_of_neg (by decide), filter_cons_of_neg (by simp [hk]), ih]
      · rw [if_neg hk, filter_cons, filter_cons, ih]
  · rfl

/-- The relay's rule is not for the app's inbound. -/
theorem loopRule_not_accepted (h : rule ∈ loopRules c) :
    inboundAccepts "socks-in" rule = false := by
  unfold loopRules at h
  split_ifs at h
  · rw [mem_singleton.mp h]
    rfl
  · simp at h

/-- What the app's connections find first is the redirected rule they found before. -/
theorem find?_triedRules (core : Core) {routing routing' : JsonObject}
    (h : Redirected c routing routing') (conn : core.Connection) :
    (triedRules routing').find? (core.accepts "socks-in" conn) =
      ((triedRules routing).find? (core.accepts "socks-in" conn)).map
        fun r => (r.1, redirectRule c.mainTag r.2) := by
  generalize hp : core.accepts "socks-in" conn = p
  have hpasses : passes routing' = passes routing := by
    unfold passes JsonObject.string
    rw [h.rest "domainStrategy" (by decide)]
  have hloop : ∀ pass, ((loopRules c).map fun rule => (pass, rule)).find? p = none := by
    intro pass
    rw [find?_eq_none]
    intro r hr
    obtain ⟨rule, hrule, rfl⟩ := mem_map.mp hr
    simp [← hp, Core.accepts, loopRule_not_accepted hrule]
  have hrules : ∀ pass (rules : List JsonObject),
      (rules.map fun rule => (pass, redirectRule c.mainTag rule)).find? p =
        ((rules.map fun rule => (pass, rule)).find? p).map
          fun r => (r.1, redirectRule c.mainTag r.2) := by
    intro pass rules
    have hsame : (p ∘ fun rule => (pass, redirectRule c.mainTag rule)) = p ∘ fun rule =>
      (pass, rule) := by
      funext rule
      simp [← hp, Core.accepts, ruleKey_redirectRule, inboundAccepts_redirectRule]
    rw [find?_map, find?_map, hsame, Option.map_map]
    rfl
  unfold triedRules
  rw [hpasses, h.rules]
  -- pass after pass
  induction passes routing with
  | nil => rfl
  | cons pass rest ih =>
    rw [flatMap_cons, flatMap_cons, find?_append, find?_append, ih, map_append,
      find?_append, hloop, Option.none_or, map_map]
    rw [Function.comp_def, hrules pass (objectsOf routing "rules")]
    cases ((objectsOf routing "rules").map fun rule => (pass, rule)).find? p <;> rfl

/-! ## Positions -/

theorem DistinctTags.eq_of_getElem? (h : DistinctTags tags) {j : Nat}
    (hi : tags[i]? = some (some t)) (hj : tags[j]? = some (some t)) : i = j := by
  have hpair := pairwise_filterMap.mp h
  rw [pairwise_iff_getElem] at hpair
  have hne : ∀ {i j : Nat}, tags[i]? = some (some t) → tags[j]? = some (some t) → ¬ i < j := by
    intro i j hi hj hlt
    obtain ⟨hil, hi⟩ := List.getElem?_eq_some_iff.mp hi
    obtain ⟨hjl, hj⟩ := List.getElem?_eq_some_iff.mp hj
    exact hpair i j hil hjl hlt t (by simp [hi]) t (by simp [hj]) rfl
  have h1 := hne hi hj
  have h2 := hne hj hi
  omega

theorem getElem?_of_positionOf (h : positionOf tags t = some i) : tags[i]? = some (some t) := by
  obtain ⟨hlt, hi, -⟩ := findIdx?_eq_some_iff_getElem.mp h
  rw [getElem?_eq_getElem hlt]
  simpa using hi

/-- With distinct tags a position is the place of its tag. -/
theorem positionOf_eq_some_iff (h : DistinctTags tags) :
    positionOf tags t = some i ↔ tags[i]? = some (some t) := by
  refine ⟨getElem?_of_positionOf, fun hi => ?_⟩
  cases hpos : positionOf tags t with
  | none =>
    have hall := findIdx?_eq_none_iff.mp hpos _ (mem_of_getElem? hi)
    simp at hall
  | some j => rw [h.eq_of_getElem? hi (getElem?_of_positionOf hpos)]

/-- New tags in front shift the positions of all others. -/
theorem positionOf_append (h : some t ∉ new) :
    positionOf (new ++ tags) t = (positionOf tags t).map (· + new.length) := by
  have hnew : new.findIdx? (fun x => decide (x = some t)) = none := by
    rw [findIdx?_eq_none_iff]
    intro x hx
    have hne : x ≠ some t := by
      rintro rfl
      exact h hx
    simpa using hne
  unfold positionOf
  rw [findIdx?_append, hnew]
  rfl

theorem DistinctTags.right (h : DistinctTags (new ++ tags)) : DistinctTags tags := by
  unfold DistinctTags at h ⊢
  rw [filterMap_append] at h
  exact (nodup_append.mp h).2.1

/-- A new tag is no old one. -/
theorem DistinctTags.not_mem (h : DistinctTags (new ++ tags)) (hnew : some t ∈ new) :
    some t ∉ tags := by
  unfold DistinctTags at h
  rw [filterMap_append] at h
  intro htags
  have hdisjoint := (nodup_append.mp h).2.2
  exact hdisjoint t (mem_filterMap.mpr ⟨_, hnew, rfl⟩) t (mem_filterMap.mpr ⟨_, htags, rfl⟩)
    rfl

/-! ## The specification -/

/-- Where the exits of a connection are with a second server: the main proxy's place, `m`, is taken
    by the cascade exit, which comes first; the others are shifted. -/
def redirected (m shift : Nat) : Option Nat → Option Nat
  | some i => if i = m then some 0 else some (i + shift)
  | none => none

/-- The exits afterwards are the redirected ones. -/
def Moves (m shift : Nat) (before after : List (Option Nat)) : Prop :=
  (∀ e ∈ after, ∃ b ∈ before, redirected m shift b = e) ∧ ∀ b ∈ before, redirected m shift b ∈ after

/-- How many outbounds were put in front. -/
def shiftOf (base out : JsonObject) : Nat :=
  (objectsOf out "outbounds").length - (objectsOf base "outbounds").length

/-- The second hop is really there, for a main proxy that stood at `m` before. -/
structure AddsHop (core : Core) (base out : JsonObject) (m : Nat) : Prop where
  added : (objectsOf base "outbounds").length < (objectsOf out "outbounds").length
  loads : core.Loads out
  /-- The first outbound dials through the main proxy, directly or over the relay. -/
  chained : ∃ exit ∈ (objectsOf out "outbounds").head?, ∃ t,
    positionOf (outboundTagList out) t = some (m + shiftOf base out) ∧
      (dialsThrough exit = some t ∨ dialsThrough exit = some "cascade-loop-out" ∧
        cascadeLoopRule t ∈ objectsOf (routingOf out) "rules")
  sent : ∀ conn, Moves m (shiftOf base out) (core.sentTo base "socks-in" conn)
    (core.sentTo out "socks-in" conn)
  /-- Only the relay's rule leads to the main proxy. -/
  spared : ∀ rule ∈ objectsOf (routingOf out) "rules", (∀ t, rule ≠ cascadeLoopRule t) →
    some (m + shiftOf base out) ∉ core.exitsOf out rule

/-! ## The condition -/

def isProxyOutbound (o : JsonObject) : Bool :=
  (JsonObject.string o "protocol").any fun t => lowercase t ∈ cascadeTypes

/-- Where the main proxy stands. -/
def mainPosition (root : JsonObject) : Option Nat :=
  (objectsOf root "outbounds").findIdx? isProxyOutbound

def mainOf (root : JsonObject) : Option JsonObject :=
  (objectsOf root "outbounds").find? isProxyOutbound

/-- The main proxy is reached over the relay. -/
def relayed (root : JsonObject) : Bool :=
  (mainOf root).any fun o => ((objectAt o "streamSettings").bind
    (JsonObject.string · "network")).any
    fun n => lowercase n ∈ ["xhttp", "splithttp"]

def newTags (loop : Bool) : List (Option String) :=
  some "cascade-exit" :: if loop then [some "cascade-loop-out"] else []

/-- What decides for some connection through the app's inbound: a rule, or the default (`none`). -/
def Reached (core : Core) (config : JsonObject) (o : Option (Pass × JsonObject)) : Prop :=
  ∃ conn, (triedRules (routingOf config)).find? (core.accepts "socks-in" conn) = o

/-- The balancer a rule leads to. -/
def balancerOf (config rule : JsonObject) : Option JsonObject :=
  if targetTag rule "outboundTag" = none then
    (targetTag rule "balancerTag").bind fun name =>
      (objectsOf (routingOf config) "balancers").find? fun b => targetTag b "tag" = some name
  else none

/-- What a configuration has to be like for a second server to become its exit. -/
structure CascadeSafe (core : Core) (root base : JsonObject) (m : Nat) : Prop where
  tagged : ((mainOf root).bind (targetTag · "tag")).isSome = true
  /-- The tags of the new outbounds are free, and so is the one of the relay's inbound. -/
  distinct : DistinctTags (newTags (relayed root) ++ outboundTagList base)
  inbound : relayed root = true → some "cascade-loop-in" ∉ inboundTagList base
  /-- The default is the main proxy, where a connection gets to it. -/
  default : Reached core base none → m = 0
  /-- No rule names one of the new outbounds. -/
  named : ∀ r, Reached core base (some r) → ∀ t ∈ targetTag r.2 "outboundTag",
    some t ∉ newTags (relayed root)
  /-- A balancer would have to pick the exit in place of the main proxy by itself. -/
  balanced : ∀ r, Reached core base (some r) → ∀ b ∈ balancerOf base r.2,
    Moves m (newTags (relayed root)).length (core.balancerExits (outboundTagList base) b)
      (core.balancerExits (newTags (relayed root) ++ outboundTagList base) b)
  spared : ∀ rule ∈ objectsOf (routingOf base) "rules", ∀ b ∈ balancerOf base rule,
    some (m + (newTags (relayed root)).length) ∉
      core.balancerExits (newTags (relayed root) ++ outboundTagList base) b

/-! ## The two prepared configurations -/

theorem firstWhere_eq_find? {l : List JsonObject} {found : Option JsonObject}
    (h : firstWhere isProxyProtocol l = some found) : found = l.find? isProxyOutbound := by
  have htest : ∀ {o : JsonObject} {hit : Bool}, isProxyProtocol o = some hit →
      isProxyOutbound o = hit := by
    intro o hit ho
    obtain ⟨protocol, hprotocol, rfl⟩ := map_eq_some_iff.mp ho
    rw [isProxyOutbound, string_of_contentAt hprotocol]
  induction l with
  | nil => exact (some.inj h).symm
  | cons o l ih =>
    obtain ⟨hit, hhit, h⟩ := bind_eq_some_iff.mp h
    rw [find?_cons, htest hhit]
    cases hit with
    | true => exact (some.inj h).symm
    | false => exact ih h

/-- What the cascade is, for the main proxy. -/
theorem cascade_spec {main : JsonObject} {second : ServerProfile} {c : Option Cascade}
    (hsecond : cascadeSecond a = some second) (hmain : mainOf root = some main)
    (h : cascade rt a (objectsOf root "outbounds") = some c) :
    c = (JsonObject.string main "tag").map fun t =>
      { exit := buildProxyOutbound rt second {} (cascadeHop second t (relayed root))
        mainTag := t
        loop := relayed root } := by
  obtain ⟨found, hfound, h⟩ := bind_eq_some_iff.mp h
  obtain rfl : some main = found := by
    rw [firstWhere_eq_find? hfound, ← hmain]
    rfl
  obtain ⟨tag, htag, h⟩ := bind_eq_some_iff.mp h
  obtain ⟨loop, hloop, rfl⟩ := map_eq_some_iff.mp h
  have hrelayed : relayed root = loop := by
    rw [relayed, hmain, Option.any_some]
    unfold isXhttpOutbound at hloop
    cases hstream : objectAt main "streamSettings" with
    | none =>
      rw [hstream] at hloop
      exact some.inj hloop
    | some stream =>
      rw [hstream] at hloop
      obtain ⟨network, hnetwork, rfl⟩ := map_eq_some_iff.mp hloop
      rw [bind_some, string_of_contentAt hnetwork]
  rw [hsecond, hrelayed, string_of_contentAt htag]
  rfl

/-- The outbounds a cascade puts in front. -/
def frontOutbounds (a : RawArgs) (c : Option Cascade) : List JsonObject :=
  (c.map Cascade.exit).toList ++ ((c.filter Cascade.loop).map fun _ => rawLoopOutbound a).toList

/-- The same call with and without the second server. -/
theorem parts_pair {pb po : RawParts}
    (hb : prepareParts rt { a with secondProfile := none } root = some pb)
    (ho : prepareParts rt a root = some po) :
    ∃ c rewritten rest, cascade rt a (objectsOf root "outbounds") = some c ∧
      routingAfterCascade c pb.routing = some rewritten ∧ po.routing = routingToWrite c rewritten ∧
      po.outbounds = frontOutbounds a c ++ rest ∧
      rest.map (targetTag · "tag") = pb.outbounds.map (targetTag · "tag") ∧
      (∃ appended, pb.outbounds.map (targetTag · "tag") = outboundTagList root ++ appended) ∧
      ∃ socks others, targetTag socks "tag" = some "socks-in" ∧ pb.inbounds = socks :: others ∧
        po.inbounds = socks :: (((c.filter Cascade.loop).map fun _ =>
          cascadeLoopInbound a.cascadeLoopPort).toList ++ others) := by
  rw [prepareParts] at hb ho
  generalize liftHostsIntoRouting (objectAt root "dns") (objectAt root "routing") = lifted at hb ho
  obtain ⟨configDns, userRouting⟩ := lifted
  simp only [Option.bind_eq_bind, bind_eq_some_iff] at hb ho
  obtain ⟨inbounds, hin, sniffing, hsn, tags, htags, c, hc, merged, hmerged, stripped, hstripped,
    rewritten, hrewritten, tuned, htuned, hparts⟩ := ho
  obtain ⟨inbounds', hin', sniffing', hsn', tags', htags', c', hc', merged', hmerged', stripped',
    hstripped', rewritten', hrewritten', tuned', htuned', hparts'⟩ := hb
  obtain rfl := cascade_of_none rfl hc'
  obtain rfl : inbounds = inbounds' := some.inj (hin.symm.trans hin')
  obtain rfl : sniffing = sniffing' := some.inj (hsn.symm.trans hsn')
  obtain rfl : tags = tags' := some.inj (htags.symm.trans htags')
  obtain rfl : merged = merged' := some.inj (hmerged.symm.trans hmerged')
  obtain rfl : stripped = stripped' := some.inj (hstripped.symm.trans hstripped')
  obtain rfl : stripped = rewritten' := some.inj hrewritten'
  obtain rfl := some.inj hparts
  obtain rfl := some.inj hparts'
  have hown := map_targetTag_tuned htuned
  have hown' := map_targetTag_tuned htuned'
  refine ⟨c, rewritten, tuned ++ addedOutbounds (a.injectFake root) merged.isSome tags,
    hc, hrewritten, rfl, append_assoc _ _ _, ?_,
    ⟨(addedOutbounds (a.injectFake root) merged.isSome tags).map (targetTag · "tag"), ?_⟩,
    rawSocksInbound a sniffing, nonSocks inbounds, rfl, rfl, append_assoc _ _ _⟩
  · simp only [rawOutbounds, map_append, hown, hown', map_none, toList_none, nil_append,
      filter_none]
    rfl
  · simp only [rawOutbounds, map_append, hown', map_none, toList_none, nil_append, filter_none]
    rfl

/-! ## One rule -/

/-- Of one exit: it is moved to the second hop, or keeps its outbound. -/
theorem moves_single {shift : Nat} {b e : Option Nat} :
    Moves m shift [b] [e] ↔ redirected m shift b = e := by
  simp only [Moves, mem_singleton, exists_eq_left, forall_eq]
  exact and_iff_left_of_imp id

theorem lookup_redirectRule_self (h : JsonObject.string rule "outboundTag" = some source) :
    (redirectRule source rule).lookup "outboundTag" = some (.str "cascade-exit") := by
  rw [redirectRule, if_pos h, JsonObject.lookup_map_replaced, if_pos rfl]
  unfold JsonObject.string at h
  cases hl : rule.lookup "outboundTag" with
  | none => simp [hl] at h
  | some value => rfl

theorem string_of_targetTag {name : String} (h : targetTag rule name = some t) :
    JsonObject.string rule name = some t ∧ t ≠ "" := by
  obtain ⟨hstring, hne⟩ := Option.filter_eq_some_iff.mp h
  exact ⟨hstring, by simpa using hne⟩

/-- Only rules to the main outbound are sent to the exit of the cascade. -/
theorem targetTag_redirectRule (source : String) (rule : JsonObject) :
    targetTag (redirectRule source rule) "outboundTag" =
      if JsonObject.string rule "outboundTag" = some source then some "cascade-exit"
      else targetTag rule "outboundTag" := by
  split_ifs with h
  · rw [targetTag, JsonObject.string, lookup_redirectRule_self h]
    decide
  · rw [redirectRule, if_neg h]

section Rule

/-- A redirected rule loads if the rule does. -/
theorem ruleLoads_redirectRule {core : Core} {balancers : List JsonObject}
    (h : core.ruleLoads balancers rule = true) :
    core.ruleLoads balancers (redirectRule source rule) = true := by
  have htagged : (targetTag rule "outboundTag").isSome = true →
      (targetTag (redirectRule source rule) "outboundTag").isSome = true := by
    intro hsome
    rw [targetTag_redirectRule]
    split_ifs
    · rfl
    · exact hsome
  have hbalancer : targetTag (redirectRule source rule) "balancerTag" =
      targetTag rule "balancerTag" := by
    rw [targetTag, targetTag, JsonObject.string, JsonObject.string,
      lookup_redirectRule_ne (by decide)]
  unfold Core.ruleLoads at h ⊢
  rw [ruleKey_redirectRule, hbalancer, tagsAt, lookup_redirectRule_ne (by decide), ← tagsAt]
  obtain ⟨hcondition, htarget⟩ := Bool.and_eq_true_iff.mp h
  refine Bool.and_eq_true_iff.mpr ⟨hcondition, Bool.or_eq_true_iff.mpr ?_⟩
  exact (Bool.or_eq_true_iff.mp htarget).imp_left htagged

/-- The relay's rule loads: it has an inbound and a target. -/
theorem ruleLoads_loopRule {core : Core} {balancers : List JsonObject} (h : source ≠ "") :
    core.ruleLoads balancers (cascadeLoopRule source) = true := by
  have htarget : targetTag (cascadeLoopRule source) "outboundTag" = some source :=
    filter_some_pos (by simpa using h)
  have hinbound : tagsAt (cascadeLoopRule source) "inboundTag" = ["cascade-loop-in"] := rfl
  simp [Core.ruleLoads, htarget, hinbound]

variable {core : Core} {config : JsonObject}
  {tags : List (Option String)} {loop : Bool} {m : Nat} {main : String}
  (hdistinct : DistinctTags (newTags loop ++ tags)) (hm : tags[m]? = some (some main))
    (hmain : main ≠ "")

/-- Where a rule sends a connection: its outbound, or one its balancer picks. -/
theorem exits_eq (rule : JsonObject) :
    core.exits tags (objectsOf (routingOf config) "balancers") rule =
      match targetTag rule "outboundTag" with
      | some t => [positionOf tags t]
      | none => ((balancerOf config rule).map (core.balancerExits tags)).getD [] := by
  unfold Core.exits balancerOf
  cases targetTag rule "outboundTag" with
  | some t => rfl
  | none =>
    cases targetTag rule "balancerTag" <;> rfl

theorem balancerOf_of_target {rule : JsonObject} {t : String}
    (h : targetTag rule "outboundTag" = some t) : balancerOf config rule = none := by
  rw [balancerOf, if_neg (by simp [h])]

include hmain in
/-- A rule that names no outbound is not rewritten. -/
theorem redirectRule_of_none {rule : JsonObject}
    (h : targetTag rule "outboundTag" = none) : redirectRule main rule = rule := by
  rw [redirectRule, if_neg]
  intro hstring
  rw [targetTag, hstring, filter_some_pos (by simpa using hmain)] at h
  cases h

/-- The new outbounds come first, so the old ones are shifted by them. -/
theorem getElem?_shifted : (newTags loop ++ tags)[m + (newTags loop).length]? = tags[m]? := by
  rw [getElem?_append_right (Nat.le_add_left _ _), Nat.add_sub_cancel]

/-- The exit of the cascade is the first outbound. -/
theorem positionOf_exit : positionOf (newTags loop ++ tags) "cascade-exit" = some 0 := by
  simp [positionOf, newTags, findIdx?_cons]

include hdistinct hm hmain

/-- A rule moves exactly if it names none of the new outbounds, and its balancer moves. -/
theorem rule_moves_iff (rule : JsonObject) : Moves m (newTags loop).length
        (core.exits tags (objectsOf (routingOf config) "balancers") rule)
        (core.exits (newTags loop ++ tags) (objectsOf (routingOf config) "balancers")
          (redirectRule main rule)) ↔ (∀ t ∈ targetTag rule "outboundTag", some t ∉ newTags loop) ∧
        ∀ b ∈ balancerOf config rule, Moves m (newTags loop).length (core.balancerExits tags b)
          (core.balancerExits (newTags loop ++ tags) b) := by
  have hmainNew : some main ∉ newTags loop := fun h => hdistinct.not_mem h (mem_of_getElem? hm)
  cases htarget : targetTag rule "outboundTag" with
  | none =>
    rw [redirectRule_of_none hmain htarget, exits_eq, exits_eq, htarget]
    cases hb : balancerOf config rule with
    | none => simp [Moves]
    | some b => simp
  | some t =>
    obtain ⟨hstring, -⟩ := string_of_targetTag htarget
    have hbalancer : balancerOf config rule = none := balancerOf_of_target htarget
    have hleft : core.exits tags (objectsOf (routingOf config) "balancers") rule =
        [positionOf tags t] := by rw [exits_eq, htarget]
    have hredirected := targetTag_redirectRule main rule
    rw [hstring, htarget] at hredirected
    by_cases ht : t = main
    · -- the main proxy: the rule is renamed
      subst ht
      rw [if_pos rfl] at hredirected
      rw [hleft, exits_eq, hredirected]
      simp only [moves_single, positionOf_exit, hbalancer]
      rw [(positionOf_eq_some_iff hdistinct.right).mpr hm]
      simp [redirected, hmainNew]
    · rw [if_neg (by simpa using ht)] at hredirected
      rw [hleft, exits_eq, hredirected]
      simp only [moves_single, hbalancer]
      by_cases hnew : some t ∈ newTags loop
      · -- a new outbound: before, the tag named nothing
        have hnone : positionOf tags t = none := by
          refine Option.eq_none_iff_forall_ne_some.mpr fun i hpos => hdistinct.not_mem hnew ?_
          exact mem_of_getElem? (getElem?_of_positionOf hpos)
        have hsome : positionOf (newTags loop ++ tags) t ≠ none := by
          intro hnone'
          have hall := findIdx?_eq_none_iff.mp hnone' _ (mem_append_left _ hnew)
          simp at hall
        rw [hnone]
        simp only [redirected, mem_def, some.injEq, forall_eq', hnew,
          not_true_eq_false, false_and, iff_false]
        exact fun e => hsome e.symm
      · rw [positionOf_append hnew]
        have hne : positionOf tags t ≠ some m := by
          intro hpos
          have hget := getElem?_of_positionOf hpos
          rw [hm] at hget
          exact ht (some.inj (some.inj hget)).symm
        cases hpos : positionOf tags t with
        | none => simp [redirected, hnew]
        | some i =>
          have hi : i ≠ m := fun e => hne (e ▸ hpos)
          simp [redirected, hnew, hi]

/-- A rewritten rule leads to the main proxy only if its balancer does. -/
theorem rule_spares (rule : JsonObject) :
    some (m + (newTags loop).length) ∈ core.exits (newTags loop ++ tags)
        (objectsOf (routingOf config) "balancers") (redirectRule main rule) ↔
      ∃ b ∈ balancerOf config rule, some (m + (newTags loop).length) ∈
        core.balancerExits (newTags loop ++ tags) b := by
  have hexit : main ≠ "cascade-exit" := by
    rintro rfl
    exact hdistinct.not_mem (show some "cascade-exit" ∈ newTags loop by simp [newTags])
      (mem_of_getElem? hm)
  have hshift : (newTags loop ++ tags)[m + (newTags loop).length]? = some (some main) :=
    getElem?_shifted.trans hm
  cases htarget : targetTag rule "outboundTag" with
  | none =>
    rw [redirectRule_of_none hmain htarget, exits_eq, htarget]
    cases balancerOf config rule <;> simp
  | some t =>
    obtain ⟨hstring, -⟩ := string_of_targetTag htarget
    rw [balancerOf_of_target htarget]
    simp only [mem_def, reduceCtorEq, false_and, exists_false, iff_false]
    rw [exits_eq, targetTag_redirectRule, hstring]
    intro hin
    split_ifs at hin with ht
    · have hget := getElem?_of_positionOf (mem_singleton.mp hin).symm
      rw [hshift] at hget
      exact hexit (some.inj (some.inj hget))
    · rw [htarget] at hin
      have hget := getElem?_of_positionOf (mem_singleton.mp hin).symm
      rw [hshift] at hget
      exact ht (congrArg some (some.inj (some.inj hget)).symm)

end Rule

/-! ## Whole configurations -/

/-- The tags of the inbounds a cascade adds. -/
def relayTags (loop : Bool) : List (Option String) :=
  if loop then [some "cascade-loop-in"] else []

/-- Two configurations of which the second is the first one with a cascade in front. -/
structure Cascaded (c : Cascade) (base out : JsonObject) : Prop where
  tags : outboundTagList out = newTags c.loop ++ outboundTagList base
  inbounds : ∃ others, inboundTagList base = some "socks-in" :: others ∧
    inboundTagList out = some "socks-in" :: (relayTags c.loop ++ others)
  routing : Redirected c (routingOf base) (routingOf out)
  front : (objectsOf out "outbounds").head? = some c.exit

theorem Cascaded.shift {out : JsonObject} (h : Cascaded c base out) :
    shiftOf base out = (newTags c.loop).length := by
  have hlength := congrArg List.length h.tags
  simp only [outboundTagList, length_map, length_append] at hlength
  rw [shiftOf]
  omega

/-- Balancers are left alone. -/
theorem Cascaded.balancers {out : JsonObject} (h : Cascaded c base out) :
    objectsOf (routingOf out) "balancers" = objectsOf (routingOf base) "balancers" := by
  rw [objectsOf, h.routing.rest "balancers" (by decide)]
  rfl

section Whole

variable {core : Core} {c : Cascade}
    {base out : JsonObject} {m : Nat}
  (h : Cascaded c base out) (hdistinct : DistinctTags (newTags c.loop ++ outboundTagList base))
  (hm : (outboundTagList base)[m]? = some (some c.mainTag)) (hmain : c.mainTag ≠ "")
include h hdistinct hm hmain

/-- What the app's connections are sent to moves exactly if every rule that decides for one moves,
    and the default if it does. -/
theorem sent_iff :
    (∀ conn, Moves m (shiftOf base out) (core.sentTo base "socks-in" conn)
        (core.sentTo out "socks-in" conn)) ↔
      (Reached core base none → m = 0) ∧
      (∀ r, Reached core base (some r) → ∀ t ∈ targetTag r.2 "outboundTag",
        some t ∉ newTags c.loop) ∧
      ∀ r, Reached core base (some r) → ∀ b ∈ balancerOf base r.2,
        Moves m (newTags c.loop).length (core.balancerExits (outboundTagList base) b)
          (core.balancerExits (newTags c.loop ++ outboundTagList base) b) := by
  let before := fun r : Pass × JsonObject => core.exits (outboundTagList base)
    (objectsOf (routingOf base) "balancers") r.2
  let after := fun r : Pass × JsonObject => core.exits (newTags c.loop ++ outboundTagList base)
    (objectsOf (routingOf base) "balancers") (redirectRule c.mainTag r.2)
  let P := fun o : Option (Pass × JsonObject) => Moves m (newTags c.loop).length
    ((o.map before).getD [defaultExit (outboundTagList base)])
    ((o.map after).getD [defaultExit (newTags c.loop ++ outboundTagList base)])
  have hsent : (∀ conn, Moves m (shiftOf base out) (core.sentTo base "socks-in" conn)
      (core.sentTo out "socks-in" conn)) ↔ ∀ o, Reached core base o → P o := by
    have hout : ∀ conn, core.sentTo out "socks-in" conn =
        (((triedRules (routingOf base)).find? (core.accepts "socks-in" conn)).map after).getD
          [defaultExit (newTags c.loop ++ outboundTagList base)] := by
      intro conn
      simp only [Core.sentTo, Core.decided, firstMatch, Core.exitsOf]
      rw [find?_triedRules core h.routing, h.tags, h.balancers, Option.map_map]
      rfl
    rw [h.shift]
    simp only [hout]
    constructor
    · rintro hall _ ⟨conn, rfl⟩
      exact hall conn
    · intro hall conn
      exact hall _ ⟨conn, rfl⟩
  have hdefault : P none ↔ m = 0 := by
    have hne : outboundTagList base ≠ [] := by
      intro hnil
      simp [hnil] at hm
    have hpos : 0 < (newTags c.loop).length := by simp [newTags]
    have hempty : (outboundTagList base).isEmpty = false := by simpa using hne
    have hempty' : (newTags c.loop ++ outboundTagList base).isEmpty = false := by simp [newTags]
    simp only [P, map_none, Option.getD_none, moves_single, defaultExit, hempty, hempty',
      Bool.false_eq_true, if_false, redirected]
    split_ifs with h0
    · simp [h0.symm]
    · simp only [some.injEq]
      omega
  have hrule : ∀ r, P (some r) ↔ (∀ t ∈ targetTag r.2 "outboundTag", some t ∉ newTags c.loop) ∧
      ∀ b ∈ balancerOf base r.2, Moves m (newTags c.loop).length
        (core.balancerExits (outboundTagList base) b)
        (core.balancerExits (newTags c.loop ++ outboundTagList base) b) :=
    fun r => rule_moves_iff hdistinct hm hmain r.2
  rw [hsent]
  constructor
  · intro hall
    exact ⟨fun hn => hdefault.mp (hall _ hn), fun r hr => ((hrule r).mp (hall _ hr)).1,
      fun r hr => ((hrule r).mp (hall _ hr)).2⟩
  · rintro ⟨hn, hnamed, hbalanced⟩ o ho
    cases o with
    | none => exact hdefault.mpr (hn ho)
    | some r => exact (hrule r).mpr ⟨hnamed r ho, hbalanced r ho⟩

/-- Only the relay's rule leads to the main proxy exactly if no rule's balancer can pick it. -/
theorem spared_iff :
    (∀ rule ∈ objectsOf (routingOf out) "rules", (∀ t, rule ≠ cascadeLoopRule t) →
        some (m + shiftOf base out) ∉ core.exitsOf out rule) ↔
      ∀ rule ∈ objectsOf (routingOf base) "rules", ∀ b ∈ balancerOf base rule,
        some (m + (newTags c.loop).length) ∉
          core.balancerExits (newTags c.loop ++ outboundTagList base) b := by
  have hexits : ∀ rule, some (m + shiftOf base out) ∈ core.exitsOf out
      (redirectRule c.mainTag rule) ↔
      ∃ b ∈ balancerOf base rule, some (m + (newTags c.loop).length) ∈
        core.balancerExits (newTags c.loop ++ outboundTagList base) b := by
    intro rule
    rw [Core.exitsOf, h.tags, h.balancers, h.shift]
    exact rule_spares hdistinct hm hmain rule
  rw [h.routing.rules]
  constructor
  · intro hall rule hrule b hb hin
    refine hall (redirectRule c.mainTag rule)
      (mem_append_right _ (mem_map_of_mem hrule)) ?_ ((hexits rule).mpr ⟨b, hb, hin⟩)
    -- a rule with a balancer is not the relay's
    intro t heq
    have hbalancer : balancerOf base rule ≠ none := by
      rw [mem_def.mp hb]
      simp
    have htarget : targetTag rule "balancerTag" = none := by
      have hlookup : (redirectRule c.mainTag rule).lookup "balancerTag" =
          rule.lookup "balancerTag" :=
        lookup_redirectRule_ne (by decide)
      rw [heq] at hlookup
      rw [targetTag, JsonObject.string, ← hlookup]
      rfl
    rw [balancerOf, htarget] at hbalancer
    simp at hbalancer
  · intro hall rule hrule hnot hin
    rcases mem_append.mp hrule with hloop | hmap
    · unfold loopRules at hloop
      split_ifs at hloop
      · exact hnot _ (mem_singleton.mp hloop)
      · simp at hloop
    · obtain ⟨rule', hrule', rfl⟩ := mem_map.mp hmap
      obtain ⟨b, hb, hin'⟩ := (hexits rule').mp hin
      exact hall rule' hrule' b hb hin'

omit hdistinct hm in
/-- The core starts with the cascade exactly if the new tags are free. -/
theorem loads_iff (hloads : core.Loads base) :
    core.Loads out ↔ DistinctTags (newTags c.loop ++ outboundTagList base) ∧
      (c.loop = true → some "cascade-loop-in" ∉ inboundTagList base) := by
  obtain ⟨others, hbase, hout⟩ := h.inbounds
  have hinbounds : DistinctTags (inboundTagList out) ↔
      (c.loop = true → some "cascade-loop-in" ∉ inboundTagList base) := by
    have hdistinct := hloads.inbounds
    rw [hbase] at hdistinct ⊢
    rw [hout, relayTags]
    cases c.loop with
    | false => simp [hdistinct]
    | true =>
      simp only [distinctTags_cons_iff] at hdistinct
      simp [distinctTags_cons_iff, hdistinct.1, hdistinct.2]
  have hrules : ∀ rule ∈ objectsOf (routingOf out) "rules",
      core.ruleLoads (objectsOf (routingOf out) "balancers") rule = true := by
    intro rule hrule
    rw [h.routing.rules] at hrule
    rw [h.balancers]
    rcases mem_append.mp hrule with hloop | hmap
    · unfold loopRules at hloop
      split_ifs at hloop
      · rw [mem_singleton.mp hloop]
        exact ruleLoads_loopRule hmain
      · simp at hloop
    · obtain ⟨rule', hrule', rfl⟩ := mem_map.mp hmap
      exact ruleLoads_redirectRule (hloads.rules rule' hrule')
  rw [← hinbounds, ← h.tags]
  exact ⟨fun h => ⟨h.outbounds, h.inbounds⟩, fun h => ⟨h.2, h.1, hrules⟩⟩

end Whole

/-- The main outbound stands at its position. -/
theorem main_of_position (h : mainPosition root = some m) :
    ∃ main, mainOf root = some main ∧ (objectsOf root "outbounds")[m]? = some main := by
  obtain ⟨hlt, hhit, hbefore⟩ := findIdx?_eq_some_iff_getElem.mp h
  refine ⟨_, find?_eq_some_iff_getElem.mpr ⟨hhit, m, hlt, rfl, ?_⟩, getElem?_eq_getElem hlt⟩
  intro j hj
  simpa using hbefore j hj

theorem cascadeHop_tag (second : ServerProfile) (main : String) (loop : Bool) :
    (cascadeHop second main loop).tag = "cascade-exit" := by
  unfold cascadeHop
  split_ifs <;> rfl

/-- The exit dials through the main proxy, or through the relay. -/
theorem dialsThrough_exit {second : ServerProfile} (htype : second.type ∈ cascadeTypes)
    (main : String) (loop : Bool) :
    dialsThrough (buildProxyOutbound rt second {} (cascadeHop second main loop)) =
      some (if loop then "cascade-loop-out" else main) := by
  have hsocks : isLocalSocks second = false := by
    rw [isLocalSocks, decide_eq_false]
    intro h
    rw [h] at htype
    exact absurd htype (by decide)
  have hdetour : (cascadeHop second main loop).detourTag =
      some (if loop then "cascade-loop-out" else main) := by
    unfold cascadeHop
    split_ifs <;> rfl
  rw [dialsThrough_hop hdetour, unchained, hsocks]
  rfl

/-- The configurations a call gives without and with a second server. -/
theorem cascaded_of_parts {main : JsonObject} {second : ServerProfile} {pb po : RawParts}
    (hsecond : cascadeSecond a = some second) (hmain : mainOf root = some main)
    (hm : (objectsOf root "outbounds")[m]? = some main)
    (hb : prepareParts rt { a with secondProfile := none } root = some pb)
    (ho : prepareParts rt a root = some po) :
    (outboundTagList (pb.config root))[m]? = some (targetTag main "tag") ∧
      match JsonObject.string main "tag" with
      | none => (objectsOf (po.config root) "outbounds").length =
          (objectsOf (pb.config root) "outbounds").length
      | some t => Cascaded
          { exit := buildProxyOutbound rt second {} (cascadeHop second t (relayed root))
            mainTag := t
            loop := relayed root } (pb.config root) (po.config root) := by
  obtain ⟨c, rewritten, rest, hc, hrewritten, hrouting, houtbounds, hrest, ⟨appended, happended⟩,
    socks, others, hsocks, hbaseIn, houtIn⟩ := parts_pair hb ho
  have hc' := cascade_spec hsecond hmain hc
  constructor
  · rw [outboundTagList, objectsOf_outbounds_config, happended]
    have hlt : m < (outboundTagList root).length := by
      rw [outboundTagList, length_map]
      exact (List.getElem?_eq_some_iff.mp hm).1
    rw [List.getElem?_append_left hlt, outboundTagList, List.getElem?_map, hm]
    rfl
  · cases htag : JsonObject.string main "tag" with
    | none =>
      rw [htag] at hc'
      obtain rfl : c = none := hc'
      simp only [objectsOf_outbounds_config, houtbounds]
      have hlength := congrArg List.length hrest
      simpa [frontOutbounds] using hlength
    | some t =>
      rw [htag, Option.map_some] at hc'
      simp only
      generalize hcascade : ({ exit := _, mainTag := t, loop := relayed root } : Cascade) =
        c₀ at hc' ⊢
      subst hc'
      have hfront : (frontOutbounds a (some c₀)).map (targetTag · "tag") = newTags c₀.loop := by
        have hexit : targetTag c₀.exit "tag" = some "cascade-exit" := by
          have htagOf := tagOf_buildProxyOutbound rt second {} (cascadeHop second t (relayed root))
          rw [cascadeHop_tag] at htagOf
          rw [← hcascade, targetTag]
          rw [tagOf] at htagOf
          rw [htagOf]
          decide
        cases hloop : c₀.loop with
        | false => simp [frontOutbounds, Option.filter, hloop, hexit, newTags]
        | true =>
          have hrelay : targetTag (rawLoopOutbound a) "tag" = some "cascade-loop-out" := rfl
          simp [frontOutbounds, Option.filter, hloop, hexit, newTags, hrelay]
      refine ⟨?_, ⟨others.map (targetTag · "tag"), ?_, ?_⟩, ?_, ?_⟩
      · rw [outboundTagList, outboundTagList, objectsOf_outbounds_config,
          objectsOf_outbounds_config,
          houtbounds, map_append, hfront, hrest]
      · rw [inboundTagList, objectsOf_inbounds_config, hbaseIn, map_cons, hsocks]
      · rw [inboundTagList, objectsOf_inbounds_config, houtIn, map_cons, hsocks, map_append,
          relayTags]
        cases hloop : c₀.loop with
        | false => rw [Option.filter_some_neg (by simp [hloop])]; rfl
        | true => rw [filter_some_pos hloop]; rfl
      · have hb' := objectAt_routing_config pb root
        have ho' := objectAt_routing_config po root
        rw [objectAt] at hb' ho'
        rw [routingOf, routingOf, hb', ho', hrouting]
        exact redirected_toWrite hrewritten
      · rw [objectsOf_outbounds_config, houtbounds]
        rfl

/-- A second VLESS server. -/
def secondServer : ServerProfile :=
  { type := "vless", server := "b.example", serverPort := 443, uuid := "id" }

def cascadeCall : RawArgs :=
  { rawConfigJson := "", listenPort := 10808, secondProfile := some secondServer }

/-- A direct outbound first and a tagged proxy behind it.  UDP goes direct, and a last rule is for
    all traffic, so that no connection gets to the default. -/
def catchAllConfig (target : String × Json) (balancers : List Json) : JsonObject :=
  [("outbounds", .array [.object [("tag", .str "direct"), ("protocol", .str "freedom")],
      .object [("tag", .str "proxy"), ("protocol", .str "vless")]]),
    ("routing", .object [("rules", .array [
        .object [("type", .str "field"), ("network", .str "udp"), ("outboundTag", .str "direct")],
        .object [("type", .str "field"), ("network", .str "tcp,udp"), target]]),
      ("balancers", .array balancers)])]

/-- A rule that names the main proxy is safe. -/
def namedConfig : JsonObject := catchAllConfig ("outboundTag", .str "proxy") []

/-- A rule of it decides every connection. -/
theorem namedConfig_decided (conn : networkCore.Connection) :
    (triedRules (routingOf namedConfig)).find? (networkCore.accepts "socks-in" conn) ≠ none := by
  cases conn <;> decide

theorem cascadeSafe_named
    (hbase : prepareRaw (runtimeOf namedConfig) { cascadeCall with secondProfile := none } =
      some (.config base)) :
    CascadeSafe networkCore namedConfig base 1 := by
  have hparts : ∃ parts, prepareParts (runtimeOf namedConfig)
      { cascadeCall with secondProfile := none } namedConfig = some parts ∧
      outboundTagList (parts.config namedConfig) = [some "direct", some "proxy"] ∧
      routingOf (parts.config namedConfig) = routingOf namedConfig := ⟨_, rfl, rfl, rfl⟩
  obtain ⟨parts, hparts, htags, hrouting⟩ := hparts
  have hparse : (runtimeOf namedConfig).parse
      { cascadeCall with secondProfile := none }.rawConfigJson = some (.object namedConfig) := rfl
  obtain ⟨parts', hparts', rfl⟩ := parts_of_prepareRaw hparse hbase
  obtain rfl : parts = parts' := some.inj (hparts.symm.trans hparts')
  have hloop : relayed namedConfig = false := by decide
  have hbalancer : ∀ rule, balancerOf (parts.config namedConfig) rule = none := by
    intro rule
    have hnone : objectsOf (routingOf namedConfig) "balancers" = [] := rfl
    rw [balancerOf, hrouting, hnone]
    split_ifs
    · cases targetTag rule "balancerTag" <;> rfl
    · rfl
  exact {
    tagged := by decide
    distinct := by
      rw [htags, hloop]
      unfold DistinctTags
      decide
    inbound := by simp [hloop]
    default := by
      rintro ⟨conn, hnone⟩
      rw [hrouting] at hnone
      exact absurd hnone (namedConfig_decided conn)
    named := by
      rintro r ⟨conn, hr⟩ t ht
      rw [hrouting] at hr
      have hall : ∀ r ∈ triedRules (routingOf namedConfig),
          (targetTag r.2 "outboundTag").all fun t => some t ∉ newTags false := by decide
      have hr' := hall _ (mem_of_find?_eq_some hr)
      rw [mem_def.mp ht, all_some] at hr'
      rw [hloop]
      simpa using hr'
    balanced := by simp [hbalancer]
    spared := by simp [hbalancer] }

/-- The same traffic sent to a balancer over the main proxy. -/
def balancedConfig : JsonObject :=
  catchAllConfig ("balancerTag", .str "pool")
    [.object [("tag", .str "pool"), ("selector", .strs ["proxy"])]]

end OlcVpn.Xray
