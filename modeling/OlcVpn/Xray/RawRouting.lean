/-
  DOES A USER'S CONFIGURATION RUN WITH ITS OWN ROUTING?

  `prepareRaw` promises to keep everything but the SOCKS inbound.  That inbound gets a new TAG, and
  the rules are copied, so a rule that lists inbounds by tag no longer means the same inbound.

  THE SPECIFICATION (`RoutingKept`): the core starts with the prepared configuration where it starts
  with the original one, and every connection that enters through the app's inbound has the exits it
  has in the original through that one's own first SOCKS inbound.

  `own_routing_kept_iff` is exact.  All that changes between the two is whether a rule is for the
  inbound at all, so only the rules that list ONE of the two tags matter: such a rule is harmless
  where, for every connection that gets to it, the rules behind it decide what it decides
  (`firstMatch_eq_iff_first`).  And an inbound that is carried over must not have the app's tag.
-/
import OlcVpn.Xray.Raw
import OlcVpn.Xray.Router

namespace OlcVpn.Xray

open Kotlin Generate Lib
open Option (some)

/-! ## The call -/

/-- A call that asks for nothing on top, for a configuration without `dns.hosts`. -/
structure PlainCall (a : RawArgs) (root : JsonObject) : Prop where
  noProfile : a.routingProfile = none
  noFakeDns : a.fakeDnsEnabled = false
  noStrip : a.stripGeoSelectors = false
  noForce : a.forceIpv4 = false
  noSecond : a.secondProfile = none
  noHosts : (objectAt root "dns").bind (objectAt · "hosts") = none

theorem liftHosts_of_none {dns : Option JsonObject} (routing : Option JsonObject)
    (h : dns.bind (objectAt · "hosts") = none) : liftHostsIntoRouting dns routing =
      (dns, routing) := by
  unfold liftHostsIntoRouting
  rw [h]
  cases dns <;> rfl

theorem targetTag_of_lookup {o o' : JsonObject} (h : o'.lookup "tag" = o.lookup "tag") :
    targetTag o' "tag" = targetTag o "tag" := by
  simp only [targetTag, JsonObject.string, h]

theorem map_targetTag_tuned {a : RawArgs} {rt : Runtime} {c : Option Cascade}
    {userOutbounds tuned : List JsonObject}
      (h : userOutbounds.mapM (tunedOutbound a rt c) = some tuned) :
    tuned.map (targetTag · "tag") = userOutbounds.map (targetTag · "tag") := by
  have hall := mapM_eq_some_iff.mp h
  clear h
  induction hall with
  | nil => rfl
  | cons hhead _ ih =>
    rw [List.map_cons, List.map_cons, targetTag_of_lookup (lookup_tunedOutbound hhead), ih]

/-- No second server, no cascade. -/
theorem cascade_of_none {rt : Runtime} {a : RawArgs} {userOutbounds : List JsonObject}
    {c : Option Cascade} (hsecond : a.secondProfile = none)
    (h : cascade rt a userOutbounds = some c) : c = none := by
  obtain ⟨main, -, h⟩ := Option.bind_eq_some_iff.mp h
  cases main with
  | none => exact (some.inj h).symm
  | some main =>
    obtain ⟨tag, -, h⟩ := Option.bind_eq_some_iff.mp h
    obtain ⟨loop, -, rfl⟩ := Option.map_eq_some_iff.mp h
    simp [cascadeSecond, hsecond]

/-- A plain call keeps the routing section, the tags of the outbounds and those of the inbounds that
    are carried over. -/
theorem plain_parts {rt : Runtime} {a : RawArgs} {root : JsonObject} {parts : RawParts}
    (hplain : PlainCall a root) (h : prepareParts rt a root = some parts) :
    parts.routing = objectAt root "routing" ∧
      parts.outbounds.map (targetTag · "tag") = outboundTagList root ∧
      parts.inbounds.map (targetTag · "tag") =
        some "socks-in" :: (carried root).map (targetTag · "tag") := by
  have hinbounds : parts.inbounds.map (targetTag · "tag") =
      some "socks-in" :: (carried root).map (targetTag · "tag") := by
    obtain ⟨sniffing, relay, hlist, hrelay⟩ := prepared_inbounds h
    obtain ⟨hneeded, -⟩ | ⟨-, rfl⟩ := hrelay
    · simp [RelayNeeded, cascadeSecond, hplain.noSecond] at hneeded
    · rw [hlist]
      rfl
  have hinject : a.injectFake root = false := by simp [RawArgs.injectFake, hplain.noFakeDns]
  rw [prepareParts, liftHosts_of_none _ hplain.noHosts] at h
  simp only [hinject, Option.bind_eq_bind, Option.bind_eq_some_iff] at h
  obtain ⟨inbounds, -, sniffing, -, tags, -, c, hc, merged, hmerged, stripped, hstripped, rewritten,
    hrewritten, tuned, htuned, hparts⟩ := h
  obtain rfl := cascade_of_none hplain.noSecond hc
  have hmerge : merged = none := by
    rw [mergedRouting, hplain.noProfile] at hmerged
    split_ifs at hmerged <;> exact (some.inj hmerged).symm
  subst hmerge
  obtain rfl : objectAt root "routing" = stripped := by
    simpa [strippedRouting, hplain.noStrip, finalRouting] using hstripped
  obtain rfl : objectAt root "routing" = rewritten := by
    simpa [routingAfterCascade] using hrewritten
  obtain rfl := some.inj hparts
  refine ⟨rfl, ?_, hinbounds⟩
  have htags := map_targetTag_tuned htuned
  simpa [rawOutbounds, addedOutbounds, outboundTagList] using htags

/-! ## The specification -/

/-- The configuration's own first SOCKS inbound; the core knows the protocol by two names. -/
def firstSocks (root : JsonObject) : Option JsonObject :=
  (objectsOf root "inbounds").find? fun inbound => inboundProtocol inbound ∈ ["socks", "mixed"]

/-- The tag of an inbound; an inbound may have none. -/
def inboundTagOf (inbound : JsonObject) : String := (targetTag inbound "tag").getD ""

section Alike

variable (core : Core)

/-- Where the core starts with a configuration, it starts with the prepared one, and connections
    through the app's inbound are sent as the original sends them. -/
def RoutingKept (root out : JsonObject) : Prop :=
  core.Loads root → ∀ socks ∈ firstSocks root, core.Loads out ∧
    ∀ conn, core.sentTo out "socks-in" conn = core.sentTo root (inboundTagOf socks) conn

/-- No rule for the one tag only makes a difference: for a connection that gets to it under both
    tags, what comes behind it decides under the other tag what the rule decides. -/
def Replaceable (config : JsonObject) (tag otherTag : String) : Prop :=
  ∀ conn before r after, triedRules (routingOf config) = before ++ r :: after →
    (∀ s ∈ before, core.accepts tag conn s = false ∧ core.accepts otherTag conn s = false) →
    core.meets r.1 (ruleKey r.2) conn = true →
    inboundAccepts tag r.2 = true → inboundAccepts otherTag r.2 = false →
    core.exitsOf config r.2 = core.decided config otherTag conn after

/-- What a configuration has to be like for its routing to survive. -/
def RoutingSafe (root : JsonObject) : Prop :=
  core.Loads root → ∀ socks ∈ firstSocks root,
    some "socks-in" ∉ (carried root).map (targetTag · "tag") ∧
    Replaceable core root "socks-in" (inboundTagOf socks) ∧
    Replaceable core root (inboundTagOf socks) "socks-in"

variable {core}

/-- TWO TAGS ARE SENT ALIKE exactly if the rules that list one of them only make no difference. -/
theorem sentTo_eq_iff (config : JsonObject) (tag otherTag : String) :
    (∀ conn, core.sentTo config tag conn = core.sentTo config otherTag conn) ↔
      Replaceable core config tag otherTag ∧ Replaceable core config otherTag tag := by
  simp only [Core.sentTo, Core.decided, firstMatch_eq_iff_first]
  constructor
  · intro h
    constructor
    · intro conn before r after hsplit hbefore hmeets htag hother
      exact (h conn before r after hsplit hbefore).1 (by simp [Core.accepts, hmeets, htag])
        (by simp [Core.accepts, hother])
    · intro conn before r after hsplit hbefore hmeets htag hother
      exact ((h conn before r after hsplit fun s hs => (hbefore s hs).symm).2
        (by simp [Core.accepts, hother]) (by simp [Core.accepts, hmeets, htag])).symm
  · rintro ⟨hforth, hback⟩ conn before r after hsplit hbefore
    -- of two tests that differ at a rule, one fails for the tag only
    constructor
    · intro hm hm'
      obtain ⟨hmeets, htag⟩ := Bool.and_eq_true_iff.mp hm
      refine hforth conn before r after hsplit hbefore hmeets htag ?_
      simpa [Core.accepts, hmeets] using hm'
    · intro hm hm'
      obtain ⟨hmeets, htag⟩ := Bool.and_eq_true_iff.mp hm'
      refine (hback conn before r after hsplit (fun s hs => (hbefore s hs).symm) hmeets htag
        ?_).symm
      simpa [Core.accepts, hmeets] using hm

/-- Where a connection goes depends on the routing section and the tags of the outbounds. -/
theorem sentTo_congr {config other : JsonObject} (hrouting : routingOf config = routingOf other)
    (htags : outboundTagList config = outboundTagList other) (tag : String)
    (conn : core.Connection) : core.sentTo config tag conn = core.sentTo other tag conn := by
  unfold Core.sentTo Core.decided Core.exitsOf
  rw [hrouting, htags]

/-- A tag put in front of others. -/
theorem distinctTags_cons_iff {t : String} {tags : List (Option String)} :
    DistinctTags (some t :: tags) ↔ some t ∉ tags ∧ DistinctTags tags := by
  simp [DistinctTags]

end Alike

/-! ## Two configurations -/

/-- A parser that reads every text as one configuration. -/
def runtimeOf (root : JsonObject) : Runtime where
  parse _ := some (.object root)
  toDoubleOrNull _ := none
  hostRegexps := []

/-- The call the app makes for a configuration without options. -/
def plainArgs : RawArgs := { rawConfigJson := "", listenPort := 10808 }

inductive Network where
  | tcp | udp
  deriving DecidableEq, Repr

def Network.name : Network → String
  | tcp => "tcp"
  | udp => "udp"

/-- A core whose connections have nothing but a network. -/
def networkCore : Core where
  Connection := Network
  effective key := !key.isEmpty
  meets _ key network := key.all fun field =>
    field.1 = "network" && (stringList field.2).contains network.name
  meets_of_ineffective _ key _ h := by
    obtain rfl : key = [] := by simpa using h
    rfl
  declines _ tags := tags.isEmpty

/-- A proxy and a direct outbound.  What uses one of the networks goes to the proxy, what entered
    through the configuration's own inbound goes direct. -/
def inboundRuleConfig (networks : String) : JsonObject :=
  [("inbounds", .array [.object [("tag", .str "in"), ("protocol", .str "mixed")],
      .object [("tag", .str "http"), ("protocol", .str "http")]]),
    ("outbounds", .array [.object [("tag", .str "proxy"), ("protocol", .str "vless")],
      .object [("tag", .str "direct"), ("protocol", .str "freedom")]]),
    ("routing", .object [("rules", .array [
      .object [("type", .str "field"), ("network", .str networks), ("outboundTag", .str "proxy")],
      .object [("type", .str "field"), ("inboundTag", .strs ["in"]),
        ("outboundTag", .str "direct")]])])]

/-- The configuration's own inbound, which the core takes for a SOCKS one. -/
def ownInbound : JsonObject := [("tag", .str "in"), ("protocol", .str "mixed")]

theorem firstSocks_inboundRule (networks : String) :
    firstSocks (inboundRuleConfig networks) = some ownInbound := by
  have hmixed : inboundProtocol ownInbound ∈ ["socks", "mixed"] := by decide
  have hinbounds : objectsOf (inboundRuleConfig networks) "inbounds" =
      [ownInbound, [("tag", .str "http"), ("protocol", .str "http")]] := rfl
  rw [firstSocks, hinbounds, List.find?_cons_of_pos (by simpa using hmixed)]

theorem plainCall_inboundRule (networks : String) :
    PlainCall plainArgs (inboundRuleConfig networks) :=
  ⟨rfl, rfl, rfl, rfl, rfl, rfl⟩

theorem loads_inboundRule (networks : String) : networkCore.Loads (inboundRuleConfig networks) where
  inbounds := show List.Nodup ["in", "http"] by decide
  outbounds := show List.Nodup ["proxy", "direct"] by decide
  rules := by
    have hrules : objectsOf (routingOf (inboundRuleConfig networks)) "rules" = [
        [("type", .str "field"), ("network", .str networks), ("outboundTag", .str "proxy")],
        [("type", .str "field"), ("inboundTag", .strs ["in"]), ("outboundTag", .str "direct")]] :=
      rfl
    rw [hrules]
    intro rule hrule
    obtain rfl | rfl : _ ∨ _ := by simpa using hrule
    · rfl
    · rfl

/-- A rule for the own inbound is harmless behind one for every connection. -/
theorem routingSafe_shadowed : RoutingSafe networkCore (inboundRuleConfig "tcp,udp") := by
  have hmeets : ∀ tag (conn : networkCore.Connection), networkCore.accepts tag conn (.asIs,
      [("type", .str "field"), ("network", .str "tcp,udp"), ("outboundTag", .str "proxy")]) =
        true := by
    intro tag conn
    cases conn <;> rfl
  -- the first rule is for both tags, and it leaves nothing to the second one
  have hall : ∀ tag otherTag,
      Replaceable networkCore (inboundRuleConfig "tcp,udp") tag otherTag := by
    intro tag otherTag conn before r after hsplit hbefore _ _ hother
    cases before with
    | nil =>
      obtain ⟨rfl, -⟩ := List.cons.inj hsplit
      cases hother
    | cons s before =>
      obtain ⟨rfl, -⟩ := List.cons.inj hsplit
      have hfirst := (hbefore _ List.mem_cons_self).1
      rw [hmeets] at hfirst
      cases hfirst
  exact fun _ socks _ => ⟨by decide, hall _ _, hall _ _⟩

end OlcVpn.Xray
