/-
  WHERE THE XRAY CORE SENDS A CONNECTION, read off a finished configuration.

  The core tries the rules in order; the first one whose conditions all hold decides, and where none
  does the first outbound is taken.  Under `IPIfNonMatch` the whole list is tried a second time with
  the resolved addresses before the default stands.

  Only two conditions are looked into here: the tag of the inbound, which the app renames, and the
  target.  All others (names, addresses, ports, networks, users, …) stay together as the KEY of a
  rule, and what a connection is and which keys it meets is left to the `Core`: "every connection"
  below is every connection of that core, so a rule for `tcp,udp` may well hold for all of them.

  THE CORE REFUSES a configuration with two inbounds or two outbounds of one tag, and one with a
  rule that has no condition ("this rule has no effective fields") or leads nowhere (`Core.Loads`).

  An outbound is named by its POSITION, so that two configurations can be compared whose outbounds
  carry the same tags.  A target may leave several outbounds open: a balancer picks one of those
  whose tags start with one of its selectors, or declines, and then its fallback or the default is
  taken.
-/
import OlcVpn.Lib.FirstMatch
import OlcVpn.Xray.Closed

namespace OlcVpn.Xray

open Kotlin Generate Lib

/-! ## Parts of a rule -/

/-- A list of strings, or one text with commas. -/
def stringList : Json → List String
  | .array items => items.filterMap fun item => match item with
      | .literal true text => some text
      | _ => none
  | .literal true text => splitWhere (· = ',') text
  | _ => []

variable (rule : JsonObject)

/-- The tags a rule lists under a name. -/
def tagsAt (name : String) : List String :=
  ((rule.lookup name).map stringList).getD []

/-- A rule that lists inbounds is for these only; an inbound without a tag is in no list. -/
def inboundAccepts (tag : String) (rule : JsonObject) : Bool :=
  (tagsAt rule "inboundTag").isEmpty || (tag ≠ "" && (tagsAt rule "inboundTag").contains tag)

/-- The other conditions of a rule. -/
def ruleKey : JsonObject :=
  JsonObject.without rule ["type", "ruleTag", "inboundTag", "outboundTag", "balancerTag"]

/-- A tag that names something. -/
def targetTag (name : String) : Option String :=
  (JsonObject.string rule name).filter (· ≠ "")

/-! ## Inbounds and outbounds -/

/-- A field that is decoded to a Go string: empty where it is missing. -/
def goString (o : JsonObject) (name : String) : String := (JsonObject.string o name).getD ""

def inboundProtocol (inbound : JsonObject) : String := lowercase (goString inbound "protocol")

variable (tags : List (Option String))

/-- Where an outbound of this tag stands. -/
def positionOf (tag : String) : Option Nat :=
  tags.findIdx? fun t => t = some tag

/-- The tags of the outbounds, in their order. -/
def outboundTagList (config : JsonObject) : List (Option String) :=
  (objectsOf config "outbounds").map fun o => targetTag o "tag"

/-- The tags of the inbounds. -/
def inboundTagList (config : JsonObject) : List (Option String) :=
  (objectsOf config "inbounds").map fun o => targetTag o "tag"

/-- No tag is given twice. -/
def DistinctTags (tags : List (Option String)) : Prop := (tags.filterMap id).Nodup

/-- The default outbound is the first one. -/
def defaultExit : Option Nat := if tags.isEmpty then none else some 0

/-- The outbounds a balancer chooses from. -/
def candidates (balancer : JsonObject) : List String :=
  (tags.filterMap id).filter fun tag => (tagsAt balancer "selector").any (startsWith tag ·)

/-! ## The rules -/

/-- The rules are tried without and then, under one strategy, with the resolved addresses. -/
inductive Pass where
  | asIs | resolved
  deriving DecidableEq, Repr

def passes (routing : JsonObject) : List Pass :=
  if (JsonObject.string routing "domainStrategy").map lowercase = some "ipifnonmatch" then
    [.asIs, .resolved]
  else [.asIs]

/-- The rules in the order they are tried. -/
def triedRules (routing : JsonObject) : List (Pass × JsonObject) :=
  (passes routing).flatMap fun pass => (objectsOf routing "rules").map fun rule => (pass, rule)

/-! ## The core -/

/-- What is left open about the core. -/
structure Core where
  /-- What a connection is to the router. -/
  Connection : Type
  /-- Whether the key of a rule amounts to a condition; an empty list of names does not. -/
  effective : JsonObject → Bool
  /-- Whether a connection meets the key of a rule. -/
  meets : Pass → JsonObject → Connection → Bool
  meets_of_ineffective : ∀ pass key conn, effective key = false → meets pass key conn = true
  /-- Whether the strategy of a balancer may pick none of its candidates. -/
  declines : JsonObject → List String → Bool

namespace Core

variable (core : Core)

/-- What a balancer may come to. -/
def balancerExits (tags : List (Option String)) (balancer : JsonObject) : List (Option Nat) :=
  (candidates tags balancer).map (positionOf tags) ++
  if core.declines balancer (candidates tags balancer) then
    [match targetTag balancer "fallbackTag" with
      | some tag => positionOf tags tag
      | none => defaultExit tags]
  else []

/-- The possible exits of what a rule matches; none for a rule the core does not load. -/
def exits (tags : List (Option String)) (balancers : List JsonObject) (rule : JsonObject) :
    List (Option Nat) :=
  match targetTag rule "outboundTag", targetTag rule "balancerTag" with
  | some tag, _ => [positionOf tags tag]
  | none, some name =>
    ((balancers.find? fun b => targetTag b "tag" = some name).map
      (core.balancerExits tags)).getD []
  | none, none => []

/-- A rule has a condition, and a target that is there. -/
def ruleLoads (balancers : List JsonObject) (rule : JsonObject) : Bool :=
  (core.effective (ruleKey rule) || !(tagsAt rule "inboundTag").isEmpty) &&
  ((targetTag rule "outboundTag").isSome ||
    (targetTag rule "balancerTag").any fun name =>
      balancers.any fun b => targetTag b "tag" = some name)

/-- The core starts with a configuration. -/
structure Loads (config : JsonObject) : Prop where
  inbounds : DistinctTags (inboundTagList config)
  outbounds : DistinctTags (outboundTagList config)
  rules : ∀ rule ∈ objectsOf (routingOf config) "rules",
    core.ruleLoads (objectsOf (routingOf config) "balancers") rule = true

/-! ## Connections -/

/-- A rule matches a connection that entered through the inbound of this tag. -/
def accepts (tag : String) (conn : core.Connection) (r : Pass × JsonObject) : Bool :=
  core.meets r.1 (ruleKey r.2) conn && inboundAccepts tag r.2

/-- What a rule of a configuration leads to. -/
def exitsOf (config rule : JsonObject) : List (Option Nat) :=
  core.exits (outboundTagList config) (objectsOf (routingOf config) "balancers") rule

/-- The possible exits of a connection for which some of the rules are left to try. -/
def decided (config : JsonObject) (tag : String) (conn : core.Connection)
    (rules : List (Pass × JsonObject)) : List (Option Nat) :=
  firstMatch (core.accepts tag conn) (fun r => core.exitsOf config r.2)
    [defaultExit (outboundTagList config)] rules

/-- The possible exits of a connection that entered through the inbound of this tag. -/
def sentTo (config : JsonObject) (tag : String) (conn : core.Connection) : List (Option Nat) :=
  core.decided config tag conn (triedRules (routingOf config))

end Core

end OlcVpn.Xray
