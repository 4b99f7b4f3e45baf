/-
  Importing a sing-box configuration with its OWN route.

  `parseRawSingBox` turns every server outbound of a configuration into a location.  The route of
  the configuration comes along: `normalizeSingBoxRoute` rewrites it onto the two outbounds the
  app's own configuration has, `proxy` and `direct`, and every location of the import carries it.

  The rewriter works on tags.  It knows an outbound by the tag its author gave it, so it follows
  sing-box only part of the way:
    • `final` is rewritten to `direct` or `proxy` and never rejects, and a missing `final` becomes
      `proxy` although sing-box then uses the FIRST outbound;
    • an outbound without a (non-blank) tag is unknown, and unknown means `proxy`;
    • a `bypass` rule, and a rule whose action is spelled as the empty string, are copied with the
      tag of the original configuration.

  `route_kept_iff` says that these are all the ways in which a connection can end elsewhere.
-/
import OlcVpn.Kotlin.Text
import OlcVpn.SingBox.Route

namespace OlcVpn.SingBox

open Kotlin
open JsonObject (without)

/-! ## The rewriter -/

/-- What an outbound is, by its `type`. -/
def kindOfType (type : Option String) : Kind :=
  let type := type.map lowercase
  if type = some "direct" then .direct
  else if type = some "block" ∨ type = some "reject" then .reject
  else if type = some "dns" then .dns
  -- A server outbound, or a selector/urltest over servers: all of it is the tunnel.
  else .proxy

/-- The pair an outbound puts into `kindByTag`; an outbound without a tag puts none. -/
def tagKind (ob : JsonObject) : Option (String × Kind) :=
  ((JsonObject.string ob "tag").filter isNotBlank).map fun tag =>
    (tag, kindOfType (JsonObject.string ob "type"))

/-- What each outbound tag really is. -/
def kindByTag (outbounds : List JsonObject) : String → Option Kind :=
  toMap (outbounds.filterMap tagKind)

/-- The copy of a routing rule whose target is of the given kind.  A legacy `dns` target is covered
    by the app's own DNS rule. -/
def repoint (rule : JsonObject) : Kind → Option JsonObject
  | .dns => none
  | .reject => some (put (without rule ["outbound", "action"]) "action" (.str "reject"))
  | .direct => some (put (without rule ["outbound"]) "outbound" (.str "direct"))
  | .proxy => some (put (without rule ["outbound"]) "outbound" (.str "proxy"))

variable (kinds : String → Option Kind)

/-- A rule re-pointed at the app's outbounds, or `none` where it is dropped. -/
def mapRule (rule : JsonObject) : Option JsonObject :=
  -- Rules keyed to the original inbounds can never match ours.
  if (rule.lookup "inbound").isSome then none
  else
    let action := (JsonObject.string rule "action").map lowercase
    if action = some "sniff" ∨ action = some "hijack-dns" then none
    else if action = none ∨ action = some "route" then
      match JsonObject.string rule "outbound" with
      | none => none
      | some target => repoint rule ((kinds target).getD .proxy)
    -- Any other action is taken to be self-contained and kept verbatim.
    else some rule

/-- A rule set whose `download_detour` names one of the app's outbounds. -/
def mapRuleSet (set : JsonObject) : JsonObject :=
  let detour := JsonObject.string set "download_detour"
  if detour = none ∧ JsonObject.string set "type" ≠ some "remote" then set
  else
    put (without set ["download_detour"]) "download_detour"
      (.str (if detour.bind kinds = some .direct then "direct" else "proxy"))

/-- The rewritten `final`. -/
def finalTag : Option String → String
  | none => "proxy"
  | some tag => if (kinds tag).getD .proxy = .direct then "direct" else "proxy"

/-- The objects of an array field. -/
def objectsOf (o : JsonObject) (name : String) : Option (List JsonObject) :=
  ((o.lookup name).bind jsonArrayOrNull).map fun items => items.filterMap jsonObjectOrNull

def normalizeSingBoxRoute (root : JsonObject) (outbounds : List JsonObject) :
    Option JsonObject := do
  let route ← (root.lookup "route").bind jsonObjectOrNull
  let rules ← objectsOf route "rules"
  guard (rules ≠ [])
  let kinds := kindByTag outbounds
  let mapped := rules.filterMap (mapRule kinds)
  guard (mapped ≠ [])
  let ruleSets := ((objectsOf route "rule_set").map fun sets => sets.map (mapRuleSet kinds)).getD []
  some ([("final", .str (finalTag kinds (JsonObject.string route "final"))),
         ("rules", .array (mapped.map .object))] ++
    if ruleSets = [] then [] else [("rule_set", .array (ruleSets.map .object))])

/-! ## The import -/

/-- The part of a `ProxyProfile` a raw sing-box import fills in. -/
structure ProxyProfile where
  tag : String
  type : String
  server : String
  serverPort : Int
  rawOutbound : JsonObject
  rawSingBoxRoute : Option JsonObject

/-- `jsonPrimitive` of an array or an object throws. -/
inductive ParseError where
  | notPrimitive
  deriving DecidableEq, Repr

section

-- `JsonPrimitive.intOrNull` of the serialization library, on the text of the primitive.
variable (intOrNull : String → Option Int)

/-- One server outbound; `none` where a field is missing. -/
def rawProfile (route : Option JsonObject) (outbound : JsonObject) :
    Except ParseError (Option ProxyProfile) :=
  match JsonObject.string outbound "server" with
  | none => .ok none
  | some server =>
    match outbound.lookup "server_port" with
    | none | some .null => .ok none
    | some (.array _) | some (.object _) => .error .notPrimitive
    | some (.literal _ content) =>
      .ok <| do
        let port ← intOrNull content
        let type ← JsonObject.string outbound "type"
        let tag := ((JsonObject.string outbound "tag").filter isNotBlank).getD
          (server ++ ":" ++ toString port)
        some ⟨tag, type, server, port, outbound, route⟩

/-- The outbounds of a full configuration, of a single outbound object or of an array. -/
def rawOutbounds : Json → Option (List JsonObject)
  | .object fields =>
    if (fields.lookup "outbounds").isSome then objectsOf fields "outbounds" else some [fields]
  | .array items => some (items.filterMap jsonObjectOrNull)
  | _ => none

/-- The outbounds that become locations. -/
def serverOutbounds (outbounds : List JsonObject) : List JsonObject :=
  outbounds.filter fun o => (o.lookup "type").isSome && (o.lookup "server").isSome

/-- The route of a full configuration. -/
def embeddedRoute (element : Json) (outbounds : List JsonObject) : Option JsonObject :=
  match element with
  | .object root => normalizeSingBoxRoute root outbounds
  | _ => none

/-- `parseRawSingBox` on the parsed text: the profiles of the locations it creates. -/
def parseRawSingBox (element : Json) : Except ParseError (Option (List ProxyProfile)) :=
  match rawOutbounds element with
  | none => .ok none
  | some outbounds =>
    let servers := serverOutbounds outbounds
    if servers = [] then .ok none
    else do
      let entries ← servers.mapM (rawProfile intOrNull (embeddedRoute element outbounds))
      let profiles := entries.reduceOption
      return if profiles = [] then none else some profiles

end

/-! ## The app's configuration -/

variable (rules : List Rule)

variable (final : String)

/-- The outbounds of the configuration the app builds, with the given rules and default. -/
def appRoute : Config :=
  ⟨[("proxy", ⟨"proxy", .proxy⟩), ("direct", ⟨"direct", .direct⟩)], [], rules, final⟩

@[simp] theorem appRoute_rules : (appRoute rules final).rules = rules := rfl

@[simp] theorem appRoute_proxy : (appRoute rules final).kind? "proxy" = some .proxy := rfl

@[simp] theorem appRoute_direct : (appRoute rules final).kind? "direct" = some .direct := rfl

theorem appRoute_other {tag : String} (hp : tag ≠ "proxy") (hd : tag ≠ "direct")
    (rules : List Rule) (final : String) : (appRoute rules final).kind? tag = none := by
  have hp' : (tag == "proxy") = false := by simpa using hp
  have hd' : (tag == "direct") = false := by simpa using hd
  simp [Config.kind?, appRoute, hp', hd']

@[simp] theorem appRoute_default {final : String} (h : final ≠ "") (rules : List Rule) :
    (appRoute rules final).defaultKind = (appRoute rules final).kind? final := if_neg h

/-- The configuration the app splices an imported route into, as far as routing reads it. -/
def appConfig (route : JsonObject) : Option Config := do
  let ruleObjects ← listField route "rules"
  let rules ← ruleObjects.mapM decodeRule
  let final ← stringField route "final"
  some (appRoute rules final)

/-- The verdict of an imported route on a connection. -/
def importedVerdict (route : JsonObject) (m : JsonObject → Bool) : Option Verdict :=
  (appConfig route).bind fun config => config.verdict m

end OlcVpn.SingBox
