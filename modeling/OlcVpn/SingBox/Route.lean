/-
  The ROUTE of a sing-box configuration, as sing-box reads it and as it decides a connection.

  sing-box decodes a configuration strictly (unknown top-level fields, duplicate tags, unknown
  outbound types and rule actions are errors), gives an untagged outbound its INDEX as tag, and
  then routes each connection by the first rule that matches and whose action ends the search.
  Where no rule does, the DEFAULT outbound takes it: the one `route.final` names, or else the first
  one of the list.

  A connection appears only through the question which rules match it.  That question is a function
  `m` on the CONDITIONS of a rule (its fields but `outbound` and `action`), and every statement is
  for all `m`.
-/
import OlcVpn.Kotlin.Json

namespace OlcVpn.SingBox

open Kotlin

/-! ## Decoding -/

/-- A string field of a Go struct: absent and `null` leave the empty string, anything but a quoted
    string is a decoding error. -/
def stringField (o : JsonObject) (name : String) : Option String :=
  match o.lookup name with
  | none => some ""
  | some .null => some ""
  | some (.literal true s) => some s
  | some _ => none

/-- A slice of structs. -/
def listField (o : JsonObject) (name : String) : Option (List JsonObject) :=
  match o.lookup name with
  | none => some []
  | some .null => some []
  | some (.array items) => items.mapM jsonObjectOrNull
  | some _ => none

/-- What an outbound does with a connection.  Server outbounds, `selector` and `urltest` all count
    as the tunnel. -/
inductive Kind where
  | direct | reject | dns | proxy
  deriving DecidableEq, Repr

/-- The registered outbound types (with `dns`, which older versions have). -/
def outboundTypes : List String :=
  ["direct", "bridge", "block", "dns", "selector", "urltest", "socks", "http", "shadowsocks",
   "snell", "vmess", "trojan", "naive", "tor", "ssh", "shadowtls", "vless", "anytls", "hysteria",
   "tuic", "hysteria2"]

def outboundKind (type : String) : Option Kind :=
  if type ∈ outboundTypes then
    some (if type = "direct" then .direct
      else if type = "block" then .reject
      else if type = "dns" then .dns
      else .proxy)
  else none

/-- An outbound: the tag its author gave it (possibly none) and what it does. -/
structure Outbound where
  given : String
  kind : Kind
  deriving DecidableEq, Repr

def decodeOutbound (o : JsonObject) : Option Outbound := do
  let given ← stringField o "tag"
  let type ← stringField o "type"
  let kind ← outboundKind type
  some ⟨given, kind⟩

/-- `box.New`: an outbound without a tag is filed under its index. -/
def tagOr (given : String) (index : Nat) : String :=
  if given = "" then toString index else given

/-- `option.RuleAction`. -/
inductive Action where
  | route (outbound : String)
  | routeOptions
  | direct
  | bypass (outbound : String)
  | reject
  | hijackDns
  | sniff
  | resolve
  deriving DecidableEq, Repr

/-- `RuleAction.UnmarshalJSON`, with the check of `rule.NewRule` that a routing rule names an
    outbound. -/
def decodeAction (action outbound : String) : Option Action :=
  if action = "" ∨ action = "route" then
    if outbound = "" then none else some (.route outbound)
  else if action = "route-options" then some .routeOptions
  else if action = "direct" then some .direct
  else if action = "bypass" then some (.bypass outbound)
  else if action = "reject" then some .reject
  else if action = "hijack-dns" then some .hijackDns
  else if action = "sniff" then some .sniff
  else if action = "resolve" then some .resolve
  else none

structure Rule where
  fields : JsonObject
  action : Action

/-- What the matcher of a rule sees. -/
def Rule.conditions (r : Rule) : JsonObject :=
  JsonObject.without r.fields ["outbound", "action"]

def decodeRule (fields : JsonObject) : Option Rule := do
  let action ← stringField fields "action"
  let outbound ← stringField fields "outbound"
  let decoded ← decodeAction action outbound
  some ⟨fields, decoded⟩

/-- The part of a configuration that routing reads.  Outbounds and endpoints stand under their
    effective tags. -/
structure Config where
  outbounds : List (String × Outbound)
  endpoints : List String
  rules : List Rule
  final : String

variable (c : Config)

/-- Outbounds are looked up first, then endpoints, which are all tunnels. -/
def Config.kind? (tag : String) : Option Kind :=
  match c.outbounds.lookup tag with
  | some outbound => some outbound.kind
  | none => if tag ∈ c.endpoints then some .proxy else none

/-- The fields of `option.Options`; any other top-level field is an error. -/
def optionFields : List String :=
  ["$schema", "log", "dns", "ntp", "certificate", "certificate_providers", "http_clients",
   "network_namespaces", "endpoints", "inbounds", "outbounds", "route", "services", "experimental"]

/-- `route`, or no options at all where it is absent. -/
def routeField (root : JsonObject) : Option JsonObject :=
  match root.lookup "route" with
  | none => some []
  | some .null => some []
  | some (.object route) => some route
  | some _ => none

def tagOutbounds (outbounds : List Outbound) : List (String × Outbound) :=
  outbounds.mapIdx fun index outbound => (tagOr outbound.given index, outbound)

/-- Decode a configuration, with the checks made before the first connection: `checkOutbounds`
    (no tag twice) and the start of the outbound manager (`final` must exist). -/
def decodeConfig (root : JsonObject) : Option Config := do
  guard (root.all fun field => optionFields.contains field.1)
  let outboundObjects ← listField root "outbounds"
  let outbounds ← outboundObjects.mapM decodeOutbound
  let endpointObjects ← listField root "endpoints"
  let endpointTags ← endpointObjects.mapM fun o => stringField o "tag"
  let route ← routeField root
  let ruleObjects ← listField route "rules"
  let rules ← ruleObjects.mapM decodeRule
  let final ← stringField route "final"
  let config : Config :=
    ⟨tagOutbounds outbounds, endpointTags.mapIdx fun index given => tagOr given index, rules, final⟩
  guard (config.outbounds.map Prod.fst ++ config.endpoints).Nodup
  guard (final = "" ∨ (config.kind? final).isSome)
  some config

/-! ## Routing -/

/-- What becomes of a connection. -/
inductive Verdict where
  | proxy | direct | reject
  deriving DecidableEq, Repr

/-- A connection given to a `dns` outbound is answered, not carried: it has no verdict here. -/
def Kind.verdict : Kind → Option Verdict
  | .direct => some .direct
  | .reject => some .reject
  | .dns => none
  | .proxy => some .proxy

/-- Actions that end the search of `matchRule`; after the others it goes on with the next rule. -/
def Action.selects : Action → Bool
  | .route _ | .reject | .hijackDns => true
  | .bypass outbound => outbound != ""
  | .routeOptions | .direct | .sniff | .resolve => false

/-- `Router.matchRule`: the first rule that matches and whose action selects it. -/
def matchRule (m : JsonObject → Bool) (rules : List Rule) : Option Rule :=
  rules.find? fun r => m r.conditions && r.action.selects

/-- The kind of the default outbound; a configuration without outbounds gets a direct one. -/
def Config.defaultKind : Option Kind :=
  if c.final = "" then
    match c.outbounds with
    | [] => some .direct
    | (_, outbound) :: _ => some outbound.kind
  else c.kind? c.final

/-- What the selected rule does; `none` for a DNS query that is answered and for an outbound that
    does not exist. -/
def Config.apply : Action → Option Verdict
  | .route tag | .bypass tag => (c.kind? tag).bind Kind.verdict
  | .reject => some .reject
  | .hijackDns | .routeOptions | .direct | .sniff | .resolve => none

/-- The verdict on a connection whose matching rules `m` tells. -/
def Config.verdict (m : JsonObject → Bool) : Option Verdict :=
  match matchRule m c.rules with
  | some rule => c.apply rule.action
  | none => c.defaultKind.bind Kind.verdict

end OlcVpn.SingBox
