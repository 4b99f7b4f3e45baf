/-
  THE PROXY OUTBOUND of a generated Xray configuration.

  `buildProxyOutbound` turns a server into an Xray outbound.  An outbound that is CHAINED dials its
  server through another outbound, and there are two ways to say so: `proxySettings.tag` (the other
  outbound carries the protocol, the own transport is lost) and `streamSettings.sockopt.dialerProxy`
  (only the socket goes through the other outbound).  Which of the two is written, and whether one
  is written at all, is decided here.

  Two texts of a share link are JSON and end up in the outbound: `finalMask` verbatim, and the
  `extra` of the xhttp transport after `sanitizeXhttpExtra` has coerced or dropped every field the
  core would refuse.
-/
import OlcVpn.Generate.Settings
import OlcVpn.Kotlin.Json

namespace OlcVpn.Xray

open Kotlin Generate

/-! ## The platform -/

/-- What the generator reads off a Kotlin `Double`. -/
structure Double where
  isFinite : Bool
  toLong : Int

/-- What the generator is given: the JSON parser (`none` where it throws), `toDoubleOrNull`, and
    the list of blocked domains shipped with the app. -/
structure Runtime where
  parse : String → Option Json
  toDoubleOrNull : String → Option Double
  hostRegexps : List String

variable (rt : Runtime)

/-- A link-supplied JSON text as an object; blank or garbage is none. -/
def Runtime.objectOrNull (text : String) : Option JsonObject :=
  if isNotBlank text then (rt.parse text).bind jsonObjectOrNull else none

/-! ## Fields -/

/-- `o[name] as? JsonObject`. -/
def objectAt (o : JsonObject) (name : String) : Option JsonObject :=
  (o.lookup name).bind jsonObjectOrNull

/-- The objects of an array field. -/
def objectsOf (out : JsonObject) (name : String) : List JsonObject :=
  (((out.lookup name).bind jsonArrayOrNull).getD []).filterMap jsonObjectOrNull

theorem objectsOf_eq {out : JsonObject} {name : String} {l : List JsonObject}
    (h : out.lookup name = some (.array (l.map .object))) : objectsOf out name = l := by
  rw [objectsOf, h]
  simp [List.filterMap_map, Function.comp_def]

/-- A field whose value may have been dropped. -/
def fieldOf (name : String) (value : Option Json) : JsonObject :=
  (value.map fun v => (name, v)).toList

theorem lookup_fieldOf_ne {name other : String} {value : Option Json} (h : other ≠ name) :
    (fieldOf name value).lookup other = none := by
  have hne : (other == name) = false := by simpa using h
  cases value <;> simp [fieldOf, hne]

@[simp] theorem lookup_fieldOf_self (name : String) (value : Option Json) :
    (fieldOf name value).lookup name = value := by
  cases value <;> simp [fieldOf]

/-! ## The xhttp settings -/

def xhttpInt32RangeKeys : List String :=
  ["xPaddingBytes", "sessionIDLength", "uplinkChunkSize", "scMaxEachPostBytes",
    "scMinPostsIntervalMs", "scStreamUpServerSecs", "maxConcurrency", "maxConnections",
    "cMaxReuseTimes", "hMaxRequestTimes", "hMaxReusableSecs"]

def xhttpIntKeys : List String := ["scMaxBufferedPosts", "serverMaxHeaderBytes", "hKeepAlivePeriod"]

def xhttpBoolKeys : List String := ["xPaddingObfsMode", "noGRPCHeader", "noSSEHeader"]

def xhttpStringKeys : List String :=
  ["host", "path", "mode", "xPaddingKey", "xPaddingHeader", "xPaddingPlacement", "xPaddingMethod",
    "uplinkHTTPMethod", "sessionIDPlacement", "sessionIDKey", "sessionIDTable", "seqPlacement",
    "seqKey", "uplinkDataPlacement", "uplinkDataKey", "sessionPlacement", "sessionKey"]

def isAsciiDigit (c : Char) : Bool := '0' ≤ c && c ≤ '9'

def dropMinus : List Char → List Char
  | '-' :: rest => rest
  | cs => cs

/-- `^-?\d+--?\d+$`. -/
def isInt32Range (s : String) : Bool :=
  let body := dropMinus s.toList
  match body.dropWhile isAsciiDigit with
  | '-' :: high =>
    !(body.takeWhile isAsciiDigit).isEmpty && !(dropMinus high).isEmpty &&
      (dropMinus high).all isAsciiDigit
  | _ => false

def normalizeInt32Range : Json → Option Json
  | .literal true s =>
    if s = "" ∨ (toIntOrNull s).isSome ∨ isInt32Range s then some (.literal true s)
    else (rt.toDoubleOrNull s).map fun d => .num d.toLong
  | .literal false c =>
    if (toIntOrNull c).isSome then some (.literal false c)
    else (rt.toDoubleOrNull c).map fun d => .num d.toLong
  | .null => (rt.toDoubleOrNull "null").map fun d => .num d.toLong
  | _ => none

def normalizeInt : Json → Option Json
  | .literal isString c =>
    match toLongOrNull c with
    | some n => if isString then some (.num n) else some (.literal isString c)
    | none => (rt.toDoubleOrNull c).bind fun d => if d.isFinite then some (.num d.toLong) else none
  | .null => (rt.toDoubleOrNull "null").bind fun d =>
      if d.isFinite then some (.num d.toLong) else none
  | _ => none

def normalizeBool : Json → Option Json
  | .literal isString c =>
    if !isString && (c = "true" || c = "false") then some (.literal isString c)
    else if lowercase c ∈ ["true", "1", "1.0"] then some (.bool true)
    else if lowercase c ∈ ["false", "0", "0.0"] then some (.bool false)
    else none
  | _ => none

def normalizeString : Json → Option Json
  | .literal _ c => some (.str c)
  | _ => none

def sanitizeHeaders (headers : JsonObject) : JsonObject :=
  headers.flatMap fun field => fieldOf field.1 (normalizeString field.2)

mutual

def sanitizeXhttpExtra (rt : Runtime) : List (String × Json) → List (String × Json)
  | [] => []
  | (k, v) :: rest => sanitizeField rt k v ++ sanitizeXhttpExtra rt rest

def sanitizeField (rt : Runtime) (k : String) : Json → List (String × Json)
  | .object fields =>
    -- an object is no number, truth value or string: such a field is dropped
    if k ∈ xhttpInt32RangeKeys ++ xhttpIntKeys ++ xhttpBoolKeys ++ xhttpStringKeys then []
    else if k = "headers" then [(k, .object (sanitizeHeaders fields))]
    else if k = "downloadSettings" then [(k, .object (sanitizeDownloadSettings rt fields))]
    else [(k, .object (sanitizeXhttpExtra rt fields))]
  | v =>
    if k ∈ xhttpInt32RangeKeys then fieldOf k (normalizeInt32Range rt v)
    else if k ∈ xhttpIntKeys then fieldOf k (normalizeInt rt v)
    else if k ∈ xhttpBoolKeys then fieldOf k (normalizeBool v)
    else if k ∈ xhttpStringKeys then fieldOf k (normalizeString v)
    else if k = "headers" ∨ k = "downloadSettings" then []
    else [(k, v)]

def sanitizeDownloadSettings (rt : Runtime) : List (String × Json) → List (String × Json)
  | [] => []
  | (k, .object fields) :: rest =>
    (if k = "xhttpSettings" then (k, .object (sanitizeXhttpExtra rt fields))
      else (k, .object fields))
      :: sanitizeDownloadSettings rt rest
  | (k, v) :: rest => (k, v) :: sanitizeDownloadSettings rt rest

end

/-! ## The transport -/

variable (p : ServerProfile)

def networkName : String :=
  if p.network ∈ ["ws", "grpc", "http", "httpupgrade", "xhttp"] then p.network else "tcp"

/-- The name a TLS server is asked for: the SNI, else the HTTP host of a transport that has one,
    else the address. -/
def tlsServerName : String :=
  let host := trim (substringBefore p.host ',')
  if isBlank p.sni then
    if host ≠ "" ∧ networkName p ≠ "tcp" ∧ networkName p ≠ "grpc" then host else p.server
  else p.sni

def securitySettings : JsonObject :=
  if p.security = "tls" then
    [("security", .str "tls"),
      ("tlsSettings", .object (
        [("serverName", .str (tlsServerName p)), ("allowInsecure", .bool p.allowInsecure)] ++
        fieldIf (isNotBlank p.fingerprint) "fingerprint" (.str p.fingerprint) ++
        fieldIf (!p.alpn.isEmpty) "alpn" (.strs p.alpn) ++
        fieldIf (isNotBlank p.pinnedCertSha256) "pinnedPeerCertSha256" (.str p.pinnedCertSha256) ++
        fieldIf (isNotBlank p.verifyCertByName) "verifyPeerCertByName" (.str p.verifyCertByName) ++
        fieldIf (isNotBlank p.echConfigList) "echConfigList" (.str p.echConfigList)))]
  else if p.security = "reality" then
    [("security", .str "reality"),
      ("realitySettings", .object ([("serverName", .str (ifBlank p.sni p.server))] ++
        fieldIf (isNotBlank p.fingerprint) "fingerprint" (.str p.fingerprint) ++
        [("publicKey", .str p.realityPublicKey), ("shortId", .str p.realityShortId)] ++
        fieldIf (isNotBlank p.realityMldsa65Verify) "mldsa65Verify" (.str p.realityMldsa65Verify) ++
        fieldIf (isNotBlank p.realitySpiderX) "spiderX" (.str p.realitySpiderX)))]
  else [("security", .str "none")]

/-- The pool of reused connections an xhttp cascade base gets. -/
def xmux : JsonObject :=
  [("maxConnections", .str "4-8"), ("cMaxReuseTimes", .str "64-128"),
    ("hMaxRequestTimes", .str "600-900"), ("hMaxReusableSecs", .str "1800-3000")]

/-- The link's `extra`, as it is emitted. -/
def xhttpExtraOf : Option JsonObject :=
  (rt.objectOrNull p.xhttpExtra).map (sanitizeXhttpExtra rt)

def xhttpSettings (highConcurrency : Bool) : JsonObject :=
  fieldIf (isNotBlank p.path) "path" (.str p.path) ++
  fieldIf (isNotBlank p.host) "host" (.str p.host) ++
  [("mode", .str (ifBlank p.xhttpMode "auto"))] ++
  match xhttpExtraOf rt p with
  | some extra =>
    [("extra", .object
      (if highConcurrency ∧ extra.lookup "xmux" = none then extra ++ [("xmux", .object xmux)]
      else extra))]
  | none => fieldIf highConcurrency "xmux" (.object xmux)

def transportSettings (highConcurrency : Bool) : JsonObject :=
  let path := fieldIf (isNotBlank p.path) "path" (.str p.path)
  if networkName p = "ws" then
    [("wsSettings", .object (path ++
      fieldIf (isNotBlank p.host) "headers" (.object [("Host", .str p.host)])))]
  else if networkName p = "grpc" then
    [("grpcSettings", .object (fieldIf (isNotBlank p.path) "serviceName" (.str p.path)))]
  else if networkName p = "xhttp" then
    [("xhttpSettings", .object (xhttpSettings rt p highConcurrency))]
  else if networkName p = "httpupgrade" then
    [("httpupgradeSettings", .object (path ++ fieldIf (isNotBlank p.host) "host" (.str p.host)))]
  else if networkName p = "http" then
    [("httpSettings", .object (path ++ fieldIf (isNotBlank p.host) "host" (.strs [p.host])))]
  else []

/-- The socket options that send the transport's own dialling through another outbound. -/
def sockopt (tag : String) : Json := .object [("dialerProxy", .str tag)]

def buildStreamSettings (dialer : Option String) (highConcurrency : Bool) :
    JsonObject :=
  fieldOf "sockopt" (dialer.map sockopt) ++
  [("network", .str (networkName p))] ++
  securitySettings p ++
  fieldOf "finalmask" ((rt.objectOrNull p.finalMask).map .object) ++
  transportSettings rt p highConcurrency

/-! ## The outbound -/

/-- How one proxy hop is emitted: its tag, what it dials through, and the cascade's special cases.
    -/
structure Hop where
  tag : String
  detourTag : Option String
  chainViaDialerProxy : Bool := false
  preserveFlow : Bool := false
  xhttpHighConcurrency : Bool := false
  suppressMux : Bool := false

variable (hop : Hop)

def vnextUser : JsonObject :=
  [("id", .str p.uuid)] ++
  if p.type = "vless" then
    [("encryption", .str (ifBlank p.vlessEncryption "none"))] ++
      fieldIf (isNotBlank p.flow && (hop.detourTag.isNone || hop.preserveFlow)) "flow" (.str p.flow)
  else [("alterId", .num p.alterId), ("security", .str (ifBlank p.cipher "auto"))]

def outboundSettings : JsonObject :=
  let address : JsonObject := [("address", .str p.server), ("port", .num p.serverPort)]
  if p.type = "vless" ∨ p.type = "vmess" then
    [("vnext", .array [.object (address ++ [("users", .array [.object (vnextUser p hop)])])])]
  else if p.type = "trojan" then
    [("servers", .array [.object (address ++ [("password", .str p.password)])])]
  else if p.type = "shadowsocks" then
    [("servers", .array [.object (address ++
      [("method", .str p.method), ("password", .str p.password)])])]
  else if p.type = "socks" then
    [("servers", .array [.object (address ++ fieldIf (isNotBlank p.password) "users"
        (.array [.object [("user", .str ""), ("pass", .str p.password)]]))])]
  else []

/-- A local SOCKS hop is emitted bare. -/
def isLocalSocks : Bool := p.type = "socks"

def needsDialerProxy : Bool :=
  hop.detourTag.isSome &&
    (hop.detourTag = some "proxy-base" || p.network = "xhttp" || hop.chainViaDialerProxy)

def dialerProxyTag : Option String :=
  if needsDialerProxy p hop then hop.detourTag else none

/-- What the transport's socket is dialled through: the detour, or the outbound that fragments. -/
def socketDialer (traffic : TrafficSettings) (hop : Hop) : Option String :=
  match dialerProxyTag p hop with
  | some tag => some tag
  | none => if traffic.fragmentEnabled && hop.detourTag.isNone then some "fragment" else none

/-- The detour that is written as `proxySettings`. -/
def proxySettingsTag : Option String :=
  if dialerProxyTag p hop = none then hop.detourTag else none

def buildProxyOutbound (traffic : TrafficSettings) (hop : Hop) : JsonObject :=
  [("tag", .str hop.tag), ("protocol", .str p.type),
    ("settings", .object (outboundSettings p hop))] ++
  fieldIf (!isLocalSocks p) "streamSettings"
    (.object (buildStreamSettings rt p (socketDialer p traffic hop) hop.xhttpHighConcurrency)) ++
  fieldOf "proxySettings" ((proxySettingsTag p hop).map fun tag => .object [("tag", .str tag)]) ++
  fieldIf (traffic.muxEnabled && !isLocalSocks p && !hop.suppressMux) "mux"
    (.object [("enabled", .bool true), ("concurrency", .num traffic.muxMaxConnections)])

/-- A SOCKS outbound to the local listener of olcRTC. -/
def olcrtcSocksOutbound (tag : String) (port : Int) (user pass : String) : JsonObject :=
  [("tag", .str tag), ("protocol", .str "socks"),
    ("settings", .object [("servers", .array [.object (
      [("address", .str "127.0.0.1"), ("port", .num port)] ++ fieldIf (isNotBlank user) "users"
        (.array [.object [("user", .str user), ("pass", .str pass)]]))])])]

/-! ## The WireGuard base -/

/-- `?: return null` on an access that may throw: the outer `none` is the exception, the inner one
    the `null` that is returned. -/
def orReturn {α β : Type} (access : Option (Option α)) (next : α → Option (Option β)) :
    Option (Option β) :=
  access.bind fun value => match value with
    | none => some none
    | some a => next a

theorem orReturn_eq_some_some {α β : Type} {access : Option (Option α)}
    {next : α → Option (Option β)} {b : β} :
    orReturn access next = some (some b) ↔ ∃ a, access = some (some a) ∧
      next a = some (some b) := by
  rcases access with _ | _ | a <;> simp [orReturn]

/-- `o[name]?.jsonPrimitive?.contentOrNull?.toIntOrNull()`. -/
def intOrThrow (o : JsonObject) (name : String) : Option (Option Int) :=
  (contentOrThrow (o.lookup name)).map fun text => text.bind toIntOrNull

/-- The keepalive interval under its two names; the second is looked at only if the first gives
    nothing. -/
def keepaliveOrThrow (o : JsonObject) : Option Int :=
  (intOrThrow o "persistent_keepalive_interval").bind fun first =>
    match first with
    | some n => some n
    | none => (intOrThrow o "persistent_keepalive").map fun second => second.getD 25

/-- `(o["local_address"] as? JsonArray)?.mapNotNull { it.jsonPrimitive.contentOrNull }`. -/
def addressesOrThrow (o : JsonObject) : Option (List String) :=
  match (o.lookup "local_address").bind jsonArrayOrNull with
  | none => some []
  | some items => (items.mapM fun item => contentOrThrow (some item)).map fun l => l.filterMap id

def wireguardOutbound (tag secret peerPub endpoint : String) (addresses : List String)
    (mtu : Option Int) (keepalive : Int) : JsonObject :=
  [("tag", .str tag), ("protocol", .str "wireguard"),
    ("settings", .object ([("secretKey", .str secret), ("address", .strs addresses),
        ("domainStrategy", .str "ForceIPv4"),
        ("peers", .array [.object [("publicKey", .str peerPub), ("endpoint", .str endpoint),
          ("allowedIPs", .strs ["0.0.0.0/0"]), ("keepAlive", .num keepalive)]])] ++
      fieldOf "mtu" (mtu.map .num)))]

def buildWireguardBaseOutbound (tag : String) : Option (Option JsonObject) :=
  match (p.rawOutbound.filter isNotBlank).bind fun raw => (rt.parse raw).bind jsonObjectOrNull with
  | none => some none
  | some o =>
    orReturn (contentOrThrow (o.lookup "private_key")) fun secret =>
    orReturn (contentOrThrow (o.lookup "peer_public_key")) fun peerPub =>
    (contentOrThrow (o.lookup "server")).bind fun server =>
    orReturn (intOrThrow o "server_port") fun port =>
    (addressesOrThrow o).bind fun addresses =>
    (intOrThrow o "mtu").bind fun mtu =>
    (keepaliveOrThrow o).map fun keepalive =>
      some (wireguardOutbound tag secret peerPub
        (server.getD "127.0.0.1" ++ ":" ++ toString port) addresses mtu keepalive)

end OlcVpn.Xray
