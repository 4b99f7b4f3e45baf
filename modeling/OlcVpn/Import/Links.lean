/-
  IMPORTING A TEXT: from a pasted or downloaded text to a bundle of locations.

  A text may hold links of several families, one to a line, and each family has its own parser.  All
  of them are run over the SAME text, each picks up the lines of its own scheme, and the results are
  concatenated under storage ids that are made distinct again.  Only a text in which no link is
  found is tried as a document: a WireGuard file, an Xray or sing-box configuration, a backup.

  The parser of a single link is a parameter (`LinkParsers`): what is modelled is which line is
  given to which parser, and what becomes of the answers.
-/
import OlcVpn.Kotlin.Json
import OlcVpn.Kotlin.Lines
import OlcVpn.Locations.Refresh

namespace OlcVpn.Locations

open Kotlin List
open Option (some)
open String (ofList)
open LocationEntry (ofLocation storageId)

/-! ## What a parser finds -/

/-- What one link stands for: a location, its metadata, and the text its id is made from. -/
structure Draft where
  idBase : String
  location : LocationConfig
  metadata : Option LocationMetadata := none

def Draft.entry (d : Draft) (subscriptionUrl : Option String) (storageId : String) :
    LocationEntry :=
  ofLocation storageId d.location subscriptionUrl d.metadata

/-- Calls of `uniqueStorageId` in order: each id is distinct from those before it. -/
def uniqueStorageIds (usedStorageIds : List String) : List String → List String
  | [] => []
  | base :: rest =>
    let storageId := uniqueStorageId base usedStorageIds
    storageId :: uniqueStorageIds (storageId :: usedStorageIds) rest

/-- The entries of one parser. -/
def storeDrafts (subscriptionUrl : Option String) (drafts : List Draft) : List LocationEntry :=
  List.zipWith (fun d storageId => d.entry subscriptionUrl storageId) drafts
    (uniqueStorageIds [] (drafts.map Draft.idBase))

/-- The bundle of one parser, or nothing where it found nothing; the first entry is active. -/
def bundleOf (subscriptionUrl : Option String) (drafts : List Draft) : Option LocationBundle :=
  if drafts.isEmpty then none
  else
    let entries := storeDrafts subscriptionUrl drafts
    some { activeLocationId := entries.head?.map storageId, locations := entries }

structure ParsedOlcRtcUri where
  location : LocationConfig
  mimo : Option String

structure FreeturnLink where
  uri : String
  serverIp : String
  serverPort : Int
  listenPort : Int
  mode : String
  wgOutboundJson : String
  exitProxyLink : String
  comment : String

structure QwdttLink where
  name : String
  peer : String
  listenPort : Int

structure CsqttLink where
  host : String
  port : Int

structure OpenFluxLink where
  name : String
  config : OpenFluxConfig

inductive Base64Codec where
  | default | urlSafe | mime
  deriving DecidableEq, Repr

/-- The parsers of single links, and the libraries for Base64 and JSON. -/
structure LinkParsers where
  /-- The payload of a `yptun://inbound` link, and whether it is compressed. -/
  inboundPayload : Bool → String → Option LocationConfig
  parseOlcRtcUri : String → Option ParsedOlcRtcUri
  freeturn : String → Option FreeturnLink
  qwdtt : String → Option QwdttLink
  csqtt : String → Option CsqttLink
  openFlux : String → Option OpenFluxLink
  vless : String → Option ProxyProfile
  vmess : String → Option ProxyProfile
  trojan : String → Option ProxyProfile
  shadowsocks : String → Option ProxyProfile
  hysteria2 : String → Option ProxyProfile
  naive : String → Option ProxyProfile
  /-- The `amneziawg://` link, and the configuration file itself. -/
  amneziaWgLink : String → Option ProxyProfile
  amneziaWg : String → Option ProxyProfile
  trustTunnel : String → Option ProxyProfile
  /-- `codec.decode(pad(compact)).decodeToString()`. -/
  decodeBase64 : Base64Codec → String → Option String
  parseToJsonElement : String → Option Json
  rawXrayDraft : JsonObject → Option Draft
  rawSingBoxDraft : Json → JsonObject → Option Draft
  /-- `json.decodeFromJsonElement(LocationEntry.serializer(), root)`. -/
  decodeEntry : JsonObject → Option LocationEntry
  /-- `intOrNull` of a primitive's content. -/
  intOrNull : String → Option Int

/-- Parsers that know no link. -/
def noParsers : LinkParsers where
  inboundPayload _ _ := none
  parseOlcRtcUri _ := none
  freeturn _ := none
  qwdtt _ := none
  csqtt _ := none
  openFlux _ := none
  vless _ := none
  vmess _ := none
  trojan _ := none
  shadowsocks _ := none
  hysteria2 _ := none
  naive _ := none
  amneziaWgLink _ := none
  amneziaWg _ := none
  trustTunnel _ := none
  decodeBase64 _ _ := none
  parseToJsonElement _ := none
  rawXrayDraft _ := none
  rawSingBoxDraft _ _ := none
  decodeEntry _ := none
  intOrNull _ := none

/-! ## The text as lines -/

/-- `contains(word, ignoreCase = true)` with a lower-case ASCII word. -/
def containsIgnoreCase (s word : String) : Bool :=
  contains (ofList (s.toList.map foldAscii)) word

/-- `substringAfter(delimiter, "")`. -/
def substringAfter (s : String) (delimiter : Char) : String :=
  ofList ((s.toList.dropWhile (· != delimiter)).drop 1)

/-- `removePrefix(text)`. -/
def removeStart (s start : String) : String :=
  if startsWith s start then ofList (s.toList.drop start.toList.length) else s

/-- `length`, in UTF-16 units. -/
def utf16Length (s : String) : Nat :=
  s.toList.length + s.toList.countP fun c => 0xffff < c.toNat

/-- The byte order mark some editors put in front. -/
def utf8Bom : String := ofList [Char.ofNat 0xfeff]

def normalizedImportText (s : String) : String := trim (removeStart (trim s) utf8Bom)

/-- The fields of a panel's answer that hold links. -/
def linksOf (root : JsonObject) : List String :=
  ["links", "ssConfLinks"].flatMap fun key =>
    (((root.lookup key).bind jsonArrayOrNull).getD []).filterMap fun element =>
      match element with
      | .null => some "null"
      | .literal _ content => some content
      | _ => none

variable (P : LinkParsers) (used : List String)

def extractJsonLinks (body : String) : Option (List String) :=
  if !startsWith body "\x7b" then none
  else
    ((P.parseToJsonElement body).bind jsonObjectOrNull).bind fun root =>
      if (linksOf root).isEmpty then none else some (linksOf root)

def maybeBase64Decode (value : String) : Option String :=
  if contains value "://" then none
  else
    let compact := ofList (value.toList.filter fun c => !(c = '\n' || c = '\r' || c = ' '))
    if utf16Length compact < 8 then none
    else
      [Base64Codec.default, .urlSafe, .mime].findSome? fun codec =>
        (P.decodeBase64 codec compact).filter (contains · "://")

/-- `SubscriptionDecoder.toLinkText`. -/
def toLinkText (body : String) : String :=
  match extractJsonLinks P (trim body) with
  | some links => joinToString "\n" links
  | none => (maybeBase64Decode P (trim body)).getD body

/-- `SubscriptionDecoder.toLinks`. -/
def toLinks (body : String) : List String :=
  nonBlank ((extractJsonLinks P (trim body)).getD
    (splitWhere isLineBreak ((maybeBase64Decode P (trim body)).getD (trim body))))

/-! ## yptun://inbound -/

def inboundPrefix : String := "yptun://inbound"

/-- The payload of a link and whether it is compressed: the first of its parameters that holds one,
    or else what follows `#`. -/
def extractData (uri : String) : Option (Bool × String) :=
  let afterScheme := removeStart uri inboundPrefix
  let query := substringBefore (substringAfter afterScheme '?') '#'
  let fragment := substringAfter afterScheme '#'
  let pairs := if query = "" then [] else splitWhere (fun c => c = '&' || c = ';') query
  (pairs.findSome? fun pair =>
    let k := substringBefore pair '='
    let v := substringAfter pair '='
    if k = "c" ∧ isNotBlank v then some (true, v)
    else if (k = "d" ∨ k = "data") ∧ isNotBlank v then some (false, v)
    else none).or (if isBlank fragment then none else some (false, fragment))

/-- `YptunInboundCodec.parse`. -/
def parseInbound (uri : String) : Option LocationConfig :=
  let t := trim uri
  if !startsWith t inboundPrefix then none
  else
    (extractData t).bind fun data =>
      (P.inboundPayload data.1 (withoutWhitespace data.2)).map LocationConfig.normalized

variable (text : String)

/-- A single link that arrived wrapped is unwrapped first. -/
def inboundSource : String :=
  let single := withoutWhitespace text
  if startsWith single inboundPrefix &&
      !contains (ofList (single.toList.drop 1)) inboundPrefix then single
  else text

def inboundDraft (index : Nat) (location : LocationConfig) : Draft where
  idBase := importedBase location.normalized.storageSlug index
  location := location.normalized

/-- The locations of the lines that hold a link. -/
def inboundLocations (lines : List String) : List LocationConfig :=
  ((lines.map normalizedImportText).filter (startsWith · inboundPrefix)).filterMap (parseInbound P)

variable (subscriptionUrl : Option String)

def parseYptunInboundText :
    Option LocationBundle :=
  if !contains text inboundPrefix then none
  else
    bundleOf subscriptionUrl
      ((inboundLocations P (lineSequence (inboundSource text))).mapIdx inboundDraft)

/-! ## olcrtc:// -/

def olcRtcPrefix : String := "olcrtc://"

/-- `key: value`. -/
def parseSubscriptionField (value : String) : Option (String × String) :=
  if !value.toList.contains ':' ∨ substringBefore value ':' = "" then none
  else some (lowercase (trim (substringBefore value ':')), trim (substringAfter value ':'))

/-- What the lines of an olcRTC subscription have said so far. -/
structure OlcRtcState where
  subscriptionFields : List (String × String) := []
  locations : List (ParsedOlcRtcUri × List (String × String)) := []

/-- One line.  A local field belongs to the last link. -/
def olcRtcLine (s : OlcRtcState) (line : String) : OlcRtcState :=
  if startsWith line olcRtcPrefix then
    match P.parseOlcRtcUri line with
    | some parsed => { s with locations := s.locations ++ [(parsed, [])] }
    | none => s
  else if startsWith line "##" && !s.locations.isEmpty then
    match parseSubscriptionField (removeStart line "##") with
    | some (key, value) =>
      { s with
        locations := s.locations.dropLast ++
          s.locations.getLast?.toList.map fun last => (last.1, put last.2 key value) }
    | none => s
  else if startsWith line "#" then
    match parseSubscriptionField (removeStart line "#") with
    | some (key, value) => { s with subscriptionFields := put s.subscriptionFields key value }
    | none => s
  else s

def buildSubscriptionMetadata (fields : List (String × String)) : Option SubscriptionMetadata :=
  let s := SubscriptionMetadata.normalized
    { name := fields.lookup "name"
      update := fields.lookup "update"
      refresh := fields.lookup "refresh"
      color := fields.lookup "color"
      icon := fields.lookup "icon"
      used := fields.lookup "used"
      available := fields.lookup "available" }
  if s.isEmpty then none else some s

def buildLocationMetadata (fields : List (String × String)) (mimo : Option String)
    (subscription : Option SubscriptionMetadata) : Option LocationMetadata :=
  let m := LocationMetadata.normalized
    { name := fields.lookup "name"
      color := fields.lookup "color"
      icon := fields.lookup "icon"
      used := fields.lookup "used"
      available := fields.lookup "available"
      ip := fields.lookup "ip"
      comment := fields.lookup "comment"
      mimo := mimo
      subscription := subscription }
  if m.isEmpty then none else some m

/-- The product of two 64-bit numbers, wrapped. -/
def wrapLong (value : Int) : Int := Int.bmod value 18446744073709551616

/-- `\s` of a regular expression. -/
def isRegexSpace (c : Char) : Bool := c = ' ' || (0x09 ≤ c.toNat && c.toNat ≤ 0x0d)

/-- The line ends besides `\n` and `\r` that `$` may stand before, at the end of the text. -/
def withoutFinalLineEnd (l : List Char) : List Char :=
  if l.getLast?.any fun c => [0x85, 0x2028, 0x2029].contains c.toNat then l.dropLast else l

/-- `\s*([smhd]?)\s*$` after the digits. -/
def refreshUnit (rest : List Char) : Option (Option Char) :=
  match ((withoutFinalLineEnd rest).dropWhile isRegexSpace).rdropWhile isRegexSpace with
  | [] => some none
  | [c] => if ['s', 'm', 'h', 'd'].contains (foldAscii c) then some (some c) else none
  | _ => none

/-- `refreshIntervalHours("10m")`: hours, rounded up, between the least and the greatest interval.
    -/
def refreshIntervalHours (value : Option String) : Option Int :=
  value.bind fun text =>
    let start := text.toList.dropWhile isRegexSpace
    let digits := start.takeWhile Char.isDigit
    if digits.isEmpty then none
    else
      (refreshUnit (start.dropWhile Char.isDigit)).bind fun unit =>
        (toLongOrNull (ofList digits)).bind fun amount =>
          let seconds :=
            match unit.map fun c => lowercase (ofList [c]) with
            | some "m" => wrapLong (amount * 60)
            | some "h" => wrapLong (amount * 3600)
            | some "d" => wrapLong (amount * 86400)
            | _ => amount
          if seconds ≤ 0 then none
          else some (coerceIn (wrapLong (seconds + 3599) / 3600) 1 720)

def withSubscriptionInterval (metadata : Option SubscriptionMetadata) (hours : Option Int) :
    Option SubscriptionMetadata :=
  match hours with
  | none => metadata
  | some h => some (SubscriptionMetadata.normalized
      { metadata.getD {} with updateIntervalHours := some h })

def olcRtcDraft (subscription : Option SubscriptionMetadata) (index : Nat)
    (found : ParsedOlcRtcUri × List (String × String)) : Draft :=
  let metadata := buildLocationMetadata found.2 found.1.mimo subscription
  let location := LocationConfig.normalized
    { found.1.location with
      name := firstNotBlank [metadata.bind LocationMetadata.name, found.1.mimo,
        some found.1.location.name] }
  { idBase := importedBase location.storageSlug index, location := location, metadata := metadata }

def parseOlcRtcText (updateIntervalHours : Option Int) : Option LocationBundle :=
  if !contains text olcRtcPrefix then none
  else
    let lines := ((lineSequence text).map normalizedImportText).filter isNotBlank
    let s := lines.foldl (olcRtcLine P) {}
    let subscription := withSubscriptionInterval (buildSubscriptionMetadata s.subscriptionFields)
      (updateIntervalHours.or (refreshIntervalHours (s.subscriptionFields.lookup "refresh")))
    bundleOf subscriptionUrl (s.locations.mapIdx (olcRtcDraft subscription))

/-! ## Proxy links -/

/-- The knobs that tell an AmneziaWG file from a plain WireGuard one. -/
def awgKeys : List String := ["jc", "jmin", "jmax", "s1", "s2", "h1", "h2", "h3", "h4"]

/-- `line.substringBefore('=', "")`, as a key. -/
def awgKey (line : String) : String :=
  if line.toList.contains '=' then lowercase (trim (substringBefore line '=')) else ""

def looksLikeAmneziaWg : Bool :=
  containsIgnoreCase text "[interface]" &&
    (lineSequence text).any fun line => awgKeys.contains (awgKey line)

/-- The key of a line is that of the trimmed line. -/
theorem awgKey_trim (line : String) : awgKey (trim line) = awgKey line := by
  by_cases hmem : '=' ∈ line.toList
  · obtain ⟨before, after, hline, hfree⟩ := eq_append_cons_of_mem hmem
    have hsplit : line.toList = before ++ ['='] ++ after := by rw [hline, append_assoc]; rfl
    have htrim : (trim line).toList = before.dropWhile isWhitespace ++
        '=' :: after.rdropWhile isWhitespace := by
      rw [toList_trim, hsplit, trimChars_around before after (cons_ne_nil _ _) (by simp; decide),
        append_assoc]
      rfl
    have hfree' : '=' ∉ before.dropWhile isWhitespace :=
      fun h => hfree ((dropWhile_sublist _).subset h)
    rw [awgKey, awgKey, htrim, hline, if_pos (by simp), if_pos (by simp), substringBefore,
      substringBefore, htrim,
      hline, takeWhile_cut hfree, takeWhile_cut hfree', trim_ofList, trim_ofList]
    rw [trimChars, trimChars, dropWhile_idempotent]
  · have hmem' : '=' ∉ (trim line).toList := fun h => hmem (mem_of_mem_trim h)
    rw [awgKey, awgKey, if_neg (fun h => hmem (contains_iff_mem.mp h)),
      if_neg (fun h => hmem' (contains_iff_mem.mp h))]

/-- Only the lines that are not blank count. -/
theorem looksLikeAmneziaWg_lines (text : String) : looksLikeAmneziaWg text =
    (containsIgnoreCase text "[interface]" &&
      (nonBlankLines text).any fun line => awgKeys.contains (awgKey line)) := by
  rw [looksLikeAmneziaWg, any_lines (fun line => by rw [awgKey_trim]) (by decide)]
  rfl

/-- `ShareLinkParser.parse`: the scheme decides. -/
def parseShareLink (uri : String) : Option ProxyProfile :=
  let trimmed := trim uri
  if startsWithIgnoreCase trimmed "vless://" then P.vless trimmed
  else if startsWithIgnoreCase trimmed "vmess://" then P.vmess trimmed
  else if startsWithIgnoreCase trimmed "trojan://" then P.trojan trimmed
  else if startsWithIgnoreCase trimmed "ss://" then P.shadowsocks trimmed
  else if startsWithIgnoreCase trimmed "hysteria2://" || startsWithIgnoreCase trimmed "hy2://" then
    P.hysteria2 trimmed
  else if startsWithIgnoreCase trimmed "naive+" || startsWithIgnoreCase trimmed "naive://" then
    -- `parseNaive` knows three schemes and takes nothing else
    if ["naive+https://", "naive+quic://", "naive://"].any (startsWithIgnoreCase trimmed) then
      P.naive trimmed
    else none
  else if startsWithIgnoreCase trimmed "amneziawg://" then P.amneziaWgLink trimmed
  else if looksLikeAmneziaWg trimmed then P.amneziaWg trimmed
  else if startsWithIgnoreCase trimmed "tt://" then P.trustTunnel trimmed
  else none

/-- `ShareLinkParser.parseSubscription`. -/
def parseSubscription (body : String) : List ProxyProfile :=
  ((toLinks P body).filterMap (parseShareLink P)).filter ProxyProfile.isComplete

def ProxyProfile.displayName (p : ProxyProfile) : String :=
  ifBlank p.tag (p.server ++ ":" ++ toString p.serverPort)

/-- Letters and digits of a lower-cased text; the rest becomes `_`.  A character above U+FFFF is two
    UTF-16 units, neither of which is a letter. -/
def idText (s : String) : String :=
  ofList ((lowercase s).toList.flatMap fun c =>
    if 0xffff < c.toNat then ['_', '_'] else if isLetterOrDigit c then [c] else ['_'])

def proxyDraft (metadata : Option LocationMetadata) (profile : ProxyProfile) : Draft where
  idBase := "imported_" ++ idText (profile.server ++ "_" ++ toString profile.serverPort)
  location := LocationConfig.normalized
    { name := profile.displayName, engine := .standard, proxy := some profile }
  metadata := metadata

def parseProxyText (subscriptionMetadata : Option SubscriptionMetadata) : Option LocationBundle :=
  bundleOf subscriptionUrl ((parseSubscription P text).map
    (proxyDraft (subscriptionMetadata.map fun s => { subscription := some s })))

/-! ## VK-TURN and OpenFlux links -/

/-- The trimmed lines of one scheme. -/
def schemeLines (scheme text : String) : List String :=
  ((lineSequence (trim text)).map trim).filter (startsWithIgnoreCase · scheme)

def freeturnDraft (link : FreeturnLink) : Draft :=
  let name := ifBlank link.comment ("VK-TURN " ++ link.serverIp)
  let location :=
    if link.mode = "tcp" then
      let base := (parseShareLink P link.exitProxyLink).getD {}
      LocationConfig.normalized
        { name := name
          engine := .vkTurn
          proxy := some { base with tag := name, server := "127.0.0.1", serverPort := 9000 }
          vkturn := some
            { uri := link.uri
              listenPort := 9000
              outbound := "proxy"
              outboundProxyLink := link.exitProxyLink } }
    else
      LocationConfig.normalized
        { name := name
          engine := .vkTurn
          proxy := some
            { tag := name
              type := "wireguard"
              server := link.serverIp
              serverPort := link.serverPort
              rawOutbound := some link.wgOutboundJson }
          vkturn := some { uri := link.uri, listenPort := link.listenPort } }
  { idBase := "imported_vkturn_" ++ idText (link.serverIp ++ "_" ++ toString link.serverPort)
    location := location }

def parseFreeturnText : Option LocationBundle :=
  bundleOf subscriptionUrl
    (((schemeLines "freeturn://" text).filterMap P.freeturn).map (freeturnDraft P))

def qwdttDraft (link : QwdttLink) : Draft where
  idBase := "imported_qwdtt_" ++ idText link.peer
  location := LocationConfig.normalized
    { name := ifBlank link.name ("qWDTT " ++ link.peer)
      engine := .vkTurn
      vkturn := some
        { core := "wdtt"
          wdttPeer := link.peer
          listenPort := if validPort link.listenPort then link.listenPort else 9000 } }

def parseQwdttText : Option LocationBundle :=
  bundleOf subscriptionUrl (((schemeLines "qwdtt://" text).filterMap P.qwdtt).map qwdttDraft)

def csqttDraft (link : CsqttLink) : Draft where
  idBase := "imported_csqtt_" ++ idText link.host
  location := LocationConfig.normalized
    { name := "csqtt " ++ link.host
      engine := .vkTurn
      vkturn := some { core := "csqtt", csqttPeer := link.host, csqttPort := link.port } }

def parseCsqttText : Option LocationBundle :=
  bundleOf subscriptionUrl (((schemeLines "csqtt://" text).filterMap P.csqtt).map csqttDraft)

def OpenFluxConfig.summary (o : OpenFluxConfig) : String :=
  if o.transport = "oneme" then "MAX · звонок " ++ o.maxUid
  else if o.transport = "vyandex" then "Яндекс Документы (новый редактор)"
  else if o.transport = "mailru" then "Mail.ru Документы"
  else if o.transport = "cupsonline" then "cups.online"
  else "Яндекс Документы"

/-- `takeLast(n)`. -/
def takeLast (s : String) (n : Nat) : String :=
  ofList (s.toList.drop (s.toList.length - n))

def openFluxDraft (link : OpenFluxLink) : Draft where
  idBase := "imported_openflux_" ++ takeLast (idText link.config.docUrl) 40
  location := LocationConfig.normalized
    { name := ifBlank link.name ("OpenFlux " ++ link.config.summary)
      engine := .openFlux
      openFlux := some link.config }

def parseOpenFluxText : Option LocationBundle :=
  bundleOf subscriptionUrl
    (((schemeLines "openflux://" text).filterMap P.openFlux).map openFluxDraft)

/-! ## Documents -/

def awgDraft (profile : ProxyProfile) : Draft where
  idBase := "imported_awg_" ++ idText (profile.server ++ "_" ++ toString profile.serverPort)
  location := LocationConfig.normalized
    { name := ifBlank profile.tag "AmneziaWG", engine := .standard, proxy := some profile }

def parseAmneziaWgText : Option LocationBundle :=
  if !looksLikeAmneziaWg (trim text) then none
  else bundleOf subscriptionUrl ((P.amneziaWg (trim text)).map awgDraft).toList

/-- A JSON object or array. -/
def parseDocument : Option Json :=
  if !startsWith (trim text) "\x7b" && !startsWith (trim text) "[" then none
  else P.parseToJsonElement (trim text)

/-- The objects of a document: itself, or the elements of its array. -/
def documentObjects : Json → Option (List JsonObject)
  | .object root => some [root]
  | .array items => some (items.filterMap jsonObjectOrNull)
  | _ => none

def parseRawXray : Option LocationBundle :=
  ((parseDocument P text).bind documentObjects).bind fun configs =>
    bundleOf subscriptionUrl (configs.filterMap P.rawXrayDraft)

/-- The outbounds of a sing-box document: those of a full configuration, or the document itself. -/
def singBoxOutbounds (element : Json) : Option (List JsonObject) :=
  match (jsonObjectOrNull element).bind (·.lookup "outbounds") with
  | some outbounds => (jsonArrayOrNull outbounds).map (·.filterMap jsonObjectOrNull)
  | none => documentObjects element

def parseRawSingBox : Option LocationBundle :=
  (parseDocument P text).bind fun element =>
    (singBoxOutbounds element).bind fun outbounds =>
      bundleOf subscriptionUrl ((outbounds.filter fun o =>
        (o.lookup "type").isSome && (o.lookup "server").isSome).filterMap
          (P.rawSingBoxDraft element))

variable (root : JsonObject)

def decodeLocationEntry (subscriptionUrl : Option String) :
    Option LocationEntry :=
  ((P.decodeEntry root).map fun e =>
    LocationEntry.normalized
      (if isNullOrBlank e.subscriptionUrl && !isNullOrBlank subscriptionUrl then
        { e with subscriptionUrl := subscriptionUrl }
      else e)).filter (·.location.isStorable)

/-- `transportArgInt(args, name)`.  Where the name does not occur, the first part is read. -/
def transportArgInt (args name : String) : Option Int :=
  let parts := (splitWhere isRegexSpace args).filter isNotBlank
  (parts[((parts.findIdx? (· = name)).map (· + 1)).getD 0]?).bind toIntOrNull

/-- The values of several names in two objects, the first object's first. -/
def namedStrings (source root : JsonObject) (inSource inRoot : List String) :
    List (Option String) :=
  inSource.map (JsonObject.string source) ++ inRoot.map (JsonObject.string root)

def firstInt (values : List (Option Int)) : Option Int := values.findSome? id

/-- A location written by hand, in any of the spellings that were ever in use. -/
def plainLocation (source root : JsonObject) : LocationConfig :=
  let int (o : JsonObject) (name : String) := (JsonObject.string o name).bind P.intOrNull
  let provider := firstNotBlank
    (namedStrings source root
      ["auth_provider", "authProvider", "bypass_provider", "bypassProvider", "provider"] [] ++
     [((root.lookup "turn").bind jsonObjectOrNull).bind (JsonObject.string · "type")] ++
     namedStrings source root []
      ["auth_provider", "authProvider", "bypass_provider", "bypassProvider", "provider"])
  let transportArgs := firstNotBlank (namedStrings source root
    ["transport_args", "transportArgs", "args"] ["transport_args", "transportArgs", "args"])
  let argInt (name : String) :=
    if isBlank transportArgs then none else transportArgInt transportArgs name
  LocationConfig.normalized
    { name := firstNotBlank (namedStrings source root ["name"] ["name"])
      id := firstNotBlank (namedStrings source root ["id", "room_id", "server"] ["id"])
      key := firstNotBlank
        (namedStrings source root ["key", "encryption_key", "password"] ["key"])
      bypassProvider := provider
      transport := firstNotBlank (namedStrings source root ["transport"] ["transport"] ++
        [if isNotBlank transportArgs then some "vp8channel" else none])
      vp8Fps := (firstInt [int source "vp8_fps", int source "vp8Fps", int root "vp8_fps",
        int root "vp8Fps", argInt "-vp8-fps"]).getD 60
      vp8Batch := (firstInt [int source "vp8_batch", int source "vp8Batch", int root "vp8_batch",
        int root "vp8Batch", argInt "-vp8-batch"]).getD 64 }

def parseSingleLocation (fallbackStorageId : Option String)
    (subscriptionUrl : Option String) : Option LocationEntry :=
  (decodeLocationEntry P root subscriptionUrl).or
    (let source := (((root.lookup "location").bind jsonObjectOrNull).or
        ((root.lookup "hysteria").bind jsonObjectOrNull)).getD root
     let location := plainLocation P source root
     -- the engine is the default one, for which complete and storable are the same
     if !location.isStorable then none
     else
       let storageId := firstNotBlank (fallbackStorageId ::
         (namedStrings root source ["storage_id", "storageId"] ["storage_id", "storageId"] ++
           [some ("imported_" ++ location.storageSlug)]))
       some (ofLocation storageId location subscriptionUrl none))

/-- `copy(metadata = metadata.withSubscriptionInterval(hours))`, saved. -/
def LocationEntry.withInterval (e : LocationEntry) (hours : Option Int) : LocationEntry :=
  match hours with
  | none => e.normalized
  | some h =>
    LocationEntry.normalized
      { e with
        metadata := some (withSubscription e.metadata fun subscription =>
          { subscription with updateIntervalHours := some h }) }

/-- The storage id an item of an old backup names. -/
def itemStorageId (item : JsonObject) : Option String :=
  ((JsonObject.string item "storage_id").or (JsonObject.string item "storageId")).or
    ((JsonObject.string item "id").map fun id => "imported_" ++ storageSlug id)

def parseBundle (subscriptionUrl : Option String)
    (updateIntervalHours : Option Int) : Option LocationBundle :=
  (root.lookup "locations").bind fun element =>
    (jsonArrayOrNull element).bind fun items =>
      let locations := (items.filterMap jsonObjectOrNull).filterMap fun item =>
        ((decodeLocationEntry P item subscriptionUrl).or
          (parseSingleLocation P item (itemStorageId item) subscriptionUrl)).map
            (·.withInterval updateIntervalHours)
      let version := ((JsonObject.string root "version").bind P.intOrNull).getD 3
      if version < 3 ∧ locations.isEmpty then none
      else some
        { activeLocationId := (JsonObject.string root "active_location_id").or
            (JsonObject.string root "activeLocationId")
          locations := locations }

/-! ## All parsers -/

inductive ImportMode where
  | additive | restore
  deriving DecidableEq, Repr

structure ParsedImport where
  bundle : LocationBundle
  mode : ImportMode

/-- The entries under ids of their own. -/
def reassignIds (usedStorageIds : List String) (entries : List LocationEntry) :
    List LocationEntry :=
  List.zipWith (fun e storageId => { e with storageId := storageId }) entries
    (uniqueStorageIds usedStorageIds (entries.map storageId))

/-- Concatenate, under ids that are distinct across the families. -/
def mergeParsedBundles : List LocationBundle → Option LocationBundle
  | [] => none
  | [bundle] => some bundle
  | bundles =>
    let locations := reassignIds [] (bundles.flatMap LocationBundle.locations)
    some { activeLocationId := locations.head?.map storageId, locations := locations }

/-- What comes with the text: the URL it was fetched from and what the panel said beside it. -/
structure ImportContext where
  subscriptionUrl : Option String := none
  updateIntervalHours : Option Int := none
  subscriptionMetadata : Option SubscriptionMetadata := none

variable (ctx : ImportContext)

/-- The bundles of the six families with a scheme of their own. -/
def linkBundles (linkText : String) : List LocationBundle :=
  [parseYptunInboundText P linkText ctx.subscriptionUrl,
   parseOlcRtcText P linkText ctx.subscriptionUrl ctx.updateIntervalHours,
   parseFreeturnText P linkText ctx.subscriptionUrl, parseQwdttText P linkText ctx.subscriptionUrl,
   parseCsqttText P linkText ctx.subscriptionUrl,
   parseOpenFluxText P linkText ctx.subscriptionUrl].filterMap id

def parseJsonText (text : String) : Option ParsedImport :=
  if !startsWith text "\x7b" || text.toList.getLast? ≠ some '}' then none
  else
    ((P.parseToJsonElement text).bind jsonObjectOrNull).bind fun root =>
      match parseBundle P root ctx.subscriptionUrl ctx.updateIntervalHours with
      | some bundle => some ⟨bundle, .restore⟩
      | none =>
        (parseSingleLocation P root none ctx.subscriptionUrl).map fun e =>
          ⟨{ activeLocationId := some e.storageId
             locations := [e.withInterval ctx.updateIntervalHours] }, .additive⟩

/-- Everything but the app's own JSON. -/
def parseForeign (text : String) : Option LocationBundle :=
  let linkText := toLinkText P text
  let found := linkBundles P ctx linkText
  -- only a text without links of these families is tried as a file
  let document := if found.isEmpty then
      (parseAmneziaWgText P text ctx.subscriptionUrl).or (parseRawXray P text ctx.subscriptionUrl)
    else none
  let proxies := parseProxyText P linkText ctx.subscriptionUrl ctx.subscriptionMetadata
  (document.or (mergeParsedBundles (found ++ proxies.toList))).or
    (parseRawSingBox P text ctx.subscriptionUrl)

def parseImport (text : String) : Option ParsedImport :=
  ((parseForeign P ctx text).map fun bundle => ⟨bundle, .additive⟩).or (parseJsonText P ctx text)

/-! ## Distinct ids -/

theorem length_uniqueStorageIds (bases : List String) :
    (uniqueStorageIds used bases).length = bases.length := by
  induction bases generalizing used with
  | nil => rfl
  | cons base bases ih => simp [uniqueStorageIds, ih]

/-- The ids are distinct, and new. -/
theorem nodup_uniqueStorageIds (bases : List String) :
    (uniqueStorageIds used bases).Nodup ∧ ∀ id ∈ uniqueStorageIds used bases, id ∉ used := by
  induction bases generalizing used with
  | nil => simp [uniqueStorageIds]
  | cons base bases ih =>
    obtain ⟨hnd, hfresh⟩ := ih (uniqueStorageId base used :: used)
    have hrest : ∀ id ∈ uniqueStorageIds (uniqueStorageId base used :: used) bases,
        id ≠ uniqueStorageId base used ∧ id ∉ used := by
      intro id hid
      simpa using hfresh id hid
    constructor
    · exact nodup_cons.mpr ⟨fun h => (hrest _ h).1 rfl, hnd⟩
    · intro id hid
      rcases mem_cons.mp hid with rfl | hid
      · exact uniqueStorageId_not_mem base used
      · exact (hrest id hid).2

theorem isSlug_of_mem_uniqueStorageIds {used bases : List String} {id : String}
    (h : id ∈ uniqueStorageIds used bases) : IsSlug id := by
  induction bases generalizing used with
  | nil => simp [uniqueStorageIds] at h
  | cons base bases ih =>
    rcases mem_cons.mp h with rfl | h
    · exact isSlug_uniqueStorageId base used
    · exact ih h

/-- Entries built one by one from ids have those ids. -/
theorem map_storageId_zipWith {α : Type} {build : α → String → LocationEntry}
    (hbuild : ∀ a id, (build a id).storageId = trim id ∨ (build a id).storageId = id)
    (used bases : List String) {as : List α} (hlen : as.length = bases.length) :
    (List.zipWith build as (uniqueStorageIds used bases)).map storageId =
      uniqueStorageIds used bases := by
  induction bases generalizing used as with
  | nil => simp [uniqueStorageIds]
  | cons base bases ih =>
    cases as with
    | nil => simp at hlen
    | cons a as =>
      have hid : (build a (uniqueStorageId base used)).storageId = uniqueStorageId base used := by
        rcases hbuild a (uniqueStorageId base used) with h | h
        · rw [h, (isSlug_uniqueStorageId base used).trim_eq]
        · exact h
      simp only [uniqueStorageIds, zipWith_cons_cons, map_cons, hid]
      rw [ih _ (by simpa using hlen)]

theorem storageIds_reassignIds (entries : List LocationEntry) :
    (reassignIds used entries).map storageId =
      uniqueStorageIds used (entries.map storageId) :=
  map_storageId_zipWith (fun _ _ => .inr rfl) used _ (by simp)

/-- What ignores the numbers sees the numbered list. -/
theorem zipWith_forget {α β γ : Type} {f : α → β → γ} {g : α → γ} (hf : ∀ a b, f a b = g a)
    (as : List α) {bs : List β} (hlen : as.length = bs.length) : List.zipWith f as bs =
      as.map g := by
  induction as generalizing bs with
  | nil => simp
  | cons a as ih =>
    cases bs with
    | nil => simp at hlen
    | cons b bs => rw [zipWith_cons_cons, hf, ih (by simpa using hlen), map_cons]

/-- New ids are all that changes. -/
theorem map_reassignIds {α : Type} {view : LocationEntry → α}
    (hview : ∀ e id, view { e with storageId := id } = view e) (used : List String)
    (entries : List LocationEntry) : (reassignIds used entries).map view = entries.map view := by
  rw [reassignIds, map_zipWith]
  exact zipWith_forget hview entries (by simp [length_uniqueStorageIds])

theorem storageId_ofLocation (storageId : String) (location : LocationConfig)
    (url : Option String) (metadata : Option LocationMetadata) :
    (ofLocation storageId location url metadata).storageId = trim storageId := rfl

theorem storageIds_storeDrafts (subscriptionUrl : Option String) (drafts : List Draft) :
    (storeDrafts subscriptionUrl drafts).map storageId =
      uniqueStorageIds [] (drafts.map Draft.idBase) :=
  map_storageId_zipWith (fun _ _ => .inl (storageId_ofLocation _ _ _ _)) [] _ (by simp)

/-- What every parser of links and foreign files answers: entries under distinct slugs. -/
structure LocationBundle.Slugged (b : LocationBundle) : Prop where
  slugs : ∀ e ∈ b.locations, IsSlug e.storageId
  nodup : (b.locations.map storageId).Nodup

variable {b : LocationBundle}

theorem slugged_of_ids {used bases : List String}
    (h : b.locations.map storageId = uniqueStorageIds used bases) : b.Slugged where
  slugs _ he := isSlug_of_mem_uniqueStorageIds (h ▸ mem_map_of_mem he)
  nodup := h ▸ (nodup_uniqueStorageIds used bases).1

theorem slugged_bundleOf {subscriptionUrl : Option String} {drafts : List Draft}
    (h : bundleOf subscriptionUrl drafts = some b) : b.Slugged := by
  unfold bundleOf at h
  split_ifs at h
  obtain rfl := some.inj h
  exact slugged_of_ids (storageIds_storeDrafts subscriptionUrl drafts)

/-- Each family answers through `bundleOf`. -/
theorem slugged_linkBundles {P : LinkParsers} {ctx : ImportContext} {linkText : String}
    (h : b ∈ linkBundles P ctx linkText) : b.Slugged := by
  simp only [linkBundles, mem_filterMap, mem_cons, not_mem_nil, or_false, id_eq, exists_eq_right]
    at h
  rcases h with h | h | h | h | h | h
  · rw [eq_comm, parseYptunInboundText] at h
    split_ifs at h
    exact slugged_bundleOf h
  · rw [eq_comm, parseOlcRtcText] at h
    split_ifs at h
    exact slugged_bundleOf h
  all_goals exact slugged_bundleOf h.symm

theorem slugged_mergeParsedBundles {bundles : List LocationBundle} (hall : ∀ b ∈ bundles, b.Slugged)
    (h : mergeParsedBundles bundles = some b) : b.Slugged := by
  match bundles with
  | [] => simp [mergeParsedBundles] at h
  | [bundle] =>
    obtain rfl := some.inj h
    exact hall bundle mem_cons_self
  | first :: second :: rest =>
    obtain rfl := some.inj h
    exact slugged_of_ids (storageIds_reassignIds [] _)

theorem slugged_parseForeign {P : LinkParsers} {ctx : ImportContext} {text : String}
    (h : parseForeign P ctx text = some b) : b.Slugged := by
  simp only [parseForeign, Option.or_eq_some_iff] at h
  rcases h with (h | ⟨-, h⟩) | ⟨-, h⟩
  · split_ifs at h
    rcases Option.or_eq_some_iff.mp h with h | ⟨-, h⟩
    · unfold parseAmneziaWgText at h
      split_ifs at h
      exact slugged_bundleOf h
    · unfold parseRawXray at h
      obtain ⟨configs, -, h⟩ := Option.bind_eq_some_iff.mp h
      exact slugged_bundleOf h
  · refine slugged_mergeParsedBundles (fun b hb => ?_) h
    rcases mem_append.mp hb with hb | hb
    · exact slugged_linkBundles hb
    · exact slugged_bundleOf (Option.mem_toList.mp hb)
  · unfold parseRawSingBox at h
    obtain ⟨element, -, h⟩ := Option.bind_eq_some_iff.mp h
    obtain ⟨outbounds, -, h⟩ := Option.bind_eq_some_iff.mp h
    exact slugged_bundleOf h

end OlcVpn.Locations
