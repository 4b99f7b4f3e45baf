/-
  SHARE LINKS of proxy servers: `VlessUriParser`, `ShareLinkParser` and `ShareLinkComposer`.

  A `vless://` or `trojan://` link is `user@host:port?query#remark`; a `vmess://` link is the Base64
  of a JSON object.  Parsers and composer were written independently: the composer leaves out what
  it takes to be a default, and the parsers fill in what they take to be one.

  A field `jsonPrimitive` throws on makes `parseVmess` `none` here, as a missing one does.  The
  links of other protocols and the JSON library are parameters.
-/
import OlcVpn.Generate.Settings
import OlcVpn.Share.Chunk

namespace OlcVpn.Share

open Kotlin Locations Generate List
open String (ofList toList_ofList toList_append ofList_toList)
open Lib (Base64)

/-- What the links are read with beside the client's own code. -/
structure Libraries extends Platform where
  /-- `Json.parseToJsonElement`. -/
  parseToJsonElement : String → Option Json
  /-- `JsonObject.toString()`. -/
  printJson : JsonObject → String
  /-- The links of the other protocols, and the profiles of their types. -/
  parseOther : String → Option ServerProfile
  composeOther : ServerProfile → Option String

/-! ## Comma lists -/

/-- `split(',').map(f).filter { it.isNotEmpty() }`. -/
def pieces (f : String → String) (text : String) : List String :=
  ((splitWhere (· == ',') text).map f).filter (· ≠ "")

/-- `it in '0'..'9' || it.lowercaseChar() in 'a'..'f'`. -/
def isHexDigit (c : Char) : Bool := c.isDigit || ('a' ≤ c.toLower && c.toLower ≤ 'f')

/-- `toString(16).padStart(2, '0')` of every byte. -/
def hexText (bytes : List UInt8) : String :=
  ofList (bytes.flatMap fun b => [(hexDigit (b.toNat / 16)).toLower,
    (hexDigit (b.toNat % 16)).toLower])

/-- `replace(from, to)` of single characters. -/
def replaceChar (l : List Char) (old new : Char) : List Char :=
  l.map fun c => if c = old then new else c

/-- The pin with a raw `+` restored, which a query decodes as a space. -/
def pinText (pin : String) : List Char := replaceChar (trim pin).toList ' ' '+'

/-- The Base64 text a pin would be, with its padding. -/
def pinBase64 (p : List Char) : List Char :=
  let std := replaceChar (replaceChar p '-' '+') '_' '/'
  std ++ List.replicate ((4 - std.length % 4) % 4) '='

/-- `pinHex`: hexadecimal digits in lower case, or the 32 bytes of a Base64 text in hexadecimal. -/
def pinHex (pin : String) : String :=
  let p := pinText pin
  let hex := p.filter (· != ':')
  if hex.length = 64 ∧ hex.all isHexDigit = true then lowercase (ofList hex)
  else
    match Base64.standard.decode (pinBase64 p) with
    | some bytes => if bytes.length = 32 then hexText bytes else ofList p
    | none => ofList p

/-! ## Reading links -/

/-- The parameters of a link. -/
abbrev Params := String → Option String

/-- `params[key].orEmpty()`. -/
def Params.text (params : Params) (key : String) : String := (params key).getD ""

/-- The transport a link names. -/
def networkOf (type : Option String) : String :=
  match type.map lowercase with
  | some "ws" => "ws"
  | some "grpc" => "grpc"
  | some "http" | some "h2" => "http"
  | some "httpupgrade" => "httpupgrade"
  | some "xhttp" | some "splithttp" => "xhttp"
  | _ => "tcp"

/-- `withXrayParams`. -/
def withXrayParams (p : ServerProfile) (params : Params) : ServerProfile :=
  { p with
    vlessEncryption :=
      if equalsIgnoreCase (params.text "encryption") "none" then "" else params.text "encryption"
    -- grpc reuses the name `mode`
    xhttpMode := if p.network = "xhttp" then params.text "mode" else ""
    xhttpExtra := if p.network = "xhttp" then params.text "extra" else ""
    finalMask := params.text "fm"
    pinnedCertSha256 := joinToString "," (pieces pinHex (params.text "pcs"))
    verifyCertByName := params.text "vcn"
    echConfigList := params.text "ech"
    realityMldsa65Verify := params.text "pqv"
    realitySpiderX := params.text "spx" }

/-- The transport parameters, which `vless://` and `trojan://` links share. -/
def withStream (p : ServerProfile) (security : String) (params : Params) : ServerProfile :=
  let network := networkOf (params "type")
  withXrayParams { p with
    network := network
    security := security
    sni := ((params "sni").or (params "peer")).getD ""
    alpn := pieces trim (params.text "alpn")
    fingerprint := params.text "fp"
    allowInsecure := params "allowInsecure" = some "1" || params "allowInsecure" = some "true"
    realityPublicKey := params.text "pbk"
    realityShortId := params.text "sid"
    -- grpc carries its path as `serviceName`
    path := if network = "grpc" then params.text "serviceName" else params.text "path"
    host := params.text "host" } params

/-- `user@host:port?query#remark`. -/
structure LinkParts where
  remark : String
  query : String
  user : String
  host : String
  port : Int

variable (R : Platform) (L : Libraries) (pin : String)

/-- A link without its scheme, taken apart. -/
def linkParts (withoutScheme : String) : Option LinkParts :=
  let beforeFragment := substringBefore withoutScheme '#'
  (cutLast (substringBefore beforeFragment '?') '@').bind fun cut =>
    if cut.1 = "" then none
    else (splitHostPort cut.2).map fun (host, port) => {
      remark := percentDecode R (substringAfter withoutScheme '#')
      query := substringAfter beforeFragment '?'
      user := percentDecode R cut.1
      host := host
      port := port }

/-- The security of a `vless://` link: none unless it is named. -/
def vlessSecurity (security : Option String) : String :=
  match security.map lowercase with
  | some "tls" => "tls"
  | some "reality" => "reality"
  | _ => "none"

/-- The profile of a `vless://` link. -/
def vlessProfile (l : LinkParts) (params : Params) : ServerProfile :=
  withStream
    { tag := l.remark, type := "vless", server := l.host, serverPort := l.port, uuid := trim l.user,
      flow := params.text "flow" }
    (vlessSecurity (params "security")) params

variable (uri : String)

/-- `VlessUriParser.parse`. -/
def parseVless : Option ServerProfile :=
  let trimmed := trim uri
  if startsWithIgnoreCase trimmed "vless://" then
    (linkParts R (substringFrom trimmed 8)).bind fun l =>
      if isBlank (trim l.user) || isBlank l.host || !validPort l.port then none
      else some (vlessProfile l (param (parseQuery R l.query)))
  else none

/-- The security of a `trojan://` link: TLS unless the link says otherwise. -/
def trojanSecurity (security : Option String) : String :=
  if security.any (equalsIgnoreCase · "none") then "none"
  else if security.any (equalsIgnoreCase · "reality") then "reality"
  else "tls"

/-- The profile of a `trojan://` link. -/
def trojanProfile (l : LinkParts) (params : Params) : ServerProfile :=
  withStream
    { tag := l.remark, type := "trojan", server := l.host, serverPort :=
      l.port, password := l.user }
    (trojanSecurity (params "security")) params

/-- `parseTrojan`; neither the host nor the port is checked. -/
def parseTrojan : Option ServerProfile :=
  (linkParts R (substringFrom uri 9)).bind fun l =>
    if isBlank l.user then none else some (trojanProfile l (param (parseQuery R l.query)))

/-! ### VMess -/

/-- `str(keys)`: the first text that is not blank. -/
def str (o : JsonObject) : List String → Option String
  | [] => some ""
  | key :: keys =>
    (contentOrThrow (o.lookup key)).bind fun content =>
      match content with
      | some text => if isNotBlank text then some text else str o keys
      | none => str o keys

/-- `listOf("mode", "fm", "pcs", "vcn", "ech").associateWith { str(it) }`. -/
def vmessParams (o : JsonObject) : Option (List (String × String)) := do
  let mode ← str o ["mode"]
  let fm ← str o ["fm"]
  let pcs ← str o ["pcs"]
  let vcn ← str o ["vcn"]
  let ech ← str o ["ech"]
  some [("mode", mode), ("fm", fm), ("pcs", pcs), ("vcn", vcn), ("ech", ech)]

/-- The security of a VMess object. -/
def vmessSecurity (o : JsonObject) : Option String :=
  (str o ["tls"]).bind fun tls =>
    if equalsIgnoreCase tls "tls" then some "tls"
    else (str o ["security"]).map fun security =>
      if equalsIgnoreCase security "tls" then "tls" else "none"

/-- The profile of a VMess object; the fragment names it where the object does not. -/
def vmessProfile (o : JsonObject) (fragment : String) : Option ServerProfile := do
  let server ← str o ["add"]
  let port ← toIntOrNull (← str o ["port"])
  let uuid ← str o ["id"]
  if isBlank server || isBlank uuid then none
  else
    let network := networkOf (← str o ["net"])
    let security ← vmessSecurity o
    let path ← str o (if network = "grpc" then ["path", "serviceName"] else ["path"])
    let ps ← str o ["ps"]
    let aid ← str o ["aid"]
    let scy ← str o ["scy"]
    let sni ← str o ["sni", "peer"]
    let alpn ← str o ["alpn"]
    let fp ← str o ["fp"]
    let host ← str o ["host"]
    let insecure ← str o ["allowInsecure", "skip-cert-verify", "insecure"]
    let params ← vmessParams o
    some (withXrayParams
      { tag := ifBlank ps (percentDecode R fragment), type := "vmess", server := server
        serverPort := port, uuid := uuid, alterId := (toIntOrNull aid).getD 0
        cipher := ifBlank scy "auto", network := network, security := security, sni := sni
        alpn := pieces trim alpn, fingerprint := fp, path := path, host := host
        allowInsecure := insecure = "1" || equalsIgnoreCase insecure "true" }
      (param params))

/-- `parseVmess`. -/
def parseVmess : Option ServerProfile :=
  (decodeBase64Chunk L.toPlatform (substringBefore (substringFrom uri 8) '#')).bind fun text =>
    (L.parseToJsonElement text).bind fun element =>
      (jsonObjectOrNull element).bind fun o => vmessProfile L.toPlatform o (substringAfter uri '#')

/-- `ShareLinkParser.parse`. -/
def parseShareLink : Option ServerProfile :=
  let trimmed := trim uri
  if startsWithIgnoreCase trimmed "vless://" then parseVless L.toPlatform trimmed
  else if startsWithIgnoreCase trimmed "vmess://" then parseVmess L trimmed
  else if startsWithIgnoreCase trimmed "trojan://" then parseTrojan L.toPlatform trimmed
  else L.parseOther trimmed

/-- The parsers the importer runs, read as the ones modelled here. -/
structure LinksOf (L : Libraries) (P : LinkParsers) : Prop where
  vless : ∀ text, P.vless text = (parseVless L.toPlatform text).map (·.toProxyProfile)
  vmess : ∀ text, P.vmess text = (parseVmess L text).map (·.toProxyProfile)
  trojan : ∀ text, P.trojan text = (parseTrojan L.toPlatform text).map (·.toProxyProfile)
  other : ∀ uri, startsWithIgnoreCase (trim uri) "vless://" = false →
    startsWithIgnoreCase (trim uri) "vmess://" = false →
    startsWithIgnoreCase (trim uri) "trojan://" = false →
    Locations.parseShareLink P uri = (L.parseOther (trim uri)).map (·.toProxyProfile)

/-- The importer's dispatch is this one, without the transport fields. -/
theorem parseShareLink_importer {L : Libraries} {P : LinkParsers} (h : LinksOf L P) (uri : String) :
    Locations.parseShareLink P uri = (parseShareLink L uri).map (·.toProxyProfile) := by
  by_cases hvless : startsWithIgnoreCase (trim uri) "vless://" = true
  · simp only [Locations.parseShareLink, parseShareLink, hvless, if_true]
    exact h.vless _
  by_cases hvmess : startsWithIgnoreCase (trim uri) "vmess://" = true
  · simp only [Locations.parseShareLink, parseShareLink, hvless, hvmess, if_true]
    exact h.vmess _
  by_cases htrojan : startsWithIgnoreCase (trim uri) "trojan://" = true
  · simp only [Locations.parseShareLink, parseShareLink, hvless, hvmess, htrojan, if_true]
    exact h.trojan _
  rw [Bool.not_eq_true] at hvless hvmess htrojan
  rw [h.other uri hvless hvmess htrojan]
  simp [parseShareLink, hvless, hvmess, htrojan]

/-! ## Writing links -/

/-- `networkName`. -/
def networkName (network : String) : String :=
  if network ∈ ["ws", "grpc", "http", "httpupgrade", "xhttp"] then network else "tcp"

variable (p : ServerProfile)

/-- `commonStreamQuery`, one line for each `add`. -/
def streamEntries (includeFlow : Bool) : List (Bool × String × String) :=
  [(true, "type", networkName p.network),
   (p.security ≠ "none", "security", p.security),
   (isNotBlank p.sni, "sni", p.sni),
   (isNotBlank p.fingerprint, "fp", p.fingerprint),
   (p.alpn ≠ [], "alpn", joinToString "," p.alpn),
   (includeFlow && isNotBlank p.flow, "flow", p.flow),
   (isNotBlank p.realityPublicKey, "pbk", p.realityPublicKey),
   (isNotBlank p.realityShortId, "sid", p.realityShortId),
   (p.allowInsecure, "allowInsecure", "1"),
   (isNotBlank p.host, "host", p.host),
   (isNotBlank p.path, if p.network = "grpc" then "serviceName" else "path", p.path),
   (includeFlow && isNotBlank p.vlessEncryption, "encryption", p.vlessEncryption),
   (isNotBlank p.xhttpMode, "mode", p.xhttpMode),
   (isNotBlank p.xhttpExtra, "extra", p.xhttpExtra),
   (isNotBlank p.finalMask, "fm", p.finalMask),
   (isNotBlank p.pinnedCertSha256, "pcs", p.pinnedCertSha256),
   (isNotBlank p.verifyCertByName, "vcn", p.verifyCertByName),
   (isNotBlank p.echConfigList, "ech", p.echConfigList),
   (isNotBlank p.realityMldsa65Verify, "pqv", p.realityMldsa65Verify),
   (isNotBlank p.realitySpiderX, "spx", p.realitySpiderX)]

/-- `appendRemark`. -/
def remarkText (tag : String) : String := if isNotBlank tag then "#" ++ percentEncode tag else ""

/-- What follows the scheme of a `vless://` or `trojan://` link. -/
def linkText (user : String) (p : ServerProfile) (includeFlow : Bool) : String :=
  percentEncode user ++ "@" ++ hostPort p.server p.serverPort ++ "?" ++
    queryText (written (streamEntries p includeFlow)) ++ remarkText p.tag

/-- `composeVless`. -/
def composeVless : String := "vless://" ++ linkText p.uuid p true

/-- `composeTrojan`. -/
def composeTrojan : String := "trojan://" ++ linkText p.password p false

/-- The object of a VMess link. -/
def vmessObject : JsonObject :=
  [("v", .str "2"), ("ps", .str p.tag), ("add", .str p.server),
    ("port", .str (toString p.serverPort)),
   ("id", .str p.uuid), ("aid", .str (toString p.alterId)), ("scy", .str p.cipher),
   ("net", .str (networkName p.network)), ("type", .str "none"), ("host", .str p.host),
   ("path", .str p.path), ("tls", .str (if p.security = "none" then "" else "tls")),
   ("sni", .str p.sni), ("alpn", .str (joinToString "," p.alpn))]

/-- `composeVmess`. -/
def composeVmess : String :=
  "vmess://" ++ ofList (Base64.standard.bare (utf8 (L.printJson (vmessObject p))))

/-- `ShareLinkComposer.compose`; the types with a link of their own first, and a stored Xray
    configuration before the links. -/
def composeShareLink : Option String :=
  if p.type = "amneziawg" ∨ p.type = "trusttunnel" then L.composeOther p
  else if p.rawXrayConfig.any isNotBlank then p.rawXrayConfig
  else if p.type = "vless" then some (composeVless p)
  else if p.type = "trojan" then some (composeTrojan p)
  else if p.type = "vmess" then some (composeVmess L p)
  else L.composeOther p

/-! ## Comma lists are read as themselves -/

section Pieces

variable {f : String → String}

theorem pieces_join (hf : ∀ s, f (f s) = f s) (hempty : f "" = "")
    (hcomma : ∀ s, ',' ∉ s.toList → ',' ∉ (f s).toList) (text : String) :
    pieces f (joinToString "," (pieces f text)) = pieces f text := by
  -- each piece is an image of `f`, is not empty and has no comma
  have hpiece : ∀ s ∈ pieces f text, f s = s ∧ s ≠ "" ∧ ∀ c ∈ s.toList, (c == ',') = false := by
    intro s hs
    obtain ⟨hmem, hne⟩ := mem_filter.mp hs
    obtain ⟨part, hpart, rfl⟩ := mem_map.mp hmem
    obtain ⟨l, hl, rfl⟩ := mem_map.mp hpart
    have hfree : ',' ∉ (ofList l).toList := by
      rw [toList_ofList]
      intro hc
      have := not_of_mem_splitOnP hl ',' hc
      simp at this
    refine ⟨hf _, by simpa using hne, fun c hc => ?_⟩
    rw [beq_eq_false_iff_ne]
    rintro rfl
    exact hcomma _ hfree hc
  have hself : ((pieces f text).map f).filter (· ≠ "") = pieces f text := by
    rw [map_congr_left fun s hs => (hpiece s hs).1, map_id']
    exact filter_eq_self.mpr fun s hs => by simpa using (hpiece s hs).2.1
  by_cases hnil : pieces f text = []
  · rw [hnil]
    have hsplit : splitWhere (· == ',') (joinToString "," []) = [""] := by decide
    rw [pieces, hsplit, map_singleton, hempty]
    rfl
  · have hsplit := splitWhere_joinToString (p := (· == ',')) ',' (by decide) hnil fun s hs =>
      (hpiece s hs).2.2
    conv_lhs => rw [pieces]
    exact (congrArg (fun l => (l.map f).filter (· ≠ "")) hsplit).trans hself

theorem alpn_join (text : String) :
    pieces trim (joinToString "," (pieces trim text)) = pieces trim text :=
  pieces_join trim_trim (by decide) (fun _ h hc => h (mem_of_mem_trim hc)) text

end Pieces

/-! ### Pins -/

def isLowerHex (c : Char) : Bool := c.isDigit || ('a' ≤ c && c ≤ 'f')

theorem toNat_of_isHexDigit {c : Char} (h : isHexDigit c = true) : c.toNat < 128 := by
  by_contra hbig
  have hlower : c.toLower = c := by
    have hcases : c.toLower = if h : c.val ≥ 'A'.val ∧ c.val ≤ 'Z'.val then _ else c := rfl
    rw [hcases]
    split_ifs with hupper
    · have hlast : c.toNat ≤ 90 := hupper.2
      omega
    · rfl
  have hdigit : c.isDigit = (decide (48 ≤ c.toNat) && decide (c.toNat ≤ 57)) := rfl
  have hlast : c ≤ 'f' ↔ c.toNat ≤ 102 := Iff.rfl
  simp only [isHexDigit, hlower, hdigit, hlast, Bool.or_eq_true, Bool.and_eq_true,
    decide_eq_true_eq] at h
  omega

/-- What is known of the hexadecimal digits. -/
theorem hex_table : ∀ n < 128, isHexDigit (Char.ofNat n) = true →
    lowercaseChar (Char.ofNat n) = [(Char.ofNat n).toLower] ∧
      isLowerHex (Char.ofNat n).toLower = true := by
  decide

theorem lowerHex_table : ∀ n < 128, isLowerHex (Char.ofNat n) = true →
    isHexDigit (Char.ofNat n) = true ∧ isWhitespace (Char.ofNat n) = false ∧
      (Char.ofNat n).toLower = Char.ofNat n ∧
      Char.ofNat n ≠ ' ' ∧ Char.ofNat n ≠ ':' ∧ Char.ofNat n ≠ ',' := by
  decide

theorem lowercaseChar_hex {c : Char} (h : isHexDigit c = true) :
    lowercaseChar c = [c.toLower] ∧ isLowerHex c.toLower = true := by
  have htable := hex_table c.toNat (toNat_of_isHexDigit h)
  rw [Char.ofNat_toNat] at htable
  exact htable h

theorem isLowerHex_spec {c : Char} (h : isLowerHex c = true) :
    isHexDigit c = true ∧ isWhitespace c = false ∧ c.toLower = c ∧ c ≠ ' ' ∧ c ≠ ':' ∧ c ≠ ',' := by
  have hsmall : c.toNat < 128 := by
    have hranges : isLowerHex c = (decide (48 ≤ c.toNat) && decide (c.toNat ≤ 57) ||
        decide (97 ≤ c.toNat) && decide (c.toNat ≤ 102)) := rfl
    simp only [hranges, Bool.or_eq_true, Bool.and_eq_true, decide_eq_true_eq] at h
    omega
  have htable := lowerHex_table c.toNat hsmall
  rw [Char.ofNat_toNat] at htable
  exact htable h

/-- A pin in normal form. -/
structure HexPin (s : String) : Prop where
  length : s.toList.length = 64
  digits : ∀ c ∈ s.toList, isLowerHex c = true

theorem lowercase_hex {l : List Char} (h : ∀ c ∈ l, isHexDigit c = true) :
    (lowercase (ofList l)).toList = l.map Char.toLower := by
  rw [lowercase, toList_ofList, toList_ofList]
  induction l with
  | nil => rfl
  | cons c l ih =>
    rw [flatMap_cons, (lowercaseChar_hex (h c mem_cons_self)).1,
      ih fun d hd => h d (mem_cons_of_mem _ hd)]
    rfl

theorem hexPin_lowercase {l : List Char} (hlen : l.length = 64) (h : ∀ c ∈ l, isHexDigit c = true) :
    HexPin (lowercase (ofList l)) where
  length := by rw [lowercase_hex h, length_map, hlen]
  digits := by
    rw [lowercase_hex h]
    intro c hc
    obtain ⟨d, hd, rfl⟩ := mem_map.mp hc
    exact (lowercaseChar_hex (h d hd)).2

theorem hexDigit_lower : ∀ n < 16, isLowerHex (hexDigit n).toLower = true := by decide

theorem hexPin_hexText {bytes : List UInt8} (h : bytes.length = 32) : HexPin (hexText bytes) where
  length := by
    rw [hexText, toList_ofList, length_flatMap]
    simp [h]
  digits := by
    rw [hexText, toList_ofList]
    intro c hc
    obtain ⟨b, -, hc⟩ := mem_flatMap.mp hc
    have hb := b.toNat_lt
    simp only [mem_cons, not_mem_nil, or_false] at hc
    obtain rfl | rfl := hc
    · exact hexDigit_lower _ (by omega)
    · exact hexDigit_lower _ (by omega)

/-- `pinHex` gives a normal form, or leaves the text as it is. -/
theorem pinHex_cases : HexPin (pinHex pin) ∨ (pinHex pin = ofList (pinText pin) ∧
      ∀ other, pinText other = pinText pin → pinHex other = ofList (pinText pin)) := by
  by_cases hhex : ((pinText pin).filter (· != ':')).length = 64 ∧
      ((pinText pin).filter (· != ':')).all isHexDigit = true
  · left
    rw [pinHex, if_pos hhex]
    exact hexPin_lowercase hhex.1 (all_eq_true.mp hhex.2)
  · cases hbytes : Base64.standard.decode (pinBase64 (pinText pin)) with
    | none =>
      right
      have hplain : ∀ other, pinText other = pinText pin → pinHex other = ofList (pinText pin) := by
        intro other hother
        unfold pinHex
        simp only [hother, if_neg hhex, hbytes]
      exact ⟨hplain pin rfl, hplain⟩
    | some bytes =>
      by_cases hlen : bytes.length = 32
      · left
        have hpin : pinHex pin = hexText bytes := by
          unfold pinHex
          simp only [if_neg hhex, hbytes, if_pos hlen]
        rw [hpin]
        exact hexPin_hexText hlen
      · right
        have hplain : ∀ other, pinText other = pinText pin →
            pinHex other = ofList (pinText pin) := by
          intro other hother
          unfold pinHex
          simp only [hother, if_neg hhex, hbytes, if_neg hlen]
        exact ⟨hplain pin rfl, hplain⟩

theorem pinText_of_hexPin {s : String} (h : HexPin s) : pinText s = s.toList := by
  have htrim : trim s = s :=
    trim_of_trimmed (trimmed_of_solid fun c hc => (isLowerHex_spec (h.digits c hc)).2.1)
  rw [pinText, htrim, replaceChar, map_congr_left (g := fun c => c), map_id']
  intro c hc
  exact if_neg (isLowerHex_spec (h.digits c hc)).2.2.2.1

theorem pinHex_of_hexPin {s : String} (h : HexPin s) : pinHex s = s := by
  have hdigit : ∀ c ∈ s.toList, isHexDigit c = true :=
    fun c hc => (isLowerHex_spec (h.digits c hc)).1
  have hfilter : s.toList.filter (· != ':') = s.toList :=
    filter_eq_self.mpr fun c hc => by simpa using (isLowerHex_spec (h.digits c hc)).2.2.2.2.1
  rw [pinHex, pinText_of_hexPin h, hfilter, if_pos ⟨h.length, all_eq_true.mpr hdigit⟩]
  refine String.ext ?_
  rw [lowercase_hex hdigit, map_congr_left (g := fun c => c), map_id']
  exact fun c hc => (isLowerHex_spec (h.digits c hc)).2.2.1

/-- Restoring the plus signs twice changes nothing more. -/
theorem pinText_pinText : pinText (ofList (pinText pin)) = pinText pin := by
  have hsolid : ∀ c, isWhitespace c = false →
      isWhitespace (if c = ' ' then '+' else c) = false := by
    intro c hc
    split_ifs
    · decide
    · exact hc
  have htrimmed : Trimmed (ofList (pinText pin)) := by
    have hpin := trimmed_trim pin
    rw [Trimmed, toList_ofList, pinText, replaceChar]
    constructor
    · intro c hc
      rw [head?_map] at hc
      obtain ⟨d, hd, rfl⟩ := Option.map_eq_some_iff.mp hc
      exact hsolid d (hpin.head d hd)
    · intro c hc
      rw [getLast?_map] at hc
      obtain ⟨d, hd, rfl⟩ := Option.map_eq_some_iff.mp hc
      exact hsolid d (hpin.last d hd)
  conv_lhs => rw [pinText]
  rw [trim_of_trimmed htrimmed, toList_ofList, pinText, replaceChar, replaceChar, map_map]
  refine map_congr_left fun c _ => ?_
  simp only [Function.comp_apply]
  split_ifs with h1 h2
  · cases h2
  · rfl
  · rfl

/-- A pin in that form stays as it is. -/
theorem pinHex_pinHex : pinHex (pinHex pin) = pinHex pin := by
  obtain h | ⟨hpin, hplain⟩ := pinHex_cases pin
  · exact pinHex_of_hexPin h
  · rw [hpin]
    exact hplain _ (pinText_pinText pin)

theorem comma_notMem_pinHex (h : ',' ∉ pin.toList) : ',' ∉ (pinHex pin).toList := by
  intro hmem
  obtain hhex | ⟨hpin, -⟩ := pinHex_cases pin
  · exact (isLowerHex_spec (hhex.digits _ hmem)).2.2.2.2.2 rfl
  · rw [hpin, toList_ofList, pinText, replaceChar, mem_map] at hmem
    obtain ⟨c, hc, he⟩ := hmem
    split_ifs at he with hspace
    · cases he
    · exact h (mem_of_mem_trim (he ▸ hc))

/-- Pins are read back from their joined text, once in their hexadecimal form. -/
theorem pins_join (text : String) :
    pieces pinHex (joinToString "," (pieces pinHex text)) = pieces pinHex text :=
  pieces_join pinHex_pinHex (by decide) comma_notMem_pinHex text

/-! ## A link from its end -/

/-- The query of a link, with its mark; nothing if there are no parameters. -/
def queryPart (params : List (String × String)) : List Char :=
  if params = [] then [] else '?' :: (queryText params).toList

section Cut

variable {R : Platform} {params : List (String × String)} {front : List Char}
    {tag : String} {c : Char}

theorem mem_remarkText (h : c ∈ (remarkText tag).toList) :
    isUnreserved c = true ∨ c = '%' ∨ c = '#' := by
  rw [remarkText] at h
  split_ifs at h
  · rw [toList_append, mem_append] at h
    obtain h | h := h
    · exact .inr (.inr (by simpa using h))
    · obtain h | h := mem_percentEncode h
      · exact .inl h
      · exact .inr (.inl h)
  · cases h

/-- The query of a link holds no character that would end it. -/
theorem mem_queryPart (hkeys : ∀ pair ∈ params, PlainKey pair.1) (h : c ∈ queryPart params) :
    isUnreserved c = true ∨ c = '%' ∨ c = '=' ∨ c = '&' ∨ c = '?' := by
  rw [queryPart] at h
  split_ifs at h
  · cases h
  · obtain h | h := mem_cons.mp h
    · exact .inr (.inr (.inr (.inr h)))
    · obtain h | h | h | h := mem_queryText hkeys h
      · exact .inl h
      · exact .inr (.inl h)
      · exact .inr (.inr (.inl h))
      · exact .inr (.inr (.inr (.inl h)))

theorem hash_notMem_queryPart (hkeys : ∀ pair ∈ params, PlainKey pair.1) :
    '#' ∉ queryPart params := by
  intro h
  obtain h | h | h | h | h := mem_queryPart hkeys h
  all_goals exact absurd h (by decide)

/-- The remark is cut off where it was put on. -/
theorem cut_remark (R : Platform) (hfront : '#' ∉ front) (htag : tag = "" ∨ isNotBlank tag = true) :
    substringBefore (ofList (front ++ (remarkText tag).toList)) '#' = ofList front ∧
      percentDecode R (substringAfter (ofList (front ++ (remarkText tag).toList)) '#') = tag := by
  rw [substringBefore, substringAfter, toList_ofList, remarkText]
  obtain rfl | htag := htag
  · rw [if_neg (by decide), show ("" : String).toList = [] from rfl, append_nil,
      takeWhile_of_notMem hfront, dropWhile_of_notMem hfront]
    exact ⟨rfl, rfl⟩
  · have hremark : ("#" ++ percentEncode tag).toList = '#' :: (percentEncode tag).toList := by
      rw [toList_append]
      rfl
    rw [if_pos htag, hremark, takeWhile_cut hfront, dropWhile_cut hfront, drop_succ_cons, drop_zero,
      ofList_toList, percentDecode_percentEncode]
    exact ⟨rfl, rfl⟩

/-- So is the query. -/
theorem cut_query (R : Platform) (hfront : '?' ∉ front) (hkeys : ∀ pair ∈ params, PlainKey pair.1) :
    substringBefore (ofList (front ++ queryPart params)) '?' = ofList front ∧
      parseQuery R (substringAfter (ofList (front ++ queryPart params)) '?') = params := by
  rw [substringBefore, substringAfter, toList_ofList, queryPart]
  by_cases hparams : params = []
  · rw [if_pos hparams, append_nil, takeWhile_of_notMem hfront, dropWhile_of_notMem hfront, hparams]
    exact ⟨rfl, rfl⟩
  · rw [if_neg hparams, takeWhile_cut hfront, dropWhile_cut hfront, drop_succ_cons, drop_zero,
      ofList_toList, parseQuery_queryText hparams hkeys]
    exact ⟨rfl, rfl⟩

/-- A link whose scheme and whose end are solid has nothing to trim. -/
theorem trim_ends {link : String} {first : Char} {middle last : List Char}
    (hlink : link.toList = first :: middle ++ last) (hfirst : isWhitespace first = false)
      (hne : last ≠ [])
    (hlast : ∀ c ∈ last, isWhitespace c = false) : trim link = link := by
  refine trim_of_trimmed ⟨fun c hc => ?_, fun c hc => ?_⟩
  · rw [hlink, cons_append, head?_cons] at hc
    obtain rfl := Option.some.inj hc
    exact hfirst
  · rw [hlink, getLast?_append_of_ne_nil _ hne] at hc
    exact hlast c (mem_of_getLast? hc)

end Cut

/-- A link as it is put together, behind its scheme. -/
structure LinkText (user : List Char) (host : String) (port : Int) (slash : List Char)
    (params : List (String × String)) (tag text : String) : Prop where
  text : text.toList =
    user ++ (hostPort host port).toList ++ slash ++ queryPart params ++ (remarkText tag).toList
  slash : slash = [] ∨ slash = ['/']
  keys : ∀ pair ∈ params, PlainKey pair.1

/-- A LINK without its scheme: a user with its mark, host and port, perhaps a slash, parameters and
    a remark.  No mark of a later part stands in an earlier one. -/
structure LinkOf (user : List Char) (host : String) (port : Int) (slash : List Char)
    (params : List (String × String)) (tag text : String) : Prop
    extends LinkText user host port slash params tag text where
  user : ∀ c ∈ user, c ≠ '#' ∧ c ≠ '?'
  hash : '#' ∉ host.toList
  question : '?' ∉ host.toList
  tag : tag = "" ∨ isNotBlank tag = true

theorem ne_of_mem_percentEncode {s : String} {c : Char} (h : c ∈ (percentEncode s).toList) :
    c ≠ '#' ∧ c ≠ '?' :=
  ⟨fun hc => (notMem_percentEncode s (by decide)).elim (hc ▸ h),
    fun hc => (notMem_percentEncode s (by decide)).elim (hc ▸ h)⟩

section Whole

variable {user slash : List Char} {host tag text : String} {port : Int}
    {params : List (String × String)}

/-- THE LINK FALLS APART WHERE IT WAS PUT TOGETHER. -/
theorem LinkOf.cut (h : LinkOf user host port slash params tag text) (R : Platform) :
    substringBefore (substringBefore text '#') '?' =
      ofList (user ++ (hostPort host port).toList ++ slash) ∧
      percentDecode R (substringAfter text '#') = tag ∧
      parseQuery R (substringAfter (substringBefore text '#') '?') = params := by
  have hfree : ∀ c : Char, (c = '#' ∨ c = '?') → c ∉ host.toList →
      c ∉ user ++ (hostPort host port).toList ++ slash := by
    intro c hc hhost hmem
    rw [mem_append, mem_append] at hmem
    obtain (hmem | hmem) | hmem := hmem
    · exact hc.elim (h.user c hmem).1 (h.user c hmem).2
    · obtain rfl | rfl := hc
      all_goals exact (notMem_hostPort hhost (by decide)).elim hmem
    · obtain hslash | hslash := h.slash
      · rw [hslash] at hmem
        cases hmem
      · obtain rfl := mem_singleton.mp (hslash ▸ hmem)
        exact absurd hc (by decide)
  have hfront : '#' ∉ user ++ (hostPort host port).toList ++ slash ++ queryPart params := by
    rw [mem_append, not_or]
    exact ⟨hfree '#' (.inl rfl) h.hash, hash_notMem_queryPart h.keys⟩
  obtain ⟨hbefore, hremark⟩ := cut_remark R hfront h.tag
  rw [← h.text, ofList_toList] at hbefore hremark
  rw [hbefore]
  exact ⟨(cut_query R (hfree '?' (.inr rfl) h.question) h.keys).1, hremark,
    (cut_query R (hfree '?' (.inr rfl) h.question) h.keys).2⟩

/-- Such a link has nothing to trim. -/
theorem LinkText.trim (h : LinkText user host port slash params tag text) {scheme : String}
    {first : Char}
    {rest : List Char} (hscheme : scheme.toList = first :: rest)
      (hfirst : isWhitespace first = false) :
    trim (scheme ++ text) = scheme ++ text := by
  have hwhole : (scheme ++ text).toList = first :: (rest ++ user ++ host.toList ++ [':']) ++
      ((toString port).toList ++ slash ++ queryPart params ++ (remarkText tag).toList) := by
    rw [toList_append, hscheme, h.text, toList_hostPort]
    simp
  refine trim_ends hwhole hfirst ?_ fun c hc => ?_
  · rw [append_assoc, append_assoc]
    exact append_ne_nil_of_left_ne_nil (toString_ne_nil port) _
  · rw [mem_append, mem_append, mem_append] at hc
    obtain ((hc | hc) | hc) | hc := hc
    · exact solid_toString port c hc
    · obtain hslash | hslash := h.slash
      · rw [hslash] at hc
        cases hc
      · obtain rfl := mem_singleton.mp (hslash ▸ hc)
        decide
    · obtain h | rfl | rfl | rfl | rfl := mem_queryPart h.keys hc
      · exact isWhitespace_of_isUnreserved h
      all_goals decide
    · obtain h | rfl | rfl := mem_remarkText hc
      · exact isWhitespace_of_isUnreserved h
      all_goals decide

end Whole

end OlcVpn.Share
