/-
  A VLESS LINK COMES BACK as the profile it was made from.

  THE ARGUMENT has three layers.
    1. The text: `linkParts_linkText`.  User and remark are percent-encoded, the host is free of
    every
       delimiter because it was read out of a link (`HostText`), so the link falls apart where it
       was put together.
    2. The parameters: `withStream_query`.  What the composer leaves out is what the parser fills
    in,
       provided the profile is in the normal form every parser leaves (`StreamNormal`): comma lists
       are read as themselves, the transport is one of six, xhttp settings only stand beside xhttp.
    3. The image: whatever `parseVless` returns is normal.

  `parse_composed_vless` is the result.  Layers 1 and 2 serve `trojan://` links too.
-/
import OlcVpn.Share.ProxyLinks

namespace OlcVpn.Share

open Kotlin Locations Generate List Option

/-! ## Texts of a profile -/

/-- Every text of a profile. -/
def texts (p : ServerProfile) : List String :=
  p.alpn ++
    [p.tag, p.type, p.server, p.uuid, p.password, p.method, p.awgConfig, p.ttConfig,
      p.cipher, p.flow,
     p.network, p.security, p.sni, p.fingerprint, p.realityPublicKey, p.realityShortId,
     p.realityMldsa65Verify, p.realitySpiderX, p.path, p.host, p.vlessEncryption, p.xhttpMode,
     p.xhttpExtra, p.finalMask, p.pinnedCertSha256, p.verifyCertByName, p.echConfigList]

/-- Each text is empty or not blank. -/
def Clean (p : ServerProfile) : Prop := ∀ s ∈ texts p, s = "" ∨ isNotBlank s = true

instance (p : ServerProfile) : Decidable (Clean p) :=
  inferInstanceAs (Decidable (∀ s ∈ texts p, s = "" ∨ isNotBlank s = true))

/-- What is left out where it is blank, is filled in as the empty text. -/
theorem getD_unlessBlank {s : String} (h : s = "" ∨ isNotBlank s = true) :
    (if isNotBlank s then some s else none).getD "" = s := by
  obtain rfl | h := h
  · rfl
  · rw [if_pos h]
    rfl

/-! ## The text of a link -/

/-- No delimiter of a link. -/
structure HostText (s : String) : Prop where
  slash : '/' ∉ s.toList
  hash : '#' ∉ s.toList
  question : '?' ∉ s.toList
  at' : '@' ∉ s.toList

/-- What a link was taken apart into. -/
theorem linkParts_spec {R : Platform} {text : String} {l : LinkParts}
    (h : linkParts R text = some l) :
    HostText l.host ∧ -2147483648 ≤ l.port ∧ l.port ≤ 2147483647 := by
  unfold linkParts at h
  obtain ⟨⟨user, rest⟩, hcut, hparts⟩ := bind_eq_some_iff.mp h
  split_ifs at hparts with huser
  obtain ⟨⟨host, port⟩, hsplit, rfl⟩ := map_eq_some_iff.mp hparts
  obtain ⟨hslash, hmem, hrange⟩ := splitHostPort_spec hsplit
  obtain ⟨htext, hat⟩ := cutLast_spec hcut
  -- the host is a part of what stands before the fragment and before the query
  have hauthority : ∀ c ∈ host.toList,
      c ∈ (substringBefore (substringBefore text '#') '?').toList := by
    intro c hc
    rw [htext]
    exact mem_append_right _ (mem_cons_of_mem _ (hmem c hc))
  refine ⟨⟨hslash, fun hc => ?_, fun hc => ?_, fun hc => hat (hmem _ hc)⟩, hrange⟩
  · exact (substringBefore_spec text '#').1 (mem_substringBefore (hauthority _ hc))
  · exact (substringBefore_spec (substringBefore text '#') '?').1 (hauthority _ hc)

section Text

variable {user : String} {p : ServerProfile} {includeFlow : Bool}

theorem plainKey_stream : ∀ pair ∈ written (streamEntries p includeFlow), PlainKey pair.1 := by
  refine plainKey_written ?_
  simp only [streamEntries, map_cons, map_nil]
  split_ifs
  all_goals decide

theorem written_ne_nil : written (streamEntries p includeFlow) ≠ [] := by
  intro hnil
  have hmem : ("type", networkName p.network) ∈ written (streamEntries p includeFlow) :=
    mem_written.mpr (by simp [streamEntries])
  rw [hnil] at hmem
  cases hmem

/-- The composed text is a link of these parts. -/
theorem linkOf_linkText (user : String) (includeFlow : Bool) (hhost : HostText p.server)
    (htag : p.tag = "" ∨ isNotBlank p.tag = true) :
    LinkOf ((percentEncode user).toList ++ ['@']) p.server p.serverPort []
      (written (streamEntries p includeFlow)) p.tag (linkText user p includeFlow) where
  text := by
    rw [queryPart, if_neg written_ne_nil]
    simp [linkText, String.toList_append]
  user c hc := by
    obtain hc | hc := mem_append.mp hc
    · exact ne_of_mem_percentEncode hc
    · rw [mem_singleton.mp hc]
      decide
  hash := hhost.hash
  question := hhost.question
  slash := .inl rfl
  keys := plainKey_stream
  tag := htag

/-- The parts of the link, unless it names no host. -/
theorem linkParts_linkText (R : Platform) (includeFlow : Bool) (huser : user ≠ "")
    (hhost : HostText p.server) (hbracket : p.server.toList.head? ≠ some '[')
      (hlow : -2147483648 ≤ p.serverPort)
    (hhigh : p.serverPort ≤ 2147483647) (htag : p.tag = "" ∨ isNotBlank p.tag = true) :
    ∃ query, parseQuery R query = written (streamEntries p includeFlow) ∧
      linkParts R (linkText user p includeFlow) = if p.server = "" then none else some {
        remark := p.tag, query := query, user := user, host := p.server, port :=
      p.serverPort } := by
  obtain ⟨hauthority, hremark, hquery⟩ := (linkOf_linkText user includeFlow hhost htag).cut R
  refine ⟨_, hquery, ?_⟩
  have hcut : cutLast (substringBefore
      (substringBefore (linkText user p includeFlow) '#') '?') '@' =
      some (percentEncode user, hostPort p.server p.serverPort) := by
    have htext : (substringBefore (substringBefore (linkText user p includeFlow) '#') '?').toList =
        (percentEncode user).toList ++ '@' :: (hostPort p.server p.serverPort).toList := by
      rw [hauthority, String.toList_ofList]
      simp
    rw [cutLast_of_cut htext (notMem_hostPort hhost.at' (by decide)), String.ofList_toList,
      String.ofList_toList]
  have hencoded : percentEncode user ≠ "" := by
    intro hempty
    apply huser
    rw [← percentDecode_percentEncode R user, hempty]
    rfl
  unfold linkParts
  dsimp only
  rw [hcut, bind_some]
  dsimp only
  rw [if_neg hencoded, splitHostPort_join hhost.slash hbracket hlow hhigh, hremark,
    percentDecode_percentEncode]
  split_ifs
  · rfl
  · rfl

end Text

/-! ## The parameters -/

/-- The form every link parser leaves a profile in. -/
structure StreamNormal (p : ServerProfile) : Prop where
  network : networkOf (some (networkName p.network)) = p.network
  alpn : pieces trim (joinToString "," p.alpn) = p.alpn
  pins : joinToString "," (pieces pinHex p.pinnedCertSha256) = p.pinnedCertSha256
  encryption : equalsIgnoreCase p.vlessEncryption "none" = false
  xhttp : p.network ≠ "xhttp" → p.xhttpMode = "" ∧ p.xhttpExtra = ""

/-- One of six transports. -/
theorem networkOf_mem (type : Option String) :
    networkOf type ∈ ["ws", "grpc", "http", "httpupgrade", "xhttp", "tcp"] := by
  unfold networkOf
  split
  all_goals decide

/-- The name of a network is read as the network, whatever it was parsed from. -/
theorem networkOf_normal (type : Option String) :
    networkOf (some (networkName (networkOf type))) = networkOf type := by
  have hall : ∀ network ∈ ["ws", "grpc", "http", "httpupgrade", "xhttp", "tcp"],
      networkOf (some (networkName network)) = network := by
    decide
  exact hall _ (networkOf_mem type)

theorem xrayParams_normal {p : ServerProfile} (params : Params)
    (hnetwork : networkOf (some (networkName p.network)) = p.network)
    (halpn : pieces trim (joinToString "," p.alpn) = p.alpn) : StreamNormal
      (withXrayParams p params) where
  network := hnetwork
  alpn := halpn
  pins := congrArg (joinToString ",") (pins_join _)
  encryption := by
    dsimp only [withXrayParams]
    split_ifs with hnone
    · decide
    · simpa using hnone
  xhttp := by
    intro hother
    change p.network ≠ "xhttp" at hother
    dsimp only [withXrayParams]
    rw [if_neg hother, if_neg hother]
    exact ⟨rfl, rfl⟩

/-- EVERY PARSED PROFILE IS IN NORMAL FORM, so composing has one text for each field. -/
theorem withStream_normal (p : ServerProfile) (security : String) (params : Params) :
    StreamNormal (withStream p security params) :=
  xrayParams_normal params (networkOf_normal _) (alpn_join _)

section Stream

variable {p : ServerProfile} {includeFlow : Bool}

/-- No key is written twice. -/
theorem streamKeys_nodup : ((streamEntries p includeFlow).map (·.2.1)).Nodup := by
  simp only [streamEntries, map_cons, map_nil]
  split_ifs
  all_goals decide

/-- The parameters of the composed link. -/
def composed (p : ServerProfile) (includeFlow : Bool) : Params :=
  param (written (streamEntries p includeFlow))

/-- A parameter of a composed link is read as it was written, if it was. -/
theorem composed_eq (added : Bool) (key value : String)
    (h : (added, key, value) ∈ streamEntries p includeFlow) :
    composed p includeFlow key = if added then some value else none :=
  param_written streamKeys_nodup h

theorem Clean.of_mem (h : Clean p) {s : String} (hs : s ∈ texts p) :
    s = "" ∨ isNotBlank s = true := h s hs

/-- A text is read back: where it is left out, it was empty. -/
theorem text_composed (hclean : Clean p) (key value : String)
    (hvalue : value ∈ texts p := by simp [texts])
    (h : (isNotBlank value, key, value) ∈ streamEntries p includeFlow := by simp [streamEntries]) :
    (composed p includeFlow).text key = value := by
  rw [Params.text, composed_eq _ key value h]
  exact getD_unlessBlank (hclean.of_mem hvalue)

/-- The path stands under the name the transport gives it. -/
theorem path_composed (hclean : Clean p) :
    (if p.network = "grpc" then (composed p includeFlow).text "serviceName"
      else (composed p includeFlow).text "path") = p.path := by
  split_ifs with hgrpc
  all_goals exact text_composed hclean _ p.path (h := by simp [streamEntries, hgrpc])

theorem sni_composed (hclean : Clean p) :
    (((composed p includeFlow) "sni").or ((composed p includeFlow) "peer")).getD "" = p.sni := by
  have hpeer : (composed p includeFlow) "peer" = none := by
    refine param_written_of_notMem ?_
    simp only [streamEntries, map_cons, map_nil]
    split_ifs
    all_goals decide
  rw [hpeer, or_none]
  exact text_composed hclean _ _

theorem alpn_composed : (composed p includeFlow).text "alpn" = joinToString "," p.alpn := by
  rw [Params.text, composed_eq (p.alpn ≠ []) "alpn" (joinToString "," p.alpn)
    (by simp [streamEntries])]
  by_cases hnil : p.alpn = []
  · rw [hnil]
    rfl
  · simp [hnil]

/-- No encryption is written as `none` and read as empty. -/
theorem encryption_composed (hclean : Clean p) (hnormal : StreamNormal p) :
    (if equalsIgnoreCase ((composed p includeFlow).text "encryption") "none" then ""
      else (composed p includeFlow).text "encryption") = if includeFlow then p.vlessEncryption
        else "" := by
  rw [Params.text, composed_eq (includeFlow && isNotBlank p.vlessEncryption) "encryption"
    p.vlessEncryption (by simp [streamEntries])]
  cases includeFlow with
  | false => rfl
  | true =>
    rw [Bool.true_and, getD_unlessBlank (hclean.of_mem (by simp [texts])), hnormal.encryption]
    rfl

/-- The two settings of xhttp stand only beside it. -/
theorem xhttp_composed {key value : String} (hnormal : p.network ≠ "xhttp" → value = "")
    (htext : (composed p includeFlow).text key = value) :
    (if p.network = "xhttp" then (composed p includeFlow).text key else "") = value := by
  by_cases hxhttp : p.network = "xhttp"
  · rw [if_pos hxhttp, htext]
  · rw [if_neg hxhttp, hnormal hxhttp]

/-- THE PARAMETERS ARE READ BACK; `encryption` only where the composer writes it. -/
theorem withStream_query (hclean : Clean p) (hnormal : StreamNormal p) (q : ServerProfile)
    (security : String) : withStream q security (composed p includeFlow) = { p with
        toProxyProfile := q.toProxyProfile, alterId := q.alterId, cipher := q.cipher, flow := q.flow
        rawSingBoxRoute := q.rawSingBoxRoute, security := security
        vlessEncryption := if includeFlow then p.vlessEncryption else "" } := by
  have hnetwork : networkOf ((composed p includeFlow) "type") = p.network := by
    rw [composed_eq true "type" (networkName p.network) (by simp [streamEntries]), if_pos rfl,
      hnormal.network]
  have hinsecure : (decide ((composed p includeFlow) "allowInsecure" = some "1") ||
      decide ((composed p includeFlow) "allowInsecure" = some "true")) = p.allowInsecure := by
    rw [composed_eq p.allowInsecure "allowInsecure" "1" (by simp [streamEntries])]
    cases p.allowInsecure
    all_goals decide
  have hmode : (composed p includeFlow).text "mode" = p.xhttpMode := text_composed hclean _ _
  have hextra : (composed p includeFlow).text "extra" = p.xhttpExtra := text_composed hclean _ _
  unfold withStream
  dsimp only
  rw [hnetwork, hinsecure, path_composed hclean, sni_composed hclean, alpn_composed, hnormal.alpn,
    text_composed hclean "fp" p.fingerprint, text_composed hclean "pbk" p.realityPublicKey,
    text_composed hclean "sid" p.realityShortId, text_composed hclean "host" p.host]
  unfold withXrayParams
  dsimp only
  rw [encryption_composed hclean hnormal, xhttp_composed (fun h => (hnormal.xhttp h).1) hmode,
    xhttp_composed (fun h => (hnormal.xhttp h).2) hextra, text_composed hclean "fm" p.finalMask,
    text_composed hclean "pcs" p.pinnedCertSha256, text_composed hclean "vcn" p.verifyCertByName,
    text_composed hclean "ech" p.echConfigList, text_composed hclean "pqv" p.realityMldsa65Verify,
    text_composed hclean "spx" p.realitySpiderX, hnormal.pins]

end Stream

/-! ## From link to link -/

theorem head_of_startsWith {s : String} (h : startsWith s "[" = false) :
    s.toList.head? ≠ some '[' := by
  intro hhead
  have hstart : startsWith s "[" = true := (startsWith_iff_head (d := '[') (by decide)).mpr hhead
  simp [hstart] at h

/-- What is known of every profile `parseVless` returns. -/
theorem parseVless_spec {R : Platform} {uri : String} {p : ServerProfile}
    (h : parseVless R uri = some p) :
    ∃ l params, p = vlessProfile l params ∧ HostText l.host ∧ isBlank (trim l.user) = false ∧
      isBlank l.host = false ∧ validPort l.port = true := by
  unfold parseVless at h
  dsimp only at h
  split_ifs at h with hscheme
  obtain ⟨l, hparts, hprofile⟩ := bind_eq_some_iff.mp h
  split_ifs at hprofile with hblank
  simp only [Bool.or_eq_true, Bool.not_eq_true', not_or, Bool.not_eq_true, Bool.not_eq_false]
    at hblank
  exact ⟨l, _, (Option.some.inj hprofile).symm, (linkParts_spec hparts).1, hblank.1.1,
    hblank.1.2, hblank.2⟩

theorem vlessSecurity_mem (security : Option String) :
    vlessSecurity security ∈ ["tls", "reality", "none"] := by
  unfold vlessSecurity
  split
  all_goals decide

/-- The security is always written, so it comes back. -/
theorem vlessSecurity_composed {p : ServerProfile} (h : p.security ∈ ["tls", "reality", "none"]) :
    vlessSecurity (composed p true "security") = p.security := by
  rw [composed_eq (p.security ≠ "none") "security" p.security (by simp [streamEntries])]
  generalize p.security = security at h
  revert security
  decide

/-- The profile is read back from its own parameters. -/
theorem vlessProfile_composed {l : LinkParts} {params : Params} {p : ServerProfile}
    (hp : p = vlessProfile l params) (hclean : Clean p) (query : String) :
    vlessProfile ⟨p.tag, query, p.uuid, p.server, p.serverPort⟩ (composed p true) = p := by
  have hnormal : StreamNormal p := hp ▸ withStream_normal _ _ _
  have hsecurity : vlessSecurity (composed p true "security") = p.security :=
    vlessSecurity_composed (by rw [hp]; exact vlessSecurity_mem _)
  have hflow : (composed p true).text "flow" = p.flow :=
    text_composed hclean _ _
  have huuid : trim p.uuid = p.uuid := by
    rw [hp]
    exact trim_trim l.user
  conv_lhs => unfold vlessProfile
  rw [withStream_query hclean hnormal, hsecurity, hflow]
  dsimp only
  rw [huuid, hp]
  rfl

/-- VLESS LINKS ROUND-TRIP: what `VlessUriParser` made of any link, with every text empty or not
    blank and a server that does not start with a bracket, is shared as a link it makes the same of.
    -/
theorem parse_composed_vless (L : Libraries) {uri : String} {p : ServerProfile}
    (hparse : parseVless L.toPlatform uri = some p) (hclean : Clean p)
    (hserver : startsWith p.server "[" = false) :
    (composeShareLink L p).bind (parseVless L.toPlatform) = some p := by
  obtain ⟨l, params, hp, hhost, huser, hblank, hport⟩ := parseVless_spec hparse
  have hserverEq : p.server = l.host := by rw [hp]; rfl
  have hportEq : p.serverPort = l.port := by rw [hp]; rfl
  have huuidEq : p.uuid = trim l.user := by rw [hp]; rfl
  have hrange : 1 ≤ p.serverPort ∧ p.serverPort ≤ 65535 := by
    rw [hportEq]
    simpa [validPort] using hport
  have hne : p.server ≠ "" := by
    rintro hempty
    rw [← hserverEq, hempty] at hblank
    cases hblank
  have huuid : p.uuid ≠ "" := by
    rintro hempty
    rw [← huuidEq, hempty] at huser
    cases huser
  have hcompose : composeShareLink L p = some (composeVless p) := by
    have htype : p.type = "vless" := by rw [hp]; rfl
    have hraw : p.rawXrayConfig = none := by rw [hp]; rfl
    unfold composeShareLink
    rw [htype, hraw]
    rfl
  have htag : p.tag = "" ∨ isNotBlank p.tag = true := hclean.of_mem (by simp [texts])
  obtain ⟨query, hquery, hparts⟩ := linkParts_linkText L.toPlatform true huuid (hserverEq ▸ hhost)
    (head_of_startsWith hserver) (by omega) (by omega) htag
  have htrim : trim (composeVless p) = composeVless p :=
    (linkOf_linkText p.uuid true (hserverEq ▸ hhost) htag).trim rfl (by decide)
  have hscheme : startsWithIgnoreCase (composeVless p) "vless://" = true :=
    startsWithIgnoreCase_of_startsWith (startsWith_append _ _) (by decide)
  have hchecks : (isBlank (trim p.uuid) || isBlank p.server || !validPort p.serverPort) =
      false := by
    rw [huuidEq, trim_trim, huser, hserverEq, hblank, hportEq, hport]
    rfl
  rw [hcompose, bind_some]
  unfold parseVless
  dsimp only
  have hrest : substringFrom (composeVless p) 8 = linkText p.uuid p true :=
    substringFrom_append _ _ (by decide)
  rw [htrim, if_pos hscheme, hrest, hparts, if_neg hne, bind_some]
  dsimp only
  rw [hchecks, if_neg (by decide), hquery]
  exact congrArg some (vlessProfile_composed hp hclean _)

/-- Libraries that read nothing. -/
def noLibraries : Libraries where
  malformed _ := ""
  surrogate := []
  parseToJsonElement _ := none
  printJson _ := ""
  parseOther _ := none
  composeOther _ := none

/-- A link with an IPv6 address, a gRPC service, REALITY and two ALPN names. -/
def grpcLink : String :=
  "vless://0b1c@[2001:db8::1]:443?type=grpc&serviceName=edge&security=reality&pbk=k&sid=1" ++
    "&alpn=h2,http/1.1#home"

/-- The link comes back as it was, its IPv6 address without brackets. -/
theorem grpc_link_read_back :
    ∃ p, parseVless noLibraries.toPlatform grpcLink = some p ∧ p.server = "2001:db8::1" ∧
      (composeShareLink noLibraries p).bind (parseVless noLibraries.toPlatform) = some p := by
  have hsome : (parseVless noLibraries.toPlatform grpcLink).isSome = true := by decide +kernel
  have hall : (parseVless noLibraries.toPlatform grpcLink).all (fun p =>
      decide (Clean p ∧ startsWith p.server "[" = false ∧ p.server = "2001:db8::1")) = true := by
    decide +kernel
  obtain ⟨p, hp⟩ := isSome_iff_exists.mp hsome
  rw [hp, all_some, decide_eq_true_eq] at hall
  obtain ⟨hclean, hserver, haddress⟩ := hall
  exact ⟨p, hp, haddress, parse_composed_vless noLibraries hp hclean hserver⟩

end OlcVpn.Share
