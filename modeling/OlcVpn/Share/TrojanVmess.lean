/-
  WHAT SHARING DOES TO A TROJAN OR A VMESS SERVER.

  The composer is documented as the reverse of the parser.  It is not, for these two protocols:
    • a `trojan://` link without `security` means TLS, but the composer leaves `security=none` out;
    it
      never writes `encryption`, which the parser takes from any link; and a link without a host,
      which the parser accepts as `[]:443`, is composed into one it rejects;
    • the VMess object has no field for the fingerprint, for accepting any certificate, for the
    pinned
      and the named certificate, nor for the xhttp mode, the final mask and ECH, all of which the
      parser reads.

  `sharedTrojan` and `sharedVmess` are the profiles that come back (`parse_composed_trojan`,
  `parse_composed_vmess`), and `kept_iff` says exactly when they are the ones that were shared.
-/
import OlcVpn.Share.VlessRoundTrip

namespace OlcVpn.Share

open Kotlin Locations Generate List Option
open Option (some)
open Lib (Base64 forall_mem_of_all)

/-! ## Schemes -/

section Dispatch

variable {L : Libraries} {uri : String}

theorem parseShareLink_trojan (h : startsWithIgnoreCase (trim uri) "trojan://" = true) :
    parseShareLink L uri = parseTrojan L.toPlatform (trim uri) := by
  unfold parseShareLink
  simp (disch := decide) only [startsWithIgnoreCase_of_start _ h, if_pos, if_neg]

theorem parseShareLink_vmess (h : startsWithIgnoreCase (trim uri) "vmess://" = true) :
    parseShareLink L uri = parseVmess L (trim uri) := by
  unfold parseShareLink
  simp (disch := decide) only [startsWithIgnoreCase_of_start _ h, if_pos, if_neg]

end Dispatch

/-! ## Trojan -/

/-- The profile a shared Trojan server comes back as. -/
def sharedTrojan (p : ServerProfile) : Option ServerProfile :=
  if p.server = "" then none
  else some { p with
    security := if p.security = "none" then "tls" else p.security
    vlessEncryption := "" }

variable {R : Platform} {p : ServerProfile} {o : JsonObject}

/-- The image of the Trojan parser, before the stream settings are filled in. -/
theorem parseTrojan_spec {uri : String} (h : parseTrojan R uri = some p) :
    ∃ l params, p = trojanProfile l params ∧ HostText l.host ∧ isBlank l.user = false ∧
      -2147483648 ≤ l.port ∧ l.port ≤ 2147483647 := by
  obtain ⟨l, hparts, hprofile⟩ := bind_eq_some_iff.mp h
  split_ifs at hprofile with hblank
  obtain ⟨hhost, hrange⟩ := linkParts_spec hparts
  exact ⟨l, _, (some.inj hprofile).symm, hhost, by simpa using hblank, hrange⟩

theorem trojanSecurity_mem (security : Option String) :
    trojanSecurity security ∈ ["none", "reality", "tls"] := by
  unfold trojanSecurity
  split_ifs
  all_goals decide

/-- The security that is read where the composer wrote `p.security`. -/
theorem trojanSecurity_composed (h : p.security ∈ ["none", "reality", "tls"]) :
    trojanSecurity (composed p false "security") = if p.security = "none" then "tls"
      else p.security := by
  rw [composed_eq (p.security ≠ "none") "security" p.security (by simp [streamEntries])]
  generalize p.security = security at h
  revert security
  decide

/-- THE QUERY OF A COMPOSED LINK fills the profile in again, the security apart: a missing one is
    read as TLS, and none is never written. -/
theorem trojanProfile_composed {l : LinkParts} {params : Params} (hp : p = trojanProfile l params)
    (hclean : Clean p) (query : String) :
    trojanProfile ⟨p.tag, query, p.password, p.server, p.serverPort⟩ (composed p false) =
      { p with
        security := if p.security = "none" then "tls" else p.security
        vlessEncryption := "" } := by
  have hnormal : StreamNormal p := hp ▸ withStream_normal _ _ _
  have hsecurity := trojanSecurity_composed (p := p) (by rw [hp]; exact trojanSecurity_mem _)
  conv_lhs => unfold trojanProfile
  rw [withStream_query hclean hnormal, hsecurity, hp]
  rfl

/-- A Trojan link is read back up to what `sharedTrojan` says. -/
theorem parse_composed_trojan (L : Libraries) {uri : String} {p : ServerProfile}
    (hparse : parseTrojan L.toPlatform uri = some p) (hclean : Clean p)
    (hserver : startsWith p.server "[" = false) :
    (composeShareLink L p).bind (parseShareLink L) = sharedTrojan p := by
  obtain ⟨l, params, hp, hhost, huser, hlow, hhigh⟩ := parseTrojan_spec hparse
  have hserverEq : p.server = l.host := by rw [hp]; rfl
  have hportEq : p.serverPort = l.port := by rw [hp]; rfl
  have hpasswordEq : p.password = l.user := by rw [hp]; rfl
  have hpassword : p.password ≠ "" := by
    rintro hempty
    rw [← hpasswordEq, hempty] at huser
    cases huser
  have hcompose : composeShareLink L p = some (composeTrojan p) := by
    have htype : p.type = "trojan" := by rw [hp]; rfl
    have hraw : p.rawXrayConfig = none := by rw [hp]; rfl
    unfold composeShareLink
    rw [htype, hraw]
    rfl
  have htag : p.tag = "" ∨ isNotBlank p.tag = true := hclean.of_mem (by simp [texts])
  obtain ⟨query, hquery, hparts⟩ :=
    linkParts_linkText L.toPlatform false hpassword (hserverEq ▸ hhost)
    (head_of_startsWith hserver) (hportEq ▸ hlow) (hportEq ▸ hhigh) htag
  have htrim : trim (composeTrojan p) = composeTrojan p :=
    (linkOf_linkText p.password false (hserverEq ▸ hhost) htag).trim rfl (by decide)
  have hscheme : startsWithIgnoreCase (trim (composeTrojan p)) "trojan://" = true := by
    rw [htrim]
    exact startsWithIgnoreCase_of_startsWith (startsWith_append _ _) (by decide)
  have hrest : substringFrom (composeTrojan p) 9 = linkText p.password p false :=
    substringFrom_append _ _ (by decide)
  rw [hcompose, bind_some, parseShareLink_trojan hscheme, htrim, parseTrojan, hrest, hparts,
    sharedTrojan]
  by_cases hempty : p.server = ""
  · rw [if_pos hempty, if_pos hempty, bind_none]
  · rw [if_neg hempty, if_neg hempty, bind_some]
    dsimp only
    rw [hpasswordEq, huser, if_neg (by decide), ← hpasswordEq, hquery]
    exact congrArg some (trojanProfile_composed hp hclean _)

/-! ## VMess -/

/-- The profile a shared VMess server comes back as. -/
def sharedVmess (p : ServerProfile) : ServerProfile :=
  { p with
    fingerprint := "", allowInsecure := false, xhttpMode := "", finalMask :=
      "", pinnedCertSha256 := ""
    verifyCertByName := "", echConfigList := "" }

/-- What is known of every profile `parseVmess` returns. -/
structure VmessImage (p : ServerProfile) : Prop where
  normal : StreamNormal p
  server : isBlank p.server = false
  uuid : isBlank p.uuid = false
  port : -2147483648 ≤ p.serverPort ∧ p.serverPort ≤ 2147483647
  alterId : -2147483648 ≤ p.alterId ∧ p.alterId ≤ 2147483647
  cipher : isBlank p.cipher = false
  security : p.security ∈ ["tls", "none"]
  /-- The object names no other field. -/
  fields : p =
    { tag := p.tag, type := "vmess", server := p.server, serverPort := p.serverPort, uuid := p.uuid
      alterId := p.alterId, cipher := p.cipher, network := p.network, security := p.security
      sni := p.sni, alpn := p.alpn, fingerprint := p.fingerprint, allowInsecure := p.allowInsecure
      path := p.path, host := p.host, xhttpMode := p.xhttpMode, finalMask := p.finalMask
      pinnedCertSha256 := p.pinnedCertSha256, verifyCertByName := p.verifyCertByName
      echConfigList := p.echConfigList }

theorem vmessSecurity_mem {security : String} (h : vmessSecurity o = some security) :
    security ∈ ["tls", "none"] := by
  unfold vmessSecurity at h
  obtain ⟨tls, -, h⟩ := bind_eq_some_iff.mp h
  split_ifs at h
  · rw [← some.inj h]
    decide
  · obtain ⟨named, -, rfl⟩ := map_eq_some_iff.mp h
    split_ifs
    all_goals decide

/-- The parameters of a VMess object are always these five. -/
theorem vmessParams_eq {params : List (String × String)} (h : vmessParams o = some params) :
    ∃ mode fm pcs vcn ech, params =
      [("mode", mode), ("fm", fm), ("pcs", pcs), ("vcn", vcn), ("ech", ech)] := by
  unfold vmessParams at h
  simp only [bind_eq_bind, bind_eq_some_iff] at h
  obtain ⟨mode, -, fm, -, pcs, -, vcn, -, ech, -, h⟩ := h
  exact ⟨mode, fm, pcs, vcn, ech, (some.inj h).symm⟩

/-- The image of the VMess parser. -/
theorem vmessProfile_spec {fragment : String} (h : vmessProfile R o fragment = some p) :
    VmessImage p := by
  unfold vmessProfile at h
  obtain ⟨server, -, h⟩ := bind_eq_some_iff.mp h
  obtain ⟨portText, -, h⟩ := bind_eq_some_iff.mp h
  obtain ⟨port, hport, h⟩ := bind_eq_some_iff.mp h
  obtain ⟨uuid, -, h⟩ := bind_eq_some_iff.mp h
  split_ifs at h with hblank
  simp only [Bool.or_eq_true, not_or, Bool.not_eq_true] at hblank
  obtain ⟨net, -, h⟩ := bind_eq_some_iff.mp h
  obtain ⟨security, hsecurity, h⟩ := bind_eq_some_iff.mp h
  obtain ⟨path, -, h⟩ := bind_eq_some_iff.mp h
  obtain ⟨ps, -, h⟩ := bind_eq_some_iff.mp h
  obtain ⟨aid, -, h⟩ := bind_eq_some_iff.mp h
  obtain ⟨scy, -, h⟩ := bind_eq_some_iff.mp h
  obtain ⟨sni, -, h⟩ := bind_eq_some_iff.mp h
  obtain ⟨alpn, -, h⟩ := bind_eq_some_iff.mp h
  obtain ⟨fp, -, h⟩ := bind_eq_some_iff.mp h
  obtain ⟨host, -, h⟩ := bind_eq_some_iff.mp h
  obtain ⟨insecure, -, h⟩ := bind_eq_some_iff.mp h
  obtain ⟨params, hparams, h⟩ := bind_eq_some_iff.mp h
  obtain ⟨mode, fm, pcs, vcn, ech, rfl⟩ := vmessParams_eq hparams
  obtain rfl := some.inj h
  exact {
    normal := xrayParams_normal _ (networkOf_normal _) (alpn_join _)
    server := hblank.1
    uuid := hblank.2
    port := range_of_toIntOrNull hport
    alterId := by
      change -2147483648 ≤ (toIntOrNull aid).getD 0 ∧ (toIntOrNull aid).getD 0 ≤ 2147483647
      cases haid : toIntOrNull aid with
      | none => exact ⟨by decide, by decide⟩
      | some n => exact range_of_toIntOrNull haid
    cipher := isBlank_ifBlank (by decide)
    security := vmessSecurity_mem hsecurity
    fields := by
      -- `extra` is no key of the object, with xhttp and without it
      unfold withXrayParams
      by_cases hxhttp : networkOf (some net) = "xhttp"
      · simp only [if_pos hxhttp]
        rfl
      · simp only [if_neg hxhttp]
        rfl }

section Object

variable {o : JsonObject}

/-- A text that no key holds is empty. -/
theorem str_absent : ∀ {keys : List String}, (∀ key ∈ keys, o.lookup key = none) →
    str o keys = some ""
  | [], _ => rfl
  | key :: keys, h => by
      rw [str, h key mem_cons_self]
      exact str_absent fun k hk => h k (mem_cons_of_mem _ hk)

/-- A text the composer wrote is found at the first of its keys, if the others are absent. -/
theorem str_field {key text : String} {keys : List String} (hkey : o.lookup key = some (.str text))
    (hclean : text = "" ∨ isNotBlank text = true) (hrest : ∀ k ∈ keys, o.lookup k = none) :
    str o (key :: keys) = some text := by
  rw [str, hkey, Json.str, contentOrThrow, bind_some]
  dsimp only
  obtain rfl | htext := hclean
  · rw [if_neg (by decide), str_absent hrest]
  · rw [if_pos htext]

end Object

theorem clean_toString (n : Int) : toString n = "" ∨ isNotBlank (toString n) = true := by
  cases hchars : (toString n).toList with
  | nil => exact .inl (String.toList_eq_nil_iff.mp hchars)
  | cons c rest =>
    right
    have hmem : c ∈ (toString n).toList := by rw [hchars]; exact mem_cons_self
    have hsolid : isWhitespace c = false := by
      obtain h | rfl := mem_toString_int hmem
      · exact isWhitespace_of_isUnreserved (by simp [isUnreserved, Char.isAlphanum, h])
      · decide
    rw [isNotBlank, isBlank, hchars, all_cons, hsolid]
    rfl

/-- A comma list in normal form is empty or not blank. -/
theorem clean_alpn (h : StreamNormal p) :
    joinToString "," p.alpn = "" ∨ isNotBlank (joinToString "," p.alpn) = true := by
  by_cases hblank : isBlank (joinToString "," p.alpn) = true
  · left
    -- a blank text is one piece, and nothing is left of it
    have hfree : ∀ c ∈ (joinToString "," p.alpn).toList, (c == ',') = false := by
      intro c hc
      rw [beq_eq_false_iff_ne]
      rintro rfl
      exact absurd (all_eq_true.mp hblank _ hc) (by decide)
    have htrim : trim (joinToString "," p.alpn) = "" :=
      (trimmed_trim _).isBlank_iff.mp (by rw [isBlank_trim, hblank])
    have hnil : p.alpn = [] := by
      rw [← h.alpn, pieces, splitWhere, splitOnP_eq_singleton hfree, map_singleton,
        String.ofList_toList, map_singleton, htrim]
      rfl
    rw [hnil]
    rfl
  · right
    simpa [isNotBlank] using hblank

/-- The keys the parser knows and the composer does not write. -/
def unwritten : List String :=
  ["security", "serviceName", "peer", "fp", "allowInsecure", "skip-cert-verify", "insecure",
    "mode", "fm",
   "pcs", "vcn", "ech"]

/-- The composer leaves these keys out; so the parser reads their texts as empty. -/
theorem lookup_unwritten (p : ServerProfile) :
    ∀ key ∈ unwritten, (vmessObject p).lookup key = none := by
  have hkeys : ∀ key ∈ unwritten, key ∉ (vmessObject p).map Prod.fst := by
    simp only [vmessObject, map_cons, map_nil]
    decide
  intro key hkey
  rw [lookup_eq_none_iff]
  intro field hfield
  rw [bne_iff_ne]
  rintro rfl
  exact hkeys _ hkey (mem_map_of_mem hfield)

/-- THE OBJECT OF A COMPOSED LINK is read back up to what `sharedVmess` says. -/
theorem vmessProfile_composed (himage : VmessImage p) (hclean : Clean p) :
    vmessProfile R (vmessObject p) "" = some (sharedVmess p) := by
  have hfield : ∀ key text : String, (vmessObject p).lookup key = some (.str text) →
      (text = "" ∨ isNotBlank text = true) → str (vmessObject p) [key] = some text :=
    fun key text hkey htext => str_field hkey htext (by simp)
  have habsent : ∀ keys : List String, (∀ key ∈ keys, key ∈ unwritten) →
      str (vmessObject p) keys = some "" :=
    fun keys h => str_absent fun key hkey => lookup_unwritten p key (h key hkey)
  have hserver : str (vmessObject p) ["add"] = some p.server :=
    hfield _ _ rfl (hclean.of_mem (by simp [texts]))
  have hport : str (vmessObject p) ["port"] = some (toString p.serverPort) :=
    hfield _ _ rfl (clean_toString _)
  have huuid : str (vmessObject p) ["id"] = some p.uuid :=
    hfield _ _ rfl (hclean.of_mem (by simp [texts]))
  have hnet : str (vmessObject p) ["net"] = some (networkName p.network) := by
    refine hfield _ _ rfl (.inr ?_)
    rw [networkName]
    split_ifs with hmem
    · generalize p.network = network at hmem
      revert network
      decide
    · decide
  have hsecurity : vmessSecurity (vmessObject p) = some p.security := by
    have htls : str (vmessObject p) ["tls"] = some (if p.security = "none" then "" else "tls") := by
      refine hfield _ _ rfl ?_
      split_ifs
      · exact .inl rfl
      · exact .inr (by decide)
    have hnone : str (vmessObject p) ["security"] = some "" := habsent _ (by decide)
    rw [vmessSecurity, htls, hnone, bind_some, map_some]
    have hmem := himage.security
    generalize p.security = security at hmem
    revert security
    decide
  have hpath : str (vmessObject p) (if p.network = "grpc" then ["path", "serviceName"]
      else ["path"]) =
      some p.path := by
    split_ifs
    · exact str_field rfl (hclean.of_mem (by simp [texts])) fun k hk =>
        lookup_unwritten p k (by revert k; decide)
    · exact hfield _ _ rfl (hclean.of_mem (by simp [texts]))
  have hps : str (vmessObject p) ["ps"] = some p.tag :=
    hfield _ _ rfl (hclean.of_mem (by simp [texts]))
  have haid : str (vmessObject p) ["aid"] = some (toString p.alterId) :=
    hfield _ _ rfl (clean_toString _)
  have hscy : str (vmessObject p) ["scy"] = some p.cipher :=
    hfield _ _ rfl (hclean.of_mem (by simp [texts]))
  have hsni : str (vmessObject p) ["sni", "peer"] = some p.sni :=
    str_field rfl (hclean.of_mem (by simp [texts])) fun k hk =>
      lookup_unwritten p k (by revert k; decide)
  have halpn : str (vmessObject p) ["alpn"] = some (joinToString "," p.alpn) :=
    hfield _ _ rfl (clean_alpn himage.normal)
  have hhost : str (vmessObject p) ["host"] = some p.host :=
    hfield _ _ rfl (hclean.of_mem (by simp [texts]))
  have hparams : vmessParams (vmessObject p) =
      some [("mode", ""), ("fm", ""), ("pcs", ""), ("vcn", ""), ("ech", "")] := by
    rw [vmessParams, habsent ["mode"] (by decide), habsent ["fm"] (by decide),
      habsent ["pcs"] (by decide),
      habsent ["vcn"] (by decide), habsent ["ech"] (by decide)]
    rfl
  have htag : ifBlank p.tag (percentDecode R "") = p.tag := by
    obtain h | h := hclean.of_mem (s := p.tag) (by simp [texts])
    · rw [h]
      rfl
    · rw [ifBlank, if_neg (by simpa [isNotBlank] using h)]
  have hcipher : ifBlank p.cipher "auto" = p.cipher := by
    rw [ifBlank, himage.cipher, if_neg (by decide)]
  have hinsecure : str (vmessObject p) ["allowInsecure", "skip-cert-verify", "insecure"] =
      some "" :=
    habsent _ (by decide)
  unfold vmessProfile
  rw [hserver, hport, huuid, hnet, hsecurity, hps, haid, hscy, hsni, halpn, hhost,
    hparams, hinsecure,
    habsent ["fp"] (by decide)]
  simp only [bind_eq_bind, bind_some, toIntOrNull_toString himage.port.1 himage.port.2,
    toIntOrNull_toString himage.alterId.1 himage.alterId.2, himage.server, himage.uuid,
    Bool.or_self,
    Bool.false_eq_true, if_false, himage.normal.network, hpath, himage.normal.alpn, htag,
    hcipher, getD_some]
  refine congrArg some (Eq.trans ?_ (congrArg sharedVmess himage.fields).symm)
  unfold withXrayParams
  by_cases hxhttp : p.network = "xhttp"
  · simp only [if_pos hxhttp]
    rfl
  · simp only [if_neg hxhttp]
    rfl

/-! ### The text of a VMess link -/

/-- What is assumed of the JSON library: the object it wrote is the object it reads. -/
structure Libraries.ReadsBack (L : Libraries) (o : JsonObject) : Prop where
  text : L.printJson o ≠ ""
  parse : L.parseToJsonElement (L.printJson o) = some (.object o)

/-- No symbol of the alphabet is white space or starts a fragment. -/
theorem standard_solid : ∀ c ∈ Base64.standard.symbols, isWhitespace c = false ∧ c ≠ '#' :=
  forall_mem_of_all (by decide)

theorem vmess_solid {payload : List Char} (h : ∀ c ∈ payload, isWhitespace c = false ∧ c ≠ '#') :
    ∀ c ∈ ("vmess://" ++ String.ofList payload).toList, isWhitespace c = false ∧ c ≠ '#' := by
  have hscheme : ∀ c ∈ ("vmess://" : String).toList, isWhitespace c = false ∧ c ≠ '#' :=
    forall_mem_of_all (by decide)
  intro c hc
  rw [String.toList_append, mem_append] at hc
  obtain hc | hc := hc
  · exact hscheme c hc
  · rw [String.toList_ofList] at hc
    exact h c hc

theorem parseVmess_image {L : Libraries} {uri : String} (hparse : parseVmess L uri = some p) :
    VmessImage p := by
  obtain ⟨text, -, h⟩ := bind_eq_some_iff.mp hparse
  obtain ⟨element, -, h⟩ := bind_eq_some_iff.mp h
  obtain ⟨o, -, h⟩ := bind_eq_some_iff.mp h
  exact vmessProfile_spec h

theorem payload_solid (text : String) :
    ∀ c ∈ Base64.standard.bare (utf8 text), isWhitespace c = false ∧ c ≠ '#' :=
  fun c hc => standard_solid c (Base64.mem_bare hc)

/-- So a VMess link is not changed by trimming, and its scheme is found. -/
theorem payload_scheme (text : String) :
    trim ("vmess://" ++ String.ofList (Base64.standard.bare (utf8 text))) =
        "vmess://" ++ String.ofList (Base64.standard.bare (utf8 text)) ∧
      startsWithIgnoreCase (trim ("vmess://" ++ String.ofList (Base64.standard.bare (utf8 text))))
        "vmess://" = true := by
  have htrim := trim_of_trimmed (trimmed_of_solid fun c hc =>
    (vmess_solid (payload_solid text) c hc).1)
  refine ⟨htrim, ?_⟩
  rw [htrim]
  exact startsWithIgnoreCase_of_startsWith (startsWith_append _ _) (by decide)

/-- A VMESS LINK IS READ AS THE TEXT IT CARRIES: the payload is made of Base64 symbols, none of
    which is white space or a hash, so neither trimming nor the fragment takes anything from it. -/
theorem parseShareLink_payload (L : Libraries) {text : String} (htext : text ≠ "") :
    parseShareLink L ("vmess://" ++ String.ofList (Base64.standard.bare (utf8 text))) =
      (L.parseToJsonElement text).bind fun element =>
        (jsonObjectOrNull element).bind fun o => vmessProfile L.toPlatform o "" := by
  obtain ⟨htrim, hscheme⟩ := payload_scheme text
  have hsolid := vmess_solid (payload_solid text)
  generalize hlink : "vmess://" ++ String.ofList (Base64.standard.bare (utf8 text)) = link at *
  have hrest : substringFrom link 8 = String.ofList (Base64.standard.bare (utf8 text)) := by
    rw [← hlink]
    exact substringFrom_append _ _ (by decide)
  have hbefore : ∀ s : String, (∀ c ∈ s.toList, c ≠ '#') → substringBefore s '#' = s := by
    intro s hs
    rw [substringBefore, takeWhile_of_notMem fun hmem => hs _ hmem rfl, String.ofList_toList]
  have hafter : substringAfter link '#' = "" := by
    rw [substringAfter, dropWhile_of_notMem fun hmem => (hsolid _ hmem).2 rfl]
    rfl
  rw [parseShareLink_vmess hscheme, htrim, parseVmess, hrest,
    hbefore _ (fun c hc => (payload_solid text c (by simpa using hc)).2),
    decodeBase64Chunk_standard L.toPlatform htext, bind_some, hafter]

/-- A VMess link is read back up to what `sharedVmess` says. -/
theorem parse_composed_vmess (L : Libraries) {uri : String} (hparse : parseVmess L uri = some p)
    (hclean : Clean p) (hjson : L.ReadsBack (vmessObject p)) :
    (composeShareLink L p).bind (parseShareLink L) = some (sharedVmess p) := by
  have himage := parseVmess_image hparse
  have hcompose : composeShareLink L p = some (composeVmess L p) := by
    have htype : p.type = "vmess" := by rw [himage.fields]
    have hraw : p.rawXrayConfig = none := by rw [himage.fields]
    unfold composeShareLink
    rw [htype, hraw]
    rfl
  rw [hcompose, bind_some, composeVmess, parseShareLink_payload L hjson.text, hjson.parse,
    bind_some]
  exact vmessProfile_composed himage hclean

/-! ## What is kept -/

/-- The condition for a server to come back as it was. -/
structure Kept (p : ServerProfile) : Prop where
  trojan : p.type = "trojan" → p.security ≠ "none" ∧ p.vlessEncryption = "" ∧ p.server ≠ ""
  vmess : p.type = "vmess" → p.fingerprint = "" ∧ p.allowInsecure = false ∧ p.xhttpMode = "" ∧
    p.finalMask = "" ∧ p.pinnedCertSha256 = "" ∧ p.verifyCertByName = "" ∧ p.echConfigList = ""

/-- Where that changes nothing. -/
theorem sharedTrojan_eq_iff (p : ServerProfile) :
    sharedTrojan p = some p ↔ p.security ≠ "none" ∧ p.vlessEncryption = "" ∧ p.server ≠ "" := by
  rw [sharedTrojan]
  constructor
  · intro h
    split_ifs at h with hempty hnone
    · have hsecurity : "tls" = p.security := congrArg ServerProfile.security (some.inj h)
      rw [hnone] at hsecurity
      exact absurd hsecurity (by decide)
    · exact ⟨hnone, (congrArg ServerProfile.vlessEncryption (some.inj h)).symm, hempty⟩
  · rintro ⟨hnone, hencryption, hempty⟩
    rw [if_neg hempty, if_neg hnone, ← hencryption]

/-- Where that changes nothing: the seven texts a VMess link has no place for are empty. -/
theorem sharedVmess_eq_iff (p : ServerProfile) :
    sharedVmess p = p ↔ p.fingerprint = "" ∧ p.allowInsecure = false ∧ p.xhttpMode = "" ∧
      p.finalMask = "" ∧ p.pinnedCertSha256 = "" ∧ p.verifyCertByName = "" ∧
        p.echConfigList = "" := by
  constructor
  · intro h
    rw [← h]
    exact ⟨rfl, rfl, rfl, rfl, rfl, rfl, rfl⟩
  · rintro ⟨hfp, hinsecure, hmode, hmask, hpins, hname, hech⟩
    cases p
    subst hfp hinsecure hmode hmask hpins hname hech
    rfl

/-- A TROJAN OR VMESS SERVER COMES BACK AS IT WAS exactly when `Kept` holds of it. -/
theorem kept_iff (L : Libraries) {uri : String} {p : ServerProfile}
    (hscheme : startsWithIgnoreCase (trim uri) "trojan://" = true ∨
      startsWithIgnoreCase (trim uri) "vmess://" = true)
    (hparse : parseShareLink L uri = some p) (hclean : Clean p)
    (hserver : startsWith p.server "[" = false)
    (hjson : p.type = "vmess" → L.ReadsBack (vmessObject p)) :
    (composeShareLink L p).bind (parseShareLink L) = some p ↔ Kept p := by
  obtain hscheme | hscheme := hscheme
  · rw [parseShareLink_trojan hscheme] at hparse
    have htype : p.type = "trojan" := by
      obtain ⟨l, params, hp, -⟩ := parseTrojan_spec hparse
      rw [hp]
      rfl
    rw [parse_composed_trojan L hparse hclean hserver, sharedTrojan_eq_iff]
    constructor
    · intro h
      refine ⟨fun _ => h, fun hvmess => ?_⟩
      rw [htype] at hvmess
      exact absurd hvmess (by decide)
    · intro h
      exact h.trojan htype
  · rw [parseShareLink_vmess hscheme] at hparse
    have htype : p.type = "vmess" := by rw [(parseVmess_image hparse).fields]
    rw [parse_composed_vmess L hparse hclean (hjson htype), some_inj, sharedVmess_eq_iff]
    constructor
    · intro h
      refine ⟨fun htrojan => ?_, fun _ => h⟩
      rw [htype] at htrojan
      exact absurd htrojan (by decide)
    · intro h
      exact h.vmess htype

/-- What another client writes, with numbers where the app writes strings. -/
@[irreducible] def homeText : String :=
  "\x7b\"v\":\"2\",\"ps\":\"home\",\"add\":\"h.example\",\"port\":443,\"id\":\"0b1c\"," ++
  "\"aid\":0,\"scy\":\"auto\",\"net\":\"ws\",\"host\":\"h.example\",\"path\":\"/ws\"," ++
  "\"tls\":\"tls\",\"alpn\":\"h2\"\x7d"

def homeObject : JsonObject :=
  [("v", .str "2"), ("ps", .str "home"), ("add", .str "h.example"), ("port", .literal false "443"),
   ("id", .str "0b1c"), ("aid", .literal false "0"), ("scy", .str "auto"), ("net", .str "ws"),
   ("host", .str "h.example"), ("path", .str "/ws"), ("tls", .str "tls"), ("alpn", .str "h2")]

/-- The link of it. -/
def homeLink : String :=
  "vmess://" ++ String.ofList (Base64.standard.bare (utf8 homeText))

def homeServer : ServerProfile :=
  { tag := "home", type := "vmess", server := "h.example", serverPort := 443, uuid := "0b1c"
    cipher := "auto", network := "ws", security := "tls", alpn := ["h2"], path := "/ws"
    host := "h.example" }

/-- The text the app writes for that server. -/
@[irreducible] def homeShared : String :=
  "\x7b\"v\":\"2\",\"ps\":\"home\",\"add\":\"h.example\",\"port\":\"443\",\"id\":\"0b1c\"," ++
  "\"aid\":\"0\",\"scy\":\"auto\",\"net\":\"ws\",\"type\":\"none\",\"host\":\"h.example\"," ++
  "\"path\":\"/ws\",\"tls\":\"tls\",\"sni\":\"\",\"alpn\":\"h2\"\x7d"

/-- Libraries that know these two texts. -/
def homeLibraries : Libraries :=
  { noLibraries with
    parseToJsonElement := fun text =>
      if text = homeText then some (.object homeObject)
      else if text = homeShared then some (.object (vmessObject homeServer))
      else none
    printJson := fun o => if o = vmessObject homeServer then homeShared else "" }

/-- The link of the other client is read as the server it is for. -/
theorem homeLink_parsed : parseShareLink homeLibraries homeLink = some homeServer := by
  have htext : homeText ≠ "" := by
    simp [homeText]
  rw [homeLink, parseShareLink_payload _ htext]
  simp only [homeLibraries, if_true, bind_some]
  rfl

def realityLink : String := "trojan://pw@h:443?security=reality&pbk=k#n"

/-- A Trojan server behind REALITY comes back, and so does a VMess server over WebSocket, with the
    JSON text the app writes for it in the place of the one it came from. -/
theorem reality_and_websocket_kept :
    (∃ p, parseShareLink homeLibraries realityLink = some p ∧ p.type = "trojan" ∧
      (composeShareLink homeLibraries p).bind (parseShareLink homeLibraries) = some p) ∧
    parseShareLink homeLibraries homeLink = some homeServer ∧
      (composeShareLink homeLibraries homeServer).bind (parseShareLink homeLibraries) =
        some homeServer := by
  constructor
  · have hsome : (parseShareLink homeLibraries realityLink).isSome = true := by decide
    have hall : (parseShareLink homeLibraries realityLink).all (fun p =>
        decide (Clean p ∧ startsWith p.server "[" = false ∧ p.type = "trojan" ∧
          p.security = "reality" ∧ p.vlessEncryption = "" ∧ p.server = "h")) = true := by
      decide
    obtain ⟨p, hp⟩ := isSome_iff_exists.mp hsome
    rw [hp, all_some, decide_eq_true_eq] at hall
    obtain ⟨hclean, hbracket, htype, hsecurity, hencryption, hserver⟩ := hall
    have hother : p.type ≠ "vmess" := by
      rw [htype]
      decide
    have hkept : Kept p :=
      ⟨fun _ => ⟨by rw [hsecurity]; decide, hencryption, by rw [hserver]; decide⟩,
        fun hvmess => absurd hvmess hother⟩
    exact ⟨p, hp, htype, (kept_iff homeLibraries (.inl (by decide)) hp hclean hbracket
      fun hvmess => absurd hvmess hother).mpr hkept⟩
  · have hjson : homeLibraries.ReadsBack (vmessObject homeServer) := by
      have hprint : homeLibraries.printJson (vmessObject homeServer) = homeShared := by
        simp [homeLibraries]
      have hother : homeShared ≠ homeText := by
        unfold homeShared homeText
        decide
      refine ⟨?_, ?_⟩
      · rw [hprint]
        simp [homeShared]
      · rw [hprint]
        simp [homeLibraries, hother]
    have hkept : Kept homeServer :=
      ⟨fun htrojan => absurd htrojan (by decide), fun _ => ⟨rfl, rfl, rfl, rfl, rfl, rfl, rfl⟩⟩
    exact ⟨homeLink_parsed, (kept_iff homeLibraries (.inr (payload_scheme homeText).2)
      homeLink_parsed (by decide) (by decide) fun _ => hjson).mpr hkept⟩

/-- A Trojan server without TLS comes back with it. -/
theorem plain_server_gains_tls :
    (parseShareLink noLibraries "trojan://pw@h:443?security=none").map (·.security) = some "none" ∧
      ((parseShareLink noLibraries "trojan://pw@h:443?security=none").bind fun p =>
        (composeShareLink noLibraries p).bind (parseShareLink noLibraries)).map (·.security) =
          some "tls" := by
  decide

end OlcVpn.Share
