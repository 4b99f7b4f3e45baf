/-
  THE OTHER SHARE LINKS COME BACK, but for a Shadowsocks server whose name no link can carry.

  THE ARGUMENT, for each of the four:
    1. what a parser returns is in a normal form (`…Image`): lists read as themselves, the
    obfuscation in
       lower case, bandwidths in range, and a host that holds no delimiter which ended it;
    2. the composed link falls apart where it was put together, because a host is followed by a port
    and
       everything else is percent-encoded or Base64;
    3. what the composer leaves out is what the parser fills in.

  Step 1 fails for the host of the OLDER Shadowsocks form, which was inside the Base64 text: it may
  hold a `#` or a `?`, and then the composed link is cut there.
-/
import OlcVpn.Share.OtherLinks
import OlcVpn.Share.TrojanVmess

namespace OlcVpn.Share

open Kotlin Locations Generate List Option
open Option (some)
open String (ofList toList_ofList toList_append ofList_toList)
open Lib (Base64 forall_mem_of_all)

/-! ## Profiles -/

/-- Every text of a profile is empty or not blank. -/
def ShareProfile.Clean (p : ShareProfile) : Prop :=
  Share.Clean p.toServerProfile ∧
    ∀ s ∈ [p.username, p.hy2Obfs, p.hy2ObfsPassword, p.hy2Ports], s = "" ∨ isNotBlank s = true

instance (p : ShareProfile) : Decidable p.Clean :=
  inferInstanceAs (Decidable (Share.Clean p.toServerProfile ∧
    ∀ s ∈ [p.username, p.hy2Obfs, p.hy2ObfsPassword, p.hy2Ports], s = "" ∨ isNotBlank s = true))

theorem ne_empty_of_isBlank {s : String} (h : isBlank s = false) : s ≠ "" := by
  rintro rfl
  cases h

/-- What the round trip is asked for: no slash, no bracket and no `@` in the server. -/
structure ServerText (s : String) : Prop where
  slash : '/' ∉ s.toList
  bracket : '[' ∉ s.toList
  at' : '@' ∉ s.toList

theorem ServerText.head {s : String} (h : ServerText s) : s.toList.head? ≠ some '[' :=
  fun hhead => h.bracket (mem_of_mem_head? hhead)

/-! ## The end of a link -/

section Link

variable {R : Platform} {host tag : String} {port : Int} {params : List (String × String)}
    {slash : List Char}

/-- The user with its mark; nothing if there is none. -/
def userPart : Option String → List Char
  | some user => user.toList ++ ['@']
  | none => []

/-- The user part of a composed link is cut off at its `@`, also where there is none. -/
theorem optionalUser_link (user : Option String) (hat : '@' ∉ host.toList) :
    optionalUser (ofList (userPart user ++ (hostPort host port).toList)) =
      (user.getD "", hostPort host port) := by
  have hfree : '@' ∉ (hostPort host port).toList := notMem_hostPort hat (by decide)
  cases user with
  | some user =>
    have htext : (ofList (userPart (some user) ++ (hostPort host port).toList)).toList =
        user.toList ++ '@' :: (hostPort host port).toList := by
      rw [toList_ofList, userPart, append_assoc, singleton_append]
    rw [optionalUser, cutLast_of_cut htext hfree, ofList_toList, ofList_toList]
    rfl
  | none =>
    have htext : ofList (userPart none ++ (hostPort host port).toList) = hostPort host port :=
      ofList_toList
    rw [htext, optionalUser, cutLast, if_neg hfree]
    rfl

/-- The slash behind the port goes; the port has none. -/
theorem trimEndSlash_link (front : List Char) (hslash : slash = [] ∨ slash = ['/']) :
    trimEndSlash (ofList (front ++ (hostPort host port).toList ++ slash)) =
      ofList (front ++ (hostPort host port).toList) := by
  have hport : front ++ (hostPort host port).toList =
      (front ++ host.toList ++ [':']) ++ (toString port).toList := by
    rw [toList_hostPort]
    simp
  have hself : (front ++ (hostPort host port).toList).rdropWhile (· == '/') =
      front ++ (hostPort host port).toList := by
    rw [rdropWhile_eq_self_iff]
    intro hne hlast
    have hmem : (front ++ (hostPort host port).toList).getLast hne ∈ (toString port).toList := by
      simp only [hport]
      rw [getLast_append_of_ne_nil _ (toString_ne_nil port)]
      exact getLast_mem _
    rw [beq_iff_eq] at hlast
    exact (notMem_toString_int port (by decide)).elim (hlast ▸ hmem)
  rw [trimEndSlash, toList_ofList]
  obtain rfl | rfl := hslash
  · rw [append_nil, hself]
  · rw [rdropWhile_concat_pos _ _ _ (by decide), hself]

/-- The parts of a link, with or without a user. -/
theorem looseParts_link {user : Option String} {text : String}
    (h : LinkOf (userPart user) host port slash params tag text) (R : Platform)
      (hat : '@' ∉ host.toList) :
    (looseParts R text).remark = tag ∧ (looseParts R text).user = user.getD "" ∧
      (looseParts R text).address = hostPort host port ∧ parseQuery R (looseParts R text).query =
        params := by
  obtain ⟨hauthority, hremark, hquery⟩ := h.cut R
  unfold looseParts
  dsimp only
  rw [hremark, hauthority, trimEndSlash_link _ h.slash, optionalUser_link user hat, hquery]
  exact ⟨rfl, rfl, rfl, rfl⟩

/-- A host and a port that were joined are read as themselves. -/
theorem hostOrDefault_join (hserver : ServerText host) (hne : isBlank host = false)
    (hport : -2147483648 ≤ port ∧ port ≤ 2147483647) : hostOrDefault (hostPort host port) =
      (host, port) := by
  rw [hostOrDefault, splitHostPort_join hserver.slash hserver.head hport.1 hport.2,
    if_neg (ne_empty_of_isBlank hne)]
  rfl

end Link

/-! ## Dispatch -/

section Schemes

variable {L : Libraries} {uri : String}

theorem parseLink_shadowsocks (h : startsWithIgnoreCase (trim uri) "ss://" = true) :
    parseLink L uri = parseShadowsocks L.toPlatform (trim uri) := by
  unfold parseLink parseOtherLink
  simp (disch := decide) only [startsWithIgnoreCase_of_start _ h, if_pos, if_neg]

theorem parseLink_hysteria2
    (h : startsWithIgnoreCase (trim uri) "hysteria2://" = true ∨
      startsWithIgnoreCase (trim uri) "hy2://" = true) :
    parseLink L uri = parseHysteria2 L.toPlatform (trim uri) := by
  unfold parseLink parseOtherLink
  obtain h | h := h
  all_goals simp (disch := decide) only [startsWithIgnoreCase_of_start _ h, if_pos, if_neg]

theorem parseLink_naive (h : startsWithIgnoreCase (trim uri) "naive+https://" = true ∨
      startsWithIgnoreCase (trim uri) "naive+quic://" = true) :
    parseLink L uri = parseNaive L.toPlatform (trim uri) := by
  unfold parseLink parseOtherLink
  obtain h | h := h
  all_goals simp (disch := decide) only [startsWithIgnoreCase_of_start _ h, if_pos, if_neg]

theorem parseLink_amneziaWg (h : startsWithIgnoreCase (trim uri) "amneziawg://" = true) :
    parseLink L uri = parseAmneziaWgLink L.toPlatform (trim uri) := by
  unfold parseLink parseOtherLink
  simp (disch := decide) only [startsWithIgnoreCase_of_start _ h, if_pos, if_neg]

/-- A composed link is read by the parser of its scheme. -/
theorem startsWithIgnoreCase_scheme {scheme rest : String}
    (htrim : trim (scheme ++ rest) = scheme ++ rest)
    (hscheme : scheme.toList.map foldAscii = scheme.toList) :
    startsWithIgnoreCase (trim (scheme ++ rest)) scheme = true := by
  rw [htrim]
  exact startsWithIgnoreCase_of_startsWith (startsWith_append _ _) hscheme

end Schemes

/-! ## What the parsers return -/

section Image

variable {R : Platform}

/-- A host comes out of its address, and a port is an `Int`. -/
theorem hostOrDefault_spec (address : String) :
    (∀ c ∈ (hostOrDefault address).1.toList, c ∈ address.toList) ∧
      -2147483648 ≤ (hostOrDefault address).2 ∧ (hostOrDefault address).2 ≤ 2147483647 := by
  rw [hostOrDefault]
  cases hsplit : splitHostPort address with
  | none =>
    exact ⟨fun c hc => (trimWhere_sublist _ _).subset hc, by simp⟩
  | some pair =>
    obtain ⟨-, hmem, hrange⟩ := splitHostPort_spec hsplit
    exact ⟨hmem, hrange⟩

/-- The address of a link stands before its query and its remark. -/
theorem notMem_looseParts (text : String) :
    '#' ∉ (looseParts R text).address.toList ∧ '?' ∉ (looseParts R text).address.toList := by
  have hauthority : ∀ c ∈ (looseParts R text).address.toList,
      c ∈ (substringBefore (substringBefore text '#') '?').toList := by
    intro c hc
    have htrim : ∀ c ∈ (trimEndSlash (substringBefore (substringBefore text '#') '?')).toList,
        c ∈ (substringBefore (substringBefore text '#') '?').toList := by
      intro c hc
      rw [trimEndSlash, toList_ofList] at hc
      exact (List.rdropWhile_prefix _ _).subset hc
    apply htrim
    unfold looseParts optionalUser at hc
    dsimp only at hc
    cases hcut : cutLast (trimEndSlash (substringBefore (substringBefore text '#') '?')) '@' with
    | none =>
      rw [hcut] at hc
      exact hc
    | some cut =>
      rw [hcut] at hc
      rw [(cutLast_spec hcut).1]
      exact mem_append_right _ (mem_cons_of_mem _ hc)
  exact ⟨fun h => (substringBefore_spec text '#').1 (mem_substringBefore (hauthority _ h)),
    fun h => (substringBefore_spec (substringBefore text '#') '?').1 (hauthority _ h)⟩

/-- No digit of any script stands before the ASCII ones. -/
theorem not_lt_of_digit {c : Char} (h : (digitToIntOrNull c).isSome = true) : ¬ c < '0' := by
  intro hlt
  have hsmall : c.toNat < 48 := hlt
  rw [digitToIntOrNull] at h
  split_ifs at h with hdigit
  · simp only [Char.isDigit, Bool.and_eq_true, decide_eq_true_eq] at hdigit
    exact absurd hlt (Char.not_lt.mpr hdigit.1)
  · rw [isSome_map, find?_isSome] at h
    obtain ⟨first, hfirst, hin⟩ := h
    have hzeros : ∀ n ∈ decimalZeros, 48 ≤ n := by decide
    simp only [Bool.and_eq_true, decide_eq_true_eq] at hin
    exact absurd (hzeros first hfirst) (by omega)

theorem mbps_range (value : Option String) : 0 ≤ mbps value ∧ mbps value ≤ 2147483647 := by
  rw [mbps]
  generalize htext : trim (value.getD "") = text
  have hdigits : ∀ c ∈ text.toList.takeWhile (fun c => (digitToIntOrNull c).isSome),
      (digitToIntOrNull c).isSome = true := fun c hc =>
    mem_takeWhile_imp (p := fun c => (digitToIntOrNull c).isSome) hc
  generalize text.toList.takeWhile (fun c => (digitToIntOrNull c).isSome) = digits at hdigits
  cases hnumber : toIntOrNull (ofList digits) with
  | none => exact ⟨by decide, by decide⟩
  | some n =>
    refine ⟨?_, (range_of_toIntOrNull hnumber).2⟩
    rw [toIntOrNull, toIntegerOrNull, toList_ofList] at hnumber
    cases digits with
    | nil => cases hnumber
    | cons c rest =>
      dsimp only at hnumber
      rw [if_neg (not_lt_of_digit (hdigits c mem_cons_self))] at hnumber
      obtain ⟨k, -, hk⟩ := bind_eq_some_iff.mp hnumber
      split_ifs at hk
      obtain rfl := some.inj hk
      exact Int.natCast_nonneg k

/-- A speed that was written is read back; zero is not written. -/
theorem mbps_toString {n : Int} (hlow : 0 ≤ n) (hhigh : n ≤ 2147483647) :
    mbps (if 0 < n then some (toString n) else none) = n := by
  obtain ⟨k, rfl⟩ := Int.eq_ofNat_of_zero_le hlow
  split_ifs with hpos
  · have hdigit : ∀ c ∈ (toString (k : Int)).toList, c.isDigit = true :=
      fun c hc => isDigit_of_mem_toString hc
    have htrim : trim (toString (k : Int)) = toString (k : Int) :=
      trim_of_trimmed (trimmed_of_solid (solid_toString k))
    have htake : (toString (k : Int)).toList.takeWhile (fun c => (digitToIntOrNull c).isSome) =
        (toString (k : Int)).toList := by
      refine takeWhile_eq_self_iff.mpr fun c hc => ?_
      rw [digitToIntOrNull, if_pos (hdigit c hc)]
      rfl
    rw [mbps, getD_some, htrim, htake, ofList_toList, toIntOrNull_toString (by omega) hhigh]
    rfl
  · have hzero : k = 0 := by omega
    rw [hzero]
    decide

/-- What is known of every profile `parseHysteria2` returns. -/
structure Hysteria2Image (p : ShareProfile) : Prop where
  server : isBlank p.server = false
  hash : '#' ∉ p.server.toList
  question : '?' ∉ p.server.toList
  port : -2147483648 ≤ p.serverPort ∧ p.serverPort ≤ 2147483647
  alpn : pieces trim (joinToString "," p.alpn) = p.alpn
  obfs : lowercase p.hy2Obfs = p.hy2Obfs
  up : 0 ≤ p.hy2UpMbps ∧ p.hy2UpMbps ≤ 2147483647
  down : 0 ≤ p.hy2DownMbps ∧ p.hy2DownMbps ≤ 2147483647
  fields : p = {
    tag := p.tag, type := "hysteria2", server := p.server, serverPort :=
      p.serverPort, password := p.password
    security := "tls", sni := p.sni, alpn := p.alpn, allowInsecure :=
      p.allowInsecure, hy2Obfs := p.hy2Obfs
    hy2ObfsPassword := p.hy2ObfsPassword, hy2UpMbps := p.hy2UpMbps, hy2DownMbps := p.hy2DownMbps
    hy2Ports := p.hy2Ports }

/-- A profile with these fields and defaults elsewhere is in the parser's image. -/
theorem hysteria2Image_of {tag server password sni obfs obfsPassword ports : String}
    {port up down : Int}
    {alpn : List String} {insecure : Bool} (hserver : isBlank server = false)
      (hhash : '#' ∉ server.toList)
    (hquestion : '?' ∉ server.toList) (hport : -2147483648 ≤ port ∧ port ≤ 2147483647)
    (halpn : pieces trim (joinToString "," alpn) = alpn) (hobfs : lowercase obfs = obfs)
    (hup : 0 ≤ up ∧ up ≤ 2147483647) (hdown : 0 ≤ down ∧ down ≤ 2147483647) : Hysteria2Image {
      tag := tag, type := "hysteria2", server := server, serverPort := port, password := password
      security := "tls", sni := sni, alpn := alpn, allowInsecure := insecure, hy2Obfs := obfs
      hy2ObfsPassword := obfsPassword, hy2UpMbps := up, hy2DownMbps := down, hy2Ports := ports } :=
  ⟨hserver, hhash, hquestion, hport, halpn, hobfs, hup, hdown, rfl⟩

/-- EVERY HYSTERIA2 PROFILE HAS THAT SHAPE, whatever link it came from. -/
theorem hysteria2_image {uri : String} {p : ShareProfile} (h : parseHysteria2 R uri = some p) :
    Hysteria2Image p := by
  unfold parseHysteria2 at h
  dsimp only at h
  generalize substringFrom uri (if startsWithIgnoreCase uri "hy2://" then 6 else 12) = text at h
  obtain ⟨hhash, hquestion⟩ := notMem_looseParts (R := R) text
  generalize param (parseQuery R (looseParts R text).query) = params at h
  obtain ⟨hmem, hrange⟩ := hostOrDefault_spec (looseParts R text).address
  unfold hysteria2Profile at h
  dsimp only at h
  by_cases hblank : isBlank (hostOrDefault (looseParts R text).address).1 = true
  · rw [if_pos hblank] at h
    cases h
  rw [if_neg hblank] at h
  rw [← some.inj h]
  exact hysteria2Image_of (by simpa using hblank) (fun hc => hhash (hmem _ hc))
    (fun hc => hquestion (hmem _ hc))
    hrange (alpn_join _) (lowercase_lowercase _) (mbps_range _) (mbps_range _)

/-- What is known of every profile `parseNaive` returns. -/
structure NaiveImage (p : ShareProfile) : Prop where
  server : isBlank p.server = false
  hash : '#' ∉ p.server.toList
  question : '?' ∉ p.server.toList
  port : -2147483648 ≤ p.serverPort ∧ p.serverPort ≤ 2147483647
  fields : p = {
    tag := p.tag, type := "naive", server := p.server, serverPort :=
      p.serverPort, username := p.username
    password := p.password, security := "tls", sni := p.sni, naiveQuic := p.naiveQuic }

theorem naiveImage_of {tag server username password sni : String} {port : Int} {quic : Bool}
    (hserver : isBlank server = false) (hhash : '#' ∉ server.toList)
      (hquestion : '?' ∉ server.toList)
    (hport : -2147483648 ≤ port ∧ port ≤ 2147483647) : NaiveImage {
      tag := tag, type := "naive", server := server, serverPort := port, username := username
      password := password, security := "tls", sni := sni, naiveQuic := quic } :=
  ⟨hserver, hhash, hquestion, hport, rfl⟩

theorem naiveProfile_image {text : String} {quic : Bool} {params : Params} {p : ShareProfile}
    (h : naiveProfile R (looseParts R text) quic params = some p) : NaiveImage p := by
  obtain ⟨hhash, hquestion⟩ := notMem_looseParts (R := R) text
  obtain ⟨hmem, hrange⟩ := hostOrDefault_spec (looseParts R text).address
  unfold naiveProfile at h
  dsimp only at h
  by_cases hblank : isBlank (hostOrDefault (looseParts R text).address).1 = true
  · rw [if_pos hblank] at h
    cases h
  rw [if_neg hblank] at h
  rw [← some.inj h]
  exact naiveImage_of (by simpa using hblank) (fun hc => hhash (hmem _ hc))
    (fun hc => hquestion (hmem _ hc)) hrange

/-- And so has every naive profile. -/
theorem naive_image {uri : String} {p : ShareProfile} (h : parseNaive R uri = some p) :
    NaiveImage p := by
  unfold parseNaive at h
  split_ifs at h
  all_goals exact naiveProfile_image h

end Image

/-! ## Hysteria2 -/

section Hysteria2

variable {p : ShareProfile}

theorem hysteria2Keys : (hysteria2Entries p).map (·.2.1) =
    ["sni", "insecure", "alpn", "obfs", "obfs-password", "mport", "up", "down"] := rfl

/-- No key needs encoding. -/
theorem plainKey_hysteria2 : ∀ pair ∈ written (hysteria2Entries p), PlainKey pair.1 :=
  plainKey_written (by rw [hysteria2Keys]; decide)

/-- The parameters of a composed link. -/
abbrev hysteria2Params (p : ShareProfile) : Params := param (written (hysteria2Entries p))

/-- What a composed link says of a parameter. -/
theorem param_hysteria2 (added : Bool) (key value : String)
    (h : (added, key, value) ∈ hysteria2Entries p := by simp [hysteria2Entries]) :
    hysteria2Params p key = if added then some value else none :=
  param_written (by rw [hysteria2Keys]; decide) h

/-- What is not written is not read. -/
theorem param_hysteria2_none {key : String}
    (h : key ∉ ["sni", "insecure", "alpn", "obfs", "obfs-password", "mport", "up", "down"]) :
    hysteria2Params p key = none := param_written_of_notMem (by rw [hysteria2Keys]; exact h)

theorem getD_or_unlessBlank {s : String} (h : s = "" ∨ isNotBlank s = true) :
    ((if isNotBlank s then some s else none).or none).getD "" = s := by
  rw [or_none]
  exact getD_unlessBlank h

/-- The profile is read back from the parts of its link. -/
theorem hysteria2Profile_composed {R : Platform} {l : LooseParts} (himage : Hysteria2Image p)
    (hclean : p.Clean)
    (hserver : ServerText p.server) (hremark : l.remark = p.tag)
      (haddress : l.address = hostPort p.server p.serverPort)
    (huser : percentDecode R l.user = p.password) : hysteria2Profile R l (hysteria2Params p) =
      some p := by
  have hhost : hostOrDefault l.address = (p.server, p.serverPort) := by
    rw [haddress, hostOrDefault_join hserver himage.server himage.port]
  have hsni : ((hysteria2Params p "sni").or (hysteria2Params p "peer")).getD "" =
      p.sni := by
    rw [param_hysteria2 (isNotBlank p.sni) "sni" p.sni, param_hysteria2_none (by decide)]
    exact getD_or_unlessBlank (hclean.1.of_mem (by simp [texts]))
  have halpn : Params.text (hysteria2Params p) "alpn" = joinToString "," p.alpn := by
    rw [Params.text, param_hysteria2 (p.alpn ≠ []) "alpn" (joinToString "," p.alpn)]
    by_cases hnil : p.alpn = []
    · rw [hnil]
      rfl
    · rw [decide_eq_true hnil]
      rfl
  have hinsecure : (decide (hysteria2Params p "insecure" = some "1") ||
      decide (hysteria2Params p "insecure" = some "true")) = p.allowInsecure := by
    rw [param_hysteria2 p.allowInsecure "insecure" "1"]
    cases p.allowInsecure
    all_goals decide
  have hobfs : lowercase (Params.text (hysteria2Params p) "obfs") = p.hy2Obfs := by
    rw [Params.text, param_hysteria2 (isNotBlank p.hy2Obfs) "obfs" p.hy2Obfs,
      getD_unlessBlank (hclean.2 _ (by simp)), himage.obfs]
  have hobfsPassword : Params.text (hysteria2Params p) "obfs-password" = p.hy2ObfsPassword := by
    rw [Params.text, param_hysteria2 (isNotBlank p.hy2ObfsPassword) "obfs-password"
      p.hy2ObfsPassword,
      getD_unlessBlank (hclean.2 _ (by simp))]
  have hup : mbps (hysteria2Params p "up") = p.hy2UpMbps := by
    rw [param_hysteria2 (0 < p.hy2UpMbps) "up" (toString p.hy2UpMbps)]
    simpa using mbps_toString himage.up.1 himage.up.2
  have hdown : mbps (hysteria2Params p "down") = p.hy2DownMbps := by
    rw [param_hysteria2 (0 < p.hy2DownMbps) "down" (toString p.hy2DownMbps)]
    simpa using mbps_toString himage.down.1 himage.down.2
  have hports : ((hysteria2Params p "mport").or
      (hysteria2Params p "ports")).getD "" = p.hy2Ports := by
    rw [param_hysteria2 (isNotBlank p.hy2Ports) "mport" p.hy2Ports,
      param_hysteria2_none (by decide)]
    exact getD_or_unlessBlank (hclean.2 _ (by simp))
  unfold hysteria2Profile
  dsimp only
  rw [hhost, himage.server, if_neg Bool.false_ne_true, hremark, huser, hsni, halpn, himage.alpn,
    hinsecure, hobfs,
    hobfsPassword, hup, hdown, hports]
  exact congrArg some himage.fields.symm

theorem hysteria2_user (R : Platform) (hclean : p.password = "" ∨ isNotBlank p.password = true) :
    percentDecode R ((if isNotBlank p.password then some (percentEncode p.password)
      else none).getD "") =
      p.password := by
  obtain h | h := hclean
  · rw [h]
    rfl
  · rw [if_pos h, getD_some, percentDecode_percentEncode]

/-- The composed text is a link of these parts; what is left is `LinkOf`. -/
theorem composeHysteria2_link (himage : Hysteria2Image p)
    (htag : p.tag = "" ∨ isNotBlank p.tag = true) :
    ∃ text, composeHysteria2 p = "hysteria2://" ++ text ∧
      LinkOf (userPart (if isNotBlank p.password then some (percentEncode p.password) else none))
        p.server p.serverPort
        (if written (hysteria2Entries p) = [] then [] else ['/'])
          (written (hysteria2Entries p)) p.tag text := by
  refine ⟨_, ?_, ⟨toList_ofList, ?_, plainKey_hysteria2⟩, ?_, himage.hash, himage.question, htag⟩
  · refine String.ext ?_
    rw [composeHysteria2, queryPart]
    split_ifs
    all_goals simp [userPart, toList_append]
  · split_ifs
    · exact .inl rfl
    · exact .inr rfl
  · intro c hc
    split_ifs at hc
    · obtain hc | hc := mem_append.mp hc
      · exact ne_of_mem_percentEncode hc
      · rw [mem_singleton.mp hc]
        decide
    · cases hc

/-- A HYSTERIA2 LINK COMES BACK. -/
theorem parse_composed_hysteria2 (L : Libraries) (himage : Hysteria2Image p) (hclean : p.Clean)
    (hserver : ServerText p.server) : parseLink L (composeHysteria2 p) = some p := by
  obtain ⟨text, hcompose, hlink⟩ := composeHysteria2_link himage (hclean.1.of_mem (by simp [texts]))
  obtain ⟨hremark, hpart, haddress, hquery⟩ := looseParts_link hlink L.toPlatform hserver.at'
  have htrim : trim ("hysteria2://" ++ text) = "hysteria2://" ++ text := hlink.trim rfl (by decide)
  have hscheme := startsWithIgnoreCase_scheme htrim (by decide)
  rw [hcompose, parseLink_hysteria2 (.inl hscheme), parseHysteria2,
    startsWithIgnoreCase_of_start "hy2://" hscheme (by decide), htrim, if_neg (by decide),
    substringFrom_append "hysteria2://" text (by decide), hquery]
  exact hysteria2Profile_composed himage hclean hserver hremark haddress
    (by rw [hpart]; exact hysteria2_user L.toPlatform (hclean.1.of_mem (by simp [texts])))

end Hysteria2

/-! ## Naive -/

section Naive

variable {p : ShareProfile}

/-- The one parameter of a Naive link. -/
def naiveEntries (p : ShareProfile) : List (Bool × String × String) :=
  [(isNotBlank p.sni, "sni", p.sni)]

theorem plainKey_naive : ∀ pair ∈ written (naiveEntries p), PlainKey pair.1 := by
  refine plainKey_written ?_
  simp only [naiveEntries, map_cons, map_nil]
  decide

/-- The only parameter of a naive link is its `sni`. -/
theorem queryPart_naive : queryPart (written (naiveEntries p)) =
    (if isNotBlank p.sni then "?sni=" ++ percentEncode p.sni else "").toList := by
  rw [naiveEntries]
  cases hsni : isNotBlank p.sni with
  | true =>
    have hwritten : written [(true, "sni", p.sni)] = [("sni", p.sni)] := rfl
    have hquery : queryText [("sni", p.sni)] = "sni=" ++ percentEncode p.sni :=
      String.ext (by simp [queryText, joinToString])
    rw [hwritten, queryPart, if_neg (cons_ne_nil _ _), if_pos rfl, hquery, toList_append,
      toList_append]
    rfl
  | false => rfl

/-- The user a Naive link is written with. -/
def naiveUser (p : ShareProfile) : Option String :=
  if isNotBlank p.username || isNotBlank p.password then
    some (percentEncode p.username ++ ":" ++ percentEncode p.password)
  else none

/-- Name and password are told apart by the colon between them, which encoding leaves to it. -/
theorem naiveUser_read (R : Platform) (hname : p.username = "" ∨ isNotBlank p.username = true)
    (hpassword : p.password = "" ∨ isNotBlank p.password = true) :
    percentDecode R (substringBefore ((naiveUser p).getD "") ':') = p.username ∧
      percentDecode R (substringAfter ((naiveUser p).getD "") ':') = p.password := by
  rw [naiveUser]
  split_ifs with huser
  · have htext : (percentEncode p.username ++ ":" ++ percentEncode p.password).toList =
        (percentEncode p.username).toList ++ ':' :: (percentEncode p.password).toList := by
      rw [toList_append, toList_append, append_assoc]
      rfl
    obtain ⟨hname, hword⟩ := substring_cut htext (notMem_percentEncode _ (by decide))
    rw [getD_some, hname, hword, ofList_toList, ofList_toList, percentDecode_percentEncode,
      percentDecode_percentEncode]
    exact ⟨rfl, rfl⟩
  · -- neither is written, so both are empty
    simp only [Bool.or_eq_true, not_or] at huser
    rw [hname.resolve_right huser.1, hpassword.resolve_right huser.2]
    exact ⟨rfl, rfl⟩

/-- The parts of a composed link are read as the profile. -/
theorem naiveProfile_composed {R : Platform} {l : LooseParts} (himage : NaiveImage p)
    (hclean : p.Clean)
    (hserver : ServerText p.server) (hremark : l.remark = p.tag)
      (haddress : l.address = hostPort p.server p.serverPort)
    (huser : l.user = (naiveUser p).getD "") :
    naiveProfile R l p.naiveQuic (param (written (naiveEntries p))) = some p := by
  have hhost : hostOrDefault l.address = (p.server, p.serverPort) := by
    rw [haddress, hostOrDefault_join hserver himage.server himage.port]
  have hnone : ∀ key, key ≠ "sni" → param (written (naiveEntries p)) key = none :=
    fun key hkey => param_written_of_notMem (by simpa [naiveEntries] using hkey)
  have hsni : ((param (written (naiveEntries p)) "sni").or
      (param (written (naiveEntries p)) "peer")).getD "" =
      p.sni := by
    have hentry : (isNotBlank p.sni, "sni", p.sni) ∈ naiveEntries p := mem_singleton_self _
    rw [param_written (by simp [naiveEntries]) hentry, hnone _ (by decide)]
    exact getD_or_unlessBlank (hclean.1.of_mem (by simp [texts]))
  obtain ⟨hname, hpassword⟩ :=
    naiveUser_read R (hclean.2 p.username (by simp)) (hclean.1.of_mem (by simp [texts]))
  unfold naiveProfile
  dsimp only
  rw [hhost, himage.server, if_neg Bool.false_ne_true, hremark, huser, hname, hpassword, hsni,
    hnone _ (by decide),
    any_none, Bool.or_false]
  exact congrArg some himage.fields.symm

theorem composeNaive_link (himage : NaiveImage p) (htag : p.tag = "" ∨ isNotBlank p.tag = true) :
    ∃ text, composeNaive p = (if p.naiveQuic then "naive+quic://" else "naive+https://") ++ text ∧
      LinkOf (userPart (naiveUser p)) p.server p.serverPort []
        (written (naiveEntries p)) p.tag text := by
  refine ⟨_, ?_, ⟨toList_ofList, .inl rfl, plainKey_naive⟩, ?_, himage.hash, himage.question, htag⟩
  · refine String.ext ?_
    rw [composeNaive, queryPart_naive, naiveUser]
    split_ifs
    all_goals simp [userPart, toList_append]
  · intro c hc
    rw [naiveUser] at hc
    split_ifs at hc
    · rw [userPart, toList_append, toList_append, mem_append, mem_append, mem_append] at hc
      obtain ((hc | hc) | hc) | hc := hc
      · exact ne_of_mem_percentEncode hc
      · rw [mem_singleton.mp hc]
        decide
      · exact ne_of_mem_percentEncode hc
      · rw [mem_singleton.mp hc]
        decide
    · cases hc

/-- A NAIVE LINK COMES BACK. -/
theorem parse_composed_naive (L : Libraries) (himage : NaiveImage p) (hclean : p.Clean)
    (hserver : ServerText p.server) : parseLink L (composeNaive p) = some p := by
  obtain ⟨text, hcompose, hlink⟩ := composeNaive_link himage (hclean.1.of_mem (by simp [texts]))
  obtain ⟨hremark, hpart, haddress, hquery⟩ := looseParts_link hlink L.toPlatform hserver.at'
  have hprofile :=
    naiveProfile_composed (R := L.toPlatform) himage hclean hserver hremark haddress hpart
  rw [hcompose]
  cases hquic : p.naiveQuic with
  | true =>
    rw [hquic] at hprofile
    have htrim : trim ("naive+quic://" ++ text) = "naive+quic://" ++ text :=
      hlink.trim rfl (by decide)
    have hscheme := startsWithIgnoreCase_scheme htrim (by decide)
    rw [if_pos rfl, parseLink_naive (.inr hscheme), parseNaive,
      startsWithIgnoreCase_of_start "naive+https://" hscheme (by decide), hscheme,
      if_neg (by decide),
      if_pos rfl, htrim, substringFrom_append "naive+quic://" text (by decide),
      naiveAfterScheme, hquery]
    exact hprofile
  | false =>
    rw [hquic] at hprofile
    have htrim : trim ("naive+https://" ++ text) = "naive+https://" ++ text :=
      hlink.trim rfl (by decide)
    have hscheme := startsWithIgnoreCase_scheme htrim (by decide)
    rw [if_neg Bool.false_ne_true, parseLink_naive (.inl hscheme), parseNaive, hscheme,
      if_pos rfl, htrim,
      substringFrom_append "naive+https://" text (by decide), naiveAfterScheme, hquery]
    exact hprofile

end Naive

/-! ## AmneziaWG -/

section AmneziaWg

/-- A fold over lines that ignores blank ones and white space around them sees only the lines
    themselves. -/
theorem foldl_lines {σ : Type} {f : σ → String → σ} (htrim : ∀ s line, f s (trim line) = f s line)
    (hempty : ∀ s, f s "" = s) (lines : List String) : ∀ s, lines.foldl f s =
      (nonBlank lines).foldl f s := by
  induction lines with
  | nil => intro s; rfl
  | cons line lines ih =>
    intro s
    rw [foldl_cons, ih, nonBlank, nonBlank, map_cons]
    by_cases hline : trim line = ""
    · rw [filter_cons_of_neg (by simpa using hline), ← htrim, hline, hempty]
    · rw [filter_cons_of_pos (by simpa using hline), foldl_cons, htrim]

theorem awgStep_trim (s : AwgLines) (line : String) : awgStep s (trim line) = awgStep s line := by
  rw [awgStep, awgStep, trim_trim]

theorem awgStep_empty (s : AwgLines) : awgStep s "" = s := rfl

/-- So a configuration is read alike after trimming. -/
theorem awgLines_trim (text : String) :
    (lineSequence (trim text)).foldl awgStep {} = (lineSequence text).foldl awgStep {} := by
  have hlines : nonBlank (lineSequence (trim text)) = nonBlank (lineSequence text) :=
    nonBlankLines_trim text
  rw [foldl_lines awgStep_trim awgStep_empty, hlines, ← foldl_lines awgStep_trim awgStep_empty]

/-- White space folds onto itself. -/
theorem foldAscii_whitespace {c : Char} (h : isWhitespace c = true) : foldAscii c = c := by
  simp only [isWhitespace, whitespaceRanges, any_cons, any_nil, Bool.or_eq_true, Bool.and_eq_true,
    decide_eq_true_eq, Bool.or_false] at h
  have hupper : ¬ (c.val ≥ 'A'.val ∧ c.val ≤ 'Z'.val) := by
    rintro ⟨hlow, hhigh⟩
    have hlow' : 65 ≤ c.toNat := hlow
    have hhigh' : c.toNat ≤ 90 := hhigh
    omega
  rw [foldAscii, if_neg (by omega), if_neg (by omega), if_neg (by omega)]
  exact dif_neg hupper

/-- A word without white space is not cut by trimming. -/
theorem containsIgnoreCase_trim {text word : String} (hne : word.toList ≠ [])
    (hword : ∀ c ∈ word.toList, isWhitespace c = false) (h : containsIgnoreCase text word = true) :
    containsIgnoreCase (trim text) word = true := by
  rw [containsIgnoreCase, contains_iff_isInfix, toList_ofList] at h ⊢
  obtain ⟨x, y, hxy⟩ := h
  obtain ⟨l, after, htext, hl, -⟩ := map_eq_append_iff.mp hxy.symm
  obtain ⟨before, middle, rfl, -, hmiddle⟩ := map_eq_append_iff.mp hl
  have hsolid : ∀ c ∈ middle, isWhitespace c = false := by
    intro c hc
    rw [Bool.eq_false_iff]
    intro hspace
    have hfold := hword (foldAscii c) (hmiddle ▸ mem_map_of_mem hc)
    rw [foldAscii_whitespace hspace, hspace] at hfold
    cases hfold
  have hne' : middle ≠ [] := by
    rintro rfl
    exact hne hmiddle.symm
  rw [toList_trim, htext, trimChars_around before after hne' hsolid, map_append,
    map_append, hmiddle]
  exact ⟨_, _, rfl⟩

/-- What looks like a configuration still does after trimming. -/
theorem looksLikeAmneziaWg_trim {text : String} (h : looksLikeAmneziaWg text = true) :
    looksLikeAmneziaWg (trim text) = true := by
  rw [looksLikeAmneziaWg_lines, Bool.and_eq_true] at h
  rw [looksLikeAmneziaWg_lines, Bool.and_eq_true, nonBlankLines_trim]
  exact ⟨containsIgnoreCase_trim (by decide) (forall_mem_of_all (by decide)) h.1, h.2⟩

/-- The profile of a file and of the trimmed file. -/
theorem parseAmneziaWg_trim {text : String} (h : looksLikeAmneziaWg text = true) :
    parseAmneziaWg (trim text) = parseAmneziaWg text := by
  unfold parseAmneziaWg
  rw [if_pos h, if_pos (looksLikeAmneziaWg_trim h), awgLines_trim, trim_trim]

theorem ne_empty_of_looksLike {text : String} (h : looksLikeAmneziaWg text = true) :
    trim text ≠ "" := by
  intro hempty
  have hlooks := looksLikeAmneziaWg_trim h
  rw [hempty] at hlooks
  exact absurd hlooks (by decide)

/-- AN AMNEZIAWG LINK COMES BACK. -/
theorem parse_composed_amneziaWg (L : Libraries) {text : String} {p : ShareProfile}
    (hparse : parseAmneziaWg text = some p) :
    p.type = "amneziawg" ∧ (composeAmneziaWg p).bind (parseLink L) = some p := by
  have hlooks : looksLikeAmneziaWg text = true := by
    by_contra hnot
    rw [parseAmneziaWg, if_neg hnot] at hparse
    cases hparse
  have hfields : p.type = "amneziawg" ∧ p.awgConfig = trim text := by
    rw [parseAmneziaWg, if_pos hlooks] at hparse
    rw [← some.inj hparse]
    exact ⟨rfl, rfl⟩
  refine ⟨hfields.1, ?_⟩
  have hconfig : isNotBlank p.awgConfig = true := by
    rw [hfields.2]
    exact (trimmed_trim text).isNotBlank_iff.mpr (ne_empty_of_looksLike hlooks)
  have hsolid : ∀ c ∈ ("amneziawg://" ++ ofList (Base64.urlSafe.bare (utf8 p.awgConfig))).toList,
      isWhitespace c = false := by
    intro c hc
    rw [toList_append, mem_append] at hc
    obtain hc | hc := hc
    · exact forall_mem_of_all (p := fun c => isWhitespace c = false) (by decide) c hc
    · rw [toList_ofList] at hc
      exact dense_urlSafe.solid c (Base64.mem_bare hc)
  have htrim := trim_of_trimmed (trimmed_of_solid hsolid)
  have hhash : '#' ∉ (ofList (Base64.urlSafe.bare (utf8 p.awgConfig))).toList := by
    have hsymbol : '#' ∉ Base64.urlSafe.symbols := by decide
    rw [toList_ofList]
    exact fun hmem => hsymbol (Base64.mem_bare hmem)
  rw [composeAmneziaWg, if_pos hconfig, bind_some,
    parseLink_amneziaWg (startsWithIgnoreCase_scheme htrim (by decide)), htrim, parseAmneziaWgLink,
    substringFrom_append "amneziawg://" _ (by decide), substringBefore_of_notMem hhash,
    decodeBase64Chunk_urlSafe L.toPlatform (ne_empty_of_isNotBlank hconfig), bind_some, hfields.2,
    parseAmneziaWg_trim hlooks, hparse]

end AmneziaWg

/-! ## Shadowsocks -/

section Shadowsocks

variable {R : Platform}

/-- What is known of every profile `parseShadowsocks` returns. -/
structure ShadowsocksImage (p : ShareProfile) : Prop where
  method : isBlank p.method = false ∧ ':' ∉ p.method.toList
  password : isBlank p.password = false
  server : isBlank p.server = false
  port : -2147483648 ≤ p.serverPort ∧ p.serverPort ≤ 2147483647
  fields : p = {
    tag := p.tag, type := "shadowsocks", server := p.server, serverPort :=
      p.serverPort, method := p.method
    password := p.password }

/-- The image of the Shadowsocks parser; its server is a part of the address. -/
theorem shadowsocksProfile_spec {remark userInfo address : String} {p : ShareProfile}
    (h : shadowsocksProfile remark userInfo address = some p) :
    ShadowsocksImage p ∧ ∀ c ∈ p.server.toList, c ∈ address.toList := by
  obtain ⟨⟨method, password⟩, huser, h⟩ := bind_eq_some_iff.mp h
  obtain ⟨⟨host, port⟩, hsplit, h⟩ := bind_eq_some_iff.mp h
  dsimp only at h
  split_ifs at h with hblank
  rw [← some.inj h]
  simp only [Bool.or_eq_true, not_or, Bool.not_eq_true] at hblank
  obtain ⟨-, hmem, hrange⟩ := splitHostPort_spec hsplit
  have hcolon : ':' ∉ method.toList := by
    rw [shadowsocksUser] at huser
    split_ifs at huser
    rw [← (Prod.mk.inj (some.inj huser)).1]
    exact (substringBefore_spec userInfo ':').1
  exact ⟨⟨⟨hblank.1.1, hcolon⟩, hblank.1.2, hblank.2, hrange, rfl⟩, hmem⟩

theorem shadowsocks_image {uri : String} {p : ShareProfile} (h : parseShadowsocks R uri = some p) :
    ShadowsocksImage p := by
  unfold parseShadowsocks at h
  obtain ⟨⟨userInfo, address⟩, -, h⟩ := bind_eq_some_iff.mp h
  exact (shadowsocksProfile_spec h).1

/-- The user is cut at the last `@`. -/
theorem cutUser_eq {text : String} {user rest : List Char}
    (htext : text.toList = user ++ '@' :: rest)
    (hrest : '@' ∉ rest) (hne : user ≠ []) : cutUser text = some (ofList user, ofList rest) := by
  have huser : ofList user ≠ "" := by
    intro hempty
    apply hne
    rw [← toList_ofList (l := user), hempty]
    rfl
  rw [cutUser, cutLast_of_cut htext hrest, filter_some, if_pos (by simpa using huser)]

/-- A text with something before an `@` has a user. -/
theorem cutUser_isSome {text : String} {user rest : List Char}
    (htext : text.toList = user ++ '@' :: rest)
    (hne : user ≠ []) : ∃ user' rest', cutUser text = some (user', rest') ∧ ∀ c ∈ rest'.toList,
      c ∈ text.toList := by
  obtain ⟨⟨before, after⟩, hcut⟩ : ∃ cut, cutLast text '@' = some cut := by
    rw [cutLast, if_pos (by simp [htext])]
    exact ⟨_, rfl⟩
  obtain ⟨hwhole, hfree⟩ := cutLast_spec hcut
  have hbefore : before ≠ "" := by
    rintro rfl
    obtain ⟨c, l, rfl⟩ := exists_cons_of_ne_nil hne
    obtain ⟨rfl, hrest⟩ := List.cons.inj (htext.symm.trans hwhole)
    -- the first `@` would be the last one
    exact hfree (hrest ▸ mem_append_right _ mem_cons_self)
  refine ⟨before, after, by rw [cutUser, hcut, filter_some, if_pos (by simpa using hbefore)],
    fun c hc => ?_⟩
  rw [hwhole]
  exact mem_append_right _ (mem_cons_of_mem _ hc)

/-- A link that shows its user has a server without the marks of query and remark. -/
theorem server_of_user {uri text : String} {user rest : List Char} {p : ShareProfile}
    (huri : substringFrom uri 5 = text) (htext : text.toList = user ++ '@' :: rest)
      (hne : user ≠ [])
    (huser : '#' ∉ user ∧ '?' ∉ user) (h : parseShadowsocks R uri = some p) :
    '#' ∉ p.server.toList ∧ '?' ∉ p.server.toList := by
  unfold parseShadowsocks at h
  dsimp only at h
  rw [huri] at h
  have hbody : ∃ rest', (substringBefore (substringBefore text '#') '?').toList = user ++
      '@' :: rest' := by
    have htake : ∀ (mark : Char) (l : List Char), mark ∉ user → mark ≠ '@' →
        (user ++ '@' :: l).takeWhile (· != mark) = user ++ '@' :: l.takeWhile (· != mark) := by
      intro mark l hmark hat
      rw [takeWhile_append_of_pos fun c hc => ?_, takeWhile_cons_of_pos (by simpa using hat.symm)]
      simpa using fun hcm : c = mark => hmark (hcm ▸ hc)
    refine ⟨(rest.takeWhile (· != '#')).takeWhile (· != '?'), ?_⟩
    rw [substringBefore, toList_ofList, substringBefore, toList_ofList, htext,
      htake '#' _ huser.1 (by decide), htake '?' _ huser.2 (by decide)]
  obtain ⟨rest', hbody⟩ := hbody
  obtain ⟨raw, address, hcut, hmem⟩ := cutUser_isSome hbody hne
  obtain ⟨⟨userInfo, address'⟩, hparts, h⟩ := bind_eq_some_iff.mp h
  have haddress : address' = address := by
    rw [shadowsocksParts, hcut] at hparts
    dsimp only at hparts
    split_ifs at hparts
    · exact (Prod.mk.inj (some.inj hparts)).2.symm
    · obtain ⟨decoded, -, he⟩ := map_eq_some_iff.mp hparts
      exact (Prod.mk.inj he).2.symm
  have hserver : ∀ c ∈ p.server.toList,
      c ∈ (substringBefore (substringBefore text '#') '?').toList :=
    fun c hc => hmem c (haddress ▸ (shadowsocksProfile_spec h).2 c hc)
  exact ⟨fun hc => (substringBefore_spec text '#').1 (mem_substringBefore (hserver _ hc)),
    fun hc => (substringBefore_spec (substringBefore text '#') '?').1 (hserver _ hc)⟩

variable {p : ShareProfile}

/-- The user of a composed link. -/
def shadowsocksUserText (p : ShareProfile) : List Char :=
  Base64.urlSafe.bare (utf8 (p.method ++ ":" ++ p.password))

theorem userText_ne (p : ShareProfile) : p.method ++ ":" ++ p.password ≠ "" := by
  intro hempty
  have hlist := congrArg String.toList hempty
  rw [toList_append, toList_append] at hlist
  simp at hlist

/-- The encoded user holds no character that ends a part of the link. -/
theorem mem_userText {c : Char} (h : c ∈ shadowsocksUserText p) :
    c ≠ '#' ∧ c ≠ '?' ∧ c ≠ ':' ∧ c ≠ '@' := by
  have htable : ∀ c ∈ Base64.urlSafe.symbols, c ≠ '#' ∧ c ≠ '?' ∧ c ≠ ':' ∧ c ≠ '@' :=
    forall_mem_of_all (by decide)
  exact htable c (Base64.mem_bare h)

theorem userText_ne_nil (p : ShareProfile) : shadowsocksUserText p ≠ [] :=
  Base64.bare_ne_nil (utf8_ne_nil (userText_ne p))

/-- Method and password are told apart by the first colon, so a method must have none. -/
theorem shadowsocksUser_read (hmethod : ':' ∉ p.method.toList) (hne : p.method ≠ "") :
    shadowsocksUser (p.method ++ ":" ++ p.password) = some (p.method, p.password) := by
  have htext : (p.method ++ ":" ++ p.password).toList = p.method.toList ++
      ':' :: p.password.toList := by
    rw [toList_append, toList_append, append_assoc]
    rfl
  obtain ⟨hbefore, hafter⟩ := substring_cut htext hmethod
  have hmem : ':' ∈ (p.method ++ ":" ++ p.password).toList := by
    rw [htext]
    exact mem_append_right _ mem_cons_self
  rw [shadowsocksUser, hbefore, hafter, ofList_toList, ofList_toList, if_neg]
  rintro (h | h)
  · exact h hmem
  · exact hne h

/-- The link of a Shadowsocks server, without its scheme. -/
def shadowsocksText (p : ShareProfile) : String :=
  ofList (shadowsocksUserText p ++ '@' :: (hostPort p.server p.serverPort).toList ++
    (remarkText p.tag).toList)

theorem composeShadowsocks_eq : composeShadowsocks p = "ss://" ++ shadowsocksText p := by
  refine String.ext ?_
  rw [composeShadowsocks, shadowsocksText, shadowsocksUserText]
  simp [toList_append]

theorem linkText_shadowsocks :
    LinkText (shadowsocksUserText p ++ ['@']) p.server p.serverPort [] [] p.tag
    (shadowsocksText p) where
  text := by
    rw [shadowsocksText, queryPart, if_pos rfl]
    simp
  slash := .inl rfl
  keys _ h := by cases h

theorem trim_shadowsocks : trim ("ss://" ++ shadowsocksText p) = "ss://" ++ shadowsocksText p :=
  linkText_shadowsocks.trim rfl (by decide)

/-- The composed link is read as the profile, if no mark cuts the server. -/
theorem parseShadowsocks_composed (himage : ShadowsocksImage p) (hserver : ServerText p.server)
    (htag : p.tag = "" ∨ isNotBlank p.tag = true) (hhash : '#' ∉ p.server.toList)
      (hquestion : '?' ∉ p.server.toList) :
    parseShadowsocks R ("ss://" ++ shadowsocksText p) = some p := by
  have huser : ∀ c ∈ shadowsocksUserText p ++ ['@'], c ≠ '#' ∧ c ≠ '?' := by
    intro c hc
    obtain hc | hc := mem_append.mp hc
    · exact ⟨(mem_userText hc).1, (mem_userText hc).2.1⟩
    · rw [mem_singleton.mp hc]
      decide
  obtain ⟨hbody, hremark, -⟩ := LinkOf.cut ⟨linkText_shadowsocks, huser, hhash, hquestion, htag⟩ R
  rw [append_nil, append_assoc, singleton_append] at hbody
  have hcut : cutUser (ofList (shadowsocksUserText p ++
      '@' :: (hostPort p.server p.serverPort).toList)) =
      some (ofList (shadowsocksUserText p), ofList (hostPort p.server p.serverPort).toList) :=
    cutUser_eq toList_ofList (notMem_hostPort hserver.at' (by decide)) (userText_ne_nil p)
  have hcolon : ':' ∉ (ofList (shadowsocksUserText p)).toList := by
    rw [toList_ofList]
    exact fun hmem => (mem_userText hmem).2.2.1 rfl
  have hdecode : decodeBase64Chunk R (ofList (shadowsocksUserText p)) =
      some (p.method ++ ":" ++ p.password) :=
    decodeBase64Chunk_urlSafe R (userText_ne p)
  have hparts : shadowsocksParts R (ofList
      (shadowsocksUserText p ++ '@' :: (hostPort p.server p.serverPort).toList)) =
        some (p.method ++ ":" ++ p.password, hostPort p.server p.serverPort) := by
    rw [shadowsocksParts, hcut]
    dsimp only
    rw [if_neg hcolon, hdecode, ofList_toList]
    rfl
  unfold parseShadowsocks
  dsimp only
  rw [substringFrom_append "ss://" _ (by decide), hremark, hbody, hparts, bind_some,
    shadowsocksProfile, shadowsocksUser_read himage.method.2 (ne_empty_of_isBlank himage.method.1),
    bind_some, splitHostPort_join hserver.slash hserver.head himage.port.1 himage.port.2,
    if_neg (ne_empty_of_isBlank himage.server)]
  dsimp only
  rw [bind_some, himage.method.1, himage.password, himage.server]
  exact congrArg some himage.fields.symm

/-- A SHADOWSOCKS LINK COMES BACK exactly if no mark cuts its server. -/
theorem parse_composed_shadowsocks (L : Libraries) (himage : ShadowsocksImage p) (hclean : p.Clean)
    (hserver : ServerText p.server) :
    parseLink L (composeShadowsocks p) = some p ↔ '#' ∉ p.server.toList ∧
      '?' ∉ p.server.toList := by
  have hscheme := startsWithIgnoreCase_scheme (trim_shadowsocks (p := p)) (by decide)
  rw [composeShadowsocks_eq, parseLink_shadowsocks hscheme, trim_shadowsocks]
  constructor
  · intro hparse
    have htext : (shadowsocksText p).toList = shadowsocksUserText p ++
        '@' :: ((hostPort p.server p.serverPort).toList ++ (remarkText p.tag).toList) := by
      rw [shadowsocksText, toList_ofList]
      simp
    exact server_of_user (substringFrom_append "ss://" _ (by decide)) htext (userText_ne_nil p)
      ⟨fun h => (mem_userText h).1 rfl, fun h => (mem_userText h).2.1 rfl⟩ hparse
  · rintro ⟨hhash, hquestion⟩
    exact parseShadowsocks_composed himage hserver
      (hclean.1.of_mem (by simp [texts])) hhash hquestion

end Shadowsocks

/-! ## All of them -/

/-- The schemes with a parser here. -/
def otherSchemes : List String :=
  ["ss://", "hysteria2://", "hy2://", "naive+https://", "naive+quic://", "amneziawg://"]

/-- What becomes of the link of these types. -/
theorem bind_composeLink {L : Libraries} {p : ShareProfile} {type link : String}
    (hraw : p.rawXrayConfig = none)
    (htype : p.type = type) (hmem : type ∈ ["shadowsocks", "hysteria2", "naive"])
    (hlink : composeOtherLink p = some link) : (composeLink L p).bind (parseLink L) =
      parseLink L link := by
  have htypes : ∀ type ∈ ["shadowsocks", "hysteria2", "naive"],
      ¬ (type = "amneziawg" ∨ type = "trusttunnel") ∧ type ≠ "vless" ∧ type ≠ "trojan" ∧
      type ≠ "vmess" := by decide
  obtain ⟨hspecial, hvless, htrojan, hvmess⟩ := htypes _ (htype ▸ hmem)
  rw [composeLink, if_neg hspecial, hraw, any_none, if_neg Bool.false_ne_true, if_neg hvless,
    if_neg htrojan,
    if_neg hvmess, hlink, bind_some]

/-- SHARING A SERVER OF ONE OF THE OTHER PROTOCOLS: the link is read as the same profile, unless it
    is a Shadowsocks server whose name holds a mark of a link. -/
theorem other_kept_iff (L : Libraries) {uri scheme : String} {p : ShareProfile}
    (hscheme : scheme ∈ otherSchemes)
    (huri : startsWithIgnoreCase (trim uri) scheme = true) (hparse : parseLink L uri = some p)
      (hclean : p.Clean)
    (hserver : ServerText p.server) : (composeLink L p).bind (parseLink L) = some p ↔
      (p.type = "shadowsocks" → '#' ∉ p.server.toList ∧ '?' ∉ p.server.toList) := by
  have hkept : (composeLink L p).bind (parseLink L) = some p ∧ p.type ≠ "shadowsocks" →
      ((composeLink L p).bind (parseLink L) = some p ↔
        (p.type = "shadowsocks" → '#' ∉ p.server.toList ∧ '?' ∉ p.server.toList)) :=
    fun ⟨hback, htype⟩ => iff_of_true hback fun h => absurd h htype
  have hhysteria2 : Hysteria2Image p → (composeLink L p).bind (parseLink L) = some p ∧
      p.type ≠ "shadowsocks" := by
    intro himage
    have htype : p.type = "hysteria2" := by rw [himage.fields]
    rw [bind_composeLink (by rw [himage.fields]) htype (by decide)
      (by rw [composeOtherLink, htype]; rfl), htype]
    exact ⟨parse_composed_hysteria2 L himage hclean hserver, by decide⟩
  have hnaive : NaiveImage p → (composeLink L p).bind (parseLink L) = some p ∧
      p.type ≠ "shadowsocks" := by
    intro himage
    have htype : p.type = "naive" := by rw [himage.fields]
    rw [bind_composeLink (by rw [himage.fields]) htype (by decide)
      (by rw [composeOtherLink, htype]; rfl), htype]
    exact ⟨parse_composed_naive L himage hclean hserver, by decide⟩
  simp only [otherSchemes, mem_cons, not_mem_nil, or_false] at hscheme
  obtain rfl | rfl | rfl | rfl | rfl | rfl := hscheme
  · rw [parseLink_shadowsocks huri] at hparse
    have himage := shadowsocks_image hparse
    have htype : p.type = "shadowsocks" := by rw [himage.fields]
    rw [bind_composeLink (by rw [himage.fields]) htype (by decide)
      (by rw [composeOtherLink, htype]; rfl),
      parse_composed_shadowsocks L himage hclean hserver]
    exact ⟨fun h _ => h, fun h => h htype⟩
  · rw [parseLink_hysteria2 (.inl huri)] at hparse
    exact hkept (hhysteria2 (hysteria2_image hparse))
  · rw [parseLink_hysteria2 (.inr huri)] at hparse
    exact hkept (hhysteria2 (hysteria2_image hparse))
  · rw [parseLink_naive (.inl huri)] at hparse
    exact hkept (hnaive (naive_image hparse))
  · rw [parseLink_naive (.inr huri)] at hparse
    exact hkept (hnaive (naive_image hparse))
  · rw [parseLink_amneziaWg huri, parseAmneziaWgLink] at hparse
    obtain ⟨text, -, hparse⟩ := bind_eq_some_iff.mp hparse
    obtain ⟨htype, hback⟩ := parse_composed_amneziaWg L hparse
    have hcompose : composeLink L p = composeAmneziaWg p := by
      rw [composeLink, if_pos (.inl htype), composeOtherLink, if_pos htype]
    rw [← hcompose] at hback
    exact hkept ⟨hback, by rw [htype]; decide⟩

/-- A Hysteria2 server comes back. -/
theorem hysteria2_server_kept :
    ∃ p, parseLink noLibraries "hy2://pw@2001:db8::1:443/?obfs=salamander&upmbps=50#home" = some p ∧
      p.server = "2001:db8::1" ∧ (composeLink noLibraries p).bind (parseLink noLibraries) =
        some p := by
  have hsome :
      (parseLink noLibraries "hy2://pw@2001:db8::1:443/?obfs=salamander&upmbps=50#home").isSome =
      true := by
    decide +kernel
  have hall : (parseLink noLibraries "hy2://pw@2001:db8::1:443/?obfs=salamander&upmbps=50#home").all
      (fun p =>
      decide (p.Clean ∧ p.type = "hysteria2" ∧ p.server = "2001:db8::1")) = true := by
    decide +kernel
  obtain ⟨p, hp⟩ := isSome_iff_exists.mp hsome
  rw [hp, all_some, decide_eq_true_eq] at hall
  obtain ⟨hclean, htype, hserver⟩ := hall
  have hscheme : "hy2://" ∈ otherSchemes := by decide
  have huri : startsWithIgnoreCase (trim "hy2://pw@2001:db8::1:443/?obfs=salamander&upmbps=50#home")
      "hy2://" = true := by
    decide
  have htext : ServerText p.server := by
    rw [hserver]
    exact ⟨by decide, by decide, by decide⟩
  have hiff := other_kept_iff noLibraries hscheme huri hp hclean htext
  exact ⟨p, hp, hserver, hiff.mpr fun h => absurd (htype.symm.trans h) (by decide)⟩

/-- The server `ho#st` of an older Shadowsocks link: in the composed link the name ends at the mark.
    -/
theorem shadowsocks_server_cut :
    (parseLink noLibraries "ss://YWVzLTEyOC1nY206cHdAaG8jc3Q6NDQz").map
      (fun p => (p.server, p.serverPort)) =
        some ("ho#st", 443) ∧
          ((parseLink noLibraries "ss://YWVzLTEyOC1nY206cHdAaG8jc3Q6NDQz").bind fun p =>
        (composeLink noLibraries p).bind (parseLink noLibraries)) = none := by
  decide

end OlcVpn.Share
