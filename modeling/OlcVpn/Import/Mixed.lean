/-
  MIXED SUBSCRIPTIONS: links of several families in one text.

  Seven parsers run over the same text.  Each takes the lines of its own schemes, so on a text of
  links the lines are PARTITIONED between them, and the order of the families is the only thing that
  changes.  There is one exception.  The parser of `yptun://inbound` first looks whether the whole
  text is ONE wrapped link: if the text without its white space starts with the prefix and has no
  second one, it is read as a single link.  A text whose first line is its only `yptun` link passes
  that test as well, and then the lines behind it are read as a part of the link.
-/
import Mathlib.Data.List.Perm.Basic
import OlcVpn.Import.Links
import OlcVpn.Share.Inbound
import OlcVpn.Share.ProxyLinks

namespace OlcVpn.Locations

open Kotlin List
open Bool (eq_false_iff)
open LocationEntry (storageId)
open ProxyProfile (isComplete)
open Option (map_some isSome_iff_exists getD_none some)

/-! ## Families -/

inductive Family where
  | inbound | olcRtc | freeturn | qwdtt | csqtt | openFlux | proxy
  deriving DecidableEq, Repr

def families : List Family := [.inbound, .olcRtc, .freeturn, .qwdtt, .csqtt, .openFlux, .proxy]

/-- The schemes and who reads them. -/
def schemes : List (String × Family) :=
  [("yptun://", .inbound), ("olcrtc://", .olcRtc), ("freeturn://", .freeturn),
   ("qwdtt://", .qwdtt), ("csqtt://", .csqtt), ("openflux://", .openFlux), ("vless://", .proxy),
   ("vmess://", .proxy), ("trojan://", .proxy), ("ss://", .proxy), ("hysteria2://", .proxy),
   ("hy2://", .proxy), ("naive+https://", .proxy), ("naive+quic://", .proxy),
   ("naive://", .proxy), ("amneziawg://", .proxy), ("tt://", .proxy)]

def familyOf (line : String) : Option Family :=
  (schemes.find? fun s => startsWithIgnoreCase line s.1).map Prod.snd

/-- The subscription metadata of olcRTC links in a text without fields. -/
def plainSubscription (ctx : ImportContext) : Option SubscriptionMetadata :=
  withSubscriptionInterval none ctx.updateIntervalHours

/-- What the parser of its family makes of a line. -/
def lineDraft (P : LinkParsers) (ctx : ImportContext) (line : String) : Option Draft :=
  match familyOf line with
  | some .inbound => (parseInbound P line).map (inboundDraft 0)
  | some .olcRtc =>
    if startsWith line olcRtcPrefix then
      (P.parseOlcRtcUri line).map fun parsed => olcRtcDraft (plainSubscription ctx) 0 (parsed, [])
    else none
  | some .freeturn => (P.freeturn line).map (freeturnDraft P)
  | some .qwdtt => (P.qwdtt line).map qwdttDraft
  | some .csqtt => (P.csqtt line).map csqttDraft
  | some .openFlux => (P.openFlux line).map openFluxDraft
  | some .proxy =>
    ((parseShareLink P line).filter isComplete).map
      (proxyDraft (ctx.subscriptionMetadata.map fun s => { subscription := some s }))
  | none => none

/-- A line that is one link: it has a known scheme, and where the link is the app's own it has a
    payload and no white space. -/
structure LinkLine (line : String) : Prop where
  known : (familyOf line).isSome = true
  inbound : familyOf line = some .inbound → startsWith line inboundPrefix = true ∧
    (extractData line).isSome = true ∧ ∀ c ∈ line.toList, isWhitespace c = false
  olcRtc : familyOf line = some .olcRtc → startsWith line olcRtcPrefix = true

/-- A text of links, one to a line. -/
structure LinkText (text : String) : Prop where
  nonempty : nonBlankLines text ≠ []
  links : ∀ line ∈ nonBlankLines text, LinkLine line

/-- An entry without its id. -/
def LocationEntry.anonymous (e : LocationEntry) : LocationEntry := { e with storageId := "" }

/-- Every line is imported exactly once, as it is when imported alone. -/
def ImportsEach (P : LinkParsers) (ctx : ImportContext) (text : String) : Prop :=
  ∃ bundle, parseImport P ctx text = some ⟨bundle, .additive⟩ ∧
    (bundle.locations.map storageId).Nodup ∧
    ∃ alone, List.Forall₂ (fun line e => ∃ single, single.locations = [e] ∧
        parseImport P ctx line = some ⟨single, .additive⟩) (nonBlankLines text) alone ∧
      (bundle.locations.map LocationEntry.anonymous).Perm (alone.map LocationEntry.anonymous)

/-- The text passes for one wrapped `yptun` link. -/
def Glued (text : String) : Prop :=
  startsWith (withoutWhitespace text) inboundPrefix = true ∧
    contains (String.ofList ((withoutWhitespace text).toList.drop 1)) inboundPrefix = false

/-! ## Schemes exclude each other -/

/-- No scheme is the start of another. -/
theorem schemes_apart : ∀ s ∈ schemes, ∀ t ∈ schemes,
    s.1.toList.isPrefixOf t.1.toList = true → s = t := by decide

variable {line : String}

/-- A line has one scheme at most. -/
theorem scheme_unique {s t : String × Family} (hs : s ∈ schemes) (ht : t ∈ schemes)
    (hls : startsWithIgnoreCase line s.1 = true) (hlt : startsWithIgnoreCase line t.1 = true) : s =
      t := by
  rw [startsWithIgnoreCase, isPrefixOf_iff_prefix] at hls hlt
  rcases prefix_or_prefix_of_prefix hls hlt with h | h
  · exact schemes_apart s hs t ht (List.isPrefixOf_iff_prefix.mpr h)
  · exact (schemes_apart t ht s hs (List.isPrefixOf_iff_prefix.mpr h)).symm

theorem familyOf_of_scheme {s : String × Family} (hs : s ∈ schemes)
    (hline : startsWithIgnoreCase line s.1 = true) : familyOf line = some s.2 := by
  rw [familyOf]
  cases hfind : schemes.find? fun s => startsWithIgnoreCase line s.1 with
  | none =>
    have hnone := find?_eq_none.mp hfind s hs
    simp [hline] at hnone
  | some t =>
    have ht := find?_some hfind
    rw [scheme_unique hs (mem_of_find?_eq_some hfind) hline ht, map_some]

theorem scheme_of_familyOf {f : Family} (h : familyOf line = some f) :
    ∃ s ∈ schemes, s.2 = f ∧ startsWithIgnoreCase line s.1 = true := by
  obtain ⟨s, hfind, rfl⟩ := Option.map_eq_some_iff.mp h
  have hline := find?_some hfind
  exact ⟨s, mem_of_find?_eq_some hfind, rfl, hline⟩

/-- Each scheme has a colon and two slashes, no equals sign, and starts with a small letter. -/
theorem schemes_shape : ∀ s ∈ schemes, contains s.1 "://" = true ∧ '/' ∈ s.1.toList ∧
    '=' ∉ s.1.toList ∧ s.1.toList ≠ [] ∧ ∀ c ∈ s.1.toList.head?, 97 ≤ c.toNat ∧ c.toNat ≤ 122 := by
  have hshape : (schemes.all fun s => contains s.1 "://" && s.1.toList.contains '/' &&
      !s.1.toList.contains '=' && s.1.toList.head?.any fun c => 97 ≤ c.toNat && c.toNat ≤ 122) =
        true := by decide
  intro s hs
  have hs := all_eq_true.mp hshape s hs
  simp only [Bool.and_eq_true, contains_iff_mem, Bool.not_eq_true', Option.any_eq_true,
    decide_eq_true_eq, eq_false_iff, Ne] at hs
  obtain ⟨⟨⟨hslashes, hslash⟩, hequals⟩, c, hc, hletter⟩ := hs
  refine ⟨hslashes, hslash, hequals, ne_nil_of_mem hslash, ?_⟩
  rw [hc]
  rintro d ⟨⟩
  exact hletter

/-! ## What a line of links looks like -/

section Line

variable {text line : String} (h : LinkLine line)
include h

theorem LinkLine.scheme : ∃ s ∈ schemes, familyOf line = some s.2 ∧
    startsWithIgnoreCase line s.1 = true := by
  obtain ⟨f, hf⟩ := isSome_iff_exists.mp h.known
  obtain ⟨s, hs, rfl, hline⟩ := scheme_of_familyOf hf
  exact ⟨s, hs, hf, hline⟩

/-- A link starts with a letter. -/
theorem LinkLine.not_startsWith {word : String} {d : Char} {rest : List Char}
    (hword : word.toList = d :: rest) (hd : d.toNat < 97 ∨ 122 < d.toNat)
    (hfold : foldAscii d = d) : startsWith line word = false := by
  obtain ⟨s, hs, -, hline⟩ := h.scheme
  obtain ⟨-, -, -, hne, hhead⟩ := schemes_shape s hs
  have hfirst := head_of_startsWithIgnoreCase hne hline
  rw [eq_false_iff]
  intro hstarts
  rw [startsWith, isPrefixOf_iff_prefix, hword] at hstarts
  obtain ⟨after, hafter⟩ := hstarts
  have hletter := hhead d (by simp [← hfirst, ← hafter, hfold])
  omega

theorem LinkLine.contains_slashes : contains line "://" = true := by
  obtain ⟨s, hs, -, hline⟩ := h.scheme
  obtain ⟨before, after, hpiece⟩ := ((contains_iff_isInfix _ _).mp (schemes_shape s hs).1).trans
    (List.isPrefixOf_iff_prefix.mp hline).isInfix
  -- the three characters are compared as they are
  obtain ⟨front, back, hsplit, hfront, -⟩ := append_eq_map_iff.mp hpiece
  obtain ⟨head, middle, hfront', -, hmiddle⟩ := append_eq_map_iff.mp hfront.symm
  have hsame : middle = "://".toList := by
    have hnotLetter : ∀ d ∈ "://".toList, d.toNat < 97 ∨ 122 < d.toNat := by simp
    rw [← hmiddle]
    refine ((map_congr_left fun c hc => ?_).trans (map_id _)).symm
    exact (eq_of_foldAscii (hnotLetter _ (hmiddle ▸ mem_map_of_mem hc)) rfl).symm
  exact (contains_iff_isInfix _ _).mpr ⟨head, back, by rw [hsplit, hfront', hsame]⟩

/-- No link passes for a line of an AmneziaWG file: its scheme stands before any equals sign, and
    there is a slash in it. -/
theorem LinkLine.not_awgKey : awgKeys.contains (awgKey line) = false := by
  obtain ⟨s, hs, -, hscheme⟩ := h.scheme
  obtain ⟨-, hslash, hequals, -, -⟩ := schemes_shape s hs
  obtain ⟨start, tail, hsplit, hstart⟩ := start_of_startsWithIgnoreCase hscheme
  rw [awgKey]
  split_ifs
  · have hmem : '/' ∈ (substringBefore line '=').toList := by
      have hnone : ∀ c ∈ start, (c != '=') = true := by
        intro c hc
        rw [bne_iff_ne]
        rintro rfl
        have hmapped : foldAscii '=' ∈ s.1.toList := hstart ▸ mem_map_of_mem hc
        rw [show foldAscii '=' = '=' by decide] at hmapped
        exact hequals hmapped
      rw [substringBefore, String.toList_ofList, hsplit, takeWhile_append_of_pos hnone]
      refine mem_append_left _ ?_
      rw [← hstart] at hslash
      obtain ⟨c, hc, heq⟩ := mem_map.mp hslash
      exact eq_of_foldAscii (by decide) heq ▸ hc
    have hlower : '/' ∈ (lowercase (trim (substringBefore line '='))).toList := by
      rw [lowercase, String.toList_ofList, mem_flatMap]
      exact ⟨'/', mem_trim_of_mem (by decide) hmem, by decide⟩
    have hkeys : ∀ key ∈ awgKeys, '/' ∉ key.toList := by decide
    rw [contains_eq_mem, decide_eq_false_iff_not]
    exact fun hin => hkeys _ hin hlower
  · decide

/-- No line of links is taken for a WireGuard file. -/
theorem LinkLine.not_awg (hline : IsLine text line) : looksLikeAmneziaWg line = false := by
  rw [looksLikeAmneziaWg, lineSequence_of_noBreak hline.noBreak, any_cons, h.not_awgKey]
  simp

theorem LinkLine.normalized_eq {raw : String} (hraw : trim raw = line) :
    normalizedImportText raw = line := by
  have hbom : startsWith line utf8Bom = false :=
    h.not_startsWith (show utf8Bom.toList = [Char.ofNat 0xfeff] by decide) (by decide) (by decide)
  rw [normalizedImportText, hraw, removeStart, hbom, if_neg (by decide), ← hraw, trim_trim]

end Line

/-! ## The lines each parser sees -/

section Text

variable {text : String}

theorem filter_lines {p : String → Bool} (hp : p "" = false) (text : String) :
    ((lineSequence text).map trim).filter p = (nonBlankLines text).filter p := by
  rw [nonBlankLines, nonBlank, filter_filter]
  refine filter_congr fun line _ => ?_
  by_cases hline : line = ""
  · simp [hline, hp]
  · simp [hline]

/-- A family's parser sees the lines of its scheme. -/
theorem schemeLines_eq {scheme : String} (hne : scheme.toList ≠ []) (text : String) :
    schemeLines scheme text = (nonBlankLines text).filter (startsWithIgnoreCase · scheme) := by
  have hempty : startsWithIgnoreCase "" scheme = false := by
    cases hl : scheme.toList with
    | nil => exact absurd hl hne
    | cons c l => simp [startsWithIgnoreCase, hl]
  rw [schemeLines, filter_lines hempty, nonBlankLines_trim]

/-- The text starts as its first line does. -/
theorem head_withoutWhitespace {line : String} {rest : List String}
    (hlines : nonBlankLines text = line :: rest) :
    (withoutWhitespace text).toList.head? = line.toList.head? := by
  have hline : IsLine text line := isLine_of_mem (by simp [hlines])
  have htrim : (withoutWhitespace line).toList.head? = line.toList.head? := by
    rw [← head_trim, trim_of_trimmed hline.trimmed]
  have hne : (withoutWhitespace line).toList ≠ [] := by
    intro hnil
    rw [hnil, head?_nil, eq_comm, head?_eq_none_iff] at htrim
    exact hline.nonempty (by simpa using htrim)
  rw [withoutWhitespace_lines, hlines, flatMap_cons, head?_append_of_ne_nil _ hne, htrim]

variable (h : LinkText text)
include h

theorem LinkText.map_normalized :
    (lineSequence text).map normalizedImportText = (lineSequence text).map trim := by
  refine map_congr_left fun raw hraw => ?_
  by_cases hblank : trim raw = ""
  · rw [normalizedImportText, hblank]
    decide
  · have hmem : trim raw ∈ nonBlankLines text :=
      mem_filter.mpr ⟨mem_map_of_mem hraw, by simpa using hblank⟩
    exact (h.links _ hmem).normalized_eq rfl

theorem LinkText.contains_slashes : contains text "://" = true := by
  obtain ⟨line, rest, hlines⟩ := exists_cons_of_ne_nil h.nonempty
  have hmem : line ∈ nonBlankLines text := by simp [hlines]
  have hline := (contains_iff_isInfix _ _).mp (h.links line hmem).contains_slashes
  exact (contains_iff_isInfix _ _).mpr (hline.trans (isLine_of_mem hmem).isInfix)

theorem LinkText.not_startsWith {word : String} {d : Char} (hword : word.toList = [d])
    (hd : d.toNat < 97 ∨ 122 < d.toNat) (hfold : foldAscii d = d) : startsWith (trim text) word =
      false := by
  obtain ⟨line, rest, hlines⟩ := exists_cons_of_ne_nil h.nonempty
  have hmem : line ∈ nonBlankLines text := by simp [hlines]
  have hline := (h.links line hmem).not_startsWith hword hd hfold
  have hsame : (trim text).toList.head? = line.toList.head? := by
    rw [head_trim, head_withoutWhitespace hlines]
  rwa [eq_false_iff, Ne, startsWith_iff_head hword, hsame, ← startsWith_iff_head hword, ← Ne,
    ← eq_false_iff]

variable (P : LinkParsers)

/-- A text of links is no JSON. -/
theorem LinkText.no_json : extractJsonLinks P (trim text) = none := by
  rw [extractJsonLinks, h.not_startsWith (d := '{') (by decide) (by decide) (by decide)]
  rfl

/-- Nor is it decoded as Base64, since it has slashes. -/
theorem LinkText.no_base64 : maybeBase64Decode P (trim text) = none := by
  have hlink : LinkText (trim text) := ⟨by simpa using h.nonempty, by simpa using h.links⟩
  rw [maybeBase64Decode, hlink.contains_slashes]
  rfl

theorem LinkText.not_awg : looksLikeAmneziaWg (trim text) = false := by
  have hkeys : ((nonBlankLines text).any fun line => awgKeys.contains (awgKey line)) = false :=
    any_eq_false.mpr fun line hline => by rw [(h.links line hline).not_awgKey]; decide
  rw [looksLikeAmneziaWg_lines, nonBlankLines_trim, hkeys, Bool.and_false]

/-- A text of links is read as it is. -/
theorem LinkText.toLinkText_eq : toLinkText P text = text := by
  rw [toLinkText, h.no_json, h.no_base64]
  rfl

theorem LinkText.toLinks_eq : toLinks P text = nonBlankLines text := by
  rw [toLinks, h.no_json, h.no_base64, getD_none, getD_none, nonBlank_split, nonBlankLines_trim]

end Text

/-! ## Each parser finds its own lines -/

/-- What a draft is stored as, but for the id. -/
def Draft.content (subscriptionUrl : Option String) (d : Draft) : LocationEntry :=
  (d.entry subscriptionUrl "").anonymous

theorem Draft.entry_anonymous (d : Draft) (subscriptionUrl : Option String) (storageId : String) :
    (d.entry subscriptionUrl storageId).anonymous = d.content subscriptionUrl := rfl

/-- The id a draft asks for does not show. -/
theorem Draft.content_congr {d d' : Draft} {subscriptionUrl : Option String}
    (hlocation : d.location = d'.location) (hmetadata : d.metadata = d'.metadata) :
    d.content subscriptionUrl = d'.content subscriptionUrl := by
  rw [Draft.content, Draft.content, Draft.entry, Draft.entry, hlocation, hmetadata]

/-- The parser of a family. -/
def familyBundle (P : LinkParsers) (ctx : ImportContext) (text : String) :
    Family → Option LocationBundle
  | .inbound => parseYptunInboundText P text ctx.subscriptionUrl
  | .olcRtc => parseOlcRtcText P text ctx.subscriptionUrl ctx.updateIntervalHours
  | .freeturn => parseFreeturnText P text ctx.subscriptionUrl
  | .qwdtt => parseQwdttText P text ctx.subscriptionUrl
  | .csqtt => parseCsqttText P text ctx.subscriptionUrl
  | .openFlux => parseOpenFluxText P text ctx.subscriptionUrl
  | .proxy => parseProxyText P text ctx.subscriptionUrl ctx.subscriptionMetadata

/-- The lines of a family. -/
def linesOf (text : String) (f : Family) : List String :=
  (nonBlankLines text).filter fun line => familyOf line = some f

theorem mem_linesOf {text : String} {f : Family} :
    line ∈ linesOf text f ↔ line ∈ nonBlankLines text ∧ familyOf line = some f := by
  simp [linesOf]

/-- The parser of a family answers with these contents, in this order. -/
def Finds (P : LinkParsers) (ctx : ImportContext) (text : String) (f : Family)
    (contents : List LocationEntry) : Prop :=
  ∃ drafts, familyBundle P ctx text f = bundleOf ctx.subscriptionUrl drafts ∧
    drafts.map (Draft.content ctx.subscriptionUrl) = contents

/-- The contents of the lines of a family, each read alone. -/
def contentsOf (P : LinkParsers) (ctx : ImportContext) (text : String) (f : Family) :
    List LocationEntry :=
  ((linesOf text f).filterMap (lineDraft P ctx)).map (Draft.content ctx.subscriptionUrl)

section Finds

variable (P : LinkParsers) (ctx : ImportContext) {text : String}

/-- A family with one scheme of its own. -/
theorem finds_of_scheme {α : Type} {f : Family} (scheme : String) (parse : String → Option α)
    (build : α → Draft) (hone : (schemes.filter fun s => s.2 = f) = [(scheme, f)] := by decide)
    (hdraft : ∀ line, familyOf line = some f → lineDraft P ctx line = (parse line).map build := by
      intro line hline; rw [lineDraft, hline]) (hbundle : familyBundle P ctx text f =
      bundleOf ctx.subscriptionUrl (((schemeLines scheme text).filterMap parse).map build) := by
        rfl) :
    Finds P ctx text f (contentsOf P ctx text f) := by
  have hmem : ∀ s, s ∈ schemes ∧ s.2 = f ↔ s = (scheme, f) := by
    intro s
    rw [← mem_singleton (a := s), ← hone]
    simp
  have hs : (scheme, f) ∈ schemes := ((hmem _).mpr rfl).1
  have hlines : schemeLines scheme text = linesOf text f := by
    rw [schemeLines_eq (schemes_shape _ hs).2.2.2.1, linesOf]
    refine filter_congr fun line _ => ?_
    rw [Bool.eq_iff_iff, decide_eq_true_eq]
    refine ⟨familyOf_of_scheme hs, fun h => ?_⟩
    obtain ⟨t, ht, hfamily, hline⟩ := scheme_of_familyOf h
    exact ((hmem t).mp ⟨ht, hfamily⟩) ▸ hline
  refine ⟨_, hbundle, ?_⟩
  rw [contentsOf, hlines, map_filterMap]
  refine congrArg _ (filterMap_congr fun line hline => ?_)
  exact (hdraft line (mem_linesOf.mp hline).2).symm

variable {line : String}

/-- A line of another family is no share link. -/
theorem parseShareLink_eq_none (h : LinkLine line) (hline : IsLine text line)
    (hother : familyOf line ≠ some .proxy) : parseShareLink P line = none := by
  have hscheme : ∀ scheme, (scheme, Family.proxy) ∈ schemes →
      startsWithIgnoreCase line scheme = false := fun scheme hs =>
    eq_false_iff.mpr fun hstarts => hother (familyOf_of_scheme hs hstarts)
  rw [parseShareLink, trim_of_trimmed hline.trimmed]
  simp (disch := decide) only [hscheme, h.not_awg hline, any_cons, any_nil, Bool.or_false,
    Bool.false_eq_true, if_false, ite_self]

/-- The proxy parser finds what its lines are. -/
theorem finds_proxy (h : LinkText text) :
    Finds P ctx text .proxy (contentsOf P ctx text .proxy) := by
  refine ⟨(parseSubscription P text).map
    (proxyDraft (ctx.subscriptionMetadata.map fun s => { subscription := some s })), rfl, ?_⟩
  have hprofiles : parseSubscription P text = (linesOf text .proxy).filterMap fun line =>
      (parseShareLink P line).filter isComplete := by
    rw [parseSubscription, h.toLinks_eq, linesOf, filter_filterMap, filterMap_filter]
    refine filterMap_congr fun line hline => ?_
    by_cases hproxy : familyOf line = some .proxy
    · simp [hproxy]
    · simp [hproxy, parseShareLink_eq_none P (h.links line hline) (isLine_of_mem hline) hproxy]
  rw [contentsOf, hprofiles, map_filterMap]
  refine congrArg _ (filterMap_congr fun line hline => ?_)
  rw [lineDraft, (mem_linesOf.mp hline).2]

/-- The numbers of the drafts do not show in their contents. -/
theorem map_mapIdx_const {α β γ : Type} {build : Nat → α → β} {content : β → γ}
    (hbuild : ∀ i a, content (build i a) = content (build 0 a)) (l : List α) :
    (l.mapIdx build).map content = l.map fun a => content (build 0 a) := by
  refine ext_getElem? fun i => ?_
  simp only [getElem?_map, getElem?_mapIdx, Option.map_map]
  exact congrArg (Option.map · _) (funext fun a => hbuild i a)

/-- A link of the family is told by its start, in the letters the parser expects. -/
theorem LinkLine.startsWith_olcRtc (h : LinkLine line) :
    startsWith line olcRtcPrefix = true ↔ familyOf line = some .olcRtc := by
  refine ⟨fun hstarts => ?_, h.olcRtc⟩
  exact familyOf_of_scheme (show ("olcrtc://", Family.olcRtc) ∈ schemes by decide)
    (startsWithIgnoreCase_of_startsWith hstarts (by decide))

theorem LinkLine.startsWith_inbound (h : LinkLine line) :
    startsWith line inboundPrefix = true ↔ familyOf line = some .inbound := by
  refine ⟨fun hstarts => ?_, fun hfamily => (h.inbound hfamily).1⟩
  have hscheme : startsWith line "yptun://" = true := by
    rw [startsWith, isPrefixOf_iff_prefix] at hstarts ⊢
    exact List.IsPrefix.trans (by decide) hstarts
  exact familyOf_of_scheme (show ("yptun://", Family.inbound) ∈ schemes by decide)
    (startsWithIgnoreCase_of_startsWith hscheme (by decide))

/-- A family has no line in a text that does not hold the start of its lines. -/
theorem linesOf_eq_nil {start : String} {f : Family} (hhas : ¬contains text start = true)
    (hstarts : ∀ line ∈ nonBlankLines text, familyOf line = some f → startsWith line start = true) :
    linesOf text f = [] := by
  refine eq_nil_iff_forall_not_mem.mpr fun line hline => hhas ?_
  obtain ⟨hmem, hfamily⟩ := mem_linesOf.mp hline
  have hstart := isPrefixOf_iff_prefix.mp (hstarts line hmem hfamily)
  exact (contains_iff_isInfix _ _).mpr (hstart.isInfix.trans (isLine_of_mem hmem).isInfix)

/-- Lines of links leave no fields behind, only locations. -/
theorem foldl_olcRtcLine {lines : List String} (hlines : ∀ line ∈ lines, LinkLine line)
    (s : OlcRtcState) : lines.foldl (olcRtcLine P) s = { s with
        locations :=
      s.locations ++ (lines.filter fun line => familyOf line = some .olcRtc).filterMap
          fun line => (P.parseOlcRtcUri line).map fun parsed => (parsed, []) } := by
  induction lines generalizing s with
  | nil => simp
  | cons line lines ih =>
    have hline := hlines line mem_cons_self
    rw [foldl_cons, ih fun l hl => hlines l (mem_cons_of_mem _ hl), olcRtcLine]
    by_cases holc : familyOf line = some .olcRtc
    · rw [if_pos (hline.startsWith_olcRtc.mpr holc), filter_cons_of_pos (by simpa using holc)]
      cases hparsed : P.parseOlcRtcUri line with
      | none | some parsed => simp [hparsed]
    · have hhash : startsWith line "#" = false :=
        hline.not_startsWith (show "#".toList = ['#'] by decide) (by decide) (by decide)
      have hhashes : startsWith line "##" = false :=
        hline.not_startsWith (show "##".toList = ['#', '#'] by decide) (by decide) (by decide)
      rw [if_neg (fun hstarts => holc (hline.startsWith_olcRtc.mp hstarts)), hhashes, hhash,
        filter_cons_of_neg (by simpa using holc)]
      rfl

/-- And so does the olcRTC one, whose fields are read line by line. -/
theorem finds_olcRtc (h : LinkText text) :
    Finds P ctx text .olcRtc (contentsOf P ctx text .olcRtc) := by
  have hdraft : ∀ line ∈ linesOf text .olcRtc, lineDraft P ctx line =
      (P.parseOlcRtcUri line).map fun parsed =>
        olcRtcDraft (plainSubscription ctx) 0 (parsed, []) := by
    intro line hline
    obtain ⟨hmem, hfamily⟩ := mem_linesOf.mp hline
    rw [lineDraft, hfamily]
    exact if_pos ((h.links line hmem).olcRtc hfamily)
  by_cases hhas : contains text olcRtcPrefix = true
  · refine ⟨((linesOf text .olcRtc).filterMap fun line =>
      (P.parseOlcRtcUri line).map fun parsed => (parsed, [])).mapIdx
        (olcRtcDraft (plainSubscription ctx)), ?_, ?_⟩
    · have hlines : ((lineSequence text).map normalizedImportText).filter isNotBlank =
          nonBlankLines text := by
        rw [h.map_normalized, filter_lines (by decide), filter_eq_self]
        intro line hline
        rw [isNotBlank, Bool.not_eq_true', eq_false_iff, Ne,
          (isLine_of_mem hline).trimmed.isBlank_iff]
        exact (isLine_of_mem hline).nonempty
      rw [familyBundle, parseOlcRtcText, hhas, hlines]
      dsimp only
      rw [foldl_olcRtcLine P h.links]
      simp only [Bool.not_true, Bool.false_eq_true, if_false, nil_append, lookup_nil]
      rw [show refreshIntervalHours none = none from rfl, Option.or_none,
        show buildSubscriptionMetadata [] = none by decide]
      rfl
    · rw [map_mapIdx_const fun _ _ => Draft.content_congr rfl rfl, contentsOf, map_filterMap,
        filterMap_congr hdraft, map_filterMap]
      simp only [Option.map_map]
      rfl
  · have hnone := linesOf_eq_nil hhas fun line hline => (h.links line hline).olcRtc
    refine ⟨[], ?_, by rw [contentsOf, hnone]; rfl⟩
    rw [familyBundle, parseOlcRtcText, eq_false_iff.mpr hhas]
    rfl

/-! ## The link that may be wrapped -/

/-- What the parser of `yptun` links finds, as contents. -/
def inboundContents (P : LinkParsers) (ctx : ImportContext) (text : String) :
    List LocationEntry :=
  (inboundLocations P (lineSequence (inboundSource text))).map fun location =>
    (inboundDraft 0 location).content ctx.subscriptionUrl

theorem inboundSource_of_glued (hglued : Glued text) :
    inboundSource text = withoutWhitespace text := by
  simp only [inboundSource, hglued.1, hglued.2, Bool.not_false, Bool.and_self, if_true]

theorem inboundSource_of_not_glued (hglued : ¬Glued text) : inboundSource text = text := by
  simp only [inboundSource]
  refine if_neg fun hboth => hglued ?_
  simpa [Glued] using hboth

/-- Read line by line, the parser finds the lines of its family. -/
theorem inboundLocations_lines (h : LinkText text) : inboundLocations P (lineSequence text) =
    (linesOf text .inbound).filterMap (parseInbound P) := by
  rw [inboundLocations, h.map_normalized, filter_lines (by decide), linesOf]
  refine congrArg (List.filterMap _) (filter_congr fun line hline => ?_)
  rw [Bool.eq_iff_iff, decide_eq_true_eq]
  exact (h.links line hline).startsWith_inbound

theorem contentsOf_inbound : contentsOf P ctx text .inbound =
    ((linesOf text .inbound).filterMap (parseInbound P)).map fun location =>
      (inboundDraft 0 location).content ctx.subscriptionUrl := by
  have hdraft : ∀ line ∈ linesOf text .inbound,
      lineDraft P ctx line = (parseInbound P line).map (inboundDraft 0) := by
    intro line hline
    rw [lineDraft, (mem_linesOf.mp hline).2]
  rw [contentsOf, filterMap_congr hdraft, map_filterMap, map_filterMap]
  simp only [Option.map_map]
  rfl

/-- A text that passes for one link starts with its only `yptun` line. -/
theorem Glued.linesOf (hglued : Glued text) (h : LinkText text) :
    ∃ first, (nonBlankLines text).head? = some first ∧ linesOf text .inbound = [first] ∧
      LinkLine first ∧ familyOf first = some .inbound := by
  obtain ⟨first, rest, hlines⟩ := exists_cons_of_ne_nil h.nonempty
  have hfirst : LinkLine first := h.links first (by simp [hlines])
  obtain ⟨s, hs, hfamily, hscheme⟩ := hfirst.scheme
  have hinbound : s.2 = .inbound := by
    have hy : first.toList.head? = some 'y' := by
      obtain ⟨tail, htail⟩ := isPrefixOf_iff_prefix.mp hglued.1
      rw [← head_withoutWhitespace hlines, ← htail]
      rfl
    have honly : ∀ t ∈ schemes, t.1.toList.head? = some 'y' → t.2 = .inbound := by decide
    refine honly s hs ?_
    rw [← head_of_startsWithIgnoreCase (schemes_shape s hs).2.2.2.1 hscheme, hy]
    decide
  rw [hinbound] at hfamily
  have hrest : ∀ line ∈ rest, familyOf line ≠ some .inbound := by
    intro line hline hother
    obtain ⟨hstarts, -, hsolid⟩ :=
      (h.links line (by simp [hlines, hline])).inbound hother
    have hfirstSame : withoutWhitespace first = first :=
      withoutWhitespace_eq_self (hfirst.inbound hfamily).2.2
    have hne : first.toList ≠ [] := by
      have hmem : first ∈ nonBlankLines text := by simp [hlines]
      simpa using (isLine_of_mem hmem).nonempty
    obtain ⟨c, chars, hchars⟩ := exists_cons_of_ne_nil hne
    have hsecond : contains (String.ofList ((withoutWhitespace text).toList.drop 1))
        inboundPrefix = true := by
      rw [contains_iff_isInfix, String.toList_ofList, withoutWhitespace_lines, hlines,
        flatMap_cons, hfirstSame, hchars, cons_append, drop_succ_cons, drop_zero]
      have hpiece : inboundPrefix.toList <:+: line.toList :=
        (List.isPrefixOf_iff_prefix.mp hstarts).isInfix
      have hin : line.toList <:+: rest.flatMap fun l => (withoutWhitespace l).toList := by
        obtain ⟨before, after, rfl⟩ := append_of_mem hline
        rw [flatMap_append, flatMap_cons, withoutWhitespace_eq_self hsolid, ← append_assoc]
        exact ⟨_, _, rfl⟩
      exact (hpiece.trans hin).trans (suffix_append _ _).isInfix
    rw [hglued.2] at hsecond
    exact Bool.false_ne_true hsecond
  refine ⟨first, by simp [hlines], ?_, hfirst, hfamily⟩
  rw [Locations.linesOf, hlines, filter_cons_of_pos (by simpa using hfamily)]
  refine congrArg _ (filter_eq_nil_iff.mpr fun line hline => ?_)
  simpa using hrest line hline

/-- What of a link reaches the decoder. -/
def payloadOf (uri : String) : Option (Bool × String) :=
  (extractData uri).map fun data => (data.1, withoutWhitespace data.2)

theorem parseInbound_eq (hstarts : startsWith line inboundPrefix = true)
    (hsolid : ∀ c ∈ line.toList, isWhitespace c = false) : parseInbound P line =
      (payloadOf line).bind fun data => (P.inboundPayload data.1 data.2).map
        LocationConfig.normalized := by
  rw [parseInbound, trim_of_trimmed (trimmed_of_solid hsolid), hstarts, payloadOf, Option.bind_map]
  rfl

theorem filterMap_singleton {α β : Type} (f : α → Option β) (a : α) :
    [a].filterMap f = (f a).toList := by
  cases h : f a <;> simp [h]

/-- Unwrapped, the text is one line. -/
theorem inboundLocations_glued (hglued : Glued text) :
    inboundLocations P (lineSequence (withoutWhitespace text)) =
      (parseInbound P (withoutWhitespace text)).toList := by
  have hsolid := solid_withoutWhitespace text
  have hbreaks : ∀ c ∈ (withoutWhitespace text).toList, isLineBreak c = false := by
    intro c hc
    rw [eq_false_iff]
    intro hbreak
    exact Bool.false_ne_true ((hsolid c hc).symm.trans (isWhitespace_of_isLineBreak hbreak))
  have hnormal : normalizedImportText (withoutWhitespace text) = withoutWhitespace text := by
    have htrim := trim_of_trimmed (trimmed_of_solid hsolid)
    have hbom : startsWith (withoutWhitespace text) utf8Bom = false := by
      obtain ⟨tail, htail⟩ := isPrefixOf_iff_prefix.mp hglued.1
      rw [startsWith, ← htail]
      rfl
    rw [normalizedImportText, htrim, removeStart, hbom, if_neg Bool.false_ne_true, htrim]
  rw [inboundLocations, lineSequence_of_noBreak hbreaks, map_singleton, hnormal,
    filter_cons_of_pos (by simpa using hglued.1), filter_nil]
  exact filterMap_singleton _ _

/-- The `yptun` parser finds what is left of its lines after gluing. -/
theorem finds_inbound (h : LinkText text) :
    Finds P ctx text .inbound (inboundContents P ctx text) := by
  by_cases hhas : contains text inboundPrefix = true
  · refine ⟨(inboundLocations P (lineSequence (inboundSource text))).mapIdx inboundDraft, ?_, ?_⟩
    · simp [familyBundle, parseYptunInboundText, hhas]
    · exact map_mapIdx_const (fun _ _ => Draft.content_congr rfl rfl) _
  · have hnone := linesOf_eq_nil hhas fun line hline hfamily =>
      ((h.links line hline).inbound hfamily).1
    have hnot : ¬Glued text := by
      intro hglued
      obtain ⟨first, -, honly, -⟩ := hglued.linesOf h
      simp [hnone] at honly
    refine ⟨[], ?_, ?_⟩
    · simp [familyBundle, parseYptunInboundText, eq_false_iff.mpr hhas, bundleOf]
    · rw [inboundContents, inboundSource_of_not_glued hnot, inboundLocations_lines P h, hnone]
      rfl

/-- The condition under which the first line survives being glued to the others. -/
def KeepsPayload (text : String) : Prop :=
  Glued text → ∀ first, (nonBlankLines text).head? = some first →
    payloadOf (withoutWhitespace text) = payloadOf first

/-- Where gluing keeps the payload, that is all of them. -/
theorem inboundContents_eq (h : LinkText text) (hkeeps : KeepsPayload text) :
    inboundContents P ctx text = contentsOf P ctx text .inbound := by
  rw [inboundContents, contentsOf_inbound]
  by_cases hglued : Glued text
  · obtain ⟨first, hhead, honly, hfirst, hfamily⟩ := hglued.linesOf h
    obtain ⟨hstarts, -, hsolid⟩ := hfirst.inbound hfamily
    have hsame : parseInbound P (withoutWhitespace text) = parseInbound P first := by
      rw [parseInbound_eq P hstarts hsolid,
        parseInbound_eq P hglued.1 (solid_withoutWhitespace text),
        hkeeps hglued first hhead]
    rw [inboundSource_of_glued hglued, inboundLocations_glued P hglued, hsame, honly,
      filterMap_singleton]
  · rw [inboundSource_of_not_glued hglued, inboundLocations_lines P h]

/-! ## The seven parsers together -/

/-- The contents of a bundle. -/
def LocationBundle.contents (b : LocationBundle) : List LocationEntry :=
  b.locations.map LocationEntry.anonymous

theorem contents_bundleOf (subscriptionUrl : Option String) (drafts : List Draft) :
    (bundleOf subscriptionUrl drafts).toList.flatMap LocationBundle.contents =
      drafts.map (Draft.content subscriptionUrl) := by
  cases drafts with
  | nil => rfl
  | cons d drafts =>
    rw [bundleOf, if_neg (by simp), Option.toList_some, flatMap_singleton,
      LocationBundle.contents, storeDrafts, map_zipWith]
    exact zipWith_forget (fun d _ => d.entry_anonymous _ _) _ (by simp [length_uniqueStorageIds])

/-- Merging the bundles of the families keeps every entry. -/
theorem contents_mergeParsedBundles {bundles : List LocationBundle} (hne : bundles ≠ []) :
    ∃ b, mergeParsedBundles bundles = some b ∧
      b.contents = bundles.flatMap LocationBundle.contents := by
  match bundles with
  | [] => exact absurd rfl hne
  | [bundle] => exact ⟨bundle, rfl, by simp⟩
  | first :: second :: rest =>
    refine ⟨_, rfl, ?_⟩
    rw [LocationBundle.contents, map_reassignIds fun _ _ => rfl, map_flatMap]
    rfl

theorem linkBundles_proxies (linkText : String) : linkBundles P ctx linkText ++
      (parseProxyText P linkText ctx.subscriptionUrl ctx.subscriptionMetadata).toList =
    families.flatMap fun f => (familyBundle P ctx linkText f).toList := by
  rw [linkBundles, filterMap_eq_flatMap_toList, families]
  simp [id_eq, familyBundle]

/-- A text of links is no file. -/
theorem LinkText.no_document (h : LinkText text) (subscriptionUrl : Option String) :
    (parseAmneziaWgText P text subscriptionUrl).or (parseRawXray P text subscriptionUrl) =
      none := by
  rw [parseAmneziaWgText, h.not_awg, parseRawXray, parseDocument,
    h.not_startsWith (d := '{') (by decide) (by decide) (by decide),
    h.not_startsWith (d := '[') (by decide) (by decide) (by decide)]
  rfl

/-- What the parsers find is imported, family by family. -/
theorem import_contents (h : LinkText text) {contents : Family → List LocationEntry}
    (hfinds : ∀ f, Finds P ctx text f (contents f)) (hne : families.flatMap contents ≠ []) :
    ∃ b, parseImport P ctx text = some ⟨b, .additive⟩ ∧
      (b.locations.map storageId).Nodup ∧ b.contents = families.flatMap contents := by
  have hcontents : (families.flatMap fun f => (familyBundle P ctx text f).toList).flatMap
      LocationBundle.contents = families.flatMap contents := by
    rw [flatMap_assoc]
    refine congrArg (List.flatMap · families) (funext fun f => ?_)
    obtain ⟨drafts, hbundle, hdrafts⟩ := hfinds f
    rw [hbundle, contents_bundleOf, hdrafts]
  have hbundles : (families.flatMap fun f => (familyBundle P ctx text f).toList) ≠ [] := by
    intro hnil
    rw [hnil] at hcontents
    exact hne hcontents.symm
  obtain ⟨b, hmerge, hb⟩ := contents_mergeParsedBundles hbundles
  have hforeign : parseForeign P ctx text = some b := by
    rw [parseForeign, h.toLinkText_eq, h.no_document]
    rw [ite_self, linkBundles_proxies, hmerge]
    rfl
  refine ⟨b, ?_, (slugged_parseForeign hforeign).nodup, hb.trans hcontents⟩
  rw [parseImport, hforeign]
  rfl

/-- Every line is read by one parser. -/
theorem perm_families (h : LinkText text) :
    (families.flatMap (linesOf text)).Perm (nonBlankLines text) := by
  have hlines : ∀ line ∈ nonBlankLines text, (familyOf line).isSome = true :=
    fun line hline => (h.links line hline).known
  unfold linesOf
  generalize nonBlankLines text = lines at hlines
  induction lines with
  | nil => simp
  | cons line lines ih =>
    obtain ⟨f, hf⟩ := isSome_iff_exists.mp (hlines line mem_cons_self)
    have hcons : ∀ g, ((line :: lines).filter fun line => familyOf line = some g) =
        (if f = g then [line] else []) ++ lines.filter fun line => familyOf line = some g := by
      intro g
      by_cases hg : f = g <;> simp [hf, hg]
    have hone : (families.flatMap fun g => if f = g then [line] else []) = [line] := by
      cases f <;> rfl
    simp only [hcons]
    refine (flatMap_append_perm families _ _).symm.trans ?_
    rw [hone]
    exact (ih fun l hl => hlines l (mem_cons_of_mem _ hl)).cons line

/-- THE FAMILIES PARTITION THE LINES: their contents are those of the lines in another order. -/
theorem perm_contents (h : LinkText text) : (families.flatMap (contentsOf P ctx text)).Perm
      (((nonBlankLines text).filterMap (lineDraft P ctx)).map
        (Draft.content ctx.subscriptionUrl)) := by
  have hflat : families.flatMap (contentsOf P ctx text) =
      ((families.flatMap (linesOf text)).filterMap (lineDraft P ctx)).map
        (Draft.content ctx.subscriptionUrl) := by
    rw [filterMap_flatMap, map_flatMap]
    rfl
  rw [hflat]
  exact ((perm_families h).filterMap _).map _

/-- The families of which nothing can be lost. -/
def otherContents (P : LinkParsers) (ctx : ImportContext) (text : String) : List LocationEntry :=
  families.tail.flatMap (contentsOf P ctx text)

/-- What is imported: what is left of the room, then all the others. -/
theorem import_others (h : LinkText text)
    (hne : inboundContents P ctx text ++ otherContents P ctx text ≠ []) :
    ∃ b, parseImport P ctx text = some ⟨b, .additive⟩ ∧ (b.locations.map storageId).Nodup ∧
      b.contents = inboundContents P ctx text ++ otherContents P ctx text := by
  have hfinds : ∀ f, Finds P ctx text f
      (if f = .inbound then inboundContents P ctx text else contentsOf P ctx text f) := by
    intro f
    cases f with
    | inbound => exact finds_inbound P ctx h
    | olcRtc => exact finds_olcRtc P ctx h
    | freeturn => exact finds_of_scheme P ctx "freeturn://" P.freeturn (freeturnDraft P)
    | qwdtt => exact finds_of_scheme P ctx "qwdtt://" P.qwdtt qwdttDraft
    | csqtt => exact finds_of_scheme P ctx "csqtt://" P.csqtt csqttDraft
    | openFlux => exact finds_of_scheme P ctx "openflux://" P.openFlux openFluxDraft
    | proxy => exact finds_proxy P ctx h
  have hflat : (families.flatMap fun f =>
      if f = .inbound then inboundContents P ctx text else contentsOf P ctx text f) =
        inboundContents P ctx text ++ otherContents P ctx text := by
    simp [families, otherContents]
  rw [← hflat] at hne ⊢
  exact import_contents P ctx h hfinds hne

section Accepted

variable (hall : ∀ line ∈ nonBlankLines text, (lineDraft P ctx line).isSome = true)
include hall

theorem length_drafts :
    ((nonBlankLines text).filterMap (lineDraft P ctx)).length = (nonBlankLines text).length := by
  rw [length_filterMap_eq_countP, countP_eq_length]
  exact hall

/-- Where the first line keeps its payload, all lines are there. -/
theorem import_lines (h : LinkText text) (hkeeps : KeepsPayload text) :
    ∃ b, parseImport P ctx text = some ⟨b, .additive⟩ ∧ (b.locations.map storageId).Nodup ∧
      b.contents.Perm (((nonBlankLines text).filterMap (lineDraft P ctx)).map
        (Draft.content ctx.subscriptionUrl)) := by
  have hperm := perm_contents P ctx h
  have hsame : inboundContents P ctx text ++ otherContents P ctx text =
      families.flatMap (contentsOf P ctx text) := by
    rw [inboundContents_eq P ctx h hkeeps]
    rfl
  have hne : inboundContents P ctx text ++ otherContents P ctx text ≠ [] := by
    rw [hsame]
    intro hnil
    have hlen := hperm.length_eq
    rw [hnil, length_map, length_drafts P ctx hall, eq_comm, length_nil, length_eq_zero_iff] at hlen
    exact h.nonempty hlen
  obtain ⟨b, himport, hnodup, hb⟩ := import_others P ctx h hne
  exact ⟨b, himport, hnodup, by rw [hb, hsame]; exact hperm⟩

omit hall in
/-- A line alone is imported as its own draft. -/
theorem import_line (h : LinkText text) {line : String} (hline : line ∈ nonBlankLines text)
    {d : Draft} (hdraft : lineDraft P ctx line = some d) :
    ∃ single e, single.locations = [e] ∧ parseImport P ctx line = some ⟨single, .additive⟩ ∧
      e.anonymous = d.content ctx.subscriptionUrl := by
  have hlines : nonBlankLines line = [line] := nonBlankLines_line (isLine_of_mem hline)
  have hone : LinkText line :=
    ⟨by simp [hlines], fun l hl => by
      rw [hlines, mem_singleton] at hl
      exact hl ▸ h.links line hline⟩
  have hkeeps : KeepsPayload line := by
    intro hglued first hfirst
    obtain ⟨other, hother, -, hlink, hfamily⟩ := hglued.linesOf hone
    rw [hlines, head?_cons, some.injEq] at hother hfirst
    rw [← hother] at hlink hfamily
    rw [withoutWhitespace_eq_self (hlink.inbound hfamily).2.2, hfirst]
  have haccept : ∀ l ∈ nonBlankLines line, (lineDraft P ctx l).isSome = true := by
    intro l hl
    rw [hlines, mem_singleton] at hl
    rw [hl, hdraft]
    rfl
  obtain ⟨b, himport, -, hperm⟩ := import_lines P ctx haccept hone hkeeps
  rw [hlines, filterMap_cons_some hdraft, filterMap_nil, map_singleton] at hperm
  obtain ⟨e, hlocations, he⟩ := map_eq_singleton_iff.mp (perm_singleton.mp hperm)
  exact ⟨b, e, hlocations, himport, he⟩

/-- With the payload kept, every line is imported once. -/
theorem importsEach_of_keepsPayload (h : LinkText text) (hkeeps : KeepsPayload text) :
    ImportsEach P ctx text := by
  obtain ⟨b, himport, hnodup, hperm⟩ := import_lines P ctx hall h hkeeps
  have halone : ∀ lines : List String, (∀ line ∈ lines, line ∈ nonBlankLines text) →
      ∃ alone, List.Forall₂ (fun line e => ∃ single, single.locations = [e] ∧
          parseImport P ctx line = some ⟨single, .additive⟩) lines alone ∧
        alone.map LocationEntry.anonymous = (lines.filterMap (lineDraft P ctx)).map
          (Draft.content ctx.subscriptionUrl) := by
    intro lines hlines
    induction lines with
    | nil => exact ⟨[], .nil, rfl⟩
    | cons line lines ih =>
      have hmem := hlines line mem_cons_self
      obtain ⟨d, hd⟩ := isSome_iff_exists.mp (hall line hmem)
      obtain ⟨single, e, hlocations, hparse, he⟩ := import_line P ctx h hmem hd
      obtain ⟨alone, heach, hcontents⟩ := ih fun l hl => hlines l (mem_cons_of_mem _ hl)
      refine ⟨e :: alone, .cons ⟨single, hlocations, hparse⟩ heach, ?_⟩
      rw [filterMap_cons_some hd, map_cons, map_cons, he, hcontents]
  obtain ⟨alone, heach, hcontents⟩ := halone _ fun _ hline => hline
  exact ⟨b, himport, hnodup, alone, heach, by rw [hcontents]; exact hperm⟩

end Accepted

end Finds

/-! ## What is lost -/

def plainProxy : ProxyProfile := { server := "h", serverPort := 1, uuid := "u" }

/-- Parsers that take every link, but of the app's own links only those with one payload. -/
def generousParsers (payload : Option (Bool × String)) : LinkParsers :=
  { noParsers with
    inboundPayload := fun compressed data =>
      if some (compressed, data) = payload then some { name := "r" } else none
    parseOlcRtcUri := fun _ => some ⟨{}, none⟩
    freeturn := fun uri => some ⟨uri, "h", 1, 1, "", "", "", ""⟩
    qwdtt := fun _ => some ⟨"q", "h", 1⟩
    csqtt := fun _ => some ⟨"h", 1⟩
    openFlux := fun _ => some ⟨"o", {}⟩
    vless := fun _ => some plainProxy
    vmess := fun _ => some plainProxy
    trojan := fun _ => some plainProxy
    shadowsocks := fun _ => some plainProxy
    hysteria2 := fun _ => some plainProxy
    naive := fun _ => some plainProxy
    amneziaWgLink := fun _ => some plainProxy
    amneziaWg := fun _ => some plainProxy
    trustTunnel := fun _ => some plainProxy }

/-- Every proxy scheme leads to a parser that takes it. -/
theorem generous_shareLink (payload : Option (Bool × String)) {text : String} (h : LinkLine line)
    (hline : IsLine text line) (hfamily : familyOf line = some .proxy) :
    parseShareLink (generousParsers payload) line = some plainProxy := by
  obtain ⟨s, hs, hproxy, hscheme⟩ := scheme_of_familyOf hfamily
  have hmem : ∀ t ∈ schemes, t.2 = .proxy → t ∈ schemes.drop 6 := by decide
  have hmem := hmem s hs hproxy
  rw [parseShareLink, trim_of_trimmed hline.trimmed, h.not_awg hline]
  simp only [schemes, drop_succ_cons, drop_zero, mem_cons, not_mem_nil, or_false] at hmem
  -- the scheme decides every test of the dispatch
  have hword := fun word => startsWithIgnoreCase_of_start word hscheme
  rcases hmem with rfl | rfl | rfl | rfl | rfl | rfl | rfl | rfl | rfl | rfl | rfl
  all_goals
    simp (disch := decide) only [hword, any_cons, any_nil]
    rfl

variable (ctx : ImportContext)

/-- They take every line of a text whose only link of the app has that payload. -/
theorem generous_accepts {text first : String} (h : LinkText text)
    (honly : linesOf text .inbound = [first]) : ∀ line ∈ nonBlankLines text,
      (lineDraft (generousParsers (payloadOf first)) ctx line).isSome = true := by
  intro line hline
  have hlink := h.links line hline
  obtain ⟨f, hf⟩ := isSome_iff_exists.mp hlink.known
  rw [lineDraft, hf]
  cases f with
  | inbound =>
    have hfirst : line ∈ linesOf text .inbound := mem_linesOf.mpr ⟨hline, hf⟩
    rw [honly, mem_singleton] at hfirst
    obtain ⟨hstarts, hdata, hsolid⟩ := hlink.inbound hf
    obtain ⟨data, hdata⟩ := isSome_iff_exists.mp hdata
    have hpayload : payloadOf line = some (data.1, withoutWhitespace data.2) := by
      rw [payloadOf, hdata]
      rfl
    dsimp only
    rw [← hfirst, parseInbound_eq _ hstarts hsolid, hpayload]
    simp [generousParsers]
  | olcRtc =>
    dsimp only
    rw [if_pos (hlink.olcRtc hf)]
    rfl
  | freeturn | qwdtt | csqtt | openFlux => rfl
  | proxy =>
    dsimp only
    rw [generous_shareLink _ hlink (isLine_of_mem hline) hf]
    rfl

/-- Glued to the others, the first line is not taken for what it is. -/
theorem generous_loses {text first : String}
    (hglued : Glued text) (hfirst : payloadOf (withoutWhitespace text) ≠ payloadOf first) :
    parseInbound (generousParsers (payloadOf first)) (withoutWhitespace text) = none := by
  rw [parseInbound_eq _ hglued.1 (solid_withoutWhitespace text)]
  cases hpayload : payloadOf (withoutWhitespace text) with
  | none => rfl
  | some data =>
    rw [hpayload] at hfirst
    simp [generousParsers, if_neg hfirst]

/-- A LINE IS LOST where the glued text is no link: the other families still bring one entry for
    each of their lines, so one is missing. -/
theorem not_importsEach_of_glued {P : LinkParsers} {text : String} (h : LinkText text)
    (hall : ∀ line ∈ nonBlankLines text, (lineDraft P ctx line).isSome = true)
    (hglued : Glued text) (hlost : parseInbound P (withoutWhitespace text) = none) :
    ¬ImportsEach P ctx text := by
  rintro ⟨b, himport, -, alone, heach, hperm⟩
  obtain ⟨first, hfirst, honly, hlink, hfamily⟩ := hglued.linesOf h
  have hmem : first ∈ nonBlankLines text := mem_of_mem_head? hfirst
  have hempty : inboundContents P ctx text = [] := by
    rw [inboundContents, inboundSource_of_glued hglued, inboundLocations_glued _ hglued, hlost]
    rfl
  have hcount : (otherContents P ctx text).length + 1 = (nonBlankLines text).length := by
    have hone : (contentsOf P ctx text .inbound).length = 1 := by
      obtain ⟨d, hd⟩ := isSome_iff_exists.mp (hall first hmem)
      rw [contentsOf, honly, filterMap_cons_some hd]
      rfl
    have hlen := (perm_contents P ctx h).length_eq
    rw [length_map, length_drafts P ctx hall, families, flatMap_cons, length_append, hone] at hlen
    rw [← hlen, Nat.add_comm]
    rfl
  have hne : inboundContents P ctx text ++ otherContents P ctx text ≠ [] := by
    rw [hempty, nil_append]
    intro hnil
    -- a single line is not changed by gluing, and its parser takes it
    rw [hnil, length_nil, Nat.zero_add, eq_comm, length_eq_one_iff] at hcount
    obtain ⟨line, hlines⟩ := hcount
    obtain rfl : line = first := by simpa [hlines] using hfirst
    have hsame : withoutWhitespace text = line := by
      rw [← String.toList_inj, withoutWhitespace_lines, hlines, flatMap_singleton,
        withoutWhitespace_eq_self (hlink.inbound hfamily).2.2]
    have hdraft := hall line hmem
    rw [lineDraft, hfamily] at hdraft
    dsimp only at hdraft
    rw [← hsame, hlost] at hdraft
    cases hdraft
  obtain ⟨b', himport', -, hb'⟩ := import_others P ctx h hne
  obtain rfl : b = b' := by
    rw [himport] at himport'
    exact (ParsedImport.mk.inj (some.inj himport')).1
  have hlen := hperm.length_eq
  rw [← LocationBundle.contents, hb', hempty, nil_append, length_map, ← heach.length_eq] at hlen
  omega

/-- And only then: otherwise these parsers lose the first line. -/
theorem keepsPayload_of_importsEach {text : String} (h : LinkText text)
    (himports : ∀ P, (∀ line ∈ nonBlankLines text, (lineDraft P ctx line).isSome = true) →
      ImportsEach P ctx text) : KeepsPayload text := by
  intro hglued first hhead
  obtain ⟨other, hother, honly, -, -⟩ := hglued.linesOf h
  obtain rfl : other = first := some.inj (hother.symm.trans hhead)
  by_contra hlost
  have hall := generous_accepts ctx h honly
  exact not_importsEach_of_glued ctx h hall hglued (generous_loses hglued hlost)
    (himports _ hall)

/-- For which texts every link is imported exactly once, whatever the parsers of single links
    accept. -/
theorem mixed_import_iff (text : String) (h : LinkText text) :
    (∀ P, (∀ line ∈ nonBlankLines text, (lineDraft P ctx line).isSome = true) →
      ImportsEach P ctx text) ↔ KeepsPayload text :=
  ⟨keepsPayload_of_importsEach ctx h, fun hkeeps P hall =>
    importsEach_of_keepsPayload P ctx hall h hkeeps⟩

/-! ### Two links -/

/-- `{"name":"r"}` in Base64. -/
def roomLink : String := "yptun://inbound?v=1&d=eyJuYW1lIjoiciJ9"

def serverLink : String := "trojan://pw@h:443"

theorem linkLine_room : LinkLine roomLink where
  known := by decide
  inbound _ := by
    have hsolid : (roomLink.toList.all fun c => !isWhitespace c) = true := by decide
    exact ⟨by decide, by decide, fun c hc => by simpa using all_eq_true.mp hsolid c hc⟩
  olcRtc := by decide

theorem linkLine_server : LinkLine serverLink where
  known := by decide
  inbound := by decide
  olcRtc := by decide

theorem linkText_of_lines {text : String} {lines : List String}
    (hlines : nonBlankLines text = lines)
    (hne : lines ≠ []) (hlinks : ∀ line ∈ lines, LinkLine line) : LinkText text :=
  ⟨hlines ▸ hne, hlines ▸ hlinks⟩

/-- With the room behind the server, both are imported. -/
theorem server_then_room_imported : LinkText (serverLink ++ "\n" ++ roomLink) ∧
    ∀ P, (∀ line ∈ nonBlankLines (serverLink ++ "\n" ++ roomLink),
      (lineDraft P {} line).isSome = true) → ImportsEach P {} (serverLink ++ "\n" ++ roomLink) := by
  have htext : LinkText (serverLink ++ "\n" ++ roomLink) := by
    refine linkText_of_lines (show nonBlankLines _ = [serverLink, roomLink] by decide +kernel)
      (by decide) ?_
    simp [linkLine_server, linkLine_room]
  refine ⟨htext, (mixed_import_iff {} _ htext).mpr fun hglued => ?_⟩
  exact absurd hglued.1 (by decide +kernel)

/-- The JSON library on the text of the room; nothing is compressed. -/
def roomWire : Share.LocationWire Unit :=
  let room : Share.Location Unit := ⟨{ name := "r" }, ()⟩
  let text := Share.utf8 "\x7b\"name\":\"r\"\x7d"
  { encode := fun _ => text
    decode := fun raw => if raw = text then some room else none
    deflateOrNull := fun _ => none
    inflateOrNull := fun _ => none }

/-- The client's own decoders of the two families. -/
def clientParsers : LinkParsers :=
  { noParsers with
    inboundPayload := fun compressed payload =>
      (roomWire.inboundPayload compressed payload).map Share.Location.config
    trojan := fun text => (Share.parseTrojan ⟨fun _ => "", []⟩ text).map (·.toProxyProfile) }

/-- With the room in front of it the server becomes a part of the room's payload, and nothing is
    left of the room. -/
theorem room_then_server_loses_room : LinkText (roomLink ++ "\n" ++ serverLink) ∧
    (∀ line ∈ nonBlankLines (roomLink ++ "\n" ++ serverLink),
      (lineDraft clientParsers {} line).isSome = true) ∧
    ¬ImportsEach clientParsers {} (roomLink ++ "\n" ++ serverLink) := by
  have hlines : nonBlankLines (roomLink ++ "\n" ++ serverLink) = [roomLink, serverLink] := by
    decide +kernel
  have htext : LinkText (roomLink ++ "\n" ++ serverLink) :=
    linkText_of_lines hlines (by decide) (by simp [linkLine_server, linkLine_room])
  have hall : ∀ line ∈ nonBlankLines (roomLink ++ "\n" ++ serverLink),
      (lineDraft clientParsers {} line).isSome = true := by
    rw [hlines]
    exact forall_mem_cons.mpr ⟨by decide +kernel, forall_mem_singleton.mpr (by decide +kernel)⟩
  have hglued : Glued (roomLink ++ "\n" ++ serverLink) := ⟨by decide +kernel, by decide +kernel⟩
  have hlost : (parseInbound clientParsers
      (withoutWhitespace (roomLink ++ "\n" ++ serverLink))).isNone = true := by
    decide +kernel
  exact ⟨htext, hall,
    not_importsEach_of_glued {} htext hall hglued (Option.isNone_iff_eq_none.mp hlost)⟩

end OlcVpn.Locations
