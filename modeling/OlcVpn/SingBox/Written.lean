/-
  WHAT THE USER WROTE in a structured rule, entry by entry.

  The editor documents a small syntax: a SCHEME before the first colon says what a site or an
  address is, an entry without a known scheme is a name or a range, and ports are numbers and ranges
  of them.  An entry asks QUESTIONS about a connection; one that is invalid asks none, and so
  matches nothing.  `keyword:` and `regexp:` with nothing behind them are invalid: the user named no
  text, while an empty one occurs in every name.

  ** What is here **

  - `domainQuestions`, `ipQuestions`, `sourceQuestions`, `portQuestions`: the meaning of the
    entries, with no use of the parsers of the client.
  - `siteAsked_scheme`, `siteAsked_bare`, `addressAsked_eq`, `sourceAsked_eq`, `mem_emittedPorts`:
    what the client's parsers leave of an entry.  They agree but for the empty patterns, which they
    let through (`siteAsked_empty`), and for an address among the sites, which they drop.
-/
import OlcVpn.Kotlin.Lines
import OlcVpn.SingBox.Matching

namespace OlcVpn.SingBoxRouting

open Kotlin Generate SingBox List
open String (ofList)

/-! ## Schemes -/

/-- What stands before the first colon, without case. -/
def schemeOf (v : String) : Option String :=
  if ':' ∈ v.toList then some (ofList ((v.toList.takeWhile (· ≠ ':')).map foldAscii)) else none

/-- What stands behind it. -/
def behindColon (v : String) : String := trim (ofList ((v.toList.dropWhile (· ≠ ':')).drop 1))

theorem prefix_fold_iff {word l : List Char} (hword : ':' ∉ word) :
    (word ++ [':']) <+: l.map foldAscii ↔
      ':' ∈ l ∧ (l.takeWhile (· ≠ ':')).map foldAscii = word := by
  induction l generalizing word with
  | nil => simp
  | cons c l ih =>
    by_cases hc : c = ':'
    · subst hc
      have hfold : foldAscii ':' = ':' := by decide
      cases word with
      | nil => simp [hfold, cons_prefix_cons]
      | cons d word => simp [hfold, cons_prefix_cons, (ne_of_mem_of_not_mem mem_cons_self hword)]
    · have hfold : foldAscii c ≠ ':' := fun h => hc (eq_of_foldAscii (by decide) h)
      cases word with
      | nil => simp [hc, Ne.symm hfold, cons_prefix_cons]
      | cons d word =>
        have hrest := @ih word fun h => hword (mem_cons_of_mem _ h)
        simp only [map_cons, cons_append, cons_prefix_cons, hrest, mem_cons]
        simp [hc, eq_comm, and_left_comm]

/-- The client looks for the scheme and its colon at the start. -/
theorem startsWithIgnoreCase_iff_scheme {word : String} (hword : ':' ∉ word.toList) (v : String) :
    startsWithIgnoreCase v (word ++ ":") = true ↔ schemeOf v = some word := by
  rw [startsWithIgnoreCase, String.toList_append, isPrefixOf_iff_prefix]
  refine (prefix_fold_iff hword).trans ?_
  rw [schemeOf]
  split_ifs with hcolon
  · rw [and_iff_right hcolon, Option.some.injEq, ← String.toList_inj, String.toList_ofList]
  · simp [hcolon]

theorem cutAt_colon {l : List Char} (h : ':' ∈ l) :
    cutAt [':'] l = some (l.takeWhile (· ≠ ':'), (l.dropWhile (· ≠ ':')).drop 1) := by
  induction l with
  | nil => cases h
  | cons c l ih =>
    by_cases hc : c = ':'
    · subst hc
      simp [cutAt]
    · rw [cutAt, if_neg (by simpa [isPrefixOf_cons_cons] using Ne.symm hc),
        ih ((mem_cons.mp h).resolve_left (Ne.symm hc))]
      simp [hc]

theorem valueOf_eq {v word : String} (h : schemeOf v = some word) : valueOf v = behindColon v := by
  have hcolon : ':' ∈ v.toList := by
    by_contra hnone
    rw [schemeOf, if_neg hnone] at h
    cases h
  rw [valueOf, substringAfterOr, behindColon, show (":" : String).toList = [':'] from rfl,
    cutAt_colon hcolon]
  rfl

/-! ## Sites -/

/-- A name and everything under it; with a dot in front, only what is under it. -/
def underName (name : String) : List Question :=
  if name = "" then []
  else if startsWith name "." then [("domain_suffix", name)]
  else [("domain_suffix", "." ++ name), ("domain", name)]

/-- A text or a pattern to be found in a name; an empty one is invalid. -/
def foundIn (field text : String) : List Question := if text = "" then [] else [(field, text)]

/-- What an entry among the sites asks. -/
def domainQuestions (entry : String) : List Question :=
  let v := trim entry
  if schemeOf v = some "geosite" then [("rule_set", "geosite-" ++ lowercase (behindColon v))]
  else if schemeOf v = some "geoip" then []
  else if schemeOf v = some "domain" then underName (behindColon v)
  else if schemeOf v = some "full" then [("domain", behindColon v)]
  else if schemeOf v = some "keyword" then foundIn "domain_keyword" (behindColon v)
  else if schemeOf v = some "regexp" ∨ schemeOf v = some "regex" then
    foundIn "domain_regex" (behindColon v)
  else underName v

def siteSchemes : List (Option String) :=
  ["geosite", "geoip", "domain", "full", "keyword", "regexp", "regex"].map some

/-- A text or a pattern that the user left empty. -/
def EmptyPattern (entry : String) : Prop :=
  schemeOf (trim entry) ∈ ["keyword", "regexp", "regex"].map some ∧ behindColon (trim entry) = ""

/-- An address where a name belongs. -/
def AddressAsSite (entry : String) : Prop :=
  schemeOf (trim entry) ∉ siteSchemes ∧ isCidrOrIp (trim entry) = true

instance (entry : String) : Decidable (EmptyPattern entry) :=
  inferInstanceAs (Decidable (_ ∧ _))

instance (entry : String) : Decidable (AddressAsSite entry) :=
  inferInstanceAs (Decidable (_ ∧ _))

/-- The questions of a parsed site that are emitted. -/
def Selectors.siteQuestions (s : Selectors) : List Question :=
  s.geositeTags.map (fun tag => ("rule_set", "geosite-" ++ tag)) ++
  s.domainSuffix.map ("domain_suffix", ·) ++ s.domainExact.map ("domain", ·) ++
  s.domainKeyword.map ("domain_keyword", ·) ++ s.domainRegex.map ("domain_regex", ·)

/-- What is emitted for an entry among the sites. -/
def siteAsked (entry : String) : List Question :=
  (parseSite entry).toList.flatMap Selectors.siteQuestions

theorem siteQuestions_under (value : String) :
    (domainAndSubdomains value).siteQuestions = underName (trim value) := by
  simp only [domainAndSubdomains, underName]
  split_ifs <;> simp [Selectors.siteQuestions]

/-- The parser in terms of schemes. -/
theorem parseSite_eq (entry : String) : parseSite entry =
    let v := trim entry
    if v = "" then none
    else if schemeOf v = some "geosite" then some { geositeTags := [lowercase (valueOf v)] }
    else if schemeOf v = some "geoip" then some { geoipTags := [lowercase (valueOf v)] }
    else if schemeOf v = some "domain" then some (domainAndSubdomains (valueOf v))
    else if schemeOf v = some "full" then some { domainExact := [valueOf v] }
    else if schemeOf v = some "keyword" then some { domainKeyword := [valueOf v] }
    else if schemeOf v = some "regexp" ∨ schemeOf v = some "regex" then
      some { domainRegex := [valueOf v] }
    else if isCidrOrIp v then some { ipCidr := [toCidr v] }
    else some (domainAndSubdomains v) := by
  have hscheme : ∀ word : String, ':' ∉ word.toList → ∀ v,
      startsWithIgnoreCase v (word ++ ":") = true ↔ schemeOf v = some word :=
    fun word hword v => startsWithIgnoreCase_iff_scheme hword v
  rw [parseSite]
  simp only [← hscheme "geosite" (by decide), ← hscheme "geoip" (by decide),
    ← hscheme "domain" (by decide), ← hscheme "full" (by decide), ← hscheme "keyword" (by decide),
    ← hscheme "regexp" (by decide), ← hscheme "regex" (by decide), ← Bool.or_eq_true]
  rfl

/-- An entry with a known scheme. -/
theorem siteAsked_scheme {entry : String} (hscheme : schemeOf (trim entry) ∈ siteSchemes)
    (h : ¬ EmptyPattern entry) : siteAsked entry = domainQuestions entry := by
  have hsame : valueOf (trim entry) = behindColon (trim entry) := by
    obtain ⟨word, -, hword⟩ := mem_map.mp hscheme
    exact valueOf_eq hword.symm
  have hne : trim entry ≠ "" := by
    rintro hempty
    rw [hempty] at hscheme
    exact absurd hscheme (by decide)
  have hvalue : trim (behindColon (trim entry)) = behindColon (trim entry) := trim_trim _
  simp only [siteSchemes, map_cons, map_nil, mem_cons, not_mem_nil, or_false] at hscheme
  rw [siteAsked, parseSite_eq, domainQuestions]
  rcases hscheme with hs | hs | hs | hs | hs | hs | hs <;>
    simp only [hs, hsame, hne, if_true, if_false, Option.some.injEq, String.reduceEq, true_or,
      or_true, or_self, Option.toList_some, flatMap_singleton]
  · simp [Selectors.siteQuestions]
  · simp [Selectors.siteQuestions]
  · rw [siteQuestions_under, hvalue]
  · simp [Selectors.siteQuestions]
  all_goals
    have htext : behindColon (trim entry) ≠ "" := fun htext => h ⟨by simp [hs], htext⟩
    simp [Selectors.siteQuestions, foundIn, htext]

/-- An entry without one: a name, or an address, which is dropped. -/
theorem siteAsked_bare {entry : String} (hscheme : schemeOf (trim entry) ∉ siteSchemes) :
    siteAsked entry = (if isCidrOrIp (trim entry) then [] else domainQuestions entry) := by
  simp only [siteSchemes, map_cons, map_nil, mem_cons, not_mem_nil, or_false, not_or] at hscheme
  obtain ⟨h₁, h₂, h₃, h₄, h₅, h₆, h₇⟩ := hscheme
  rw [siteAsked, parseSite_eq, domainQuestions]
  simp only [h₁, h₂, h₃, h₄, h₅, h₆, h₇, if_false, or_self]
  by_cases hempty : trim entry = ""
  · simp [hempty, underName]
  · rw [if_neg hempty]
    split_ifs
    · simp [Selectors.siteQuestions]
    · simp [siteQuestions_under, trim_trim]

/-- A pattern that was left empty is emitted as one that occurs in every name. -/
theorem siteAsked_empty {entry : String} (h : EmptyPattern entry) :
    ∃ field ∈ ["domain_keyword", "domain_regex"], siteAsked entry = [(field, "")] := by
  obtain ⟨hscheme, hvalue⟩ := h
  have hsame : valueOf (trim entry) = "" := by
    obtain ⟨word, -, hword⟩ := mem_map.mp hscheme
    rw [valueOf_eq hword.symm, hvalue]
  have hne : trim entry ≠ "" := by
    rintro hempty
    rw [hempty] at hscheme
    exact absurd hscheme (by decide)
  simp only [map_cons, map_nil, mem_cons, not_mem_nil, or_false] at hscheme
  rw [siteAsked, parseSite_eq]
  rcases hscheme with hs | hs | hs <;>
    simp [hs, hsame, hne, Selectors.siteQuestions]

/-- Nobody writes the question an empty pattern asks. -/
theorem not_mem_domainQuestions {entry field : String}
    (hfield : field ∈ ["domain_keyword", "domain_regex"]) :
      (field, "") ∉ domainQuestions entry := by
  have hunder : ∀ name, (field, "") ∉ underName name := by
    intro name
    unfold underName
    split_ifs <;> simp_all
  have hfound : ∀ f text, (field, "") ∉ foundIn f text := by
    intro f text
    unfold foundIn
    split_ifs with htext <;> simp_all [eq_comm]
  unfold domainQuestions
  simp only
  split_ifs
  · simp only [mem_cons, not_mem_nil, or_false] at hfield
    rcases hfield with rfl | rfl <;> simp
  · simp
  · exact hunder _
  · simp only [mem_cons, not_mem_nil, or_false] at hfield
    rcases hfield with rfl | rfl <;> simp
  · exact hfound _ _
  · exact hfound _ _
  · exact hunder _

/-! ## Addresses -/

/-- A bare address is a range of one. -/
def rangeText (v : String) : String :=
  if '/' ∈ v.toList then v else v ++ if ':' ∈ v.toList then "/128" else "/32"

/-- A range, or the name of something that is none. -/
def NamesNoRange (v : String) : Prop :=
  v = "" ∨ schemeOf v ∈ ["geoip", "geosite", "asn"].map some

instance (v : String) : Decidable (NamesNoRange v) := inferInstanceAs (Decidable (_ ∨ _))

/-- What an entry among the addresses asks, apart from the number of a network. -/
def ipQuestions (entry : String) : List Question :=
  let v := trim entry
  if schemeOf v = some "geoip" then [("rule_set", "geoip-" ++ lowercase (behindColon v))]
  else if NamesNoRange v then []
  else [("ip_cidr", rangeText v)]

/-- What an entry among the source addresses asks: only ranges are valid there. -/
def sourceQuestions (entry : String) : List Question :=
  if NamesNoRange (trim entry) then [] else [("source_ip_cidr", rangeText (trim entry))]

/-- What is emitted for an entry among the addresses. -/
def addressAsked (entry : String) : List Question :=
  (parseAddress entry).toList.flatMap fun s =>
    s.geoipTags.map (fun tag => ("rule_set", "geoip-" ++ tag)) ++ s.ipCidr.map ("ip_cidr", ·)

def sourceAsked (entry : String) : List Question :=
  (parseAddress entry).toList.flatMap fun s => s.ipCidr.map ("source_ip_cidr", ·)

theorem contains_char {v word : String} {c : Char} (hword : word.toList = [c]) :
    contains v word = true ↔ c ∈ v.toList := by
  rw [contains_iff_isInfix, hword, singleton_infix_iff]

theorem toCidr_eq (v : String) : toCidr v = rangeText v := by
  have hslash : contains v "/" = true ↔ '/' ∈ v.toList := contains_char rfl
  have hcolon : contains v ":" = true ↔ ':' ∈ v.toList := contains_char rfl
  rw [toCidr, rangeText]
  simp only [hslash, hcolon]
  split_ifs <;> rfl

theorem parseAddress_eq (entry : String) : parseAddress entry =
    let v := trim entry
    if v = "" then none
    else if schemeOf v = some "geoip" then some { geoipTags := [lowercase (valueOf v)] }
    else if schemeOf v = some "geosite" then some { geositeTags := [lowercase (valueOf v)] }
    else if schemeOf v = some "asn" then none
    else some { ipCidr := [rangeText v] } := by
  have hscheme : ∀ word : String, ':' ∉ word.toList → ∀ v,
      startsWithIgnoreCase v (word ++ ":") = true ↔ schemeOf v = some word :=
    fun word hword v => startsWithIgnoreCase_iff_scheme hword v
  rw [parseAddress]
  simp only [← hscheme "geoip" (by decide), ← hscheme "geosite" (by decide),
    ← hscheme "asn" (by decide), ← toCidr_eq, isAsnSelector, trim_trim]
  rfl

theorem addressAsked_eq (entry : String) : addressAsked entry = ipQuestions entry := by
  rw [addressAsked, parseAddress_eq, ipQuestions]
  by_cases hempty : trim entry = ""
  · rw [hempty]
    decide
  by_cases hgeoip : schemeOf (trim entry) = some "geoip"
  · simp [hempty, hgeoip, valueOf_eq hgeoip]
  · by_cases hrest : schemeOf (trim entry) = some "geosite" ∨ schemeOf (trim entry) = some "asn"
    · rcases hrest with h | h <;> simp [hempty, h, NamesNoRange]
    · obtain ⟨h₁, h₂⟩ := not_or.mp hrest
      simp [hempty, hgeoip, h₁, h₂, NamesNoRange]

theorem sourceAsked_eq (entry : String) : sourceAsked entry = sourceQuestions entry := by
  rw [sourceAsked, parseAddress_eq, sourceQuestions]
  by_cases hempty : trim entry = ""
  · rw [hempty]
    decide
  by_cases hrest : schemeOf (trim entry) ∈ ["geoip", "geosite", "asn"].map some
  · rw [if_pos (show NamesNoRange (trim entry) from .inr hrest)]
    simp only [map_cons, map_nil, mem_cons, not_mem_nil, or_false] at hrest
    rcases hrest with h | h | h <;> simp [hempty, h]
  · rw [if_neg (show ¬ NamesNoRange (trim entry) from not_or.mpr ⟨hempty, hrest⟩)]
    simp only [map_cons, map_nil, mem_cons, not_mem_nil, or_false, not_or] at hrest
    obtain ⟨h₁, h₂, h₃⟩ := hrest
    simp [hempty, h₁, h₂, h₃]

/-- The number of a network, which may have AS in front. -/
def asnNumber (entry : String) : Option String :=
  let v := behindColon (trim entry)
  let digits := if startsWithIgnoreCase v "as" then trim (ofList (v.toList.drop 2)) else v
  if digits ≠ "" ∧ digits.toList.all (fun c => (digitToIntOrNull c).isSome) = true then some digits
    else none

/-! ## Ports -/

def isPortSeparator (c : Char) : Bool := c = ',' || c = ';' || c = ' ' || c = '\n'

def isRangeMark (c : Char) : Bool := c = ':' || c = '-'

/-- What one token asks: a number, or two numbers with a mark between them. -/
def tokenQuestions (single range : String) (token : List Char) : List Question :=
  match (trimChars token).span fun c => !isRangeMark c with
  | (number, []) => ((toIntOrNull (ofList number)).map fun n => (single, toString n)).toList
  | (low, _ :: high) =>
    if high.all (fun c => !isRangeMark c) && (toIntOrNull (trim (ofList low))).isSome &&
        (toIntOrNull (trim (ofList high))).isSome then
      [(range, trim (ofList low) ++ ":" ++ trim (ofList high))]
    else []

/-- What a text of ports asks. -/
def portQuestions (single range raw : String) : List Question :=
  (raw.toList.splitOnP isPortSeparator).flatMap (tokenQuestions single range)

/-- What is emitted for it. -/
def emittedPorts (single range raw : String) : List Question :=
  (singlePorts raw).map (fun n => (single, toString n)) ++ (portRanges raw).map (range, ·)

theorem isPortRange_iff (token : String) :
    isPortRange token = true ↔ ∃ c ∈ token.toList, isRangeMark c = true := by
  have hcolon : contains token ":" = true ↔ ':' ∈ token.toList := contains_char rfl
  have hdash : contains token "-" = true ↔ '-' ∈ token.toList := contains_char rfl
  rw [isPortRange, Bool.or_eq_true, hcolon, hdash]
  simp [isRangeMark, and_or_left, exists_or]

/-- What is not split has no separator in it. -/
theorem not_of_splitOnP_singleton {p : Char → Bool} {cs l : List Char} (h : cs.splitOnP p = [l]) :
    ∀ c ∈ cs, p c = false := by
  induction cs generalizing l with
  | nil => simp
  | cons c cs ih =>
    rw [splitOnP_cons_eq_if_modifyHead] at h
    split_ifs at h with hc
    · exact absurd (cons.inj h).2 (splitOnP_ne_nil _ _)
    · cases hrest : cs.splitOnP p with
      | nil => exact absurd hrest (splitOnP_ne_nil _ _)
      | cons first rest =>
        rw [hrest, modifyHead_cons] at h
        obtain rfl := (cons.inj h).2
        exact forall_mem_cons.mpr ⟨by simpa using hc, ih hrest⟩

/-- A token of the client's, and one as it was written. -/
theorem mem_tokenQuestions {single range : String} {token : List Char} {q : Question} :
    q ∈ tokenQuestions single range token ↔
      (isPortRange (trim (ofList token)) = false ∧
        ∃ n, toIntOrNull (trim (ofList token)) = some n ∧ q = (single, toString n)) ∨
      isPortRange (trim (ofList token)) = true ∧ ∃ low high,
        (splitWhere isRangeMark (trim (ofList token))).map trim = [low, high] ∧
          ((toIntOrNull low).isSome = true ∧ (toIntOrNull high).isSome = true) ∧
            q = (range, low ++ ":" ++ high) := by
  have hrange := isPortRange_iff (trim (ofList token))
  rw [trim_ofList, String.toList_ofList] at hrange
  rw [tokenQuestions, trim_ofList, splitWhere, String.toList_ofList]
  generalize trimChars token = cs at hrange ⊢
  rw [span_eq_takeWhile_dropWhile]
  cases hdrop : cs.dropWhile fun c => !isRangeMark c with
  | nil =>
    have hnone : ∀ c ∈ cs, isRangeMark c = false := by
      simpa using dropWhile_eq_nil_iff.mp hdrop
    have hplain : isPortRange (ofList cs) = false := by
      rw [← Bool.not_eq_true, hrange]
      rintro ⟨c, hc, hmark⟩
      rw [hnone c hc] at hmark
      cases hmark
    have htake : (cs.takeWhile fun c => !isRangeMark c) = cs := by
      simpa [hdrop] using takeWhile_append_dropWhile (p := fun c => !isRangeMark c) (l := cs)
    simp only [htake, hplain, Option.mem_toList, Option.map_eq_some_iff, true_and,
      Bool.false_eq_true, false_and, or_false]
    exact exists_congr fun n => and_congr_right' eq_comm
  | cons m high =>
    have hcs := takeWhile_append_dropWhile (p := fun c => !isRangeMark c) (l := cs)
    rw [hdrop] at hcs
    have hmark : isRangeMark m = true := by
      simpa [hdrop] using head_dropWhile_not (fun c => !isRangeMark c) (l := cs) (by simp [hdrop])
    have hlow : ∀ c ∈ cs.takeWhile fun c => !isRangeMark c, isRangeMark c = false :=
      fun c hc => by simpa using mem_takeWhile_imp hc
    generalize cs.takeWhile (fun c => !isRangeMark c) = low at hcs hlow ⊢
    subst hcs
    have hmarked : isPortRange (ofList (low ++ m :: high)) = true :=
      hrange.mpr ⟨m, mem_append_right _ mem_cons_self, hmark⟩
    rw [hmarked, splitOnP_append_cons_of_forall_mem (by simpa using hlow) m hmark]
    simp only [Bool.true_eq_false, false_and, false_or, true_and, map_cons]
    by_cases hhigh : ∀ c ∈ high, isRangeMark c = false
    · have hall : (high.all fun c => !isRangeMark c) = true := by simpa using hhigh
      rw [splitOnP_eq_singleton hhigh, hall, Bool.true_and]
      simp only [map_cons, map_nil, cons.injEq, and_true]
      constructor
      · intro hq
        split_ifs at hq with hints
        · exact ⟨_, _, ⟨rfl, rfl⟩, by simpa using hints, mem_singleton.mp hq⟩
        · cases hq
      · rintro ⟨_, _, ⟨rfl, rfl⟩, hints, rfl⟩
        rw [if_pos (by simpa using hints)]
        exact mem_singleton_self _
    · -- a second mark: three parts or more
      have hall : (high.all fun c => !isRangeMark c) = false := by
        simpa using hhigh
      rw [hall]
      simp only [Bool.false_and, Bool.false_eq_true, if_false, not_mem_nil, false_iff]
      rintro ⟨l, h, hparts, -⟩
      refine hhigh ?_
      cases hsplit : high.splitOnP isRangeMark with
      | nil => exact absurd hsplit (splitOnP_ne_nil _ _)
      | cons first rest =>
        rw [hsplit] at hparts
        obtain ⟨-, -, rfl⟩ : _ ∧ _ ∧ rest = [] := by simpa using hparts
        exact not_of_splitOnP_singleton hsplit

/-- The ports that are emitted are those that were written. -/
theorem mem_emittedPorts {single range raw : String} {q : Question} :
    q ∈ emittedPorts single range raw ↔ q ∈ portQuestions single range raw := by
  have htokens : ∀ token, token ∈ portTokens raw ↔
      (∃ chars ∈ raw.toList.splitOnP isPortSeparator, trim (ofList chars) = token) ∧
        token ≠ "" := by
    intro token
    have hsplit : (splitWhere (fun c => c = ',' || c = ';' || c = ' ' || c = '\n') raw) =
        (raw.toList.splitOnP isPortSeparator).map ofList := rfl
    simp [portTokens, hsplit]
  rw [emittedPorts, portQuestions, mem_append, mem_flatMap]
  constructor
  · rintro (h | h)
    · obtain ⟨n, hn, rfl⟩ := mem_map.mp h
      obtain ⟨token, htoken, hread⟩ := mem_filterMap.mp hn
      obtain ⟨⟨chars, hchars, rfl⟩, -⟩ := (htokens token).mp htoken
      split_ifs at hread with hrange
      exact ⟨chars, hchars, mem_tokenQuestions.mpr (.inl ⟨by simpa using hrange, n, hread, rfl⟩)⟩
    · obtain ⟨text, htext, rfl⟩ := mem_map.mp h
      obtain ⟨token, htoken, hread⟩ := mem_filterMap.mp htext
      obtain ⟨⟨chars, hchars, rfl⟩, -⟩ := (htokens token).mp htoken
      split_ifs at hread with hrange
      split at hread
      · rename_i low high hparts
        split_ifs at hread with hints
        obtain rfl := Option.some.inj hread
        exact ⟨chars, hchars, mem_tokenQuestions.mpr
          (.inr ⟨hrange, low, high, hparts, by simpa using hints, rfl⟩)⟩
      · cases hread
  · rintro ⟨chars, hchars, hq⟩
    rcases mem_tokenQuestions.mp hq with ⟨hrange, n, hn, rfl⟩ | ⟨hrange, low, high,
        hparts, hints, rfl⟩
    · have hne : trim (ofList chars) ≠ "" := by
        intro hempty
        rw [hempty, show toIntOrNull "" = none by decide] at hn
        cases hn
      refine .inl (mem_map.mpr ⟨n, mem_filterMap.mpr ⟨_, (htokens _).mpr
        ⟨⟨chars, hchars, rfl⟩, hne⟩, ?_⟩, rfl⟩)
      rw [if_neg (by rw [hrange]; exact Bool.false_ne_true), hn]
    · have hne : trim (ofList chars) ≠ "" := by
        intro hempty
        rw [hempty] at hrange
        exact absurd hrange (by decide)
      refine .inr (mem_map.mpr ⟨low ++ ":" ++ high, mem_filterMap.mpr ⟨_, (htokens _).mpr
        ⟨⟨chars, hchars, rfl⟩, hne⟩, ?_⟩, rfl⟩)
      have hmarks : (fun c : Char => decide (c = ':') || decide (c = '-')) = isRangeMark := rfl
      rw [if_pos hrange, hmarks, hparts]
      simp [hints]

end OlcVpn.SingBoxRouting
