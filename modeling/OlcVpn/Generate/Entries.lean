/-
  HOW THE TWO CORES READ ONE SITE ENTRY.

  The client hands Xray the entry as it is written, and translates it for sing-box.  The two
  readings of a value behind a scheme, and of a bare entry, are written down here by the form of the
  entry (`Scheme.xray`, `Scheme.singBox`, `underValue`), and the generators and cores are shown to
  read entries that way (`xrayEntry_scheme`, `singBoxSite_scheme`, `readings_bare`).

  ** Results **
    • `apart_iff`: on which names an entry is read apart;
    • `entry_agrees_iff`: the forms that are read apart on no name.  The crux is `differs_of_ne`:
      two readings of different texts differ on one of the two texts itself;
    • `xrayReads_iff`, `selectorLoads_iff`: which entries a core refuses to load.
-/
import OlcVpn.Generate.Cores
import OlcVpn.Kotlin.Lines

namespace OlcVpn.Cores

open Kotlin Generate Lib
open Bool (eq_false_iff)
open String (toList_append)

/-! ## Texts -/

theorem any_congr_mem {α : Type} {l : List α} {p q : α → Bool} (h : ∀ x ∈ l, p x = q x) :
    l.any p = l.any q := by
  rw [Bool.eq_iff_iff, List.any_eq_true, List.any_eq_true]
  exact exists_congr fun x => and_congr_right fun hx => by rw [h x hx]

theorem endsWith_iff (text ending : String) :
    endsWith text ending = true ↔ ending.toList <:+ text.toList := by
  simp [endsWith]

/-- A text that starts with one word starts with no other word, unless one word starts the other. -/
theorem startsWith_append_of_apart {word other : String} (v : String)
    (h : startsWith word other = false) (h' : startsWith other word = false) :
    startsWith (word ++ v) other = false := by
  rw [eq_false_iff]
  intro hstart
  simp only [startsWith, List.isPrefixOf_iff_prefix, toList_append] at hstart
  rcases List.prefix_or_prefix_of_prefix hstart (List.prefix_append _ _) with hp | hp
  · rw [startsWith, List.isPrefixOf_iff_prefix.mpr hp] at h
    cases h
  · rw [startsWith, List.isPrefixOf_iff_prefix.mpr hp] at h'
    cases h'

theorem startsWithIgnoreCase_append_of_apart {word other : String} (v : String)
    (hword : word.toList.map foldAscii = word.toList)
    (h : startsWith word other = false) (h' : startsWith other word = false) :
    startsWithIgnoreCase (word ++ v) other = false := by
  have hapart := startsWith_append_of_apart (String.ofList (v.toList.map foldAscii)) h h'
  rw [startsWithIgnoreCase, toList_append, List.map_append, hword]
  simpa [startsWith] using hapart

theorem contains_of_append (before text after : String) :
    contains (before ++ text ++ after) text = true := by
  rw [contains_iff_isInfix, toList_append, toList_append]
  exact ⟨_, _, rfl⟩

theorem length_trim_le (v : String) : (trim v).toList.length ≤ v.toList.length := by
  rw [toList_trim]
  exact (trimChars_isInfix _).length_le

section Lower

variable (S : Semantics) {s t : String}

/-- A name as the cores look at it. -/
structure IsName (name : String) : Prop where
  lower : S.lower name = name
  ne : name ≠ ""

theorem lower_eq_self_iff : S.lower s = s ↔ ∀ c ∈ s.toList, S.lowerChar c = c := by
  rw [Semantics.lower, ← String.toList_inj, String.toList_ofList]
  conv_lhs => rhs; rw [← List.map_id s.toList]
  exact List.map_inj_left

@[simp] theorem lower_lower (s : String) : S.lower (S.lower s) = S.lower s := by
  rw [lower_eq_self_iff]
  intro c hc
  rw [Semantics.lower, String.toList_ofList, List.mem_map] at hc
  obtain ⟨d, -, rfl⟩ := hc
  exact S.lowerChar_lowerChar d

theorem length_lower (s : String) : (S.lower s).toList.length = s.toList.length := by
  rw [Semantics.lower, String.toList_ofList, List.length_map]

/-- What occurs in a name has no capital letter. -/
theorem lower_of_infix (hname : S.lower t = t) (h : s.toList <:+: t.toList) : S.lower s = s :=
  (lower_eq_self_iff S).mpr fun c hc => (lower_eq_self_iff S).mp hname c (h.subset hc)

/-- A longer name in lower case is a name. -/
theorem isName_append {name : String} (h : S.lower name = name) {before : String}
    (hne : before ≠ "") (hbefore : S.lower before = before) : IsName S (before ++ name) where
  lower := by
    rw [lower_eq_self_iff] at h hbefore ⊢
    intro c hc
    rw [toList_append] at hc
    exact (List.mem_append.mp hc).elim (hbefore c) (h c)
  ne := by
    intro hnil
    have hlist := congrArg String.toList hnil
    rw [toList_append] at hlist
    exact hne (String.toList_injective (List.append_eq_nil_iff.mp hlist).1)

theorem lower_x : S.lower "x" = "x" :=
  (lower_eq_self_iff S).mpr (by simp [S.lowerChar_ascii 'x' (by decide)])

/-- A value in lower case with nothing to trim is its own lower case. -/
theorem trim_of_lower_eq {v : String} (h : S.lower v = trim v) : trim v = v := by
  have hlength : (trim v).toList.length = v.toList.length := by rw [← h, length_lower]
  have hin : (trim v).toList <:+: v.toList := by
    rw [toList_trim]
    exact trimChars_isInfix _
  exact String.toList_injective (hin.eq_of_length hlength)

/-- TWO READINGS OF A VALUE, one of its lower case and one of the trimmed value, that each find
    the text itself and find nothing without the text, differ unless the texts are the same. -/
theorem differs_of_ne {v : String} {x y : String → Bool} (hne : S.lower v ≠ trim v)
    (hblank : trim v ≠ "") (hx : x (S.lower v) = true) (hy : y (trim v) = true)
    (hxin : ∀ name, x name = true → (S.lower v).toList <:+: name.toList)
    (hyin : ∀ name, y name = true → (trim v).toList <:+: name.toList) :
    ∃ name, IsName S name ∧ x name ≠ y name := by
  by_cases hlower : S.lower (trim v) = trim v
  · -- the trimmed value is a name that is too short for the other reading
    refine ⟨trim v, ⟨hlower, hblank⟩, fun heq => hne ?_⟩
    have hin := hxin _ (heq.trans hy)
    refine String.toList_injective (hin.eq_of_length (le_antisymm hin.length_le ?_))
    rw [length_lower]
    exact length_trim_le v
  · -- the trimmed value has a capital letter, and no name has
    refine ⟨S.lower v, ⟨lower_lower S v, fun hnil => ?_⟩, fun heq => hlower ?_⟩
    · have hlength := length_trim_le v
      rw [← length_lower S v, hnil] at hlength
      exact hblank (String.toList_injective (List.length_eq_zero_iff.mp (Nat.le_zero.mp hlength)))
    · exact lower_of_infix S (lower_lower S v) (hyin _ (heq.symm.trans hx))

end Lower

/-! ## The forms of a site entry -/

/-- The schemes of a site entry that name no downloaded set. -/
inductive Scheme where
  | domain | full | keyword | regexp | regex
  deriving DecidableEq, Repr

def Scheme.text : Scheme → String
  | .domain => "domain:"
  | .full => "full:"
  | .keyword => "keyword:"
  | .regexp => "regexp:"
  | .regex => "regex:"

/-- An entry, trimmed: blank, a value behind a scheme, or a bare name. -/
inductive SiteForm : String → Prop
  | blank : SiteForm ""
  | schemed (s : Scheme) (v : String) : SiteForm (s.text ++ v)
  | bare {v : String} (hne : v ≠ "") (hcolon : ':' ∉ v.toList)
      (hname : SingBoxRouting.isCidrOrIp v = false) : SiteForm v

/-- An entry of an address list that names no downloaded set. -/
def AddressForm (entry : String) : Prop :=
  startsWithIgnoreCase (trim entry) "geoip:" = false ∧
    startsWithIgnoreCase (trim entry) "geosite:" = false

variable (S : Semantics)

/-- What Xray makes of a value behind a scheme. -/
def Scheme.xray (v name : String) : Scheme → Bool
  | .domain => isSubdomain (S.lower v) name
  | .full => name = S.lower v
  | .keyword => contains name (S.lower v)
  | .regexp => fits S v name
  | .regex => contains name (S.lower ("regex:" ++ v))

/-- The names sing-box finds under a value: those that end in it if it starts with a dot, else the
    name itself and its subdomains, and none under an empty one. -/
def underValue (v name : String) : Bool :=
  v ≠ "" && if startsWith v "." then endsWith name v else isSubdomain v name

/-- What sing-box makes of a trimmed value behind a scheme. -/
def Scheme.singBox (v name : String) : Scheme → Bool
  | .domain => underValue v name
  | .full => name = v
  | .keyword => contains name v
  | .regexp => fits S v name
  | .regex => fits S v name

/-- The values for which the two readings of a scheme are the same. -/
def Scheme.Agrees (v : String) : Scheme → Prop
  | .domain => trim v = v ∧ S.lower v = v ∧ v ≠ "" ∧ startsWith v "." = false
  | .full => trim v = v ∧ S.lower v = v
  | .keyword => trim v = v ∧ S.lower v = v
  | .regexp => ∀ name, IsName S name → fits S v name = fits S (trim v) name
  | .regex => ∀ name, IsName S name →
      contains name (S.lower ("regex:" ++ v)) = fits S (trim v) name

/-- The entries that mean the same to both cores. -/
def Agrees (entry : String) : Prop :=
  trim entry = "" ∨ ∃ (s : Scheme) (v : String), trim entry = s.text ++ v ∧ s.Agrees S v

/-- AN ENTRY IS READ APART ON A NAME: the two readings of its value are not the same, or it is bare
    and the name contains it without being under it, or the other way round. -/
inductive Apart (entry name : String) : Prop
  | schemed (s : Scheme) (v : String) (hentry : trim entry = s.text ++ v)
      (h : s.xray S v name ≠ s.singBox S (trim v) name)
  | bare (hne : trim entry ≠ "") (hcolon : ':' ∉ (trim entry).toList)
      (h : contains name (S.lower (trim entry)) ≠ underValue (trim entry) name)

/-! ## Reading an entry -/

/-- The words the two cores look for at the start of an entry. -/
def schemeWords : List String :=
  ["geosite:", "geoip:", "domain:", "full:", "keyword:", "regexp:", "regex:"]

variable (s : Scheme)

theorem words_apart : ∀ word ∈ schemeWords, s.text ≠ word →
    startsWith s.text word = false ∧ startsWith word s.text = false := by
  cases s <;> decide

variable (v : String)

theorem startsWith_scheme {word : String} (h : word ∈ schemeWords := by simp [schemeWords]) :
    startsWith (s.text ++ v) word = decide (s.text = word) := by
  by_cases heq : s.text = word
  · subst heq
    simp [startsWith]
  · rw [decide_eq_false heq]
    have hapart := words_apart s word h heq
    exact startsWith_append_of_apart v hapart.1 hapart.2

theorem startsWithIgnoreCase_scheme {word : String}
    (h : word ∈ schemeWords := by simp [schemeWords]) :
    startsWithIgnoreCase (s.text ++ v) word = decide (s.text = word) := by
  have hfold : s.text.toList.map foldAscii = s.text.toList := by cases s <;> decide
  by_cases heq : s.text = word
  · subst heq
    rw [decide_eq_true rfl]
    exact startsWithIgnoreCase_of_startsWith (by simp [startsWith]) hfold
  · rw [decide_eq_false heq]
    have hapart := words_apart s word h heq
    exact startsWithIgnoreCase_append_of_apart v hfold hapart.1 hapart.2

theorem scheme_append_ne : s.text ++ v ≠ "" := by
  intro h
  have hlist := congrArg String.toList h
  rw [toList_append] at hlist
  cases s <;> simp [Scheme.text] at hlist

theorem valueOf_scheme : SingBoxRouting.valueOf (s.text ++ v) = trim v := by
  cases s <;>
    simp [SingBoxRouting.valueOf, substringAfterOr, Scheme.text, cutAt, List.isPrefixOf]

/-- Without a colon there is no scheme. -/
theorem startsWith_of_no_colon {v word : String} (hv : ':' ∉ v.toList)
    (hword : word ∈ schemeWords) :
    startsWith v word = false ∧ startsWithIgnoreCase v word = false := by
  have hwords : ∀ word ∈ schemeWords, ':' ∈ word.toList := by decide
  have hcolon := hwords word hword
  constructor
  · rw [eq_false_iff]
    intro h
    rw [startsWith, List.isPrefixOf_iff_prefix] at h
    exact hv (h.subset hcolon)
  · rw [eq_false_iff]
    intro h
    obtain ⟨start, rest, hsplit, hfold⟩ := start_of_startsWithIgnoreCase h
    rw [← hfold] at hcolon
    obtain ⟨c, hc, hcc⟩ := List.mem_map.mp hcolon
    obtain rfl := eq_of_foldAscii (by decide) hcc
    exact hv (hsplit ▸ List.mem_append_left _ hc)

theorem xraySite_scheme (v domain : String) :
    xraySite S (s.text ++ v) domain = s.xray S v domain := by
  unfold xraySite
  rw [startsWith_scheme s v, startsWith_scheme s v, startsWith_scheme s v, startsWith_scheme s v]
  cases s <;> simp [Scheme.text, Scheme.xray, substringFrom]

/-- A bare entry is a keyword to Xray. -/
theorem xraySite_bare {v : String} (hcolon : ':' ∉ v.toList) (domain : String) :
    xraySite S v domain = contains domain (S.lower v) := by
  unfold xraySite
  simp [(startsWith_of_no_colon hcolon (show "regexp:" ∈ schemeWords by simp [schemeWords])).1,
    (startsWith_of_no_colon hcolon (show "domain:" ∈ schemeWords by simp [schemeWords])).1,
    (startsWith_of_no_colon hcolon (show "full:" ∈ schemeWords by simp [schemeWords])).1,
    (startsWith_of_no_colon hcolon (show "keyword:" ∈ schemeWords by simp [schemeWords])).1]

variable {entry : String}

theorem parseSite_scheme (h : trim entry = s.text ++ v) :
    SingBoxRouting.parseSite entry = some (match s with
      | .domain => SingBoxRouting.domainAndSubdomains (trim v)
      | .full => { domainExact := [trim v] }
      | .keyword => { domainKeyword := [trim v] }
      | .regexp => { domainRegex := [trim v] }
      | .regex => { domainRegex := [trim v] }) := by
  have hword : ∀ word ∈ schemeWords, startsWithIgnoreCase (s.text ++ v) word =
      decide (s.text = word) := fun word hmem => startsWithIgnoreCase_scheme s v hmem
  simp only [schemeWords, List.forall_mem_cons] at hword
  obtain ⟨h1, h2, h3, h4, h5, h6, h7, -⟩ := hword
  unfold SingBoxRouting.parseSite
  simp only [h, if_neg (scheme_append_ne s v), h1, h2, h3, h4, h5, h6, h7, valueOf_scheme]
  cases s <;> simp [Scheme.text]

theorem parseSite_bare (hne : trim entry ≠ "") (hcolon : ':' ∉ (trim entry).toList)
    (hname : SingBoxRouting.isCidrOrIp (trim entry) = false) :
    SingBoxRouting.parseSite entry = some (SingBoxRouting.domainAndSubdomains (trim entry)) := by
  have hword : ∀ word ∈ schemeWords, startsWithIgnoreCase (trim entry) word = false :=
    fun word hmem => (startsWith_of_no_colon hcolon hmem).2
  simp only [schemeWords, List.forall_mem_cons] at hword
  obtain ⟨h1, h2, h3, h4, h5, h6, h7, -⟩ := hword
  unfold SingBoxRouting.parseSite
  simp [hne, h1, h2, h3, h4, h5, h6, h7, hname]

/-! ## One entry -/

/-- `selectorMatches` on a name with subdomains. -/
theorem matches_domainAndSubdomains (v name : String) :
    selectorMatches S (SingBoxRouting.domainAndSubdomains v) name = underValue (trim v) name := by
  unfold SingBoxRouting.domainAndSubdomains underValue
  by_cases hblank : trim v = ""
  · simp [hblank, selectorMatches]
  · cases hdot : startsWith (trim v) "." <;>
      simp [hblank, hdot, selectorMatches, isSubdomain, Bool.or_comm]

/-- THE GENERATED SELECTOR reads an entry with a scheme as `Scheme.singBox` says. -/
theorem singBoxSite_scheme (h : trim entry = s.text ++ v)
    (name : String) : singBoxSite S entry name = s.singBox S (trim v) name := by
  rw [singBoxSite, parseSite_scheme s v h, Option.any_some]
  cases s with
  | domain => rw [matches_domainAndSubdomains, trim_trim]; rfl
  | full | keyword | regexp | regex => simp [Scheme.singBox, selectorMatches]

/-- A value behind the scheme of a trimmed entry has something to trim only in front. -/
theorem value_of_blank (h : trim entry = s.text ++ v) (hblank : trim v = "") : v = "" := by
  by_contra hne
  have hlist : v.toList ≠ [] := fun hnil => hne (String.toList_injective hnil)
  have htrimmed := (trimmed_trim entry).2
  rw [h, toList_append] at htrimmed
  have hlast := htrimmed (v.toList.getLast hlist)
    (by rw [List.getLast?_append_of_ne_nil _ hlist, List.getLast?_eq_some_getLast hlist]; rfl)
  have hmem := mem_trim_of_mem hlast (List.getLast_mem hlist)
  rw [hblank] at hmem
  cases hmem

/-- A dotted name ends no text of its own length but itself. -/
theorem endsWith_dotted : endsWith ("x" ++ v) ("." ++ v) = false := by
  rw [eq_false_iff]
  intro h
  rw [endsWith_iff, toList_append, toList_append] at h
  have heq := h.eq_of_length (by simp)
  simp at heq

theorem isSubdomain_self : isSubdomain v v = true := by simp [isSubdomain]

theorem infix_of_isSubdomain {v name : String} (h : isSubdomain v name = true) :
    v.toList <:+: name.toList := by
  rw [isSubdomain, Bool.or_eq_true, decide_eq_true_eq, endsWith_iff, toList_append] at h
  rcases h with rfl | h
  · exact List.infix_rfl
  · exact (List.suffix_append _ _).isInfix.trans h.isInfix

/-- What is under a value holds the value, and the value is under itself. -/
theorem underValue_self (hne : v ≠ "") : underValue v v = true := by
  rw [underValue, decide_eq_true hne, Bool.true_and]
  split_ifs
  · rw [endsWith_iff]
  · exact isSubdomain_self v

/-- A name under a value contains it. -/
theorem infix_of_underValue {v name : String} (h : underValue v name = true) :
    v.toList <:+: name.toList := by
  rw [underValue, Bool.and_eq_true] at h
  have h := h.2
  split_ifs at h
  · exact ((endsWith_iff _ _).mp h).isInfix
  · exact infix_of_isSubdomain h

/-- `domain:`. -/
theorem domain_agrees_iff (hv : trim v = "" → v = "") :
    (∀ name, IsName S name → isSubdomain (S.lower v) name = underValue (trim v) name) ↔
      trim v = v ∧ S.lower v = v ∧ v ≠ "" ∧ startsWith v "." = false := by
  constructor
  · intro h
    by_cases hsame : S.lower v = trim v
    · have htrim := trim_of_lower_eq S hsame
      rw [htrim] at hsame h
      rw [hsame] at h
      have hdots : S.lower "x." = "x." :=
        (lower_eq_self_iff S).mpr (by simp [S.lowerChar_ascii 'x' (by decide),
          S.lowerChar_ascii '.' (by decide)])
      refine ⟨htrim, hsame, ?_, ?_⟩
      · rintro rfl
        -- every name that ends in a dot is a subdomain of nothing
        exact absurd (h "x." ⟨hdots, by decide⟩) (by decide)
      · rw [eq_false_iff]
        intro hdot
        -- a letter before the dot
        have hself := h ("x" ++ v) (isName_append S hsame (by decide) (lower_x S))
        have hend : endsWith ("x" ++ v) v = true := by
          rw [endsWith_iff, toList_append]
          exact List.suffix_append _ _
        have hne : v ≠ "" := by
          rintro rfl
          exact absurd hdot (by decide)
        simp [underValue, hne, hdot, hend, isSubdomain, endsWith_dotted] at hself
    · exfalso
      have hblank : trim v ≠ "" := by
        intro hblank
        obtain rfl := hv hblank
        exact hsame rfl
      obtain ⟨name, hname, hdiffers⟩ := differs_of_ne S hsame hblank
        (isSubdomain_self (S.lower v)) (underValue_self (trim v) hblank)
        (fun name => infix_of_isSubdomain) (fun name => infix_of_underValue)
      exact hdiffers (h name hname)
  · rintro ⟨htrim, hlower, hne, hdot⟩ name -
    rw [htrim, hlower, underValue, hdot]
    simp [hne]

/-- A reading of lower case against the trimmed value, where the same value is read the same. -/
theorem plain_agrees_iff {read : String → String → Bool} (hv : trim v = "" → v = "")
    (hself : ∀ w, read w w = true)
    (hin : ∀ w name, read w name = true → w.toList <:+: name.toList) :
    (∀ name, IsName S name → read (S.lower v) name = read (trim v) name) ↔
      trim v = v ∧ S.lower v = v := by
  constructor
  · intro h
    by_cases hsame : S.lower v = trim v
    · have htrim := trim_of_lower_eq S hsame
      exact ⟨htrim, hsame.trans htrim⟩
    · exfalso
      have hblank : trim v ≠ "" := by
        intro hblank
        obtain rfl := hv hblank
        exact hsame rfl
      obtain ⟨name, hname, hdiffers⟩ := differs_of_ne S hsame hblank (hself _) (hself _) (hin _)
        (hin _)
      exact hdiffers (h name hname)
  · rintro ⟨htrim, hlower⟩ name -
    rw [htrim, hlower]

/-- A scheme is read alike exactly for its agreeing values. -/
theorem scheme_agrees_iff (hv : trim v = "" → v = "") :
    (∀ name, IsName S name → s.xray S v name = s.singBox S (trim v) name) ↔ s.Agrees S v := by
  cases s with
  | domain => exact domain_agrees_iff S v hv
  | full =>
    exact @plain_agrees_iff S v (fun w name => name = w) hv (by simp) (by
      intro w name h
      rw [of_decide_eq_true h])
  | keyword =>
    exact @plain_agrees_iff S v (fun w name => contains name w) hv
      (by simp [contains_iff_isInfix]) (fun w name => (contains_iff_isInfix name w).mp)
  | regexp | regex => exact Iff.rfl

/-- A bare name: there is always a name that contains it and is not under it. -/
theorem bare_differs {v : String} (htrim : trim v = v) (hne : v ≠ "") :
    ∃ name, IsName S name ∧ contains name (S.lower v) ≠ underValue v name := by
  by_cases hlower : S.lower v = v
  · rw [hlower]
    by_cases hdot : startsWith v "." = true
    · have hname : IsName S (v ++ "x") := by
        refine isName_append S (lower_x S) hne hlower
      refine ⟨v ++ "x", hname, ?_⟩
      have hcontains : contains (v ++ "x") v = true := by
        have h := contains_of_append "" v "x"
        simpa using h
      have hend : endsWith (v ++ "x") v = false := by
        rw [eq_false_iff]
        intro h
        rw [startsWith, List.isPrefixOf_iff_prefix] at hdot
        obtain ⟨w, hw⟩ := hdot
        have hv : v.toList = '.' :: w := hw.symm
        rw [endsWith_iff, toList_append, hv] at h
        obtain ⟨t, ht⟩ := h
        -- one character is cut off at the front, so one dot less is left
        have hdots := congrArg (List.count '.') ht
        have hlength := congrArg List.length ht
        have hx : "x".toList = ['x'] := rfl
        rw [hx] at ht hdots hlength
        simp only [List.length_append, List.length_cons, List.length_nil] at hlength
        obtain ⟨c, rfl⟩ := List.length_eq_one_iff.mp (show t.length = 1 by omega)
        obtain rfl : c = '.' := (List.cons.inj ht).1
        simp at hdots
      simp [underValue, hne, hdot, hcontains, hend]
    · refine ⟨"x" ++ v, isName_append S hlower (by decide) (lower_x S), ?_⟩
      have hcontains : contains ("x" ++ v) v = true := by
        have h := contains_of_append "x" v ""
        simpa using h
      simp [underValue, hne, hdot, hcontains, isSubdomain, endsWith_dotted]
  · -- a capital letter is found in no name
    refine differs_of_ne S (v := v) (x := fun name => contains name (S.lower v)) (by rwa [htrim])
      (by rwa [htrim]) (by simp [contains_iff_isInfix]) ?_
      (fun name => (contains_iff_isInfix _ _).mp) (fun name h => ?_)
    · rw [htrim]
      exact underValue_self v hne
    · rw [htrim]
      exact infix_of_underValue h

/-- The names an entry matches for Xray; a blank entry is not emitted. -/
def xrayEntry (entry name : String) : Bool :=
  trim entry ≠ "" && xraySite S (trim entry) name

/-- And the core reads it as `Scheme.xray` says. -/
theorem xrayEntry_scheme (h : trim entry = s.text ++ v) (name : String) :
    xrayEntry S entry name = s.xray S v name := by
  rw [xrayEntry, h, xraySite_scheme, decide_eq_true (scheme_append_ne s v), Bool.true_and]

/-- What the two cores make of a bare entry. -/
theorem readings_bare (hne : trim entry ≠ "") (hcolon : ':' ∉ (trim entry).toList)
    (hname : SingBoxRouting.isCidrOrIp (trim entry) = false) (name : String) :
    xrayEntry S entry name = contains name (S.lower (trim entry)) ∧
      singBoxSite S entry name = underValue (trim entry) name := by
  constructor
  · rw [xrayEntry, xraySite_bare S hcolon, decide_eq_true hne, Bool.true_and]
  · rw [singBoxSite, parseSite_bare hne hcolon hname, Option.any_some,
      matches_domainAndSubdomains, trim_trim]

theorem colon_mem_scheme : ':' ∈ (s.text ++ v).toList := by
  rw [toList_append]
  exact List.mem_append_left _ (by cases s <;> decide)

/-- A scheme and what stands behind it are determined by the text. -/
theorem scheme_unique (s' : Scheme) {v' : String} (h : s.text ++ v = s'.text ++ v') :
    s = s' ∧ v = v' := by
  have hs : s = s' := by
    by_contra hne
    have hmem : s'.text ∈ schemeWords := by cases s' <;> simp [schemeWords, Scheme.text]
    have hstart := startsWith_scheme s v hmem
    rw [h] at hstart
    have hself : startsWith (s'.text ++ v') s'.text = true := by simp [startsWith]
    rw [hself] at hstart
    have htext := of_decide_eq_true hstart.symm
    revert htext hne
    cases s <;> cases s' <;> decide
  subst hs
  have hlist := congrArg String.toList h
  rw [toList_append, toList_append, List.append_cancel_left_eq] at hlist
  exact ⟨rfl, String.toList_injective hlist⟩

/-- ONE ENTRY AND ONE NAME: the two cores disagree exactly if the entry is read apart on it. -/
theorem apart_iff (h : SiteForm (trim entry)) {name : String} :
    xrayEntry S entry name ≠ singBoxSite S entry name ↔ Apart S entry name := by
  generalize htext : trim entry = text at h
  cases h with
  | blank =>
    refine iff_of_false (by simp [xrayEntry, singBoxSite, SingBoxRouting.parseSite, htext]) ?_
    rintro (⟨s, v, hentry, -⟩ | ⟨hne, -, -⟩)
    · exact scheme_append_ne s v (hentry.symm.trans htext)
    · exact hne htext
  | schemed s v =>
    rw [xrayEntry_scheme S s v htext, singBoxSite_scheme S s v htext]
    constructor
    · exact .schemed s v htext
    · rintro (⟨s', v', hentry, hdiffers⟩ | ⟨-, hcolon, -⟩)
      · obtain ⟨rfl, rfl⟩ := scheme_unique s v s' (htext.symm.trans hentry)
        exact hdiffers
      · exact absurd (colon_mem_scheme s v) (htext ▸ hcolon)
  | bare hne hcolon hname =>
    subst htext
    obtain ⟨hx, hy⟩ := readings_bare S hne hcolon hname name
    rw [hx, hy]
    constructor
    · exact .bare hne hcolon
    · rintro (⟨s, v, hentry, -⟩ | ⟨-, -, hdiffers⟩)
      · exact absurd (colon_mem_scheme s v) (hentry ▸ hcolon)
      · exact hdiffers

/-- ONE ENTRY is read apart on no name exactly if its form is an agreeing one. -/
theorem entry_agrees_iff (h : SiteForm (trim entry)) :
    (∀ name, IsName S name → ¬ Apart S entry name) ↔ Agrees S entry := by
  simp only [← apart_iff S h, not_not]
  have hscheme : ∀ (s : Scheme) (v : String), trim entry = s.text ++ v →
      ((∀ name, IsName S name → xrayEntry S entry name = singBoxSite S entry name) ↔
        s.Agrees S v) := by
    intro s v hentry
    rw [← scheme_agrees_iff S s v (value_of_blank s v hentry)]
    simp only [xrayEntry_scheme S s v hentry, singBoxSite_scheme S s v hentry]
  constructor
  · intro halike
    generalize htext : trim entry = text at h
    cases h with
    | blank => exact .inl htext
    | schemed s v => exact .inr ⟨s, v, htext, (hscheme s v htext).mp halike⟩
    | bare hne hcolon hname =>
      exfalso
      subst htext
      obtain ⟨name, hisName, hdiffers⟩ := bare_differs S (trim_trim entry) hne
      obtain ⟨hx, hy⟩ := readings_bare S hne hcolon hname name
      exact hdiffers (hx ▸ hy ▸ halike name hisName)
  · rintro (hblank | ⟨s, v, hentry, hagrees⟩)
    · intro name _
      simp [xrayEntry, singBoxSite, SingBoxRouting.parseSite, hblank]
    · exact (hscheme s v hentry).mpr hagrees

/-! ## Refused entries -/

/-- Xray refuses a pattern that is none. -/
def XrayRefuses (entry : String) : Prop :=
  ∃ v, trim entry = "regexp:" ++ v ∧ S.regex v = none

/-- sing-box refuses a pattern that is none, and an empty name. -/
def SingBoxRefuses (entry : String) : Prop :=
  ∃ v, (trim entry = "full:" ++ v ∧ trim v = "") ∨
    ((trim entry = "regexp:" ++ v ∨ trim entry = "regex:" ++ v) ∧ S.regex (trim v) = none)

/-- Xray loads every entry but these. -/
theorem xrayReads_iff (h : SiteForm (trim entry)) :
    (trim entry = "" ∨ xrayReads S (trim entry) = true) ↔ ¬ XrayRefuses S entry := by
  have hscheme : ∀ (s : Scheme) (v : String), xrayReads S (s.text ++ v) =
      if s = .regexp then (S.regex v).isSome else true := by
    intro s v
    unfold xrayReads
    rw [startsWith_scheme s v]
    cases s <;> simp [Scheme.text, substringFrom]
  generalize htext : trim entry = text at h
  cases h with
  | blank =>
    refine iff_of_true (.inl rfl) ?_
    rintro ⟨v, hentry, -⟩
    exact scheme_append_ne .regexp v (hentry.symm.trans htext)
  | schemed s v =>
    rw [hscheme, or_iff_right (scheme_append_ne s v)]
    constructor
    · rintro hreads ⟨v', hentry, hnone⟩
      obtain ⟨rfl, rfl⟩ := scheme_unique s v .regexp (htext.symm.trans hentry)
      rw [if_pos rfl, hnone] at hreads
      cases hreads
    · intro hnot
      split_ifs with hs
      · subst hs
        rw [Option.isSome_iff_ne_none]
        exact fun hnone => hnot ⟨v, htext, hnone⟩
      · rfl
  | bare hne hcolon hname =>
    refine iff_of_true (.inr ?_) ?_
    · unfold xrayReads
      rw [(startsWith_of_no_colon hcolon (by simp [schemeWords])).1]
      rfl
    · rintro ⟨v, hentry, -⟩
      have htext : text = Scheme.regexp.text ++ v := htext.symm.trans hentry
      exact absurd (colon_mem_scheme .regexp v) (htext ▸ hcolon)

theorem selectorLoads_under (v : String) :
    selectorLoads S (SingBoxRouting.domainAndSubdomains v) = true := by
  unfold SingBoxRouting.domainAndSubdomains
  by_cases hblank : trim v = ""
  · simp [hblank, selectorLoads]
  · have hdotted : "." ++ trim v ≠ "" := by
      intro hnil
      have hlist := congrArg String.toList hnil
      simp at hlist
    cases hdot : startsWith (trim v) "." <;> simp [hblank, hdot, selectorLoads, hdotted]

/-- And sing-box every selector but these. -/
theorem selectorLoads_iff (h : SiteForm (trim entry)) :
    (∀ s ∈ SingBoxRouting.parseSite entry, selectorLoads S s = true) ↔
      ¬ SingBoxRefuses S entry := by
  generalize htext : trim entry = text at h
  cases h with
  | blank =>
    refine iff_of_true (by simp [SingBoxRouting.parseSite, htext]) ?_
    rintro ⟨v, ⟨hentry, -⟩ | ⟨hentry | hentry, -⟩⟩
    · exact scheme_append_ne .full v (hentry.symm.trans htext)
    · exact scheme_append_ne .regexp v (hentry.symm.trans htext)
    · exact scheme_append_ne .regex v (hentry.symm.trans htext)
  | schemed s v =>
    rw [parseSite_scheme s v htext]
    have hunique : ∀ (s' : Scheme) (v' : String), trim entry = s'.text ++ v' → s = s' ∧ v = v' :=
      fun s' v' hentry => scheme_unique s v s' (htext.symm.trans hentry)
    have hforms : SingBoxRefuses S entry ↔ (s = .full ∧ trim v = "") ∨
        ((s = .regexp ∨ s = .regex) ∧ S.regex (trim v) = none) := by
      constructor
      · rintro ⟨v', ⟨hentry, hblank⟩ | ⟨hentry | hentry, hnone⟩⟩
        · obtain ⟨rfl, rfl⟩ := hunique .full v' hentry
          exact .inl ⟨rfl, hblank⟩
        · obtain ⟨rfl, rfl⟩ := hunique .regexp v' hentry
          exact .inr ⟨.inl rfl, hnone⟩
        · obtain ⟨rfl, rfl⟩ := hunique .regex v' hentry
          exact .inr ⟨.inr rfl, hnone⟩
      · rintro (⟨rfl, hblank⟩ | ⟨rfl | rfl, hnone⟩)
        · exact ⟨v, .inl ⟨htext, hblank⟩⟩
        · exact ⟨v, .inr ⟨.inl htext, hnone⟩⟩
        · exact ⟨v, .inr ⟨.inr htext, hnone⟩⟩
    rw [hforms]
    cases s with
    | domain => simp [selectorLoads_under]
    | full => simp [selectorLoads]
    | keyword => simp [selectorLoads]
    | regexp | regex => simp [selectorLoads, Option.isSome_iff_ne_none]
  | bare hne hcolon hname =>
    subst htext
    rw [parseSite_bare hne hcolon hname]
    refine iff_of_true (by simp [selectorLoads_under]) ?_
    rintro ⟨v, ⟨hentry, -⟩ | ⟨hentry | hentry, -⟩⟩
    · exact absurd (colon_mem_scheme .full v) (hentry ▸ hcolon)
    · exact absurd (colon_mem_scheme .regexp v) (hentry ▸ hcolon)
    · exact absurd (colon_mem_scheme .regex v) (hentry ▸ hcolon)

end OlcVpn.Cores
