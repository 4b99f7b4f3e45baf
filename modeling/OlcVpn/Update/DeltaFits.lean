/-
  DOES THE OFFERED PATCH FIT THE INSTALLED BUILD?

  Patches are published as `YPtun-delta-<from>-<to>-<target>[-<16 hex>].patch[.gz]`, with version
  numbers of digits and dots and a target that is an ABI, `<os>-<arch>` or `universal`.
  `selectDeltaAsset` does not read such a name apart: it asks whether the two version numbers OCCUR
  in it and whether a target occurs in it, and takes a patch with the right hash or a lone patch
  without asking for a target at all.

  ** Where an occurrence is not the part that was meant **
    • a version inside a longer one ("3.5.1" in "3.5.10"), or only in the other version's place;
    • `x86` inside `x86_64`;
    • an architecture inside the target of another system ("amd64" in "linux-amd64").

  There is no other way: a version number occurs nowhere but in the two versions
  (`version_occurs`), and an architecture nowhere but in the target (`token_occurs`).

  THE RESULT, `delta_fits_iff`: the offered patch fits exactly if no patch that can be offered is
  misread in one of these ways, and one that was not asked for its target has the right one.
-/
import OlcVpn.Update.RunsHere

namespace OlcVpn.Update

open Kotlin List
open Share (isHexDigit isLowerHex lowercase_hex lowercaseChar_hex)
open Locations (utf16Length)
open Lib (narrow)

/-! ## Words of a joined text -/

section Joined

variable {α : Type} {c d : α} {w front rest : List α}

/-- A word without the separator lies on one side of it. -/
theorem infix_of_infix_joined (hw : c ∉ w) (h : w <:+: front ++ c :: rest) :
    w <:+: front ∨ w <:+: rest := by
  obtain ⟨before, after, h⟩ := h
  rw [append_assoc, append_eq_append_iff] at h
  rcases h with ⟨middle, hfront, h⟩ | ⟨middle, -, h⟩
  · -- the word starts in front of the separator, so it ends there too
    rcases append_eq_append_iff.mp h with ⟨tail, rfl, -⟩ | ⟨tail, hw', h⟩
    · exact .inl ⟨before, tail, by rw [hfront, append_assoc]⟩
    · cases tail with
      | nil => exact .inl ⟨before, [], by rw [hfront, hw', append_nil, append_nil]⟩
      | cons x tail =>
        obtain ⟨rfl, -⟩ := cons.inj h
        exact absurd (hw' ▸ mem_append_right middle mem_cons_self) hw
  · cases middle with
    | nil =>
      cases w with
      | nil => exact .inl nil_infix
      | cons x w => exact absurd (by rw [(cons.inj h).1]; exact mem_cons_self) hw
    | cons x middle => exact .inr ⟨middle, after, by rw [append_assoc]; exact (cons.inj h).2.symm⟩

/-- What follows a separator follows the first one or a later one. -/
theorem infix_pair_joined (hfront : c ∉ front) (h : [c, d] <:+: front ++ c :: rest) :
    rest.head? = some d ∨ [c, d] <:+: rest := by
  induction front with
  | nil =>
    rcases infix_cons_iff.mp h with hpre | hinf
    · rw [cons_prefix_cons] at hpre
      obtain ⟨tail, htail⟩ := hpre.2
      exact .inl (by rw [← htail]; rfl)
    · exact .inr hinf
  | cons x front ih =>
    rw [mem_cons, not_or] at hfront
    rcases infix_cons_iff.mp h with hpre | hinf
    · rw [cons_prefix_cons] at hpre
      exact absurd hpre.1 hfront.1
    · exact ih hfront.2 hinf

end Joined

/-! ## Names of the convention -/

/-- A version number: digits and dots, with a digit behind some dot. -/
structure IsVersion (s : String) : Prop where
  digits : (s.toList.all fun c => c.isDigit || c == '.') = true
  dotted : ∃ d, d.isDigit = true ∧ ['.', d] <:+: s.toList

/-- The systems a desktop patch can be for. -/
inductive DesktopOs where
  | windows | linux | macos
  deriving DecidableEq

instance : Fintype DesktopOs :=
  Fintype.ofList [.windows, .linux, .macos] (by intro os; cases os <;> decide)

def DesktopOs.text : DesktopOs → String
  | windows => "windows"
  | linux => "linux"
  | macos => "macos"

/-- What a patch is for: a universal package, one ABI, or a desktop system on one architecture. -/
inductive DeltaTarget where
  | universal
  | abi (token : AbiToken)
  | desktop (os : DesktopOs) (arch : AbiToken)
  deriving DecidableEq

def DeltaTarget.text : DeltaTarget → String
  | universal => "universal"
  | abi token => token.text
  | desktop os arch => os.text ++ "-" ++ arch.text

/-- The parts of a patch's name. -/
structure DeltaName where
  old : String
  new : String
  target : DeltaTarget
  tag : Option String := none
  zipped : Bool := false
  old_version : IsVersion old
  new_version : IsVersion new
  tag_hex : ∀ t, tag = some t → t.toList.length = 16 ∧ ∀ c ∈ t.toList, isHexDigit c = true

namespace DeltaName

/-- The name up to its tag. -/
def stem (n : DeltaName) : String :=
  "YPtun-delta-" ++ n.old ++ "-" ++ n.new ++ "-" ++ n.target.text

def text (n : DeltaName) : String :=
  n.stem ++ (n.tag.elim "" fun t => "-" ++ t) ++ (if n.zipped then ".patch.gz" else ".patch")

end DeltaName

theorem lowercase_append (s t : String) : lowercase (s ++ t) = lowercase s ++ lowercase t := by
  simp [lowercase, String.ofList_append]

/-- What stands in front of the right ending is read as the hash. -/
theorem hashBefore_append {before digits ending : List Char} (hlength : digits.length = 16)
    (hhex : digits.all isLowerHex = true) :
    hashBefore (before ++ '-' :: digits ++ ending) ending = some (String.ofList digits) := by
  have hbody : (before ++ '-' :: digits ++ ending).take
      ((before ++ '-' :: digits ++ ending).length - ending.length) = before ++ '-' :: digits := by
    rw [length_append, Nat.add_sub_cancel]
    exact take_left
  have htail : (before ++ '-' :: digits).drop ((before ++ '-' :: digits).length - 17) =
      '-' :: digits := by
    have hlen : (before ++ '-' :: digits).length - 17 = before.length := by
      simp [hlength]
    rw [hlen]
    exact drop_left
  rw [hashBefore, if_pos (isSuffixOf_iff_suffix.mpr (suffix_append _ _))]
  simp only [hbody, htail]
  rw [if_pos ⟨hlength, hhex⟩]

theorem hashBefore_of_not_suffix {name ending : List Char} (h : ¬ ending <:+ name) :
    hashBefore name ending = none := if_neg fun hs => h (isSuffixOf_iff_suffix.mp hs)

/-- A plain ending is not a zipped one. -/
theorem not_zipped_suffix (before : List Char) :
    ¬ ".patch.gz".toList <:+ before ++ ".patch".toList := by
  rintro ⟨front, h⟩
  have hlast := congrArg List.getLast? h
  rw [getLast?_append_of_ne_nil _ (by decide), getLast?_append_of_ne_nil _ (by decide)] at hlast
  exact absurd hlast (by decide)

/-- The tag of a patch is what the selector reads from its name. -/
theorem deltaBaseHashToken_text {n : DeltaName} {t : String} (h : n.tag = some t) :
    deltaBaseHashToken n.text = some (lowercase t) := by
  obtain ⟨hlength, hhex⟩ := n.tag_hex t h
  have hlower : (lowercase t).toList = t.toList.map Char.toLower := by
    have := lowercase_hex hhex
    rwa [String.ofList_toList] at this
  have hdigits : (lowercase t).toList.length = 16 ∧ (lowercase t).toList.all isLowerHex = true := by
    rw [hlower, length_map, all_map, all_eq_true]
    exact ⟨hlength, fun c hc => (lowercaseChar_hex (hhex c hc)).2⟩
  have hname : (lowercase n.text).toList = (lowercase n.stem).toList ++
      '-' :: (lowercase t).toList ++
      (if n.zipped then ".patch.gz" else ".patch").toList := by
    have hdash : lowercase "-" = "-" := by decide
    have hending : lowercase (if n.zipped then ".patch.gz" else ".patch") =
        if n.zipped then ".patch.gz" else ".patch" := by
      cases n.zipped <;> decide
    rw [DeltaName.text, h, Option.elim_some, lowercase_append, lowercase_append, lowercase_append,
      hdash, hending]
    simp
  rw [deltaBaseHashToken, hname]
  cases n.zipped with
  | true =>
    rw [if_pos rfl, hashBefore_append hdigits.1 hdigits.2, String.ofList_toList]
    rfl
  | false =>
    rw [if_neg (by decide), hashBefore_of_not_suffix (not_zipped_suffix _),
      hashBefore_append hdigits.1 hdigits.2, String.ofList_toList]
    rfl

/-! ## Where a text can occur in a name -/

theorem IsVersion.lowercase {s : String} (h : IsVersion s) : Kotlin.lowercase s = s := by
  have hsame : ∀ c ∈ s.toList, lowercaseChar c = [c] := by
    intro c hc
    have hclass := all_eq_true.mp h.digits c hc
    rw [Bool.or_eq_true, beq_iff_eq] at hclass
    rcases hclass with hdigit | rfl
    · have hhex : isHexDigit c = true := by rw [isHexDigit, hdigit, Bool.true_or]
      rw [(lowercaseChar_hex hhex).1]
      simp only [Char.isDigit, Bool.and_eq_true, decide_eq_true_eq] at hdigit
      refine congrArg (fun lower => [lower]) (dif_neg fun hupper => ?_)
      have hle := hdigit.2
      have hge := hupper.1
      rw [ge_iff_le, UInt32.le_iff_toNat_le] at hge
      rw [UInt32.le_iff_toNat_le] at hle
      exact absurd (hge.trans hle) (by decide)
    · decide
  rw [Kotlin.lowercase, flatMap_congr hsame, flatMap_singleton', String.ofList_toList]

namespace DeltaName

variable (n : DeltaName)

/-- The lower-cased name from the target on. -/
def tail : List Char :=
  n.target.text.toList ++ (n.tag.elim [] fun t => '-' :: (lowercase t).toList) ++
    '.' :: (if n.zipped then "patch.gz" else "patch").toList

theorem lowercase_target : ∀ target : DeltaTarget, lowercase target.text = target.text := by
  intro target
  cases target with
  | universal => decide
  | abi token => revert token; decide
  | desktop os arch => revert os arch; decide

/-- The lower-cased name, joined by dashes. -/
theorem lowercase_text : (lowercase n.text).toList = "yptun".toList ++ '-' :: ("delta".toList ++
    '-' :: (n.old.toList ++ '-' :: (n.new.toList ++ '-' :: n.tail))) := by
  have htag : (lowercase (n.tag.elim "" fun t => "-" ++ t)).toList =
      n.tag.elim [] fun t => '-' :: (lowercase t).toList := by
    cases n.tag with
    | none => rfl
    | some t =>
      rw [Option.elim_some, Option.elim_some, lowercase_append, String.toList_append,
        show lowercase "-" = "-" by decide]
      rfl
  have hending : (lowercase (if n.zipped then ".patch.gz" else ".patch")).toList =
      '.' :: (if n.zipped then "patch.gz" else "patch").toList := by
    cases n.zipped <;> decide
  rw [text, stem, tail, lowercase_append, lowercase_append, lowercase_append, lowercase_append,
    lowercase_append, lowercase_append, lowercase_append, n.old_version.lowercase,
    n.new_version.lowercase, lowercase_target, String.toList_append, String.toList_append, htag,
    hending]
  simp [show lowercase "YPtun-delta-" = "yptun-delta-" by decide,
    show lowercase "-" = "-" by decide]

/-- The digits of a tag, as they stand in the lower-cased name. -/
theorem isLowerHex_of_mem_tag {t : String} (h : n.tag = some t) {c : Char}
    (hc : c ∈ (lowercase t).toList) : isLowerHex c = true := by
  have hhex := (n.tag_hex t h).2
  have hlower := lowercase_hex hhex
  rw [String.ofList_toList] at hlower
  rw [hlower, mem_map] at hc
  obtain ⟨c, hmem, rfl⟩ := hc
  exact (lowercaseChar_hex (hhex c hmem)).2

theorem dot_not_mem_target : ∀ target : DeltaTarget, '.' ∉ target.text.toList := by
  intro target
  cases target with
  | universal => decide
  | abi token => revert token; decide
  | desktop os arch => revert os arch; decide

end DeltaName

theorem IsVersion.dash_not_mem {s : String} (h : IsVersion s) : '-' ∉ s.toList := fun hdash =>
  absurd (all_eq_true.mp h.digits _ hdash) (by decide)

/-- A VERSION NUMBER OCCURS in a name only inside one of its two versions: the rest of the name has
    no dot but those of the extension, and no digit follows them. -/
theorem version_occurs {n : DeltaName} {version : String} (hversion : IsVersion version)
    (h : contains (lowercase n.text) version = true) :
    contains n.old version = true ∨ contains n.new version = true := by
  obtain ⟨digit, hdigit, hdotted⟩ := hversion.dotted
  have hdash := hversion.dash_not_mem
  have hno : ∀ l : List Char, '.' ∉ l → ¬ version.toList <:+: l := fun l hl hin =>
    hl ((hdotted.trans hin).subset mem_cons_self)
  have hnext : ∀ c : Char, c.isDigit = false → some c ≠ some digit := by
    rintro c hc heq
    rw [Option.some.inj heq, hdigit] at hc
    cases hc
  -- in front of the extension there is no dot
  have hbody : '.' ∉ n.target.text.toList ++ (n.tag.elim [] fun t => '-' :: (lowercase t).toList) :=
      by
    rw [mem_append, not_or]
    refine ⟨DeltaName.dot_not_mem_target n.target, ?_⟩
    cases htag : n.tag with
    | none => exact not_mem_nil
    | some t =>
      rw [Option.elim_some, mem_cons, not_or]
      exact ⟨by decide, fun hc => absurd (n.isLowerHex_of_mem_tag htag hc) (by decide)⟩
  have htail : ¬ version.toList <:+: n.tail := by
    intro hin
    rcases infix_pair_joined hbody (hdotted.trans hin) with hhead | hrest
    · cases hzip : n.zipped <;> rw [hzip] at hhead <;> exact hnext 'p' (by decide) hhead
    · cases hzip : n.zipped with
      | false =>
        rw [hzip] at hrest
        exact absurd (hrest.subset mem_cons_self) (by decide)
      | true =>
        rw [hzip] at hrest
        rcases infix_pair_joined (show '.' ∉ "patch".toList by decide)
          (show ['.', digit] <:+: "patch".toList ++ '.' :: "gz".toList from hrest) with hhead | hin
        · exact hnext 'g' (by decide) hhead
        · exact absurd (hin.subset mem_cons_self) (by decide)
  rw [contains_iff_isInfix, n.lowercase_text] at h
  rw [contains_iff_isInfix, contains_iff_isInfix]
  rcases infix_of_infix_joined hdash h with h | h
  · exact absurd h (hno _ (by decide))
  rcases infix_of_infix_joined hdash h with h | h
  · exact absurd h (hno _ (by decide))
  rcases infix_of_infix_joined hdash h with h | h
  · exact .inl h
  rcases infix_of_infix_joined hdash h with h | h
  · exact .inr h
  · exact absurd h htail

/-- A word that can stand in a target only: no dash, no dot, a letter beyond the hexadecimal ones,
    and in none of the fixed words of a name. -/
def isTargetWord (w : String) : Bool :=
  !w.toList.contains '-' && !w.toList.contains '.' && w.toList.any (fun c => !isLowerHex c) &&
    ["yptun", "delta", "patch", "gz"].all fun fixed => !contains fixed w

theorem word_occurs {n : DeltaName} {w : String} (hw : isTargetWord w = true)
    (h : contains (lowercase n.text) w = true) : contains n.target.text w = true := by
  simp only [isTargetWord, Bool.and_eq_true, Bool.not_eq_true', all_cons, all_nil, Bool.and_true,
    any_eq_true, contains_eq_mem, decide_eq_false_iff_not] at hw
  obtain ⟨⟨⟨hdash, hdot⟩, c, hc, hforeign⟩, hyptun, hdelta, hpatch, hgz⟩ := hw
  have hfixed : ∀ {fixed : String}, contains fixed w = false → ¬ w.toList <:+: fixed.toList := by
    intro fixed hfixed hin
    rw [(contains_iff_isInfix fixed w).mpr hin] at hfixed
    cases hfixed
  have hversion : ∀ {s : String}, IsVersion s → ¬ w.toList <:+: s.toList := by
    intro s hs hin
    have hclass := all_eq_true.mp hs.digits c (hin.subset hc)
    rw [Bool.or_eq_true, beq_iff_eq] at hclass
    rcases hclass with hdigit | rfl
    · rw [isLowerHex, hdigit, Bool.true_or] at hforeign
      cases hforeign
    · exact hdot hc
  have hrest : ¬ w.toList <:+: (if n.zipped then "patch.gz" else "patch").toList := by
    cases n.zipped with
    | false => exact hfixed hpatch
    | true =>
      intro hin
      rcases infix_of_infix_joined hdot
        (show w.toList <:+: "patch".toList ++ '.' :: "gz".toList from hin) with hin | hin
      · exact hfixed hpatch hin
      · exact hfixed hgz hin
  rw [contains_iff_isInfix, n.lowercase_text] at h
  have h := ((infix_of_infix_joined hdash h).resolve_left (hfixed hyptun))
  have h := ((infix_of_infix_joined hdash h).resolve_left (hfixed hdelta))
  have h := ((infix_of_infix_joined hdash h).resolve_left (hversion n.old_version))
  have h := ((infix_of_infix_joined hdash h).resolve_left (hversion n.new_version))
  have h := ((infix_of_infix_joined hdot h).resolve_right hrest)
  rw [contains_iff_isInfix]
  cases htag : n.tag with
  | none =>
    rw [htag, Option.elim_none, append_nil] at h
    exact h
  | some t =>
    rw [htag, Option.elim_some] at h
    refine (infix_of_infix_joined hdash h).resolve_right fun hin => ?_
    rw [n.isLowerHex_of_mem_tag htag (hin.subset hc)] at hforeign
    cases hforeign

/-- The parts of a token between dashes. -/
def AbiToken.words : AbiToken → List String
  | armeabiV7a => ["armeabi", "v7a"]
  | arm64V8a => ["arm64", "v8a"]
  | t => [t.text]

theorem AbiToken.words_spec : ∀ t : AbiToken,
    ∀ w ∈ t.words, isTargetWord w = true ∧ contains t.text w = true := by
  decide +kernel

theorem AbiToken.contains_of_words : ∀ (t : AbiToken) (target : DeltaTarget),
    (∀ w ∈ t.words, contains target.text w = true) → contains target.text t.text = true := by
  intro t target
  cases target with
  | universal => revert t; decide +kernel
  | abi token => revert t token; decide +kernel
  | desktop os arch => revert t os arch; decide +kernel

/-- AN ARCHITECTURE OCCURS in a name only inside its target. -/
theorem token_occurs {n : DeltaName} {t : AbiToken}
    (h : contains (lowercase n.text) t.text = true) : contains n.target.text t.text = true := by
  refine AbiToken.contains_of_words t n.target fun w hw => ?_
  obtain ⟨hword, hin⟩ := AbiToken.words_spec t w hw
  refine word_occurs hword ?_
  rw [contains_iff_isInfix] at h hin ⊢
  exact hin.trans h

/-! ## What it means to fit -/

/-- The spellings only Android uses. -/
def AbiToken.onlyAndroid : AbiToken → Bool
  | armeabiV7a | armeabi | arm64V8a => true
  | _ => false

namespace DeltaQuery

variable (q : DeltaQuery)

/-- The patch declares the hash of the installed file. -/
def DeclaresBase (n : DeltaName) : Prop :=
  ∃ base t, q.localBase = some base ∧ n.tag = some t ∧ startsWith base (lowercase t) = true

/-- The package the patch leads to names some ABI. -/
def NamesAbi : Prop := ∃ t : AbiToken, contains (lowercase q.fullAssetName) t.text = true

/-- The target is the installed build's, on a machine of the architecture `d`.  On Android a package
    that names no ABI, or calls itself so, is the universal one, which may also be known by its
    hash; on a desktop the target is the system and the architecture, or the architecture alone. -/
def Own (d : AbiToken) (n : DeltaName) : Prop :=
  if q.platform.os = "android" then
    match n.target with
    | .universal => ¬ q.NamesAbi ∨ contains (lowercase q.fullAssetName) "universal" = true ∨
        q.DeclaresBase n
    | .abi t => q.NamesAbi ∧ t.abi = d.abi
    | .desktop _ _ => False
  else
    match n.target with
    | .universal => False
    | .abi t => t.onlyAndroid = false ∧ t.abi = d.abi
    | .desktop os arch => os.text = q.platform.os ∧ arch.abi = d.abi

/-- What is expected of an offered patch: it leads from the installed version to the new one, for
    this build, and where both hashes are known the declared one begins the installed file's. -/
structure Fits (d : AbiToken) (n : DeltaName) : Prop where
  old : n.old = q.fromText
  new : n.new = q.toText
  target : q.Own d n
  hash : ∀ base t, q.localBase = some base → n.tag = some t → startsWith base (lowercase t) = true

/-! ## What is misread -/

/-- How a version can occur in a name without being the part that was meant: as no version number
    at all, inside a longer version, or only in the other version's place. -/
def VersionMisread (version meant other : String) : Prop :=
  ¬ IsVersion version ∨ (contains meant version = true ∧ meant ≠ version) ∨
    (contains meant version = false ∧ contains other version = true)

/-- The targets that hold the name of the architecture and are not for this build. -/
def targetMisread (d : AbiToken) : DeltaTarget → Bool
  | .universal => false
  | .abi t => (d = .x86 && t = .x86_64) || (q.platform.os != "android" && t.onlyAndroid)
  | .desktop os arch => (d = .x86 && arch = .x86_64) || os.text != q.platform.os

/-- The patch was found by a target that occurs in its name. -/
def foundByTarget (a : GithubReleaseAsset) : Bool := !q.isTagged a && q.targets.any a.names

/-- Nothing in the name is taken for something else. -/
structure ReadRightly (d : AbiToken) (a : GithubReleaseAsset) (n : DeltaName) : Prop where
  old : ¬ VersionMisread q.fromText n.old n.new
  new : ¬ VersionMisread q.toText n.new n.old
  target : if q.foundByTarget a then q.targetMisread d n.target = false else q.Own d n

variable {q}

/-- The declared hash is always checked. -/
theorem hashFits_of_isEligible {a : GithubReleaseAsset} {n : DeltaName}
    (heligible : q.isEligible a = true) (hname : n.text = a.name) {base t : String}
    (hbase : q.localBase = some base) (htag : n.tag = some t) :
    startsWith base (lowercase t) = true := by
  simp only [isEligible, Bool.and_eq_true] at heligible
  have h := heligible.2
  rw [hbase, Option.all_some, ← hname, deltaBaseHashToken_text htag, Option.all_some] at h
  exact h

theorem isPatch_of_isEligible {a : GithubReleaseAsset}
    (h : q.isEligible a = true) : (a.endsIn ".patch.gz" || a.endsIn ".patch") = true := by
  simp only [isEligible, isCandidate, Bool.and_eq_true] at h
  exact h.1.1

/-- An eligible patch has both versions in its name. -/
theorem versions_of_isEligible {a : GithubReleaseAsset} (h : q.isEligible a = true) :
    a.names q.fromText = true ∧ a.names q.toText = true := by
  simp only [isEligible, isCandidate, Bool.and_eq_true] at h
  exact h.1.2.2

/-- A version that occurs in the name is the one that was meant unless it is misread. -/
theorem version_eq_iff {version meant other : String} (hmeant : IsVersion meant)
    (hoccurs : IsVersion version → contains meant version = true ∨ contains other version = true) :
    meant = version ↔ ¬ VersionMisread version meant other := by
  constructor
  · rintro rfl (hnot | ⟨-, hne⟩ | ⟨hnot, -⟩)
    · exact hnot hmeant
    · exact hne rfl
    · rw [(contains_iff_isInfix meant meant).mpr infix_rfl] at hnot
      cases hnot
  · intro h
    simp only [VersionMisread, not_or, not_not, not_and] at h
    obtain ⟨hversion, hinside, helsewhere⟩ := h
    cases hin : contains meant version with
    | true => exact hinside hin
    | false =>
      exact absurd ((hoccurs hversion).resolve_left (by rw [hin]; decide)) (helsewhere hin)

end DeltaQuery

/-- The targets that hold a spelling of a device's architecture are for that architecture, but for
    the one spelling inside another. -/
theorem token_target : ∀ (d : AbiToken) (target : DeltaTarget),
    ((UpdatePlatform.androidArchTokens ⟨"android", d.text⟩ ++
      UpdatePlatform.archTokens ⟨"", d.text⟩).any (contains target.text)) = true →
      ∃ t, (target = .abi t ∨ ∃ os, target = .desktop os t) ∧
        (t.abi = d.abi ↔ (d = .x86 && t = .x86_64) = false) := by
  intro d target h
  cases target with
  | universal => exact absurd h (by revert d; decide)
  | abi t => exact ⟨t, .inl rfl, by revert d t; decide +kernel⟩
  | desktop os t => exact ⟨t, .inr ⟨os, rfl⟩, by revert d os t; decide +kernel⟩

theorem eq_universal : ∀ target : DeltaTarget, contains target.text "universal" = true →
    target = .universal := by
  intro target h
  cases target with
  | universal => rfl
  | abi t => exact absurd h (by revert t; decide)
  | desktop os t => exact absurd h (by revert os t; decide)

namespace DeltaQuery

variable {q : DeltaQuery} {d : AbiToken} {a : GithubReleaseAsset} {n : DeltaName}

/-- What an Android device looks for: a spelling of its architecture that the package has too, or
    the word for a package without one. -/
theorem mem_targets_android (hos : q.platform.os = "android") {target : String}
    (h : target ∈ q.targets) :
    (target ∈ q.platform.androidArchTokens ∨ target = "universal") ∧
      contains (lowercase q.fullAssetName) target = true := by
  rw [targets] at h
  simp only [if_pos hos, ifEmpty] at h
  split_ifs at h
  · obtain ⟨hmem, hin⟩ := mem_filter.mp h
    exact ⟨.inr (mem_singleton.mp hmem), hin⟩
  · obtain ⟨hmem, hin⟩ := mem_filter.mp h
    exact ⟨.inl hmem, hin⟩

/-- A desktop looks for its architecture, with its system in front or without. -/
theorem mem_targets_desktop (hos : q.platform.os ≠ "android") {target : String}
    (h : target ∈ q.targets) :
    ∃ arch ∈ q.platform.archTokens, target = q.platform.os ++ "-" ++ arch ∨ target = arch := by
  rw [targets] at h
  simp only [if_neg hos, mem_flatMap, mem_filter, mem_cons, not_mem_nil, or_false] at h
  obtain ⟨arch, ⟨hmem, -⟩, htarget⟩ := h
  exact ⟨arch, hmem, htarget⟩

/-- A patch found by its target is this build's unless the target is misread. -/
theorem own_iff (harch : q.platform.arch = d.text) (hname : n.text = a.name)
    (hfound : q.targets.any a.names = true) : q.Own d n ↔ q.targetMisread d n.target = false := by
  obtain ⟨target, htarget, hin⟩ := any_eq_true.mp hfound
  rw [GithubReleaseAsset.names, ← hname] at hin
  have hreads : ∀ s : String, s ∈ UpdatePlatform.androidArchTokens ⟨"android", d.text⟩ ++
      UpdatePlatform.archTokens ⟨"", d.text⟩ → (∃ t : AbiToken, s = t.text) →
      contains (lowercase n.text) s = true →
      ∃ t, (n.target = .abi t ∨ ∃ os, n.target = .desktop os t) ∧
        (t.abi = d.abi ↔ (d = .x86 && t = .x86_64) = false) := by
    rintro s hs ⟨t, rfl⟩ hin
    exact token_target d n.target (any_eq_true.mpr ⟨_, hs, token_occurs hin⟩)
  by_cases hos : q.platform.os = "android"
  · obtain ⟨hkind, hfull⟩ := mem_targets_android hos htarget
    rw [Own, if_pos hos]
    rcases hkind with harchs | rfl
    · have hplatform : q.platform = ⟨"android", d.text⟩ := by rw [← hos, ← harch]
      rw [hplatform] at harchs
      have htext := UpdatePlatform.androidArchTokens_text d target harchs
      obtain ⟨t, ht, hiff⟩ := hreads target (mem_append_left _ harchs) htext hin
      obtain ⟨spelling, rfl⟩ := htext
      rcases ht with ht | ⟨os, ht⟩
      · simp [ht, targetMisread, hos, hiff, show q.NamesAbi from ⟨spelling, hfull⟩]
      · have hother : os.text ≠ "android" := by cases os <;> decide
        simp [ht, targetMisread, hos, hother]
    · have huniversal := eq_universal n.target (word_occurs (by decide) hin)
      simp [huniversal, targetMisread, hfull]
  · obtain ⟨arch, harchs, htarget⟩ := mem_targets_desktop hos htarget
    have hinArch : contains (lowercase n.text) arch = true := by
      rcases htarget with rfl | rfl
      · rw [contains_iff_isInfix] at hin ⊢
        refine IsInfix.trans ?_ hin
        rw [String.toList_append]
        exact (suffix_append _ _).isInfix
      · exact hin
    have hmem : arch ∈ UpdatePlatform.archTokens ⟨"", d.text⟩ := by
      rw [UpdatePlatform.archTokens, harch] at harchs
      exact harchs
    obtain ⟨t, ht, hiff⟩ := hreads arch (mem_append_right _ hmem)
      (UpdatePlatform.archTokens_text d arch hmem) hinArch
    rw [Own, if_neg hos]
    rcases ht with ht | ⟨os, ht⟩
    · simp [ht, targetMisread, hos, hiff, and_comm]
    · simp [ht, targetMisread, hiff, and_comm]

/-- An eligible patch fits exactly if its name is read rightly. -/
theorem fits_iff (harch : q.platform.arch = d.text) (hname : n.text = a.name)
    (heligible : q.isEligible a = true) : q.Fits d n ↔ q.ReadRightly d a n := by
  obtain ⟨hfrom, hto⟩ := versions_of_isEligible heligible
  rw [GithubReleaseAsset.names, ← hname] at hfrom hto
  have hold := version_eq_iff n.old_version fun hversion => version_occurs hversion hfrom
  have hnew := version_eq_iff n.new_version fun hversion => (version_occurs hversion hto).symm
  have htarget : (if q.foundByTarget a then q.targetMisread d n.target = false else q.Own d n) ↔
      q.Own d n := by
    split_ifs with hfound
    · rw [foundByTarget, Bool.and_eq_true] at hfound
      exact (own_iff harch hname hfound.2).symm
    · rfl
  constructor
  · exact fun h => ⟨hold.mp h.old, hnew.mp h.new, htarget.mpr h.target⟩
  · exact fun h => ⟨hold.mpr h.old, hnew.mpr h.new, htarget.mp h.target,
      fun base t hbase htag => hashFits_of_isEligible heligible hname hbase htag⟩

end DeltaQuery

/-! ## The offered patch -/

/-- The names of the release's patches follow the convention, with these parts. -/
def FollowConvention (parts : String → DeltaName) (assets : List GithubReleaseAsset) : Prop :=
  ∀ a ∈ assets, (a.endsIn ".patch.gz" || a.endsIn ".patch") = true → (parts a.name).text = a.name

theorem isEligible_of_mem_narrow {q : DeltaQuery} {eligible : Nat}
    {assets : List GithubReleaseAsset} {a : GithubReleaseAsset}
    (h : a ∈ narrow (q.chains eligible) assets) : a ∈ assets ∧ q.isEligible a = true := by
  have hfront := (Lib.mem_of_mem_front h).1
  rw [← filter_eq_front, mem_filter] at hfront
  exact hfront

/-- THE OFFERED PATCH FITS, in whatever order the release lists its files, exactly when the name of
    every patch in front of the chain of preferences is read rightly: no version and no target is
    taken for another, and a patch whose target was not asked for has the right one. -/
theorem delta_fits_iff (q : DeltaQuery) (d : AbiToken) (harch : q.platform.arch = d.text)
    (assets : List GithubReleaseAsset) (parts : String → DeltaName)
    (hnames : FollowConvention parts assets) :
    (∀ l, l.Perm assets → ∀ u, selectDeltaAsset l q = some u → q.Fits d (parts u.name)) ↔
      (q.asks = true → ∀ a ∈ narrow (q.chains (assets.countP q.isEligible)) assets,
        q.ReadRightly d a (parts a.name)) := by
  have hfront : ∀ a ∈ narrow (q.chains (assets.countP q.isEligible)) assets,
      (q.Fits d (parts a.name) ↔ q.ReadRightly d a (parts a.name)) := by
    intro a ha
    obtain ⟨hmem, heligible⟩ := isEligible_of_mem_narrow ha
    exact DeltaQuery.fits_iff harch
      (hnames a hmem (DeltaQuery.isPatch_of_isEligible heligible)) heligible
  constructor
  · intro h hasks
    have hall := (Lib.forall_head_narrow_iff (P :=
      fun a : GithubReleaseAsset => q.Fits d (parts a.name))).mp fun l hperm a ha => by
        refine h l hperm a.toUpdateAsset ?_
        rw [selectDeltaAsset_eq, if_pos hasks, hperm.countP_eq, ha]
        rfl
    exact fun a ha => (hfront a ha).mp (hall a ha)
  · intro h l hperm u hu
    rw [selectDeltaAsset_eq, hperm.countP_eq] at hu
    by_cases hasks : q.asks = true
    · rw [if_pos hasks, Option.map_eq_some_iff] at hu
      obtain ⟨a, ha, rfl⟩ := hu
      have hmem := (Lib.narrow_perm hperm _).mem_iff.mp (mem_of_mem_head? ha)
      exact (hfront a hmem).mpr (h hasks a hmem)
    · rw [if_neg hasks] at hu
      cases hu

theorem isVersion_of {s : String} {front rest : List Char} {digit : Char}
    (hdigits : (s.toList.all fun c => c.isDigit || c == '.') = true)
    (hdigit : digit.isDigit = true) (hs : front ++ ['.', digit] ++ rest = s.toList) :
    IsVersion s := ⟨hdigits, digit, hdigit, front, rest, hs⟩

/-- A phone with 3.5.4, looking for 3.5.5. -/
def phoneQuery : DeltaQuery where
  platform := ⟨"android", "arm64"⟩
  fromVersion := "3.5.4"
  toVersion := "v3.5.5"
  fullAssetName := "YPtun-v3.5.5-arm64-v8a.apk"

/-- A release with a patch for each of two builds, and one from an older version. -/
def threePatches : List GithubReleaseAsset :=
  [⟨"YPtun-delta-3.5.4-3.5.5-armeabi-v7a.patch.gz", "", none, none, none⟩,
    ⟨"YPtun-delta-3.5.3-3.5.5-arm64-v8a.patch.gz", "", none, none, none⟩,
    ⟨"YPtun-delta-3.5.4-3.5.5-arm64-v8a.patch.gz", "", none, none, none⟩]

/-- The parts of the three names. -/
def threeParts (name : String) : DeltaName where
  old := if name = "YPtun-delta-3.5.3-3.5.5-arm64-v8a.patch.gz" then "3.5.3" else "3.5.4"
  new := "3.5.5"
  target := .abi (if name = "YPtun-delta-3.5.4-3.5.5-armeabi-v7a.patch.gz" then .armeabiV7a
    else .arm64V8a)
  zipped := true
  old_version := by
    split_ifs
    · exact @isVersion_of _ ['3'] ['.', '3'] '5' (by decide) (by decide) (by decide)
    · exact @isVersion_of _ ['3'] ['.', '4'] '5' (by decide) (by decide) (by decide)
  new_version := @isVersion_of _ ['3'] ['.', '5'] '5' (by decide) (by decide) (by decide)
  tag_hex := fun _ h => absurd h.symm (Option.some_ne_none _)

theorem threePatches_followConvention : FollowConvention threeParts threePatches := by
  intro a ha _
  simp only [threePatches, mem_cons, not_mem_nil, or_false] at ha
  rcases ha with rfl | rfl | rfl <;> decide

theorem threePatches_narrow :
    narrow (phoneQuery.chains (threePatches.countP phoneQuery.isEligible)) threePatches =
      [⟨"YPtun-delta-3.5.4-3.5.5-arm64-v8a.patch.gz", "", none, none, none⟩] := by
  decide

/-- Whatever the order, the phone is offered the patch from its version for its own build. -/
theorem threePatches_fit : FollowConvention threeParts threePatches ∧
    ∀ l, l.Perm threePatches → ∀ u, selectDeltaAsset l phoneQuery = some u →
      phoneQuery.Fits .arm64 (threeParts u.name) := by
  refine ⟨threePatches_followConvention, (delta_fits_iff phoneQuery .arm64 rfl threePatches
    threeParts threePatches_followConvention).mpr fun _ a ha => ?_⟩
  rw [threePatches_narrow, mem_singleton] at ha
  subst ha
  have hold : IsVersion "3.5.4" :=
    @isVersion_of _ ['3'] ['.', '4'] '5' (by decide) (by decide) (by decide)
  have hnew : IsVersion "3.5.5" :=
    @isVersion_of _ ['3'] ['.', '5'] '5' (by decide) (by decide) (by decide)
  refine ⟨(DeltaQuery.version_eq_iff hold fun _ => .inl (by decide)).mp rfl,
    (DeltaQuery.version_eq_iff hnew fun _ => .inl (by decide)).mp rfl, ?_⟩
  rw [if_pos (by decide)]
  decide

/-- A patch that starts from 3.5.10. -/
def longerName : DeltaName where
  old := "3.5.10"
  new := "3.6.0"
  target := .abi .arm64V8a
  old_version := @isVersion_of _ ['3'] ['.', '1', '0'] '5' (by decide) (by decide) (by decide)
  new_version := @isVersion_of _ ['3'] ['.', '0'] '6' (by decide) (by decide) (by decide)
  tag_hex := fun _ h => absurd h.symm (Option.some_ne_none _)

/-- An installed 3.5.1 is offered the patch from 3.5.10: the one text is inside the other. -/
theorem patch_of_longer_version :
    let q : DeltaQuery := { phoneQuery with fromVersion := "3.5.1", toVersion := "3.6.0" }
    (selectDeltaAsset [⟨longerName.text, "", none, none, none⟩] q).map (·.name) =
        some longerName.text ∧
      ¬ q.Fits .arm64 longerName := by
  refine ⟨by decide, fun h => absurd h.old ?_⟩
  decide

end OlcVpn.Update
