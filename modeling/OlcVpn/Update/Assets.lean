/-
  WHICH FILE OF A RELEASE THE UPDATER TAKES (`AppUpdateService.kt`).

  A release is a list of named files.  `selectAsset` finds the package for this machine and
  `selectDeltaAsset` a patch from the installed version to the new one.  Both know the files by
  their NAMES only: they look for architecture names, system names and version numbers as
  SUBSTRINGS of the lower-cased name, and fall back from one kind of match to the next.
-/
import OlcVpn.Import.Links
import OlcVpn.Lib.Preference
import OlcVpn.Share.ProxyLinks

namespace OlcVpn.Update

open Kotlin List
open Locations (removeStart utf16Length)
open Share (isLowerHex)
open Lib (front front_cons_of_any front_cons_of_none narrow pick pick_eq_head?)

/-! ## The release and the platform -/

structure AppUpdateAsset where
  name : String
  downloadUrl : String
  sizeBytes : Option Int
  updatedAt : Option String
  sha256 : Option String
  deriving DecidableEq

structure GithubReleaseAsset where
  name : String
  browserDownloadUrl : String
  size : Option Int := none
  updatedAt : Option String := none
  /-- `sha256:<hex>`, the checksum GitHub took of the upload. -/
  digest : Option String := none
  deriving DecidableEq

namespace GithubReleaseAsset

variable (a : GithubReleaseAsset)

def toUpdateAsset : AppUpdateAsset where
  name := a.name
  downloadUrl := a.browserDownloadUrl
  sizeBytes := a.size
  updatedAt := a.updatedAt
  sha256 := (a.digest.map fun digest => lowercase (trim (removeStart digest "sha256:"))).filter
    fun hex => utf16Length hex = 64 && hex.toList.all isLowerHex

/-- `token in name.lowercase()`. -/
def names (token : String) : Bool := contains (lowercase a.name) token

/-- `name.lowercase().endsWith(extension)`. -/
def endsIn (extension : String) : Bool :=
  extension.toList.isSuffixOf (lowercase a.name).toList

end GithubReleaseAsset

structure UpdatePlatform where
  os : String
  arch : String
  deriving DecidableEq

namespace UpdatePlatform

variable (platform : UpdatePlatform)

/-- The spellings of the architecture that a desktop file may use. -/
def archTokens : List String :=
  match platform.arch with
  | "amd64" => ["amd64", "x64", "x86_64"]
  | "arm64" => ["arm64", "aarch64"]
  | arch => [arch]

def androidArchTokens : List String :=
  if platform.os = "android" then
    match lowercase platform.arch with
    | "armeabi-v7a" | "armeabi" => ["armeabi-v7a", "armeabi"]
    | "arm64" | "arm64-v8a" => ["arm64", "arm64-v8a"]
    | "amd64" | "x86_64" => ["amd64", "x86_64"]
    | "x86" => ["x86"]
    | _ => []
  else []

def preferredExtensions : List String :=
  match platform.os with
  | "windows" => [".msi", ".exe", ".zip"]
  | "macos" => [".dmg"]
  | "linux" => [".deb", ".appimage"]
  | "android" => [".apk"]
  | _ => []

end UpdatePlatform

def knownAndroidArchTokens : List String :=
  ["armeabi-v7a", "armeabi", "arm64-v8a", "arm64", "x86_64", "amd64", "x86"]

def knownDesktopOsTokens : List String := ["windows", "linux", "macos"]

/-! ## The package -/

def selectPreferredAsset (candidates : List GithubReleaseAsset)
    (preferredExtensions : List String) :
    Option GithubReleaseAsset :=
  (preferredExtensions.findSome? fun extension => candidates.find? (·.endsIn extension)).or
    candidates.head?

variable (assets : List GithubReleaseAsset)

def selectAssetByTokens (tokens preferredExtensions : List String) :
    Option GithubReleaseAsset :=
  selectPreferredAsset (assets.filter fun a => tokens.all a.names) preferredExtensions

variable (platform : UpdatePlatform)

def selectAndroidAsset :
    Option GithubReleaseAsset :=
  let apkAssets := assets.filter (·.endsIn ".apk")
  let exactAbiAsset := platform.androidArchTokens.findSome? fun archToken =>
    selectAssetByTokens apkAssets [archToken] platform.preferredExtensions
  exactAbiAsset.or
    (selectPreferredAsset (apkAssets.filter fun a => knownAndroidArchTokens.all fun t => !a.names t)
      platform.preferredExtensions)

/-- `ifEmpty { other }`. -/
def ifEmpty {α : Type} (l other : List α) : List α := if l.isEmpty then other else l

/-- What makes a file one for this desktop. -/
def isDesktopCandidate (a : GithubReleaseAsset) : Bool :=
  platform.preferredExtensions.any a.endsIn && platform.archTokens.any a.names &&
    (knownDesktopOsTokens.erase platform.os).all fun t => !a.names t

def selectDesktopAsset (preferPortable : Bool) : Option GithubReleaseAsset :=
  let candidates := assets.filter (isDesktopCandidate platform)
  let portable := candidates.filter (·.names "portable")
  let regular := candidates.filter fun a => !a.names "portable"
  let pool := if preferPortable then
      ifEmpty (portable.filter (·.endsIn ".exe")) (ifEmpty regular portable)
    else ifEmpty regular portable
  let named := pool.filter (·.names platform.os)
  selectPreferredAsset (ifEmpty named pool) platform.preferredExtensions

def selectAsset (preferPortable : Bool) : Option AppUpdateAsset :=
  (if platform.os = "android" then selectAndroidAsset assets platform
    else selectDesktopAsset assets platform preferPortable).map (·.toUpdateAsset)

/-! ## The patch -/

/-- The hash in front of an ending: a dash and sixteen hexadecimal digits. -/
def hashBefore (name ending : List Char) : Option String :=
  if ending.isSuffixOf name then
    let body := name.take (name.length - ending.length)
    match body.drop (body.length - 17) with
    | '-' :: digits =>
      if digits.length = 16 ∧ digits.all isLowerHex =
        true then some (String.ofList digits) else none
    | _ => none
  else none

/-- The part of the base file's SHA-256 that a patch declares in its name. -/
def deltaBaseHashToken (name : String) : Option String :=
  (hashBefore (lowercase name).toList ".patch.gz".toList).or
    (hashBefore (lowercase name).toList ".patch".toList)

/-- What `selectDeltaAsset` is asked, the release's files apart. -/
structure DeltaQuery where
  platform : UpdatePlatform
  fromVersion : String
  toVersion : String
  fullAssetName : String
  baseSha256 : Option String := none

namespace DeltaQuery

variable (q : DeltaQuery)

def fromText : String := removeFirst q.fromVersion 'v'

def toText : String := removeFirst q.toVersion 'v'

/-- There are two versions to go between. -/
def asks : Bool := !(isBlank q.fromText || isBlank q.toText || q.fromText == q.toText)

def targets : List String :=
  let fullName := lowercase q.fullAssetName
  if q.platform.os = "android" then
    ifEmpty (q.platform.androidArchTokens.filter (contains fullName))
      (["universal"].filter (contains fullName))
  else
    (q.platform.archTokens.filter (contains fullName)).flatMap fun arch =>
      [q.platform.os ++ "-" ++ arch, arch]

variable (a : GithubReleaseAsset)

def isCandidate : Bool :=
  (a.endsIn ".patch.gz" || a.endsIn ".patch") &&
    (a.names "delta" && (a.names q.fromText && a.names q.toText))

def localBase : Option String := (q.baseSha256.map lowercase).filter fun base =>
    16 ≤ utf16Length base

/-- A patch is dropped when it declares another base than the known one. -/
def isEligible : Bool :=
  q.isCandidate a && q.localBase.all fun base => (deltaBaseHashToken a.name).all (startsWith base)

/-- The patch declares the known base. -/
def isTagged : Bool :=
  q.localBase.any fun base => (deltaBaseHashToken a.name).any (startsWith base)

end DeltaQuery

/-- `singleOrNull()`. -/
def singleOrNull {α : Type} : List α → Option α
  | [a] => some a
  | _ => none

def selectDeltaAsset (assets : List GithubReleaseAsset) (q : DeltaQuery) : Option AppUpdateAsset :=
  if q.asks then
    let eligible := assets.filter q.isEligible
    (((eligible.find? q.isTagged).or (q.targets.findSome? fun target => eligible.find?
      (·.names target))).or
      (singleOrNull eligible)).map (·.toUpdateAsset)
  else none

/-! ## The chains of preferences -/

section Chains

variable {assets : List GithubReleaseAsset}

/-- A filter is a choice of one class. -/
theorem filter_eq_front {α : Type} (p : α → Bool) (l : List α) : l.filter p = front [p] l := by
  cases h : l.any p with
  | true => rw [front_cons_of_any h]
  | false =>
    rw [front_cons_of_none h, front, filter_eq_nil_iff]
    simpa using h

/-- Falling back where a filter finds nothing is one class more. -/
theorem ifEmpty_eq_front {α : Type} (p : α → Bool) (classes : List (α → Bool)) (l : List α) :
    ifEmpty (l.filter p) (front classes l) = front (p :: classes) l := by
  rw [ifEmpty]
  cases h : l.any p with
  | true =>
    obtain ⟨a, ha, hp⟩ := any_eq_true.mp h
    rw [front_cons_of_any h, if_neg (by simpa using ⟨a, ha, hp⟩)]
  | false =>
    rw [front_cons_of_none h, if_pos (by simpa using h)]

/-- Where every candidate has one of the extensions, the first in extension order is taken. -/
theorem selectPreferredAsset_eq {candidates : List GithubReleaseAsset} {extensions : List String}
    (h : ∀ a ∈ candidates, extensions.any a.endsIn = true) :
      selectPreferredAsset candidates extensions =
      (front (extensions.map fun extension a => a.endsIn extension) candidates).head? := by
  have hpick : (extensions.findSome? fun extension => candidates.find? (·.endsIn extension)) =
      (front (extensions.map fun extension a => a.endsIn extension) candidates).head? := by
    rw [← pick_eq_head?, pick, findSome?_map]
    rfl
  rw [selectPreferredAsset, hpick]
  cases hhead : (front (extensions.map fun extension a => a.endsIn extension) candidates).head? with
  | some a => rfl
  | none =>
    rw [head?_eq_none_iff, Lib.front_eq_nil_iff] at hhead
    cases candidates with
    | nil => rfl
    | cons a rest =>
      obtain ⟨extension, hmem, hend⟩ := any_eq_true.mp (h a mem_cons_self)
      have hnot := hhead a mem_cons_self _ (mem_map.mpr ⟨extension, hmem, rfl⟩)
      exact absurd hend (by rw [hnot]; decide)

variable (platform : UpdatePlatform)

/-- `selectAndroidAsset`: an apk that names the ABI, else one that names none. -/
def androidChains : List (List (GithubReleaseAsset → Bool)) :=
  [[(·.endsIn ".apk")],
    (platform.androidArchTokens.map fun token a => a.names token) ++
      [fun a => knownAndroidArchTokens.all fun t => !a.names t]]

/-- `selectDesktopAsset`: what fits, by portability, by the system's name, by extension. -/
def desktopChains (preferPortable : Bool) : List (List (GithubReleaseAsset → Bool)) :=
  [[isDesktopCandidate platform],
    (if preferPortable then [fun a => a.names "portable" && a.endsIn ".exe"] else []) ++
      [fun a => !a.names "portable", (·.names "portable")],
    [(·.names platform.os), fun _ => true],
    platform.preferredExtensions.map fun extension a => a.endsIn extension]

/-- `selectDeltaAsset`, with the number of eligible patches: the declared base, then the targets in
    their order, then a patch that is alone. -/
def DeltaQuery.chains (q : DeltaQuery) (eligible : Nat) : List (List (GithubReleaseAsset → Bool)) :=
  [[q.isEligible],
    q.isTagged :: ((q.targets.map fun target a => a.names target) ++
      if eligible = 1 then [fun _ => true] else [])]

/-- THE ANDROID CHOICE IS A CHAIN OF PREFERENCES: packages first, then the ABI of the device. -/
theorem selectAndroidAsset_eq {platform : UpdatePlatform} (hos : platform.os = "android") :
    selectAndroidAsset assets platform = (narrow (androidChains platform) assets).head? := by
  have hext : platform.preferredExtensions = [".apk"] := by
    simp only [UpdatePlatform.preferredExtensions, hos]
  -- among apks the only extension decides nothing: the first one is taken
  have hfirst : ∀ p : GithubReleaseAsset → Bool,
      selectPreferredAsset ((assets.filter (·.endsIn ".apk")).filter p) [".apk"] =
        (assets.filter (·.endsIn ".apk")).find? p := by
    intro p
    have hall : ∀ a ∈ (assets.filter (·.endsIn ".apk")).filter p, a.endsIn ".apk" = true :=
      fun a ha => (mem_filter.mp (mem_filter.mp ha).1).2
    rw [selectPreferredAsset_eq fun a ha => by simpa using hall a ha, map_cons, map_nil,
      ← filter_eq_front, filter_eq_self.mpr hall, head?_filter]
  have htoken : (fun archToken => selectAssetByTokens (assets.filter (·.endsIn ".apk")) [archToken]
      [".apk"]) = fun archToken => (assets.filter (·.endsIn ".apk")).find? (·.names archToken) := by
    funext archToken
    rw [selectAssetByTokens]
    simp only [all_cons, all_nil, Bool.and_true]
    exact hfirst _
  rw [selectAndroidAsset, hext, htoken, hfirst, androidChains, narrow, narrow, narrow,
    ← filter_eq_front, ← pick_eq_head?, pick, findSome?_append, findSome?_map]
  simp only [Function.comp_def, findSome?_cons, findSome?_nil]
  generalize (assets.filter fun x => x.endsIn ".apk").find? _ = universal
  cases universal <;> rfl

/-- And so is the desktop one. -/
theorem selectDesktopAsset_eq (preferPortable : Bool) :
    selectDesktopAsset assets platform preferPortable =
      (narrow (desktopChains platform preferPortable) assets).head? := by
  have hpool : ∀ l : List GithubReleaseAsset,
      (if preferPortable then
          ifEmpty ((l.filter (·.names "portable")).filter (·.endsIn ".exe"))
            (ifEmpty (l.filter fun a => !a.names "portable") (l.filter (·.names "portable")))
        else ifEmpty (l.filter fun a => !a.names "portable") (l.filter (·.names "portable"))) =
      front ((if preferPortable then [fun a => a.names "portable" && a.endsIn ".exe"] else []) ++
        [fun a => !a.names "portable", (·.names "portable")]) l := by
    intro l
    cases preferPortable with
    | false =>
      rw [if_neg (by decide), if_neg (by decide), nil_append, ← ifEmpty_eq_front,
        ← filter_eq_front]
    | true =>
      rw [if_pos rfl, if_pos rfl, cons_append, nil_append, ← ifEmpty_eq_front,
        ← ifEmpty_eq_front, ← filter_eq_front, filter_filter]
      simp only [Bool.and_comm]
  have hnamed : ∀ l : List GithubReleaseAsset, ifEmpty (l.filter (·.names platform.os)) l =
      front [(·.names platform.os), fun _ => true] l := by
    intro l
    rw [← ifEmpty_eq_front, ← filter_eq_front, filter_true]
  simp only [selectDesktopAsset]
  rw [hpool, hnamed, selectPreferredAsset_eq]
  · rw [filter_eq_front]
    rfl
  · intro a ha
    have hcandidate := (Lib.mem_of_mem_front (Lib.mem_of_mem_front ha).1).1
    have h := (mem_filter.mp hcandidate).2
    simp only [isDesktopCandidate, Bool.and_eq_true] at h
    exact h.1.1

/-- A delta is asked for between two different versions only; then it is one more chain. -/
theorem selectDeltaAsset_eq (q : DeltaQuery) : selectDeltaAsset assets q = if q.asks then
      (narrow (q.chains (assets.countP q.isEligible)) assets).head?.map (·.toUpdateAsset)
        else none := by
  have hchain : ∀ eligible : List GithubReleaseAsset,
      ((eligible.find? q.isTagged).or (q.targets.findSome? fun target => eligible.find?
      (·.names target))).or
        (singleOrNull eligible) =
      (front (q.isTagged :: ((q.targets.map fun target a => a.names target) ++
        if eligible.length = 1 then [fun _ => true] else [])) eligible).head? := by
    intro eligible
    rw [← pick_eq_head?, pick, ← singleton_append, findSome?_append,
      findSome?_append, findSome?_map, Option.or_assoc]
    have hsingle : (if eligible.length = 1 then [fun _ : GithubReleaseAsset => true]
        else []).findSome?
        (fun p => eligible.find? p) = singleOrNull eligible := by
      rcases eligible with _ | ⟨a, _ | ⟨b, rest⟩⟩
      · rfl
      · rfl
      · rw [if_neg (by simp)]
        rfl
    rw [hsingle]
    simp only [findSome?_cons, findSome?_nil]
    cases eligible.find? q.isTagged <;> rfl
  simp only [selectDeltaAsset]
  rw [hchain, ← countP_eq_length_filter, DeltaQuery.chains, narrow, narrow, narrow,
    ← filter_eq_front]

end Chains

end OlcVpn.Update
