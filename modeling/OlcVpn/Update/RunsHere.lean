/-
  DOES THE OFFERED PACKAGE RUN ON THIS MACHINE?

  A package says in its name which processor it is for, with one of several spellings of the
  architecture as a part between dashes.  `selectAsset` asks only whether a spelling of the
  machine's architecture OCCURS in the name, and some spellings occur in others: `x86` in `x86_64`.
-/
import Mathlib.Data.Fintype.Basic
import OlcVpn.Update.Assets

namespace OlcVpn.Update

open Kotlin Option
open Lib (front narrow)

/-! ## Spellings of architectures -/

inductive Abi where
  | arm | arm64 | amd64 | x86
  deriving DecidableEq

/-- How a file's name can spell its architecture. -/
inductive AbiToken where
  | armeabiV7a | armeabi | arm64V8a | arm64 | aarch64 | x86_64 | amd64 | x64 | x86
  deriving DecidableEq

namespace AbiToken

instance : Fintype AbiToken :=
  Fintype.ofList [armeabiV7a, armeabi, arm64V8a, arm64, aarch64, x86_64, amd64, x64, x86]
    (by intro t; cases t <;> decide)

def text : AbiToken → String
  | armeabiV7a => "armeabi-v7a"
  | armeabi => "armeabi"
  | arm64V8a => "arm64-v8a"
  | arm64 => "arm64"
  | aarch64 => "aarch64"
  | x86_64 => "x86_64"
  | amd64 => "amd64"
  | x64 => "x64"
  | x86 => "x86"

def abi : AbiToken → Abi
  | armeabiV7a | armeabi => .arm
  | arm64V8a | arm64 | aarch64 => .arm64
  | x86_64 | amd64 | x64 => .amd64
  | x86 => .x86

end AbiToken

/-- The name has this token as a part between dashes, the extension apart, or none at all; every
    other token that occurs in the name occurs inside that part. -/
structure Carries (name : String) (token : Option AbiToken) : Prop where
  part : ∀ t, token = some t → ∃ before after : List Char,
    (lowercase name).toList = before ++ t.text.toList ++ after ∧
      (before = [] ∨ before.getLast? = some '-') ∧
      (after = [] ∨ after.head? = some '-' ∨ after.head? = some '.')
  only : ∀ t' : AbiToken, contains (lowercase name) t'.text = true →
    ∃ t, token = some t ∧ contains t.text t'.text = true

/-- A name contains the tokens that its own one contains, and no others. -/
theorem Carries.contains_eq {name : String} {token : Option AbiToken} (h : Carries name token)
    (t' : AbiToken) : contains (lowercase name) t'.text = token.any fun t =>
      contains t.text t'.text := by
  rw [Bool.eq_iff_iff, any_eq_true]
  constructor
  · exact h.only t'
  · rintro ⟨t, ht, hin⟩
    obtain ⟨before, after, hname, -, -⟩ := h.part t ht
    rw [contains_iff_isInfix] at hin ⊢
    rw [hname]
    exact hin.trans (List.infix_append before t.text.toList after)

/-- Asking a name for several tokens is asking the token it carries. -/
theorem Carries.any_names {a : GithubReleaseAsset} {token : Option AbiToken}
    (h : Carries a.name token) {tokens : List String}
      (htokens : ∀ s ∈ tokens, ∃ t : AbiToken, s = t.text) :
    tokens.any a.names = token.any fun t => tokens.any (contains t.text) := by
  have hnames : ∀ s ∈ tokens, a.names s = token.any fun t => contains t.text s := by
    intro s hs
    obtain ⟨t, rfl⟩ := htokens s hs
    exact h.contains_eq t
  rw [Bool.eq_iff_iff, List.any_eq_true, any_eq_true]
  constructor
  · rintro ⟨s, hs, hname⟩
    rw [hnames s hs, any_eq_true] at hname
    obtain ⟨t, ht, hin⟩ := hname
    exact ⟨t, ht, List.any_eq_true.mpr ⟨s, hs, hin⟩⟩
  · rintro ⟨t, ht, hin⟩
    obtain ⟨s, hs, hin⟩ := List.any_eq_true.mp hin
    exact ⟨s, hs, by rw [hnames s hs, ht]; exact hin⟩

/-! ## What a platform reads -/

namespace UpdatePlatform

/-- The token makes a package one for this platform; on Android also a token the list of known ones
    does not hold, as the package then counts as universal. -/
def reads (platform : UpdatePlatform) (t : AbiToken) : Bool :=
  if platform.os = "android" then
    platform.androidArchTokens.any (contains t.text) ||
      !knownAndroidArchTokens.any (contains t.text)
  else platform.archTokens.any (contains t.text)

/-- The tokens a machine of another architecture takes for its own. -/
def misread (platform : UpdatePlatform) (d t : AbiToken) : Bool :=
  (d = .x86 && t = .x86_64) ||
    (platform.os = "android" && (t = .x64 || t = .aarch64) && t.abi != d.abi)

/-- Which names are read as fit although they are not, by cases on both tokens. -/
theorem misread_android : ∀ d t : AbiToken, reads ⟨"android", d.text⟩ t = true →
    (t.abi = d.abi ↔ misread ⟨"android", d.text⟩ d t = false) := by
  decide

theorem misread_desktop : ∀ d t : AbiToken, (archTokens ⟨"", d.text⟩).any (contains t.text) = true →
    (t.abi = d.abi ↔ (decide (d = .x86) && decide (t = .x86_64)) = false) := by
  decide

/-- Of the tokens a platform reads, the misread ones are those of another architecture. -/
theorem misread_iff {platform : UpdatePlatform} {d t : AbiToken} (harch : platform.arch = d.text)
    (hreads : platform.reads t = true) : t.abi = d.abi ↔ platform.misread d t = false := by
  obtain ⟨os, arch⟩ := platform
  obtain rfl : arch = d.text := harch
  by_cases hos : os = "android"
  · subst hos
    exact misread_android d t hreads
  · rw [reads, if_neg hos] at hreads
    rw [misread_desktop d t hreads, misread, decide_eq_false hos, Bool.false_and, Bool.false_and,
      Bool.or_false]

/-- The client's lists name known tokens only. -/
theorem archTokens_text :
    ∀ d : AbiToken, ∀ s ∈ archTokens ⟨"", d.text⟩, ∃ t : AbiToken, s = t.text := by
  decide

theorem androidArchTokens_text : ∀ d : AbiToken,
    ∀ s ∈ androidArchTokens ⟨"android", d.text⟩, ∃ t : AbiToken, s = t.text := by
  decide

end UpdatePlatform

theorem knownAndroidArchTokens_text : ∀ s ∈ knownAndroidArchTokens, ∃ t : AbiToken, s = t.text := by
  decide

/-! ## What can be offered -/

variable (platform : UpdatePlatform)

/-- The chain of preferences of `selectAsset`. -/
def packageChains (preferPortable : Bool) : List (List (GithubReleaseAsset → Bool)) :=
  if platform.os = "android" then androidChains platform else desktopChains platform preferPortable

/-- Both platforms choose by a chain of preferences. -/
theorem selectAsset_eq (assets : List GithubReleaseAsset) (platform : UpdatePlatform)
    (preferPortable : Bool) : selectAsset assets platform preferPortable =
      (narrow (packageChains platform preferPortable) assets).head?.map (·.toUpdateAsset) := by
  rw [selectAsset, packageChains]
  by_cases hos : platform.os = "android"
  · rw [if_pos hos, if_pos hos, selectAndroidAsset_eq hos]
  · rw [if_neg hos, if_neg hos, selectDesktopAsset_eq]

/-- The name is one of a file for this system. -/
def isForSystem (name : String) : Bool :=
  (platform.preferredExtensions.any fun extension =>
    extension.toList.isSuffixOf (lowercase name).toList) &&
  (platform.os = "android" ||
    (knownDesktopOsTokens.erase platform.os).all fun t => !contains (lowercase name) t)

/-- A platform reads a name by the token it carries; on Android no token is as good as its own. -/
def readsName (token : Option AbiToken) : Bool :=
  token.elim (decide (platform.os = "android")) platform.reads

section Offered

variable {platform : UpdatePlatform} {d : AbiToken} {a : GithubReleaseAsset}
  {token : Option AbiToken}

/-- What the Android choice looks at is the name's own token. -/
theorem android_reads (hos : platform.os = "android") (harch : platform.arch = d.text)
    (hcarries : Carries a.name token) :
    (platform.androidArchTokens.any a.names || knownAndroidArchTokens.all fun t => !a.names t) =
      readsName platform token := by
  obtain ⟨os, arch⟩ := platform
  obtain rfl : os = "android" := hos
  obtain rfl : arch = d.text := harch
  rw [← List.not_any_eq_all_not, hcarries.any_names (UpdatePlatform.androidArchTokens_text d),
    hcarries.any_names knownAndroidArchTokens_text]
  cases token with
  | none => rfl
  | some t =>
    rw [readsName, elim_some, UpdatePlatform.reads, if_pos rfl]
    rfl

theorem desktop_reads (hos : platform.os ≠ "android") (harch : platform.arch = d.text)
    (hcarries : Carries a.name token) : platform.archTokens.any a.names =
      readsName platform token := by
  obtain ⟨os, arch⟩ := platform
  obtain rfl : arch = d.text := harch
  have htokens : ∀ s ∈ UpdatePlatform.archTokens ⟨os, d.text⟩, ∃ t : AbiToken, s = t.text :=
    UpdatePlatform.archTokens_text d
  rw [hcarries.any_names htokens]
  cases token with
  | none => exact (decide_eq_false hos).symm
  | some t =>
    rw [readsName, elim_some, UpdatePlatform.reads, if_neg hos]
    rfl

/-- What survives the first chain, whatever the system. -/
theorem mem_narrow_spec {assets : List GithubReleaseAsset} {preferPortable : Bool}
    (harch : platform.arch = d.text) (hcarries : Carries a.name token)
    (h : a ∈ narrow (packageChains platform preferPortable) assets) :
    a ∈ assets ∧ isForSystem platform a.name = true ∧ readsName platform token = true := by
  by_cases hos : platform.os = "android"
  · rw [packageChains, if_pos hos, androidChains, narrow, narrow, narrow, ← filter_eq_front] at h
    obtain ⟨hmem, p, hp, hpa⟩ := Lib.mem_of_mem_front h
    rw [List.mem_filter] at hmem
    refine ⟨hmem.1, ?_, ?_⟩
    · rw [isForSystem, decide_eq_true hos, Bool.true_or, Bool.and_true]
      simp only [UpdatePlatform.preferredExtensions, hos, List.any_cons, List.any_nil,
        Bool.or_false]
      exact hmem.2
    · rw [← android_reads hos harch hcarries, Bool.or_eq_true]
      rw [List.mem_append, List.mem_map, List.mem_singleton] at hp
      rcases hp with ⟨t, ht, rfl⟩ | rfl
      · exact .inl (List.any_eq_true.mpr ⟨t, ht, hpa⟩)
      · exact .inr hpa
  · rw [packageChains, if_neg hos, desktopChains, narrow, ← filter_eq_front] at h
    have hmem := List.mem_filter.mp (Lib.mem_of_mem_narrow h)
    have hcandidate := hmem.2
    rw [isDesktopCandidate, Bool.and_eq_true, Bool.and_eq_true,
      desktop_reads hos harch hcarries] at hcandidate
    refine ⟨hmem.1, ?_, hcandidate.1.2⟩
    rw [isForSystem, decide_eq_false hos, Bool.false_or, Bool.and_eq_true]
    exact ⟨hcandidate.1.1, hcandidate.2⟩

/-- The later chains leave something of what the first one left. -/
theorem narrow_ne_nil {assets : List GithubReleaseAsset} {preferPortable : Bool}
    (harch : platform.arch = d.text) (hcarries : Carries a.name token) (ha : a ∈ assets)
    (hsystem : isForSystem platform a.name = true) (hreads : readsName platform token = true) :
    narrow (packageChains platform preferPortable) assets ≠ [] := by
  rw [isForSystem, Bool.and_eq_true] at hsystem
  by_cases hos : platform.os = "android"
  · rw [packageChains, if_pos hos, androidChains, narrow, narrow, narrow, ← filter_eq_front, ne_eq,
      Lib.front_eq_nil_iff]
    intro hnone
    have hextension : a.endsIn ".apk" = true := by
      have hany := hsystem.1
      simp only [UpdatePlatform.preferredExtensions, hos, List.any_cons, List.any_nil,
        Bool.or_false] at hany
      exact hany
    have hclasses := hnone a (List.mem_filter.mpr ⟨ha, hextension⟩)
    rw [← android_reads hos harch hcarries, Bool.or_eq_true, List.any_eq_true] at hreads
    rcases hreads with ⟨t, ht, hname⟩ | huniversal
    · have hnot := hclasses _ (List.mem_append_left _ (List.mem_map.mpr ⟨t, ht, rfl⟩))
      exact absurd hname (by rw [hnot]; decide)
    · have hnot := hclasses _ (List.mem_append_right _ (List.mem_singleton.mpr rfl))
      exact absurd huniversal (by rw [hnot]; decide)
  · have hmem : a ∈ assets.filter (isDesktopCandidate platform) := by
      rw [decide_eq_false hos, Bool.false_or] at hsystem
      refine List.mem_filter.mpr ⟨ha, ?_⟩
      rw [isDesktopCandidate, desktop_reads hos harch hcarries, Bool.and_eq_true, Bool.and_eq_true]
      exact ⟨⟨hsystem.1, hreads⟩, hsystem.2⟩
    rw [packageChains, if_neg hos, desktopChains, narrow, narrow, narrow, narrow, narrow,
      ← filter_eq_front, ne_eq]
    rw [Lib.front_eq_nil_of_cover, Lib.front_eq_nil_of_cover, Lib.front_eq_nil_of_cover]
    · exact List.ne_nil_of_mem hmem
    · intro b _
      cases hportable : b.names "portable" with
      | true => exact ⟨_, List.mem_append_right _ (List.mem_cons_of_mem _ List.mem_cons_self),
          hportable⟩
      | false =>
        exact ⟨_, List.mem_append_right _ List.mem_cons_self,
          by simp only [hportable, Bool.not_false]⟩
    · exact fun b _ => ⟨_, List.mem_cons_of_mem _ List.mem_cons_self, rfl⟩
    · intro b hb
      have hcandidate := (List.mem_filter.mp (Lib.mem_of_mem_front (Lib.mem_of_mem_front hb).1).1).2
      rw [isDesktopCandidate, Bool.and_eq_true, Bool.and_eq_true] at hcandidate
      obtain ⟨extension, hin, hend⟩ := List.any_eq_true.mp hcandidate.1.1
      exact ⟨_, List.mem_map.mpr ⟨extension, hin, rfl⟩, hend⟩

end Offered

/-! ## The offered package -/

/-- The package runs on a machine of the architecture `d` under this system. -/
structure RunsOn (platform : UpdatePlatform) (d : AbiToken) (name : String)
    (token : Option AbiToken) : Prop where
  system : isForSystem platform name = true
  abi : (∃ t, token = some t ∧ t.abi = d.abi) ∨ (platform.os = "android" ∧ token = none)

/-- Of what a platform reads, the package that runs here is the one that is not misread. -/
theorem runsOn_iff {platform : UpdatePlatform} {d : AbiToken} (harch : platform.arch = d.text)
    {name : String} {token : Option AbiToken} (hsystem : isForSystem platform name = true)
    (hreads : readsName platform token = true) :
    RunsOn platform d name token ↔ ∀ t, token = some t → platform.misread d t = false := by
  constructor
  · rintro ⟨-, habi⟩ t rfl
    obtain ⟨t', ht', habi⟩ := habi.resolve_right fun h => by cases h.2
    cases ht'
    exact (UpdatePlatform.misread_iff harch hreads).mp habi
  · intro h
    refine ⟨hsystem, ?_⟩
    cases token with
    | none => exact .inr ⟨of_decide_eq_true hreads, rfl⟩
    | some t => exact .inl ⟨t, rfl, (UpdatePlatform.misread_iff harch hreads).mpr (h t rfl)⟩

/-- THE OFFERED PACKAGE RUNS HERE, and one is offered where the release has one, in whatever order
    it lists its files: exactly when no misread package is in front of the chain of preferences,
    and a release with matching packages has one whose spelling the platform reads. -/
theorem update_runs_iff (platform : UpdatePlatform) (d : AbiToken) (harch : platform.arch = d.text)
    (preferPortable : Bool) (assets : List GithubReleaseAsset)
    (token : String → Option AbiToken) (hnames : ∀ a ∈ assets, Carries a.name (token a.name)) :
    (∀ l, l.Perm assets → (∀ u, selectAsset l platform preferPortable = some u →
        RunsOn platform d u.name (token u.name)) ∧
          ((∃ a ∈ l, RunsOn platform d a.name (token a.name)) →
        (selectAsset l platform preferPortable).isSome = true)) ↔
    (∀ a ∈ narrow (packageChains platform preferPortable) assets, ∀ t, token a.name = some t →
      platform.misread d t = false) ∧ ((∃ a ∈ assets, RunsOn platform d a.name (token a.name)) →
      ∃ a ∈ assets, RunsOn platform d a.name (token a.name) ∧
        readsName platform (token a.name) = true) := by
  -- what is in front is of this system and read, so that it runs here unless it is misread
  have hfront : ∀ a ∈ narrow (packageChains platform preferPortable) assets,
      a ∈ assets ∧ readsName platform (token a.name) = true ∧
        (RunsOn platform d a.name (token a.name) ↔
          ∀ t, token a.name = some t → platform.misread d t = false) := by
    intro a ha
    have hmem := Lib.mem_of_mem_narrow ha
    obtain ⟨-, hsystem, hreads⟩ := mem_narrow_spec harch (hnames a hmem) ha
    exact ⟨hmem, hreads, runsOn_iff harch hsystem hreads⟩
  have hsome : ∀ l, l.Perm assets → ((selectAsset l platform preferPortable).isSome = true ↔
      narrow (packageChains platform preferPortable) assets ≠ []) := by
    intro l hperm
    rw [selectAsset_eq, isSome_map, List.isSome_head?, ne_eq, ne_eq,
      ← List.length_eq_zero_iff, ← List.length_eq_zero_iff, (Lib.narrow_perm hperm _).length_eq]
  constructor
  · intro h
    have hfits : ∀ a ∈ narrow (packageChains platform preferPortable) assets,
        RunsOn platform d a.name (token a.name) := by
      refine (Lib.forall_head_narrow_iff
        (P := fun a : GithubReleaseAsset => RunsOn platform d a.name (token a.name))).mp ?_
      intro l hperm a ha
      refine (h l hperm).1 a.toUpdateAsset ?_
      rw [selectAsset_eq, ha]
      rfl
    refine ⟨fun a ha => (hfront a ha).2.2.mp (hfits a ha), fun hex => ?_⟩
    obtain ⟨a, ha⟩ := List.exists_mem_of_ne_nil _
      ((hsome assets (List.Perm.refl _)).mp ((h assets (List.Perm.refl _)).2 hex))
    exact ⟨a, (hfront a ha).1, hfits a ha, (hfront a ha).2.1⟩
  · rintro ⟨hread, hspelled⟩ l hperm
    refine ⟨fun u hu => ?_, fun hex => ?_⟩
    · rw [selectAsset_eq, map_eq_some_iff] at hu
      obtain ⟨a, ha, rfl⟩ := hu
      have hmem := (Lib.narrow_perm hperm _).mem_iff.mp (List.mem_of_mem_head? ha)
      exact (hfront a hmem).2.2.mpr (hread a hmem)
    · obtain ⟨a, ha, hruns⟩ := hex
      obtain ⟨b, hb, hbruns, hbreads⟩ := hspelled ⟨a, hperm.mem_iff.mp ha, hruns⟩
      exact (hsome l hperm).mpr (narrow_ne_nil harch (hnames b hb) hb hbruns.system hbreads)

/-- The packages of an Android release. -/
def apkRelease : List GithubReleaseAsset :=
  [⟨"YPtun-v2.1.0-universal.apk", "", none, none, none⟩,
    ⟨"YPtun-v2.1.0-x86_64.apk", "", none, none, none⟩,
    ⟨"YPtun-v2.1.0-arm64-v8a.apk", "", none, none, none⟩]

def apkToken (name : String) : Option AbiToken :=
  if name = "YPtun-v2.1.0-x86_64.apk" then some .x86_64
  else if name = "YPtun-v2.1.0-arm64-v8a.apk" then some .arm64V8a
  else none

theorem carries_universal : Carries "YPtun-v2.1.0-universal.apk" none where
  part _ h := absurd h.symm (some_ne_none _)
  only := by decide

theorem carries_x86_64 : Carries "YPtun-v2.1.0-x86_64.apk" (some .x86_64) where
  part t h := by
    cases h
    exact ⟨"yptun-v2.1.0-".toList, ".apk".toList, by decide, .inr rfl, .inr (.inr rfl)⟩
  only := by decide

theorem carries_arm64 : Carries "YPtun-v2.1.0-arm64-v8a.apk" (some .arm64V8a) where
  part t h := by
    cases h
    exact ⟨"yptun-v2.1.0-".toList, ".apk".toList, by decide, .inr rfl, .inr (.inr rfl)⟩
  only := by decide

theorem apkRelease_carries : ∀ a ∈ apkRelease, Carries a.name (apkToken a.name) := by
  simp only [apkRelease, List.forall_mem_cons, List.not_mem_nil, false_imp_iff,
    implies_true, and_true]
  exact ⟨carries_universal, carries_x86_64, carries_arm64⟩

/-- Of a whole release one package is left for the device. -/
theorem apkRelease_narrow : narrow (packageChains ⟨"android", "arm64"⟩ false) apkRelease =
    [⟨"YPtun-v2.1.0-arm64-v8a.apk", "", none, none, none⟩] := by
  decide

/-- An arm64 phone is offered what runs on it, in whatever order the release lists the packages. -/
theorem apkRelease_runs :
    (∀ a ∈ apkRelease, Carries a.name (apkToken a.name)) ∧ ∀ l, l.Perm apkRelease →
      (∀ u, selectAsset l ⟨"android", "arm64"⟩ false = some u →
        RunsOn ⟨"android", "arm64"⟩ .arm64 u.name (apkToken u.name)) ∧
      ((∃ a ∈ l, RunsOn ⟨"android", "arm64"⟩ .arm64 a.name (apkToken a.name)) →
        (selectAsset l ⟨"android", "arm64"⟩ false).isSome = true) := by
  refine ⟨apkRelease_carries, (update_runs_iff ⟨"android", "arm64"⟩ .arm64 rfl false apkRelease
    apkToken apkRelease_carries).mpr ⟨fun a ha t ht => ?_, fun _ => ?_⟩⟩
  · rw [apkRelease_narrow, List.mem_singleton] at ha
    subst ha
    obtain rfl : AbiToken.arm64V8a = t := Option.some.inj ht
    decide
  · exact ⟨⟨"YPtun-v2.1.0-arm64-v8a.apk", "", none, none, none⟩,
      .tail _ (.tail _ (.head _)), ⟨by decide, .inl ⟨.arm64V8a, rfl, rfl⟩⟩, by decide⟩

/-- A 32-bit x86 device is offered the 64-bit package although its own is there: the name of the one
    architecture is inside the name of the other. -/
theorem x86_takes_x86_64 : (selectAsset [⟨"YPtun-v2.1.0-x86_64.apk", "", none, none, none⟩,
        ⟨"YPtun-v2.1.0-x86.apk", "", none, none, none⟩] ⟨"android", "x86"⟩ false).map (·.name) =
      some "YPtun-v2.1.0-x86_64.apk" ∧ Carries "YPtun-v2.1.0-x86_64.apk" (some .x86_64) ∧
    ¬ RunsOn ⟨"android", "x86"⟩ .x86 "YPtun-v2.1.0-x86_64.apk" (some .x86_64) := by
  refine ⟨by decide, carries_x86_64, fun h => ?_⟩
  obtain ⟨t, ht, habi⟩ := h.abi.resolve_right fun h => by cases h.2
  cases ht
  exact absurd habi (by decide)

end OlcVpn.Update
