/-
  THE FIELDS OF A LINK in an olcRTC subscription.

  A line `## key: value` says something about one server: the link above it.  The reader keeps the
  fields of the last link it ACCEPTED, and a link that its parser rejects, or that another parser
  reads, leaves this target where it is.  So the fields of such a link end up at the server before
  it.

  THE ARGUMENT compares the reading of a text with and without the line (`Alike`): the two stay
  alike but for one place, whatever comes behind the line, and a field whose line comes before every
  accepted link is filed under a name with a `#` that nobody asks for.
-/
import OlcVpn.Import.Mixed

namespace OlcVpn.Locations

open Kotlin List
open Option (some)

variable (P : LinkParsers)

/-- The locations of an olcRTC text, from its lines. -/
def olcRtcDrafts (updateIntervalHours : Option Int) (lines : List String) : List Draft :=
  let s := lines.foldl (olcRtcLine P) {}
  let subscription := withSubscriptionInterval (buildSubscriptionMetadata s.subscriptionFields)
    (updateIntervalHours.or (refreshIntervalHours (s.subscriptionFields.lookup "refresh")))
  s.locations.mapIdx (olcRtcDraft subscription)

/-- A link of some family. -/
def isLink (line : String) : Bool := (familyOf line).isSome

/-- An olcRTC link that its parser accepts. -/
def accepted (line : String) : Bool :=
  startsWith line olcRtcPrefix && (P.parseOlcRtcUri line).isSome

/-- With or without the line, whatever follows, the same locations are read, except that the nearest
    link above may be one that is accepted, and its location another. -/
def Sticks (before : List String) (line : String) : Prop :=
  ∀ hours after i, (olcRtcDrafts P hours (before ++ line :: after))[i]? ≠
      (olcRtcDrafts P hours (before ++ after))[i]? →
    ∃ link, before.reverse.find? isLink = some link ∧ accepted P link = true ∧
      i + 1 = (olcRtcDrafts P hours before).length

/-! ## One line -/

variable {P} {s t : OlcRtcState} {line : String} {before : List String}

/-- The change of the last location. -/
theorem dropLast_append_getLast {α : Type} (l : List α) (f : α → α) :
    l.dropLast ++ l.getLast?.toList.map f = l.modify (l.length - 1) f := by
  rcases eq_nil_or_concat l with rfl | ⟨front, last, rfl⟩
  · rfl
  · simp [modify_eq_take_drop]

/-- Two readings whose fields of the subscription are the same, but for names with a `#`, and whose
    locations are the same but for the one at `place`. -/
structure Alike (place : Option Nat) (s t : OlcRtcState) : Prop where
  fields : ∀ key : String, key.toList.head? ≠ some '#' →
    s.subscriptionFields.lookup key = t.subscriptionFields.lookup key
  length : s.locations.length = t.locations.length
  same : ∀ i, place ≠ some i → s.locations[i]? = t.locations[i]?

theorem lookup_put_congr {K V : Type} [DecidableEq K] {l l' : List (K × V)} {key : K}
    (h : l.lookup key = l'.lookup key) (k : K) (v : V) : (put l k v).lookup key =
      (put l' k v).lookup key := by
  by_cases hk : key = k
  · simp [hk]
  · rw [lookup_put_ne hk, lookup_put_ne hk, h]

/-- A step of both readings. -/
theorem Alike.step {place : Option Nat} (h : Alike place s t) (line : String) :
    Alike place (olcRtcLine P s line) (olcRtcLine P t line) := by
  have hempty : s.locations.isEmpty = t.locations.isEmpty := by
    rw [Bool.eq_iff_iff, isEmpty_iff_length_eq_zero, isEmpty_iff_length_eq_zero, h.length]
  unfold olcRtcLine
  rw [hempty]
  split
  · split
    · refine ⟨h.fields, by simp [h.length], fun i hi => ?_⟩
      simp only [getElem?_append, h.length, h.same i hi]
    · exact h
  · split
    · split
      · simp only [dropLast_append_getLast]
        refine ⟨h.fields, by simp [h.length], fun i hi => ?_⟩
        simp only [getElem?_modify, h.length, h.same i hi]
      · exact h
    · split
      · split
        · exact ⟨fun key hkey => lookup_put_congr (h.fields key hkey) _ _, h.length, h.same⟩
        · exact h
      · exact h

theorem Alike.lines {place : Option Nat} (lines : List String) (h : Alike place s t) :
    Alike place (lines.foldl (olcRtcLine P) s) (lines.foldl (olcRtcLine P) t) := by
  induction lines generalizing s t with
  | nil => exact h
  | cons line lines ih => exact ih (h.step line)

/-- Alike readings give alike locations. -/
theorem Alike.drafts {place : Option Nat} {a b : List String}
    (h : Alike place (a.foldl (olcRtcLine P) {}) (b.foldl (olcRtcLine P) {}))
      (hours : Option Int) {i : Nat}
    (hi : place ≠ some i) : (olcRtcDrafts P hours a)[i]? = (olcRtcDrafts P hours b)[i]? := by
  have hkeys : ∀ key ∈ ["name", "update", "refresh", "color", "icon", "used", "available"],
      (a.foldl (olcRtcLine P) {}).subscriptionFields.lookup key =
        (b.foldl (olcRtcLine P) {}).subscriptionFields.lookup key := by
    intro key hkey
    have hplain : ∀ key ∈ ["name", "update", "refresh", "color", "icon", "used", "available"],
        key.toList.head? ≠ some '#' := by decide
    exact h.fields key (hplain key hkey)
  simp [olcRtcDrafts, buildSubscriptionMetadata, hkeys, h.same i hi]

/-! ## A line of fields -/

/-- Before the first accepted link, the name of a `##` field keeps a `#`. -/
theorem parseSubscriptionField_hash {field : String × String} (hline : startsWith line "##" = true)
    (h : parseSubscriptionField (removeStart line "#") = some field) : field.1.toList.head? =
      some '#' := by
  obtain ⟨rest, hrest⟩ := List.isPrefixOf_iff_prefix.mp hline
  have hremoved : (removeStart line "#").toList = '#' :: rest := by
    simp [removeStart, startsWith, ← hrest]
  rw [parseSubscriptionField] at h
  split at h
  · exact absurd h (by simp)
  · have hkey : (trim (substringBefore (removeStart line "#") ':')).toList.head? = some '#' := by
      rw [head_trim, substringBefore, hremoved]
      simp [withoutWhitespace, show isWhitespace '#' = false by decide]
    obtain ⟨tail, htail⟩ := head?_eq_some_iff.mp hkey
    rw [← some.inj h, lowercase, htail]
    simp [show lowercaseChar '#' = ['#'] by decide]

theorem not_link_of_hash (hline : startsWith line "##" = true) :
    startsWith line olcRtcPrefix = false := by
  obtain ⟨rest, hrest⟩ := List.isPrefixOf_iff_prefix.mp hline
  simp [startsWith, ← hrest, olcRtcPrefix, isPrefixOf]

theorem locations_olcRtcLine : (olcRtcLine P s line).locations = [] ↔
    s.locations = [] ∧ accepted P line = false := by
  unfold olcRtcLine accepted
  by_cases holc : startsWith line olcRtcPrefix = true
  · cases P.parseOlcRtcUri line <;> simp [holc]
  · simp only [holc, Bool.false_eq_true, ite_false, Bool.false_and, and_true]
    split
    · split
      · simp [dropLast_append_getLast]
      · rfl
    · split
      · split <;> rfl
      · rfl

theorem locations_eq_nil : (before.foldl (olcRtcLine P) s).locations = [] ↔
    s.locations = [] ∧ ∀ l ∈ before, accepted P l = false := by
  induction before generalizing s with
  | nil => simp
  | cons line lines ih => rw [foldl_cons, ih, locations_olcRtcLine, forall_mem_cons, and_assoc]

/-- A `##` line changes the last location, or nothing that is read again. -/
theorem alike_of_hash (hline : startsWith line "##" = true) : Alike
    (if s.locations = [] then none else some (s.locations.length - 1)) (olcRtcLine P s line) s := by
  have hhash : startsWith line "#" = true := by
    obtain ⟨rest, hrest⟩ := List.isPrefixOf_iff_prefix.mp hline
    simp [startsWith, ← hrest]
  have hrefl : ∀ place, Alike place s s := fun _ => ⟨fun _ _ => rfl, rfl, fun _ _ => rfl⟩
  rw [olcRtcLine, not_link_of_hash hline, hline, hhash]
  by_cases hnil : s.locations = []
  · rw [if_pos hnil, hnil]
    cases hfield : parseSubscriptionField (removeStart line "#") with
    | none => exact hrefl none
    | some field =>
      refine ⟨fun key hkey => lookup_put_ne fun heq => hkey ?_, by simp [hnil],
        fun i _ => by simp [hnil]⟩
      exact heq ▸ parseSubscriptionField_hash hline hfield
  · have hsome : s.locations.isEmpty = false := isEmpty_eq_false_iff.mpr hnil
    rw [if_neg hnil, hsome]
    cases parseSubscriptionField (removeStart line "##") with
    | none => exact hrefl _
    | some field =>
      refine ⟨fun _ _ => rfl, ?_, fun i hi => ?_⟩
      · show (_ ++ _ : List _).length = _
        rw [dropLast_append_getLast, length_modify]
      · show (_ ++ _ : List _)[i]? = _
        rw [dropLast_append_getLast, getElem?_modify_ne]
        exact fun heq => hi (heq ▸ rfl)

theorem isLink_of_accepted (h : accepted P line = true) : isLink line = true := by
  rw [accepted, Bool.and_eq_true] at h
  rw [isLink, familyOf_of_scheme (show ("olcrtc://", Family.olcRtc) ∈ schemes by decide)
    (startsWithIgnoreCase_of_startsWith h.1 (by decide))]
  rfl

/-- The `ip` field of a line arrives at the last location. -/
theorem drafts_ip (line ip : String) (hsome : (before.foldl (olcRtcLine P) {}).locations ≠ [])
    (hline : startsWith line "##" = true)
    (hfield : parseSubscriptionField (removeStart line "##") = some ("ip", ip))
    (hclean : cleanMetadataValue (some ip) = some ip) (hblank : isBlank ip = false) :
    ((olcRtcDrafts P none (before ++ [line])).getLast?.bind (·.metadata)).bind (·.ip) =
      some ip := by
  obtain ⟨front, last, hlast⟩ := (eq_nil_or_concat _).resolve_left hsome
  rw [olcRtcDrafts, foldl_append, foldl_cons, foldl_nil, olcRtcLine, not_link_of_hash hline,
    hline, hfield]
  simp [hlast, olcRtcDraft, buildLocationMetadata, LocationMetadata.normalized, hclean,
    LocationMetadata.isEmpty, isNullOrBlank, hblank]

/-- The fields of a link stay with it exactly where the nearest link above is accepted, or none is.
    -/
theorem fields_stick_iff (P : LinkParsers) (before : List String) :
    (∀ line, startsWith line "##" = true → Sticks P before line) ↔
      ∀ link, before.reverse.find? isLink = some link →
        accepted P link = true ∨ ∀ l ∈ before, accepted P l = false := by
  have hnil : (before.foldl (olcRtcLine P) {}).locations = [] ↔
      ∀ l ∈ before, accepted P l = false := by
    rw [locations_eq_nil, and_iff_right rfl]
  constructor
  · intro h link hlink
    by_contra hcon
    rw [not_or, ← hnil] at hcon
    -- Two lines with different addresses cannot both leave the last location as it is.
    have hsame : ∀ line, startsWith line "##" = true →
        olcRtcDrafts P none (before ++ [line]) = olcRtcDrafts P none (before ++ []) := by
      refine fun line hline => ext_getElem? fun i => ?_
      by_contra hne
      obtain ⟨link', hlink', haccepted, -⟩ := h line hline none [] i hne
      rw [hlink, some.injEq] at hlink'
      exact hcon.1 (hlink' ▸ haccepted)
    have hone := drafts_ip "## ip: 1" "1" hcon.2 (by decide) (by decide)
      (by decide) (by decide)
    have htwo := drafts_ip "## ip: 2" "2" hcon.2 (by decide) (by decide)
      (by decide) (by decide)
    rw [hsame _ (by decide)] at hone htwo
    exact absurd (hone.symm.trans htwo) (by decide)
  · intro h line hline hours after i hne
    have halike :=
      (alike_of_hash (P := P) (s := before.foldl (olcRtcLine P) {}) hline).lines after (P := P)
    rw [← foldl_cons, ← foldl_append, ← foldl_append] at halike
    have hplace := not_not.mp (mt (halike.drafts hours) hne)
    split at hplace
    · exact absurd hplace (by simp)
    · next hsome =>
      obtain ⟨l, hl, haccepted⟩ : ∃ l ∈ before, accepted P l = true := by
        simpa [hnil] using hsome
      cases hlink : before.reverse.find? isLink with
      | none =>
        have hnone := find?_eq_none.mp hlink l (mem_reverse.mpr hl)
        exact absurd (isLink_of_accepted haccepted) hnone
      | some link =>
        refine ⟨link, rfl, (h link hlink).resolve_right fun hno => ?_, ?_⟩
        · exact absurd haccepted (by simp [hno l hl])
        · have hpos := length_pos_iff.mpr hsome
          rw [olcRtcDrafts, length_mapIdx]
          have := some.inj hplace
          omega

/-- A parser that knows one link. -/
def oneLink : LinkParsers :=
  { noParsers with parseOlcRtcUri :=
    fun link => if link = "olcrtc://a" then some ⟨{}, none⟩ else none }

/-- The field of a VLESS link is shown at the room above it. -/
theorem vless_field_moves : ¬Sticks oneLink ["olcrtc://a", "vless://b"] "## ip: 1" ∧
    (parseOlcRtcText oneLink "olcrtc://a\nvless://b\n## ip: 1" none none).map
      (·.locations.map fun e => e.metadata.bind (·.ip)) = some [some "1"] := by
  refine ⟨fun h => ?_, by decide⟩
  have hip : (olcRtcDrafts oneLink none (["olcrtc://a", "vless://b"] ++ ["## ip: 1"]))[0]?.map
      (fun d => d.metadata.bind (·.ip)) ≠ (olcRtcDrafts oneLink none
        (["olcrtc://a", "vless://b"] ++ []))[0]?.map fun d => d.metadata.bind (·.ip) := by
    decide
  obtain ⟨link, hlink, haccepted, -⟩ := h none [] 0 fun heq => hip (congrArg _ heq)
  have hvless : ["olcrtc://a", "vless://b"].reverse.find? isLink = some "vless://b" := by decide
  rw [hvless, some.injEq] at hlink
  exact absurd (hlink ▸ haccepted) (by decide)

end OlcVpn.Locations
