/-
  RESOLVING AN ASN TO ITS PREFIXES.

  `ensure` answers from memory, else from the cache file, else from the network: two lists, one for
  each address family, whose failures are swallowed SEPARATELY.  Whatever came is cached as the
  whole answer, so a list that failed once stays missing.

  THE ARGUMENT: asking changes no answer (`resolve_resolve`), so a call answers every ASN as if it
  were asked alone (`lookup_ensure`); and the answer is what is kept or, with nothing kept, what the
  network has.  Over a history of calls and restarts the invariant is that whatever is kept is WHOLE
  (`Sound`); the one step that breaks it is a call that has to ask the network and gets one list
  without the other (`World.Torn`), and from then on the answer is short (`untorn_of_complete`).
  `complete_iff` puts the two together.
-/
import OlcVpn.Kotlin.Collections
import OlcVpn.Kotlin.Lines
import OlcVpn.Lib.Runs

namespace OlcVpn.Geo

open Kotlin List Runs

def cleanCidr (line : String) : Option String :=
  let t := trim line
  if t = "" || startsWith t "#" then none
  else if contains t "/" && (contains t "." || contains t ":") then some t
  else none

/-- What one call meets: the lines of an operator's two lists, `none` where the download fails, and
    whether its cache file can be read and written. -/
structure World where
  v4 : String → Option (List String)
  v6 : String → Option (List String)
  reads : String → Bool := fun _ => true
  writes : String → Bool := fun _ => true

/-- The memo of the process, and the lines of the cache files. -/
structure Cache where
  memory : String → Option (List String) := fun _ => none
  disk : String → Option (List String) := fun _ => none

variable (w : World) (c : Cache) (n : String)

/-- `getOrDefault(emptyList())` of a download. -/
def download (lines : Option (List String)) : List String := (lines.getD []).filterMap cleanCidr

def fetch : List String := distinctBy id (download (w.v4 n) ++ download (w.v6 n))

/-- The cache file, unless nothing in it is a prefix. -/
def Cache.cached : Option (List String) :=
  (if w.reads n then (c.disk n).map (·.filterMap cleanCidr) else none).filter (· ≠ [])

/-- One turn of the loop: the cache after it, and the prefixes. -/
def resolve : Cache × Option (List String) :=
  match c.memory n with
  | some cidrs => (c, some cidrs)
  | none =>
    let cidrs := (c.cached w n).getD (fetch w n)
    let written := if (c.cached w n).isNone ∧ fetch w n ≠ [] ∧ w.writes n = true then
      Function.update c.disk n (some (fetch w n)) else c.disk
    if cidrs = [] then ({ c with disk := written }, none)
    else (⟨Function.update c.memory n (some (cidrs.take 20000)), written⟩, some (cidrs.take 20000))

/-- `raw.trim().filter(Char::isDigit)`. -/
def number (raw : String) : String :=
  String.ofList ((trim raw).toList.filter fun c => (digitToIntOrNull c).isSome)

def ensure : List String → Cache → Cache × List (String × List String)
  | [], c => (c, [])
  | raw :: asns, c =>
    let n := number raw
    if n = "" then ensure asns c
    else
      let rest := ensure asns (resolve w c n).1
      (rest.1, ((resolve w c n).2.map (n, ·)).toList ++ rest.2)

/-- A call, or the end of the process: the files stay. -/
inductive Event where
  | call (w : World) (asns : List String)
  | restart

def step (c : Cache) : Event → Cache
  | .call w asns => (ensure w asns c).1
  | .restart => { c with memory := fun _ => none }

/-! ## A call answers every ASN as if it were asked alone -/

/-- What is kept for an ASN. -/
def Cache.kept : Option (List String) := (c.memory n).or ((c.cached w n).map (·.take 20000))

theorem resolve_answer : (resolve w c n).2 =
    (c.kept w n).or (if fetch w n = [] then none else some ((fetch w n).take 20000)) := by
  unfold resolve Cache.kept
  cases c.memory n with
  | some cidrs => rfl
  | none =>
    cases hcached : c.cached w n with
    | none => by_cases hnil : fetch w n = [] <;> simp [hnil]
    | some cidrs =>
      have hne : cidrs ≠ [] := of_decide_eq_true (Option.filter_eq_some_iff.mp hcached).2
      simp [hne]

/-- An answer is kept in memory; without one nothing changes. -/
theorem resolve_self : (resolve w c n).1 = c ∨
    ∃ cidrs, (resolve w c n).1.memory n = some cidrs ∧ (resolve w c n).2 = some cidrs := by
  unfold resolve
  cases hm : c.memory n with
  | some cidrs => exact .inl rfl
  | none =>
    by_cases hnil : (c.cached w n).getD (fetch w n) = []
    · cases hcached : c.cached w n <;> simp_all
    · simp [hnil]

/-- A turn for another ASN leaves this one alone. -/
theorem resolve_other {m : String} (h : n ≠ m) :
    (resolve w c m).1.memory n = c.memory n ∧ (resolve w c m).1.disk n = c.disk n := by
  unfold resolve
  cases c.memory m with
  | some cidrs => simp
  | none => simp only []; split_ifs <;> simp [h]

/-- Asking changes no answer. -/
theorem resolve_resolve (m : String) : (resolve w (resolve w c m).1 n).2 = (resolve w c n).2 := by
  by_cases hnm : n = m
  · subst hnm
    obtain hsame | ⟨cidrs, hmemory, hanswer⟩ := resolve_self w c n
    · rw [hsame]
    · rw [hanswer, resolve, hmemory]
  · have hother := resolve_other w c n hnm
    rw [resolve_answer, resolve_answer, Cache.kept, Cache.kept, Cache.cached, Cache.cached,
      hother.1, hother.2]

theorem lookup_ensure {asns : List String} (hn : n ≠ "") :
    (ensure w asns c).2.lookup n = if n ∈ asns.map number then (resolve w c n).2 else none := by
  induction asns generalizing c with
  | nil => rfl
  | cons raw asns ih =>
    rw [ensure]
    by_cases hraw : number raw = ""
    · simp [hraw, ih, hn]
    · rw [if_neg hraw]
      by_cases hsame : n = number raw
      · subst hsame
        cases hanswer : (resolve w c (number raw)).2 <;> simp [hanswer, ih, resolve_resolve]
      · cases (resolve w c (number raw)).2 <;>
          simp [ih, resolve_resolve, lookup_cons, beq_false_of_ne hsame, hsame]

/-! ## What a turn leaves -/

section Leaves

variable {w c n} {l : List String} {asns : List String}

/-- What memory has stays, and an answer goes there. -/
theorem memory_resolve {m : String} (h : c.memory n = some l ∨ m = n ∧ (resolve w c n).2 = some l) :
    (resolve w c m).1.memory n = some l := by
  fun_cases resolve w c m <;> grind [resolve]

theorem memory_ensure (hn : n ≠ "")
    (h : c.memory n = some l ∨ n ∈ asns.map number ∧ (resolve w c n).2 = some l) :
    (ensure w asns c).1.memory n = some l := by
  induction asns generalizing c with
  | nil => simpa [ensure] using h
  | cons raw asns ih =>
    rw [ensure]
    split_ifs with hraw
    · exact ih (by simpa [hraw, hn] using h)
    · refine ih ?_
      rw [resolve_resolve]
      grind [memory_resolve]

end Leaves

/-- The file is written by a turn that found nothing kept and got something. -/
theorem disk_resolve : (resolve w c n).1.disk n = c.disk n ∨
    c.kept w n = none ∧ fetch w n ≠ [] ∧ (resolve w c n).1.disk n = some (fetch w n) := by
  unfold resolve Cache.kept
  cases c.memory n with
  | some cidrs => exact .inl rfl
  | none =>
    cases c.cached w n with
    | some cidrs => left; simp only []; split_ifs <;> simp_all
    | none =>
      by_cases hwrites : fetch w n ≠ [] ∧ w.writes n = true
      · right; simp_all
      · left; simp only []; split_ifs <;> simp_all

/-! ## A list that failed once -/

/-- What makes a line a prefix: it is no comment, it has a slash, and a dot or a colon. -/
def IsCidr (t : String) : Prop :=
  t.toList.head? ≠ some '#' ∧ '/' ∈ t.toList ∧ ('.' ∈ t.toList ∨ ':' ∈ t.toList)

instance (t : String) : Decidable (IsCidr t) := inferInstanceAs (Decidable (_ ∧ _))

/-- The prefixes a list publishes. -/
def prefixes (lines : List String) : List String := (lines.map trim).filter (IsCidr ·)

theorem cleanCidr_eq (line : String) :
    cleanCidr line = if IsCidr (trim line) then some (trim line) else none := by
  have hchar : ∀ c : Char, ∀ s : String, s.toList = [c] →
      (contains (trim line) s = true ↔ c ∈ (trim line).toList) := by
    intro c s hs
    rw [contains_iff_isInfix, hs, singleton_infix_iff]
  have hhash : startsWith (trim line) "#" = true ↔ (trim line).toList.head? = some '#' :=
    startsWith_iff_head rfl
  simp only [cleanCidr, IsCidr, Bool.or_eq_true, Bool.and_eq_true, decide_eq_true_eq, hhash,
    hchar '/' "/" rfl, hchar '.' "." rfl, hchar ':' ":" rfl]
  by_cases hempty : trim line = ""
  · simp [hempty]
  · by_cases hcomment : (trim line).toList.head? = some '#' <;> simp [hempty, hcomment]

/-- The filter of the code keeps the prefixes, and nothing else. -/
theorem filterMap_cleanCidr (lines : List String) : lines.filterMap cleanCidr = prefixes lines := by
  induction lines with
  | nil => rfl
  | cons line lines ih =>
    rw [filterMap_cons, cleanCidr_eq, prefixes, map_cons, filter_cons]
    by_cases h : IsCidr (trim line) <;> simp [h, ih, prefixes]

/-- Prefixes are read back from the file they were written to. -/
theorem prefixes_of_forall {l : List String} (h : ∀ p ∈ l, trim p = p ∧ IsCidr p) :
    prefixes l = l := by
  rw [prefixes, map_congr_left fun p hp => (h p hp).1, map_id', filter_eq_self]
  exact fun p hp => decide_eq_true (h p hp).2

section Published

variable (l4 l6 : List String)

/-- A call may miss a list, but what it gets is what is published. -/
def World.Serves : Prop := (∀ l ∈ w.v4 n, l = l4) ∧ ∀ l ∈ w.v6 n, l = l6

/-- One list came, and with it some prefix; the other one failed, and it has more. -/
def World.Torn : Prop :=
  (w.v4 n = none ∧ w.v6 n = some l6 ∧ prefixes l6 ≠ [] ∧ ¬ prefixes l4 ⊆ prefixes l6) ∨
    (w.v6 n = none ∧ w.v4 n = some l4 ∧ prefixes l4 ≠ [] ∧ ¬ prefixes l6 ⊆ prefixes l4)

/-- Neither memory nor the cache file, if it can be read, has a prefix for the ASN. -/
def Cache.Unkept : Prop :=
  c.memory n = none ∧ (w.reads n = true → ∀ lines ∈ c.disk n, prefixes lines = [])

instance : Decidable (w.Torn n l4 l6) := inferInstanceAs (Decidable (_ ∨ _))

instance : Decidable (c.Unkept w n) := inferInstanceAs (Decidable (_ ∧ _))

/-- The calls of a history are served what is published. -/
def Event.Serves : Event → Prop
  | .call w _ => w.Serves n l4 l6
  | .restart => True

/-- No call that has to ask the network gets one list without the other. -/
def Untorn (c : Cache) : Event → Prop
  | .call w asns => n ∈ asns.map number → c.Unkept w n → ¬ w.Torn n l4 l6
  | .restart => True

instance : (e : Event) → Decidable (Untorn n l4 l6 c e)
  | .call w asns => inferInstanceAs
      (Decidable (n ∈ asns.map number → c.Unkept w n → ¬ w.Torn n l4 l6))
  | .restart => isTrue trivial

/-- All that is published. -/
structure Whole (l : List String) : Prop where
  all : ∀ p ∈ prefixes l4 ++ prefixes l6, p ∈ l
  length : l.length ≤ 20000

/-- Whoever asks while both lists can be downloaded gets all of them. -/
def Complete (c : Cache) : Prop :=
  ∀ (w : World) (asns : List String), w.v4 n = some l4 → w.v6 n = some l6 →
    n ∈ asns.map number →
    ∀ p ∈ prefixes l4 ++ prefixes l6, p ∈ ((ensure w asns c).2.lookup n).getD []

/-- The invariant: whatever is kept is whole. -/
structure Sound (c : Cache) : Prop where
  memory : ∀ kept ∈ c.memory n, Whole l4 l6 kept
  disk : ∀ lines ∈ c.disk n, prefixes lines = [] ∨ Whole l4 l6 (prefixes lines)

variable {w c n l4 l6}

theorem kept_eq_none_iff : c.kept w n = none ↔ c.Unkept w n := by
  rw [Cache.kept, Cache.Unkept, Option.or_eq_none_iff, Option.map_eq_none_iff, Cache.cached]
  refine and_congr_right fun _ => ?_
  cases hread : w.reads n with
  | false => simp
  | true =>
    cases hdisk : c.disk n with
    | none => simp
    | some lines => simp [filterMap_cleanCidr, Option.filter_some]

theorem whole_kept (hs : Sound n l4 l6 c) : ∀ kept ∈ c.kept w n, Whole l4 l6 kept := by
  intro kept hkept
  rw [Cache.kept, Option.mem_def, Option.or_eq_some_iff, Option.map_eq_some_iff] at hkept
  obtain hmemory | ⟨-, cidrs, hcached, rfl⟩ := hkept
  · exact hs.memory kept hmemory
  · obtain ⟨hread, hne⟩ := Option.filter_eq_some_iff.mp hcached
    split_ifs at hread with hreads
    obtain ⟨lines, hlines, rfl⟩ := Option.map_eq_some_iff.mp hread
    rw [filterMap_cleanCidr] at hne ⊢
    obtain hnil | hwhole := hs.disk lines hlines
    · exact absurd hnil (of_decide_eq_true hne)
    · rwa [take_of_length_le hwhole.length]

/-- What a call gets from the network: the lists that did not fail. -/
theorem mem_fetch_iff (h : w.Serves n l4 l6) {p : String} : p ∈ fetch w n ↔
    (w.v4 n = some l4 ∧ p ∈ prefixes l4) ∨ (w.v6 n = some l6 ∧ p ∈ prefixes l6) := by
  have hdownload : ∀ {lines : Option (List String)} {l : List String}, (∀ l' ∈ lines, l' = l) →
      (p ∈ download lines ↔ lines = some l ∧ p ∈ prefixes l) := by
    intro lines l hl
    cases lines with
    | none => simp [download]
    | some l' =>
      obtain rfl := hl l' rfl
      simp [download, filterMap_cleanCidr]
  rw [fetch, distinctBy, mem_distinctByFrom_id, mem_append, hdownload h.1, hdownload h.2]
  simp

theorem length_fetch_le (h : w.Serves n l4 l6)
    (hsmall : (prefixes l4 ++ prefixes l6).length ≤ 20000) : (fetch w n).length ≤ 20000 := by
  have hdownload : ∀ {lines : Option (List String)} {l : List String}, (∀ l' ∈ lines, l' = l) →
      (download lines).length ≤ (prefixes l).length := by
    intro lines l hl
    cases lines with
    | none => simp [download]
    | some l' =>
      obtain rfl := hl l' rfl
      simp [download, filterMap_cleanCidr]
  refine (distinctBy_sublist _).length_le.trans ?_
  rw [length_append] at hsmall ⊢
  have h4 := hdownload h.1
  have h6 := hdownload h.2
  omega

theorem cidr_of_mem_fetch (h : w.Serves n l4 l6) {p : String} (hp : p ∈ fetch w n) :
    trim p = p ∧ IsCidr p := by
  have hlist : ∀ {l : List String}, p ∈ prefixes l → trim p = p ∧ IsCidr p := by
    intro l hl
    obtain ⟨hmem, hcidr⟩ := mem_filter.mp hl
    obtain ⟨line, -, rfl⟩ := mem_map.mp hmem
    exact ⟨trim_of_trimmed (trimmed_trim line), of_decide_eq_true hcidr⟩
  obtain ⟨-, hl⟩ | ⟨-, hl⟩ := (mem_fetch_iff h).mp hp <;> exact hlist hl

/-- Unless the lists are torn, whatever comes is all of it. -/
theorem whole_fetch (h : w.Serves n l4 l6)
    (hsmall : (prefixes l4 ++ prefixes l6).length ≤ 20000) (huntorn : ¬ w.Torn n l4 l6)
    (hne : fetch w n ≠ []) : Whole l4 l6 (fetch w n) := by
  refine ⟨fun p hp => ?_, length_fetch_le h hsmall⟩
  obtain ⟨q, hq⟩ := exists_mem_of_ne_nil _ hne
  rw [mem_fetch_iff h] at hq ⊢
  rw [mem_append] at hp
  -- each list either came or failed; only the two mixed cases need the hypothesis
  cases h4 : w.v4 n with
  | some l =>
    obtain rfl := h.1 l h4
    cases h6 : w.v6 n with
    | some l' =>
      obtain rfl := h.2 l' h6
      simpa using hp
    | none =>
      have hsub : prefixes l6 ⊆ prefixes l := by
        by_contra hsub
        exact huntorn (.inr ⟨h6, h4, ne_nil_of_mem (by simpa [h4, h6] using hq), hsub⟩)
      exact .inl ⟨rfl, hp.elim id (hsub ·)⟩
  | none =>
    cases h6 : w.v6 n with
    | none => simp [h4, h6] at hq
    | some l =>
      obtain rfl := h.2 l h6
      have hsub : prefixes l4 ⊆ prefixes l := by
        by_contra hsub
        exact huntorn (.inl ⟨h4, h6, ne_nil_of_mem (by simpa [h4, h6] using hq), hsub⟩)
      exact .inr ⟨rfl, hp.elim (hsub ·) id⟩

/-- Torn lists are taken for an answer. -/
theorem fetch_of_torn (h : w.Serves n l4 l6) (htorn : w.Torn n l4 l6) :
    fetch w n ≠ [] ∧ ∃ p ∈ prefixes l4 ++ prefixes l6, p ∉ fetch w n := by
  have hpair : ∀ {came failed : List String}, came ≠ [] → ¬ failed ⊆ came →
      ∃ q ∈ came, ∃ p ∈ failed, p ∉ came := by
    intro came failed hne hmore
    obtain ⟨q, hq⟩ := exists_mem_of_ne_nil _ hne
    simp only [subset_def, not_forall] at hmore
    obtain ⟨p, hp, hother⟩ := hmore
    exact ⟨q, hq, p, hp, hother⟩
  obtain ⟨h4, h6, hne, hmore⟩ | ⟨h6, h4, hne, hmore⟩ := htorn
  · obtain ⟨q, hq, p, hp, hother⟩ := hpair hne hmore
    refine ⟨ne_nil_of_mem ((mem_fetch_iff h).mpr (.inr ⟨h6, hq⟩)), p, mem_append_left _ hp, ?_⟩
    exact fun hmem => by simpa [h4, h6, hother] using (mem_fetch_iff h).mp hmem
  · obtain ⟨q, hq, p, hp, hother⟩ := hpair hne hmore
    refine ⟨ne_nil_of_mem ((mem_fetch_iff h).mpr (.inl ⟨h4, hq⟩)), p, mem_append_right _ hp, ?_⟩
    exact fun hmem => by simpa [h4, h6, hother] using (mem_fetch_iff h).mp hmem

/-! ### One turn, one call, a history -/

/-- Nothing that was kept is dropped by a turn. -/
theorem unkept_of_resolve {m : String} (hu : (resolve w c m).1.Unkept w n) : c.Unkept w n := by
  by_cases hm : n = m
  · subst hm
    obtain hsame | ⟨cidrs, hmemory, -⟩ := resolve_self w c n
    · exact hsame ▸ hu
    · exact absurd (hu.1.symm.trans hmemory) (by simp)
  · obtain ⟨hmemory, hdisk⟩ := resolve_other w c n hm
    exact ⟨hmemory ▸ hu.1, hdisk ▸ hu.2⟩

/-- A call that takes in torn lists answers with them from then on. -/
theorem untorn_of_complete (hn : n ≠ "") (e : Event) (h : e.Serves n l4 l6)
    (hcomplete : Complete n l4 l6 (step c e)) : Untorn n l4 l6 c e := by
  cases e with
  | restart => trivial
  | call w asns =>
    intro hasked hu htorn
    obtain ⟨hne, p, hp, hmissing⟩ := fetch_of_torn h htorn
    have hanswer : (resolve w c n).2 = some ((fetch w n).take 20000) := by
      rw [resolve_answer, kept_eq_none_iff.mpr hu, Option.none_or, if_neg hne]
    have hmemory : (step c (.call w asns)).memory n = some ((fetch w n).take 20000) :=
      memory_ensure hn (.inr ⟨hasked, hanswer⟩)
    have hlater := hcomplete ⟨fun _ => some l4, fun _ => some l6, w.reads, w.writes⟩ asns rfl rfl
      hasked p hp
    rw [lookup_ensure _ _ _ hn, if_pos hasked, resolve, hmemory] at hlater
    exact hmissing (mem_of_mem_take hlater)

section History

variable (hsmall : (prefixes l4 ++ prefixes l6).length ≤ 20000)
include hsmall

/-- **One turn keeps what is kept whole**, unless it takes in torn lists. -/
theorem sound_resolve (h : w.Serves n l4 l6) (hs : Sound n l4 l6 c) (m : String)
    (huntorn : m = n → c.Unkept w n → ¬ w.Torn n l4 l6) : Sound n l4 l6 (resolve w c m).1 := by
  by_cases hm : m = n
  · subst hm
    have hfetch : c.kept w m = none → fetch w m ≠ [] → Whole l4 l6 (fetch w m) := fun hkept hne =>
      whole_fetch h hsmall (huntorn rfl (kept_eq_none_iff.mp hkept)) hne
    constructor
    · intro kept hkept
      obtain hsame | ⟨cidrs, hmemory, hanswer⟩ := resolve_self w c m
      · exact hs.memory kept (hsame ▸ hkept)
      · obtain rfl : cidrs = kept := Option.some.inj (hmemory.symm.trans hkept)
        rw [resolve_answer] at hanswer
        cases hkeeps : c.kept w m with
        | some kept =>
          obtain rfl : kept = cidrs := by simpa [hkeeps] using hanswer
          exact whole_kept hs kept hkeeps
        | none =>
          rw [hkeeps, Option.none_or] at hanswer
          split_ifs at hanswer with hnil
          have hwhole := hfetch hkeeps hnil
          obtain rfl : fetch w m = cidrs := by
            simpa [take_of_length_le hwhole.length] using hanswer
          exact hwhole
    · intro lines hlines
      obtain hsame | ⟨hkept, hne, hwritten⟩ := disk_resolve w c m
      · exact hs.disk lines (hsame ▸ hlines)
      · obtain rfl : fetch w m = lines := Option.some.inj (hwritten.symm.trans hlines)
        rw [prefixes_of_forall fun p hp => cidr_of_mem_fetch h hp]
        exact .inr (hfetch hkept hne)
  · obtain ⟨hmemory, hdisk⟩ := resolve_other w c n (Ne.symm hm)
    exact ⟨fun kept hkept => hs.memory kept (hmemory ▸ hkept),
      fun lines hlines => hs.disk lines (hdisk ▸ hlines)⟩

theorem sound_ensure (h : w.Serves n l4 l6) {asns : List String} (hs : Sound n l4 l6 c)
    (huntorn : n ∈ asns.map number → c.Unkept w n → ¬ w.Torn n l4 l6) :
    Sound n l4 l6 (ensure w asns c).1 := by
  induction asns generalizing c with
  | nil => exact hs
  | cons raw asns ih =>
    rw [ensure]
    split_ifs with hraw
    · exact ih hs fun hmem => huntorn (mem_cons_of_mem _ hmem)
    · refine ih (sound_resolve hsmall h hs _ fun hm => huntorn (by simp [hm])) ?_
      exact fun hmem hu => huntorn (mem_cons_of_mem _ hmem) (unkept_of_resolve hu)

theorem sound_step (e : Event) (h : e.Serves n l4 l6) (hs : Sound n l4 l6 c)
    (huntorn : Untorn n l4 l6 c e) : Sound n l4 l6 (step c e) := by
  cases e with
  | call w asns => exact sound_ensure hsmall h hs huntorn
  | restart => exact ⟨by simp [step], hs.disk⟩

/-- With everything kept whole, whoever asks gets all. -/
theorem complete_of_sound (hn : n ≠ "") (hs : Sound n l4 l6 c) : Complete n l4 l6 c := by
  intro w asns h4 h6 hasked p hp
  have hserves : w.Serves n l4 l6 := ⟨by simp [h4], by simp [h6]⟩
  have huntorn : ¬ w.Torn n l4 l6 := by simp [World.Torn, h4, h6]
  rw [lookup_ensure _ _ _ hn, if_pos hasked, resolve_answer]
  cases hkept : c.kept w n with
  | some kept => exact (whole_kept hs kept hkept).all p hp
  | none =>
    have hmem : p ∈ fetch w n := by
      rw [mem_fetch_iff hserves, h4, h6]
      simpa using hp
    have hne := ne_nil_of_mem hmem
    rw [Option.none_or, if_neg hne, take_of_length_le (length_fetch_le hserves hsmall)]
    exact hmem

end History

/-- **A list that failed is missing from then on, and nothing else makes one missing.**  At every
    moment of a history whoever asks while both lists can be downloaded gets all of their prefixes,
    exactly if no call of the history that had to ask the network got one list without the other. -/
theorem complete_iff (hn : n ≠ "") (hsmall : (prefixes l4 ++ prefixes l6).length ≤ 20000)
    (events : List Event) (hserves : ∀ e ∈ events, e.Serves n l4 l6) :
    (∀ before, before <+: events → Complete n l4 l6 (run step {} before)) ↔
      Along step (Untorn n l4 l6) {} events := by
  refine forall_moment_iff_along (I := Sound n l4 l6) (fun c => complete_of_sound hsmall hn)
    events {} ?_ ?_ ⟨by simp, by simp⟩
  · exact fun c e he hs huntorn => sound_step hsmall e (hserves e he) hs huntorn
  · exact fun c e he => untorn_of_complete hn e (hserves e he)

end Published

/-- One prefix of each family; the IPv6 list fails, or does not. -/
def oneEach (v6 : Option (List String)) : World :=
  ⟨fun _ => some ["1.0.0.0/24"], fun _ => v6, fun _ => true, fun _ => true⟩

/-- Nothing can be downloaded. -/
def offline : World := ⟨fun _ => none, fun _ => none, fun _ => true, fun _ => true⟩

/-- The first call finds nothing, the next process both lists, and the third one, whose IPv6
    download fails, the file. -/
def outages : List Event :=
  [.call offline ["AS13335"], .restart, .call (oneEach (some ["2606::/32"])) ["13335"], .restart,
   .call (oneEach none) ["as13335"]]

/-- At no moment of this history is the list incomplete. -/
theorem outages_harmless :
    (∀ e ∈ outages, e.Serves "13335" ["1.0.0.0/24"] ["2606::/32"]) ∧
    ∀ before, before <+: outages →
      Complete "13335" ["1.0.0.0/24"] ["2606::/32"] (run step {} before) := by
  have hserves : ∀ e ∈ outages, e.Serves "13335" ["1.0.0.0/24"] ["2606::/32"] := by
    simp [outages, Event.Serves, World.Serves, offline, oneEach]
  exact ⟨hserves, (complete_iff (by decide) (by decide) outages hserves).mpr (by decide)⟩

/-- After one failed download the IPv6 prefix is missing, also in the next process. -/
theorem v6_lost_for_good : (ensure (oneEach (some ["2606::/32"])) ["13335"]
    (run step {} [.call (oneEach none) ["13335"], .restart])).2 = [("13335", ["1.0.0.0/24"])] := by
  decide

/-! ## Within a process -/

variable {w c n} {l : List String} {asns : List String}

/-- **Within a process an answer never changes**, whatever later calls ask for and find. -/
theorem answer_stays (hn : n ≠ "") (h : (ensure w asns c).2.lookup n = some l)
    (calls : List (World × List String)) {w' : World} {asns' : List String}
      (hasked : n ∈ asns'.map number) :
    (ensure w' asns' (run step (ensure w asns c).1 (calls.map fun x => .call x.1 x.2))).2.lookup n =
      some l := by
  rw [lookup_ensure _ _ _ hn] at h ⊢
  have hmem : (ensure w asns c).1.memory n = some l := memory_ensure hn (.inr (by grind))
  have hkept : (run step (ensure w asns c).1 (calls.map fun x => .call x.1 x.2)).memory n =
      some l := by
    generalize (ensure w asns c).1 = c at hmem
    induction calls generalizing c with
    | nil => exact hmem
    | cons x calls ih => exact ih _ (memory_ensure hn (.inl hmem))
  rw [if_pos hasked, resolve, hkept]

theorem v6_missing_to_the_end : (ensure (oneEach (some ["2606::/32"])) ["13335"]
    (run step (ensure (oneEach none) ["13335"] {}).1 [.call (oneEach none) ["1"]])).2.lookup
      "13335" =
      some ["1.0.0.0/24"] :=
  answer_stays (by decide) (by decide) [(oneEach none, ["1"])] (by decide)

end OlcVpn.Geo
