/-
  The Kotlin STRING FUNCTIONS the client's parsers are made of.

  A Kotlin string is a Lean `String` here, and each function keeps its Kotlin name.  They work
  through the list of characters, so that a concrete text evaluates in the kernel and a proof
  about all texts is an induction on a list.
-/
import Mathlib.Data.List.DropRight
import OlcVpn.Kotlin.Unicode

namespace OlcVpn.Kotlin

open List
open String (ofList toList_ofList toList_append toList toList_inj singleton)

/-- `lowercase()`. -/
def lowercase (s : String) : String :=
  ofList (s.toList.flatMap lowercaseChar)

/-- `isBlank()`. -/
def isBlank (s : String) : Bool :=
  s.toList.all isWhitespace

/-- `isNotBlank()`. -/
def isNotBlank (s : String) : Bool :=
  !isBlank s

/-- `trim(vararg chars)` with a class of characters. -/
def trimWhere (p : Char → Bool) (s : String) : String :=
  ofList ((s.toList.dropWhile p).rdropWhile p)

/-- `trim()`. -/
def trim (s : String) : String :=
  trimWhere isWhitespace s

/-- `ifBlank { default }`. -/
def ifBlank (s default : String) : String :=
  if isBlank s then default else s

/-- `substringBefore(delimiter)`: the whole text where the delimiter does not occur. -/
def substringBefore (s : String) (delimiter : Char) : String :=
  ofList (s.toList.takeWhile (· != delimiter))

/-- `substringBeforeLast(delimiter)`: the whole text where the delimiter does not occur. -/
def substringBeforeLast (s : String) (delimiter : Char) : String :=
  if s.toList.contains delimiter then
    ofList ((s.toList.reverse.dropWhile (· != delimiter)).drop 1).reverse
  else s

/-- `substringAfterLast(delimiter, missing)`. -/
def substringAfterLast (s : String) (delimiter : Char) (missing : String) : String :=
  if s.toList.contains delimiter then
    ofList (s.toList.reverse.takeWhile (· != delimiter)).reverse
  else missing

/-- `contains(other)`. -/
def contains (s other : String) : Bool :=
  s.toList.tails.any fun rest => other.toList.isPrefixOf rest

/-- `removePrefix(text)` and `removeSuffix(text)` of one character. -/
def removeFirst (s : String) (c : Char) : String :=
  if s.toList.head? = some c then ofList s.toList.tail else s

def removeLast (s : String) (c : Char) : String :=
  if s.toList.getLast? = some c then ofList s.toList.dropLast else s

/-- `take(n)` of a text without characters above U+FFFF. -/
def take (s : String) (n : Nat) : String :=
  ofList (s.toList.take n)

/-- `substring(n)` of a text without characters above U+FFFF. -/
def substringFrom (s : String) (n : Nat) : String :=
  ofList (s.toList.drop n)

/-- What stands before and what after the first occurrence of a delimiter. -/
def cutAt (delimiter : List Char) : List Char → Option (List Char × List Char)
  | [] => if delimiter = [] then some ([], []) else none
  | c :: rest =>
    if delimiter.isPrefixOf (c :: rest) then some ([], (c :: rest).drop delimiter.length)
    else (cutAt delimiter rest).map fun cut => (c :: cut.1, cut.2)

/-- `substringBefore(delimiter, missing)`. -/
def substringBeforeOr (s delimiter missing : String) : String :=
  ((cutAt delimiter.toList s.toList).map fun cut => ofList cut.1).getD missing

/-- `substringAfter(delimiter, missing)`; without a second argument, `missing` is the text itself.
    -/
def substringAfterOr (s delimiter missing : String) : String :=
  ((cutAt delimiter.toList s.toList).map fun cut => ofList cut.2).getD missing

/-- `startsWith(prefix)`. -/
def startsWith (s start : String) : Bool :=
  start.toList.isPrefixOf s.toList

/-- `joinToString(separator)`. -/
def joinToString (separator : String) (parts : List String) : String :=
  ofList (List.intercalate separator.toList (parts.map toList))

/-- `split` at every character of a class. -/
def splitWhere (p : Char → Bool) (s : String) : List String :=
  (s.toList.splitOnP p).map ofList

/-- The character an ASCII letter is compared by in `equals(ignoreCase = true)`: the dotted and
    dotless I, the long S and the Kelvin sign fold onto ASCII too. -/
def foldAscii (c : Char) : Char :=
  if c.toNat = 0x130 ∨ c.toNat = 0x131 then 'i'
  else if c.toNat = 0x17f then 's'
  else if c.toNat = 0x212a then 'k'
  else c.toLower

/-- `equals(word, ignoreCase = true)` with a lower-case ASCII word. -/
def equalsIgnoreCase (s word : String) : Bool :=
  s.toList.map foldAscii == word.toList

/-- `startsWith(word, ignoreCase = true)` with a lower-case ASCII word. -/
def startsWithIgnoreCase (s word : String) : Bool :=
  word.toList.isPrefixOf (s.toList.map foldAscii)

/-- The value of a run of digits; `none` where a character is no digit. -/
def digitsOrNull (cs : List Char) : Option Nat :=
  cs.foldlM (fun value c => (digitToIntOrNull c).map (value * 10 + ·)) 0

/-- `toIntOrNull()` and its kin: an optional sign, then digits, and no overflow. -/
def toIntegerOrNull (lowest highest : Int) (s : String) : Option Int :=
  let inRange (value : Int) : Option Int :=
    if lowest ≤ value ∧ value ≤ highest then some value else none
  match s.toList with
  | [] => none
  | c :: rest =>
    if c < '0' then
      if rest = [] then none
      else if c = '-' then (digitsOrNull rest).bind fun n => inRange (-n)
      else if c = '+' then (digitsOrNull rest).bind fun n => inRange n
      else none
    else (digitsOrNull (c :: rest)).bind fun n => inRange n

/-- `toIntOrNull()`. -/
def toIntOrNull : String → Option Int := toIntegerOrNull (-2147483648) 2147483647

/-- `toLongOrNull()`. -/
def toLongOrNull : String → Option Int :=
  toIntegerOrNull (-9223372036854775808) 9223372036854775807

/-! ## Blank and trimmed texts -/

@[simp] theorem isBlank_empty : isBlank "" = true := rfl

variable {s : String} {p : Char → Bool} {c : Char} {parts : List String} {n : Int}

theorem ne_empty_of_isNotBlank (h : isNotBlank s = true) : s ≠ "" := by
  rintro rfl
  simp [isNotBlank] at h

/-- Neither the first nor the last character is in the class. -/
structure TrimmedWhere (p : Char → Bool) (l : List Char) : Prop where
  head : ∀ c ∈ l.head?, p c = false
  last : ∀ c ∈ l.getLast?, p c = false

/-- There is nothing to trim. -/
def Trimmed (s : String) : Prop := TrimmedWhere isWhitespace s.toList

/-- What is stripped starts and ends with something else. -/
theorem trimmedWhere_trim (p : Char → Bool) (l : List Char) :
    TrimmedWhere p ((l.dropWhile p).rdropWhile p) := by
  constructor
  · intro c hc
    have hpre : (l.dropWhile p).rdropWhile p <+: l.dropWhile p := rdropWhile_prefix p _
    obtain ⟨rest, hrest⟩ := hpre
    have hhead : (l.dropWhile p).head? = some c := by
      rw [← hrest, head?_append, hc]
      rfl
    have := head?_dropWhile_not p l
    rwa [hhead] at this
  · intro c hc
    have hne : (l.dropWhile p).rdropWhile p ≠ [] := by
      intro h
      simp [h] at hc
    have hlast := rdropWhile_last_not p (l.dropWhile p) hne
    rw [getLast?_eq_getLast_of_ne_nil hne, Option.mem_some_iff] at hc
    simpa [hc] using hlast

/-- And such a text is left alone. -/
theorem trim_eq_self {l : List Char} (h : TrimmedWhere p l) : (l.dropWhile p).rdropWhile p = l := by
  have hdrop : l.dropWhile p = l := by
    cases l with
    | nil => rfl
    | cons c l => simp [h.head c rfl]
  rw [hdrop, rdropWhile_eq_self_iff]
  intro hne
  simp [h.last _ (getLast?_eq_getLast_of_ne_nil hne)]

theorem trimmed_trim (s : String) : Trimmed (trim s) := by
  simpa [Trimmed, trim, trimWhere] using trimmedWhere_trim isWhitespace s.toList

/-- The rule later proofs use to remove a `trim`. -/
theorem trim_of_trimmed (h : Trimmed s) : trim s = s := by
  rw [trim, trimWhere, trim_eq_self h, String.ofList_toList]

@[simp] theorem trim_trim (s : String) : trim (trim s) = trim s := trim_of_trimmed (trimmed_trim s)

theorem trimWhere_sublist (p : Char → Bool) (s : String) :
    (trimWhere p s).toList.Sublist s.toList := by
  rw [trimWhere, toList_ofList]
  exact (List.rdropWhile_prefix _ _).sublist.trans (dropWhile_sublist _)

/-- A property of a default and of every text that is not blank. -/
@[elab_as_elim] theorem ifBlank_cases {P : String → Prop} {default : String} (hdefault : P default)
    (hs : isBlank s = false → P s) : P (ifBlank s default) := by
  rw [ifBlank]
  split_ifs with hblank
  · exact hdefault
  · exact hs (Bool.eq_false_iff.mpr hblank)

theorem isBlank_ifBlank {default : String} (h : isBlank default = false) :
    isBlank (ifBlank s default) = false :=
  ifBlank_cases h id

theorem mem_of_mem_trim (h : c ∈ (trim s).toList) : c ∈ s.toList := (trimWhere_sublist _ s).subset h

@[simp] theorem trimmed_empty : Trimmed "" := ⟨by simp, by simp⟩

/-- A trimmed text is blank only if it is empty. -/
theorem Trimmed.isBlank_iff (h : Trimmed s) : isBlank s = true ↔ s = "" := by
  constructor
  · intro hb
    cases hl : s.toList with
    | nil => simpa using hl
    | cons c l =>
      have hc : isWhitespace c = false := h.head c (by simp [hl])
      simp [isBlank, hl, hc] at hb
  · rintro rfl
    rfl

/-- Of a trimmed text nothing is blank but the empty one. -/
theorem Trimmed.isNotBlank_iff (h : Trimmed s) : isNotBlank s = true ↔ ¬ s = "" := by
  rw [isNotBlank, Bool.not_eq_true', Bool.eq_false_iff, Ne, h.isBlank_iff]

/-! ## Lower case -/

/-- Lower case of lower case is itself, also where one character becomes two. -/
@[simp] theorem lowercase_lowercase (s : String) : lowercase (lowercase s) = lowercase s := by
  simp only [lowercase, toList_ofList, flatMap_assoc]
  congr 1
  refine flatMap_congr fun c _ => ?_
  -- each image is its own image, so the inner map is the identity
  have hid : ∀ l : List Char, (∀ d ∈ l, lowercaseChar d = [d]) → l.flatMap lowercaseChar = l := by
    intro l hl
    induction l with
    | nil => rfl
    | cons d l ih =>
      rw [flatMap_cons, hl d mem_cons_self, ih fun e he => hl e (mem_cons_of_mem _ he)]
      rfl
  exact hid _ fun d hd => (lowered_of_mem hd).1

/-- Lower-casing keeps the ends of a text free of white space. -/
theorem Trimmed.lowercase (h : Trimmed s) : Trimmed (lowercase s) := by
  have hmem : ∀ {c d : Char}, isWhitespace c = false → d ∈ lowercaseChar c →
      isWhitespace d = false := fun hc hd => (lowered_of_mem hd).2 hc
  constructor
  · intro d hd
    simp only [Kotlin.lowercase, toList_ofList] at hd
    cases hl : s.toList with
    | nil => simp [hl] at hd
    | cons c l =>
      rw [hl, flatMap_cons, head?_append_of_ne_nil _ (lowercaseChar_ne_nil c)] at hd
      exact hmem (h.head c (by simp [hl])) (mem_of_mem_head? hd)
  · intro d hd
    simp only [Kotlin.lowercase, toList_ofList] at hd
    rcases eq_nil_or_concat s.toList with hl | ⟨l, c, hl⟩
    · simp [hl] at hd
    · rw [hl, concat_eq_append, flatMap_append, flatMap_singleton,
        getLast?_append_of_ne_nil _ (lowercaseChar_ne_nil c)] at hd
      exact hmem (h.last c (by simp [hl])) (mem_of_getLast? hd)

/-! ## Splitting what was joined -/

variable (separator : String)

theorem joinToString_singleton (part : String) : joinToString separator [part] = part := by
  simp [joinToString]

theorem joinToString_cons_cons (first second : String) (rest : List String) :
    joinToString separator (first :: second :: rest) =
      first ++ separator ++ joinToString separator (second :: rest) := by
  rw [← toList_inj]
  simp [joinToString, intercalate_cons_cons]

theorem joinToString_append {a b : List String} (ha : a ≠ []) (hb : b ≠ []) :
    joinToString separator (a ++ b) = joinToString separator a ++ separator ++
      joinToString separator b := by
  induction a with
  | nil => exact absurd rfl ha
  | cons first a ih =>
    cases a with
    | nil =>
      obtain ⟨second, rest, rfl⟩ := exists_cons_of_ne_nil hb
      rw [singleton_append, joinToString_cons_cons, joinToString_singleton]
    | cons second a =>
      rw [cons_append, cons_append, joinToString_cons_cons, ← cons_append,
        ih (cons_ne_nil _ _), joinToString_cons_cons]
      simp only [String.append_assoc]

/-- Joining joined groups is joining everything. -/
theorem joinToString_flatten {groups : List (List String)} (h : ∀ g ∈ groups, g ≠ []) :
    joinToString separator (groups.map (joinToString separator)) =
      joinToString separator groups.flatten := by
  induction groups with
  | nil => rfl
  | cons g groups ih =>
    have hg := h g mem_cons_self
    have hrest := ih fun g' hg' => h g' (mem_cons_of_mem _ hg')
    cases groups with
    | nil => rw [map_cons, map_nil, joinToString_singleton, flatten_singleton]
    | cons g' groups =>
      have hne : (g' :: groups).flatten ≠ [] := by
        rw [flatten_cons]
        exact append_ne_nil_of_left_ne_nil (h g' (by simp)) _
      rw [flatten_cons, joinToString_append separator hg hne, ← hrest, map_cons, map_cons,
        joinToString_cons_cons]

/-- A joined text has the characters of its parts and of the separator. -/
theorem mem_joinToString {separator : String} (h : c ∈ (joinToString separator parts).toList) :
    c ∈ separator.toList ∨ ∃ part ∈ parts, c ∈ part.toList := by
  rw [joinToString, toList_ofList] at h
  induction parts with
  | nil => simp at h
  | cons part parts ih =>
    cases parts with
    | nil =>
      refine .inr ⟨part, mem_cons_self, ?_⟩
      simpa using h
    | cons next parts =>
      rw [map_cons, map_cons, intercalate_cons_cons, append_assoc, mem_append, mem_append] at h
      obtain h | h | h := h
      · exact .inr ⟨part, mem_cons_self, h⟩
      · exact .inl h
      · obtain h | ⟨q, hq, hc⟩ := ih h
        · exact .inl h
        · exact .inr ⟨q, mem_cons_of_mem _ hq, hc⟩

/-- No part is longer than the whole. -/
theorem length_le_joinToString {part : String} (h : part ∈ parts) :
    part.toList.length ≤ (joinToString separator parts).toList.length := by
  have hlists : ∀ {ls : List (List Char)} {l : List Char}, l ∈ ls →
      l.length ≤ (List.intercalate separator.toList ls).length := by
    intro ls l hl
    induction ls with
    | nil => simp at hl
    | cons first rest ih =>
      cases rest with
      | nil =>
        obtain rfl : l = first := by simpa using hl
        simp
      | cons second rest =>
        rw [intercalate_cons_cons, length_append, length_append]
        rcases mem_cons.mp hl with rfl | hl
        · omega
        · have := ih hl
          omega
  rw [joinToString, toList_ofList]
  exact hlists (mem_map_of_mem h)

/-- A piece holds no separator. -/
theorem not_of_mem_splitOnP {cs l : List Char} (hl : l ∈ cs.splitOnP p) : ∀ c ∈ l, p c = false := by
  induction cs generalizing l with
  | nil =>
    rw [splitOnP_nil, mem_singleton] at hl
    simp [hl]
  | cons d cs ih =>
    rw [splitOnP_cons_eq_if_modifyHead] at hl
    split_ifs at hl with hd
    · rcases mem_cons.mp hl with rfl | hl
      · simp
      · exact ih hl
    · cases hsplit : cs.splitOnP p with
      | nil => exact absurd hsplit (splitOnP_ne_nil p cs)
      | cons first rest =>
        rw [hsplit, modifyHead_cons] at hl
        rcases mem_cons.mp hl with rfl | hl
        · intro c hc
          rcases mem_cons.mp hc with rfl | hc
          · simpa using hd
          · exact ih (by rw [hsplit]; exact mem_cons_self) c hc
        · exact ih (by rw [hsplit]; exact mem_cons_of_mem _ hl)

/-- Pieces without separators are found again. -/
theorem splitOnP_intercalate {sep : Char} (hsep : p sep = true) :
    ∀ {parts : List (List Char)}, parts ≠ [] → (∀ l ∈ parts, ∀ c ∈ l, p c = false) →
      (List.intercalate [sep] parts).splitOnP p = parts
  | [], hne, _ => absurd rfl hne
  | [l], _, h => by
      simpa using splitOnP_eq_singleton (h l mem_cons_self)
  | l :: l' :: parts, _, h => by
      rw [intercalate_cons_cons, append_assoc, singleton_append,
        splitOnP_append_cons_of_forall_mem (h l mem_cons_self) sep hsep,
        splitOnP_intercalate hsep (cons_ne_nil _ _) fun k hk =>
          h k (mem_cons_of_mem _ hk)]

/-- SPLITTING UNDOES JOINING, for parts without the separator; a list needs a part for it. -/
theorem splitWhere_joinToString (sep : Char) (hsep : p sep = true) (hne : parts ≠ [])
    (h : ∀ s ∈ parts, ∀ c ∈ s.toList, p c = false) :
    splitWhere p (joinToString (singleton sep) parts) = parts := by
  have hlists : (List.intercalate [sep] (parts.map toList)).splitOnP p =
      parts.map toList := by
    refine splitOnP_intercalate hsep (by simpa using hne) fun l hl => ?_
    obtain ⟨s, hs, rfl⟩ := mem_map.mp hl
    exact h s hs
  rw [splitWhere, joinToString, toList_ofList, String.toList_singleton, hlists]
  simp

/-- A text behind the parts changes nothing about how they are cut off. -/
theorem splitOnP_intercalate_append {sep : Char} (hsep : p sep = true) (rest : List Char)
    {ls : List (List Char)} (hne : ls ≠ []) (h : ∀ l ∈ ls, ∀ c ∈ l, p c = false) :
    (List.intercalate [sep] ls ++ sep :: rest).splitOnP p = ls ++ rest.splitOnP p := by
  induction ls with
  | nil => exact absurd rfl hne
  | cons first ls ih =>
    have hfirst := h first mem_cons_self
    cases ls with
    | nil =>
      rw [intercalate_singleton, splitOnP_append_cons_of_forall_mem hfirst sep hsep,
        singleton_append]
    | cons second ls =>
      rw [intercalate_cons_cons, append_assoc, append_assoc, singleton_append,
        splitOnP_append_cons_of_forall_mem hfirst sep hsep,
        ih (cons_ne_nil _ _) fun l hl => h l (mem_cons_of_mem _ hl)]
      rfl

/-- As many parts without the separator, read off two texts that go on in any way. -/
theorem joinToString_append_inj (sep : Char) {xs ys : List String} {a b : String}
    (hxs : ∀ s ∈ xs, sep ∉ s.toList) (hys : ∀ s ∈ ys, sep ∉ s.toList) (hne : xs ≠ [])
    (hlen : xs.length = ys.length)
    (h : joinToString (singleton sep) xs ++ singleton sep ++ a =
      joinToString (singleton sep) ys ++ singleton sep ++ b) : xs = ys := by
  have hfree : ∀ {zs : List String}, (∀ s ∈ zs, sep ∉ s.toList) →
      ∀ l ∈ zs.map toList, ∀ c ∈ l, (c == sep) = false := by
    intro zs hzs l hl c hc
    obtain ⟨s, hs, rfl⟩ := mem_map.mp hl
    rw [beq_eq_false_iff_ne]
    rintro rfl
    exact hzs s hs hc
  have hny : ys ≠ [] := by
    rintro rfl
    exact hne (length_eq_zero_iff.mp hlen)
  have hlists := congrArg (fun s => s.toList.splitOnP (· == sep)) h
  simp only [joinToString, String.toList_append, toList_ofList, String.toList_singleton,
    append_assoc, singleton_append] at hlists
  rw [splitOnP_intercalate_append (by simp) _ (by simpa using hne) (hfree hxs),
    splitOnP_intercalate_append (by simp) _ (by simpa using hny) (hfree hys)] at hlists
  have hmap := (append_inj hlists (by simpa using hlen)).1
  exact map_injective_iff.mpr (fun _ _ => String.toList_injective) hmap

/-- A text up to its last delimiter, where one is known. -/
theorem substringBeforeLast_append {s t : List Char} (ht : c ∉ t) :
    substringBeforeLast (ofList (s ++ c :: t)) c = ofList s := by
  have hdrop : (t.reverse ++ c :: s.reverse).dropWhile (· != c) = c :: s.reverse := by
    have hall : ∀ d ∈ t.reverse, (d != c) = true := by
      intro d hd
      rw [bne_iff_ne]
      rintro rfl
      exact ht (mem_reverse.mp hd)
    rw [dropWhile_append_of_pos hall]
    simp
  rw [substringBeforeLast, if_pos (by simp), toList_ofList, reverse_append,
    reverse_cons, append_assoc, singleton_append, hdrop]
  simp

theorem substringBeforeLast_of_notMem (h : c ∉ s.toList) : substringBeforeLast s c = s := by
  simp [substringBeforeLast, h]

/-! ### A text that is put together around a delimiter -/

section Cut

variable {a b : List Char} {c : Char}

theorem takeWhile_of_notMem (h : c ∉ a) : a.takeWhile (· != c) = a :=
  takeWhile_eq_self_iff.mpr fun d hd => by
    rw [bne_iff_ne]
    rintro rfl
    exact h hd

theorem dropWhile_of_notMem (h : c ∉ a) : a.dropWhile (· != c) = [] :=
  dropWhile_eq_nil_iff.mpr fun d hd => by
    rw [bne_iff_ne]
    rintro rfl
    exact h hd

/-- A text is cut at the first occurrence of a character. -/
theorem takeWhile_cut (h : c ∉ a) : (a ++ c :: b).takeWhile (· != c) = a := by
  rw [takeWhile_append, takeWhile_of_notMem h]
  simp

theorem dropWhile_cut (h : c ∉ a) : (a ++ c :: b).dropWhile (· != c) = c :: b := by
  rw [dropWhile_append, dropWhile_of_notMem h]
  simp

end Cut

theorem startsWith_append (start rest : String) : startsWith (start ++ rest) start = true := by
  rw [startsWith, String.toList_append, isPrefixOf_iff_prefix]
  exact List.prefix_append _ _

/-- A prefix of one character is the first character. -/
theorem startsWith_iff_head {start : String} {d : Char} (hstart : start.toList = [d]) :
    startsWith s start = true ↔ s.toList.head? = some d := by
  rw [startsWith, hstart]
  cases s.toList with
  | nil => simp
  | cons c l => simpa using eq_comm

theorem substringBefore_of_notMem (h : c ∉ s.toList) : substringBefore s c = s := by
  rw [substringBefore, takeWhile_of_notMem h, String.ofList_toList]

theorem mem_substringBefore {d : Char} (h : d ∈ (substringBefore s c).toList) : d ∈ s.toList := by
  rw [substringBefore, toList_ofList] at h
  exact (List.takeWhile_prefix _).subset h

/-- A text is what comes before its first delimiter, and the rest. -/
theorem substringBefore_spec (s : String) (c : Char) :
    c ∉ (substringBefore s c).toList ∧ (s = substringBefore s c ∨
      ∃ t, s.toList = (substringBefore s c).toList ++ c :: t) := by
  rw [substringBefore, toList_ofList]
  constructor
  · intro hmem
    simpa using mem_takeWhile_imp hmem
  · cases hrest : s.toList.dropWhile (· != c) with
    | nil =>
      have hall := takeWhile_append_dropWhile (p := (· != c)) (l := s.toList)
      rw [hrest, append_nil] at hall
      exact .inl (by rw [hall, String.ofList_toList])
    | cons d t =>
      have hd : d = c := by
        have := head?_dropWhile_not (· != c) s.toList
        rw [hrest] at this
        simpa using this
      refine .inr ⟨t, ?_⟩
      rw [← hd, ← hrest, hd, takeWhile_append_dropWhile]

/-! ## Numbers in texts -/

/-- Decimal numerals of different numbers differ. -/
theorem eq_of_toString_eq {m n : Nat} (h : toString m = toString n) : m = n := by
  rw [Nat.toString_eq_ofList_toDigits, Nat.toString_eq_ofList_toDigits, String.ofList_inj] at h
  calc m = Nat.ofDigitChars 10 (Nat.toDigits 10 m) 0 := by simp
    _ = n := by rw [h]; simp

/-- A number is written in digits. -/
theorem isDigit_of_mem_toString {n : Nat} (h : c ∈ (toString n).toList) : c.isDigit = true := by
  rw [Nat.toString_eq_ofList_toDigits, toList_ofList] at h
  exact Nat.isDigit_of_mem_toDigits (by decide) (by decide) h

theorem toString_ofNat (n : Nat) : toString (Int.ofNat n) = toString n := rfl

theorem toString_negSucc (n : Nat) : toString (Int.negSucc n) = "-" ++ toString (n + 1) := rfl

theorem mem_toString_int (h : c ∈ (toString n).toList) : c.isDigit = true ∨ c = '-' := by
  cases n with
  | ofNat n => exact .inl (isDigit_of_mem_toString (toString_ofNat n ▸ h))
  | negSucc n =>
    rw [toString_negSucc, toList_append, mem_append] at h
    rcases h with h | h
    · exact .inr (by simpa using h)
    · exact .inl (isDigit_of_mem_toString h)

/-- Different numbers are written differently. -/
theorem int_eq_of_toString_eq {m : Int} (h : toString m = toString n) : m = n := by
  have hminus : ∀ k l : Nat, toString k ≠ "-" ++ toString l := by
    intro k l heq
    have hmem : '-' ∈ (toString k).toList := by rw [heq]; simp
    exact absurd (isDigit_of_mem_toString hmem) (by decide)
  cases m with
  | ofNat m =>
    cases n with
    | ofNat n => exact congrArg Int.ofNat (eq_of_toString_eq h)
    | negSucc n => exact absurd h (hminus m (n + 1))
  | negSucc m =>
    cases n with
    | ofNat n => exact absurd h.symm (hminus n (m + 1))
    | negSucc n =>
      have := eq_of_toString_eq ((String.append_right_inj _).mp h)
      rw [Nat.succ_injective this]

/-- The first occurrence of a delimiter ends the first part. -/
theorem append_delimiter_inj {a a' b b' : List Char} (ha : c ∉ a) (ha' : c ∉ a')
    (h : a ++ ([c] ++ b) = a' ++ ([c] ++ b')) : a = a' ∧ b = b' := by
  rcases append_eq_append_iff.mp h with ⟨d, rfl, hd⟩ | ⟨d, rfl, hd⟩
  · cases d with
    | nil => simpa using hd
    | cons e d =>
      obtain rfl : c = e := by simpa using (List.cons.inj hd).1
      simp at ha'
  · cases d with
    | nil => simpa using hd.symm
    | cons e d =>
      obtain rfl : c = e := by simpa using (List.cons.inj hd).1
      simp at ha

/-- The first `@` of a text ends its first part. -/
theorem append_at_inj {s' t t' : String} (hs : '@' ∉ s.toList) (hs' : '@' ∉ s'.toList)
    (h : s ++ "@" ++ t = s' ++ "@" ++ t') : s = s' ∧ t = t' := by
  have hlists := congrArg toList h
  simp only [toList_append, append_assoc] at hlists
  obtain ⟨hfirst, hrest⟩ := append_delimiter_inj hs hs' hlists
  exact ⟨toList_inj.mp hfirst, toList_inj.mp hrest⟩

/-- A port can be read off the end of a text. -/
theorem append_port_inj {s' : String} {n' : Int}
    (h : s ++ ":" ++ toString n = s' ++ ":" ++ toString n') : s = s' ∧ n = n' := by
  have hcolon : ∀ k : Int, ':' ∉ (toString k).toList.reverse := by
    intro k hmem
    rcases mem_toString_int (mem_reverse.mp hmem) with hd | hd <;> exact absurd hd (by decide)
  -- read from the end, the colon comes after the digits
  have hlists := congrArg (fun t => t.toList.reverse) h
  simp only [toList_append, reverse_append] at hlists
  obtain ⟨hnum, hrest⟩ := append_delimiter_inj (hcolon n) (hcolon n') hlists
  refine ⟨toList_inj.mp (reverse_injective hrest), int_eq_of_toString_eq ?_⟩
  exact toList_inj.mp (reverse_injective hnum)

end OlcVpn.Kotlin
