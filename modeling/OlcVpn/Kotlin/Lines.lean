/-
  LINES of a text, as the line parsers see them.

  Kotlin cuts a text into lines in two ways: `lineSequence()`, for which CR LF is one break, and
  `split('\n', '\r')`, for which it is two with an empty piece between.  Some parsers trim the whole
  text before they cut it.  All of them trim every line and skip the empty ones, and then it makes
  no difference: what is left is `nonBlankLines`.
-/
import Mathlib.Data.List.Infix
import OlcVpn.Kotlin.Text

namespace OlcVpn.Kotlin

open List
open String (ofList toList_ofList)

def isLineBreak (c : Char) : Bool := c = '\n' || c = '\r'

/-- A carriage return before a line feed is part of that break. -/
def joinBreaks : List Char → List Char
  | [] => []
  | c :: rest =>
    if c = '\r' ∧ rest.head? = some '\n' then joinBreaks rest else c :: joinBreaks rest

/-- `lineSequence()`. -/
def lineSequence (s : String) : List String :=
  ((joinBreaks s.toList).splitOnP isLineBreak).map ofList

/-- The trimmed lines that are not empty. -/
def nonBlank (lines : List String) : List String :=
  (lines.map trim).filter (· ≠ "")

def nonBlankLines (s : String) : List String := nonBlank (lineSequence s)

/-- `filterNot { it.isWhitespace() }`. -/
def withoutWhitespace (s : String) : String :=
  ofList (s.toList.filter fun c => !isWhitespace c)

/-! ## Trimming characters -/

/-- `trim` on characters. -/
def trimChars (l : List Char) : List Char := (l.dropWhile isWhitespace).rdropWhile isWhitespace

theorem trim_ofList (l : List Char) : trim (ofList l) = ofList (trimChars l) := by
  simp [trim, trimWhere, trimChars]

theorem toList_trim (s : String) : (trim s).toList = trimChars s.toList := by
  rw [trim, trimWhere, toList_ofList, trimChars]

variable {c : Char} {l w : List Char} {s : String}

theorem trimChars_cons (hc : isWhitespace c = true) (l : List Char) :
    trimChars (c :: l) = trimChars l := by
  simp [trimChars, hc]

theorem rdropWhile_append (hw : ∀ c ∈ w, isWhitespace c = true) :
    (l ++ w).rdropWhile isWhitespace = l.rdropWhile isWhitespace := by
  induction w using List.reverseRecOn with
  | nil => simp
  | append_singleton w c ih =>
    rw [← append_assoc, rdropWhile_concat_pos _ _ _ (hw c (by simp))]
    exact ih fun d hd => hw d (by simp [hd])

/-- White space at the end of a line does not count. -/
theorem trimChars_append (hw : ∀ c ∈ w, isWhitespace c = true) :
    trimChars (l ++ w) = trimChars l := by
  induction l with
  | nil =>
    have hdrop : w.dropWhile isWhitespace = [] := dropWhile_eq_nil_iff.mpr hw
    simp [trimChars, hdrop]
  | cons c l ih =>
    by_cases hc : isWhitespace c = true
    · rw [cons_append, trimChars_cons hc, trimChars_cons hc, ih]
    · simp only [trimChars, cons_append, dropWhile_cons, hc]
      exact rdropWhile_append (l := c :: l) hw

/-- Stripping stops at the first solid part. -/
theorem dropWhile_append_solid (before : List Char) {middle : List Char} (hne : middle ≠ [])
    (hsolid : ∀ c ∈ middle, isWhitespace c = false) (rest : List Char) :
    (before ++ (middle ++ rest)).dropWhile isWhitespace = before.dropWhile isWhitespace ++
      (middle ++ rest) := by
  obtain ⟨first, tail, rfl⟩ := exists_cons_of_ne_nil hne
  rw [dropWhile_append]
  split_ifs with hblank
  · rw [isEmpty_iff.mp hblank, cons_append, dropWhile_cons_of_neg (by simp [hsolid first])]
    rfl
  · rfl

/-- Trimming stays outside of what is solid. -/
theorem trimChars_around (before after : List Char) {middle : List Char} (hne : middle ≠ [])
    (hsolid : ∀ c ∈ middle, isWhitespace c = false) : trimChars (before ++ middle ++ after) =
      before.dropWhile isWhitespace ++ middle ++ after.rdropWhile isWhitespace := by
  have hback := dropWhile_append_solid after.reverse (show middle.reverse ≠ [] by simpa using hne)
    (by simpa using hsolid) (before.dropWhile isWhitespace).reverse
  rw [trimChars, append_assoc, dropWhile_append_solid before hne hsolid, rdropWhile]
  simp [hback, rdropWhile]

/-- Trimming leaves something of a text exactly if it is not blank. -/
@[simp] theorem isBlank_trim (s : String) : isBlank (trim s) = isBlank s := by
  rw [Bool.eq_iff_iff, (trimmed_trim s).isBlank_iff, trim, trimWhere, isBlank, all_eq_true,
    ← String.toList_inj, toList_ofList, String.toList_empty]
  constructor
  · intro hnil
    have hall := rdropWhile_eq_nil_iff.mp hnil
    have hdrop : s.toList.dropWhile isWhitespace = [] := by
      cases hl : s.toList.dropWhile isWhitespace with
      | nil => rfl
      | cons c l =>
        have hhead := head?_dropWhile_not isWhitespace s.toList
        rw [hl] at hhead
        simp [hall c (by simp [hl])] at hhead
    exact dropWhile_eq_nil_iff.mp hdrop
  · intro hall
    rw [dropWhile_eq_nil_iff.mpr hall]
    rfl

theorem isNotBlank_trim (s : String) : isNotBlank (trim s) = isNotBlank s := by
  rw [isNotBlank, isBlank_trim, isNotBlank]

theorem ifBlank_eq_self {text default : String} (h : isNotBlank text = true) :
    ifBlank text default = text := by
  rw [ifBlank, if_neg]
  intro hblank
  rw [isNotBlank, hblank] at h
  cases h

/-- A property of lines that ignores outer white space and blank lines, is one of the lines that are
    left. -/
theorem any_lines {f : String → Bool} (htrim : ∀ line, f (trim line) = f line)
    (hempty : f "" = false)
    (lines : List String) : lines.any f = (nonBlank lines).any f := by
  induction lines with
  | nil => rfl
  | cons line lines ih =>
    rw [any_cons, ih, nonBlank, nonBlank, map_cons]
    by_cases hline : trim line = ""
    · rw [filter_cons_of_neg (by simpa using hline), ← htrim, hline, hempty, Bool.false_or]
    · rw [filter_cons_of_pos (by simpa using hline), any_cons, htrim]

/-! ## The pieces that count -/

/-- The pieces that are left after trimming. -/
def solid (pieces : List (List Char)) : List (List Char) :=
  (pieces.map trimChars).filter (· ≠ [])

/-- The lines that are not blank, as lists of characters. -/
theorem nonBlank_ofList (pieces : List (List Char)) :
    nonBlank (pieces.map ofList) = (solid pieces).map ofList := by
  simp only [nonBlank, solid, map_map, filter_map]
  congr 1
  · funext l
    simp [trim_ofList]
  · refine filter_congr fun l _ => ?_
    simp [trim_ofList]

theorem solid_blank (hl : ∀ c ∈ l, isWhitespace c = true) (pieces : List (List Char)) :
    solid (l :: pieces) = solid pieces := by
  have hnil : trimChars l = [] := by
    simpa [trimChars] using trimChars_append (l := []) hl
  simp [solid, hnil]

/-- Lines count up to the white space around them. -/
theorem solid_cons_congr {l' : List Char} {pieces pieces' : List (List Char)}
    (hhead : trimChars l = trimChars l') (htail : solid pieces = solid pieces') :
    solid (l :: pieces) = solid (l' :: pieces') := by
  simp only [solid] at htail
  simp only [solid, map_cons, hhead, filter_cons, htail]

theorem isWhitespace_of_isLineBreak (h : isLineBreak c = true) : isWhitespace c = true := by
  simp only [isLineBreak, Bool.or_eq_true, decide_eq_true_eq] at h
  rcases h with rfl | rfl <;> decide

theorem splitOnP_break (hc : isLineBreak c = true) (l : List Char) :
    (c :: l).splitOnP isLineBreak = [] :: l.splitOnP isLineBreak := by
  simp [splitOnP_cons_eq_if_modifyHead, hc]

theorem splitOnP_char (hc : isLineBreak c = false) {head : List Char} {tail : List (List Char)}
    (hl : l.splitOnP isLineBreak = head :: tail) : (c :: l).splitOnP isLineBreak =
      (c :: head) :: tail := by
  simp [splitOnP_cons_eq_if_modifyHead, hc, hl]

/-- Joining CR with LF changes no piece but empty ones. -/
theorem splitOnP_joinBreaks (l : List Char) : ∃ head tail tail',
    (joinBreaks l).splitOnP isLineBreak = head :: tail ∧
    l.splitOnP isLineBreak = head :: tail' ∧ solid tail = solid tail' := by
  induction l with
  | nil => exact ⟨[], [], [], rfl, rfl, rfl⟩
  | cons c rest ih =>
    obtain ⟨head, tail, tail', hjoined, hplain, hsolid⟩ := ih
    by_cases hpair : c = '\r' ∧ rest.head? = some '\n'
    · obtain ⟨rfl, hlf⟩ := hpair
      obtain ⟨r, rfl⟩ : ∃ r, rest = '\n' :: r := by
        cases rest with
        | nil => simp at hlf
        | cons d r =>
          obtain rfl : d = '\n' := by simpa using hlf
          exact ⟨r, rfl⟩
      rw [splitOnP_break (by decide)] at hplain
      obtain ⟨rfl, rfl⟩ := List.cons.inj hplain
      refine ⟨[], tail, [] :: r.splitOnP isLineBreak, ?_, ?_, ?_⟩
      · simpa [joinBreaks] using hjoined
      · rw [splitOnP_break (by decide), splitOnP_break (by decide)]
      · rw [solid_blank (by simp), hsolid]
    · have hkeep : joinBreaks (c :: rest) = c :: joinBreaks rest := by
        rw [joinBreaks, if_neg hpair]
      rw [hkeep]
      cases hbreak : isLineBreak c with
      | true =>
        refine ⟨[], _, _, splitOnP_break hbreak _, splitOnP_break hbreak _, ?_⟩
        rw [hjoined, hplain]
        exact solid_cons_congr rfl hsolid
      | false =>
        exact ⟨c :: head, tail, tail', splitOnP_char hbreak hjoined,
          splitOnP_char hbreak hplain, hsolid⟩

/-- Joining `\r\n` to one break adds and removes only blank lines. -/
theorem solid_joinBreaks (l : List Char) :
    solid ((joinBreaks l).splitOnP isLineBreak) = solid (l.splitOnP isLineBreak) := by
  obtain ⟨head, tail, tail', hjoined, hplain, hsolid⟩ := splitOnP_joinBreaks l
  rw [hjoined, hplain]
  exact solid_cons_congr rfl hsolid

/-- The lines of a text, whichever way the breaks are counted. -/
theorem nonBlankLines_eq (s : String) :
    nonBlankLines s = (solid (s.toList.splitOnP isLineBreak)).map ofList := by
  rw [nonBlankLines, lineSequence, nonBlank_ofList, solid_joinBreaks]

/-- `split('\n', '\r')` gives the same lines. -/
theorem nonBlank_split (s : String) : nonBlank (splitWhere isLineBreak s) = nonBlankLines s := by
  rw [splitWhere, nonBlank_ofList, nonBlankLines_eq]

/-! ## Trimming the text first -/

theorem splitOnP_ne_nil (l : List Char) : ∃ head tail, l.splitOnP isLineBreak = head :: tail :=
  List.exists_cons_of_ne_nil (List.splitOnP_ne_nil _ _)

/-- White space in front of a text, a break or not, changes no line of it. -/
theorem solid_split_cons (hc : isWhitespace c = true) (l : List Char) :
    solid ((c :: l).splitOnP isLineBreak) = solid (l.splitOnP isLineBreak) := by
  cases hbreak : isLineBreak c with
  | true => rw [splitOnP_break hbreak, solid_blank (by simp)]
  | false =>
    obtain ⟨head, tail, hl⟩ := splitOnP_ne_nil l
    rw [splitOnP_char hbreak hl, hl]
    exact solid_cons_congr (trimChars_cons hc head) rfl

theorem solid_split_dropWhile (l : List Char) :
    solid ((l.dropWhile isWhitespace).splitOnP isLineBreak) =
      solid (l.splitOnP isLineBreak) := by
  induction l with
  | nil => rfl
  | cons c l ih =>
    by_cases hc : isWhitespace c = true
    · rw [dropWhile_cons_of_pos hc, ih, solid_split_cons hc]
    · rw [dropWhile_cons_of_neg hc]

theorem solid_split_whitespace (hw : ∀ c ∈ w, isWhitespace c = true) :
    solid (w.splitOnP isLineBreak) = [] := by
  rw [← solid_split_dropWhile, dropWhile_eq_nil_iff.mpr hw]
  rfl

/-- White space after a text only adds to its last piece, and blank pieces. -/
theorem splitOnP_append (l : List Char) (hw : ∀ c ∈ w, isWhitespace c = true) :
    ∃ head blank tail tail', (∀ c ∈ blank, isWhitespace c = true) ∧
      (l ++ w).splitOnP isLineBreak = (head ++ blank) :: tail ∧
      l.splitOnP isLineBreak = head :: tail' ∧ solid tail = solid tail' := by
  induction l with
  | nil =>
    obtain ⟨head, tail, hsplit⟩ := splitOnP_ne_nil w
    have hall := solid_split_whitespace hw
    have hhead : ∀ c ∈ head, isWhitespace c = true := by
      intro c hc
      by_contra hnot
      have hne : trimChars head ≠ [] := by
        intro hnil
        have hdrop : ∀ d ∈ head.dropWhile isWhitespace, isWhitespace d = true :=
          rdropWhile_eq_nil_iff.mp hnil
        cases hd : head.dropWhile isWhitespace with
        | nil => exact hnot (dropWhile_eq_nil_iff.mp hd c hc)
        | cons d rest =>
          have hkept := head_dropWhile_not isWhitespace (l := head) (by simp [hd])
          simp only [hd, head_cons] at hkept
          simp [hdrop d (by simp [hd])] at hkept
      rw [hsplit, solid, map_cons, filter_cons_of_pos (by simpa using hne)] at hall
      simp at hall
    refine ⟨[], head, tail, [], hhead, by simpa using hsplit, rfl, ?_⟩
    rw [hsplit, solid_blank hhead] at hall
    rw [hall]
    rfl
  | cons c l ih =>
    obtain ⟨head, blank, tail, tail', hblank, hlong, hshort, hsolid⟩ := ih
    cases hbreak : isLineBreak c with
    | true =>
      refine ⟨[], [], (l ++ w).splitOnP isLineBreak, _, by simp, splitOnP_break hbreak _,
        splitOnP_break hbreak _, ?_⟩
      rw [hlong, hshort]
      exact solid_cons_congr (trimChars_append hblank) hsolid
    | false =>
      exact ⟨c :: head, blank, tail, tail', hblank, splitOnP_char hbreak hlong,
        splitOnP_char hbreak hshort, hsolid⟩

/-- And none behind it does. -/
theorem solid_split_append (l : List Char) (hw : ∀ c ∈ w, isWhitespace c = true) :
    solid ((l ++ w).splitOnP isLineBreak) = solid (l.splitOnP isLineBreak) := by
  obtain ⟨head, blank, tail, tail', hblank, hlong, hshort, hsolid⟩ := splitOnP_append l hw
  rw [hlong, hshort]
  exact solid_cons_congr (trimChars_append hblank) hsolid

/-- Trimming a text first changes none of its lines. -/
@[simp] theorem nonBlankLines_trim (s : String) : nonBlankLines (trim s) = nonBlankLines s := by
  have hsplit : ∀ l : List Char, solid ((l.rdropWhile isWhitespace).splitOnP isLineBreak) =
      solid (l.splitOnP isLineBreak) := by
    intro l
    have happend : l.rdropWhile isWhitespace ++ l.rtakeWhile isWhitespace = l := by
      simp [List.rdropWhile, List.rtakeWhile, ← reverse_append]
    have hw : ∀ c ∈ l.rtakeWhile isWhitespace, isWhitespace c = true := by
      intro c hc
      exact mem_takeWhile_imp (mem_reverse.mp hc)
    conv_rhs => rw [← happend]
    exact (solid_split_append _ hw).symm
  rw [nonBlankLines_eq, nonBlankLines_eq, trim, trimWhere, toList_ofList, hsplit,
    solid_split_dropWhile]

/-! ## The text with its lines glued together -/

/-- The characters that are not white space. -/
def inked (l : List Char) : List Char := l.filter fun c => !isWhitespace c

theorem inked_blank (hl : ∀ c ∈ l, isWhitespace c = true) : inked l = [] :=
  filter_eq_nil_iff.mpr fun c hc => by simp [hl c hc]

theorem inked_append (l l' : List Char) : inked (l ++ l') = inked l ++ inked l' := filter_append ..

theorem inked_rdropWhile (l : List Char) : inked (l.rdropWhile isWhitespace) = inked l := by
  have happend : l.rdropWhile isWhitespace ++ l.rtakeWhile isWhitespace = l := by
    simp [List.rdropWhile, List.rtakeWhile, ← reverse_append]
  have hblank : inked (l.rtakeWhile isWhitespace) = [] :=
    inked_blank fun c hc => mem_takeWhile_imp (mem_reverse.mp hc)
  conv_rhs => rw [← happend, inked_append, hblank, append_nil]

theorem inked_trimChars (l : List Char) : inked (trimChars l) = inked l := by
  have hfront : inked (l.takeWhile isWhitespace) = [] :=
    inked_blank fun c hc => mem_takeWhile_imp hc
  conv_rhs => rw [← takeWhile_append_dropWhile (p := isWhitespace) (l := l)]
  rw [inked_append, hfront, trimChars, inked_rdropWhile, nil_append]

/-- Breaking a text into lines loses white space only. -/
theorem inked_split (l : List Char) : inked l = (l.splitOnP isLineBreak).flatMap inked := by
  induction l with
  | nil => rfl
  | cons c l ih =>
    cases hbreak : isLineBreak c with
    | true =>
      rw [splitOnP_break hbreak, flatMap_cons, ← ih]
      simp [inked, isWhitespace_of_isLineBreak hbreak]
    | false =>
      obtain ⟨head, tail, hl⟩ := splitOnP_ne_nil l
      have hcons : ∀ m, inked (c :: m) = inked [c] ++ inked m := fun m => inked_append [c] m
      rw [splitOnP_char hbreak hl, flatMap_cons, hcons l, hcons head, ih, hl, flatMap_cons,
        append_assoc]

theorem inked_solid (pieces : List (List Char)) :
    (solid pieces).flatMap inked = pieces.flatMap inked := by
  induction pieces with
  | nil => rfl
  | cons l pieces ih =>
    simp only [solid] at ih
    by_cases hnil : trimChars l = []
    · have hl := inked_trimChars l
      rw [hnil] at hl
      simp only [solid, map_cons, flatMap_cons, ← hl]
      rw [filter_cons_of_neg (by simpa using hnil), ih]
      rfl
    · simp only [solid, map_cons, flatMap_cons, ← inked_trimChars l]
      rw [filter_cons_of_pos (by simpa using hnil), flatMap_cons, ih]

/-- What is left of a text without its white space is solid. -/
theorem solid_withoutWhitespace (s : String) :
    ∀ c ∈ (withoutWhitespace s).toList, isWhitespace c = false := by
  intro c hc
  rw [withoutWhitespace, toList_ofList, mem_filter] at hc
  simpa using hc.2

theorem trimmed_of_solid (h : ∀ c ∈ s.toList, isWhitespace c = false) : Trimmed s where
  head c hc := h c (mem_of_mem_head? hc)
  last c hc := h c (mem_of_mem_getLast? hc)

theorem withoutWhitespace_eq_self (h : ∀ c ∈ s.toList, isWhitespace c = false) :
    withoutWhitespace s = s := by
  have hkept : s.toList.filter (fun c => !isWhitespace c) = s.toList :=
    filter_eq_self.mpr fun c hc => by rw [h c hc]; rfl
  rw [withoutWhitespace, hkept, String.ofList_toList]

/-- Without its white space a text is its lines, one after the other. -/
theorem withoutWhitespace_lines (s : String) : (withoutWhitespace s).toList =
      (nonBlankLines s).flatMap fun line => (withoutWhitespace line).toList := by
  have hchars : ∀ t : String, (withoutWhitespace t).toList = inked t.toList := by
    intro t
    simp [withoutWhitespace, inked]
  simp only [hchars, nonBlankLines_eq, flatMap_map, toList_ofList]
  rw [inked_solid, ← inked_split]

/-- The first character of a text that is not white space. -/
theorem head_trim (s : String) : (trim s).toList.head? = (withoutWhitespace s).toList.head? := by
  have hinked : (withoutWhitespace s).toList = inked (trimChars s.toList) := by
    rw [inked_trimChars]
    simp [withoutWhitespace, inked]
  have hhead := (trimmed_trim s).head
  rw [toList_trim] at hhead
  rw [toList_trim, hinked]
  cases hl : trimChars s.toList with
  | nil => rfl
  | cons c l =>
    have hc : isWhitespace c = false := hhead c (by simp [hl])
    simp [inked, hc]

/-! ## Lines are parts of the text -/

/-- `contains`, as a relation of lists. -/
theorem contains_iff_isInfix (s other : String) :
    contains s other = true ↔ other.toList <:+: s.toList := by
  simp only [contains, any_eq_true, mem_tails, isPrefixOf_iff_prefix, infix_iff_prefix_suffix]
  exact exists_congr fun _ => and_comm

theorem infix_of_mem_splitOnP {p : Char → Bool} {piece : List Char} (h : piece ∈ l.splitOnP p) :
    piece <:+: l := by
  have hhead : ∀ {l head : List Char} {tail : List (List Char)},
      l.splitOnP p = head :: tail → head <+: l := by
    intro l
    induction l with
    | nil =>
      intro head tail hl
      rw [splitOnP_nil, List.cons.injEq] at hl
      exact hl.1 ▸ nil_prefix
    | cons c l ih =>
      intro head tail hl
      rw [splitOnP_cons_eq_if_modifyHead] at hl
      split_ifs at hl
      · exact (List.cons.inj hl).1 ▸ nil_prefix
      · cases hsplit : l.splitOnP p with
        | nil => exact absurd hsplit (List.splitOnP_ne_nil p l)
        | cons first rest =>
          rw [hsplit, modifyHead_cons] at hl
          rw [← (List.cons.inj hl).1]
          exact cons_prefix_cons.mpr ⟨rfl, ih hsplit⟩
  induction l with
  | nil =>
    rw [splitOnP_nil, mem_singleton] at h
    exact h ▸ nil_infix
  | cons c l ih =>
    cases hsplit : l.splitOnP p with
    | nil => exact absurd hsplit (List.splitOnP_ne_nil p l)
    | cons first rest =>
      by_cases hc : p c = true
      · rw [splitOnP_cons_eq_if_modifyHead, if_pos hc] at h
        rcases mem_cons.mp h with rfl | h
        · exact nil_infix
        · exact (ih h).trans (suffix_cons c l).isInfix
      · have hcons : (c :: l).splitOnP p = (c :: first) :: rest := by
          rw [splitOnP_cons_eq_if_modifyHead, if_neg hc, hsplit, modifyHead_cons]
        rw [hcons] at h
        rcases mem_cons.mp h with rfl | h
        · exact (hhead hcons).isInfix
        · have hmem : piece ∈ l.splitOnP p := hsplit ▸ mem_cons_of_mem _ h
          exact (ih hmem).trans (suffix_cons c l).isInfix

theorem trimChars_isInfix (l : List Char) : trimChars l <:+: l :=
  (List.rdropWhile_prefix _ _).isInfix.trans (dropWhile_suffix _).isInfix

/-- What a line of a text is. -/
structure IsLine (s line : String) : Prop where
  trimmed : Trimmed line
  nonempty : line ≠ ""
  noBreak : ∀ c ∈ line.toList, isLineBreak c = false
  isInfix : line.toList <:+: s.toList

/-- A line is a part of its text, trimmed and not blank. -/
theorem isLine_of_mem {line : String} (h : line ∈ nonBlankLines s) : IsLine s line := by
  rw [nonBlankLines_eq, mem_map] at h
  obtain ⟨l, hl, rfl⟩ := h
  obtain ⟨hmem, hne⟩ := mem_filter.mp hl
  obtain ⟨piece, hpiece, rfl⟩ := mem_map.mp hmem
  have htrim : ofList (trimChars piece) = trim (ofList piece) :=
    (trim_ofList piece).symm
  refine ⟨htrim ▸ trimmed_trim _, ?_, ?_, ?_⟩
  · simpa using hne
  · intro c hc
    rw [toList_ofList] at hc
    exact not_of_mem_splitOnP hpiece c ((trimChars_isInfix piece).subset hc)
  · rw [toList_ofList]
    exact (trimChars_isInfix piece).trans (infix_of_mem_splitOnP hpiece)

/-- A text without a break is one line. -/
theorem lineSequence_of_noBreak (h : ∀ c ∈ s.toList, isLineBreak c = false) :
    lineSequence s = [s] := by
  have hjoin : ∀ l : List Char, (∀ c ∈ l, isLineBreak c = false) → joinBreaks l = l := by
    intro l hl
    induction l with
    | nil => rfl
    | cons c l ih =>
      have hc : c ≠ '\r' := by
        rintro rfl
        exact absurd (hl '\r' mem_cons_self) (by decide)
      rw [joinBreaks, if_neg (by simp [hc]), ih fun d hd => hl d (mem_cons_of_mem _ hd)]
  rw [lineSequence, hjoin _ h, splitOnP_eq_singleton h]
  simp

/-- A line is the only line of itself. -/
theorem nonBlankLines_line {line : String} (h : IsLine s line) : nonBlankLines line = [line] := by
  have hsplit : line.toList.splitOnP isLineBreak = [line.toList] :=
    splitOnP_eq_singleton h.noBreak
  have htrim : trimChars line.toList = line.toList := trim_eq_self h.trimmed
  have hne : line.toList ≠ [] := by simpa using h.nonempty
  rw [nonBlankLines_eq, hsplit, solid, map_cons, map_nil, htrim,
    filter_cons_of_pos (by simpa using hne)]
  simp

/-! ## Comparing without case -/

/-- Only letters fold onto small letters. -/
theorem eq_of_foldAscii {d : Char} (hd : d.toNat < 97 ∨ 122 < d.toNat) (h : foldAscii c = d) :
    c = d := by
  unfold foldAscii at h
  split_ifs at h
  · subst h
    exact absurd hd (by decide)
  · subst h
    exact absurd hd (by decide)
  · subst h
    exact absurd hd (by decide)
  · by_cases hup : c.val ≥ 'A'.val ∧ c.val ≤ 'Z'.val
    · -- an upper-case letter becomes a lower-case one
      have hlow : 65 ≤ c.toNat := hup.1
      have hhigh : c.toNat ≤ 90 := hup.2
      have hlower : c.toLower.toNat = c.toNat + 32 := by
        have hval : c.toLower.val = c.val + ('a'.val - 'A'.val) :=
          congrArg Char.val (show c.toLower = _ from dif_pos hup)
        have hnat : c.toLower.toNat = (c.toNat + 32) % 4294967296 := by
          rw [Char.toNat, hval, UInt32.toNat_add]
          rfl
        rw [Nat.mod_eq_of_lt (by omega)] at hnat
        exact hnat
      rw [h] at hlower
      omega
    · rwa [show c.toLower = c from dif_neg hup] at h

/-- The part of a text that a word was compared with. -/
theorem start_of_startsWithIgnoreCase {word : String} (h : startsWithIgnoreCase s word = true) :
    ∃ start rest, s.toList = start ++ rest ∧ start.map foldAscii = word.toList := by
  rw [startsWithIgnoreCase, isPrefixOf_iff_prefix, prefix_iff_eq_take] at h
  refine ⟨s.toList.take word.toList.length, s.toList.drop word.toList.length,
    (take_append_drop _ _).symm, ?_⟩
  rw [map_take, ← h]

/-- A word that starts a text, in any case, starts with its first letter. -/
theorem head_of_startsWithIgnoreCase {word : String} (hne : word.toList ≠ [])
    (h : startsWithIgnoreCase s word = true) : s.toList.head?.map foldAscii =
      word.toList.head? := by
  obtain ⟨rest, hrest⟩ := isPrefixOf_iff_prefix.mp h
  rw [← head?_map, ← hrest, head?_append_of_ne_nil _ hne]

theorem startsWithIgnoreCase_of_startsWith {word : String} (h : startsWith s word = true)
    (hword : word.toList.map foldAscii = word.toList) : startsWithIgnoreCase s word = true := by
  rw [startsWith, isPrefixOf_iff_prefix] at h
  rw [startsWithIgnoreCase, isPrefixOf_iff_prefix, ← hword]
  exact h.map foldAscii

/-- A known start decides every other that it is not itself the start of. -/
theorem startsWithIgnoreCase_of_start (word : String) {start : String}
    (hstart : startsWithIgnoreCase s start = true)
    (hword : start.toList.isPrefixOf word.toList = false ∨ start = word) :
    startsWithIgnoreCase s word = word.toList.isPrefixOf start.toList := by
  rw [startsWithIgnoreCase, isPrefixOf_iff_prefix] at hstart
  rw [startsWithIgnoreCase, Bool.eq_iff_iff, isPrefixOf_iff_prefix, isPrefixOf_iff_prefix]
  constructor
  · intro hline
    rcases hword with hword | rfl
    · rcases prefix_or_prefix_of_prefix hline hstart with h | h
      · exact h
      · exact absurd (List.isPrefixOf_iff_prefix.mpr h) (by simp [hword])
    · exact prefix_rfl
  · exact fun h => h.trans hstart

/-- What is not white space survives trimming. -/
theorem mem_trim_of_mem (hc : isWhitespace c = false) (h : c ∈ s.toList) : c ∈ (trim s).toList := by
  have hinked : c ∈ inked (trimChars s.toList) := by
    rw [inked_trimChars]
    exact mem_filter.mpr ⟨h, by simp [hc]⟩
  rw [toList_trim]
  exact (mem_filter.mp hinked).1

/-! ## Lines put together -/

/-- No line break in the text. -/
def NoBreak (s : String) : Prop := ∀ c ∈ s.toList, isLineBreak c = false

theorem joinBreaks_of_notMem (h : '\r' ∉ l) : joinBreaks l = l := by
  induction l with
  | nil => rfl
  | cons c l ih =>
    rw [mem_cons, not_or] at h
    rw [joinBreaks, if_neg fun hc => h.1 hc.1.symm, ih h.2]

/-- Lines without breaks are found again. -/
theorem lineSequence_join {lines : List String} (hne : lines ≠ [])
    (h : ∀ line ∈ lines, NoBreak line) :
    lineSequence (joinToString "\n" lines) = lines := by
  have hreturn : '\r' ∉ (joinToString "\n" lines).toList := by
    intro hmem
    obtain hmem | ⟨line, hline, hmem⟩ := mem_joinToString hmem
    · exact absurd hmem (by decide)
    · exact absurd (h line hline _ hmem) (by decide)
  rw [lineSequence, joinBreaks_of_notMem hreturn]
  exact splitWhere_joinToString '\n' (by decide) hne h

end OlcVpn.Kotlin
