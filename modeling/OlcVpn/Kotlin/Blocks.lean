/-
  RAW TEXT BLOCKS: `"""…""".trimIndent()`.

  A block is written over several lines, all indented with the code around it.  `trimIndent` takes
  the smallest indentation of a line that is not blank off every line, after the values have been
  put in: a value of SEVERAL LINES brings lines without the indentation, and then less is taken off.
-/
import OlcVpn.Kotlin.Lines

namespace OlcVpn.Kotlin

open List

/-- The blanks in front of a line. -/
def indentWidth (line : String) : Nat := (line.toList.takeWhile isWhitespace).length

/-- A blank first and a blank last line are left out. -/
def withoutBlankEnds (lines : List String) : List String :=
  let kept := lines.dropLast ++ lines.getLast?.toList.filter isNotBlank
  kept.head?.toList.filter isNotBlank ++ kept.tail

/-- The smallest indentation of a line that is not blank. -/
def minCommonIndent (lines : List String) : Nat :=
  (((lines.filter isNotBlank).map indentWidth).min?).getD 0

/-- `trimIndent()`. -/
def trimIndent (s : String) : String :=
  let lines := lineSequence s
  joinToString "\n" ((withoutBlankEnds lines).map (substringFrom · (minCommonIndent lines)))

/-- A line after `n` blanks. -/
def spaced (n : Nat) (line : String) : String := String.ofList (List.replicate n ' ') ++ line

/-! ## A line after blanks -/

section Spaced

variable (n : Nat) (line : String)

theorem toList_spaced : (spaced n line).toList = List.replicate n ' ' ++ line.toList := by
  rw [spaced, String.toList_append, String.toList_ofList]

theorem isNotBlank_spaced : isNotBlank (spaced n line) = isNotBlank line := by
  have hblank : (List.replicate n ' ').all isWhitespace = true :=
    all_eq_true.mpr fun c hc => by rw [eq_of_mem_replicate hc]; decide
  rw [isNotBlank, isBlank, toList_spaced, all_append, hblank, Bool.true_and]
  rfl

theorem indentWidth_spaced : indentWidth (spaced n line) = n + indentWidth line := by
  have hblank : ∀ c ∈ List.replicate n ' ', isWhitespace c = true :=
    fun c hc => by rw [eq_of_mem_replicate hc]; decide
  rw [indentWidth, toList_spaced, takeWhile_append_of_pos hblank, length_append, length_replicate]
  rfl

theorem substringFrom_spaced {m : Nat} (h : m ≤ n) :
    substringFrom (spaced n line) m = spaced (n - m) line := by
  have hlen : m ≤ (List.replicate n ' ').length := by simpa using h
  rw [substringFrom, toList_spaced, drop_append_of_le_length hlen, drop_replicate, spaced,
    String.ofList_append, String.ofList_toList]

theorem spaced_zero : spaced 0 line = line := by simp [spaced]

theorem noBreak_spaced (h : NoBreak line) : NoBreak (spaced n line) := by
  intro c hc
  rw [toList_spaced, mem_append] at hc
  rcases hc with hc | hc
  · rw [eq_of_mem_replicate hc]
    decide
  · exact h c hc

end Spaced

/-! ## What is taken off -/

theorem withoutBlankEnds_block (lines : List String) {last : String}
    (hlast : isNotBlank last = false) :
    withoutBlankEnds ("" :: lines ++ [last]) = lines := by
  have hempty : isNotBlank "" = false := rfl
  rw [withoutBlankEnds, dropLast_concat, getLast?_concat]
  simp [hlast, hempty]

theorem minCommonIndent_block (lines : List String) {last : String}
    (hlast : isNotBlank last = false) :
    minCommonIndent ("" :: lines ++ [last]) = minCommonIndent lines := by
  have hempty : isNotBlank "" = false := rfl
  simp [minCommonIndent, hlast, hempty]

/-- A block between two quotes: its blank ends go, and the indent its lines share. -/
theorem trimIndent_block {lines : List String} {last : String} (hlast : isNotBlank last = false)
    (hbreak : NoBreak last) (h : ∀ line ∈ lines, NoBreak line) :
    trimIndent (joinToString "\n" ("" :: lines ++ [last])) =
      joinToString "\n" (lines.map (substringFrom · (minCommonIndent lines))) := by
  have hlines : lineSequence (joinToString "\n" ("" :: lines ++ [last])) = "" :: lines ++
      [last] := by
    apply lineSequence_join (by simp)
    intro line hline
    rcases mem_append.mp hline with hline | hline
    · rcases mem_cons.mp hline with rfl | hline
      · intro c hc
        cases hc
      · exact h line hline
    · rw [mem_singleton.mp hline]
      exact hbreak
  rw [trimIndent, hlines, withoutBlankEnds_block lines hlast, minCommonIndent_block lines hlast]

/-- The indentation of any line that is not blank is at least the common one. -/
theorem minCommonIndent_le {lines : List String} {line : String} (hline : line ∈ lines)
    (h : isNotBlank line = true) : minCommonIndent lines ≤ indentWidth line := by
  have hmem : indentWidth line ∈ (lines.filter isNotBlank).map indentWidth :=
    mem_map_of_mem (mem_filter.mpr ⟨hline, h⟩)
  rw [minCommonIndent]
  cases hmin : ((lines.filter isNotBlank).map indentWidth).min? with
  | none => exact Nat.zero_le _
  | some m => exact (min?_eq_some_iff.mp hmin).2 _ hmem

/-- Lines of several indentations lose the same number of blanks. -/
theorem trimIndent_spaced (n : Nat) (lines : List (Nat × String)) (h : ∀ l ∈ lines, NoBreak l.2)
    (hflush : ∀ l ∈ lines, l.2 = "" ∨ (isNotBlank l.2 = true ∧ indentWidth l.2 = 0)) :
    ∃ m, trimIndent (joinToString "\n" ("" :: lines.map (fun l => spaced l.1 l.2) ++
      [spaced n ""])) =
      joinToString "\n" (lines.map fun l => spaced (l.1 - m) l.2) := by
  have hlast : isNotBlank (spaced n "") = false := isNotBlank_spaced n ""
  have hempty : NoBreak "" := fun c hc => by cases hc
  refine ⟨minCommonIndent (lines.map fun l => spaced l.1 l.2), ?_⟩
  rw [trimIndent_block hlast (noBreak_spaced _ _ hempty) (by
    intro line hline
    obtain ⟨l, hl, rfl⟩ := mem_map.mp hline
    exact noBreak_spaced l.1 l.2 (h l hl)), map_map]
  congr 1
  refine map_congr_left fun l hl => ?_
  show substringFrom (spaced l.1 l.2) _ = _
  rcases hflush l hl with hnil | ⟨hblank, hwidth⟩
  · -- a blank line may be shorter than what is taken off
    rw [hnil, substringFrom, toList_spaced, String.toList_empty, append_nil, drop_replicate,
      spaced, String.append_empty]
  · apply substringFrom_spaced
    have := minCommonIndent_le (mem_map_of_mem (f := fun l : Nat × String => spaced l.1 l.2) hl)
      (by rw [isNotBlank_spaced, hblank])
    rwa [indentWidth_spaced, hwidth] at this

/-! ## Lines that bring line feeds with them -/

/-- Without carriage returns, a text is its lines. -/
theorem joinToString_lineSequence {s : String} (h : '\r' ∉ s.toList) :
    joinToString "\n" (lineSequence s) = s := by
  have hsplit : ∀ l : List Char, '\r' ∉ l →
      List.intercalate ['\n'] (l.splitOnP isLineBreak) = l := by
    intro l
    induction l with
    | nil => exact fun _ => rfl
    | cons c l ih =>
      intro hl
      rw [mem_cons, not_or] at hl
      obtain ⟨head, tail, hsplit⟩ := splitOnP_ne_nil l
      cases hc : isLineBreak c with
      | true =>
        obtain rfl : c = '\n' := by
          simpa [isLineBreak, Ne.symm hl.1] using hc
        rw [splitOnP_break hc, hsplit, intercalate_cons_cons, ← hsplit, ih hl.2]
        rfl
      | false =>
        rw [splitOnP_char hc hsplit]
        have htail := hsplit ▸ ih hl.2
        cases tail with
        | nil => simpa using htail
        | cons next tail =>
          rw [intercalate_cons_cons] at htail ⊢
          rw [cons_append, cons_append, htail]
  rw [joinToString, lineSequence, joinBreaks_of_notMem h, map_map]
  simp only [Function.comp_def, String.toList_ofList, map_id']
  exact (congrArg String.ofList (hsplit _ h)).trans String.ofList_toList

/-- The lines of a block between its first and its last break. -/
theorem joinToString_block {parts : List String} (hparts : parts ≠ []) (last : String) :
    joinToString "\n" ("" :: parts ++ [last]) =
      "\n" ++ joinToString "\n" parts ++ "\n" ++ last := by
  rw [joinToString_append _ (cons_ne_nil _ _) (cons_ne_nil _ _), joinToString_singleton,
    ← singleton_append, joinToString_append _ (cons_ne_nil _ _) hparts, joinToString_singleton,
    String.empty_append]

/-- A block with a line that is not indented loses no blank: what its values bring is kept. -/
theorem trimIndent_flush {lines : List String} {last : String} (hne : lines ≠ [])
    (hlast : isNotBlank last = false) (hbreak : NoBreak last)
    (hreturn : ∀ line ∈ lines, '\r' ∉ line.toList)
    (hflush : ∃ line ∈ lineSequence (joinToString "\n" lines),
      isNotBlank line = true ∧ indentWidth line = 0) :
    trimIndent (joinToString "\n" ("" :: lines ++ [last])) = joinToString "\n" lines := by
  have hreturns : '\r' ∉ (joinToString "\n" lines).toList := by
    intro hmem
    obtain hmem | ⟨line, hline, hmem⟩ := mem_joinToString hmem
    · exact absurd hmem (by decide)
    · exact hreturn line hline hmem
  have hsame := joinToString_lineSequence hreturns
  obtain ⟨line, hline, hblank, hwidth⟩ := hflush
  have hseq := ne_nil_of_mem hline
  -- the block is also the block of its own lines
  have hbreaks : ∀ l ∈ lineSequence (joinToString "\n" lines), NoBreak l := by
    intro l hl c hc
    obtain ⟨piece, hpiece, rfl⟩ := mem_map.mp hl
    rw [String.toList_ofList] at hc
    exact not_of_mem_splitOnP hpiece c hc
  have hzero := Nat.le_zero.mp (hwidth ▸ minCommonIndent_le hline hblank)
  rw [joinToString_block hne, ← hsame, ← joinToString_block hseq,
    trimIndent_block hlast hbreak hbreaks, hzero]
  simp [substringFrom]

end OlcVpn.Kotlin
