/-
  WHAT A MANIFEST CAN TOUCH.

  A manifest is text from the network.  Its paths go through `requireSafe` ("guards against a
  manifest path escaping the directory it is meant to write into") and then, between DOUBLE QUOTES,
  into the script that a shell runs, with elevated rights where the installation needs them.

  Neither holds all the way.  `requireSafe` lets the directory ITSELF through: a deletion of `.` is
  a deletion of the root.  And double quotes do not stop `$( … )`: a file name becomes a command.

  Both halves are measured against something the client does not compute.  Where a path LEADS is a
  walk through the directories, name by name (`Leads`); `normalize` is proved to find its end.  And
  what the script does is what a POSIX shell reads in it (`Lib.Shell`), as a whole text, with what
  `trimIndent` takes off.
-/
import OlcVpn.Kotlin.Blocks
import OlcVpn.Lib.Shell
import OlcVpn.Update.Committed

namespace OlcVpn.Update

open Kotlin List
open Lib (Path FileTree)
open Lib.Shell (Token Piece commands read render quiet read_pieces read_pieces_iff read_digits
  read_blanks)

/-! ## The script -/

variable (p : Path)

/-- `toAbsolutePath()` as text. -/
def pathText : String := "/" ++ joinToString "/" p

/-- `parent` as text: the root has none, and the template writes `null`. -/
def parentText : String := if p = [] then "null" else pathText p.dropLast

def waitLine (pid : Nat) : String :=
  "while kill -0 " ++ toString pid ++ " 2>/dev/null; do sleep 0.5; done"

def moveLine (m : Path × Path) : String :=
  "mkdir -p \"" ++ parentText m.2 ++ "\" && mv -f \"" ++ pathText m.1 ++ "\" \"" ++ pathText m.2 ++
    "\" || exit 1"

def deleteLine : String := "rm -f \"" ++ pathText p ++ "\""

def stagingLine : String := "rm -rf \"" ++ pathText p ++ "\""

def relaunchLine : Option Path → String
  | some launcher => "\"" ++ pathText launcher ++ "\" >/dev/null 2>&1 &"
  | none => ""

/-- The raw text of the script, as it is indented in the source. -/
def scriptBlock (pid : Nat) (plan : Plan) (launcher : Option Path) : List String :=
  [spaced 12 "#!/bin/sh", spaced 12 (waitLine pid),
    spaced 12 (joinToString "\n" (plan.moves.map moveLine)),
    spaced 12 (joinToString "\n" (plan.deletions.map deleteLine)),
    spaced 12 (stagingLine plan.stagingDir),
    spaced 12 (relaunchLine launcher), spaced 12 "rm -f \"$0\""]

/-- `writeUnixScript`. -/
def unixScript (pid : Nat) (plan : Plan) (launcher : Option Path) : String :=
  trimIndent (joinToString "\n" ("" :: scriptBlock pid plan launcher ++ [spaced 12 ""]))

/-! ## The commands -/

def word (s : String) : Token := .word s.toList

def waitTokens (pid : Nat) : List Token :=
  [word "while", word "kill", word "-0", word (toString pid), word "2", .op '>' true,
    word "/dev/null",
    .op ';' true, word "do", word "sleep", word "0.5", .op ';' true, word "done", .newline]

/-- Both commands of a move, and the end of the script where one fails. -/
def moveTokens (m : Path × Path) : List Token :=
  [word "mkdir", word "-p", word (parentText m.2), .op '&' false, .op '&' false,
    word "mv", word "-f",
    word (pathText m.1), word (pathText m.2), .op '|' false, .op '|' false, word "exit",
    word "1", .newline]

def deleteTokens : List Token :=
  [word "rm", word "-f", word (pathText p), .newline]

def stagingTokens : List Token :=
  [word "rm", word "-rf", word (pathText p), .newline]

def relaunchTokens : Option Path → List Token
  | some launcher => [word (pathText launcher), .op '>' false, word "/dev/null", word "2",
      .op '>' true,
      .op '&' false, word "1", .op '&' false, .newline]
  | none => [.newline]

/-- Where there is no command of a kind, a blank line is left. -/
def block : List (List Token) → List Token
  | [] => [.newline]
  | first :: groups => (first :: groups).flatten

/-- WHAT THE SCRIPT IS MEANT TO DO: wait, the moves, the deletions, the staging directory, the new
    start, and the script itself. -/
def swapCommands (pid : Nat) (plan : Plan) (launcher : Option Path) : List Token :=
  [.newline] ++ waitTokens pid ++ block (plan.moves.map moveTokens) ++
    block (plan.deletions.map deleteTokens) ++ stagingTokens plan.stagingDir ++
      relaunchTokens launcher ++
    [word "rm", word "-f", .parameter ['0'], .newline]


/-! ## What the shell reads -/

/-- The script is read as these commands, and the shell is ready for the next one. -/
def Reads (script : String) (tokens : List Token) : Prop :=
  read Lib.Shell.init (script.toList ++ ['\n']) = (commands tokens, Lib.Shell.init)

instance (script : String) (tokens : List Token) : Decidable (Reads script tokens) :=
  inferInstanceAs (Decidable (_ = _))

/-- The texts that stand between the double quotes of the script. -/
def scriptNames (plan : Plan) (launcher : Option Path) : List String :=
  plan.moves.flatMap (fun m => [parentText m.2, pathText m.1, pathText m.2]) ++
    plan.deletions.map pathText ++ pathText plan.stagingDir :: launcher.toList.map pathText

/-- THE NAMES ARE HELD by the quotes: nothing in them is active there, none has a carriage return
    (`trimIndent` makes it a line feed), and one with a line feed loses no blank to `trimIndent`,
    since some line of the block is not indented. -/
structure Held (pid : Nat) (plan : Plan) (launcher : Option Path) : Prop where
  quiet : ∀ s ∈ scriptNames plan launcher, quiet s.toList = true
  noReturn : ∀ s ∈ scriptNames plan launcher, '\r' ∉ s.toList
  flush : (∀ s ∈ scriptNames plan launcher, '\n' ∉ s.toList) ∨
    ∃ line ∈ lineSequence (joinToString "\n" (scriptBlock pid plan launcher)),
      isNotBlank line = true ∧ indentWidth line = 0

/-! ## The lines of the script -/

/-- A line, the names in it, and the pieces it is read in. -/
structure Line where
  text : String
  names : List String
  pieces : List Piece

/-- The characters of the script that do not come from names. -/
def templateChars : List Char :=
  ("#!/binsh while kill -0 123456789 2>/dev/null; do sleep 0.5; done mkdir -p " ++
    "\" && mv -f || exit rm -rf $").toList

/-- A text made of the template's characters and of names. -/
def Made (names : List String) (text : String) : Prop :=
  ∀ c ∈ text.toList, c ∈ templateChars ∨ ∃ s ∈ names, c ∈ s.toList

structure Line.Sound (l : Line) : Prop where
  render : l.text.toList ++ ['\n'] = render l.pieces
  names : l.pieces.flatMap (·.names) = l.names.map (·.toList)
  pieces : ∀ p ∈ l.pieces, p.Sound
  flush : l.text = "" ∨ ∃ c, l.text.toList.head? = some c ∧ isWhitespace c = false
  made : Made l.names l.text

section Made

variable {names : List String} {a b : String}

theorem made_fixed (h : (a.toList.all fun c => templateChars.contains c) = true) : Made names a :=
  fun c hc => .inl (contains_iff_mem.mp (all_eq_true.mp h c hc))

theorem made_name (h : a ∈ names) : Made names a := fun _ hc => .inr ⟨a, h, hc⟩

theorem Made.append (ha : Made names a) (hb : Made names b) : Made names (a ++ b) := by
  intro c hc
  rw [String.toList_append, mem_append] at hc
  exact hc.elim (ha c) (hb c)

/-- What holds of the template's characters and of the names' holds of the text. -/
theorem Made.forall {P : Char → Prop} [DecidablePred P] (h : Made names a)
    (hfixed : templateChars.all (fun c => decide (P c)) = true)
    (hnames : ∀ s ∈ names, ∀ c ∈ s.toList, P c) : ∀ c ∈ a.toList, P c := by
  intro c hc
  rcases h c hc with hc | ⟨s, hs, hc⟩
  · exact of_decide_eq_true (all_eq_true.mp hfixed c hc)
  · exact hnames s hs c hc

end Made

def fixed (text : String) (tokens : List Token) : Piece := .fixed text.toList tokens

def quoted (s : String) (blank : Char) : Piece := .name s.toList blank

def fixedLine (text : String) (tokens : List Token) : Line :=
  ⟨text, [], [fixed (text ++ "\n") tokens]⟩

def waiting (pid : Nat) : Line where
  text := waitLine pid
  names := []
  pieces := [fixed "while kill -0 " [word "while", word "kill", word "-0"],
    fixed (toString pid ++ " ") [word (toString pid)],
    fixed "2>/dev/null; do sleep 0.5; done\n" [word "2", .op '>' true, word "/dev/null",
      .op ';' true, word "do", word "sleep", word "0.5", .op ';' true, word "done", .newline]]

def moving (m : Path × Path) : Line where
  text := moveLine m
  names := [parentText m.2, pathText m.1, pathText m.2]
  pieces := [fixed "mkdir -p " [word "mkdir", word "-p"], quoted (parentText m.2) ' ',
    fixed "&& mv -f " [.op '&' false, .op '&' false, word "mv", word "-f"],
    quoted (pathText m.1) ' ', quoted (pathText m.2) ' ',
    fixed "|| exit 1\n" [.op '|' false, .op '|' false, word "exit", word "1", .newline]]

def deleting : Line :=
  ⟨deleteLine p, [pathText p], [fixed "rm -f " [word "rm", word "-f"], quoted (pathText p) '\n']⟩

def clearing : Line :=
  ⟨stagingLine p, [pathText p], [fixed "rm -rf " [word "rm", word "-rf"], quoted (pathText p) '\n']⟩

def relaunching : Option Path → Line
  | some launcher => ⟨relaunchLine (some launcher), [pathText launcher],
      [quoted (pathText launcher) ' ', fixed ">/dev/null 2>&1 &\n" [.op '>' false, word "/dev/null",
        word "2", .op '>' true, .op '&' false, word "1", .op '&' false, .newline]]⟩
  | none => fixedLine "" [.newline]

theorem sound_fixedLine {text : String} {tokens : List Token} (h : Reads text tokens)
    (hflush : text = "" ∨ ∃ c, text.toList.head? = some c ∧ isWhitespace c = false)
    (hmade : (text.toList.all fun c => templateChars.contains c) = true) :
    (fixedLine text tokens).Sound where
  render := by simp [fixedLine, fixed, Lib.Shell.render, Piece.render]
  names := rfl
  pieces := by
    rw [fixedLine, forall_mem_singleton, fixed, Piece.Sound, String.toList_append]
    exact h
  flush := hflush
  made := made_fixed hmade

theorem sound_waiting (pid : Nat) : (waiting pid).Sound where
  render := by simp [waiting, waitLine, fixed, Lib.Shell.render, Piece.render]
  names := rfl
  pieces := by
    have hpid : (fixed (toString pid ++ " ") [word (toString pid)]).Sound := by
      rw [fixed, Piece.Sound, String.toList_append]
      refine read_digits ?_ fun c hc => isDigit_of_mem_toString hc
      rw [Nat.toString_eq_ofList_toDigits, String.toList_ofList]
      exact Nat.toDigits_ne_nil
    simp only [waiting, forall_mem_cons]
    exact ⟨by decide, hpid, by decide, by simp⟩
  flush := .inr ⟨'w', by simp [waiting, waitLine], by decide⟩
  made := by
    refine .append (.append (made_fixed (by decide)) fun c hc => .inl ?_) (made_fixed (by decide))
    exact (by decide : "0123456789".toList ⊆ templateChars)
      (Lib.Shell.mem_digits (isDigit_of_mem_toString hc))

theorem sound_moving (m : Path × Path) : (moving m).Sound where
  render := by simp [moving, moveLine, fixed, quoted, Lib.Shell.render, Piece.render]
  names := rfl
  pieces := by
    simp only [moving, forall_mem_cons]
    exact ⟨by decide, .inl rfl, by decide, .inl rfl, .inl rfl, by decide, by simp⟩
  flush := .inr ⟨'m', by simp [moving, moveLine], by decide⟩
  made := by
    refine .append (.append (.append (.append (.append (.append ?_ (made_name ?_)) ?_)
      (made_name ?_)) ?_) (made_name ?_)) ?_
    all_goals first
      | exact made_fixed (by decide)
      | simp [moving]

/-- A command on one name. -/
theorem sound_command {opening command : String} {tokens : List Token} {c : Char} (s : String)
    (hopening : opening = command ++ "\"") (hread : (fixed command tokens).Sound)
    (hhead : opening.toList.head? = some c) (hc : isWhitespace c = false)
    (hmade : (opening.toList.all fun c => templateChars.contains c) = true) :
    Line.Sound ⟨opening ++ s ++ "\"", [s], [fixed command tokens, quoted s '\n']⟩ where
  render := by simp [hopening, fixed, quoted, Lib.Shell.render, Piece.render]
  names := rfl
  pieces := by
    simp only [forall_mem_cons]
    exact ⟨hread, .inr rfl, by simp⟩
  flush := .inr ⟨c, by simp [hhead], hc⟩
  made := .append (.append (made_fixed hmade) (made_name mem_cons_self)) (made_fixed (by decide))

theorem sound_relaunching (launcher : Option Path) : (relaunching launcher).Sound := by
  cases launcher with
  | none => exact sound_fixedLine rfl (.inl rfl) rfl
  | some launcher =>
    exact {
      render := by simp [relaunching, relaunchLine, fixed, quoted, Lib.Shell.render, Piece.render]
      names := rfl
      pieces := by
        simp only [relaunching, forall_mem_cons]
        exact ⟨.inl rfl, by decide, by simp⟩
      flush := .inr ⟨'"', by simp [relaunching, relaunchLine], by decide⟩
      made := .append (.append (made_fixed (by decide)) (made_name mem_cons_self))
        (made_fixed (by decide)) }

/-! ## The whole script -/

/-- A group of lines put into the block by one name: only the first is indented. -/
def groupLines : List Line → List (Nat × Line)
  | [] => [(12, fixedLine "" [.newline])]
  | l :: ls => (12, l) :: ls.map ((0, ·))

/-- The lines with the blanks before each. -/
def scriptLines (pid : Nat) (plan : Plan) (launcher : Option Path) : List (Nat × Line) :=
  [(12, fixedLine "#!/bin/sh" [.newline]), (12, waiting pid)] ++
    groupLines (plan.moves.map moving) ++ groupLines (plan.deletions.map deleting) ++
    [(12, clearing plan.stagingDir), (12, relaunching launcher),
      (12, fixedLine "rm -f \"$0\"" [word "rm", word "-f", .parameter ['0'], .newline])]

theorem mem_groupLines {ls : List Line} {l : Nat × Line} (h : l ∈ groupLines ls) :
    l.2 = fixedLine "" [.newline] ∨ l.2 ∈ ls := by
  cases ls with
  | nil => exact .inl (by rw [mem_singleton.mp h])
  | cons first ls =>
    rcases mem_cons.mp h with rfl | h
    · exact .inr mem_cons_self
    · obtain ⟨k, hk, rfl⟩ := mem_map.mp h
      exact .inr (mem_cons_of_mem _ hk)

/-- What stands in a group, joined over its lines. -/
theorem flatMap_groupLines {α : Type} (f : Line → List α) (ls : List Line) :
    (groupLines ls).flatMap (fun l => f l.2) =
      if ls = [] then f (fixedLine "" [.newline]) else ls.flatMap f := by
  cases ls with
  | nil => simp [groupLines]
  | cons l ls => simp [groupLines, flatMap_map]

theorem joinToString_groupLines (ls : List Line) :
    joinToString "\n" ((groupLines ls).map fun l => spaced l.1 l.2.text) =
      spaced 12 (joinToString "\n" (ls.map (·.text))) := by
  cases ls with
  | nil => rfl
  | cons l ls =>
    simp only [groupLines, map_cons, map_map, Function.comp_def, spaced_zero]
    cases ls with
    | nil => rw [map_nil, joinToString_singleton, joinToString_singleton]
    | cons k ls =>
      rw [map_cons, joinToString_cons_cons, joinToString_cons_cons, spaced, spaced]
      simp only [String.append_assoc]

section Script

variable (pid : Nat) (plan : Plan) (launcher : Option Path)

/-- Every line is read in its pieces. -/
theorem sound_scriptLines : ∀ l ∈ scriptLines pid plan launcher, l.2.Sound := by
  have hblank : (fixedLine "" [.newline]).Sound := sound_fixedLine rfl (.inl rfl) rfl
  have hgroup : ∀ {ls : List Line}, (∀ l ∈ ls, l.Sound) → ∀ l ∈ groupLines ls, l.2.Sound := by
    intro ls hls l hl
    rcases mem_groupLines hl with heq | hmem
    · exact heq ▸ hblank
    · exact hls l.2 hmem
  simp only [scriptLines, forall_mem_append, forall_mem_cons]
  refine ⟨⟨⟨⟨?_, sound_waiting pid, by simp⟩, hgroup ?_⟩, hgroup ?_⟩, ?_,
    sound_relaunching launcher, ?_, by simp⟩
  · -- the first line is a comment
    exact sound_fixedLine (by decide) (.inr ⟨'#', rfl, by decide⟩) (by decide)
  · exact forall_mem_map.mpr fun m _ => sound_moving m
  · refine forall_mem_map.mpr fun p _ => ?_
    exact sound_command (c := 'r') (pathText p) (by decide) (by decide) rfl (by decide) (by decide)
  · exact sound_command (c := 'r') _ (by decide) (by decide) rfl (by decide) (by decide)
  · exact sound_fixedLine (by decide) (.inr ⟨'r', rfl, by decide⟩) (by decide)

theorem names_scriptLines :
    (scriptLines pid plan launcher).flatMap (·.2.names) = scriptNames plan launcher := by
  have hgroup : ∀ ls : List Line, (groupLines ls).flatMap (fun l => l.2.names) =
      ls.flatMap (·.names) := by
    intro ls
    rw [flatMap_groupLines]
    split
    · next h => rw [h]; rfl
    · rfl
  simp only [scriptLines, flatMap_append, hgroup, flatMap_cons, flatMap_nil, flatMap_map]
  cases launcher <;>
  simp [scriptNames, fixedLine, waiting, moving, deleting, clearing, relaunching, map_eq_flatMap]

/-- Together they are the commands of the swap. -/
theorem tokens_scriptLines :
    (scriptLines pid plan launcher).flatMap (fun l => l.2.pieces.flatMap (·.tokens)) =
      swapCommands pid plan launcher := by
  have hgroup : ∀ ls : List Line,
      (groupLines ls).flatMap (fun l => l.2.pieces.flatMap (·.tokens)) =
        block (ls.map fun l => l.pieces.flatMap (·.tokens)) := by
    intro ls
    rw [flatMap_groupLines fun l => l.pieces.flatMap (·.tokens)]
    cases ls with
    | nil => rfl
    | cons l ls => simp [block, flatMap_def]
  have hmoving : (fun l : Line => l.pieces.flatMap (·.tokens)) ∘ moving = moveTokens := rfl
  have hdeleting : (fun l : Line => l.pieces.flatMap (·.tokens)) ∘ deleting = deleteTokens := rfl
  simp only [scriptLines, flatMap_append, hgroup, map_map, hmoving, hdeleting, swapCommands]
  cases launcher <;>
  simp [fixedLine, waiting, clearing, relaunching, fixed, quoted, Piece.tokens, waitTokens,
    stagingTokens, relaunchTokens, word]

/-- The block of the source, line by line. -/
theorem joinToString_scriptBlock :
    joinToString "\n" (scriptBlock pid plan launcher) =
      joinToString "\n" ((scriptLines pid plan launcher).map fun l => spaced l.1 l.2.text) := by
  have hne : ∀ ls, groupLines ls ≠ [] := fun ls => by cases ls <;> simp [groupLines]
  let shown : List (Nat × Line) → List String := map fun l => spaced l.1 l.2.text
  let groups : List (List String) := [[spaced 12 "#!/bin/sh"], [spaced 12 (waitLine pid)],
    shown (groupLines (plan.moves.map moving)), shown (groupLines (plan.deletions.map deleting)),
    [spaced 12 (stagingLine plan.stagingDir)], [spaced 12 (relaunchLine launcher)],
    [spaced 12 "rm -f \"$0\""]]
  have hflat : joinToString "\n" (groups.map (joinToString "\n")) =
      joinToString "\n" groups.flatten :=
    joinToString_flatten "\n" (by simp [groups, shown, hne])
  have hrelaunch : (relaunching launcher).text = relaunchLine launcher := by
    cases launcher <;> rfl
  simp only [groups, shown, map_cons, map_nil, joinToString_singleton, joinToString_groupLines,
    map_map, Function.comp_def] at hflat
  rw [scriptBlock]
  refine Eq.trans ?_ (hflat.trans ?_)
  · rfl
  · simp [scriptLines, fixedLine, waiting, clearing, hrelaunch]

/-- The pieces of the script when `m` blanks have been taken off each line. -/
def scriptPieces (m : Nat) : List Piece :=
  (scriptLines pid plan launcher).flatMap fun l =>
    .fixed (List.replicate (l.1 - m) ' ') [] :: l.2.pieces

theorem sound_scriptPieces (m : Nat) : ∀ p ∈ scriptPieces pid plan launcher m, p.Sound := by
  intro p hp
  obtain ⟨l, hl, hp⟩ := mem_flatMap.mp hp
  rcases mem_cons.mp hp with rfl | hp
  · exact read_blanks _
  · exact (sound_scriptLines pid plan launcher l hl).pieces p hp

theorem forall_names_scriptPieces {P : List Char → Prop} (m : Nat) :
    (∀ p ∈ scriptPieces pid plan launcher m, ∀ t ∈ p.names, P t) ↔
      ∀ s ∈ scriptNames plan launcher, P s.toList := by
  have hnames : ∀ l ∈ scriptLines pid plan launcher,
      (∀ p ∈ l.2.pieces, ∀ t ∈ p.names, P t) ↔ ∀ s ∈ l.2.names, P s.toList := by
    intro l hl
    have h := (sound_scriptLines pid plan launcher l hl).names
    rw [← forall_mem_map (P := P) (f := String.toList), ← h]
    simp only [mem_flatMap]
    exact ⟨fun h t ⟨p, hp, ht⟩ => h p hp t ht, fun h p hp t ht => h t ⟨p, hp, ht⟩⟩
  rw [← names_scriptLines pid plan launcher]
  simp only [scriptPieces, mem_flatMap, mem_cons]
  constructor
  · rintro h s ⟨l, hl, hs⟩
    exact (hnames l hl).mp (fun p hp => h p ⟨l, hl, .inr hp⟩) s hs
  · rintro h p ⟨l, hl, rfl | hp⟩ t ht
    · cases ht
    · exact (hnames l hl).mpr (fun s hs => h s ⟨l, hl, hs⟩) p hp t ht

/-- The lines, joined, are the pieces. -/
theorem render_scriptPieces (m : Nat) :
    (joinToString "\n" ((scriptLines pid plan launcher).map fun l =>
      spaced (l.1 - m) l.2.text)).toList ++ ['\n'] = render (scriptPieces pid plan launcher m) := by
  have hlines : ∀ lines : List (Nat × Line), lines ≠ [] → (∀ l ∈ lines, l.2.Sound) →
      (joinToString "\n" (lines.map fun l => spaced (l.1 - m) l.2.text)).toList ++ ['\n'] =
        render (lines.flatMap fun l => .fixed (List.replicate (l.1 - m) ' ') [] :: l.2.pieces) := by
    intro lines
    induction lines with
    | nil => exact fun hne _ => absurd rfl hne
    | cons l lines ih =>
      intro _ h
      rw [forall_mem_cons] at h
      have hl : (spaced (l.1 - m) l.2.text).toList ++ ['\n'] =
          render (.fixed (List.replicate (l.1 - m) ' ') [] :: l.2.pieces) := by
        rw [toList_spaced, append_assoc, h.1.render]
        rfl
      cases lines with
      | nil => simpa [joinToString_singleton] using hl
      | cons k lines =>
        have hrest := ih (cons_ne_nil _ _) h.2
        rw [flatMap_cons, Lib.Shell.render, flatMap_append]
        refine Eq.trans ?_ (congrArg₂ (· ++ ·) hl hrest)
        simp [joinToString_cons_cons]
  exact hlines _ (by simp [scriptLines]) (sound_scriptLines pid plan launcher)

/-- `trimIndent` takes the same number of blanks off every line if no name has a line break, and
    none at all if some line is not indented. -/
theorem unixScript_eq (hreturn : ∀ s ∈ scriptNames plan launcher, '\r' ∉ s.toList)
    (hflush : (∀ s ∈ scriptNames plan launcher, '\n' ∉ s.toList) ∨
      ∃ line ∈ lineSequence (joinToString "\n" (scriptBlock pid plan launcher)),
        isNotBlank line = true ∧ indentWidth line = 0) :
    ∃ m, unixScript pid plan launcher = joinToString "\n"
      ((scriptLines pid plan launcher).map fun l => spaced (l.1 - m) l.2.text) := by
  let lines := (scriptLines pid plan launcher).map fun l => (l.1, l.2.text)
  let shown := lines.map fun l => spaced l.1 l.2
  have hshown : joinToString "\n" (scriptBlock pid plan launcher) = joinToString "\n" shown := by
    rw [joinToString_scriptBlock]
    simp [shown, lines, Function.comp_def]
  have hne : shown ≠ [] := by simp [shown, lines, scriptLines]
  have hscript : unixScript pid plan launcher =
      trimIndent (joinToString "\n" ("" :: shown ++ [spaced 12 ""])) := by
    rw [unixScript, joinToString_block (by simp [scriptBlock]), hshown, ← joinToString_block hne]
  have hblank : NoBreak (spaced 12 "") := noBreak_spaced _ _ fun c hc => by cases hc
  have hnames : ∀ l ∈ scriptLines pid plan launcher, ∀ s ∈ l.2.names,
      s ∈ scriptNames plan launcher := by
    intro l hl s hs
    rw [← names_scriptLines pid]
    exact mem_flatMap.mpr ⟨l, hl, hs⟩
  have hsound := sound_scriptLines pid plan launcher
  rcases hflush with hfeed | hflush
  · obtain ⟨m, hm⟩ := trimIndent_spaced 12 lines
      (forall_mem_map.mpr fun l hl => (hsound l hl).made.forall (by decide) fun s hs c hc => by
        have hs := hnames l hl s hs
        have hc' : c ≠ '\n' ∧ c ≠ '\r' :=
          ⟨fun h => hfeed s hs (h ▸ hc), fun h => hreturn s hs (h ▸ hc)⟩
        simp [isLineBreak, hc'])
      (forall_mem_map.mpr fun l hl => (hsound l hl).flush.imp id fun ⟨c, hhead, hc⟩ => by
        obtain ⟨rest, h⟩ := head?_eq_some_iff.mp hhead
        simp [isNotBlank, isBlank, indentWidth, h, hc])
    refine ⟨m, hscript.trans (hm.trans ?_)⟩
    simp [lines, Function.comp_def]
  · refine ⟨0, hscript.trans ((trimIndent_flush hne (isNotBlank_spaced 12 "") hblank ?_
      (hshown ▸ hflush)).trans ?_)⟩
    · simp only [shown, lines, map_map, forall_mem_map]
      intro l hl hc
      rw [Function.comp_apply, toList_spaced, mem_append] at hc
      rcases hc with hc | hc
      · exact absurd (eq_of_mem_replicate hc) (by decide)
      · exact (hsound l hl).made.forall (P := (· ≠ '\r')) (by decide)
          (fun s hs c hc h => hreturn s (hnames l hl s hs) (h ▸ hc)) _ hc rfl
    · simp [shown, lines, Function.comp_def]

/-- THE SCRIPT IS THE PLAN if the quotes hold its names. -/
theorem reads_of_held (h : Held pid plan launcher) :
    Reads (unixScript pid plan launcher) (swapCommands pid plan launcher) := by
  obtain ⟨m, hm⟩ := unixScript_eq pid plan launcher h.noReturn h.flush
  rw [Reads, hm, render_scriptPieces, read_pieces (sound_scriptPieces pid plan launcher m)
    ((forall_names_scriptPieces pid plan launcher m).mpr h.quiet), ← tokens_scriptLines,
    scriptPieces, flatMap_assoc]
  rfl

/-- AND ONLY THEN, as long as the names have no line breaks. -/
theorem held_of_reads (hbreak : ∀ s ∈ scriptNames plan launcher, NoBreak s)
    (h : Reads (unixScript pid plan launcher) (swapCommands pid plan launcher)) :
    Held pid plan launcher := by
  have hreturn : ∀ s ∈ scriptNames plan launcher, '\r' ∉ s.toList :=
    fun s hs hc => absurd (hbreak s hs _ hc) (by decide)
  have hfeed : ∀ s ∈ scriptNames plan launcher, '\n' ∉ s.toList :=
    fun s hs hc => absurd (hbreak s hs _ hc) (by decide)
  obtain ⟨m, hm⟩ := unixScript_eq pid plan launcher hreturn (.inl hfeed)
  refine ⟨(forall_names_scriptPieces (P := (quiet · = true)) pid plan launcher m).mp ?_, hreturn,
    .inl hfeed⟩
  rw [← read_pieces_iff (sound_scriptPieces pid plan launcher m)
    ((forall_names_scriptPieces pid plan launcher m).mpr hfeed), ← render_scriptPieces, ← hm]
  rw [Reads, ← tokens_scriptLines] at h
  rw [h, scriptPieces, flatMap_assoc]
  rfl

end Script

/-! ## Where a path leads -/

/-- WHERE THE NAMES LEAD, walked one by one from a directory: `.` stays, `..` goes up (and stays at
    the top), any other name goes down. -/
inductive Leads : Path → List String → Path → Prop
  | here (d : Path) : Leads d [] d
  | stay {d q : Path} {names : List String} : Leads d names q → Leads d ("." :: names) q
  | up {d q : Path} {names : List String} : Leads d.dropLast names q → Leads d (".." :: names) q
  | down {d q : Path} {name : String} {names : List String} : name ≠ "." → name ≠ ".." →
      Leads (d ++ [name]) names q → Leads d (name :: names) q

/-- One name of `normalize()`. -/
def follow (d : Path) (name : String) : Path :=
  if name = "." then d else if name = ".." then d.dropLast else d ++ [name]

theorem leads_cons {d q : Path} {name : String} {names : List String} :
    Leads d (name :: names) q ↔ Leads (follow d name) names q := by
  constructor
  · rintro (_ | h | h | ⟨hdot, hup, h⟩)
    · exact h
    · exact h
    · rwa [follow, if_neg hdot, if_neg hup]
  · intro h
    rw [follow] at h
    split_ifs at h with hdot hup
    · exact hdot ▸ .stay h
    · exact hup ▸ .up h
    · exact .down hdot hup h

theorem leads_iff {d q : Path} {names : List String} :
    Leads d names q ↔ names.foldl follow d = q := by
  induction names generalizing d with
  | nil =>
    constructor
    · rintro ⟨⟩
      rfl
    · rintro rfl
      exact .here d
  | cons name names ih => rw [leads_cons, ih, foldl_cons]

/-- `normalize()` IS WHERE A PATH LEADS from the top. -/
theorem leads_normalize {p q : Path} : Leads [] p q ↔ normalize p = q := leads_iff

/-- The way goes on from where its first part leads. -/
theorem leads_append {p q : Path} {names : List String} :
    Leads [] (p ++ names) q ↔ Leads (normalize p) names q := by
  rw [leads_iff, leads_iff, foldl_append]
  rfl

/-- Neither `.` nor `..` is left. -/
theorem plain_of_mem_normalize {p : Path} : ∀ name ∈ normalize p, name ≠ "." ∧ name ≠ ".." := by
  have hfold : ∀ (p done : Path), (∀ name ∈ done, name ≠ "." ∧ name ≠ "..") →
      ∀ name ∈ p.foldl follow done, name ≠ "." ∧ name ≠ ".." := by
    intro p
    induction p with
    | nil => exact fun _ h => h
    | cons first p ih =>
      intro done h
      apply ih
      rw [follow]
      split_ifs with hdot hup
      · exact h
      · exact fun name hname => h name (dropLast_subset _ hname)
      · rintro name hname
        rcases mem_append.mp hname with hname | hname
        · exact h name hname
        · exact mem_singleton.mp hname ▸ ⟨hdot, hup⟩
  exact hfold p [] (by simp)

/-- A path without `.` and `..` leads to itself. -/
theorem leads_self {p : Path} (h : ∀ name ∈ p, name ≠ "." ∧ name ≠ "..") : Leads [] p p := by
  have hfrom : ∀ (p d : Path), (∀ name ∈ p, name ≠ "." ∧ name ≠ "..") → Leads d p (d ++ p) := by
    intro p
    induction p with
    | nil => exact fun d _ => (append_nil d).symm ▸ .here d
    | cons name p ih =>
      intro d h
      rw [forall_mem_cons] at h
      refine .down h.1.1 h.1.2 ?_
      simpa using ih (d ++ [name]) h.2
  exact hfrom p [] h

/-! ## The plan stays inside -/

/-- The path leads strictly below the directory. -/
def Below (dir p : Path) : Prop :=
  ∃ top names, Leads [] dir top ∧ names ≠ [] ∧ Leads [] p (top ++ names)

/-- Everything the plan touches is strictly below the installation or the staging directory. -/
structure Confined (root staging : Path) (plan : Plan) : Prop where
  staged : ∀ m ∈ plan.moves, Below staging m.1
  targets : ∀ m ∈ plan.moves, Below root m.2
  deletions : ∀ p ∈ plan.deletions, Below root p

/-- A text of the manifest leads from a directory back to it: with a slash in front from the top,
    without one from the directory itself. -/
def LeadsBack (dir : Path) (text : String) : Prop :=
  ∃ top, Leads [] dir top ∧
    Leads (if startsWith text "/" then [] else top) (pathNames text) top

/-- The operation's texts do not lead back to the directory they start in. -/
structure Op.NamesInside (root staging : Path) (op : Op) : Prop where
  staged : op.writes = true → ¬ LeadsBack staging op.toPath
  target : op.writes = true → ¬ LeadsBack root op.toPath
  source : op.removes = true → ¬ LeadsBack root op.fromPath

/-- A name leads back exactly if it is the directory itself once normalised. -/
theorem leadsBack_iff {dir : Path} {text : String} :
    LeadsBack dir text ↔ normalize (resolve dir text) = normalize dir := by
  have htop : LeadsBack dir text ↔ Leads (if startsWith text "/" then [] else normalize dir)
      (pathNames text) (normalize dir) := by
    constructor
    · rintro ⟨top, htop, h⟩
      exact leads_normalize.mp htop ▸ h
    · exact fun h => ⟨_, leads_normalize.mpr rfl, h⟩
  rw [htop, resolve]
  split
  · exact leads_normalize
  · rw [← leads_append, leads_normalize]

/-- Of a path that passed the test, below is anything but the directory. -/
theorem below_iff {dir : Path} {text : String}
    (h : normalize dir <+: normalize (resolve dir text)) :
    Below dir (normalize (resolve dir text)) ↔ ¬ LeadsBack dir text := by
  have hself := leads_normalize.mp (leads_self (p := normalize (resolve dir text))
    plain_of_mem_normalize)
  rw [leadsBack_iff]
  constructor
  · rintro ⟨top, names, htop, hne, hp⟩ heq
    rw [leads_normalize] at htop hp
    rw [hself, heq, ← htop] at hp
    exact hne (by simpa using hp)
  · intro hne
    obtain ⟨names, hnames⟩ := h
    refine ⟨normalize dir, names, leads_normalize.mpr rfl, ?_, ?_⟩
    · rintro rfl
      exact hne (by simpa using hnames.symm)
    · rw [leads_normalize, hself, hnames]

/-- THE PLAN STAYS INSIDE exactly if no text of an operation leads back. -/
theorem Staged.confined_iff {C : Type} {P : Patcher C} {root staging : Path} {ops : List Op}
    {tree staged : FileTree C} {plan : Plan} (h : Staged P root staging ops tree staged plan) :
    Confined root staging plan ↔ ∀ op ∈ ops, op.NamesInside root staging := by
  constructor
  · intro hc op hop
    have hmove : op.writes = true → (stagedPath staging op, targetPath root op) ∈ plan.moves :=
      fun hw => (mem_moves h).mpr ⟨op, hop, hw, rfl⟩
    exact ⟨fun hw => (below_iff (h.staged_safe op hop hw)).mp (hc.staged _ (hmove hw)),
      fun hw => (below_iff (h.target_safe op hop hw)).mp (hc.targets _ (hmove hw)),
      fun hr => (below_iff (h.source_safe op hop hr)).mp
        (hc.deletions _ ((mem_deletions h).mpr ⟨op, hop, hr, rfl⟩))⟩
  · intro hin
    have hmoves : ∀ m ∈ plan.moves, Below staging m.1 ∧ Below root m.2 := by
      intro m hm
      obtain ⟨op, hop, hw, rfl⟩ := (mem_moves h).mp hm
      exact ⟨(below_iff (h.staged_safe op hop hw)).mpr ((hin op hop).staged hw),
        (below_iff (h.target_safe op hop hw)).mpr ((hin op hop).target hw)⟩
    refine ⟨fun m hm => (hmoves m hm).1, fun m hm => (hmoves m hm).2, fun p hp => ?_⟩
    obtain ⟨op, hop, hr, rfl⟩ := (mem_deletions h).mp hp
    exact (below_iff (h.source_safe op hop hr)).mpr ((hin op hop).source hr)

/-- A MANIFEST TOUCHES NOTHING OUTSIDE exactly if none of its texts leads back to a directory
    itself, and the script is the plan if the quotes hold the names in it: without line breaks in
    the names, only then. -/
theorem swap_confined {C : Type} (P : Patcher C) (bundle : Bundle C) (root staging : Path)
    (tree staged : FileTree C) (plan : Plan) (manifest : Manifest)
    (hmanifest : bundle.manifest = some manifest)
    (h : stage P bundle root staging tree = some (staged, plan)) (pid : Nat)
    (launcher : Option Path) :
    (Confined root staging plan ↔ ∀ op ∈ manifest.ops, op.NamesInside root staging) ∧
    (Held pid plan launcher →
      Reads (unixScript pid plan launcher) (swapCommands pid plan launcher)) ∧
    ((∀ s ∈ scriptNames plan launcher, NoBreak s) →
      (Reads (unixScript pid plan launcher) (swapCommands pid plan launcher) ↔
        ∀ s ∈ scriptNames plan launcher, quiet s.toList = true)) := by
  obtain ⟨manifest', hmanifest', hs⟩ := stage_spec h
  obtain rfl : manifest = manifest' := Option.some.inj (hmanifest.symm.trans hmanifest')
  refine ⟨hs.confined_iff, reads_of_held pid plan launcher, fun hbreak => ?_⟩
  exact ⟨fun h => (held_of_reads pid plan launcher hbreak h).quiet, fun hquiet =>
    reads_of_held pid plan launcher ⟨hquiet,
      fun s hs hc => absurd (hbreak s hs _ hc) (by decide),
      .inl fun s hs hc => absurd (hbreak s hs _ hc) (by decide)⟩⟩

/-- The plan of the update: the class path file is moved last. -/
def updatePlan : Plan where
  moves := [(stagingPath ++ ["app", "core-2.jar"], ["opt", "yptun", "app", "core-2.jar"]),
    (stagingPath ++ ["app", "YPtun.cfg"], ["opt", "yptun", "app", "YPtun.cfg"])]
  deletions := [["opt", "yptun", "app", "core-1.jar"], ["opt", "yptun", "app", "old.jar"]]
  stagingDir := stagingPath
  rootDir := ["opt", "yptun"]

/-- The update's plan stays inside, and its script is read as the plan. -/
theorem update_confined : ∃ staged,
    stage plainPatcher (bundleOf updateOps) ["opt", "yptun"] stagingPath installed =
      some (staged, updatePlan) ∧ Confined ["opt", "yptun"] stagingPath updatePlan ∧
    Reads (unixScript 4711 updatePlan (some ["opt", "yptun", "bin", "YPtun"]))
      (swapCommands 4711 updatePlan (some ["opt", "yptun", "bin", "YPtun"])) := by
  have hplan : (stage plainPatcher (bundleOf updateOps) ["opt", "yptun"] stagingPath installed).map
      (·.2) = some updatePlan := by
    decide
  obtain ⟨⟨staged, plan⟩, hstage, rfl⟩ := Option.map_eq_some_iff.mp hplan
  obtain ⟨hconfined, -, hreads⟩ :=
    swap_confined plainPatcher (bundleOf updateOps) ["opt", "yptun"] stagingPath
      installed staged updatePlan { ops := updateOps } rfl hstage 4711
      (some ["opt", "yptun", "bin", "YPtun"])
  have hnames : ((scriptNames updatePlan (some ["opt", "yptun", "bin", "YPtun"])).all fun s =>
      s.toList.all (fun c => !isLineBreak c) && quiet s.toList) = true := by
    decide +kernel
  simp only [all_eq_true, Bool.and_eq_true, Bool.not_eq_true'] at hnames
  refine ⟨staged, hstage, hconfined.mpr ?_,
    (hreads fun s hs => (hnames s hs).1).mpr fun s hs => (hnames s hs).2⟩
  simp only [updateOps, forall_mem_cons]
  refine ⟨⟨?_, ?_, ?_⟩, ⟨?_, ?_, ?_⟩, ⟨?_, ?_, ?_⟩, by simp⟩ <;>
  · rw [leadsBack_iff]
    decide

/-- A manifest that deletes the directory itself, and one whose file name is a command: the plan
    holds the root, and the script holds a command substitution. -/
theorem root_and_command_accepted :
    (stage plainPatcher (bundleOf [{ op := .delete, fromPath := "app/.." }]) ["r"] ["s"]
      (.ofFiles [(["r", "a"], "one")])).map (fun r => r.2.deletions) = some [["r"]] ∧
    (stage plainPatcher (bundleOf [{ op := .delete, fromPath := "$(id)" }]) ["r"] ["s"]
      (.ofFiles [(["r", "a"], "one")])).map (fun r =>
        (r.2.deletions, decide (Reads (unixScript 1 r.2 none) (swapCommands 1 r.2 none)),
          (read Lib.Shell.init (unixScript 1 r.2 none).toList).1.contains (.exp '('))) =
      some ([["r", "$(id)"]], false, true) := by
  decide +kernel

end OlcVpn.Update
