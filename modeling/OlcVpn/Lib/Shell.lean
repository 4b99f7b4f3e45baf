/-
  HOW A POSIX SHELL READS A SCRIPT, AND WHICH TEXTS DOUBLE QUOTES HOLD.

  The shell goes through a script character by character.  Whether a character stands for itself,
  starts an expansion or ends a command depends on where it stands: bare, in single or double
  quotes, in a substitution.  `read` is that reading as a state machine with a STACK of such places.
  It answers with EVENTS: words begin and end, a character is data (`lit`) or part of an expansion
  (`exp`), operators, line ends.  Blanks leave no event of their own and quotes none at all, so that
  two scripts with the same events are the same commands with the same redirections on the same
  words.

  A text between double quotes is read as itself exactly if it is QUIET (`read_pieces_iff`).  That a
  quiet text is read as itself is an induction.  The other direction has to exclude that a text
  breaks out of its quotes and the rest of the script happens to mend the damage.  Its invariant is
  the LAG of the word behind the text: from the first active character on, less data has come out
  than text has gone in (`x` in `not_lits_prefix`), and what is missing holds no blank.  The blank
  after the closing quote then comes too early, as data or as the end of the word.

  Not read: here-documents, whose operator is reported but whose body is taken for commands, and
  patterns of `case`, whose parenthesis would be taken for an operator.
-/
import Mathlib.Data.List.Basic

namespace OlcVpn.Lib.Shell

open List

/-! ## Events and places -/

/-- What the shell makes of a character. -/
inductive Event where
  /-- A word begins or ends. -/
  | word
  | close
  /-- The character stands for itself. -/
  | lit (c : Char)
  /-- The character belongs to a parameter, a substitution or what stands inside one. -/
  | exp (c : Char)
  /-- An operator; whether a word stands right before it, as in `2>`. -/
  | op (c : Char) (adjacent : Bool)
  | newline
  deriving DecidableEq

/-- A place a character can stand in. -/
inductive Frame where
  /-- Commands; whether a word is being read, and whether a parenthesis closes them. -/
  | code (inWord closes : Bool)
  | single
  | double
  /-- `${ … }` and back quotes. -/
  | brace
  | tick
  /-- After a backslash. -/
  | escape
  | doubleEscape
  | tickEscape
  /-- After a dollar sign, and in a parameter's name. -/
  | dollar
  | name
  | comment
  deriving DecidableEq

/-- Between two words, outside everything else. -/
def init : List Frame := [.code false false]

/-! ## One character -/

/-- A word begins unless one has begun. -/
def beginWord : List Frame → List Event × List Frame
  | .code false closes :: rest => ([.word], .code true closes :: rest)
  | stack => ([], stack)

def endWord (inWord : Bool) : List Event := if inWord then [.close] else []

def isNameStart (c : Char) : Bool := c.isAlpha || c = '_'

def isNameChar (c : Char) : Bool := c.isAlphanum || c = '_'

/-- The parameters with names of one character. -/
def isSpecial (c : Char) : Bool := c.isDigit || "@*#?-$!".toList.contains c

/-- What a dollar sign before it makes an expansion. -/
def expands (c : Char) : Bool := c = '(' || c = '{' || isNameStart c || isSpecial c

/-- What a backslash before it escapes between double quotes. -/
def escapable (c : Char) : Bool := c = '$' || c = (Char.ofNat 96) || c = '"' || c = '\\'

/-- A character in a place that does not depend on what follows it. -/
def consume (stack : List Frame) (c : Char) : List Event × List Frame :=
  match stack with
  | .code inWord closes :: rest =>
    let begun := beginWord stack
    let ended : List Frame := .code false closes :: rest
    if c = '\'' then (begun.1, .single :: begun.2)
    else if c = '"' then (begun.1, .double :: begun.2)
    else if c = '\\' then ([], .escape :: stack)
    else if c = '$' then ([], .dollar :: stack)
    else if c = (Char.ofNat 96) then (begun.1 ++ [.exp c], .tick :: begun.2)
    else if c = '#' && !inWord then ([], .comment :: stack)
    else if c = ' ' || c = '\t' then (endWord inWord, ended)
    else if c = '\n' then (endWord inWord ++ [.newline], ended)
    else if c = '(' then (endWord inWord ++ [.op c inWord], .code false true :: ended)
    else if c = ')' && closes then (endWord inWord ++ [.op c inWord], rest)
    else if ";&|<>)".toList.contains c then (endWord inWord ++ [.op c inWord], ended)
    else (begun.1 ++ [.lit c], begun.2)
  | .single :: rest => if c = '\'' then ([], rest) else ([.lit c], stack)
  | .double :: rest =>
    if c = '"' then ([], rest)
    else if c = '\\' then ([], .doubleEscape :: stack)
    else if c = '$' then ([], .dollar :: stack)
    else if c = (Char.ofNat 96) then ([.exp c], .tick :: stack)
    else ([.lit c], stack)
  | .brace :: rest =>
    if c = '}' then ([.exp c], rest)
    else if c = '"' then ([.exp c], .double :: stack)
    else if c = '$' then ([], .dollar :: stack)
    else if c = (Char.ofNat 96) then ([.exp c], .tick :: stack)
    else ([.exp c], stack)
  | .tick :: rest =>
    if c = (Char.ofNat 96) then ([.exp c], rest)
    else if c = '\\' then ([.exp c], .tickEscape :: stack)
    else ([.exp c], stack)
  | .tickEscape :: rest => ([.exp c], rest)
  | .escape :: rest =>
    if c = '\n' then ([], rest) else ((beginWord rest).1 ++ [.lit c], (beginWord rest).2)
  | .doubleEscape :: rest =>
    if c = '\n' then ([], rest)
    else if escapable c then ([.lit c], rest)
    else ([.lit '\\', .lit c], rest)
  | _ => ([], stack)

/-- A character anywhere.  After a dollar sign, a name or a comment, the character that does not
    belong to them any more is read in the place around them. -/
def step (stack : List Frame) (c : Char) : List Event × List Frame :=
  match stack with
  | .dollar :: rest =>
    let begun := beginWord rest
    if c = '(' then (begun.1 ++ [.exp c], .code false true :: begun.2)
    else if c = '{' then (begun.1 ++ [.exp c], .brace :: begun.2)
    else if isNameStart c then (begun.1 ++ [.exp c], .name :: begun.2)
    else if isSpecial c then (begun.1 ++ [.exp c], begun.2)
    else
      let after := consume begun.2 c
      (begun.1 ++ .lit '$' :: after.1, after.2)
  | .name :: rest => if isNameChar c then ([.exp c], stack) else consume rest c
  | .comment :: rest => if c = '\n' then consume rest c else ([], stack)
  | _ => consume stack c

/-- The events of a text, and the places it leaves. -/
def read (stack : List Frame) : List Char → List Event × List Frame
  | [] => ([], stack)
  | c :: rest =>
    let first := step stack c
    let others := read first.2 rest
    (first.1 ++ others.1, others.2)

theorem read_append (stack : List Frame) (a b : List Char) :
    read stack (a ++ b) =
      ((read stack a).1 ++ (read (read stack a).2 b).1, (read (read stack a).2 b).2) := by
  induction a generalizing stack with
  | nil => rfl
  | cons c a ih => simp [read, ih]

/-! ## Words and operators -/

/-- A word that is a text or a parameter, an operator, the end of a line. -/
inductive Token where
  | word (text : List Char)
  | parameter (name : List Char)
  | op (c : Char) (adjacent : Bool)
  | newline

def Token.events : Token → List Event
  | .word text => .word :: text.map .lit ++ [.close]
  | .parameter name => .word :: name.map .exp ++ [.close]
  | .op c adjacent => [.op c adjacent]
  | .newline => [.newline]

/-- Commands as events. -/
def commands (tokens : List Token) : List Event := tokens.flatMap (·.events)

theorem commands_append (a b : List Token) : commands (a ++ b) = commands a ++ commands b :=
  flatMap_append

/-- Blanks before a command leave no trace. -/
theorem read_blanks (n : Nat) : read init (List.replicate n ' ') = ([], init) := by
  induction n with
  | zero => rfl
  | succ n ih =>
    rw [replicate_succ, read]
    exact ih

theorem mem_digits {c : Char} (h : c.isDigit = true) : c ∈ "0123456789".toList := by
  have hrange : c.isDigit = (decide (48 ≤ c.toNat) && decide (c.toNat ≤ 57)) := rfl
  have htable : ∀ n < 58, 48 ≤ n → Char.ofNat n ∈ "0123456789".toList := by decide
  rw [hrange, Bool.and_eq_true, decide_eq_true_eq, decide_eq_true_eq] at h
  rw [← Char.ofNat_toNat c]
  exact htable c.toNat (by omega) h.1

/-- A number is a word. -/
theorem read_digits {text : List Char} (hne : text ≠ []) (h : ∀ c ∈ text, c.isDigit = true) :
    read init (text ++ [' ']) = (commands [.word text], init) := by
  have hstep : ∀ w : Bool, ("0123456789".toList.all fun c =>
      step [.code w false] c = ((if w then [] else [.word]) ++ [.lit c], [.code true false])) =
        true := by
    decide
  have hread : ∀ text : List Char, (∀ c ∈ text, c.isDigit = true) →
      read [.code true false] (text ++ [' ']) = (text.map .lit ++ [.close], init) := by
    intro text
    induction text with
    | nil => exact fun _ => rfl
    | cons c text ih =>
      intro h
      have hc := of_decide_eq_true (all_eq_true.mp (hstep true) c (mem_digits (h c mem_cons_self)))
      rw [cons_append, read, hc, ih fun d hd => h d (mem_cons_of_mem _ hd)]
      rfl
  cases text with
  | nil => exact absurd rfl hne
  | cons c text =>
    have hc := of_decide_eq_true (all_eq_true.mp (hstep false) c (mem_digits (h c mem_cons_self)))
    have hinit : step init c = ([.word, .lit c], [.code true false]) := hc
    rw [cons_append, read, hinit, hread text fun d hd => h d (mem_cons_of_mem _ hd)]
    simp [commands, Token.events]

/-! ## Quiet texts -/

/-- Between double quotes, before `next`, the character does not stand for itself. -/
def active (c next : Char) : Bool :=
  c = '"' || c = (Char.ofNat 96) || (c = '\\' && (escapable next || next = '\n')) ||
    (c = '$' && expands next)

/-- No character of the text is active; the closing quote comes after the last one. -/
def quiet : List Char → Bool
  | [] => true
  | c :: text => !active c (text.headD '"') && quiet text

/-- A character that is not active is data, whatever is read after it. -/
theorem read_inactive {c d : Char} (h : active c d = false) (rest : List Frame) (l : List Char) :
    read (.double :: rest) (c :: d :: l) =
      (.lit c :: (read (.double :: rest) (d :: l)).1, (read (.double :: rest) (d :: l)).2) := by
  simp only [active, Bool.or_eq_false_iff, Bool.and_eq_false_imp, decide_eq_false_iff_not,
    decide_eq_true_eq] at h
  obtain ⟨⟨⟨hquote, htick⟩, hescape⟩, hdollar⟩ := h
  by_cases hc : c = '\\'
  · obtain ⟨hd, hfeed⟩ := hescape hc
    have hesc : ¬ escapable d = true := by simp [hd]
    simp only [escapable, Bool.or_eq_false_iff, decide_eq_false_iff_not] at hd
    subst hc
    simp [read, step, consume, hd, hfeed, hesc]
  by_cases hc' : c = '$'
  · have hd := hdollar hc'
    simp only [expands, Bool.or_eq_false_iff, decide_eq_false_iff_not] at hd
    subst hc'
    simp [read, step, consume, beginWord, hd]
  simp [read, step, consume, hquote, htick, hc, hc']

/-- The character after the first one of a quoted text. -/
theorem quoted_eq (text rest : List Char) :
    ∃ l, text ++ '"' :: rest = text.headD '"' :: l := by
  cases text with
  | nil => exact ⟨rest, rfl⟩
  | cons d text => exact ⟨text ++ '"' :: rest, rfl⟩

/-- A QUIET TEXT IS READ AS ITSELF. -/
theorem read_quoted {text : List Char} (h : quiet text = true) (stack : List Frame) :
    read (.double :: stack) (text ++ ['"']) = (text.map .lit, stack) := by
  induction text with
  | nil => rfl
  | cons c text ih =>
    simp only [quiet, Bool.and_eq_true, Bool.not_eq_true'] at h
    obtain ⟨l, hl⟩ := quoted_eq text []
    rw [cons_append, hl, read_inactive h.1, ← hl, ih h.2]
    rfl

/-! ## The lag of a word behind its text -/

/-- Where the shell can stand while it reads the word, before any expansion. -/
inductive Place where
  | bare | double | single | escape | doubleEscape | dollar | doubleDollar

def Place.stack : Place → List Frame
  | .bare => [.code true false]
  | .double => [.double, .code true false]
  | .single => [.single, .code true false]
  | .escape => [.escape, .code true false]
  | .doubleEscape => [.doubleEscape, .double, .code true false]
  | .dollar => [.dollar, .code true false]
  | .doubleDollar => [.dollar, .double, .code true false]

/-- The character that is kept until the next one is seen. -/
def Place.pending : Place → List Char
  | .escape | .doubleEscape => ['\\']
  | .dollar | .doubleDollar => ['$']
  | _ => []

/-- What one character can do to a word: something else than data comes out before the text is used
    up, or data, at most what was kept and the character, and a blank only as itself. -/
def Follows (pending : List Char) (c : Char) (r : List Event × List Frame) : Prop :=
  (∃ (out : List Char) (e : Event) (es : List Event), r.1 = out.map .lit ++ e :: es ∧
    (∀ d, e ≠ .lit d) ∧ out.length ≤ pending.length) ∨
  ∃ (out : List Char) (next : Place), r = (out.map .lit, next.stack) ∧
    out.length + next.pending.length ≤ pending.length + 1 ∧ next.pending <:+ [c] ∧
    (c = ' ' → out.getLast? = some ' ')

theorem follows_data (next : Place) (c : Char) (hnext : next.pending = []) :
    Follows [] c ([.lit c], next.stack) :=
  .inr ⟨[c], next, rfl, by simp [hnext], by simp [hnext], fun hc => by simp [hc]⟩

theorem follows_other {c : Char} {e : Event} {es : List Event} {stack : List Frame}
    (he : ∀ d, e ≠ .lit d) (pending : List Char) : Follows pending c (e :: es, stack) :=
  .inl ⟨[], e, es, rfl, he, Nat.zero_le _⟩

/-- The character is a quote, or is kept. -/
theorem follows_silent {c : Char} (next : Place) (h : next.pending <:+ [c]) (hc : c ≠ ' ')
    (pending : List Char) (hlen : next.pending.length ≤ pending.length + 1) :
    Follows pending c ([], next.stack) :=
  .inr ⟨[], next, rfl, by simpa using hlen, h, fun h => absurd h hc⟩

theorem follows_bare (c : Char) : Follows [] c (consume [.code true false] c) := by
  simp only [consume, beginWord, endWord, if_true, Bool.not_true, Bool.and_false,
    Bool.false_eq_true, if_false, nil_append, singleton_append]
  split_ifs with h1 h2 h3 h4
  · exact follows_silent .single (by simp [Place.pending]) (by simp [h1]) _ (by decide)
  · exact follows_silent .double (by simp [Place.pending]) (by simp [h2]) _ (by decide)
  · exact follows_silent .escape (by simp [Place.pending, h3]) (by simp [h3]) _ (by decide)
  · exact follows_silent .dollar (by simp [Place.pending, h4]) (by simp [h4]) _ (by decide)
  all_goals first
    | exact follows_data .bare c rfl
    | exact follows_other (by simp) _

theorem follows_double (c : Char) : Follows [] c (consume [.double, .code true false] c) := by
  simp only [consume]
  split_ifs with h1 h2 h3 h4
  · exact follows_silent .bare (by simp [Place.pending]) (by simp [h1]) _ (by decide)
  · exact follows_silent .doubleEscape (by simp [Place.pending, h2]) (by simp [h2]) _ (by decide)
  · exact follows_silent .doubleDollar (by simp [Place.pending, h3]) (by simp [h3]) _ (by decide)
  · exact follows_other (by simp) _
  · exact follows_data .double c rfl

/-- A dollar sign that starts no expansion comes out before the next character. -/
theorem follows_dollar {stack : List Frame} {c : Char} (hbegin : beginWord stack = ([], stack))
    (h : Follows [] c (consume stack c)) : Follows ['$'] c (step (.dollar :: stack) c) := by
  simp only [step, hbegin, nil_append]
  split_ifs
  iterate 4 exact follows_other (by simp) _
  rcases h with ⟨out, e, es, hout, he, hlen⟩ | ⟨out, next, hout, hlen, hnext, hblank⟩
  · exact .inl ⟨'$' :: out, e, es, by simp [hout], he, by simpa using hlen⟩
  · refine .inr ⟨'$' :: out, next, by simp [hout], ?_, hnext, fun hc => ?_⟩
    · simp only [length_cons, length_nil] at hlen ⊢
      omega
    have hlast := hblank hc
    cases out with
    | nil => cases hlast
    | cons d out => simpa using hlast

/-- One character, anywhere in a word. -/
theorem follows_step (place : Place) {c : Char} (hc : c ≠ '\n') :
    Follows place.pending c (step place.stack c) := by
  cases place with
  | bare => exact follows_bare c
  | double => exact follows_double c
  | single =>
    simp only [Place.stack, step, consume]
    split_ifs with h
    · exact follows_silent .bare (by simp [Place.pending]) (by simp [h]) _ (by decide)
    · exact follows_data .single c rfl
  | escape =>
    refine .inr ⟨[c], .bare, ?_, by simp [Place.pending], by simp [Place.pending],
      fun h => by simp [h]⟩
    simp [Place.stack, step, consume, hc, beginWord]
  | doubleEscape =>
    by_cases h : escapable c = true
    · refine .inr ⟨[c], .double, ?_, by simp [Place.pending], by simp [Place.pending],
        fun h => by simp [h]⟩
      simp [Place.stack, step, consume, hc, h]
    · refine .inr ⟨['\\', c], .double, ?_, by simp [Place.pending], by simp [Place.pending],
        fun h => by simp [h]⟩
      simp [Place.stack, step, consume, hc, h]
  | dollar => exact follows_dollar rfl (follows_bare c)
  | doubleDollar => exact follows_dollar rfl (follows_double c)

/-- Data that is compared with data. -/
theorem lits_prefix {a b : List Char} {es fs : List Event} (hlen : a.length ≤ b.length)
    (h : b.map .lit ++ es <+: a.map .lit ++ fs) :
    ∃ b', b = a ++ b' ∧ b'.map .lit ++ es <+: fs := by
  induction a generalizing b with
  | nil => exact ⟨b, rfl, by simpa using h⟩
  | cons c a ih =>
    cases b with
    | nil => simp at hlen
    | cons d b =>
      simp only [map_cons, cons_append, cons_prefix_cons, Event.lit.injEq] at h
      obtain ⟨b', rfl, hb'⟩ := ih (by simpa using hlen) h.2
      exact ⟨b', by simp [h.1], hb'⟩

/-- The window of the text that has not come out moves on, and it still holds no blank. -/
theorem lag_step {x pending out rest : List Char} {next : Place} {b c : Char} (hx : x ≠ [])
    (hb : b ∉ x ++ pending) (hc : c = b → out.getLast? = some b)
    (hlen : out.length + next.pending.length ≤ pending.length + 1) (hnext : next.pending <:+ [c])
    (h : x ++ pending ++ [c] = out ++ rest) :
    ∃ x', x' ≠ [] ∧ b ∉ x' ++ next.pending ∧ rest = x' ++ next.pending := by
  have hxlen : 0 < x.length := length_pos_iff.mpr hx
  have hsum := congrArg length h
  simp only [length_append, length_singleton] at hsum
  have hcb : c ≠ b := by
    intro hcb
    -- the blank that has come out stands in the text before this one
    have hlast := hc hcb
    obtain ⟨front, rfl⟩ := getLast?_eq_some_iff.mp hlast
    have hout : front ++ [b] <+: x ++ pending := by
      refine prefix_of_prefix_length_le ⟨rest, h.symm⟩ ⟨[c], rfl⟩ ?_
      simp only [length_append] at hlen ⊢
      omega
    exact hb (hout.subset (by simp))
  obtain ⟨front, hfront⟩ : next.pending <:+ rest :=
    suffix_of_suffix_length_le ((hnext.trans ⟨x ++ pending, rfl⟩)) ⟨out, h.symm⟩ (by omega)
  refine ⟨front, ?_, ?_, hfront.symm⟩
  · rintro rfl
    rw [← hfront, nil_append] at hsum
    omega
  · rw [hfront]
    intro hmem
    have hmem : b ∈ x ++ pending ++ [c] := h ▸ mem_append_right _ hmem
    rcases mem_append.mp hmem with hmem | hmem
    · exact hb hmem
    · exact hcb (mem_singleton.mp hmem).symm

/-- ONCE THE WORD LAGS BEHIND THE TEXT IT IS LOST: with `x` still to come out, the closing quote and
    the blank after it do not give the rest of the text and the end of the word. -/
theorem not_lits_prefix (place : Place) {x v rest : List Char} {b : Char}
    (hb : b = ' ' ∨ b = '\n') (hv : '\n' ∉ v) (hx : x ≠ []) (hbx : b ∉ x ++ place.pending) :
    ¬ ((x ++ place.pending ++ v).map .lit ++ [.close] <+:
      (read place.stack (v ++ '"' :: b :: rest)).1) := by
  -- on the text; the place and what is missing change with each character
  induction v generalizing x place with
  | nil =>
    intro h
    obtain ⟨c, x, rfl⟩ := exists_cons_of_ne_nil hx
    simp only [mem_append, mem_cons, not_or] at hbx
    have hcb := hbx.1.1
    rcases hb with rfl | rfl <;> cases place <;> cases x <;>
      simp_all [Place.stack, Place.pending, read, step, consume, beginWord, endWord, escapable,
        isNameStart, isSpecial]
  | cons c v ih =>
    rw [mem_cons, not_or] at hv
    intro h
    rw [cons_append, read] at h
    have htext : x ++ place.pending ++ c :: v = (x ++ place.pending ++ [c]) ++ v := by simp
    have hxlen : 0 < x.length := length_pos_iff.mpr hx
    rcases follows_step place (Ne.symm hv.1) with
      ⟨out, e, es, hout, he, hlen⟩ | ⟨out, next, hstep, hlen, hnext, hblank⟩
    · -- something else than data where data is missing
      have hle : out.length ≤ (x ++ place.pending ++ c :: v).length := by
        simp only [length_append, length_cons]
        omega
      simp only [hout] at h
      rw [append_assoc (out.map Event.lit)] at h
      obtain ⟨more, hmore, h⟩ := lits_prefix hle h
      cases more with
      | nil =>
        have := congrArg length hmore
        simp at this
        omega
      | cons d more =>
        rw [map_cons, cons_append, cons_append, cons_prefix_cons] at h
        exact he d h.1.symm
    · rw [hstep, htext] at h
      obtain ⟨more, hmore, h⟩ := lits_prefix (by simp; omega) h
      have hout : out <+: x ++ place.pending ++ [c] :=
        prefix_of_prefix_length_le ⟨more, hmore.symm⟩ ⟨v, rfl⟩ (by simp; omega)
      obtain ⟨tail, htail⟩ := hout
      have hblank : c = b → out.getLast? = some b := by
        rintro rfl
        rcases hb with rfl | rfl
        · exact hblank rfl
        · exact absurd rfl hv.1
      obtain ⟨x', hx', hbx', rfl⟩ := lag_step hx hbx hblank hlen hnext htail.symm
      rw [← htail, append_assoc, append_cancel_left_eq] at hmore
      rw [← hmore] at h
      exact ih next hv.2 hx' hbx' h

/-- A TEXT THAT IS READ AS ITSELF IS QUIET. -/
theorem quiet_of_read (rest : List Char) {text : List Char} {b : Char} (hb : b = ' ' ∨ b = '\n')
    (hfeed : '\n' ∉ text)
    (h : text.map .lit ++ [.close] <+: (read Place.double.stack (text ++ '"' :: b :: rest)).1) :
    quiet text = true := by
  induction text with
  | nil => rfl
  | cons c text ih =>
    rw [mem_cons, not_or] at hfeed
    obtain ⟨l, hl⟩ := quoted_eq text (b :: rest)
    rw [cons_append] at h
    cases hactive : active c (text.headD '"') with
    | false =>
      rw [hl, Place.stack, read_inactive hactive, ← hl] at h
      rw [map_cons, cons_append, cons_prefix_cons] at h
      rw [quiet, hactive, ih hfeed.2 h.2]
      rfl
    | true =>
      -- the character breaks the quotes; what follows is a word that lags behind
      exfalso
      simp only [active, Bool.or_eq_true, Bool.and_eq_true, decide_eq_true_eq] at hactive
      rcases hactive with ((rfl | rfl) | ⟨rfl, hnext⟩) | ⟨rfl, hnext⟩
      · exact not_lits_prefix (x := ['"']) .bare hb hfeed.2 (by simp)
          (by rcases hb with rfl | rfl <;> decide) h
      · rw [map_cons, cons_append] at h
        exact absurd (cons_prefix_cons.mp h).1 (by simp)
      · cases text with
        | nil => exact absurd (cons_prefix_cons.mp h).1 (by simp)
        | cons d text =>
          -- the backslash is dropped, and what it escapes comes out in its place
          have hd : d ≠ '\n' := fun hd => hfeed.2 (by simp [hd])
          have hescape : escapable d = true := hnext.resolve_right hd
          have hread : read Place.double.stack ('\\' :: (d :: text ++ '"' :: b :: rest)) =
              (.lit d :: (read Place.double.stack (text ++ '"' :: b :: rest)).1,
                (read Place.double.stack (text ++ '"' :: b :: rest)).2) := by
            simp [Place.stack, read, step, consume, hd, hescape]
          rw [hread, map_cons, cons_append, cons_prefix_cons, Event.lit.injEq] at h
          obtain ⟨rfl, h⟩ := h
          exact not_lits_prefix (x := ['\\']) .double hb
            (fun hmem => hfeed.2 (mem_cons_of_mem _ hmem)) (by simp)
            (by rcases hb with rfl | rfl <;> decide) h
      · cases text with
        | nil => exact absurd hnext (by decide)
        | cons d text =>
          have hstep : ∃ stack, step Place.doubleDollar.stack d = ([.exp d], stack) := by
            simp only [Place.stack, step, beginWord, nil_append]
            split_ifs with h1 h2 h3 h4
            iterate 4 exact ⟨_, rfl⟩
            simp [expands, h1, h2, h3, h4] at hnext
          obtain ⟨stack, hstep⟩ := hstep
          have hread : (read Place.double.stack ('$' :: (d :: text ++ '"' :: b :: rest))).1 =
              (step Place.doubleDollar.stack d).1 ++
                (read (step Place.doubleDollar.stack d).2 (text ++ '"' :: b :: rest)).1 := rfl
          rw [hread, hstep, map_cons, cons_append] at h
          exact absurd (cons_prefix_cons.mp h).1 (by simp)

/-! ## Scripts made of pieces -/

/-- A piece of a script: fixed text that is complete commands, or a name between double quotes and
    the blank or line feed after it. -/
inductive Piece where
  | fixed (text : List Char) (tokens : List Token)
  | name (text : List Char) (blank : Char)

def Piece.render : Piece → List Char
  | .fixed text _ => text
  | .name text blank => '"' :: (text ++ ['"', blank])

/-- What the piece is meant to be. -/
def Piece.tokens : Piece → List Token
  | .fixed _ tokens => tokens
  | .name text blank => .word text :: if blank = '\n' then [.newline] else []

/-- The fixed text is what it is meant to be. -/
def Piece.Sound : Piece → Prop
  | .fixed text tokens => read init text = (commands tokens, init)
  | .name _ blank => blank = ' ' ∨ blank = '\n'

instance : DecidablePred Piece.Sound
  | .fixed _ _ => inferInstanceAs (Decidable (_ = _))
  | .name _ _ => inferInstanceAs (Decidable (_ ∨ _))

/-- The names that stand in a script. -/
def Piece.names : Piece → List (List Char)
  | .fixed _ _ => []
  | .name text _ => [text]

def render (pieces : List Piece) : List Char := pieces.flatMap (·.render)

/-- A piece whose names are quiet is what it is meant to be. -/
theorem read_piece {piece : Piece} (hsound : piece.Sound) (h : ∀ t ∈ piece.names, quiet t = true) :
    read init piece.render = (commands piece.tokens, init) := by
  cases piece with
  | fixed text tokens => exact hsound
  | name text blank =>
    have hsplit : text ++ ['"', blank] = (text ++ ['"']) ++ [blank] := by simp
    rw [Piece.render, read, hsplit, read_append]
    have hopen : step init '"' = ([.word], Place.double.stack) := rfl
    rw [hopen, Place.stack, read_quoted (h text mem_cons_self)]
    rcases hsound with rfl | rfl
    · simp [read, step, consume, endWord, commands, Piece.tokens, Token.events, init]
    · simp [read, step, consume, endWord, commands, Piece.tokens, Token.events, init]

/-- A SCRIPT OF QUIET NAMES IS WHAT IT IS MEANT TO BE. -/
theorem read_pieces {pieces : List Piece} (hsound : ∀ p ∈ pieces, p.Sound)
    (h : ∀ p ∈ pieces, ∀ t ∈ p.names, quiet t = true) :
    read init (render pieces) = (commands (pieces.flatMap (·.tokens)), init) := by
  induction pieces with
  | nil => rfl
  | cons piece pieces ih =>
    rw [forall_mem_cons] at hsound h
    rw [render, flatMap_cons, read_append, read_piece hsound.1 h.1, flatMap_cons, commands_append]
    exact congrArg (fun r : List Event × List Frame => (commands piece.tokens ++ r.1, r.2))
      (ih hsound.2 h.2)

/-- AND ONLY SUCH A SCRIPT IS, as long as no name holds a line feed. -/
theorem read_pieces_iff {pieces : List Piece} (hsound : ∀ p ∈ pieces, p.Sound)
    (hfeed : ∀ p ∈ pieces, ∀ t ∈ p.names, '\n' ∉ t) :
    read init (render pieces) = (commands (pieces.flatMap (·.tokens)), init) ↔
      ∀ p ∈ pieces, ∀ t ∈ p.names, quiet t = true := by
  refine ⟨fun h => ?_, read_pieces hsound⟩
  induction pieces with
  | nil => simp
  | cons piece pieces ih =>
    rw [forall_mem_cons] at hsound hfeed ⊢
    rw [render, flatMap_cons] at h
    have hpiece : ∀ t ∈ piece.names, quiet t = true := by
      cases piece with
      | fixed text tokens => simp [Piece.names]
      | name text blank =>
        rw [Piece.names, forall_mem_singleton]
        -- the events of the script begin with those of the word
        apply quiet_of_read (pieces.flatMap (·.render)) hsound.1 (hfeed.1 text mem_cons_self)
        have hevents := congrArg Prod.fst h
        have htext : Piece.render (.name text blank) ++ pieces.flatMap (·.render) =
            '"' :: (text ++ '"' :: blank :: pieces.flatMap (·.render)) := by
          simp [Piece.render]
        have hopen : step init '"' = ([.word], Place.double.stack) := rfl
        rw [htext, read, hopen] at hevents
        simp only [flatMap_cons, Piece.tokens, commands, Token.events, cons_append, nil_append,
          cons.injEq, true_and] at hevents
        rw [hevents]
        simp
    refine ⟨hpiece, ih hsound.2 hfeed.2 ?_⟩
    rw [read_append, read_piece hsound.1 hpiece, flatMap_cons, commands_append, Prod.mk.injEq,
      append_cancel_left_eq] at h
    exact Prod.ext h.1 h.2

end OlcVpn.Lib.Shell
