/-
  A TREE OF FILES and the commands that change it.

  A path is the list of names from the root.  A `FileTree` says what stands at each path, and keeps
  by construction that whatever stands somewhere stands in a DIRECTORY, so that nothing lies below
  a file.  The contents are of any type.

  ** What is here **
    • `file` and `isDir`, the two views of a tree that every statement is about;
    • `mkdirs`, `put`, `erase`, `removeAll`, `move` as a POSIX system performs them; a command that
      the system refuses is `none`.  `move` onto a directory goes INTO it, as `mv` does;
    • `delete`, which refuses a directory (`rm -f`) or takes the files in it (`del`), and `Takes`,
      the files that are gone afterwards;
    • for each command what it does to the two views (`…_file`, `…_isDir`);
    • `install`, the pair of commands an installer uses for one file, with its inversion
      `install_spec` and what makes it go through (`exists_install`);
    • `installs` and `deletes`, whole lists of them without a failure.  `Installable` is what keeps
      the files of one list out of each other's way, and `installs_file` what then arrives.
-/
import Mathlib.Data.List.Infix

namespace OlcVpn.Lib

open List Option

/-- The names from the root of the system down to a file or a directory. -/
abbrev Path := List String

/-- What can stand at a path. -/
inductive Node (C : Type) where
  | dir
  | file (content : C)

structure FileTree (C : Type) where
  node : Path → Option (Node C)
  root_dir : node [] = some .dir
  parent_dir : ∀ p x, node (p ++ [x]) ≠ none → node p = some .dir

namespace FileTree

variable {C : Type} {t t' : FileTree C} {p q : Path} {c : C}

/-- The content of the file at a path. -/
def file (t : FileTree C) (p : Path) : Option C :=
  match t.node p with
  | some (.file c) => some c
  | _ => none

def isDir (t : FileTree C) (p : Path) : Bool :=
  match t.node p with
  | some .dir => true
  | _ => false

theorem isDir_iff : t.isDir p = true ↔ t.node p = some .dir := by
  rw [isDir]
  split
  · next h => exact ⟨fun _ => h, fun _ => rfl⟩
  · next h => exact ⟨fun h' => (by cases h'), fun h' => absurd h' h⟩

theorem file_eq_some_iff : t.file p = some c ↔ t.node p = some (.file c) := by
  rw [file]
  split
  · next d h => rw [h]; simp
  · next h => exact ⟨fun h' => (by cases h'), fun h' => absurd h' (h c)⟩

theorem file_eq_none_of_isDir (h : t.isDir p = true) : t.file p = none := by
  rw [file, isDir_iff.mp h]

/-- Nothing is there. -/
theorem node_eq_none_iff : t.node p = none ↔ t.file p = none ∧ t.isDir p = false := by
  rw [file, isDir]
  cases t.node p with
  | none => simp
  | some n => cases n <;> simp

theorem isDir_root (t : FileTree C) : t.isDir [] = true := isDir_iff.mpr t.root_dir

/-- What exists lies in a directory. -/
theorem isDir_parent {x : String} (h : t.node (p ++ [x]) ≠ none) : t.isDir p = true :=
  isDir_iff.mpr (t.parent_dir p x h)

/-- Whatever is above something is a directory. -/
theorem isDir_of_above {r : Path} (hr : r ≠ []) (h : t.node (p ++ r) ≠ none) :
    t.isDir p = true := by
  induction r using List.reverseRecOn with
  | nil => exact absurd rfl hr
  | append_singleton r x ih =>
    rw [← append_assoc] at h
    have hdir := isDir_parent h
    by_cases hnil : r = []
    · rwa [hnil, append_nil] at hdir
    · exact ih hnil (by rw [isDir_iff.mp hdir]; simp)

/-- Nothing lies below a file. -/
theorem eq_of_file_of_prefix {d : C} (hp : t.file p = some c) (hq : t.file q = some d)
    (h : p <+: q) : p = q := by
  obtain ⟨r, rfl⟩ := h
  by_cases hr : r = []
  · rw [hr, append_nil]
  · have hdir := isDir_of_above hr (by rw [file_eq_some_iff.mp hq]; simp)
    rw [file_eq_none_of_isDir hdir] at hp
    cases hp

/-! ## The commands -/

/-- `mkdir -p`: refused where a file stands in the way. -/
def mkdirs (t : FileTree C) (p : Path) : Option (FileTree C) :=
  if h : ∀ q ∈ p.inits, t.file q = none then
    some
      { node := fun q => if q <+: p ∧ (t.node q).isNone then some .dir else t.node q
        root_dir := by rw [t.root_dir]; simp
        parent_dir := by
          intro q x hx
          have hold : t.node (q ++ [x]) ≠ none → t.node q = some .dir := t.parent_dir q x
          split
          · rfl
          · next hq =>
            by_cases hnew : q ++ [x] <+: p ∧ (t.node (q ++ [x])).isNone
            · have hqp : q <+: p := (prefix_append q [x]).trans hnew.1
              have hsome : t.node q ≠ none := by simpa [hqp] using hq
              cases hnode : t.node q with
              | none => exact absurd hnode hsome
              | some n =>
                cases n with
                | dir => rfl
                | file c =>
                  have := h q (mem_inits q p |>.mpr hqp)
                  rw [file_eq_some_iff.mpr hnode] at this
                  cases this
            · rw [if_neg hnew] at hx
              exact hold hx }
  else none

/-- A file is written at a path, over a file that is there. -/
def put (t : FileTree C) (p : Path) (c : C) : Option (FileTree C) :=
  if h : p ≠ [] ∧ t.isDir p.dropLast = true ∧ t.isDir p = false then
    some
      { node := fun q => if q = p then some (.file c) else t.node q
        root_dir := by rw [if_neg (Ne.symm h.1), t.root_dir]
        parent_dir := by
          intro q x hx
          by_cases hqx : q ++ [x] = p
          · have hq : t.isDir q = true := by
              have := h.2.1
              rwa [← hqx, dropLast_concat] at this
            have hne : q ≠ p := by
              rintro rfl
              rw [h.2.2] at hq
              cases hq
            rw [if_neg hne]
            exact isDir_iff.mp hq
          · rw [if_neg hqx] at hx
            have hq := t.parent_dir q x hx
            have hne : q ≠ p := by
              rintro rfl
              have hdir := h.2.2
              rw [isDir_iff.mpr hq] at hdir
              cases hdir
            rw [if_neg hne]
            exact hq }
  else none

/-- `rm -f`: nothing happens where there is nothing, and a directory is refused. -/
def erase (t : FileTree C) (p : Path) : Option (FileTree C) :=
  if h : t.isDir p = false then
    some
      { node := fun q => if q = p then none else t.node q
        root_dir := by
          have hne : [] ≠ p := by
            rintro rfl
            rw [t.isDir_root] at h
            cases h
          rw [if_neg hne, t.root_dir]
        parent_dir := by
          intro q x hx
          by_cases hqx : q ++ [x] = p
          · rw [if_pos hqx] at hx
            exact absurd rfl hx
          · rw [if_neg hqx] at hx
            have hq := t.parent_dir q x hx
            have hne : q ≠ p := by
              rintro rfl
              rw [isDir_iff.mpr hq] at h
              cases h
            rw [if_neg hne]
            exact hq }
  else none

/-- `del` of a directory: the files in it go, the directories in it stay. -/
def clear (t : FileTree C) (p : Path) : FileTree C where
  node q := if q ≠ [] ∧ q.dropLast = p ∧ (t.file q).isSome then none else t.node q
  root_dir := by rw [if_neg (by simp), t.root_dir]
  parent_dir := by
    intro q x hx
    have hold : t.node (q ++ [x]) ≠ none := by
      intro hnone
      rw [hnone, ite_self] at hx
      exact hx rfl
    have hdir := isDir_parent hold
    rw [if_neg fun h => by simp [file_eq_none_of_isDir hdir] at h]
    exact isDir_iff.mp hdir

/-- A deletion, which refuses a directory or clears it. -/
def delete (clears : Bool) (t : FileTree C) (p : Path) : Option (FileTree C) :=
  if clears ∧ t.isDir p then some (t.clear p) else t.erase p

/-- A deletion takes what stands at its path, and where it clears a directory the files in it. -/
def Takes (clears : Bool) (t : FileTree C) (p q : Path) : Prop :=
  q = p ∨ clears = true ∧ t.isDir p = true ∧ q ≠ [] ∧ q.dropLast = p

instance (clears : Bool) (t : FileTree C) (p q : Path) : Decidable (Takes clears t p q) :=
  inferInstanceAs (Decidable (_ ∨ _))

/-- `rm -rf`. -/
def removeAll (t : FileTree C) (p : Path) : FileTree C where
  node q := if p <+: q ∧ q ≠ [] then none else t.node q
  root_dir := by rw [if_neg (by simp), t.root_dir]
  parent_dir := by
    intro q x hx
    by_cases hqx : p <+: q ++ [x]
    · rw [if_pos ⟨hqx, by simp⟩] at hx
      exact absurd rfl hx
    · rw [if_neg fun h => hqx h.1] at hx
      rw [if_neg fun h => hqx (h.1.trans (prefix_append q [x]))]
      exact t.parent_dir q x hx

/-- Where `mv` puts a file: inside the destination when that is a directory. -/
def place (t : FileTree C) (src dst : Path) : Path :=
  if t.isDir dst then dst ++ [src.getLastD ""] else dst

/-- `mv -f` of a file. -/
def move (t : FileTree C) (src dst : Path) : Option (FileTree C) :=
  (t.file src).bind fun c =>
    if t.place src dst = src then none else (t.put (t.place src dst) c).bind (·.erase src)

/-! ## What they do -/

theorem mkdirs_file (h : t.mkdirs p = some t') (q : Path) : t'.file q = t.file q := by
  rw [mkdirs] at h
  split at h
  · next hno =>
    cases h
    simp only [file]
    by_cases hq : q <+: p ∧ (t.node q).isNone = true
    · rw [if_pos hq, isNone_iff_eq_none.mp hq.2]
    · rw [if_neg hq]
  · cases h

/-- The directories are made, and no others. -/
theorem mkdirs_isDir (h : t.mkdirs p = some t') (q : Path) :
    t'.isDir q = true ↔ t.isDir q = true ∨ q <+: p := by
  rw [mkdirs] at h
  split at h
  · next hno =>
    cases h
    simp only [isDir_iff]
    by_cases hqp : q <+: p
    · have hfile := hno q ((mem_inits q p).mpr hqp)
      cases hnode : t.node q with
      | none => simp [hqp]
      | some n =>
        cases n with
        | dir => simp [hqp]
        | file c => rw [file_eq_some_iff.mpr hnode] at hfile; cases hfile
    · simp [hqp]
  · cases h

/-- A file is written at its path and nowhere else. -/
theorem put_file (h : t.put p c = some t') (q : Path) :
    t'.file q = if q = p then some c else t.file q := by
  rw [put] at h
  split at h
  · cases h
    simp only [file]
    by_cases hq : q = p
    · rw [if_pos hq, if_pos hq]
    · rw [if_neg hq, if_neg hq]
  · cases h

theorem put_isDir (h : t.put p c = some t') (q : Path) : t'.isDir q = t.isDir q := by
  rw [put] at h
  split at h
  · next hp =>
    cases h
    by_cases hq : q = p
    · rw [hq, hp.2.2]
      simp [isDir]
    · simp [isDir, hq]
  · cases h

theorem erase_file (h : t.erase p = some t') (q : Path) :
    t'.file q = if q = p then none else t.file q := by
  rw [erase] at h
  split at h
  · cases h
    simp only [file]
    by_cases hq : q = p
    · rw [if_pos hq, if_pos hq]
    · rw [if_neg hq, if_neg hq]
  · cases h

theorem erase_isDir (h : t.erase p = some t') (q : Path) : t'.isDir q = t.isDir q := by
  rw [erase] at h
  split at h
  · next hp =>
    cases h
    by_cases hq : q = p
    · rw [hq, hp]
      simp [isDir]
    · simp [isDir, hq]
  · cases h

/-- Emptying a directory takes the files in it, not those below. -/
theorem clear_file (t : FileTree C) (p q : Path) :
    (t.clear p).file q = if q ≠ [] ∧ q.dropLast = p then none else t.file q := by
  by_cases hgone : q ≠ [] ∧ q.dropLast = p ∧ (t.file q).isSome = true
  · have hnode : (t.clear p).node q = none := if_pos hgone
    rw [if_pos ⟨hgone.1, hgone.2.1⟩, file, hnode]
  · have hnode : (t.clear p).node q = t.node q := if_neg hgone
    have hsame : (t.clear p).file q = t.file q := by rw [file, file, hnode]
    rw [hsame]
    split
    · next hq =>
      by_contra hfile
      exact hgone ⟨hq.1, hq.2, isSome_iff_ne_none.mpr hfile⟩
    · rfl

theorem clear_isDir (t : FileTree C) (p q : Path) : (t.clear p).isDir q = t.isDir q := by
  by_cases hgone : q ≠ [] ∧ q.dropLast = p ∧ (t.file q).isSome = true
  · obtain ⟨c, hc⟩ := isSome_iff_exists.mp hgone.2.2
    have hnode : (t.clear p).node q = none := if_pos hgone
    rw [isDir, isDir, hnode, file_eq_some_iff.mp hc]
  · have hnode : (t.clear p).node q = t.node q := if_neg hgone
    rw [isDir, isDir, hnode]

/-- A deletion takes what it takes and leaves every other file. -/
theorem delete_file {clears : Bool} (h : t.delete clears p = some t') (q : Path) :
    t'.file q = if Takes clears t p q then none else t.file q := by
  rw [delete] at h
  split at h
  · next hclear =>
    cases h
    rw [clear_file]
    by_cases hq : q = p
    · -- the directory itself holds no file
      rw [if_pos (show Takes clears t p q from .inl hq), hq, file_eq_none_of_isDir hclear.2,
        ite_self]
    · simp [Takes, hq, hclear.1, hclear.2]
  · next hfile =>
    have htakes : Takes clears t p q ↔ q = p := by
      simp only [Takes, or_iff_left_iff_imp]
      rintro ⟨hclears, hdir, -⟩
      exact absurd ⟨hclears, hdir⟩ hfile
    rw [erase_file h]
    simp only [htakes]

theorem delete_isDir {clears : Bool} (h : t.delete clears p = some t') (q : Path) :
    t'.isDir q = t.isDir q := by
  rw [delete] at h
  split at h
  · cases h
    exact clear_isDir t p q
  · exact erase_isDir h q

/-- Which files a deletion takes depends on the directories only. -/
theorem takes_congr {clears : Bool} (h : ∀ q, t'.isDir q = t.isDir q) {q : Path} :
    Takes clears t' p q ↔ Takes clears t p q := by
  rw [Takes, Takes, h]

/-- Everything below a path goes. -/
theorem removeAll_file (t : FileTree C) (p q : Path) :
    (t.removeAll p).file q = if p <+: q then none else t.file q := by
  simp only [file, removeAll]
  by_cases hnil : q = []
  · rw [hnil, if_neg (by simp), t.root_dir]
    simp
  · by_cases hq : p <+: q
    · rw [if_pos ⟨hq, hnil⟩, if_pos hq]
    · rw [if_neg fun h => hq h.1, if_neg hq]

/-- Nothing is left under a removed path, but for the root itself. -/
theorem removeAll_node_self (t : FileTree C) (h : p <+: q) (hne : q ≠ []) :
    (t.removeAll p).node q = none := if_pos ⟨h, hne⟩

theorem removeAll_isDir (t : FileTree C) (h : q = [] ∨ ¬ p <+: q) :
    (t.removeAll p).isDir q = t.isDir q := by
  have hnode : (t.removeAll p).node q = t.node q :=
    if_neg fun hgone => h.elim (fun hnil => hgone.2 hnil) fun hnot => hnot hgone.1
  rw [isDir, isDir, hnode]

variable {src dst : Path} {ps : List Path}

/-- A MOVE, with the place it really goes to: into the target where that is a directory. -/
theorem move_spec (h : t.move src dst = some t') :
    ∃ c, t.file src = some c ∧ t.place src dst ≠ src ∧
      (∀ q, t'.file q = if q = src then none else if q = t.place src dst then some c
        else t.file q) ∧
      ∀ q, t'.isDir q = t.isDir q := by
  rw [move, bind_eq_some_iff] at h
  obtain ⟨c, hc, h⟩ := h
  split at h
  · cases h
  · next hne =>
    obtain ⟨u, hu, h⟩ := bind_eq_some_iff.mp h
    refine ⟨c, hc, hne, fun q => ?_, fun q => ?_⟩
    · rw [erase_file h, put_file hu]
    · rw [erase_isDir h, put_isDir hu]

/-! ## Installing one file -/

/-- `mkdir -p "$(dirname dst)" && mv -f src dst`. -/
def install (t : FileTree C) (src dst : Path) : Option (FileTree C) :=
  (t.mkdirs dst.dropLast).bind (·.move src dst)

theorem not_prefix_dropLast (h : p ≠ []) : ¬ p <+: p.dropLast := by
  intro hp
  have hle := hp.length_le
  rw [length_dropLast] at hle
  have := length_pos_iff.mpr h
  omega

/-- What is properly above a path is above or at its directory. -/
theorem prefix_dropLast (h : p <+: q) (hne : p ≠ q) : p <+: q.dropLast := by
  obtain ⟨r, rfl⟩ := h
  have hr : r ≠ [] := by
    rintro rfl
    simp at hne
  rw [dropLast_append_of_ne_nil hr]
  exact prefix_append p _

/-- Making the directories above a path does not make one of the path itself. -/
theorem isDir_of_mkdirs_above {u : FileTree C} (h : t.mkdirs p.dropLast = some u) (hne : p ≠ [])
    (hp : t.isDir p = false) : u.isDir p = false := by
  rw [Bool.eq_false_iff]
  intro hu
  rcases (mkdirs_isDir h p).mp hu with hdir | habove
  · rw [hp] at hdir
    cases hdir
  · exact not_prefix_dropLast hne habove

/-- An installed file leaves its source and arrives, and nothing else changes but that directories
    are made; what was a directory stays one. -/
theorem install_spec (h : t.install src dst = some t') :
    (∀ q, t'.isDir q = true ↔ t.isDir q = true ∨ q <+: dst.dropLast) ∧ (∃ c, t.file src = some c) ∧
    (t.isDir dst = false → dst ≠ [] → ∀ c, t.file src = some c →
      ∀ q, t'.file q = if q = src then none else if q = dst then some c else t.file q) := by
  obtain ⟨u, hu, hmove⟩ := bind_eq_some_iff.mp h
  obtain ⟨c, hc, -, hfile, hdir⟩ := move_spec hmove
  rw [mkdirs_file hu] at hc
  refine ⟨fun q => by rw [hdir, mkdirs_isDir hu], ⟨c, hc⟩, fun hdst hne d hd q => ?_⟩
  obtain rfl : c = d := Option.some.inj (hc.symm.trans hd)
  have hplace : u.place src dst = dst := by
    rw [place, if_neg (by rw [isDir_of_mkdirs_above hu hne hdst]; decide)]
  rw [hfile, hplace, mkdirs_file hu]

/-! ## Installing and erasing many files -/

/-- All files are installed in order, each from a source to a destination. -/
def installs (ms : List (Path × Path)) (t : FileTree C) : Option (FileTree C) :=
  ms.foldlM (fun t m => t.install m.1 m.2) t

def deletes (clears : Bool) (ps : List Path) (t : FileTree C) : Option (FileTree C) :=
  ps.foldlM (delete clears) t

theorem deletes_isDir {clears : Bool} (h : t.deletes clears ps = some t') (q : Path) :
    t'.isDir q = t.isDir q := by
  induction ps generalizing t with
  | nil => cases h; rfl
  | cons p ps ih =>
    rw [deletes, foldlM_cons] at h
    obtain ⟨u, hu, h⟩ := bind_eq_some_iff.mp h
    rw [ih h, delete_isDir hu]

/-- A list of deletions takes what any of them takes. -/
theorem deletes_file {clears : Bool} (h : t.deletes clears ps = some t') (q : Path) :
    t'.file q = if ∃ p ∈ ps, Takes clears t p q then none else t.file q := by
  induction ps generalizing t with
  | nil => cases h; simp
  | cons p ps ih =>
    rw [deletes, foldlM_cons] at h
    obtain ⟨u, hu, h⟩ := bind_eq_some_iff.mp h
    rw [ih h, delete_file hu]
    simp only [takes_congr (delete_isDir hu), exists_mem_cons_iff]
    by_cases hp : Takes clears t p q <;> simp [hp]

theorem deletes_file_self {clears : Bool} (h : t.deletes clears ps = some t') (hq : q ∈ ps) :
    t'.file q = none := by
  rw [deletes_file h, if_pos ⟨q, hq, .inl rfl⟩]

/-- The directories after a run are the old ones and those above the destinations. -/
theorem installs_isDir {ms : List (Path × Path)} (h : t.installs ms = some t') (q : Path) :
    t'.isDir q = true ↔ t.isDir q = true ∨ ∃ m ∈ ms, q <+: m.2.dropLast := by
  induction ms generalizing t with
  | nil => cases h; simp
  | cons m ms ih =>
    rw [installs, foldlM_cons] at h
    obtain ⟨u, hu, h⟩ := bind_eq_some_iff.mp h
    rw [ih h, (install_spec hu).1 q, exists_mem_cons_iff]
    tauto

/-- The sources lie in one area and no destination does; no destination is a directory, and none
    lies below another. -/
structure Installable (area : Path) (ms : List (Path × Path)) (t : FileTree C) : Prop where
  inside : ∀ m ∈ ms, area <+: m.1
  outside : ∀ m ∈ ms, ¬ area <+: m.2
  notDir : ∀ m ∈ ms, t.isDir m.2 = false
  apart : ∀ m ∈ ms, ∀ m' ∈ ms, m.2 <+: m'.2 → m.2 = m'.2

namespace Installable

variable {area : Path} {m : Path × Path} {ms : List (Path × Path)}

theorem ne_nil (h : Installable area ms t) (hm : m ∈ ms) : m.2 ≠ [] := by
  intro hnil
  have hdir := h.notDir m hm
  rw [hnil, t.isDir_root] at hdir
  cases hdir

/-- No move overwrites what another still has to move. -/
theorem ne_of_mem (h : Installable area ms t) {m' : Path × Path} (hm : m ∈ ms) (hm' : m' ∈ ms) :
    m.2 ≠ m'.1 := fun heq => h.outside m hm (heq ▸ h.inside m' hm')

/-- The directories made for one file are in no other's way. -/
theorem tail {u : FileTree C} (h : Installable area (m :: ms) t)
    (hdir : ∀ q, u.isDir q = true ↔ t.isDir q = true ∨ q <+: m.2.dropLast) :
    Installable area ms u where
  inside m' hm' := h.inside m' (mem_cons_of_mem _ hm')
  outside m' hm' := h.outside m' (mem_cons_of_mem _ hm')
  apart m' hm' m'' hm'' :=
    h.apart m' (mem_cons_of_mem _ hm') m'' (mem_cons_of_mem _ hm'')
  notDir m' hm' := by
    rw [Bool.eq_false_iff]
    intro hu
    rcases (hdir m'.2).mp hu with hold | hnew
    · rw [h.notDir m' (mem_cons_of_mem _ hm')] at hold
      cases hold
    · have heq := h.apart m' (mem_cons_of_mem _ hm') m mem_cons_self
        (hnew.trans (List.dropLast_prefix _))
      rw [heq] at hnew
      exact not_prefix_dropLast (h.ne_nil mem_cons_self) hnew

/-- One file arrives, and its source is gone. -/
theorem install_file {u : FileTree C} (h : Installable area (m :: ms) t)
    (hu : t.install m.1 m.2 = some u) : ∃ c, t.file m.1 = some c ∧
      ∀ q, u.file q = if q = m.1 then none else if q = m.2 then some c else t.file q := by
  obtain ⟨-, ⟨c, hc⟩, hfile⟩ := install_spec hu
  exact ⟨c, hc, hfile (h.notDir m mem_cons_self) (h.ne_nil mem_cons_self) c hc⟩

end Installable

/-- After a run without failure the sources were different files, every destination holds what one
    of the sources for it held, and what is neither a destination nor in the area is as before. -/
theorem installs_file {area : Path} {ms : List (Path × Path)} (hi : Installable area ms t)
    (h : t.installs ms = some t') : (∀ m ∈ ms, ∃ c, t.file m.1 = some c) ∧ (ms.map Prod.fst).Nodup ∧
    (∀ m ∈ ms, ∃ m' ∈ ms, m'.2 = m.2 ∧ t'.file m.2 = t.file m'.1) ∧
    ∀ q, ¬ area <+: q → (∀ m ∈ ms, q ≠ m.2) → t'.file q = t.file q := by
  induction ms generalizing t with
  | nil =>
    cases h
    exact ⟨fun _ h => absurd h not_mem_nil, nodup_nil,
      fun _ h => absurd h not_mem_nil, fun _ _ _ => rfl⟩
  | cons m ms ih =>
    rw [installs, foldlM_cons] at h
    obtain ⟨u, hu, h⟩ := bind_eq_some_iff.mp h
    obtain ⟨c, hc, hfile⟩ := hi.install_file hu
    obtain ⟨hsources, hnodup, harrived, hkept⟩ := ih (hi.tail (install_spec hu).1) h
    -- a later source was there all along: it is neither this source, now gone, nor a destination
    have hsource : ∀ m' ∈ ms, m'.1 ≠ m.1 ∧ u.file m'.1 = t.file m'.1 := by
      intro m' hm'
      obtain ⟨d, hd⟩ := hsources m' hm'
      have hne : m'.1 ≠ m.1 := by
        intro heq
        rw [hfile, if_pos heq] at hd
        cases hd
      have hne' : m'.1 ≠ m.2 :=
        (hi.ne_of_mem mem_cons_self (mem_cons_of_mem _ hm')).symm
      exact ⟨hne, by rw [hfile, if_neg hne, if_neg hne']⟩
    refine ⟨?_, ?_, ?_, ?_⟩
    · refine forall_mem_cons.mpr ⟨⟨c, hc⟩, fun m' hm' => ?_⟩
      rw [← (hsource m' hm').2]
      exact hsources m' hm'
    · rw [map_cons, nodup_cons]
      refine ⟨fun hmem => ?_, hnodup⟩
      obtain ⟨m', hm', heq⟩ := mem_map.mp hmem
      exact (hsource m' hm').1 heq
    · have htail : ∀ m' ∈ ms, ∃ m'' ∈ m :: ms, m''.2 = m'.2 ∧ t'.file m'.2 = t.file m''.1 := by
        intro m' hm'
        obtain ⟨m'', hm'', heq, hfile''⟩ := harrived m' hm'
        exact ⟨m'', mem_cons_of_mem _ hm'', heq, by rw [hfile'', (hsource m'' hm'').2]⟩
      refine forall_mem_cons.mpr ⟨?_, htail⟩
      -- either a later file has the same destination, or this one stays
      by_cases hlater : ∃ m' ∈ ms, m'.2 = m.2
      · obtain ⟨m', hm', heq⟩ := hlater
        rw [← heq]
        exact htail m' hm'
      · refine ⟨m, mem_cons_self, rfl, ?_⟩
        rw [hkept m.2 (hi.outside m mem_cons_self) fun m' hm' heq => hlater ⟨m', hm', heq.symm⟩,
          hfile, if_neg (hi.ne_of_mem mem_cons_self mem_cons_self), if_pos rfl, hc]
    · intro q hq hne
      rw [hkept q hq fun m' hm' => hne m' (mem_cons_of_mem _ hm'), hfile,
        if_neg (fun heq : q = m.1 => hq (heq ▸ hi.inside m mem_cons_self)),
        if_neg (hne m mem_cons_self)]

/-! ## A tree from its files -/

/-- The tree with these files and the directories above them. -/
def ofFiles (files : List (Path × C)) : FileTree C where
  node p :=
    if p = [] ∨ (files.any fun f => p.isPrefixOf f.1 && p != f.1) = true then some .dir
    else (files.find? (·.1 == p)).map fun f => .file f.2
  root_dir := if_pos (.inl rfl)
  parent_dir := by
    intro p x hx
    refine if_pos (.inr (any_eq_true.mpr ?_))
    have habove : ∀ f ∈ files, p ++ [x] <+: f.1 →
        ∃ f ∈ files, (p.isPrefixOf f.1 && p != f.1) = true := by
      intro f hf hprefix
      have hp : p <+: f.1 := (prefix_append p [x]).trans hprefix
      have hne : p ≠ f.1 := by
        intro heq
        have hle := hprefix.length_le
        rw [← heq, length_append, length_singleton] at hle
        omega
      exact ⟨f, hf, by simp [hp, hne]⟩
    split at hx
    · next hdir =>
      rcases hdir with hnil | hany
      · simp at hnil
      · obtain ⟨f, hf, hprefix⟩ := any_eq_true.mp hany
        rw [Bool.and_eq_true, isPrefixOf_iff_prefix] at hprefix
        exact habove f hf hprefix.1
    · cases hfind : files.find? (·.1 == p ++ [x]) with
      | none => rw [hfind] at hx; exact absurd rfl hx
      | some f =>
        have heq : f.1 = p ++ [x] := by simpa using find?_some hfind
        exact habove f (mem_of_find?_eq_some hfind) (heq ▸ prefix_refl _)

end FileTree

end OlcVpn.Lib
