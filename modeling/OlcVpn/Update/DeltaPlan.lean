/-
  STAGING A DESKTOP DELTA (`DesktopDeltaPatch.kt`).

  A bundle is a manifest of operations with a payload for each file it brings.  `stage` rebuilds
  every changed file in a staging directory, checks each against its published hash, and returns a
  PLAN: which staged file is moved where, and which installed files are deleted afterwards.  Nothing
  of the installation itself is touched.

  Contents are of any type `C`; the hash function and the patch algorithm are parameters
  (`Patcher`).  Paths follow the POSIX rules, and there are no symbolic links.
-/
import Mathlib.Data.List.Sort
import OlcVpn.Kotlin.Text
import OlcVpn.Lib.FileTree

namespace OlcVpn.Update

open Kotlin List Option
open Lib (Path FileTree)

/-! ## Paths -/

/-- The names of a path text; empty ones do not count. -/
def pathNames (s : String) : List String :=
  (splitWhere (· == '/') s).filter (· ≠ "")

/-- `dir.resolve(s)`: an absolute text is taken as it is. -/
def resolve (dir : Path) (s : String) : Path :=
  if startsWith s "/" then pathNames s else dir ++ pathNames s

/-- `normalize()` of an absolute path: `..` takes back a name, and is dropped at the root. -/
def normalize (p : Path) : Path :=
  p.foldl (fun done name =>
    if name = "." then done else if name = ".." then done.dropLast else done ++ [name]) []

/-- `requireSafe`, with the text that has no path at all refused as well. -/
def requireSafe (dir : Path) (s : String) : Option Path :=
  if s.toList.contains (Char.ofNat 0) then none
  else if normalize dir <+: normalize (resolve dir s) then some (normalize (resolve dir s))
    else none

/-! ## The manifest -/

inductive OpKind where
  | patch | add | delete
  /-- An operation this version does not know. -/
  | other
  deriving DecidableEq

structure Op where
  op : OpKind
  fromPath : String := ""
  toPath : String := ""
  fromSha : String := ""
  toSha : String := ""
  payload : String := ""
  deriving DecidableEq

structure Manifest where
  format : Int := 3
  ops : List Op := []

/-- The bundle file: the manifest that was read from it, if one was, and the other entries. -/
structure Bundle (C : Type) where
  manifest : Option Manifest
  entry : String → Option C

/-- SHA-256 as hexadecimal text, the patch algorithm, which may fail, and the content of
    a file just opened for writing. -/
structure Patcher (C : Type) where
  sha256 : C → String
  applyDelta : C → C → Option C
  empty : C

/-- What the swapper has to do. -/
structure Plan where
  moves : List (Path × Path)
  deletions : List Path
  stagingDir : Path
  rootDir : Path
  deriving DecidableEq

/-- Deletions and class path files come last. -/
def Op.isLate (op : Op) : Bool :=
  op.op = .delete || ".cfg".toList.isSuffixOf op.toPath.toList

/-- `ops.sortedBy { … }`. -/
def ordered (ops : List Op) : List Op :=
  ops.filter (fun op => !op.isLate) ++ ops.filter (·.isLate)

/-- The operation brings a file. -/
def Op.writes (op : Op) : Bool := op.op = .patch || op.op = .add

/-- `equals(…, ignoreCase = true)` of two hashes. -/
def sameHash (sha expected : String) : Bool :=
  sha.toList.map foldAscii == expected.toList.map foldAscii

/-- `verify`: the content is what the operation publishes. -/
def Op.publishes {C : Type} (P : Patcher C) (op : Op) (c : C) : Bool :=
  sameHash (P.sha256 c) op.toSha

/-! ## Staging -/

/-- What the loop of `stage` changes. -/
structure Staging (C : Type) where
  tree : FileTree C
  moves : List (Path × Path) := []
  deletions : List Path := []

section Stage

variable {C : Type} (P : Patcher C) (bundle : Bundle C) (root staging : Path)

/-- The new content: rebuilt from the installed base, or taken as it is.  The staged file is opened
    before the base is read again, which matters where they are the same file. -/
def contentOf (tree : FileTree C) (op : Op) (staged : Path) : Option C :=
  match op.op with
  | .patch => do
      let base ← requireSafe root op.fromPath
      let old ← tree.file base
      if sameHash (P.sha256 old) op.fromSha then
        P.applyDelta (if base = staged then P.empty else old) (← bundle.entry op.payload)
      else none
  | _ => bundle.entry op.payload

variable (s : Staging C)

/-- The staged file is written.  `Files.copy(…, REPLACE_EXISTING)` takes the place of an empty
    directory too, and only the staging directory itself can be empty, before the first file. -/
def writeStaged (op : Op) (staged : Path) (c : C) : Option (FileTree C) := do
  let made ← s.tree.mkdirs staged.dropLast
  if op.op = .add ∧ staged = normalize staging ∧
    s.moves = [] then (made.removeAll staged).put staged c
  else made.put staged c

/-- The file of a `patch` or an `add` is staged, checked, and added to the moves. -/
def stageFile (op : Op) : Option (Staging C) := do
  let staged ← requireSafe staging op.toPath
  let c ← contentOf P bundle root s.tree op staged
  let tree ← writeStaged staging s op staged c
  if op.publishes P c then
    let target ← requireSafe root op.toPath
    pure { s with tree := tree, moves := s.moves ++ [(staged, target)] }
  else none

/-- The operation's source is added to the deletions. -/
def dropSource (op : Op) : Option (Staging C) := do
  let gone ← requireSafe root op.fromPath
  pure { s with deletions := s.deletions ++ [gone] }

def stageOp (op : Op) : Option (Staging C) :=
  match op.op with
  | .patch => do
      let s' ← stageFile P bundle root staging s op
      if op.fromPath ≠ op.toPath then dropSource root s' op else pure s'
  | .add => stageFile P bundle root staging s op
  | .delete => dropSource root s op
  | .other => none

def stage (tree : FileTree C) : Option (FileTree C × Plan) := do
  let fresh ← (tree.removeAll (normalize staging)).mkdirs (normalize staging)
  let manifest ← bundle.manifest
  if manifest.format = 3 then
    let s ← (ordered manifest.ops).foldlM (stageOp P bundle root staging) { tree := fresh }
    pure (s.tree,
      { moves := s.moves, deletions := s.deletions, stagingDir := staging, rootDir := root })
  else none

end Stage

/-! ## What staging leaves -/

section Spec

variable {C : Type} {P : Patcher C} {bundle : Bundle C} {root staging : Path}

/-- Where an operation's file is staged, where it goes, and which file it starts from. -/
def stagedPath (staging : Path) (op : Op) : Path := normalize (resolve staging op.toPath)

def targetPath (root : Path) (op : Op) : Path := normalize (resolve root op.toPath)

def sourcePath (root : Path) (op : Op) : Path := normalize (resolve root op.fromPath)

/-- The operation removes its source: a deletion, or a patch between two names. -/
def Op.removes (op : Op) : Bool := op.op = .delete || (op.op = .patch && op.fromPath ≠ op.toPath)

/-- What `requireSafe` lets through is the normalised path, and it lies below the directory. -/
theorem requireSafe_eq_some {dir p : Path} {s : String} (h : requireSafe dir s = some p) :
    p = normalize (resolve dir s) ∧ normalize dir <+: p := by
  rw [requireSafe] at h
  split at h
  · cases h
  · split at h
    · next hsafe => cases h; exact ⟨rfl, hsafe⟩
    · cases h

/-- Before the first staged file the staging directory holds none. -/
def Fresh (staging : Path) (s : Staging C) : Prop :=
  s.moves = [] → ∀ q, normalize staging <+: q → s.tree.file q = none

variable {s s' : Staging C} {op : Op} {ops : List Op}

/-- Staging writes one file and changes no other; what an `add` may clear first is empty. -/
theorem writeStaged_file {staged : Path} {c : C} {tree : FileTree C} (hfresh : Fresh staging s)
    (h : writeStaged staging s op staged c = some tree) (q : Path) :
    tree.file q = if q = staged then some c else s.tree.file q := by
  obtain ⟨made, hmade, h⟩ := bind_eq_some_iff.mp h
  split at h
  · next hempty =>
    rw [FileTree.put_file h, FileTree.removeAll_file, FileTree.mkdirs_file hmade]
    by_cases hq : staged <+: q
    · -- nothing was there to be removed with the empty directory
      rw [if_pos hq, hfresh hempty.2.2 q (hempty.2.1 ▸ hq)]
    · rw [if_neg hq]
  · rw [FileTree.put_file h, FileTree.mkdirs_file hmade]

/-- What one operation adds to the plan and to the staging directory. -/
structure StageStep (P : Patcher C) (root staging : Path) (op : Op) (s s' : Staging C) : Prop where
  known : op.op ≠ .other
  moves : s'.moves = s.moves ++
    if op.writes then [(stagedPath staging op, targetPath root op)] else []
  deletions : s'.deletions = s.deletions ++ if op.removes then [sourcePath root op] else []
  staged_safe : op.writes = true → normalize staging <+: stagedPath staging op
  target_safe : op.writes = true → normalize root <+: targetPath root op
  source_safe : op.removes = true → normalize root <+: sourcePath root op
  kept : ∀ q, (op.writes = true → q ≠ stagedPath staging op) → s'.tree.file q = s.tree.file q
  content : op.writes = true →
    ∃ c, s'.tree.file (stagedPath staging op) = some c ∧ op.publishes P c = true

/-- One staged file: the move that will put it in place, both paths inside their folders, and the
    tree with that one file more. -/
theorem stageFile_spec (hfresh : Fresh staging s)
    (h : stageFile P bundle root staging s op = some s') :
    s'.moves = s.moves ++ [(stagedPath staging op, targetPath root op)] ∧
      s'.deletions = s.deletions ∧
    normalize staging <+: stagedPath staging op ∧ normalize root <+: targetPath root op ∧
    ∃ c, op.publishes P c = true ∧
      ∀ q, s'.tree.file q = if q = stagedPath staging op then some c else s.tree.file q := by
  obtain ⟨staged, hstaged, h⟩ := bind_eq_some_iff.mp h
  obtain ⟨c, -, h⟩ := bind_eq_some_iff.mp h
  obtain ⟨tree, htree, h⟩ := bind_eq_some_iff.mp h
  obtain ⟨rfl, hsafe⟩ := requireSafe_eq_some hstaged
  split at h
  · next hpublished =>
    obtain ⟨target, htarget, h⟩ := bind_eq_some_iff.mp h
    obtain ⟨rfl, hroot⟩ := requireSafe_eq_some htarget
    cases h
    exact ⟨rfl, rfl, hsafe, hroot, c, hpublished, writeStaged_file hfresh htree⟩
  · cases h

/-- A dropped source is a path below the install folder that is remembered for deletion. -/
theorem dropSource_spec (h : dropSource root s op = some s') :
    s' = { s with deletions := s.deletions ++ [sourcePath root op] } ∧
      normalize root <+: sourcePath root op := by
  obtain ⟨gone, hgone, h⟩ := bind_eq_some_iff.mp h
  obtain ⟨rfl, hsafe⟩ := requireSafe_eq_some hgone
  cases h
  exact ⟨rfl, hsafe⟩

/-- A step that only stages a file. -/
theorem StageStep.of_stageFile (hfresh : Fresh staging s) (hwrites : op.writes = true)
    (hremoves : op.removes = false) (h : stageFile P bundle root staging s op = some s') :
    StageStep P root staging op s s' := by
  obtain ⟨hmoves, hdeletions, hstaged, htarget, c, hpublished, hfile⟩ := stageFile_spec hfresh h
  exact {
    known := by rintro hother; simp [Op.writes, hother] at hwrites
    moves := by rw [hmoves, if_pos hwrites]
    deletions := by rw [hdeletions, hremoves]; simp
    staged_safe := fun _ => hstaged
    target_safe := fun _ => htarget
    source_safe := fun h => by rw [hremoves] at h; cases h
    kept := fun q hq => by rw [hfile, if_neg (hq hwrites)]
    content := fun _ => ⟨c, by rw [hfile, if_pos rfl], hpublished⟩ }

/-- WHAT ONE OPERATION DOES, by its kind; everything later is read off this. -/
theorem stageOp_spec (hfresh : Fresh staging s) (h : stageOp P bundle root staging s op = some s') :
    StageStep P root staging op s s' := by
  rw [stageOp] at h
  split at h
  · next hpatch =>
    have hwrites : op.writes = true := by simp [Op.writes, hpatch]
    obtain ⟨u, hu, h⟩ := bind_eq_some_iff.mp h
    split at h
    · next hrenamed =>
      obtain ⟨rfl, hsource⟩ := dropSource_spec h
      obtain ⟨hmoves, hdeletions, hstaged, htarget, c, hpublished, hfile⟩ :=
        stageFile_spec hfresh hu
      have hremoves : op.removes = true := by simp [Op.removes, hpatch, hrenamed]
      exact {
        known := by rw [hpatch]; decide
        moves := by rw [if_pos hwrites]; exact hmoves
        deletions := by rw [if_pos hremoves, ← hdeletions]
        staged_safe := fun _ => hstaged
        target_safe := fun _ => htarget
        source_safe := fun _ => hsource
        kept := fun q hq => by rw [hfile, if_neg (hq hwrites)]
        content := fun _ => ⟨c, by rw [hfile, if_pos rfl], hpublished⟩ }
    · next hsame =>
      cases h
      exact .of_stageFile hfresh hwrites (by simpa [Op.removes, hpatch] using hsame) hu
  · next hadd =>
    exact .of_stageFile hfresh (by simp [Op.writes, hadd]) (by simp [Op.removes, hadd]) h
  · next hdelete =>
    obtain ⟨rfl, hsource⟩ := dropSource_spec h
    have hwrites : op.writes = false := by simp [Op.writes, hdelete]
    have hremoves : op.removes = true := by simp [Op.removes, hdelete]
    exact {
      known := by rw [hdelete]; decide
      moves := by rw [hwrites]; simp
      deletions := by rw [if_pos hremoves]
      staged_safe := fun h => by rw [hwrites] at h; cases h
      target_safe := fun h => by rw [hwrites] at h; cases h
      source_safe := fun _ => hsource
      kept := fun q _ => rfl
      content := fun h => by rw [hwrites] at h; cases h }
  · cases h

/-- The staging folder holds only what was staged, so the next operation finds it as it needs it. -/
theorem StageStep.fresh (h : StageStep P root staging op s s') (hfresh : Fresh staging s) :
    Fresh staging s' := by
  intro hnil q hq
  rw [h.moves, append_eq_nil_iff] at hnil
  have hwrites : op.writes ≠ true := fun hw => by rw [if_pos hw] at hnil; cases hnil.2
  rw [h.kept q fun hw => absurd hw hwrites]
  exact hfresh hnil.1 q hq

/-- The operations that bring a file, in the order they are applied. -/
def writing (ops : List Op) : List Op := ops.filter (·.writes)

theorem mem_writing : op ∈ writing ops ↔ op ∈ ops ∧ op.writes = true := mem_filter

/-- The files an operation writes come in the order of the operations. -/
theorem writing_cons (op : Op) (ops : List Op) :
    writing (op :: ops) = (if op.writes then [op] else []) ++ writing ops := by
  rw [writing, filter_cons]
  cases op.writes <;> rfl

/-- The loop of `stage`, over a list of operations. -/
structure StageRun (P : Patcher C) (root staging : Path) (ops : List Op) (s s' : Staging C) :
    Prop where
  known : ∀ op ∈ ops, op.op ≠ .other
  moves : s'.moves = s.moves ++ (writing ops).map fun op =>
    (stagedPath staging op, targetPath root op)
  deletions : s'.deletions = s.deletions ++ (ops.filter (·.removes)).map (sourcePath root)
  staged_safe : ∀ op ∈ writing ops, normalize staging <+: stagedPath staging op
  target_safe : ∀ op ∈ writing ops, normalize root <+: targetPath root op
  source_safe : ∀ op ∈ ops, op.removes = true → normalize root <+: sourcePath root op
  kept : ∀ q, (∀ op ∈ writing ops, q ≠ stagedPath staging op) → s'.tree.file q = s.tree.file q
  /-- A staged file that no later operation overwrites is what its operation publishes. -/
  content : ((writing ops).map (stagedPath staging)).Nodup → ∀ op ∈ writing ops,
    ∃ c, s'.tree.file (stagedPath staging op) = some c ∧ op.publishes P c = true

/-- THE WHOLE LOOP: one `StageStep` after another, by induction on the operations. -/
theorem stageOps_spec (hfresh : Fresh staging s)
    (h : ops.foldlM (stageOp P bundle root staging) s = some s') :
      StageRun P root staging ops s s' := by
  induction ops generalizing s with
  | nil =>
    cases h
    exact {
      known := fun _ h => absurd h not_mem_nil
      moves := by simp [writing]
      deletions := by simp
      staged_safe := fun _ h => absurd h not_mem_nil
      target_safe := fun _ h => absurd h not_mem_nil
      source_safe := fun _ h => absurd h not_mem_nil
      kept := fun _ _ => rfl
      content := fun _ _ h => absurd h not_mem_nil }
  | cons op ops ih =>
    rw [foldlM_cons] at h
    obtain ⟨u, hu, h⟩ := bind_eq_some_iff.mp h
    have hstep := stageOp_spec hfresh hu
    have hrun := ih (hstep.fresh hfresh) h
    have hmem : ∀ o ∈ writing ops, o ∈ writing (op :: ops) := fun o ho =>
      mem_writing.mpr ⟨mem_cons_of_mem _ (mem_writing.mp ho).1, (mem_writing.mp ho).2⟩
    have hhead : op.writes = true → op ∈ writing (op :: ops) := fun hw =>
      mem_writing.mpr ⟨mem_cons_self, hw⟩
    have hcases : ∀ o ∈ writing (op :: ops), (o = op ∧ op.writes = true) ∨ o ∈ writing ops := by
      intro o ho
      obtain ⟨ho, hw⟩ := mem_writing.mp ho
      rcases mem_cons.mp ho with rfl | ho
      · exact .inl ⟨rfl, hw⟩
      · exact .inr (mem_writing.mpr ⟨ho, hw⟩)
    exact {
      known := forall_mem_cons.mpr ⟨hstep.known, hrun.known⟩
      moves := by
        rw [hrun.moves, hstep.moves, writing_cons, map_append, append_assoc]
        cases op.writes <;> rfl
      deletions := by
        rw [hrun.deletions, hstep.deletions, filter_cons, append_assoc]
        cases op.removes <;> rfl
      staged_safe := fun o ho => (hcases o ho).elim
        (fun h => h.1 ▸ hstep.staged_safe h.2) (hrun.staged_safe o)
      target_safe := fun o ho => (hcases o ho).elim
        (fun h => h.1 ▸ hstep.target_safe h.2) (hrun.target_safe o)
      source_safe := forall_mem_cons.mpr ⟨hstep.source_safe, hrun.source_safe⟩
      kept := fun q hq => by
        rw [hrun.kept q fun o ho => hq o (hmem o ho), hstep.kept q fun hw => hq op (hhead hw)]
      content := fun hnodup o ho => by
        rw [writing_cons, map_append] at hnodup
        rcases hcases o ho with ⟨rfl, hw⟩ | ho
        · -- written now, and no later operation is staged at the same path
          obtain ⟨c, hc, hpublished⟩ := hstep.content hw
          rw [if_pos hw] at hnodup
          have hlater : ∀ o' ∈ writing ops, stagedPath staging o ≠ stagedPath staging o' :=
            fun o' ho' heq => (nodup_append.mp hnodup).2.2 _ mem_cons_self _
              (mem_map.mpr ⟨o', ho', rfl⟩) heq
          exact ⟨c, by rw [hrun.kept _ hlater, hc], hpublished⟩
        · exact hrun.content (nodup_append.mp hnodup).2.1 o ho }

/-! ## The plan -/

/-- Everything later proofs use of a returned plan. -/
structure Staged (P : Patcher C) (root staging : Path) (ops : List Op) (tree : FileTree C)
    (staged : FileTree C) (plan : Plan) : Prop where
  stagingDir : plan.stagingDir = staging
  known : ∀ op ∈ ops, op.op ≠ .other
  moves : plan.moves =
    (writing (ordered ops)).map fun op => (stagedPath staging op, targetPath root op)
  deletions : plan.deletions = ((ordered ops).filter (·.removes)).map (sourcePath root)
  staged_safe : ∀ op ∈ ops, op.writes = true → normalize staging <+: stagedPath staging op
  target_safe : ∀ op ∈ ops, op.writes = true → normalize root <+: targetPath root op
  source_safe : ∀ op ∈ ops, op.removes = true → normalize root <+: sourcePath root op
  kept : ∀ q, ¬ normalize staging <+: q → staged.file q = tree.file q
  content : ((writing (ordered ops)).map (stagedPath staging)).Nodup →
    ∀ op ∈ ops, op.writes = true →
      ∃ c, staged.file (stagedPath staging op) = some c ∧ op.publishes P c = true

/-- Sorting loses no operation and adds none. -/
theorem mem_ordered : op ∈ ordered ops ↔ op ∈ ops := by
  rw [ordered, mem_append, mem_filter, mem_filter]
  cases op.isLate <;> simp

theorem mem_writing_ordered : op ∈ writing (ordered ops) ↔ op ∈ ops ∧ op.writes = true := by
  rw [mem_writing, mem_ordered]

/-- The plan of a bundle that stages at all, with the manifest it came from. -/
theorem stage_spec {tree staged : FileTree C} {plan : Plan}
    (h : stage P bundle root staging tree = some (staged, plan)) :
    ∃ manifest, bundle.manifest = some manifest ∧
      Staged P root staging manifest.ops tree staged plan := by
  obtain ⟨fresh, hfresh, h⟩ := bind_eq_some_iff.mp h
  obtain ⟨manifest, hmanifest, h⟩ := bind_eq_some_iff.mp h
  split at h
  · obtain ⟨s, hs, h⟩ := bind_eq_some_iff.mp h
    cases h
    have hempty : Fresh staging { tree := fresh : Staging C } := fun _ q hq => by
      rw [FileTree.mkdirs_file hfresh, FileTree.removeAll_file, if_pos hq]
    have hrun := stageOps_spec hempty hs
    have hsafe := hrun.staged_safe
    exact ⟨manifest, hmanifest, {
      stagingDir := rfl
      known := fun op hop => hrun.known op (mem_ordered.mpr hop)
      moves := by rw [hrun.moves]; rfl
      deletions := by rw [hrun.deletions]; rfl
      staged_safe := fun op hop hw => hsafe op (mem_writing_ordered.mpr ⟨hop, hw⟩)
      target_safe := fun op hop hw => hrun.target_safe op (mem_writing_ordered.mpr ⟨hop, hw⟩)
      source_safe := fun op hop => hrun.source_safe op (mem_ordered.mpr hop)
      kept := fun q hq => by
        rw [hrun.kept q fun op hop heq => hq (heq ▸ hsafe op hop), FileTree.mkdirs_file hfresh,
          FileTree.removeAll_file, if_neg hq]
      content := fun hnodup op hop hw =>
        hrun.content hnodup op (mem_writing_ordered.mpr ⟨hop, hw⟩) }⟩
  · cases h

end Spec

end OlcVpn.Update
