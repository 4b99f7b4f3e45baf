/-
  WHAT A COMMITTED DELTA LEAVES.

  The swapper performs the plan in two lists, all moves in order and then all deletions, and removes
  the staging directory.  Each operation was checked on its own, but a file brought by one operation
  can be the SOURCE of another: with `a` renamed to `b` and `b` renamed to `c`, the deletions remove
  the new `b`.  And a deletion that names a DIRECTORY empties it on Windows.
-/
import OlcVpn.Update.DeltaPlan

namespace OlcVpn.Update

open Kotlin List
open Lib (Path FileTree)

/-- The swapper's language. -/
inductive Script where
  | unix | windows
  deriving DecidableEq

/-- `del` takes the files in a directory, `rm -f` refuses it. -/
def Script.clears : Script → Bool
  | unix => false
  | windows => true

/-- The swapper's work, when nothing fails. -/
def commit {C : Type} (script : Script) (plan : Plan) (t : FileTree C) : Option (FileTree C) :=
  ((t.installs plan.moves).bind (·.deletes script.clears plan.deletions)).map
    (·.removeAll (normalize plan.stagingDir))

/-- The hash texts are compared without regard to case. -/
def Op.sameSha (op op' : Op) : Prop :=
  op.toSha.toList.map foldAscii = op'.toSha.toList.map foldAscii

instance (op op' : Op) : Decidable (op.sameSha op') := inferInstanceAs (Decidable (_ = _))

section

variable {C : Type} {P : Patcher C} {bundle : Bundle C} {root staging : Path} {ops : List Op}
  {before staged after : FileTree C} {plan : Plan} {script : Script}

theorem publishes_of_sameSha {op op' : Op} (h : op.sameSha op') {c : C}
    (hc : op.publishes P c = true) : op'.publishes P c = true := by
  rw [Op.publishes, sameHash] at hc ⊢
  rwa [← h]

theorem sameSha_of_publishes {op op' : Op} {c : C} (h : op.publishes P c = true)
    (h' : op'.publishes P c = true) : op.sameSha op' := by
  rw [Op.publishes, sameHash, beq_iff_eq] at h h'
  exact h.symm.trans h'

/-- The installation is exactly the published one: every file that is brought is there, every file
    that is removed and not brought by another operation is gone, and the others are as before. -/
structure Published (P : Patcher C) (root staging : Path) (ops : List Op)
    (before after : FileTree C) : Prop where
  brought : ∀ op ∈ ops, op.writes = true →
    ∃ c, after.file (targetPath root op) = some c ∧ op.publishes P c = true
  gone : ∀ op ∈ ops, op.removes = true →
    (∀ op' ∈ ops, op'.writes = true → targetPath root op' ≠ sourcePath root op) →
    after.node (sourcePath root op) = none
  kept : ∀ q, ¬ normalize staging <+: q →
    (∀ op ∈ ops, op.writes = true → targetPath root op ≠ q) →
    (∀ op ∈ ops, op.op ≠ .add → sourcePath root op ≠ q) → after.file q = before.file q

/-- What the removal of the staging directory leaves. -/
def Stays (staging p : Path) : Prop := p = [] ∨ ¬ normalize staging <+: p

instance (staging p : Path) : Decidable (Stays staging p) := inferInstanceAs (Decidable (_ ∨ _))

/-- The operations do not get in each other's way, nor in a directory's, and keep out of the staging
    directory. -/
structure Compatible (root staging : Path) (ops : List Op) (staged : FileTree C) : Prop where
  outside : ∀ op ∈ ops, op.writes = true → ¬ normalize staging <+: targetPath root op
  notDir : ∀ op ∈ ops, op.writes = true → staged.isDir (targetPath root op) = false
  /-- None brings a file below another's, or a different one to the same place. -/
  apart : ∀ op ∈ ops, op.writes = true → ∀ op' ∈ ops, op'.writes = true →
    targetPath root op <+: targetPath root op' →
      targetPath root op = targetPath root op' ∧ op.sameSha op'
  /-- What is removed is no directory, and none brings a file there or below. -/
  removed : ∀ op ∈ ops, op.removes = true → Stays staging (sourcePath root op) →
    staged.isDir (sourcePath root op) = false ∧
    ∀ op' ∈ ops, op'.writes = true → ¬ sourcePath root op <+: targetPath root op'

/-- Whether the operations are compatible can be computed. -/
instance (root staging : Path) (ops : List Op) (staged : FileTree C) :
    Decidable (Compatible root staging ops staged) :=
  decidable_of_iff ((∀ op ∈ ops, op.writes = true → ¬ normalize staging <+: targetPath root op) ∧
      (∀ op ∈ ops, op.writes = true → staged.isDir (targetPath root op) = false) ∧
      (∀ op ∈ ops, op.writes = true → ∀ op' ∈ ops, op'.writes = true →
        targetPath root op <+: targetPath root op' →
          targetPath root op = targetPath root op' ∧ op.sameSha op') ∧
      ∀ op ∈ ops, op.removes = true → Stays staging (sourcePath root op) →
        staged.isDir (sourcePath root op) = false ∧
        ∀ op' ∈ ops, op'.writes = true → ¬ sourcePath root op <+: targetPath root op')
    ⟨fun h => ⟨h.1, h.2.1, h.2.2.1, h.2.2.2⟩, fun h => ⟨h.outside, h.notDir, h.apart, h.removed⟩⟩

theorem mem_deletions (hs : Staged P root staging ops before staged plan) {q : Path} :
    q ∈ plan.deletions ↔ ∃ op ∈ ops, op.removes = true ∧ sourcePath root op = q := by
  rw [hs.deletions, mem_map]
  simp only [mem_filter, mem_ordered]
  exact ⟨fun ⟨op, h, heq⟩ => ⟨op, h.1, h.2, heq⟩, fun ⟨op, hop, h, heq⟩ => ⟨op, ⟨hop, h⟩, heq⟩⟩

/-- The moves of a plan are those of the operations that write. -/
theorem mem_moves (hs : Staged P root staging ops before staged plan) {m : Path × Path} :
    m ∈ plan.moves ↔
      ∃ op ∈ ops, op.writes = true ∧ m = (stagedPath staging op, targetPath root op) := by
  rw [hs.moves, mem_map]
  simp only [mem_writing_ordered]
  exact ⟨fun ⟨op, h, heq⟩ => ⟨op, h.1, h.2, heq.symm⟩,
    fun ⟨op, hop, h, heq⟩ => ⟨op, ⟨hop, h⟩, heq.symm⟩⟩

/-- Compatible operations can be installed one by one. -/
theorem Compatible.installable (hs : Staged P root staging ops before staged plan)
    (hc : Compatible root staging ops staged) :
    FileTree.Installable (normalize staging) plan.moves staged where
  inside m hm := by
    obtain ⟨op, hop, hw, rfl⟩ := (mem_moves hs).mp hm
    exact hs.staged_safe op hop hw
  outside m hm := by
    obtain ⟨op, hop, hw, rfl⟩ := (mem_moves hs).mp hm
    exact hc.outside op hop hw
  notDir m hm := by
    obtain ⟨op, hop, hw, rfl⟩ := (mem_moves hs).mp hm
    exact hc.notDir op hop hw
  apart m hm m' hm' h := by
    obtain ⟨op, hop, hw, rfl⟩ := (mem_moves hs).mp hm
    obtain ⟨op', hop', hw', rfl⟩ := (mem_moves hs).mp hm'
    exact (hc.apart op hop hw op' hop' hw' h).1

theorem commit_eq_some (hs : Staged P root staging ops before staged plan)
    (h : commit script plan staged = some after) :
    ∃ moved erased, staged.installs plan.moves = some moved ∧
      moved.deletes script.clears plan.deletions = some erased ∧
      after = erased.removeAll (normalize staging) := by
  obtain ⟨erased, hboth, rfl⟩ := Option.map_eq_some_iff.mp h
  obtain ⟨moved, hmoved, herased⟩ := Option.bind_eq_some_iff.mp hboth
  exact ⟨moved, erased, hmoved, herased, by rw [hs.stagingDir]⟩

/-- No directory that stays is deleted. -/
theorem Compatible.isDir_source (hs : Staged P root staging ops before staged plan)
    (hc : Compatible root staging ops staged) {moved : FileTree C}
    (hmoved : staged.installs plan.moves = some moved) {p : Path} (hp : p ∈ plan.deletions)
    (hstays : Stays staging p) : moved.isDir p = false := by
  obtain ⟨op, hop, hr, rfl⟩ := (mem_deletions hs).mp hp
  obtain ⟨hdir, hbelow⟩ := hc.removed op hop hr hstays
  rw [Bool.eq_false_iff]
  intro htrue
  rcases (FileTree.installs_isDir hmoved _).mp htrue with hold | ⟨m, hm, habove⟩
  · rw [hdir] at hold
    cases hold
  · obtain ⟨op', hop', hw, rfl⟩ := (mem_moves hs).mp hm
    exact hbelow op' hop' hw (habove.trans (List.dropLast_prefix _))

/-- Outside the staging directory only what is named is taken. -/
theorem Compatible.takes_iff (hs : Staged P root staging ops before staged plan)
    (hc : Compatible root staging ops staged) {moved : FileTree C}
    (hmoved : staged.installs plan.moves = some moved) {q : Path}
    (hq : ¬ normalize staging <+: q) :
    (∃ p ∈ plan.deletions, FileTree.Takes script.clears moved p q) ↔ q ∈ plan.deletions := by
  constructor
  · rintro ⟨p, hp, rfl | ⟨-, hdir, -, rfl⟩⟩
    · exact hp
    · -- a cleared directory would lie outside too
      have hstays : Stays staging q.dropLast := .inr fun h => hq (h.trans (List.dropLast_prefix q))
      rw [hc.isDir_source hs hmoved hp hstays] at hdir
      cases hdir
  · exact fun h => ⟨q, h, .inl rfl⟩

/-- Under the condition every file arrives. -/
theorem Compatible.published (hs : Staged P root staging ops before staged plan)
    (hc : Compatible root staging ops staged) (hrun : commit script plan staged = some after) :
    Published P root staging ops before after := by
  obtain ⟨moved, erased, hmoved, herased, rfl⟩ := commit_eq_some hs hrun
  obtain ⟨-, hnodup, harrived, hkept⟩ := FileTree.installs_file (hc.installable hs) hmoved
  have hcontent := hs.content (by
    rw [hs.moves, map_map] at hnodup
    exact hnodup)
  have hfile : ∀ q, ¬ normalize staging <+: q → q ∉ plan.deletions →
      (erased.removeAll (normalize staging)).file q = moved.file q := by
    intro q hq hnot
    rw [FileTree.removeAll_file, if_neg hq, FileTree.deletes_file herased,
      if_neg fun h => hnot ((hc.takes_iff hs hmoved hq).mp h)]
  refine ⟨fun op hop hw => ?_, fun op hop hr _ => ?_, fun q hq htarget hsource => ?_⟩
  · have hout := hc.outside op hop hw
    have hnot : targetPath root op ∉ plan.deletions := by
      intro hmem
      obtain ⟨op', hop', hr, heq⟩ := (mem_deletions hs).mp hmem
      exact (hc.removed op' hop' hr (.inr (heq ▸ hout))).2 op hop hw (heq ▸ prefix_refl _)
    obtain ⟨m, hm, heq, harrival⟩ := harrived _ ((mem_moves hs).mpr ⟨op, hop, hw, rfl⟩)
    obtain ⟨op', hop', hw', rfl⟩ := (mem_moves hs).mp hm
    -- whichever operation's file arrived last publishes the same content
    obtain ⟨c, hc', hpublished⟩ := hcontent op' hop' hw'
    have hsame := (hc.apart op' hop' hw' op hop hw ⟨[], by rw [append_nil]; exact heq⟩).2
    refine ⟨c, ?_, publishes_of_sameSha hsame hpublished⟩
    rw [hfile _ hout hnot]
    exact harrival.trans hc'
  · have hmem := (mem_deletions hs).mpr ⟨op, hop, hr, rfl⟩
    by_cases hstays : Stays staging (sourcePath root op)
    · rw [FileTree.node_eq_none_iff, FileTree.removeAll_isDir _ hstays,
        FileTree.deletes_isDir herased, hc.isDir_source hs hmoved hmem hstays]
      refine ⟨?_, rfl⟩
      rw [FileTree.removeAll_file, FileTree.deletes_file_self herased hmem, ite_self]
    · rw [Stays, not_or, not_not] at hstays
      exact FileTree.removeAll_node_self _ hstays.2 hstays.1
  · have hnot : q ∉ plan.deletions := by
      intro hmem
      obtain ⟨op, hop, hr, heq⟩ := (mem_deletions hs).mp hmem
      refine hsource op hop (fun hadd => ?_) heq
      simp [Op.removes, hadd] at hr
    rw [hfile q hq hnot, hkept q hq, hs.kept q hq]
    intro m hm heq
    obtain ⟨op, hop, hw, rfl⟩ := (mem_moves hs).mp hm
    exact htarget op hop hw heq.symm

/-- And only under it. -/
theorem Published.compatible (hs : Staged P root staging ops before staged plan)
    (hp : Published P root staging ops before after)
    (hrun : commit script plan staged = some after) : Compatible root staging ops staged := by
  obtain ⟨moved, erased, hmoved, herased, rfl⟩ := commit_eq_some hs hrun
  -- what is a directory after the moves and stays is one in the end, so that no file is there
  have hdirs : ∀ {q}, Stays staging q → moved.isDir q = true →
      (erased.removeAll (normalize staging)).isDir q = true := by
    intro q hstays hdir
    rw [FileTree.removeAll_isDir _ hstays, FileTree.deletes_isDir herased, hdir]
  have hnoFile : ∀ op ∈ ops, op.writes = true → Stays staging (targetPath root op) →
      moved.isDir (targetPath root op) ≠ true := by
    intro op hop hw hstays hdir
    obtain ⟨c, hc, -⟩ := hp.brought op hop hw
    rw [FileTree.file_eq_none_of_isDir (hdirs hstays hdir)] at hc
    cases hc
  have houtside : ∀ op ∈ ops, op.writes = true → ¬ normalize staging <+: targetPath root op := by
    intro op hop hw hin
    obtain ⟨c, hc, -⟩ := hp.brought op hop hw
    rw [FileTree.removeAll_file, if_pos hin] at hc
    cases hc
  refine ⟨houtside, fun op hop hw => ?_, fun op hop hw op' hop' hw' h => ?_,
    fun op hop hr hstays => ?_⟩
  · rw [Bool.eq_false_iff]
    intro hdir
    exact hnoFile op hop hw (.inr (houtside op hop hw))
      ((FileTree.installs_isDir hmoved _).mpr (.inl hdir))
  · obtain ⟨c, hc, hpub⟩ := hp.brought op hop hw
    obtain ⟨c', hc', hpub'⟩ := hp.brought op' hop' hw'
    have heq := FileTree.eq_of_file_of_prefix hc hc' h
    rw [heq, hc'] at hc
    cases hc
    exact ⟨heq, sameSha_of_publishes hpub hpub'⟩
  · have hmem := (mem_deletions hs).mpr ⟨op, hop, hr, rfl⟩
    have hfile : ∀ op' ∈ ops, op'.writes = true →
        targetPath root op' ≠ sourcePath root op := by
      intro op' hop' hw heq
      obtain ⟨c, hc, -⟩ := hp.brought op' hop' hw
      rw [heq, FileTree.removeAll_file, FileTree.deletes_file_self herased hmem, ite_self] at hc
      cases hc
    have hdir : moved.isDir (sourcePath root op) ≠ true := by
      intro htrue
      have hgone := hp.gone op hop hr hfile
      rw [FileTree.node_eq_none_iff, hdirs hstays htrue] at hgone
      cases hgone.2
    refine ⟨?_, fun op' hop' hw hbelow => hdir ?_⟩
    · rw [Bool.eq_false_iff]
      exact fun h => hdir ((FileTree.installs_isDir hmoved _).mpr (.inl h))
    · refine (FileTree.installs_isDir hmoved _).mpr
        (.inr ⟨_, (mem_moves hs).mpr ⟨op', hop', hw, rfl⟩, ?_⟩)
      exact FileTree.prefix_dropLast hbelow (hfile op' hop' hw).symm

end

/-- Contents that are their own hash, and patches that carry the new content. -/
def plainPatcher : Patcher String where
  sha256 := id
  applyDelta _ payload := some payload
  empty := ""

/-- An installation with a library, a file that is no longer used, and the class path file. -/
def installed : FileTree String :=
  .ofFiles [(["opt", "yptun", "app", "core-1.jar"], "one"),
    (["opt", "yptun", "app", "old.jar"], "old"),
    (["opt", "yptun", "app", "YPtun.cfg"], "core-1.jar")]

/-- A new version of the library, under a new name. -/
def libraryOp : Op where
  op := .patch
  fromPath := "app/core-1.jar"
  toPath := "app/core-2.jar"
  fromSha := "one"
  toSha := "two"
  payload := "two"

/-- The bundle of an update: a new class path file, the library, a deletion. -/
def updateOps : List Op :=
  [{ op := .add, toPath := "app/YPtun.cfg", toSha := "core-2.jar", payload := "core-2.jar" },
    libraryOp,
    { op := .delete, fromPath := "app/old.jar" }]

/-- A bundle whose payloads are named by their contents. -/
def bundleOf (ops : List Op) : Bundle String where
  manifest := some { ops := ops }
  entry := some

/-- The staging directory in the installation. -/
def stagingPath : Path := ["opt", "yptun", ".yptun-update"]

/-- `a` is renamed to `b`, and `b` to `c`. -/
def chainOps : List Op :=
  [{ op := .patch, fromPath := "a", toPath := "b", fromSha := "one", toSha := "new b",
     payload := "new b" },
    { op := .patch, fromPath := "b", toPath := "c", fromSha := "two", toSha := "new c",
      payload := "new c" }]

/-- What is at `b` and at `c` once the two have been staged and committed. -/
def renamedChain (script : Script) : Option (Option String × Option String) :=
  (stage plainPatcher (bundleOf chainOps) ["r"] ["r", ".yptun-update"]
      (.ofFiles [(["r", "a"], "one"), (["r", "b"], "two")])).bind fun r =>
    (commit script r.2 r.1).map fun after => (after.file ["r", "b"], after.file ["r", "c"])

end OlcVpn.Update
