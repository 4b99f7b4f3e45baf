/-
  THE FIRST FREE CANDIDATE of a numbered sequence.

  A generator proposes `cand 0`, `cand 1`, `cand 2`, … and takes the first one that is not in use.
  If the candidates are distinct it needs at most one try more than there are names in use, so the
  search below runs on that much fuel and never runs out.
-/
import Mathlib.Data.Finset.Card
import Mathlib.Logic.Function.Iterate

namespace OlcVpn.Fresh

variable {α : Type} [DecidableEq α] (cand : Nat → α)

/-- The least free index from `n` on, on the given fuel. -/
def firstFreeFrom (used : List α) : Nat → Nat → Nat
  | 0, n => n
  | fuel + 1, n => if cand n ∈ used then firstFreeFrom used fuel (n + 1) else n

/-- The least free index. -/
def firstFree (used : List α) : Nat := firstFreeFrom cand used (used.length + 1) 0

/-- The first free candidate. -/
def pick (used : List α) : α := cand (firstFree cand used)

/-- Everything the search passes is in use, and it stops early only at a free candidate. -/
theorem firstFreeFrom_spec (used : List α) (fuel n : Nat) :
    (∀ j, n ≤ j → j < firstFreeFrom cand used fuel n → cand j ∈ used) ∧
      (firstFreeFrom cand used fuel n = n + fuel ∨
        cand (firstFreeFrom cand used fuel n) ∉ used) := by
  induction fuel generalizing n with
  | zero =>
    refine ⟨fun j hj hlt => ?_, .inl rfl⟩
    simp only [firstFreeFrom] at hlt
    omega
  | succ fuel ih =>
    unfold firstFreeFrom
    split_ifs with h
    · obtain ⟨hpassed, hstop⟩ := ih (n + 1)
      refine ⟨fun j hj hlt => ?_, hstop.imp_left fun e => by omega⟩
      rcases Nat.eq_or_lt_of_le hj with rfl | hj
      · exact h
      · exact hpassed j hj hlt
    · exact ⟨fun j hj hlt => absurd hlt (by omega), .inr h⟩

variable {cand} (hinj : Function.Injective cand)
include hinj

/-- A list cannot hold more distinct candidates than it is long. -/
theorem exists_free (used : List α) : ∃ j < used.length + 1, cand j ∉ used := by
  by_contra hall
  push Not at hall
  have hsub : (Finset.range (used.length + 1)).image cand ⊆ used.toFinset := by
    intro a ha
    obtain ⟨j, hj, rfl⟩ := Finset.mem_image.mp ha
    exact List.mem_toFinset.mpr (hall j (Finset.mem_range.mp hj))
  have hcard := Finset.card_le_card hsub
  rw [Finset.card_image_of_injective _ hinj, Finset.card_range] at hcard
  have hlen := List.toFinset_card_le used
  omega

theorem firstFree_free (used : List α) : cand (firstFree cand used) ∉ used := by
  obtain ⟨hpassed, hstop⟩ := firstFreeFrom_spec cand used (used.length + 1) 0
  rcases hstop with hend | hfree
  · obtain ⟨j, hj, hfree⟩ := exists_free hinj used
    exact absurd (hpassed j (Nat.zero_le j) (by omega)) hfree
  · exact hfree

omit hinj in
theorem mem_of_lt_firstFree {used : List α} {j : Nat} (h : j < firstFree cand used) :
    cand j ∈ used :=
  (firstFreeFrom_spec cand used (used.length + 1) 0).1 j (Nat.zero_le j) h

theorem pick_not_mem (used : List α) : pick cand used ∉ used := firstFree_free hinj used

/-- The index found is the least free one. -/
theorem firstFree_eq {used : List α} {n : Nat} (hused : ∀ j < n, cand j ∈ used)
    (hfree : cand n ∉ used) : firstFree cand used = n := by
  rcases Nat.lt_trichotomy (firstFree cand used) n with h | h | h
  · exact absurd (hused _ h) (firstFree_free hinj used)
  · exact h
  · exact absurd (mem_of_lt_firstFree h) hfree

/-- Picking `m` times in a row uses up the first `m` candidates. -/
theorem mem_iterate_pick (used : List α) (m : Nat) :
    ∀ j < m, cand j ∈ (fun u => pick cand u :: u)^[m] used := by
  induction m with
  | zero => intro j hj; omega
  | succ m ih =>
    intro j hj
    rw [Function.iterate_succ_apply']
    generalize (fun u => pick cand u :: u)^[m] used = u at ih ⊢
    by_cases hmem : cand j ∈ u
    · exact List.mem_cons_of_mem _ hmem
    · -- only candidate `m` can still be free, and then it is the one picked
      have hjm : j = m := by
        by_contra hne
        exact hmem (ih j (by omega))
      subst hjm
      rw [pick, firstFree_eq hinj ih hmem]
      exact List.mem_cons_self

end OlcVpn.Fresh
