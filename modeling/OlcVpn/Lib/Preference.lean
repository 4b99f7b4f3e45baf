/-
  CHOOSING BY A CHAIN OF PREFERENCES.

  A selector often asks a list several questions in turn: is there an element of the best kind, if
  not one of the second best, and so on; within a kind it takes the first.  Which element comes out
  depends on the ORDER of the list, which whoever made the list decides.

  ** What is here **
    • `pick classes l`: the first element of the first class that the list meets;
    • `front classes l`: ALL elements of that class.  The order of the list only decides which of
      them comes first (`pick_eq_head?`);
    • `narrow chains l`: several such chains one after another, each on what the last one left;
    • `forall_head_narrow_iff`: a property holds of the choice for EVERY order of the list exactly
      when it holds of everything that is left.  This turns a question about a selector into one
      about a set.
-/
import Mathlib.Data.List.Basic

namespace OlcVpn.Lib

open List

variable {α : Type}

/-- The first element of the first class that has one. -/
def pick (classes : List (α → Bool)) (l : List α) : Option α :=
  classes.findSome? fun p => l.find? p

/-- The elements of the first class that has any. -/
def front : List (α → Bool) → List α → List α
  | [], _ => []
  | p :: classes, l => if l.any p then l.filter p else front classes l

variable {l : List α} {classes : List (α → Bool)} {a : α}

theorem front_cons_of_any {p : α → Bool} (h : l.any p = true) (classes : List (α → Bool)) :
    front (p :: classes) l = l.filter p := if_pos h

theorem front_cons_of_none {p : α → Bool} (h : l.any p = false) (classes : List (α → Bool)) :
    front (p :: classes) l = front classes l := if_neg (by rw [h]; decide)

/-- The first of the first class that has any. -/
theorem pick_eq_head? (classes : List (α → Bool)) (l : List α) :
    pick classes l = (front classes l).head? := by
  induction classes with
  | nil => rfl
  | cons p classes ih =>
    rw [pick, findSome?_cons]
    cases hany : l.any p with
    | true =>
      rw [front_cons_of_any hany, head?_filter]
      obtain ⟨a, ha, hp⟩ := any_eq_true.mp hany
      cases hfind : l.find? p with
      | some b => rfl
      | none => exact absurd hp (find?_eq_none.mp hfind a ha)
    | false =>
      have hnone : l.find? p = none :=
        find?_eq_none.mpr fun a ha hp =>
          absurd (any_eq_true.mpr ⟨a, ha, hp⟩) (by rw [hany]; decide)
      rw [front_cons_of_none hany, hnone]
      exact ih

theorem mem_of_mem_front (h : a ∈ front classes l) : a ∈ l ∧ ∃ p ∈ classes, p a = true := by
  induction classes with
  | nil => exact absurd h not_mem_nil
  | cons p classes ih =>
    cases hany : l.any p with
    | true =>
      rw [front_cons_of_any hany, mem_filter] at h
      exact ⟨h.1, p, mem_cons_self, h.2⟩
    | false =>
      rw [front_cons_of_none hany] at h
      obtain ⟨hl, q, hq, ha⟩ := ih h
      exact ⟨hl, q, mem_cons_of_mem _ hq, ha⟩

theorem front_eq_nil_iff : front classes l = [] ↔ ∀ a ∈ l, ∀ p ∈ classes, p a = false := by
  induction classes with
  | nil => simp [front]
  | cons p classes ih =>
    cases hany : l.any p with
    | true =>
      obtain ⟨a, ha, hp⟩ := any_eq_true.mp hany
      rw [front_cons_of_any hany]
      constructor
      · intro h
        exact absurd (mem_filter.mpr ⟨ha, hp⟩) (by rw [h]; exact not_mem_nil)
      · intro h
        exact absurd (h a ha p mem_cons_self) (by rw [hp]; decide)
    | false =>
      rw [front_cons_of_none hany, ih]
      have hp : ∀ a ∈ l, p a = false := by simpa using hany
      exact ⟨fun h a ha => forall_mem_cons.mpr ⟨hp a ha, h a ha⟩,
        fun h a ha => (forall_mem_cons.mp (h a ha)).2⟩

/-- Classes that leave nothing out keep a list from becoming empty. -/
theorem front_eq_nil_of_cover (hcover : ∀ a ∈ l, ∃ p ∈ classes, p a = true) :
    front classes l = [] ↔ l = [] := by
  rw [front_eq_nil_iff]
  constructor
  · intro h
    rw [eq_nil_iff_forall_not_mem]
    intro a ha
    obtain ⟨p, hp, hpa⟩ := hcover a ha
    exact absurd hpa (by rw [h a ha p hp]; decide)
  · rintro rfl
    exact fun a ha => absurd ha not_mem_nil

theorem front_perm {l' : List α} (h : l.Perm l') (classes : List (α → Bool)) :
    (front classes l).Perm (front classes l') := by
  induction classes with
  | nil => exact List.Perm.nil
  | cons p classes ih =>
    have hany : l.any p = l'.any p := h.any_eq
    cases hl : l.any p with
    | true =>
      rw [front_cons_of_any hl, front_cons_of_any (hany ▸ hl)]
      exact h.filter p
    | false =>
      rw [front_cons_of_none hl, front_cons_of_none (hany ▸ hl)]
      exact ih

/-- Put first, an element in front stays first. -/
theorem front_cons_self (h : a ∈ front classes (a :: l)) :
    ∃ rest, front classes (a :: l) = a :: rest := by
  induction classes with
  | nil => exact absurd h not_mem_nil
  | cons p classes ih =>
    cases hany : (a :: l).any p with
    | true =>
      rw [front_cons_of_any hany] at h ⊢
      exact ⟨_, filter_cons_of_pos (mem_filter.mp h).2⟩
    | false =>
      rw [front_cons_of_none hany] at h ⊢
      exact ih h

/-! ## Several chains, one after another -/

/-- Each chain of classes narrows what the one before it left. -/
def narrow : List (List (α → Bool)) → List α → List α
  | [], l => l
  | classes :: rest, l => narrow rest (front classes l)

theorem mem_of_mem_narrow {chains : List (List (α → Bool))} (h : a ∈ narrow chains l) : a ∈ l := by
  induction chains generalizing l with
  | nil => exact h
  | cons classes rest ih => exact (mem_of_mem_front (ih h)).1

/-- What is left does not depend on the order. -/
theorem narrow_perm {l' : List α} (h : l.Perm l') (chains : List (List (α → Bool))) :
    (narrow chains l).Perm (narrow chains l') := by
  induction chains generalizing l l' with
  | nil => exact h
  | cons classes rest ih => exact ih (front_perm h classes)

theorem narrow_cons_self {chains : List (List (α → Bool))} (h : a ∈ narrow chains (a :: l)) :
    (narrow chains (a :: l)).head? = some a := by
  induction chains generalizing l with
  | nil => rfl
  | cons classes rest ih =>
    obtain ⟨l', hl'⟩ := front_cons_self (mem_of_mem_narrow (l := front classes (a :: l)) h)
    rw [narrow, hl'] at h ⊢
    exact ih h

/-- What holds of the choice whatever the order of the list holds of everything that is left. -/
theorem forall_head_narrow_iff [DecidableEq α] {chains : List (List (α → Bool))} {P : α → Prop} :
    (∀ l', l'.Perm l → ∀ a, (narrow chains l').head? = some a → P a) ↔
      ∀ a ∈ narrow chains l, P a := by
  constructor
  · intro h a ha
    have hperm := perm_cons_erase (mem_of_mem_narrow ha)
    exact h _ hperm.symm a (narrow_cons_self ((narrow_perm hperm chains).mem_iff.mp ha))
  · intro h l' hperm a ha
    exact h a ((narrow_perm hperm chains).mem_iff.mp (mem_of_mem_head? ha))

end OlcVpn.Lib
