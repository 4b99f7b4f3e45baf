/-
  FIRST-MATCH EVALUATION of a list of rules.

  A rule list decides by its first rule that matches; where none does, a default stands.  This file
  is about such lists in general: rules are any type `ρ`, `m` tells which of them match, `v` is what
  a rule decides.

  ** What is here **
    • `firstMatch` and how it meets `++` and `flatMap`.  A GROUP of rules that all decide the same
      acts like one rule that matches where any of them does (`firstMatch_flatMap`);
    • `firstMatch_eq_iff_first`: two tests decide alike exactly if the first rule they disagree
      about makes no difference;
    • `find?_flatMap`: in a list of groups, the group where the match is found.
-/
import Mathlib.Data.List.Basic

namespace OlcVpn.Lib

open List

section FirstMatch

variable {ρ ν : Type} {m m' : ρ → Bool} {v : ρ → ν} {default : ν}

/-- What the first matching rule decides. -/
def firstMatch (m : ρ → Bool) (v : ρ → ν) (default : ν) (rules : List ρ) : ν :=
  ((rules.find? m).map v).getD default

@[simp] theorem firstMatch_nil : firstMatch m v default [] = default := rfl

theorem firstMatch_cons (r : ρ) (rules : List ρ) :
    firstMatch m v default (r :: rules) = if m r then v r else firstMatch m v default rules := by
  cases h : m r <;> simp [firstMatch, h]

/-- Later rules are the default of earlier ones. -/
theorem firstMatch_append (first rest : List ρ) :
    firstMatch m v default (first ++ rest) =
      firstMatch m v (firstMatch m v default rest) first := by
  induction first with
  | nil => rfl
  | cons r first ih => rw [cons_append, firstMatch_cons, firstMatch_cons, ih]

theorem firstMatch_congr {rules : List ρ} (h : ∀ r ∈ rules, m r = m' r) :
    firstMatch m v default rules = firstMatch m' v default rules := by
  induction rules with
  | nil => rfl
  | cons r rules ih =>
    rw [firstMatch_cons, firstMatch_cons, h r mem_cons_self,
      ih fun s hs => h s (mem_cons_of_mem _ hs)]

/-- Two tests decide alike exactly if, at the first rule that only one of them matches, the rest
    decides for the other test what the rule decides. -/
theorem firstMatch_eq_iff_first {rules : List ρ} :
    firstMatch m v default rules = firstMatch m' v default rules ↔
      ∀ before r after, rules = before ++ r :: after → (∀ s ∈ before, m s = false ∧ m' s = false) →
        (m r = true → m' r = false → v r = firstMatch m' v default after) ∧
        (m r = false → m' r = true → firstMatch m v default after = v r) := by
  induction rules with
  | nil => simp
  | cons s rules ih =>
    constructor
    · intro h before r after hsplit hbefore
      cases before with
      | nil =>
        obtain ⟨rfl, rfl⟩ := cons.inj hsplit
        rw [firstMatch_cons, firstMatch_cons] at h
        constructor <;> intro hm hm' <;> simpa [hm, hm'] using h
      | cons t before =>
        obtain ⟨rfl, hrest⟩ := cons.inj hsplit
        obtain ⟨hm, hm'⟩ := hbefore s mem_cons_self
        rw [firstMatch_cons, firstMatch_cons, hm, hm'] at h
        exact ih.mp (by simpa using h) before r after hrest
          fun t ht => hbefore t (mem_cons_of_mem _ ht)
    · intro h
      obtain ⟨hfirst, hsecond⟩ := h [] s rules rfl (by simp)
      rw [firstMatch_cons, firstMatch_cons]
      cases hm : m s <;> cases hm' : m' s
      · simp only [Bool.false_eq_true, if_false]
        exact ih.mpr fun before r after hrest hbefore =>
          h (s :: before) r after (by rw [hrest, cons_append])
            (forall_mem_cons.mpr ⟨⟨hm, hm'⟩, hbefore⟩)
      · simpa using hsecond hm hm'
      · simpa using hfirst hm hm'
      · simp

/-- Rules that all decide the same. -/
theorem firstMatch_group {rules : List ρ} {decision : ν} (h : ∀ r ∈ rules, v r = decision) :
    firstMatch m v default rules = if rules.any m then decision else default := by
  induction rules with
  | nil => rfl
  | cons r rules ih =>
    rw [firstMatch_cons, ih fun s hs => h s (mem_cons_of_mem _ hs), any_cons]
    cases m r
    · simp
    · simp [h r mem_cons_self]

/-- A list of groups acts like the list of its groups. -/
theorem firstMatch_flatMap {γ : Type} {groups : List γ} {rulesOf : γ → List ρ} {decision : γ → ν}
    (h : ∀ g ∈ groups, ∀ r ∈ rulesOf g, v r = decision g) : firstMatch m v default
      (groups.flatMap rulesOf) =
      firstMatch (fun g => (rulesOf g).any m) decision default groups := by
  induction groups with
  | nil => rfl
  | cons g groups ih =>
    rw [flatMap_cons, firstMatch_append, firstMatch_cons,
      ih fun g' hg' => h g' (mem_cons_of_mem _ hg'),
      firstMatch_group (h g mem_cons_self)]

/-! ## Where a match is found -/

/-- The rule that is found in a list of groups is found in one of them, and no group before it has a
    rule that fits. -/
theorem find?_flatMap {α β : Type} {f : α → List β} {p : β → Bool} {groups : List α} {b : β}
    (h : (groups.flatMap f).find? p = some b) :
    ∃ before g after, groups = before ++ g :: after ∧ (∀ x ∈ before, ∀ y ∈ f x, p y = false) ∧
      (f g).find? p = some b := by
  induction groups with
  | nil => cases h
  | cons g groups ih =>
    rw [flatMap_cons, find?_append] at h
    cases hfirst : (f g).find? p with
    | some b' =>
      rw [hfirst, Option.some_or] at h
      exact ⟨[], g, groups, rfl, by simp, h ▸ hfirst⟩
    | none =>
      rw [hfirst, Option.none_or] at h
      obtain ⟨before, g', after, rfl, hbefore, hfound⟩ := ih h
      refine ⟨g :: before, g', after, rfl, forall_mem_cons.mpr ⟨fun y hy => ?_, hbefore⟩, hfound⟩
      simpa using find?_eq_none.mp hfirst y hy

theorem find?_flatMap_of_first {α β : Type} {f : α → List β} {p : β → Bool}
    {before after : List α} {g : α}
    {b : β} (hbefore : ∀ x ∈ before, ∀ y ∈ f x, p y = false) (hfound : (f g).find? p = some b) :
    ((before ++ g :: after).flatMap f).find? p = some b := by
  have hnone : (before.flatMap f).find? p = none := by
    rw [find?_eq_none]
    intro y hy
    obtain ⟨x, hx, hy⟩ := mem_flatMap.mp hy
    simp [hbefore x hx y hy]
  rw [flatMap_append, flatMap_cons, find?_append, hnone, Option.none_or, find?_append, hfound,
    Option.some_or]

end FirstMatch

end OlcVpn.Lib
