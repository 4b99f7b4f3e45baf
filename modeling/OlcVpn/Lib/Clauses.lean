/-
  POSITIVE CLAUSES, and when some of them imply others.

  A clause is a list of alternatives: it holds if one of them does.  A rule that asks for several
  things at once is a list of clauses, all of which must hold.  Nothing is ever negated, and that
  makes implication simple: clauses imply another clause exactly if ONE of them is contained in it.
  The valuation that shows it makes everything true but the alternatives of that clause.
-/
import Mathlib.Data.List.Basic

namespace OlcVpn.Lib.Clauses

variable {A : Type*}

/-- One of the alternatives is true. -/
def Holds (v : A → Prop) (clause : List A) : Prop := ∃ a ∈ clause, v a

/-- All clauses hold. -/
def Sat (v : A → Prop) (clauses : List (List A)) : Prop := ∀ c ∈ clauses, Holds v c

instance (v : A → Prop) [DecidablePred v] (clause : List A) : Decidable (Holds v clause) :=
  inferInstanceAs (Decidable (∃ a ∈ clause, v a))

instance (v : A → Prop) [DecidablePred v] (clauses : List (List A)) : Decidable (Sat v clauses) :=
  inferInstanceAs (Decidable (∀ c ∈ clauses, Holds v c))

theorem Holds.mono {v : A → Prop} {c d : List A} (h : Holds v c) (hsub : c ⊆ d) : Holds v d := by
  obtain ⟨a, ha, hv⟩ := h
  exact ⟨a, hsub ha, hv⟩

/-- Clauses imply a clause exactly if one of them is part of it. -/
theorem implies_iff {clauses : List (List A)} {d : List A} :
    (∀ v, Sat v clauses → Holds v d) ↔ ∃ c ∈ clauses, c ⊆ d := by
  constructor
  · intro h
    by_contra hnone
    -- everything is true but the alternatives of `d`: every clause holds, and `d` does not
    obtain ⟨a, ha, hv⟩ := h (fun a => a ∉ d) fun c hc => by
      by_contra hfalse
      refine hnone ⟨c, hc, fun a ha => ?_⟩
      by_contra had
      exact hfalse ⟨a, ha, had⟩
    exact hv ha
  · rintro ⟨c, hc, hsub⟩ v hsat
    exact (hsat c hc).mono hsub

theorem entails_iff {clauses clauses' : List (List A)} :
    (∀ v, Sat v clauses → Sat v clauses') ↔ ∀ d ∈ clauses', ∃ c ∈ clauses, c ⊆ d := by
  constructor
  · exact fun h d hd => implies_iff.mp fun v hsat => h v hsat d hd
  · exact fun h v hsat d hd => implies_iff.mpr (h d hd) v hsat

end OlcVpn.Lib.Clauses
