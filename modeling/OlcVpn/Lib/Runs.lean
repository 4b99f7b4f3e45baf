/-
  **Runs of a step function** — the one induction every state machine of this development needs.

  A system is a total `step : S → E → S`; the nondeterminism of the real thing (which goroutine
  goes next, what a socket answers) lives in the EVENT, so a schedule is a `List E` and a run is a
  left fold.  A statement "in every reachable state" is then a statement about `run step s es` for
  ALL `es`, and it is proved in two pieces:

  * a STEP lemma, `I s → I (step s e)`, which is where the code is looked at;
  * a RUN lemma, which is `run_inv` below and never looks at the code.

  `run_inv_along` is the rule for runs restricted by a side condition on each step (`Along`: the
  condition is evaluated in the state BEFORE the step, so it may speak about what the step is about
  to do).  Where a property is lost for good by the first step that breaks the condition, the
  condition is also necessary (`run_iff_along`).
-/
import Mathlib.Data.List.Basic

namespace OlcVpn.Runs

variable {S E : Type*} {step : S → E → S}

/-- The state reached from `s` by the schedule `es`. -/
def run (step : S → E → S) (s : S) (es : List E) : S := es.foldl step s

@[simp] theorem run_nil (s : S) : run step s [] = s := rfl

@[simp] theorem run_cons (s : S) (e : E) (es : List E) :
    run step s (e :: es) = run step (step s e) es := rfl

theorem run_append (s : S) (es fs : List E) : run step s (es ++ fs) = run step (run step s es) fs :=
  List.foldl_append

/-- `Along step P s es`: every step of the schedule meets `P`, each in the state it is taken in. -/
def Along (step : S → E → S) (P : S → E → Prop) : S → List E → Prop
  | _, [] => True
  | s, e :: es => P s e ∧ Along step P (step s e) es

/-- A side condition that can be tested can be tested along a schedule. -/
instance decidableAlong {P : S → E → Prop} [∀ s e, Decidable (P s e)] :
    ∀ s es, Decidable (Along step P s es)
  | _, [] => isTrue trivial
  | s, e :: es => @instDecidableAnd _ _ inferInstance (decidableAlong (step s e) es)

/-- **The run rule under a side condition.**  Induction on the schedule, the state generalised. -/
theorem run_inv_along {I : S → Prop} {P : S → E → Prop}
    (hstep : ∀ s e, I s → P s e → I (step s e)) :
    ∀ (es : List E) (s : S), I s → Along step P s es → I (run step s es) := by
  intro es
  induction es with
  | nil => intro s hs _; exact hs
  | cons e es ih =>
    intro s hs halong
    obtain ⟨hP, hrest⟩ := halong
    exact ih (step s e) (hstep s e hs hP) hrest

/-- **The run rule**: what every step keeps, every run keeps. -/
theorem run_inv {I : S → Prop} (hstep : ∀ s e, I s → I (step s e))
    (es : List E) (s : S) (hs : I s) : I (run step s es) := by
  induction es generalizing s with
  | nil => exact hs
  | cons e es ih => exact ih (step s e) (hstep s e hs)

/-- **A property of every moment of a run.**  If `I` carries `C`, a step under `P` keeps `I`, and a
    step that breaks `P` is followed by a state without `C`, then `C` holds after every prefix of a
    schedule exactly along `P`. -/
theorem forall_moment_iff_along {I C : S → Prop} {P : S → E → Prop} (hC : ∀ s, I s → C s) :
    ∀ (es : List E) (s : S), (∀ s, ∀ e ∈ es, I s → P s e → I (step s e)) →
      (∀ s, ∀ e ∈ es, C (step s e) → P s e) → I s →
      ((∀ before, before <+: es → C (run step s before)) ↔ Along step P s es) := by
  intro es
  induction es with
  | nil =>
    intro s _ _ hs
    refine iff_of_true (fun before hbefore => ?_) trivial
    obtain rfl := List.prefix_nil.mp hbefore
    exact hC s hs
  | cons e es ih =>
    intro s hkeep hlost hs
    have ihe := ih (step s e) (fun s f hf => hkeep s f (List.mem_cons_of_mem _ hf))
      fun s f hf => hlost s f (List.mem_cons_of_mem _ hf)
    constructor
    · intro h
      have hP := hlost s e List.mem_cons_self (h [e] (by simp))
      refine ⟨hP, (ihe (hkeep s e List.mem_cons_self hs hP)).mp fun before hbefore => ?_⟩
      exact h (e :: before) (by simpa using hbefore)
    · rintro ⟨hP, hrest⟩ before hbefore
      obtain rfl | ⟨more, rfl, hmore⟩ := List.prefix_cons_iff.mp hbefore
      · exact hC s hs
      · exact (ihe (hkeep s e List.mem_cons_self hs hP)).mpr hrest more hmore

/-- Two side conditions hold along the same schedules if they agree in the states of `J`, which the
    steps that meet one of them do not leave. -/
theorem along_congr {J : S → Prop} {P Q : S → E → Prop} (hJ : ∀ s e, J s → P s e → J (step s e))
    (hPQ : ∀ s e, J s → (P s e ↔ Q s e)) :
    ∀ (es : List E) (s : S), J s → (Along step P s es ↔ Along step Q s es) := by
  intro es
  induction es with
  | nil => intro s _; exact Iff.rfl
  | cons e es ih =>
    intro s hs
    rw [Along, Along, hPQ s e hs]
    exact and_congr_right fun hQ => ih _ (hJ s e hs ((hPQ s e hs).mpr hQ))

/-- What a history holds at a position it still holds when it has grown. -/
theorem getElem?_append_of_some {hist : List S} {i : Nat} {x : S} (h : hist[i]? = some x)
    (more : List S) :
    (hist ++ more)[i]? = some x := by
  obtain ⟨hlt, -⟩ := List.getElem?_eq_some_iff.mp h
  rw [List.getElem?_append_left hlt]
  exact h

end OlcVpn.Runs
