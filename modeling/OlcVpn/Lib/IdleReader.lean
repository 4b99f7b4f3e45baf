/-
  A READER THAT GIVES UP AFTER A PAUSE.

  Items arrive in a queue.  A reader loops: it sets a deadline `idle` units ahead, waits, hands one
  item on, and starts over.  It ENDS in two ways: the deadline has passed and nothing is queued, or
  the item cannot be handed on.  An ended reader never comes back, while items go on arriving.

  How fast the reader is scheduled is left open: its own moves may come at any time later than what
  enables them.

  * `Tracks`: as long as every item arrives less than `idle` after the one before, no schedule can
    end the reader while an item is still to come (`Tracks.arrive`, `Tracks.move`), so that once it
    has come to rest everything was handed on (`Tracks.taken_eq`).
  * Conversely the PROMPT schedule, in which the reader moves at once, hands everything on only then
    (`brisk_of_promptRun`): it loses the first item that comes too late and everything after it.
-/
import Mathlib.Data.List.Basic

namespace OlcVpn.Lib

open List
open Option (some)

inductive Phase where
  /-- About to set the deadline. -/
  | starting
  | waiting (deadline : Nat)
  | ended
  deriving DecidableEq, Repr

structure Reader (α : Type*) where
  queue : List α := []
  taken : List α := []
  phase : Phase := .starting

/-- What the reader does on its own. -/
inductive Move where
  | arm | take | expire
  deriving DecidableEq, Repr

namespace Reader

variable {α : Type*}

def arrive (r : Reader α) (a : α) : Reader α := { r with queue := r.queue ++ [a] }

/-- One move of the reader, if it is enabled. -/
def move (idle : Nat) (fits : α → Bool) (now : Nat) (r : Reader α) : Move → Option (Reader α)
  | .arm =>
    match r.phase with
    | .starting => some { r with phase := .waiting (now + idle) }
    | _ => none
  | .take =>
    match r.phase, r.queue with
    | .waiting _, a :: rest =>
      if fits a then some ⟨rest, r.taken ++ [a], .starting⟩ else some ⟨rest, r.taken, .ended⟩
    | _, _ => none
  | .expire =>
    match r.phase, r.queue with
    | .waiting deadline, [] => if deadline ≤ now then some { r with phase := .ended } else none
    | _, _ => none

/-- The reader has come to rest: it will not take anything more. -/
def Settled (r : Reader α) : Prop := r.phase = .ended ∨ ∃ d, r.phase = .waiting d ∧ r.queue = []

/-- Every item arrives less than `idle` after the one before, and can be handed on. -/
def Brisk (idle : Nat) (fits : α → Bool) : Nat → List (Nat × α) → Prop
  | _, [] => True
  | last, (t, a) :: rest => t < last + idle ∧ fits a = true ∧ Brisk idle fits t rest

instance decidableBrisk (idle : Nat) (fits : α → Bool) :
    ∀ last arrivals, Decidable (Brisk idle fits last arrivals)
  | _, [] => isTrue trivial
  | last, (t, a) :: rest =>
    @instDecidableAnd _ _ (inferInstanceAs (Decidable (t < last + idle)))
      (@instDecidableAnd _ _ (inferInstanceAs (Decidable (fits a = true)))
        (decidableBrisk idle fits t rest))

section Moves

variable {idle : Nat} {fits : α → Bool} {now : Nat} {r r' : Reader α} {m : Move}

/-- Everything a move can do. -/
theorem move_cases (h : r.move idle fits now m = some r') :
    (m = .arm ∧ r.phase = .starting ∧ r' = { r with phase := .waiting (now + idle) }) ∨
    (m = .take ∧ ∃ d a rest, r.phase = .waiting d ∧ r.queue = a :: rest ∧
      ((fits a = true ∧ r' = ⟨rest, r.taken ++ [a], .starting⟩) ∨
        (fits a = false ∧ r' = ⟨rest, r.taken, .ended⟩))) ∨
    (m = .expire ∧ ∃ d, r.phase = .waiting d ∧ r.queue = [] ∧ d ≤ now ∧
      r' = { r with phase := .ended }) := by
  obtain ⟨queue, taken, phase⟩ := r
  cases m with
  | arm =>
    cases phase with
    | starting => exact .inl ⟨rfl, rfl, (some.inj h).symm⟩
    | waiting d | ended => cases h
  | take =>
    cases phase with
    | starting | ended => cases h
    | waiting d =>
      cases queue with
      | nil => cases h
      | cons a rest =>
        refine .inr (.inl ⟨rfl, d, a, rest, rfl, rfl, ?_⟩)
        simp only [move] at h
        split_ifs at h with hfits
        · exact .inl ⟨hfits, (some.inj h).symm⟩
        · exact .inr ⟨by simpa using hfits, (some.inj h).symm⟩
  | expire =>
    cases phase with
    | starting | ended => cases h
    | waiting d =>
      cases queue with
      | cons a rest => cases h
      | nil =>
        simp only [move] at h
        split_ifs at h with hd
        exact .inr (.inr ⟨rfl, d, rfl, rfl, hd, (some.inj h).symm⟩)

end Moves

/-! ## No schedule loses anything while the items come briskly -/

/-- A reader whose items came briskly: the last one, or the start, was at `last`; it is `now`. -/
structure Tracks (idle last now : Nat) (arrived : List α) (r : Reader α) : Prop where
  all : r.taken ++ r.queue = arrived
  past : last ≤ now
  -- a deadline that can still pass lies far enough behind the last item
  waiting : ∀ d, r.phase = .waiting d → r.queue = [] → last + idle ≤ d
  ended : r.phase = .ended → r.queue = [] ∧ last + idle ≤ now

namespace Tracks

variable {idle last now t : Nat} {fits : α → Bool} {arrived : List α} {r r' : Reader α} {m : Move}

theorem start (idle now : Nat) : Tracks idle now now [] ({} : Reader α) where
  all := rfl
  past := Nat.le_refl _
  waiting d h := by cases h
  ended h := by cases h

theorem arrive (h : Tracks idle last now arrived r) (hnow : now ≤ t)
    (hbrisk : t < last + idle) (a : α) :
    Tracks idle t t (arrived ++ [a]) (r.arrive a) where
  all := by rw [Reader.arrive, ← append_assoc, h.all]
  past := Nat.le_refl _
  waiting d _ hqueue := by simp [Reader.arrive] at hqueue
  ended hended := by
    -- it could only have ended `idle` after the last item
    have hlate := (h.ended hended).2
    omega

theorem move (h : Tracks idle last now arrived r) (hnow : now ≤ t)
    (hfits : ∀ a ∈ arrived, fits a = true) (hmove : r.move idle fits t m = some r') :
    Tracks idle last t arrived r' := by
  have hpast := h.past
  obtain ⟨-, -, rfl⟩ | ⟨-, d, a, rest, hphase, hqueue, hcases⟩ | ⟨-, d, hphase, hqueue, hd, rfl⟩ :=
    move_cases hmove
  · exact
      { all := h.all
        past := by omega
        waiting := by
          rintro d ⟨⟩ -
          omega
        ended := by rintro ⟨⟩ }
  · have hsplit : r.taken ++ a :: rest = arrived := hqueue ▸ h.all
    have hfit : fits a = true := hfits a (hsplit ▸ by simp)
    obtain ⟨-, rfl⟩ | ⟨hno, -⟩ := hcases
    · exact
        { all := by simpa using hsplit
          past := by omega
          waiting := by rintro d ⟨⟩
          ended := by rintro ⟨⟩ }
    · rw [hfit] at hno
      cases hno
  · have hlate := h.waiting d hphase hqueue
    exact
      { all := h.all
        past := by omega
        waiting := by rintro d ⟨⟩
        ended := fun _ => ⟨hqueue, by omega⟩ }

/-- At rest, everything was handed on. -/
theorem taken_eq (h : Tracks idle last now arrived r) (hsettled : r.Settled) :
    r.taken = arrived := by
  have hqueue : r.queue = [] := by
    obtain hended | ⟨d, -, hqueue⟩ := hsettled
    · exact (h.ended hended).1
    · exact hqueue
  rw [← h.all, hqueue, append_nil]

end Tracks

/-! ## The prompt schedule -/

section Prompt

variable (idle : Nat) (fits : α → Bool) (now : Nat)

/-- Several moves at one time. -/
def moves : Reader α → List Move → Option (Reader α)
  | r, [] => some r
  | r, m :: ms => (r.move idle fits now m).bind fun r' => moves r' ms

/-- What an item finds and leaves behind when the reader moves at once. -/
def promptly (r : Reader α) (a : α) : Reader α :=
  match r.phase, r.queue with
  | .waiting deadline, [] =>
    if deadline ≤ now then ⟨[a], r.taken, .ended⟩
    else if fits a then ⟨[], r.taken ++ [a], .waiting (now + idle)⟩
    else ⟨[], r.taken, .ended⟩
  | _, _ => r.arrive a

/-- It is one of the schedules: moves of the reader before the item and after it. -/
theorem exists_moves_promptly {r : Reader α} (h : r.Settled) (a : α) :
    ∃ before after r', r.moves idle fits now before = some r' ∧
      (r'.arrive a).moves idle fits now after = some (r.promptly idle fits now a) := by
  obtain ⟨queue, taken, phase⟩ := r
  obtain hended | ⟨d, hphase, hqueue⟩ := h
  · obtain rfl : phase = .ended := hended
    exact ⟨[], [], _, rfl, rfl⟩
  · obtain rfl : phase = .waiting d := hphase
    obtain rfl : queue = [] := hqueue
    by_cases hlate : d ≤ now
    · exact ⟨[.expire], [], ⟨[], taken, .ended⟩, by simp [moves, move, hlate],
        by simp [moves, arrive, promptly, hlate]⟩
    · cases hfits : fits a with
      | true => exact ⟨[], [.take, .arm], _, rfl,
          by simp [moves, move, arrive, promptly, hlate, hfits]⟩
      | false => exact ⟨[], [.take], _, rfl, by simp [moves, move, arrive, promptly, hlate, hfits]⟩

theorem settled_promptly {r : Reader α} (h : r.Settled) (a : α) :
    (r.promptly idle fits now a).Settled := by
  obtain hended | ⟨d, hphase, hqueue⟩ := h
  · exact .inl (by simp [promptly, hended, arrive])
  · simp only [promptly, hphase, hqueue]
    split_ifs
    · exact .inl rfl
    · exact .inr ⟨_, rfl, rfl⟩
    · exact .inl rfl

end Prompt

section PromptRun

variable (idle : Nat) (fits : α → Bool)

/-- All items of a stream, each at its time. -/
def promptRun (r : Reader α) (arrivals : List (Nat × α)) : Reader α :=
  arrivals.foldl (fun r x => r.promptly idle fits x.1 x.2) r

theorem promptRun_cons (r : Reader α) (x : Nat × α) (rest : List (Nat × α)) :
    r.promptRun idle fits (x :: rest) = (r.promptly idle fits x.1 x.2).promptRun idle fits rest :=
  rfl

theorem promptRun_append (r : Reader α) (first rest : List (Nat × α)) :
    r.promptRun idle fits (first ++ rest) =
      (r.promptRun idle fits first).promptRun idle fits rest :=
  foldl_append

/-- Nothing is handed on any more. -/
theorem taken_promptRun_of_ended (arrivals : List (Nat × α)) {r : Reader α} (h : r.phase = .ended) :
    (r.promptRun idle fits arrivals).taken = r.taken := by
  induction arrivals generalizing r with
  | nil => rfl
  | cons x rest ih =>
    have hnext : r.promptly idle fits x.1 x.2 = r.arrive x.2 := by simp [promptly, h]
    rw [promptRun_cons, hnext]
    exact ih h

/-- If the prompt schedule hands everything on, the items came briskly. -/
theorem brisk_of_promptRun (arrivals : List (Nat × α)) (last : Nat) (taken : List α)
    (h : ((⟨[], taken, .waiting (last + idle)⟩ : Reader α).promptRun idle fits
      arrivals).taken.length =
      taken.length + arrivals.length) : Brisk idle fits last arrivals := by
  induction arrivals generalizing last taken with
  | nil => trivial
  | cons x rest ih =>
    obtain ⟨t, a⟩ := x
    rw [promptRun_cons, length_cons] at h
    -- a reader that has ended falls behind
    have hlost : ∀ queue, ((⟨queue, taken, .ended⟩ :
        Reader α).promptRun idle fits rest).taken.length ≠
        taken.length + (rest.length + 1) := by
      intro queue hlen
      rw [taken_promptRun_of_ended idle fits rest rfl] at hlen
      simp only at hlen
      omega
    by_cases hlate : last + idle ≤ t
    · have hstep : promptly idle fits t ⟨[], taken, .waiting (last + idle)⟩ a =
          ⟨[a], taken, .ended⟩ := by
        simp [promptly, hlate]
      rw [hstep] at h
      exact absurd h (hlost _)
    · cases hfits : fits a with
      | false =>
        have hstep : promptly idle fits t ⟨[], taken, .waiting (last + idle)⟩ a =
            ⟨[], taken, .ended⟩ := by simp [promptly, hlate, hfits]
        rw [hstep] at h
        exact absurd h (hlost _)
      | true =>
        have hstep : promptly idle fits t ⟨[], taken, .waiting (last + idle)⟩ a =
            ⟨[], taken ++ [a], .waiting (t + idle)⟩ := by simp [promptly, hlate, hfits]
        rw [hstep] at h
        refine ⟨by omega, hfits, ih t (taken ++ [a]) ?_⟩
        rw [h, length_append, length_singleton]
        omega

end PromptRun

end Reader

end OlcVpn.Lib
