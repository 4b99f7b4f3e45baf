/-
  FOLLOWING POINTERS to their end.

  A partial function `next` says where each node points; a node without a pointer is an end.
  `Ends next a e` says that following the pointers from `a` arrives at the end `e`.  There need not
  be one (the pointers may run in a circle), but there is never more than one.
-/
import Mathlib.Logic.Basic

namespace OlcVpn.Lib

variable {α : Type} {next : α → Option α} {a b e : α}

/-- Following `next` from the first node ends at the second. -/
inductive Ends (next : α → Option α) : α → α → Prop
  | stop {a : α} (h : next a = none) : Ends next a a
  | hop {a b e : α} (h : next a = some b) (rest : Ends next b e) : Ends next a e

/-- There is one end at most. -/
theorem Ends.unique {e' : α} (h : Ends next a e) (h' : Ends next a e') : e = e' := by
  induction h with
  | stop hnone =>
    cases h' with
    | stop => rfl
    | hop hsome => simp [hnone] at hsome
  | hop hsome rest ih =>
    cases h' with
    | stop hnone => simp [hsome] at hnone
    | hop hsome' rest' =>
      obtain rfl := Option.some.inj (hsome.symm.trans hsome')
      exact ih rest'

end OlcVpn.Lib
