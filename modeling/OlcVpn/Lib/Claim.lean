/-
  GREEDY CLAIMING: each claimant takes the first thing of its pool that nobody has taken yet.

  A list of claimants is gone through in order.  `pass` lets every claimant that has nothing claim
  from its pool; running it again with wider pools is a second round for those that went away empty
  handed.  `assign` finally gives every claimant a key: the key of what it holds, or a fresh one.
-/
import Mathlib.Data.List.Forall2
import Mathlib.Data.List.Nodup
import Mathlib.Logic.Function.Iterate
import Mathlib.Tactic.Tauto

namespace OlcVpn.Claim

open List

section Held

variable {α β K : Type} (key : β → K)

/-- The keys that are held. -/
def heldKeys (pairs : List (α × Option β)) : List K :=
  pairs.filterMap fun pair => pair.2.map key

@[simp] theorem heldKeys_nil : heldKeys key ([] : List (α × Option β)) = [] := rfl

@[simp] theorem heldKeys_cons_none (a : α) (rest : List (α × Option β)) :
    heldKeys key ((a, none) :: rest) = heldKeys key rest := rfl

@[simp] theorem heldKeys_cons_some (a : α) (b : β) (rest : List (α × Option β)) :
    heldKeys key ((a, some b) :: rest) = key b :: heldKeys key rest := rfl

variable {key}

theorem mem_heldKeys {pairs : List (α × Option β)} {k : K} :
    k ∈ heldKeys key pairs ↔ ∃ a b, (a, some b) ∈ pairs ∧ key b = k := by
  simp only [heldKeys, mem_filterMap, Option.map_eq_some_iff, Prod.exists]
  constructor
  · rintro ⟨a, held, hmem, b, rfl, hk⟩
    exact ⟨a, b, hmem, hk⟩
  · rintro ⟨a, b, hmem, hk⟩
    exact ⟨a, some b, hmem, b, rfl, hk⟩

end Held

variable {α β K : Type} [DecidableEq K] (key : β → K)

/-- The first thing of the pool that is not taken. -/
def claim (taken : List K) (pool : List β) : Option β :=
  pool.find? fun b => key b ∉ taken

/-- One round: every claimant without a thing claims from its pool.  The second part is what is
    taken afterwards. -/
def pass (pool : α → List β) : List K → List (α × Option β) → List (α × Option β) × List K
  | taken, [] => ([], taken)
  | taken, (a, some b) :: rest =>
    ((a, some b) :: (pass pool taken rest).1, (pass pool taken rest).2)
  | taken, (a, none) :: rest =>
    match claim key taken (pool a) with
    | none => ((a, none) :: (pass pool taken rest).1, (pass pool taken rest).2)
    | some b =>
      ((a, some b) :: (pass pool (key b :: taken) rest).1, (pass pool (key b :: taken) rest).2)

/-- Every claimant gets a key: that of what it holds, or a fresh one.  The second part is what is in
    use afterwards; claimants are numbered from `i`. -/
def assign (fresh : Nat → α → List K → K) :
    List K → Nat → List (α × Option β) → List K × List K
  | used, _, [] => ([], used)
  | used, i, (_, some b) :: rest =>
    (key b :: (assign fresh used (i + 1) rest).1, (assign fresh used (i + 1) rest).2)
  | used, i, (a, none) :: rest =>
    (fresh i a used :: (assign fresh (fresh i a used :: used) (i + 1) rest).1,
      (assign fresh (fresh i a used :: used) (i + 1) rest).2)

variable {key}

variable {taken used ids used' : List K} {b : β} {i : Nat} {a : α} {fresh : Nat → α → List K → K}

theorem claim_eq_some {pool : List β} (h : claim key taken pool = some b) :
    b ∈ pool ∧ key b ∉ taken :=
  ⟨mem_of_find?_eq_some h, by simpa using find?_some h⟩

/-- What is handed out was held or was free, and what is taken afterwards is that and what was taken
    before. -/
structure Grows (held out taken taken' : List K) : Prop where
  origin : ∀ k ∈ out, k ∈ held ∨ k ∉ taken
  taken_iff : ∀ k, k ∈ taken' ↔ k ∈ taken ∨ k ∈ out
  nodup : out.Nodup

section Grows

variable {k : K} {held out taken' : List K}

omit [DecidableEq K]

theorem Grows.cons_held (h : Grows held out taken taken') (hk : k ∈ taken) (hnot : k ∉ held) :
    Grows (k :: held) (k :: out) taken taken' where
  origin := by
    simp only [mem_cons]
    rintro x (rfl | hx)
    · exact .inl (.inl rfl)
    · exact (h.origin x hx).imp_left .inr
  taken_iff x := by
    simp only [mem_cons, h.taken_iff]
    constructor
    · exact fun h => h.imp_right .inr
    · rintro (h | rfl | h)
      · exact .inl h
      · exact .inl hk
      · exact .inr h
  nodup := nodup_cons.mpr ⟨fun hmem => (h.origin k hmem).elim hnot (· hk), h.nodup⟩

theorem Grows.cons_new (h : Grows held out (k :: taken) taken') (hfree : k ∉ taken)
    (hsub : ∀ x ∈ held, x ∈ taken) : Grows held (k :: out) taken taken' where
  origin := by
    simp only [mem_cons]
    rintro x (rfl | hx)
    · exact .inr hfree
    · exact (h.origin x hx).imp_right fun h hmem => h (mem_cons_of_mem _ hmem)
  taken_iff x := by
    simp only [mem_cons, h.taken_iff]
    tauto
  nodup :=
    nodup_cons.mpr ⟨fun hmem => (h.origin k hmem).elim (hfree ∘ hsub k) (· mem_cons_self), h.nodup⟩

end Grows

/-! ## One round -/

/-- What a round does with the claimants `pairs` when `taken` is taken. -/
structure Pass (key : β → K) (pool : α → List β) (taken : List K) (pairs out : List (α × Option β))
    (taken' : List K) : Prop where
  /-- The claimants stay in order, and each keeps what it holds or claims from its own pool. -/
  each : List.Forall₂
    (fun before after => after.1 = before.1 ∧ (after = before ∨
      before.2 = none ∧ ∃ b ∈ pool after.1, after.2 = some b)) pairs out
  /-- What is held was held before or was free. -/
  origin : ∀ k ∈ heldKeys key out, k ∈ heldKeys key pairs ∨ k ∉ taken
  /-- What is taken was taken before or is held. -/
  taken_iff : ∀ k, k ∈ taken' ↔ k ∈ taken ∨ k ∈ heldKeys key out
  nodup : (heldKeys key out).Nodup

theorem pass_spec (pool : α → List β) {pairs : List (α × Option β)}
    (hsub : ∀ k ∈ heldKeys key pairs, k ∈ taken) (hnd : (heldKeys key pairs).Nodup) :
    Pass key pool taken pairs (pass key pool taken pairs).1 (pass key pool taken pairs).2 := by
  -- along the list: `taken` only grows, so a later claim cannot meet an earlier one
  fun_induction pass key pool taken pairs with
  | case1 taken => exact ⟨.nil, by simp, by simp, by simp⟩
  | case2 taken a b rest ih =>
    simp only [heldKeys_cons_some, mem_cons, forall_eq_or_imp, nodup_cons] at hsub hnd
    obtain ⟨heach, horigin, htaken, hnodup⟩ := ih hsub.2 hnd.2
    have h := Grows.cons_held ⟨horigin, htaken, hnodup⟩ hsub.1 hnd.1
    exact ⟨.cons ⟨rfl, .inl rfl⟩ heach, h.origin, h.taken_iff, h.nodup⟩
  | case3 taken a rest hclaim ih =>
    simp only [heldKeys_cons_none] at hsub hnd
    obtain ⟨heach, horigin, htaken, hnodup⟩ := ih hsub hnd
    exact ⟨.cons ⟨rfl, .inl rfl⟩ heach, horigin, htaken, hnodup⟩
  | case4 taken a rest b hclaim ih =>
    obtain ⟨hpool, hfree⟩ := claim_eq_some hclaim
    simp only [heldKeys_cons_none] at hsub hnd
    obtain ⟨heach, horigin, htaken, hnodup⟩ :=
      ih (fun k hk => mem_cons_of_mem _ (hsub k hk)) hnd
    have h := Grows.cons_new ⟨horigin, htaken, hnodup⟩ hfree hsub
    exact ⟨.cons ⟨rfl, .inr ⟨rfl, b, hpool, rfl⟩⟩ heach, h.origin, h.taken_iff, h.nodup⟩

section

variable {pool : α → List β} {taken taken' : List K} {pairs out : List (α × Option β)}

omit [DecidableEq K] in
theorem Pass.claimants (h : Pass key pool taken pairs out taken') :
    out.map Prod.fst = pairs.map Prod.fst := by
  have heach := h.each
  clear h
  induction heach with
  | nil => rfl
  | cons hstep _ ih => rw [map_cons, map_cons, hstep.1, ih]

omit [DecidableEq K] in
/-- What is held was held before, or comes from the claimant's own pool. -/
theorem Pass.held (h : Pass key pool taken pairs out taken') {a : α} {b : β}
    (hmem : (a, some b) ∈ out) : (a, some b) ∈ pairs ∨ b ∈ pool a := by
  have heach := h.each
  clear h
  induction heach with
  | nil => simp at hmem
  | @cons before after pairs out hstep _ ih =>
    rcases mem_cons.mp hmem with rfl | hmem
    · obtain ⟨-, rfl | ⟨-, b', hpool, hb⟩⟩ := hstep
      · exact .inl mem_cons_self
      · cases hb
        exact .inr hpool
    · exact (ih hmem).imp_left (mem_cons_of_mem _)

end

variable (pool : α → List β)

/-- A claimant keeps its place, and what it holds. -/
theorem pass_getElem?_held (taken : List K) {pairs : List (α × Option β)}
    (h : pairs[i]? = some (a, some b)) : (pass key pool taken pairs).1[i]? = some (a, some b) := by
  fun_induction pass key pool taken pairs generalizing i with
  | case1 taken => simp at h
  | case2 taken a' b' rest ih =>
    cases i with
    | zero => simpa using h
    | succ i => exact ih (by simpa using h)
  | case3 taken a' rest hclaim ih | case4 taken a' rest b' hclaim ih =>
    cases i with
    | zero => simp at h
    | succ i => exact ih (by simpa using h)

/-- A thing that is free and in the pool of one claimant only, and alone there, goes to it. -/
theorem pass_unique {pairs : List (α × Option β)}
    (hi : pairs[i]? = some (a, none)) (hpool : pool a = [b]) (hfree : key b ∉ taken)
    (hother : ∀ j a', j ≠ i → pairs[j]? = some (a', none) → ∀ c ∈ pool a', key c ≠ key b) :
    (pass key pool taken pairs).1[i]? = some (a, some b) := by
  -- along the list up to `i`: what the claimants before take is never `b`
  fun_induction pass key pool taken pairs generalizing i with
  | case1 taken => simp at hi
  | case2 taken a' b' rest ih =>
    cases i with
    | zero => simp at hi
    | succ i =>
      exact ih (by simpa using hi) hfree fun j a'' hj h =>
        hother (j + 1) a'' (by omega) (by simpa using h)
  | case3 taken a' rest hclaim ih =>
    cases i with
    | zero =>
      obtain rfl : a' = a := by simpa using hi
      rw [hpool] at hclaim
      simp [claim, hfree] at hclaim
    | succ i =>
      exact ih (by simpa using hi) hfree fun j a'' hj h =>
        hother (j + 1) a'' (by omega) (by simpa using h)
  | case4 taken a' rest b' hclaim ih =>
    obtain ⟨hmem, -⟩ := claim_eq_some hclaim
    cases i with
    | zero =>
      obtain rfl : a' = a := by simpa using hi
      obtain rfl : b' = b := by simpa [hpool] using hmem
      rfl
    | succ i =>
      have hne : key b' ≠ key b := hother 0 a' (by omega) rfl b' hmem
      refine ih (by simpa using hi) ?_ fun j a'' hj h =>
        hother (j + 1) a'' (by omega) (by simpa using h)
      simpa [hne.symm] using hfree

/-- Where every pool is empty a round changes nothing. -/
theorem pass_of_pools_empty (taken : List K) {pairs : List (α × Option β)}
    (h : ∀ pair ∈ pairs, pool pair.1 = []) : pass key pool taken pairs = (pairs, taken) := by
  fun_induction pass key pool taken pairs with
  | case1 taken => rfl
  | case2 taken a b rest ih => rw [ih fun pair hmem => h pair (mem_cons_of_mem _ hmem)]
  | case3 taken a rest hclaim ih => rw [ih fun pair hmem => h pair (mem_cons_of_mem _ hmem)]
  | case4 taken a rest b hclaim ih =>
    rw [h _ mem_cons_self] at hclaim
    cases hclaim

/-! ## Handing out keys -/

/-- What `assign` does with the claimants `pairs` when `used` is in use. -/
structure Assign (key : β → K) (fresh : Nat → α → List K → K) (used : List K)
    (pairs : List (α × Option β)) (ids used' : List K) : Prop where
  /-- Each key is that of what the claimant holds, or was made for it. -/
  each : List.Forall₂
    (fun pair id => pair.2.map key = some id ∨ pair.2 = none ∧ ∃ i u, id = fresh i pair.1 u)
    pairs ids
  origin : ∀ id ∈ ids, id ∈ heldKeys key pairs ∨ id ∉ used
  used_iff : ∀ id, id ∈ used' ↔ id ∈ used ∨ id ∈ ids
  nodup : ids.Nodup

omit [DecidableEq K] in
theorem assign_spec (hfresh : ∀ i a u, fresh i a u ∉ u) (i : Nat) {pairs : List (α × Option β)}
    (hsub : ∀ k ∈ heldKeys key pairs, k ∈ used) (hnd : (heldKeys key pairs).Nodup) :
    Assign key fresh used pairs (assign key fresh used i pairs).1
      (assign key fresh used i pairs).2 := by
  fun_induction assign key fresh used i pairs with
  | case1 used i => exact ⟨.nil, by simp, by simp, by simp⟩
  | case2 used i a b rest ih =>
    simp only [heldKeys_cons_some, mem_cons, forall_eq_or_imp, nodup_cons] at hsub hnd
    obtain ⟨heach, horigin, hused, hnodup⟩ := ih hsub.2 hnd.2
    have h := Grows.cons_held ⟨horigin, hused, hnodup⟩ hsub.1 hnd.1
    exact ⟨.cons (.inl rfl) heach, h.origin, h.taken_iff, h.nodup⟩
  | case3 used i a rest ih =>
    simp only [heldKeys_cons_none] at hsub hnd
    obtain ⟨heach, horigin, hused, hnodup⟩ :=
      ih (fun k hk => mem_cons_of_mem _ (hsub k hk)) hnd
    have h := Grows.cons_new ⟨horigin, hused, hnodup⟩ (hfresh i a used) hsub
    exact ⟨.cons (.inr ⟨rfl, i, used, rfl⟩) heach, h.origin, h.taken_iff, h.nodup⟩

omit [DecidableEq K] in
/-- A key is one that is held, or one that was made. -/
theorem Assign.held_or_fresh {pairs : List (α × Option β)}
    (h : Assign key fresh used pairs ids used') {id : K} (hid : id ∈ ids) :
    id ∈ heldKeys key pairs ∨ ∃ i a u, id = fresh i a u := by
  have heach := h.each
  clear h
  induction heach with
  | nil => simp at hid
  | @cons pair first pairs ids hfirst _ ih =>
    obtain ⟨a, held⟩ := pair
    rcases mem_cons.mp hid with rfl | hid
    · rcases hfirst with hheld | ⟨-, i, u, heq⟩
      · obtain ⟨b, rfl, rfl⟩ := Option.map_eq_some_iff.mp hheld
        exact .inl mem_cons_self
      · exact .inr ⟨i, a, u, heq⟩
    · refine (ih hid).imp_left fun hmem => ?_
      obtain ⟨a', b', hpair, hkey⟩ := mem_heldKeys.mp hmem
      exact mem_heldKeys.mpr ⟨a', b', mem_cons_of_mem _ hpair, hkey⟩

omit [DecidableEq K] in
/-- A claimant that holds something is given the key of it. -/
theorem Assign.getElem?_held {pairs : List (α × Option β)}
    (h : Assign key fresh used pairs ids used') (hi : pairs[i]? = some (a, some b)) :
    ids[i]? = some (key b) := by
  have heach := h.each
  clear h
  induction heach generalizing i with
  | nil => simp at hi
  | @cons pair first pairs ids hfirst _ ih =>
    cases i with
    | zero =>
      obtain rfl : pair = (a, some b) := by simpa using hi
      rcases hfirst with hheld | ⟨hnone, -⟩
      · simpa using hheld.symm
      · cases hnone
    | succ i => exact ih (by simpa using hi)

omit [DecidableEq K] in
/-- What is held is handed out. -/
theorem Assign.held_mem {pairs : List (α × Option β)} (h : Assign key fresh used pairs ids used')
    {id : K} (hid : id ∈ heldKeys key pairs) : id ∈ ids := by
  obtain ⟨a, b, hmem, rfl⟩ := mem_heldKeys.mp hid
  obtain ⟨i, hi⟩ := mem_iff_getElem?.mp hmem
  exact mem_iff_getElem?.mpr ⟨i, h.getElem?_held hi⟩

omit [DecidableEq K] in
/-- Claimants of one kind that hold nothing use up one fresh key after the other. -/
theorem assign_replicate {f : List K → K} (hf : ∀ i u, fresh i a u = f u) (used : List K)
    (i n : Nat) :
    (assign key fresh used i (List.replicate n (a, (none : Option β)))).2 =
      (fun u => f u :: u)^[n] used := by
  induction n generalizing used i with
  | zero => rfl
  | succ n ih =>
    rw [replicate_succ, Function.iterate_succ_apply, assign, ih, hf]

end OlcVpn.Claim
