/-
  **In-order reassembly of a numbered stream** — the loop both ends of a bond share, over an
  arbitrary key type.

  A sender cuts a stream into chunks and numbers them `num 0, num 1, num 2, …`.  The receiver parks
  whatever arrives in a map keyed by number, remembers the number it `expect`s next, and after every
  arrival writes out the run of chunks that has become contiguous (`drain`).  Numbers are MACHINE
  words, so the numbering is a structure of its own: `num` may wrap, and `span` says how far it is
  injective.

  Against a fixed source `src` (the chunks in order) the receiver's state is described by
  `AsmOk src e`: it has written exactly the first `e` chunks, expects number `e`, and every parked
  entry is a genuine chunk of the source under its own number.  Nothing is said about parked entries
  BELOW `e`: a chunk that was sent twice is parked a second time after it was written and stays
  there for good, and the argument must survive that.

  * `AsmOk.park`, `AsmOk.mono`      — what an arrival, and what a growing source, keep;
  * `drain_cases`             — one `drain` either ends in `AsmOk` again, with every chunk that had
                                arrived still written or parked (`HasChunk`), or stops inside a
                                chunk whose write failed, with a prefix of the source written;
  * `drain_settled`           — with enough fuel the expected number is not parked any more.
-/
import Mathlib.Data.List.AList
import Mathlib.Tactic
import OlcVpn.Lib.Runs

namespace OlcVpn.Reassembly

open Runs List

variable {K : Type} [DecidableEq K] {α : Type}

/-- How chunk indices become keys: `num` steps by `succ` and is injective below `span`. -/
structure ChunkNumbering (K : Type) where
  num : Nat → K
  succ : K → K
  span : Nat
  num_succ : ∀ i, num (i + 1) = succ (num i)
  num_inj : ∀ {i j}, i < span → j < span → num i = num j → i = j

/-- The receiver: parked chunks, the number expected next, what has been written, and whether a
    write has failed (the loop is then over). -/
structure Asm (K α : Type) where
  pending : AList (fun _ : K => List α)
  expect : K
  out : List α
  failed : Bool

/-- The chunk `d` at the expected number has been taken out and written. -/
def Asm.wrote (succ : K → K) (d : List α) (s : Asm K α) : Asm K α :=
  { s with pending := s.pending.erase s.expect, out := s.out ++ d, expect := succ s.expect }

/-- Write out the contiguous run.  `fail k = some n` says that writing chunk `k` errors after `n`
    elements of it went out; an empty chunk is not written at all, so it cannot fail. -/
def drain (succ : K → K) (fail : K → Option Nat) : Nat → Asm K α → Asm K α
  | 0, s => s
  | fuel + 1, s =>
    match s.pending.lookup s.expect with
    | none => s
    | some d =>
      match d, fail s.expect with
      | _ :: _, some n =>
        { s with pending := s.pending.erase s.expect, out := s.out ++ d.take n, failed := true }
      | _, _ => drain succ fail fuel (s.wrote succ d)

/-- `s` has written the first `e` chunks of `src` and everything parked belongs to `src`. -/
structure AsmOk (N : ChunkNumbering K) (src : List (List α)) (e : Nat) (s : Asm K α) : Prop where
  expect_eq : s.expect = N.num e
  le_length : e ≤ src.length
  out_eq : s.out = (src.take e).flatten
  parked : ∀ k d, s.pending.lookup k = some d → ∃ i, k = N.num i ∧ src[i]? = some d

/-- Chunk `i` has arrived: it is behind the write position or parked. -/
def HasChunk (N : ChunkNumbering K) (s : Asm K α) (e i : Nat) : Prop :=
  i < e ∨ N.num i ∈ s.pending

variable {N : ChunkNumbering K} {src : List (List α)} {e : Nat} {s : Asm K α}

/-! ## Arrivals and a growing source -/

variable {i : Nat} {d : List α}

theorem AsmOk.park (h : AsmOk N src e s) (hi : src[i]? = some d) :
    AsmOk N src e { s with pending := s.pending.insert (N.num i) d } := by
  refine ⟨h.expect_eq, h.le_length, h.out_eq, ?_⟩
  intro k d' hk
  by_cases hki : k = N.num i
  · subst hki
    rw [AList.lookup_insert] at hk
    obtain rfl : d = d' := Option.some.inj hk
    exact ⟨i, rfl, hi⟩
  · rw [AList.lookup_insert_ne hki] at hk
    exact h.parked k d' hk

/-- Cutting further chunks off the source changes nothing that was written or parked. -/
theorem AsmOk.mono (h : AsmOk N src e s) (more : List (List α)) : AsmOk N (src ++ more) e s := by
  refine ⟨h.expect_eq, ?_, ?_, ?_⟩
  · have := h.le_length
    rw [length_append]; omega
  · rw [h.out_eq, take_append_of_le_length h.le_length]
  · intro k d hk
    obtain ⟨i, hki, hi⟩ := h.parked k d hk
    exact ⟨i, hki, getElem?_append_of_some hi more⟩

/-- What has been written is an initial part of the source. -/
theorem AsmOk.out_prefix (h : AsmOk N src e s) : s.out <+: src.flatten := by
  rw [h.out_eq]
  refine ⟨(src.drop e).flatten, ?_⟩
  rw [← flatten_append, take_append_drop]

/-! ## One turn of the loop -/

/-- The parked chunk at the expected number IS chunk `e` of the source — this is the only place
    where the width of the sequence number matters. -/
theorem AsmOk.lookup_expect (h : AsmOk N src e s) (hspan : src.length < N.span)
    (hd : s.pending.lookup s.expect = some d) : src[e]? = some d := by
  obtain ⟨i, hki, hi⟩ := h.parked _ d hd
  obtain ⟨hlt, -⟩ := List.getElem?_eq_some_iff.mp hi
  have hle := h.le_length
  have hie : e = i := N.num_inj (by omega) (by omega) (h.expect_eq.symm.trans hki)
  rw [hie]; exact hi

theorem take_succ_flatten (hd : src[e]? = some d) :
    (src.take (e + 1)).flatten = (src.take e).flatten ++ d := by
  rw [take_add_one, hd, flatten_append]
  simp

/-- Writing chunk `e` moves the position to `e + 1`. -/
theorem AsmOk.write (h : AsmOk N src e s) (hspan : src.length < N.span)
    (hd : s.pending.lookup s.expect = some d) : AsmOk N src (e + 1) (s.wrote N.succ d) := by
  have hsrc := h.lookup_expect hspan hd
  obtain ⟨hlt, -⟩ := List.getElem?_eq_some_iff.mp hsrc
  refine ⟨?_, hlt, ?_, ?_⟩
  · show N.succ s.expect = N.num (e + 1)
    rw [h.expect_eq, N.num_succ]
  · show s.out ++ d = (src.take (e + 1)).flatten
    rw [take_succ_flatten hsrc, h.out_eq]
  · intro k d' hk
    have hk' : (s.pending.erase s.expect).lookup k = some d' := hk
    by_cases hke : k = s.expect
    · subst hke
      rw [AList.lookup_erase] at hk'
      exact absurd hk' (by simp)
    · rw [AList.lookup_erase_ne hke] at hk'
      exact h.parked k d' hk'

/-- A write that fails inside chunk `e` leaves a prefix of the source behind. -/
theorem AsmOk.partial_prefix (h : AsmOk N src e s) (hspan : src.length < N.span)
    (hd : s.pending.lookup s.expect = some d) (n : Nat) : s.out ++ d.take n <+: src.flatten := by
  have hsrc := h.lookup_expect hspan hd
  have hwhole : (src.take (e + 1)).flatten <+: src.flatten := by
    refine ⟨(src.drop (e + 1)).flatten, ?_⟩
    rw [← flatten_append, take_append_drop]
  refine List.IsPrefix.trans ?_ hwhole
  rw [take_succ_flatten hsrc, ← h.out_eq]
  exact prefix_append_right_inj _ |>.mpr (List.take_prefix n d)

/-- Taking chunk `e` out of the map forgets no arrival: it is now behind the write position. -/
theorem AsmOk.has_write (h : AsmOk N src e s) (hspan : src.length < N.span) (d : List α)
    (hilt : i < src.length) (hi : HasChunk N s e i) : HasChunk N (s.wrote N.succ d) (e + 1) i := by
  rcases hi with hi | hi
  · exact Or.inl (by omega)
  · by_cases hie : i = e
    · exact Or.inl (by omega)
    · refine Or.inr (AList.mem_erase.mpr ⟨?_, hi⟩)
      intro heq
      have hle := h.le_length
      rw [h.expect_eq] at heq
      exact hie (N.num_inj (by omega) (by omega) heq)

/-! ## The whole loop -/

/-- What a drain that started at position `e` may leave behind: a good state further on in which
    nothing that had arrived is missing, or a failed write with a prefix of the source out. -/
def Drained (N : ChunkNumbering K) (src : List (List α)) (e : Nat) (s t : Asm K α) : Prop :=
  (∃ e', AsmOk N src e' t ∧ t.failed = false ∧ ∀ i, i < src.length → HasChunk N s e i →
    HasChunk N t e' i) ∨
    (t.failed = true ∧ t.out <+: src.flatten)

variable (succ : K → K) (fail : K → Option Nat)

/-- **`drain` is sound.**  Induction on the fuel, the state generalised. -/
theorem drain_cases (hspan : src.length < N.span) :
    ∀ (fuel e : Nat) (s : Asm K α), AsmOk N src e s → s.failed = false →
      Drained N src e s (drain N.succ fail fuel s) := by
  intro fuel
  induction fuel with
  | zero => intro e s h hf; exact Or.inl ⟨e, h, hf, fun _ _ hi => hi⟩
  | succ fuel ih =>
    intro e s h hf
    rw [drain]
    cases hd : s.pending.lookup s.expect with
    | none => exact Or.inl ⟨e, h, hf, fun _ _ hi => hi⟩
    | some d =>
      -- the state after one successful write, whichever branch of the loop reached it
      have hgo : Drained N src e s (drain N.succ fail fuel (s.wrote N.succ d)) := by
        rcases ih (e + 1) _ (h.write hspan hd) hf with ⟨e', hok, hf', hhas⟩ | hbad
        · exact Or.inl ⟨e', hok, hf', fun i hilt hi => hhas i hilt (h.has_write hspan d hilt hi)⟩
        · exact Or.inr hbad
      cases d with
      | nil => exact hgo
      | cons x xs =>
        cases hfail : fail s.expect with
        | none => exact hgo
        | some n => exact Or.inr ⟨rfl, h.partial_prefix hspan hd n⟩

/-- Erasing a parked key shrinks the map. -/
theorem length_erase_lt {p : AList (fun _ : K => List α)} {k : K} (h : p.lookup k = some d) :
    (p.erase k).keys.length < p.keys.length := by
  have hmem : k ∈ p.keys := by
    rw [← AList.mem_keys, ← AList.lookup_isSome, h]; rfl
  rw [AList.keys_erase, length_erase_of_mem hmem]
  have := length_pos_of_mem hmem
  omega

/-- **Enough fuel settles the loop**: afterwards the expected number is not parked. -/
theorem drain_settled : ∀ (fuel : Nat) (s : Asm K α), s.pending.keys.length ≤ fuel →
      (drain succ fail fuel s).failed = false →
      (drain succ fail fuel s).pending.lookup (drain succ fail fuel s).expect = none := by
  intro fuel
  induction fuel with
  | zero =>
    intro s hlen _
    have hnil : s.pending.keys = [] := length_eq_zero_iff.mp (Nat.le_zero.mp hlen)
    show s.pending.lookup s.expect = none
    rw [AList.lookup_eq_none, AList.mem_keys, hnil]
    exact not_mem_nil
  | succ fuel ih =>
    intro s hlen
    rw [drain]
    cases hd : s.pending.lookup s.expect with
    | none => intro _; exact hd
    | some d =>
      have hlt := length_erase_lt hd
      have hgo := ih (s.wrote succ d)
        (by show (s.pending.erase s.expect).keys.length ≤ fuel; omega)
      cases d with
      | nil => exact hgo
      | cons x xs =>
        cases hfail : fail s.expect with
        | none => exact hgo
        | some n => intro hbad; exact absurd hbad (by simp)

theorem drain_length_le (fuel : Nat) (s : Asm K α) :
    (drain succ fail fuel s).pending.keys.length ≤ s.pending.keys.length := by
  fun_induction drain succ fail fuel s with
  | case1 | case2 => exact le_rfl
  | case3 fuel s x xs n hfail hd => exact (length_erase_lt hd).le
  | case4 fuel s d hd hok ih => exact ih.trans (length_erase_lt hd).le

/-! ## What has arrived is never lost -/

theorem HasChunk.park (h : HasChunk N s e i) (k : K) (d : List α) :
    HasChunk N { s with pending := s.pending.insert k d } e i := by
  rcases h with h | h
  · exact Or.inl h
  · exact Or.inr ((AList.mem_insert _).mpr (Or.inr h))

theorem has_park_self (s : Asm K α) (e i : Nat) (d : List α) :
    HasChunk N { s with pending := s.pending.insert (N.num i) d } e i :=
  Or.inr ((AList.mem_insert _).mpr (Or.inl rfl))

/-- Bytes that went out stay out: no turn of the loop shortens `out`. -/
theorem out_prefix_drain :
    ∀ (fuel : Nat) (s : Asm K α), s.out <+: (drain succ fail fuel s).out := by
  intro fuel
  induction fuel with
  | zero => intro s; exact prefix_rfl
  | succ fuel ih =>
    intro s
    rw [drain]
    cases hd : s.pending.lookup s.expect with
    | none => exact prefix_rfl
    | some d =>
      have hgo := (prefix_append s.out d).trans (ih (s.wrote succ d))
      cases d with
      | nil => exact hgo
      | cons x xs =>
        cases hfail : fail s.expect with
        | none => exact hgo
        | some n => exact prefix_append _ _

/-- A drain in which no write can fail does not fail. -/
theorem drain_failed_eq {fail : K → Option Nat} (hnone : ∀ k, fail k = none) :
    ∀ (fuel : Nat) (s : Asm K α), (drain succ fail fuel s).failed = s.failed := by
  intro fuel
  induction fuel with
  | zero => intro s; rfl
  | succ fuel ih =>
    intro s
    rw [drain]
    cases hd : s.pending.lookup s.expect with
    | none => rfl
    | some d =>
      rw [hnone]
      cases d <;> exact ih _

end OlcVpn.Reassembly
