/-
  The Kotlin COLLECTION FUNCTIONS the client uses, on lists.

  A linked map is a list of pairs with distinct keys in insertion order; a set whose order nobody
  looks at is a list.  `groupBy` and `distinctBy` keep the order of first occurrence, as Kotlin's
  linked collections do.
-/
import Mathlib.Data.List.Forall2
import Mathlib.Data.List.Nodup

namespace OlcVpn.Kotlin

open List

-- a look-up at literal names is computed field by field
attribute [simp] List.lookup_cons

section Maps

variable {K V : Type} [DecidableEq K]

/-- `put(key, value)` of a linked map: an existing key keeps its place. -/
def put : List (K × V) → K → V → List (K × V)
  | [], key, value => [(key, value)]
  | (k, v) :: rest, key, value =>
    if k = key then (key, value) :: rest else (k, v) :: put rest key value

/-- The last value put under a key is found. -/
@[simp] theorem lookup_put_self (pairs : List (K × V)) (key : K) (value : V) :
    (put pairs key value).lookup key = some value := by
  induction pairs with
  | nil => simp [put]
  | cons pair rest ih =>
    obtain ⟨k, v⟩ := pair
    by_cases h : k = key
    · simp [put, h]
    · have h' : (key == k) = false := by simpa using fun e => h e.symm
      simp [put, h, h', ih]

variable {pairs : List (K × V)}

theorem lookup_put_ne {key other : K} {value : V} (h : other ≠ key) :
    (put pairs key value).lookup other = pairs.lookup other := by
  have hne : (other == key) = false := by simpa using h
  induction pairs with
  | nil => simp [put, hne]
  | cons pair rest ih =>
    obtain ⟨k, v⟩ := pair
    by_cases hk : k = key
    · simp [put, hk, hne]
    · simp [put, hk, ih]

/-- A new key goes to the end. -/
theorem put_of_not_mem {key : K} {value : V}
    (h : key ∉ pairs.map Prod.fst) : put pairs key value = pairs ++ [(key, value)] := by
  induction pairs with
  | nil => rfl
  | cons pair rest ih =>
    obtain ⟨k, v⟩ := pair
    simp only [map_cons, mem_cons, not_or] at h
    simp [put, Ne.symm h.1, ih h.2]

/-- `toMap()` as a linked map. -/
def toLinkedMap (pairs : List (K × V)) : List (K × V) :=
  pairs.foldl (fun map pair => put map pair.1 pair.2) []

/-- Putting keeps the keys apart. -/
theorem nodup_put (h : (pairs.map Prod.fst).Nodup) (key : K) (value : V) :
    ((put pairs key value).map Prod.fst).Nodup := by
  by_cases hmem : key ∈ pairs.map Prod.fst
  · -- the keys stay as they are
    have hkeys : ∀ {l : List (K × V)}, key ∈ l.map Prod.fst →
        (put l key value).map Prod.fst = l.map Prod.fst := by
      intro l hl
      induction l with
      | nil => simp at hl
      | cons pair rest ih =>
        obtain ⟨k, v⟩ := pair
        by_cases hk : k = key
        · simp [put, hk]
        · have hrest : key ∈ rest.map Prod.fst := by
            rcases mem_cons.mp hl with rfl | hr
            · exact absurd rfl hk
            · exact hr
          simp [put, hk, ih hrest]
    rwa [hkeys hmem]
  · rw [put_of_not_mem hmem, map_append, nodup_append]
    refine ⟨h, by simp, ?_⟩
    rintro a ha b hb rfl
    obtain rfl : a = key := by simpa using hb
    exact hmem ha

theorem nodup_toLinkedMap (pairs : List (K × V)) : ((toLinkedMap pairs).map Prod.fst).Nodup := by
  suffices h : ∀ map : List (K × V), (map.map Prod.fst).Nodup →
      ((pairs.foldl (fun map pair => put map pair.1 pair.2) map).map Prod.fst).Nodup from
    h [] (by simp)
  induction pairs with
  | nil => exact fun map h => h
  | cons pair rest ih => exact fun map h => ih _ (nodup_put h _ _)

/-- A list whose keys are distinct already is the map it makes. -/
theorem toLinkedMap_eq_self (h : (pairs.map Prod.fst).Nodup) : toLinkedMap pairs = pairs := by
  suffices hgen : ∀ map : List (K × V), ((map ++ pairs).map Prod.fst).Nodup →
      pairs.foldl (fun map pair => put map pair.1 pair.2) map = map ++ pairs from
    hgen [] (by simpa using h)
  clear h
  induction pairs with
  | nil => simp
  | cons pair rest ih =>
    intro map hnd
    have hnew : pair.1 ∉ map.map Prod.fst := by
      intro hmem
      rw [map_append, nodup_append] at hnd
      exact hnd.2.2 _ hmem _ (by simp) rfl
    rw [foldl_cons, put_of_not_mem hnew, ih]
    · simp
    · simpa using hnd

/-- Every pair of the map is one of the list. -/
theorem mem_of_mem_toLinkedMap {pair : K × V} (h : pair ∈ toLinkedMap pairs) : pair ∈ pairs := by
  have hput : ∀ (map : List (K × V)) (q : K × V), pair ∈ put map q.1 q.2 → pair ∈ map ∨
      pair = q := by
    intro map q hmem
    induction map with
    | nil => exact .inr (by simpa [put] using hmem)
    | cons p rest ih =>
      obtain ⟨k, v⟩ := p
      unfold put at hmem
      split_ifs at hmem with hk
      · rcases mem_cons.mp hmem with rfl | hr
        · exact .inr rfl
        · exact .inl (mem_cons_of_mem _ hr)
      · rcases mem_cons.mp hmem with rfl | hr
        · exact .inl mem_cons_self
        · exact (ih hr).imp_left (mem_cons_of_mem _)
  suffices hgen : ∀ map : List (K × V),
      pair ∈ pairs.foldl (fun map pair => put map pair.1 pair.2) map → pair ∈ map ∨
      pair ∈ pairs from
    (hgen [] h).resolve_left (by simp)
  clear h
  induction pairs with
  | nil => exact fun map h => .inl h
  | cons q rest ih =>
    intro map hmem
    rcases ih _ hmem with h | h
    · rcases hput map q h with h | rfl
      · exact .inl h
      · exact .inr mem_cons_self
    · exact .inr (mem_cons_of_mem _ h)

/-- The value of a key is the last one it was given. -/
theorem lookup_toLinkedMap (pairs : List (K × V)) (key : K) :
    (toLinkedMap pairs).lookup key = pairs.reverse.lookup key := by
  suffices hgen : ∀ map : List (K × V),
      (pairs.foldl (fun map pair => put map pair.1 pair.2) map).lookup key =
        (pairs.reverse.lookup key).or (map.lookup key) by
    rw [toLinkedMap, hgen, lookup_nil, Option.or_none]
  induction pairs with
  | nil => exact fun map => rfl
  | cons pair rest ih =>
    obtain ⟨k, v⟩ := pair
    intro map
    rw [foldl_cons, ih, reverse_cons, lookup_append, Option.or_assoc]
    congr 1
    by_cases hk : key = k
    · simp [hk]
    · have hne : (key == k) = false := by simpa using hk
      rw [lookup_put_ne hk, lookup_cons, hne, lookup_nil]
      rfl

theorem lookup_isSome_iff (pairs : List (K × V)) (key : K) :
    (pairs.lookup key).isSome ↔ key ∈ pairs.map Prod.fst := by
  induction pairs with
  | nil => simp
  | cons pair rest ih =>
    obtain ⟨k, v⟩ := pair
    by_cases hk : key = k
    · simp [hk]
    · have hne : (key == k) = false := by simpa using hk
      rw [lookup_cons, hne, map_cons, mem_cons, ih]
      exact (or_iff_right hk).symm

/-- A map has the keys of its pairs. -/
theorem mem_keys_toLinkedMap {key : K} :
    key ∈ (toLinkedMap pairs).map Prod.fst ↔ key ∈ pairs.map Prod.fst := by
  rw [← lookup_isSome_iff, lookup_toLinkedMap, lookup_isSome_iff, map_reverse, mem_reverse]

/-- Where no key occurs twice, at most one pair has a given key. -/
theorem filter_key_of_nodup (h : (pairs.map Prod.fst).Nodup) (key : K) :
    (pairs.filter fun pair => pair.1 = key).map Prod.snd = (pairs.lookup key).toList := by
  induction pairs with
  | nil => rfl
  | cons pair rest ih =>
    obtain ⟨k, v⟩ := pair
    rw [map_cons, nodup_cons] at h
    by_cases hk : k = key
    · subst hk
      have hrest : rest.filter (fun pair => pair.1 = k) = [] :=
        filter_eq_nil_iff.mpr fun pair hpair heq =>
          h.1 (mem_map.mpr ⟨pair, hpair, of_decide_eq_true heq⟩)
      simp [hrest]
    · have hne : (key == k) = false := by simpa using fun e => hk e.symm
      simp [hk, hne, ih h.2]

end Maps

variable {K V : Type}

/-- `toMap()` of a list of pairs: the last pair of a key wins. -/
def toMap [BEq K] (pairs : List (K × V)) (k : K) : Option V :=
  pairs.reverse.lookup k

/-- Where keys are apart, a pair of the list is what its key finds. -/
theorem lookup_eq_some_of_mem [BEq K] [LawfulBEq K] {pairs : List (K × V)} {k : K}
    {v : V} (hnd : (pairs.map Prod.fst).Nodup) (h : (k, v) ∈ pairs) : pairs.lookup k = some v := by
  induction pairs with
  | nil => simp at h
  | cons pair rest ih =>
    obtain ⟨k', v'⟩ := pair
    simp only [map_cons, nodup_cons] at hnd
    rcases mem_cons.mp h with heq | hmem
    · cases heq
      simp
    · have hne : k ≠ k' := by
        rintro rfl
        exact hnd.1 (mem_map.mpr ⟨(k, v), hmem, rfl⟩)
      have hne' : (k == k') = false := by simpa using hne
      rw [lookup_cons, hne']
      exact ih hnd.2 hmem

theorem mem_of_lookup_eq_some [BEq K] [LawfulBEq K] {pairs : List (K × V)} {k : K}
    {v : V} (h : pairs.lookup k = some v) : (k, v) ∈ pairs := by
  obtain ⟨before, rest, rfl, -⟩ := lookup_eq_some_iff.mp h
  simp

/-- On distinct keys `toMap` is plain membership. -/
theorem toMap_eq_some_iff [BEq K] [LawfulBEq K] {pairs : List (K × V)} {k : K} {v : V}
    (hnd : (pairs.map Prod.fst).Nodup) : toMap pairs k = some v ↔ (k, v) ∈ pairs := by
  constructor
  · intro h
    exact mem_reverse.mp (mem_of_lookup_eq_some h)
  · intro h
    refine lookup_eq_some_of_mem ?_ (mem_reverse.mpr h)
    rwa [map_reverse, nodup_reverse]

/-! ## Grouping -/

section Groups

variable {α K : Type} [DecidableEq K] (key : α → K)

/-- `distinctBy(key)` on the rest of a list, with the keys seen so far. -/
def distinctByFrom (seen : List K) : List α → List α
  | [] => []
  | a :: l =>
    if key a ∈ seen then distinctByFrom seen l else a :: distinctByFrom (key a :: seen) l

/-- `distinctBy(key)`: the first element of each key. -/
def distinctBy (l : List α) : List α := distinctByFrom key [] l

/-- `groupBy(key)`: keys in the order of first occurrence, each with its elements in order. -/
def groupBy (l : List α) : List (K × List α) :=
  (distinctBy id (l.map key)).map fun k => (k, l.filter fun a => key a = k)

variable {key}

theorem distinctByFrom_eq_self {seen : List K} {l : List α} (hseen : ∀ a ∈ l, key a ∉ seen)
    (hnd : (l.map key).Nodup) : distinctByFrom key seen l = l := by
  induction l generalizing seen with
  | nil => rfl
  | cons a l ih =>
    simp only [map_cons, nodup_cons] at hnd
    rw [distinctByFrom, if_neg (hseen a mem_cons_self), ih _ hnd.2]
    intro b hb
    simp only [mem_cons, not_or]
    refine ⟨?_, hseen b (mem_cons_of_mem _ hb)⟩
    intro e
    exact hnd.1 (mem_map.mpr ⟨b, hb, e⟩)

/-- Nothing is dropped where no key repeats. -/
theorem distinctBy_eq_self {l : List α} (hnd : (l.map key).Nodup) : distinctBy key l = l :=
  distinctByFrom_eq_self (by simp) hnd

theorem distinctByFrom_sublist (seen : List K) (l : List α) :
    (distinctByFrom key seen l).Sublist l := by
  induction l generalizing seen with
  | nil => exact .slnil
  | cons a l ih =>
    unfold distinctByFrom
    split_ifs
    · exact (ih seen).cons a
    · exact (ih _).cons_cons a

variable (l : List α)

theorem distinctBy_sublist : (distinctBy key l).Sublist l := distinctByFrom_sublist [] l

/-- No key is left twice, and none that was seen before. -/
theorem distinctByFrom_nodup (seen : List K) (l : List α) :
    ((distinctByFrom key seen l).map key).Nodup ∧ ∀ a ∈ distinctByFrom key seen l,
      key a ∉ seen := by
  induction l generalizing seen with
  | nil => simp [distinctByFrom]
  | cons a l ih =>
    unfold distinctByFrom
    split_ifs with h
    · exact ih seen
    · obtain ⟨hnd, hout⟩ := ih (key a :: seen)
      refine ⟨?_, ?_⟩
      · rw [map_cons, nodup_cons]
        refine ⟨?_, hnd⟩
        intro hmem
        obtain ⟨b, hb, e⟩ := mem_map.mp hmem
        exact hout b hb (e ▸ mem_cons_self)
      · intro b hb
        rcases mem_cons.mp hb with rfl | hb
        · exact h
        · exact fun hs => hout b hb (mem_cons_of_mem _ hs)

theorem nodup_distinctBy : ((distinctBy key l).map key).Nodup := (distinctByFrom_nodup [] l).1

/-- The first element of a key is kept. -/
theorem mem_distinctByFrom {seen : List K} {before after : List α} {a : α} (hseen : key a ∉ seen)
    (hfirst : ∀ d ∈ before, key d ≠ key a) : a ∈ distinctByFrom key seen
      (before ++ a :: after) := by
  induction before generalizing seen with
  | nil => simp [distinctByFrom, hseen]
  | cons d before ih =>
    obtain ⟨hd, hrest⟩ := forall_mem_cons.mp hfirst
    rw [cons_append, distinctByFrom]
    split_ifs
    · exact ih hseen hrest
    · exact mem_cons_of_mem _ (ih (by simp [hseen, hd.symm]) hrest)

theorem mem_distinctByFrom_id {seen l : List K} {k : K} :
    k ∈ distinctByFrom id seen l ↔ k ∈ l ∧ k ∉ seen := by
  constructor
  · exact fun h => ⟨(distinctByFrom_sublist _ _).subset h, (distinctByFrom_nodup seen l).2 k h⟩
  · rintro ⟨hl, hs⟩
    obtain ⟨before, after, rfl, hfirst⟩ := eq_append_cons_of_mem hl
    exact mem_distinctByFrom hs fun d hd heq => hfirst ((show d = k from heq) ▸ hd)

/-- A group is everything with its key. -/
theorem mem_groupBy {l : List α} {k : K} {group : List α} :
    (k, group) ∈ groupBy key l ↔ k ∈ l.map key ∧ group = l.filter fun a => key a = k := by
  simp only [groupBy, mem_map, distinctBy, mem_distinctByFrom_id, not_mem_nil,
    not_false_eq_true, and_true, Prod.mk.injEq]
  constructor
  · rintro ⟨k', hk', rfl, rfl⟩
    exact ⟨hk', rfl⟩
  · rintro ⟨hk, rfl⟩
    exact ⟨k, hk, rfl, rfl⟩

theorem groupBy_keys_nodup : ((groupBy key l).map Prod.fst).Nodup := by
  have hkeys : (groupBy key l).map Prod.fst = (distinctBy id (l.map key)).map id := by
    simp only [groupBy, map_map]
    rfl
  rw [hkeys]
  exact nodup_distinctBy _

/-- The group of a key: its elements, in order. -/
theorem lookup_groupBy (k : K) :
    ((groupBy key l).lookup k).getD [] = l.filter fun a => key a = k := by
  by_cases hk : k ∈ l.map key
  · rw [lookup_eq_some_of_mem (groupBy_keys_nodup l) (mem_groupBy.mpr ⟨hk, rfl⟩)]
    rfl
  · have hnone : (groupBy key l).lookup k = none := by
      rw [lookup_eq_none_iff]
      rintro ⟨k', group⟩ hmem
      have hk' := (mem_groupBy.mp hmem).1
      simp only [bne_iff_ne, ne_eq]
      rintro rfl
      exact hk hk'
    rw [hnone, Option.getD_none, eq_comm, filter_eq_nil_iff]
    intro a ha
    simp only [decide_eq_true_eq]
    rintro rfl
    exact hk (mem_map_of_mem ha)

/-- Lists with a key each, put one after the other: the elements of a key are its list. -/
theorem filter_flatten {ι : Type} (name : ι → K) {parts : List (ι × List α)}
    (hnd : (parts.map fun part => name part.1).Nodup)
    (h : ∀ part ∈ parts, ∀ a ∈ part.2, key a = name part.1) {part : ι × List α}
      (hpart : part ∈ parts) :
    ((parts.map Prod.snd).flatten.filter fun a => key a = name part.1) = part.2 := by
  induction parts with
  | nil => simp at hpart
  | cons first rest ih =>
    simp only [map_cons, nodup_cons] at hnd
    rw [map_cons, flatten_cons, filter_append]
    have hrest : ∀ p ∈ rest, ∀ a ∈ p.2, key a = name p.1 := fun p hp =>
      h p (mem_cons_of_mem _ hp)
    rcases mem_cons.mp hpart with rfl | hmem
    · -- all of the first list, and nothing of the others
      have hall : (part.2.filter fun a => key a = name part.1) = part.2 :=
        filter_eq_self.mpr fun a ha => by simpa using h part mem_cons_self a ha
      have hnone : ((rest.map Prod.snd).flatten.filter fun a => key a = name part.1) = [] := by
        refine filter_eq_nil_iff.mpr fun a ha => ?_
        obtain ⟨l, hl, hal⟩ := mem_flatten.mp ha
        obtain ⟨p, hp, rfl⟩ := mem_map.mp hl
        simp only [decide_eq_true_eq]
        intro e
        refine hnd.1 (mem_map.mpr ⟨p, hp, ?_⟩)
        rw [← e, hrest p hp a hal]
      rw [hall, hnone, append_nil]
    · have hnone : (first.2.filter fun a => key a = name part.1) = [] := by
        refine filter_eq_nil_iff.mpr fun a ha => ?_
        simp only [decide_eq_true_eq]
        intro e
        refine hnd.1 (mem_map.mpr ⟨part, hmem, ?_⟩)
        rw [← e, h first mem_cons_self a ha]
      rw [hnone, nil_append, ih hnd.2 hrest hmem]

end Groups

/-- Related lists have the same images under related functions. -/
theorem map_eq_of_forall₂ {α β γ : Type} {R : α → β → Prop} {xs : List α} {ys : List β} {f : α → γ}
    {g : β → γ} (h : List.Forall₂ R xs ys) (heq : ∀ x y, R x y → g y = f x) : ys.map g =
      xs.map f := by
  induction h with
  | nil => rfl
  | cons hhead _ ih => rw [map_cons, map_cons, heq _ _ hhead, ih]

theorem exists_of_forall₂ {α β : Type} {R : α → β → Prop} {xs : List α} {ys : List β}
    (h : List.Forall₂ R xs ys) {x : α} (hx : x ∈ xs) : ∃ y ∈ ys, R x y := by
  induction h with
  | nil => simp at hx
  | cons hfirst _ ih =>
    rcases mem_cons.mp hx with rfl | hx
    · exact ⟨_, mem_cons_self, hfirst⟩
    · obtain ⟨y, hy, hR⟩ := ih hx
      exact ⟨y, mem_cons_of_mem _ hy, hR⟩

theorem forall₂_zipWith {α β γ : Type} {R : α → γ → Prop} {f : α → β → γ} {xs : List α}
    {ys : List β} (hlen : xs.length = ys.length) (h : ∀ x ∈ xs, ∀ y ∈ ys, R x (f x y)) :
    List.Forall₂ R xs (List.zipWith f xs ys) := by
  induction xs generalizing ys with
  | nil => exact .nil
  | cons x xs ih =>
    cases ys with
    | nil => simp at hlen
    | cons y ys =>
      refine .cons (h x mem_cons_self y mem_cons_self) (ih (by simpa using hlen) ?_)
      exact fun a ha b hb => h a (mem_cons_of_mem _ ha) b (mem_cons_of_mem _ hb)

theorem mem_zipWith {α β γ : Type} {f : α → β → γ} {xs : List α} {ys : List β} {c : γ}
    (h : c ∈ List.zipWith f xs ys) : ∃ a ∈ xs, ∃ b ∈ ys, c = f a b := by
  rw [← map_uncurry_zip_eq_zipWith] at h
  obtain ⟨⟨a, b⟩, hab, rfl⟩ := mem_map.mp h
  obtain ⟨ha, hb⟩ := of_mem_zip hab
  exact ⟨a, ha, b, hb, rfl⟩

/-- A traversal succeeds exactly if every element does. -/
theorem mapM_eq_some_iff {α β : Type} {f : α → Option β} {xs : List α} {ys : List β} :
    xs.mapM f = some ys ↔ List.Forall₂ (fun x y => f x = some y) xs ys := by
  induction xs generalizing ys with
  | nil =>
    cases ys with
    | nil | cons y ys => simp
  | cons x xs ih =>
    simp only [mapM_cons, Option.bind_eq_bind, Option.pure_def, Option.bind_eq_some_iff,
      Option.some.injEq, ih]
    constructor
    · rintro ⟨y, hy, zs, hzs, rfl⟩
      exact .cons hy hzs
    · rintro (_ | ⟨hy, hzs⟩)
      exact ⟨_, hy, _, hzs, rfl⟩

end OlcVpn.Kotlin
