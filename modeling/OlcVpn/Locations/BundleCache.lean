/-
  The in-memory BUNDLE CACHE of the locations repository (`LocationsDatasource.kt`: `getBundle`,
  `getBundleUnlocked`, `saveBundleUnlocked`, `cacheBundle`, `cachedFor`).

  Several repository instances — the app's and the VPN service's — share one data source.  Each
  keeps the last decoded bundle together with the data source's version token of the time, in one
  volatile pair, and serves it for as long as the token it reads is that one.  `mutationMutex`
  belongs to the INSTANCE, so between two instances nothing is locked, and writing the file and
  reading the token that goes with it are two steps.

  The model: a version is the number of writes so far, `hist` is what each version holds, and a call
  is a thread whose control point says which atomic step comes next.  `start` is ghost: the version
  that was current when the call began.  A bundle is fresh for the call if some version from `start`
  on shows it.

  * `advance`       — one atomic step of one call, exactly as the Kotlin functions order them;
  * `ThreadOk`      — what a control point knows; `CacheOk` — a cached bundle is at least as new as
                      its token;
  * the result      — no call returns a stale bundle in any run in which no write falls between
                      another call's write and its token read (`NoOverlap`).  Two instances writing
                      across each other do break it.
-/
import Mathlib.Tactic
import OlcVpn.Lib.Runs

namespace OlcVpn.BundleCache

open Runs List
open Option (some)

/-! ## The data source -/

/-- What lies outside the cache: `normalized()`, `locations.isNotEmpty()`, the bundle migrated from
    the legacy files, and the version token of each version of the file (`null` where the data
    source has none).  A write never brings an earlier token back. -/
structure Source (B T : Type) where
  normalized : B → B
  hasLocations : B → Bool
  legacy : B
  versionToken : Nat → Option T
  token_inj : ∀ {v w t}, versionToken v = some t → versionToken w = some t → v = w

variable {B T : Type}

/-- The state the instances share or own: the file's history, and per instance `cached`. -/
structure Shared (B T : Type) where
  hist : List (Option B)
  cached : Nat → Option (B × Option T)

def Shared.version (sh : Shared B T) : Nat := sh.hist.length - 1

variable (src : Source B T)

variable (sh : Shared B T)

/-- `dataSource.bundleVersionToken()`. -/
def Shared.token : Option T := src.versionToken sh.version

/-- `dataSource.loadLocationBundle()`: the last bundle written, or the initial content. -/
def Shared.load : Option B := sh.hist.getLast?.join

/-- `dataSource.saveLocationBundle(b)`. -/
def Shared.save (b : B) : Shared B T := { sh with hist := sh.hist ++ [some b] }

def Shared.cacheBundle (inst : Nat) (b : B) (t : Option T) : Shared B T :=
  { sh with cached := Function.update sh.cached inst (some (b, t)) }

/-- `cached?.takeIf { token != null && it.second == token }?.first`. -/
def Shared.cachedFor [DecidableEq T] (sh : Shared B T) (inst : Nat) (t : Option T) : Option B :=
  match sh.cached inst, t with
  | some (b, some t'), some t => if t' = t then some b else none
  | _, _ => none

/-! ## The calls -/

/-- What a call does with the bundle `getBundleUnlocked` gives it: return it, or save a changed one
    under the same lock. -/
inductive Task (B : Type) where
  | get
  | mutate (f : B → B)

inductive Job (B : Type) where
  | read (k : Task B)
  | save (b : B)

/-- The control points.  The two `fast` ones are `getBundle` without the mutex; from `token` to
    `legacyToken` it is `getBundleUnlocked`, from `write` on `saveBundleUnlocked`. -/
inductive Pc (B T : Type) where
  | fastToken
  | fastCached (t : Option T)
  | acquire (j : Job B)
  | token (k : Task B)
  | cachedFor (k : Task B) (t : Option T)
  | load (k : Task B) (t : Option T)
  | store (k : Task B) (b : B) (t : Option T)
  | saveLegacy (k : Task B)
  | legacyToken (k : Task B)
  | write (b : B)
  | writeToken (b : B)
  | writeStore (b : B) (t : Option T)
  | returned (b : Option B)

/-- The call holds `mutationMutex`. -/
def Pc.holdsLock : Pc B T → Bool
  | .fastToken => false
  | .fastCached _ => false
  | .acquire _ => false
  | .returned _ => false
  | _ => true

/-- The call has written the file and not yet read the token for what it wrote. -/
def Pc.awaitsToken : Pc B T → Bool
  | .legacyToken _ => true
  | .writeToken _ => true
  | _ => false

/-- The next step writes the file. -/
def Pc.writes : Pc B T → Bool
  | .saveLegacy _ => true
  | .write _ => true
  | _ => false

def Job.begin : Job B → Pc B T
  | .read k => .token k
  | .save b => .write b

def Task.finish (k : Task B) (b : B) : Pc B T :=
  match k with
  | .get => .returned (some b)
  | .mutate f => .write (f b)

/-- `getBundleUnlocked` after `loadLocationBundle()`: the stored bundle if it has locations, else
    the legacy one, which is saved first if it has any. -/
def afterLoad (k : Task B) (t : Option T) (loaded : Option B) : Pc B T :=
  match loaded.map src.normalized with
  | some b =>
    if src.hasLocations b then .store k b t
    else if src.hasLocations src.legacy then .saveLegacy k else .store k src.legacy t
  | none => if src.hasLocations src.legacy then .saveLegacy k else .store k src.legacy t

/-- One atomic step of a call of instance `inst`; `locked` says that another call of the instance
    holds the mutex. -/
def advance [DecidableEq T] (src : Source B T) (locked : Bool) (inst : Nat) (sh : Shared B T) :
    Pc B T → Shared B T × Pc B T
  | .fastToken => (sh, .fastCached (sh.token src))
  | .fastCached t =>
    match sh.cachedFor inst t with
    | some b => (sh, .returned (some b))
    | none => (sh, .acquire (.read .get))
  | .acquire j => (sh, if locked then .acquire j else j.begin)
  | .token k => (sh, .cachedFor k (sh.token src))
  | .cachedFor k t =>
    match sh.cachedFor inst t with
    | some b => (sh, k.finish b)
    | none => (sh, .load k t)
  | .load k t => (sh, afterLoad src k t sh.load)
  | .store k b t => (sh.cacheBundle inst b t, k.finish b)
  | .saveLegacy k => (sh.save src.legacy, .legacyToken k)
  | .legacyToken k => (sh, .store k src.legacy (sh.token src))
  | .write b => (sh.save (src.normalized b), .writeToken (src.normalized b))
  | .writeToken b => (sh, .writeStore b (sh.token src))
  | .writeStore b t => (sh.cacheBundle inst b t, .returned none)
  | .returned b => (sh, .returned b)

structure Thread (B T : Type) where
  inst : Nat
  start : Nat
  pc : Pc B T

structure State (B T : Type) where
  shared : Shared B T
  threads : List (Thread B T)

def State.init (content : Option B) : State B T := ⟨⟨[content], fun _ => none⟩, []⟩

inductive Event (B : Type) where
  /-- `getBundle()` on an instance -/
  | getBundle (inst : Nat)
  /-- `saveBundle(b)` -/
  | saveBundle (inst : Nat) (b : B)
  /-- a mutation: read, change and save under one lock -/
  | mutate (inst : Nat) (f : B → B)
  /-- call `i` takes its next step -/
  | adv (i : Nat)

variable (s : State B T)

def State.call (inst : Nat) (pc : Pc B T) : State B T :=
  { s with threads := s.threads ++ [⟨inst, s.shared.version, pc⟩] }

/-- Some call of the instance holds its mutex. -/
def State.locked (inst : Nat) : Bool :=
  s.threads.any fun th => th.inst == inst && th.pc.holdsLock

def step [DecidableEq T] (src : Source B T) (s : State B T) : Event B → State B T
  | .getBundle inst => s.call inst .fastToken
  | .saveBundle inst b => s.call inst (.acquire (.save b))
  | .mutate inst f => s.call inst (.acquire (.read (.mutate f)))
  | .adv i =>
    match s.threads[i]? with
    | none => s
    | some th =>
      let (sh, pc) := advance src (s.locked th.inst) th.inst s.shared th.pc
      { shared := sh, threads := s.threads.set i { th with pc := pc } }

/-! ## Freshness -/

/-- `b` is what a read of this content gives: the saved bundle, as saved or normalized again, or the
    legacy one where the content has no locations. -/
def Shows (content : Option B) (b : B) : Prop :=
  (∃ x, content = some x ∧ (b = x ∨ b = src.normalized x)) ∨
    (b = src.legacy ∧ ∀ x, content = some x → src.hasLocations (src.normalized x) = false)

/-- Some version from `v` on shows `b`. -/
def Fresh (hist : List (Option B)) (v : Nat) (b : B) : Prop :=
  ∃ w content, v ≤ w ∧ hist[w]? = some content ∧ Shows src content b

/-- No call of `getBundle` has returned a bundle older than what was written when it began. -/
def NeverStale : Prop :=
  ∀ th ∈ s.threads, ∀ b, th.pc = .returned (some b) → Fresh src s.shared.hist th.start b

/-- The next step of call `i` writes the file. -/
def State.writesNext (i : Nat) : Bool :=
  match s.threads[i]? with
  | some th => th.pc.writes
  | none => false

/-- A call other than `i` is between its write and its token read. -/
def State.otherAwaits (i : Nat) : Bool :=
  (s.threads.eraseIdx i).any fun th => th.pc.awaitsToken

/-- A write step is taken only while no OTHER call is between its write and its token read. -/
def NoOverlap (ev : Event B) : Prop :=
  match ev with
  | .adv i => s.writesNext i = true → s.otherAwaits i = false
  | _ => True

instance (s : State B T) (ev : Event B) : Decidable (NoOverlap s ev) :=
  match ev with
  | .adv i => inferInstanceAs (Decidable (s.writesNext i = true → s.otherAwaits i = false))
  | .getBundle _ => inferInstanceAs (Decidable True)
  | .saveBundle _ _ => inferInstanceAs (Decidable True)
  | .mutate _ _ => inferInstanceAs (Decidable True)

variable {s : State B T}

/-- No other thread waits for a token. -/
theorem awaits_false_of_ne {i j : Nat} {other : Thread B T} (h : s.otherAwaits i = false)
    (hji : j ≠ i) (hj : s.threads[j]? = some other) : other.pc.awaitsToken = false := by
  have hmem : other ∈ s.threads.eraseIdx i := mem_eraseIdx_iff_getElem?.mpr ⟨j, hji, hj⟩
  have hall := any_eq_false.mp h other hmem
  exact Bool.eq_false_iff.mpr hall

/-! ## What a control point knows -/

variable (src : Source B T)

variable (hist : List (Option B))

/-- `t` was the token of some version from `v` on. -/
def TokenFrom (v : Nat) (t : Option T) : Prop :=
  ∃ w, v ≤ w ∧ w < hist.length ∧ t = src.versionToken w

/-- `b` is shown by a version from `v` on, and by one no older than the version `t` belongs to. -/
def Paired (v : Nat) (b : B) (t : Option T) : Prop :=
  ∃ u w content, t = src.versionToken u ∧ u ≤ w ∧ v ≤ w ∧ hist[w]? = some content ∧
    Shows src content b

/-- After a write the file IS what was written, until the token has been read: this is what another
    instance can take away. -/
def ThreadOk (start : Nat) : Pc B T → Prop
  | .fastCached t => TokenFrom src hist start t
  | .cachedFor _ t => TokenFrom src hist start t
  | .load _ t => TokenFrom src hist start t
  | .store _ b t => Paired src hist start b t
  | .legacyToken _ => hist.getLast? = some (some src.legacy)
  | .writeToken b => hist.getLast? = some (some b)
  | .writeStore b t => Paired src hist start b t
  | .returned (some b) => Fresh src hist start b
  | _ => True

def CacheOk (sh : Shared B T) : Prop :=
  ∀ inst b t, sh.cached inst = some (b, some t) → Paired src sh.hist 0 b (some t)

structure StateOk (src : Source B T) (s : State B T) : Prop where
  started : ∀ th ∈ s.threads, th.start < s.shared.hist.length
  threads : ∀ th ∈ s.threads, ThreadOk src s.shared.hist th.start th.pc
  cache : CacheOk src s.shared
  hist_ne : s.shared.hist ≠ []

section
variable {src : Source B T} {hist : List (Option B)} {v : Nat} {b : B} {t : Option T}

theorem Paired.fresh (h : Paired src hist v b t) : Fresh src hist v b := by
  obtain ⟨u, w, content, -, -, hv, hw, hs⟩ := h
  exact ⟨w, content, hv, hw, hs⟩

theorem TokenFrom.mono (h : TokenFrom src hist v t) (more : List (Option B)) :
    TokenFrom src (hist ++ more) v t := by
  obtain ⟨w, hv, hw, ht⟩ := h
  exact ⟨w, hv, by rw [length_append]; omega, ht⟩

theorem Paired.mono (h : Paired src hist v b t) (more : List (Option B)) :
    Paired src (hist ++ more) v b t := by
  obtain ⟨u, w, content, ht, hu, hv, hw, hs⟩ := h
  exact ⟨u, w, content, ht, hu, hv, getElem?_append_of_some hw more, hs⟩

/-- A bundle that was fresh for a call stays so. -/
theorem Fresh.mono (h : Fresh src hist v b) (more : List (Option B)) :
    Fresh src (hist ++ more) v b := by
  obtain ⟨w, content, hv, hw, hs⟩ := h
  exact ⟨w, content, hv, getElem?_append_of_some hw more, hs⟩

/-- A write disturbs what a call knows only between that call's own write and token read. -/
theorem ThreadOk.mono {pc : Pc B T} (h : ThreadOk src hist v pc) (hpc : pc.awaitsToken = false)
    (more : List (Option B)) : ThreadOk src (hist ++ more) v pc := by
  cases pc with
  | fastCached t | cachedFor k t | load k t => exact TokenFrom.mono h more
  | store k b t | writeStore b t => exact Paired.mono h more
  | legacyToken k | writeToken b => exact absurd hpc (by simp [Pc.awaitsToken])
  | returned r =>
    cases r with
    | none => trivial
    | some b => exact Fresh.mono h more
  | fastToken | acquire j | token k | saveLegacy k | write b => trivial

/-- The current version shows what was last written; paired with the current token. -/
theorem paired_last {content : Option B} (hv : v < hist.length)
    (hlast : hist.getLast? = some content) (hs : Shows src content b) {u : Nat}
    (hu : u < hist.length) : Paired src hist v b (src.versionToken u) := by
  refine ⟨u, hist.length - 1, content, rfl, by omega, by omega, ?_, hs⟩
  rw [← getLast?_eq_getElem?]; exact hlast

end

/-! ## One step of a call -/

section
variable {src : Source B T} {sh : Shared B T} {start : Nat}

/-- A token taken now is from the present version. -/
theorem tokenFrom_current (hstart : start < sh.hist.length) :
    TokenFrom src sh.hist start (sh.token src) :=
  ⟨sh.version, by rw [Shared.version]; omega, by rw [Shared.version]; omega, rfl⟩

variable {b : B} {t : Option T}

theorem finish_ok {k : Task B} (h : Fresh src sh.hist start b) :
    ThreadOk src sh.hist start (k.finish b) := by
  cases k with
  | get => exact h
  | mutate f => trivial

/-- A load after the token was taken is at least as new as the token. -/
theorem afterLoad_ok (hstart : start < sh.hist.length) (hne : sh.hist ≠ []) {k : Task B}
    (ht : TokenFrom src sh.hist start t) : ThreadOk src sh.hist start
      (afterLoad src k t sh.load) := by
  obtain ⟨w, -, hw, rfl⟩ := ht
  obtain ⟨content, hlast⟩ : ∃ c, sh.hist.getLast? = some c :=
    Option.ne_none_iff_exists'.mp (by rw [Ne, getLast?_eq_none_iff]; exact hne)
  have hload : sh.load = content := by rw [Shared.load, hlast]; rfl
  -- the legacy bundle stands for a content without locations
  have hlegacy : (∀ x, content = some x → src.hasLocations (src.normalized x) = false) →
      ThreadOk src sh.hist start
        (if src.hasLocations src.legacy then .saveLegacy k
          else .store k src.legacy (src.versionToken w)) := by
    intro hempty
    split
    · trivial
    · exact paired_last hstart hlast (Or.inr ⟨rfl, hempty⟩) hw
  rw [afterLoad, hload]
  cases content with
  | none => exact hlegacy fun x hx => absurd hx (by simp)
  | some x =>
    simp only [Option.map_some]
    split
    · exact paired_last hstart hlast (Or.inl ⟨x, rfl, Or.inr rfl⟩) hw
    · rename_i hempty
      refine hlegacy fun y hy => ?_
      rw [← some.inj hy]
      exact Bool.eq_false_iff.mpr hempty

/-- Only a pair that was read together goes into the cache. -/
theorem cacheBundle_ok (hc : CacheOk src sh) (inst : Nat) (hp : Paired src sh.hist start b t) :
    CacheOk src (sh.cacheBundle inst b t) := by
  intro i b' t' hi
  rw [Shared.cacheBundle] at hi
  by_cases hii : i = inst
  · subst hii
    simp only [Function.update_self, some.injEq, Prod.mk.injEq] at hi
    obtain ⟨rfl, rfl⟩ := hi
    obtain ⟨u, w, content, ht, hu, -, hw, hs⟩ := hp
    exact ⟨u, w, content, ht, hu, Nat.zero_le _, hw, hs⟩
  · simp only [Function.update_of_ne hii] at hi
    exact hc i b' t' hi

/-- A save makes the cached token outdated, so the cache stays right. -/
theorem save_ok (hc : CacheOk src sh) (b : B) : CacheOk src (sh.save b) := by
  intro i b' t' hi
  exact (hc i b' t' hi).mono [some b]

variable [DecidableEq T]

/-- **A hit is fresh**: the token that matches belongs to ONE version, that version is no older than
    the call, and the cached bundle no older than the version. -/
theorem cachedFor_fresh (hc : CacheOk src sh) {inst : Nat} (ht : TokenFrom src sh.hist start t)
    (hit : sh.cachedFor inst t = some b) : Fresh src sh.hist start b := by
  unfold Shared.cachedFor at hit
  split at hit
  · rename_i b' t' t hcached
    split at hit
    · rename_i heq
      obtain ⟨w, hw, -, htw⟩ := ht
      obtain ⟨u, x, content, htu, hux, -, hx, hs⟩ := hc inst b' t' hcached
      have huw : u = w := src.token_inj htu.symm (by rw [← htw, heq])
      rw [← some.inj hit]
      exact ⟨x, content, by omega, hx, hs⟩
    · exact absurd hit (by simp)
  · exact absurd hit (by simp)

/-- **The step lemma of a call**, one case per control point. -/
theorem advance_ok (locked : Bool) (inst : Nat) {pc : Pc B T} (hstart : start < sh.hist.length)
    (hne : sh.hist ≠ []) (hc : CacheOk src sh) (h : ThreadOk src sh.hist start pc) :
    CacheOk src (advance src locked inst sh pc).1 ∧
      ThreadOk src (advance src locked inst sh pc).1.hist start
        (advance src locked inst sh pc).2 := by
  have hver : sh.version < sh.hist.length := by rw [Shared.version]; omega
  cases pc with
  | fastToken | token k => exact ⟨hc, tokenFrom_current hstart⟩
  | fastCached t =>
    rw [advance]
    cases hit : sh.cachedFor inst t with
    | none => exact ⟨hc, trivial⟩
    | some b => exact ⟨hc, cachedFor_fresh hc h hit⟩
  | acquire j =>
    refine ⟨hc, ?_⟩
    cases locked with
    | true => trivial
    | false => cases j <;> trivial
  | cachedFor k t =>
    rw [advance]
    cases hit : sh.cachedFor inst t with
    | none => exact ⟨hc, h⟩
    | some b => exact ⟨hc, finish_ok (cachedFor_fresh hc h hit)⟩
  | load k t => exact ⟨hc, afterLoad_ok hstart hne h⟩
  | store k b t => exact ⟨cacheBundle_ok hc inst h, finish_ok (Paired.fresh h)⟩
  | saveLegacy k | write b => exact ⟨save_ok hc _, getLast?_concat⟩
  | legacyToken k =>
    exact ⟨hc, paired_last hstart h (Or.inl ⟨src.legacy, rfl, Or.inl rfl⟩) hver⟩
  | writeToken b => exact ⟨hc, paired_last hstart h (Or.inl ⟨b, rfl, Or.inl rfl⟩) hver⟩
  | writeStore b t => exact ⟨cacheBundle_ok hc inst h, trivial⟩
  | returned r => exact ⟨hc, h⟩

/-- The file changes only at the two write points, and then by one version. -/
theorem advance_hist (src : Source B T) (locked : Bool) (inst : Nat) (sh : Shared B T)
    (pc : Pc B T) :
    (advance src locked inst sh pc).1.hist = sh.hist ∨
      pc.writes = true ∧ ∃ x, (advance src locked inst sh pc).1.hist = sh.hist ++ [x] := by
  fun_cases advance src locked inst sh pc <;> first
    | exact Or.inl rfl
    | exact Or.inr ⟨rfl, _, rfl⟩

end

/-! ## Whole runs -/

variable {src : Source B T}

theorem init_ok (content : Option B) : StateOk src (State.init content) :=
  ⟨fun th hth => absurd hth (by simp [State.init]), fun th hth => absurd hth (by simp [State.init]),
    fun i b t hi => absurd hi (by simp [State.init]), by simp [State.init]⟩

/-- A new call starts at the present version. -/
theorem call_ok (h : StateOk src s) (inst : Nat) {pc : Pc B T}
    (hpc : ThreadOk src s.shared.hist s.shared.version pc) : StateOk src (s.call inst pc) := by
  have hver : s.shared.version < s.shared.hist.length := by
    have := length_pos_iff.mpr h.hist_ne
    rw [Shared.version]; omega
  refine ⟨?_, ?_, h.cache, h.hist_ne⟩
  · intro th hth
    rcases mem_append.mp hth with hth | hth
    · exact h.started th hth
    · rw [mem_singleton.mp hth]; exact hver
  · intro th hth
    rcases mem_append.mp hth with hth | hth
    · exact h.threads th hth
    · rw [mem_singleton.mp hth]; exact hpc

variable [DecidableEq T]

/-- **The step lemma of the system**, under `NoOverlap`. -/
theorem step_ok (h : StateOk src s) (ev : Event B) (hno : NoOverlap s ev) :
    StateOk src (step src s ev) := by
  fun_cases step src s ev with
  | case1 inst | case2 inst b | case3 inst f => exact call_ok h inst trivial
  | case4 i hi => exact h
  | case5 i th hi sh pc hadv =>
    have hmem := mem_of_getElem? hi
    have hstart := h.started th hmem
    have hlocal := advance_ok (s.locked th.inst) th.inst hstart h.hist_ne h.cache
      (h.threads th hmem)
    have hgrow := advance_hist src (s.locked th.inst) th.inst s.shared th.pc
    rw [hadv] at hlocal hgrow
    -- either nothing was written, or nobody else was waiting for a token
    have hothers : (∃ more, sh.hist = s.shared.hist ++ more) ∧
        ∀ j other, j ≠ i → s.threads[j]? = some other →
          ThreadOk src sh.hist other.start other.pc := by
      rcases hgrow with hsame | ⟨hw, x, hx⟩
      · refine ⟨⟨[], by rw [hsame, append_nil]⟩, ?_⟩
        intro j other _ hj
        rw [hsame]; exact h.threads other (mem_of_getElem? hj)
      · refine ⟨⟨[x], hx⟩, ?_⟩
        intro j other hji hj
        rw [hx]
        have hwrites : s.writesNext i = true := by rw [State.writesNext, hi]; exact hw
        exact (h.threads other (mem_of_getElem? hj)).mono
          (awaits_false_of_ne (hno hwrites) hji hj) [x]
    obtain ⟨⟨more, hmore⟩, hother⟩ := hothers
    refine ⟨?_, ?_, hlocal.1, ?_⟩
    · intro t ht
      rw [hmore, length_append]
      rcases mem_or_eq_of_mem_set ht with ht | rfl
      · have := h.started t ht
        omega
      · show th.start < _
        omega
    · intro t ht
      obtain ⟨j, hj⟩ := mem_iff_getElem?.mp ht
      by_cases hji : j = i
      · subst hji
        have hlt : j < s.threads.length := (List.getElem?_eq_some_iff.mp hi).1
        rw [List.getElem?_set_self hlt] at hj
        rw [← some.inj hj]; exact hlocal.2
      · rw [getElem?_set_ne (Ne.symm hji)] at hj
        exact hother j t hji hj
    · rw [hmore]
      exact fun hnil => h.hist_ne (append_eq_nil_iff.mp hnil).1

/-- **The cache is never stale** in a run in which no write overlaps another call's write and token
    read: whatever a `getBundle` has returned, some version from its beginning on shows it. -/
theorem never_stale_of_no_overlap (src : Source B T) (content : Option B) (es : List (Event B))
    (hno : Along (step src) NoOverlap (State.init content) es) :
    NeverStale src (run (step src) (State.init content) es) := by
  have hok := run_inv_along (I := StateOk src) (fun s ev hs hP => step_ok hs ev hP) es _
    (init_ok content) hno
  intro th hth b hb
  have := hok.threads th hth
  rw [hb] at this
  exact this

/-! ## Two instances -/

/-- Bundles are numbers, every version has its own number for token. -/
def numbered : Source Nat Nat where
  normalized := id
  hasLocations := fun _ => true
  legacy := 0
  versionToken := some
  token_inj := fun h h' => some.inj (h.trans h'.symm)

/-- One instance saves `1`, then another saves `2`, and both read: in every order the code allows
    for one of them at a time. -/
def turnByTurn : List (Event Nat) :=
  [.saveBundle 0 1, .adv 0, .adv 0, .adv 0, .adv 0, .saveBundle 1 2, .adv 1, .adv 1, .adv 1, .adv 1,
   .getBundle 0, .adv 2, .adv 2, .adv 2, .adv 2, .adv 2, .adv 2, .adv 2]

/-- The read returns what was saved last. -/
theorem never_stale_turnByTurn :
    NeverStale numbered (run (step numbered) (.init (some 0)) turnByTurn) ∧
      ((run (step numbered) (.init (some 0)) turnByTurn).threads[2]?.map Thread.pc) =
        some (.returned (some 2)) :=
  ⟨never_stale_of_no_overlap numbered (some 0) turnByTurn (by decide), rfl⟩

/-- The second instance's write falls between the first one's write and its token read: the first
    caches ITS bundle under the OTHER one's token. -/
def crossedWrites : List (Event Nat) :=
  [.saveBundle 0 1, .adv 0, .adv 0, .saveBundle 1 2, .adv 1, .adv 1, .adv 1, .adv 1,
   .adv 0, .adv 0, .getBundle 0, .adv 2, .adv 2]

/-- The read that follows both writes returns the first bundle. -/
theorem stale_after_crossed_writes :
    ¬ NeverStale numbered (run (step numbered) (.init (some 0)) crossedWrites) := by
  intro h
  obtain ⟨w, content, hw, hc, hs⟩ := h ⟨0, 2, .returned (some 1)⟩
    (mem_of_getElem? (i := 2) rfl) 1 rfl
  have hhist : (run (step numbered) (.init (some 0)) crossedWrites).shared.hist =
      [some 0, some 1, some 2] := rfl
  rw [hhist] at hc
  have hw2 : w = 2 := by
    have hlt : w < 3 := (List.getElem?_eq_some_iff.mp hc).1
    have hge : 2 ≤ w := hw
    omega
  subst hw2
  obtain rfl : some 2 = content := some.inj hc
  rcases hs with ⟨x, hx, h1⟩ | ⟨h1, -⟩
  · obtain rfl : 2 = x := some.inj hx
    rcases h1 with h1 | h1 <;> exact absurd h1 (by decide)
  · exact absurd h1 (by decide)

/-! ## One instance -/

/-- `mutationMutex`: of the calls of one instance at most one is inside. -/
def Exclusive (s : State B T) : Prop :=
  ∀ (i j : Nat) (a b : Thread B T), s.threads[i]? = some a → s.threads[j]? = some b →
    a.inst = b.inst →
    a.pc.holdsLock = true → b.pc.holdsLock = true → i = j

/-- A call comes to hold the mutex only where nobody did. -/
theorem advance_holdsLock (src : Source B T) (locked : Bool) (inst : Nat) (sh : Shared B T)
    (pc : Pc B T)
    (h : (advance src locked inst sh pc).2.holdsLock = true) : pc.holdsLock = true ∨
      locked = false := by
  fun_cases advance src locked inst sh pc <;> grind [Pc.holdsLock, advance]

/-- The mutex lets one thread in at a time. -/
theorem step_exclusive (h : Exclusive s) (ev : Event B) : Exclusive (step src s ev) := by
  fun_cases step src s ev with
  | case1 inst | case2 inst b | case3 inst f => grind [State.call, Exclusive, Pc.holdsLock]
  | case4 i hi => exact h
  | case5 i th hi sh pc hadv =>
    have hlock := advance_holdsLock src (s.locked th.inst) th.inst s.shared th.pc
    -- a newcomer found the mutex free, and nobody else has moved
    grind [Exclusive, State.locked]

omit [DecidableEq T] in
/-- With one instance that is enough. -/
theorem noOverlap_of_exclusive {k : Nat} (h : Exclusive s) (hone : ∀ th ∈ s.threads, th.inst = k)
    (ev : Event B) : NoOverlap s ev := by
  cases ev with
  | adv i =>
    intro hw
    rw [State.otherAwaits, any_eq_false]
    intro b hb
    have hfile : ∀ pc : Pc B T, pc.writes = true ∨ pc.awaitsToken = true → pc.holdsLock = true := by
      rintro ⟨⟩ <;> simp [Pc.writes, Pc.awaitsToken, Pc.holdsLock]
    obtain ⟨j, hji, hj⟩ := mem_eraseIdx_iff_getElem?.mp hb
    grind [Exclusive, State.writesNext]
  | _ => trivial

/-- The invariant, where there is one instance. -/
def SoloOk (src : Source B T) (k : Nat) (s : State B T) : Prop :=
  Exclusive s ∧ ((∀ th ∈ s.threads, th.inst = k) → StateOk src s)

theorem step_soloOk {k : Nat} (h : SoloOk src k s) (ev : Event B) :
    SoloOk src k (step src s ev) := by
  refine ⟨step_exclusive h.1 ev, fun hone => ?_⟩
  -- no step takes a call away or gives it to another instance
  have hbefore : ∀ th ∈ s.threads, th.inst = k := by
    intro th hth
    obtain ⟨j, hj⟩ := mem_iff_getElem?.mp hth
    have hkept : (step src s ev).threads[j]?.map Thread.inst = some th.inst := by
      fun_cases step src s ev <;> grind [State.call]
    grind
  exact step_ok (h.2 hbefore) ev (noOverlap_of_exclusive h.1 hbefore ev)

/-- **With one instance the cache is never stale**, in whatever order the calls' steps come. -/
theorem never_stale_one_instance (src : Source B T) (content : Option B) (k : Nat)
    (es : List (Event B))
    (hone : ∀ th ∈ (run (step src) (.init content) es).threads, th.inst = k) :
    NeverStale src (run (step src) (.init content) es) := by
  have hinv := run_inv (I := SoloOk src k) (fun _ ev h => step_soloOk h ev) es (.init content)
    ⟨by simp [Exclusive, State.init], fun _ => init_ok content⟩
  intro th hth b hb
  have := (hinv.2 hone).threads th hth
  rwa [hb] at this

/-- A read that begins during a mutation waits and returns what was written. -/
def behindMutation : List (Event Nat) :=
  [.mutate 0 (· + 1), .getBundle 0, .adv 0, .adv 1, .adv 1] ++ replicate 7 (.adv 0) ++
    replicate 3 (.adv 1)

/-- A read that waits for a mutation sees it. -/
theorem never_stale_behindMutation :
    NeverStale numbered (run (step numbered) (.init (some 0)) behindMutation) ∧
      (run (step numbered) (.init (some 0)) behindMutation).threads[1]?.map Thread.pc =
        some (.returned (some 1)) :=
  ⟨never_stale_one_instance numbered (some 0) 0 behindMutation (by decide), rfl⟩

end OlcVpn.BundleCache
