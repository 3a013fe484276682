import Cashew.Theorems.ContentAuthenticity

/-!
# What the content cache holds

`add_to_cache` compares the cache with two limits and makes room by evicting the entry that was
accessed longest ago. It evicts one entry, whatever is missing. For the number of items that is
enough (`items_kept`). For their size it is not: among as many calls as there are older
entries, nothing that one of them has brought is evicted, however large all of it is together
(`recent_stay`).
-/

namespace Cashew.Theorems.CacheLimits

open Cashew Cashew.Lib ContentRenderer
open ContentAuthenticity (renderContent_fst)

variable {H : Bytes → Hash256} {sanitizeHtml : Bytes → Bytes} {r : ContentRenderer}
  {around : Surroundings} {hash : Hash256}

/-! ## Eviction -/

/-- The loop of `evict_lru` ends with an entry it has seen, and none it has seen is older. -/
theorem foldl_lru (rest : List (Hash256 × CacheEntry)) (best : Hash256 × CacheEntry) :
    let found := rest.foldl (fun lru entry =>
      if entry.2.lastAccessed < lru.2.lastAccessed then entry else lru) best
    found ∈ best :: rest ∧ ∀ e ∈ best :: rest, found.2.lastAccessed ≤ e.2.lastAccessed := by
  induction rest generalizing best with
  | nil => simp
  | cons entry rest ih =>
    rw [List.foldl_cons]
    by_cases hless : entry.2.lastAccessed < best.2.lastAccessed
    · rw [if_pos hless]
      obtain ⟨hmem, hle⟩ := ih entry
      refine ⟨List.mem_cons_of_mem _ hmem, ?_⟩
      intro e he
      rcases List.mem_cons.mp he with rfl | he
      · exact (hle entry List.mem_cons_self).trans hless.le
      · exact hle e he
    · rw [if_neg hless]
      obtain ⟨hmem, hle⟩ := ih best
      refine ⟨?_, ?_⟩
      · rcases List.mem_cons.mp hmem with hbest | hrest
        · rw [hbest]
          exact List.mem_cons_self
        · exact List.mem_cons_of_mem _ (List.mem_cons_of_mem _ hrest)
      · intro e he
        rcases List.mem_cons.mp he with rfl | he
        · exact hle _ List.mem_cons_self
        · rcases List.mem_cons.mp he with rfl | he
          · exact (hle best List.mem_cons_self).trans (not_lt.mp hless)
          · exact hle e (List.mem_cons_of_mem _ he)

theorem leastRecent_spec {entries : List (Hash256 × CacheEntry)} {lru : Hash256 × CacheEntry}
    (h : leastRecent entries = some lru) :
    lru ∈ entries ∧ ∀ e ∈ entries, lru.2.lastAccessed ≤ e.2.lastAccessed := by
  cases entries with
  | nil => cases h
  | cons first rest =>
    cases Option.some_inj.mp h
    exact foldl_lru rest first

/-- What eviction does: nothing to an empty cache, and else it takes an oldest entry out. -/
theorem evictLru_cases (r : ContentRenderer) (order : IterationOrder) :
    r.cache.entries = [] ∧ r.evictLru order = r ∨
    ∃ oldest ∈ r.cache.entries,
      (∀ e ∈ r.cache.entries, oldest.2.lastAccessed ≤ e.2.lastAccessed) ∧
      r.evictLru order = { r with
        cache := r.cache.erase oldest.1
        stats := { r.stats with evictionCount := r.stats.evictionCount + 1 } } := by
  unfold evictLru
  cases hlru : leastRecent (order.visit r.cache.entries) with
  | none =>
    refine .inl ⟨?_, rfl⟩
    have hempty : order.visit r.cache.entries = [] := by
      cases hvisit : order.visit r.cache.entries with
      | nil => rfl
      | cons first rest =>
        rw [hvisit] at hlru
        cases hlru
    have hperm := order.perm r.cache.entries
    rw [hempty] at hperm
    exact hperm.symm.eq_nil
  | some lru =>
    obtain ⟨hmem, hle⟩ := leastRecent_spec hlru
    refine .inr ⟨lru, (order.perm _).mem_iff.mp hmem, ?_, rfl⟩
    intro e he
    exact hle e ((order.perm _).mem_iff.mpr he)

/-- An entry that is written over. -/
theorem insert_perm_of_mem {m : OrdMap Hash256 CacheEntry} {entry : CacheEntry}
    (h : m.find? hash = some entry) (entry' : CacheEntry) :
    ∃ rest, m.entries.Perm ((hash, entry) :: rest) ∧
      (m.insert hash entry').entries.Perm ((hash, entry') :: rest) := by
  have hgone : (m.erase hash).find? hash = none := by
    rw [OrdMap.find?_erase, if_pos rfl]
  have hsame : m.insert hash entry' = (m.erase hash).insert hash entry' := by
    apply OrdMap.ext
    intro k
    rw [OrdMap.find?_insert, OrdMap.find?_insert, OrdMap.find?_erase]
    split <;> rfl
  refine ⟨(m.erase hash).entries, OrdMap.entries_erase_perm h, ?_⟩
  rw [hsame]
  exact OrdMap.entries_insert_perm hgone entry'

/-! ## What a call does -/

/-- Between two states an entry was added, after at most one of the oldest had been evicted. -/
structure Adds (r : ContentRenderer) (hash : Hash256) (entry : CacheEntry) (r' : ContentRenderer) :
    Prop where
  config : r'.config = r.config
  hits : r'.stats.hitCount = r.stats.hitCount
  misses : r'.stats.missCount = r.stats.missCount
  items :
    (r.cache.entries = [] ∨ r.cache.entries.length < r.config.maxCachedItems) ∧
      r'.cache.entries.Perm ((hash, entry) :: r.cache.entries) ∧
      r'.stats.evictionCount = r.stats.evictionCount ∨
    ∃ oldest rest, r.cache.entries.Perm (oldest :: rest) ∧
      (∀ e ∈ r.cache.entries, oldest.2.lastAccessed ≤ e.2.lastAccessed) ∧
      r'.cache.entries.Perm ((hash, entry) :: rest) ∧
      r'.stats.evictionCount = r.stats.evictionCount + 1

/-- The entry that `add_to_cache` makes. -/
def newEntry (around : Surroundings) (hash : Hash256) (data : Bytes) : CacheEntry where
  metadata := extractMetadata (around.now 0) hash data
  data := data
  cachedAt := around.now 1
  lastAccessed := around.now 1

theorem addToCache_adds (hnew : r.cache.find? hash = none) (data : Bytes) :
    Adds r hash (newEntry around hash data) (r.addToCache around hash data) := by
  unfold addToCache
  dsimp only
  split
  · rcases evictLru_cases r around.order with ⟨hempty, hsame⟩ | ⟨oldest, hmem, hle, hevict⟩
    · rw [hsame]
      exact ⟨rfl, rfl, rfl, .inl ⟨.inl hempty, OrdMap.entries_insert_perm hnew _, rfl⟩⟩
    · rw [hevict]
      have hgone : (r.cache.erase oldest.1).find? hash = none := by
        rw [OrdMap.find?_erase, hnew, ite_self]
      refine ⟨rfl, rfl, rfl, .inr ⟨oldest, (r.cache.erase oldest.1).entries, ?_, hle, ?_, rfl⟩⟩
      · exact OrdMap.entries_erase_perm (OrdMap.mem_entries.mp hmem)
      · exact OrdMap.entries_insert_perm hgone _
  · rename_i hroom
    refine ⟨rfl, rfl, rfl, .inl ⟨.inr ?_, OrdMap.entries_insert_perm hnew _, rfl⟩⟩
    simp only [Bool.or_eq_true, decide_eq_true_eq, not_or, not_le] at hroom
    exact hroom.2

/-- What a call that asks for content does to the renderer, and what it gets. -/
inductive Obtains (around : Surroundings) (hash : Hash256) (r : ContentRenderer) :
    ContentRenderer → Option Bytes → Prop
  | hit (r' : ContentRenderer) (entry : CacheEntry) (rest : List (Hash256 × CacheEntry))
      (before : r.cache.entries.Perm ((hash, entry) :: rest))
      (after : r'.cache.entries.Perm ((hash, { entry with
        lastAccessed := around.now 0
        accessCount := entry.accessCount + 1 }) :: rest))
      (config : r'.config = r.config) (hits : r'.stats.hitCount = r.stats.hitCount + 1)
      (misses : r'.stats.missCount = r.stats.missCount)
      (evictions : r'.stats.evictionCount = r.stats.evictionCount) :
      Obtains around hash r r' (some entry.data)
  | nothing : Obtains around hash r r.countMiss none
  | fetched (r' : ContentRenderer) (data : Bytes) (new : r.cache.find? hash = none)
      (adds : Adds r hash (newEntry around hash data) r') :
      Obtains around hash r r'.countMiss (some data)

theorem obtainData_obtains :
    Obtains around hash r (r.obtainData H around hash).1 (r.obtainData H around hash).2 := by
  unfold obtainData getFromCache
  cases hfind : r.cache.find? hash with
  | some entry =>
    obtain ⟨rest, hbefore, hafter⟩ := insert_perm_of_mem hfind { entry with
      lastAccessed := around.now 0
      accessCount := entry.accessCount + 1 }
    exact .hit _ entry rest hbefore hafter rfl rfl rfl rfl
  | none =>
    dsimp only
    cases hfetch : around.fetch hash with
    | none => exact .nothing
    | some data =>
      dsimp only
      split
      · exact .nothing
      · exact .fetched _ data hfind (addToCache_adds hfind data)

/-! ## The number of items -/

/-- The calls that ask for content to render it. -/
def renders (inputs : List (Surroundings × RendererInput)) : ℕ :=
  inputs.countP fun
    | (_, .renderContent _ _) => true
    | _ => false

/-- The calls that ask for content ahead of time. -/
def prefetches (inputs : List (Surroundings × RendererInput)) : ℕ :=
  inputs.countP fun
    | (_, .prefetch _) => true
    | _ => false

/-- The cache keeps its limit, every rendering has been counted, and what is in the cache or has
been evicted from it was asked for. -/
structure Counted (config : ContentRendererConfig) (past : List (Surroundings × RendererInput))
    (r : ContentRenderer) : Prop where
  sameConfig : r.config = config
  items : r.cache.entries.length ≤ max 1 config.maxCachedItems
  rendered : r.stats.hitCount + r.stats.missCount = renders past
  asked : r.cache.entries.length + r.stats.evictionCount ≤ r.stats.missCount + prefetches past

theorem Adds.length_le {entry : CacheEntry} {r' : ContentRenderer} (h : Adds r hash entry r')
    (hitems : r.cache.entries.length ≤ max 1 r.config.maxCachedItems) :
    r'.cache.entries.length ≤ max 1 r.config.maxCachedItems := by
  rcases h.items with ⟨hroom, hafter, -⟩ | ⟨oldest, rest, hbefore, -, hafter, -⟩
  · rw [hafter.length_eq, List.length_cons]
    rcases hroom with hempty | hroom
    · rw [hempty, List.length_nil]
      omega
    · omega
  · rw [hafter.length_eq, List.length_cons]
    rw [hbefore.length_eq, List.length_cons] at hitems
    exact hitems

theorem Adds.sum_eq {entry : CacheEntry} {r' : ContentRenderer} (h : Adds r hash entry r') :
    r'.cache.entries.length + r'.stats.evictionCount =
      r.cache.entries.length + r.stats.evictionCount + 1 := by
  rcases h.items with ⟨-, hafter, hevictions⟩ | ⟨oldest, rest, hbefore, -, hafter, hevictions⟩
  · rw [hafter.length_eq, hevictions, List.length_cons]
    omega
  · rw [hafter.length_eq, hbefore.length_eq, hevictions, List.length_cons, List.length_cons]
    omega

variable {config : ContentRendererConfig} {past : List (Surroundings × RendererInput)}

/-- A call that only takes entries out. -/
theorem Counted.shrink (h : Counted config past r) {input : Surroundings × RendererInput}
    {r' : ContentRenderer} (hrenders : renders (past ++ [input]) = renders past)
    (hprefetches : prefetches (past ++ [input]) = prefetches past) (hconfig : r'.config = r.config)
    (hstats : r'.stats = r.stats)
    (hless : r'.cache.entries.length ≤ r.cache.entries.length) :
    Counted config (past ++ [input]) r' := by
  have hitems := h.items
  have hasked := h.asked
  refine ⟨hconfig.trans h.sameConfig, by omega, ?_, ?_⟩
  · rw [hstats, hrenders]
    exact h.rendered
  · rw [hstats, hprefetches]
    omega

theorem Counted.render (h : Counted config past r) (range : Option (Nat × Nat)) :
    Counted config (past ++ [(around, .renderContent hash range)])
      (r.obtainData H around hash).1 := by
  have hrenders : renders (past ++ [(around, .renderContent hash range)]) = renders past + 1 := by
    simp [renders]
  have hprefetches : prefetches (past ++ [(around, .renderContent hash range)]) =
      prefetches past := by
    simp [prefetches]
  have hitems := h.items
  have hrendered := h.rendered
  have hasked := h.asked
  have hobtains : Obtains around hash r (r.obtainData H around hash).1
      (r.obtainData H around hash).2 := obtainData_obtains
  generalize (r.obtainData H around hash).1 = r' at hobtains ⊢
  generalize (r.obtainData H around hash).2 = got at hobtains
  cases hobtains with
  -- the entry moves to the front, and the number of entries stays
  | hit _ entry rest hbefore hafter hconfig hhits hmisses hevictions =>
    have hlength : r'.cache.entries.length = r.cache.entries.length := by
      rw [hafter.length_eq, hbefore.length_eq]
      rfl
    refine ⟨hconfig.trans h.sameConfig, by omega, ?_, ?_⟩
    · rw [hhits, hmisses, hrenders]
      omega
    · rw [hmisses, hevictions, hprefetches, hlength]
      exact hasked
  -- a miss that brings nothing into the cache
  | nothing =>
    refine ⟨h.sameConfig, hitems, ?_, ?_⟩
    · rw [hrenders, ← hrendered]
      rfl
    · rw [hprefetches]
      show _ ≤ r.stats.missCount + 1 + prefetches past
      have hsame : r.countMiss.cache.entries.length + r.countMiss.stats.evictionCount =
          r.cache.entries.length + r.stats.evictionCount := rfl
      omega
  -- a miss that may bring one entry in, and drive others out
  | fetched r' data hnew hadds =>
    have hsum := hadds.sum_eq
    rw [← h.sameConfig] at hitems
    have hlength := hadds.length_le hitems
    rw [h.sameConfig] at hlength
    refine ⟨hadds.config.trans h.sameConfig, hlength, ?_, ?_⟩
    · show r'.stats.hitCount + (r'.stats.missCount + 1) = _
      rw [hadds.hits, hadds.misses, hrenders]
      omega
    · show r'.cache.entries.length + r'.stats.evictionCount ≤ r'.stats.missCount + 1 + _
      rw [hadds.misses, hprefetches]
      omega

theorem Counted.prefetch (h : Counted config past r) :
    Counted config (past ++ [(around, .prefetch hash)]) (r.prefetch around hash).1 := by
  have hrenders : renders (past ++ [(around, .prefetch hash)]) = renders past := by
    simp [renders]
  have hprefetches : prefetches (past ++ [(around, .prefetch hash)]) = prefetches past + 1 := by
    simp [prefetches]
  have hitems := h.items
  have hasked := h.asked
  have hsame : Counted config (past ++ [(around, .prefetch hash)]) r := by
    refine ⟨h.sameConfig, hitems, ?_, ?_⟩
    · rw [hrenders]
      exact h.rendered
    · rw [hprefetches]
      omega
  unfold ContentRenderer.prefetch
  split
  · exact hsame
  · rename_i hnew
    cases hfetch : around.fetch hash with
    | none => exact hsame
    | some data =>
      have hadds : Adds r hash (newEntry around hash data) (r.addToCache around hash data) := by
        apply addToCache_adds
        simpa [isCached, OrdMap.contains] using hnew
      dsimp only
      have hsum := hadds.sum_eq
      rw [← h.sameConfig] at hitems
      have hlength := hadds.length_le hitems
      rw [h.sameConfig] at hlength
      refine ⟨hadds.config.trans h.sameConfig, hlength, ?_, ?_⟩
      · rw [hadds.hits, hadds.misses, hrenders]
        exact h.rendered
      · rw [hadds.misses, hprefetches]
        omega

theorem Counted.step (h : Counted config past r) (input : Surroundings × RendererInput) :
    Counted config (past ++ [input]) ((rendererMachine H sanitizeHtml).step r input).1 := by
  obtain ⟨around, input⟩ := input
  cases input with
  | renderContent hash range =>
    show Counted config _ (r.renderContent H sanitizeHtml around hash range).1
    rw [renderContent_fst]
    exact h.render range
  | prefetch hash => exact h.prefetch
  | invalidateCache hash =>
    refine h.shrink (by simp [renders]) (by simp [prefetches]) ?_ ?_ ?_
    · cases hash <;> rfl
    · cases hash <;> rfl
    · cases hash with
      | none => exact Nat.zero_le _
      | some hash => exact List.length_filter_le _ _
  | cleanupExpired =>
    refine h.shrink (by simp [renders]) (by simp [prefetches]) rfl rfl ?_
    exact List.length_filter_le _ _

/-- **The number of items is kept.** In every run the cache holds at most as many entries as it
may, or one where it may hold none; hits and misses together are the renderings; and entries and
evictions together are no more than what was asked for and not found. -/
theorem items_kept (H : Bytes → Hash256) (sanitizeHtml : Bytes → Bytes)
    (config : ContentRendererConfig) (inputs : List (Surroundings × RendererInput)) :
    Counted config inputs ((rendererMachine H sanitizeHtml).run ⟨config, .empty, {}⟩ inputs).1 := by
  apply Machine.run_past_invariant
  · refine ⟨rfl, Nat.zero_le _, rfl, Nat.zero_le _⟩
  · intro past s input h
    exact h.step input

/-! ## Their size -/

variable {t : TimePoint} {data : Bytes}

/-- The entries that were accessed last before some time. -/
def oldEntries (t : TimePoint) (r : ContentRenderer) : ℕ :=
  r.cache.entries.countP fun e => e.2.lastAccessed < t

/-- The content is in the cache and was accessed since. -/
def Holds (t : TimePoint) (r : ContentRenderer) (hash : Hash256) (data : Bytes) : Prop :=
  ∃ entry, (hash, entry) ∈ r.cache.entries ∧ entry.data = data ∧ t ≤ entry.lastAccessed

/-- A call that asks for content, at that time or later. -/
def AsksSince (t : TimePoint) : Surroundings × RendererInput → Prop
  | (around, .renderContent _ _) => ∀ n, t ≤ around.now n
  | (around, .prefetch _) => ∀ n, t ≤ around.now n
  | _ => False

/-- A call that gets content which it renders, or which is new to the cache. -/
def Brings (H : Bytes → Hash256) (r : ContentRenderer) (hash : Hash256) (data : Bytes) :
    Surroundings × RendererInput → Prop
  | (around, .renderContent asked _) =>
    asked = hash ∧ (r.obtainData H around asked).2 = some data
  | (around, .prefetch asked) =>
    asked = hash ∧ r.cache.find? asked = none ∧ around.fetch asked = some data
  | _ => False

/-- What one step does as long as there are old entries: it uses up one of them at most, keeps
what has been accessed since, and keeps what it brings. -/
structure UsesOld (t : TimePoint) (r r' : ContentRenderer) (brings : Hash256 → Bytes → Prop) :
    Prop where
  old : oldEntries t r ≤ oldEntries t r' + 1
  keeps : ∀ hash data, Holds t r hash data → Holds t r' hash data
  brought : ∀ hash data, brings hash data → Holds t r' hash data

/-- A call that leaves the cache alone and brings nothing. -/
theorem usesOld_of_cache_eq {r' : ContentRenderer} {brings : Hash256 → Bytes → Prop}
    (hsame : r'.cache = r.cache) (hnothing : ∀ hash data, ¬ brings hash data) :
    UsesOld t r r' brings where
  old := by
    unfold oldEntries
    rw [hsame]
    exact Nat.le_succ _
  keeps hash data hholds := by
    unfold Holds
    rw [hsame]
    exact hholds
  brought hash data hbrings := absurd hbrings (hnothing hash data)

/-- An addition evicts an old entry, if it evicts one. -/
theorem Adds.usesOld {entry : CacheEntry} {r' : ContentRenderer} (h : Adds r hash entry r')
    (hold : 0 < oldEntries t r) (hnew : t ≤ entry.lastAccessed) :
    UsesOld t r r' fun hash' data => hash' = hash ∧ data = entry.data := by
  have hyoung : ¬ entry.lastAccessed < t := not_lt.mpr hnew
  rcases h.items with ⟨-, hafter, -⟩ | ⟨oldest, rest, hbefore, hle, hafter, -⟩
  · refine ⟨?_, ?_, ?_⟩
    · unfold oldEntries
      rw [hafter.countP_eq, List.countP_cons]
      omega
    · rintro hash' data ⟨entry', hmem, hdata⟩
      exact ⟨entry', hafter.mem_iff.mpr (List.mem_cons_of_mem _ hmem), hdata⟩
    · rintro hash' data ⟨rfl, rfl⟩
      exact ⟨entry, hafter.mem_iff.mpr List.mem_cons_self, rfl, hnew⟩
  · -- some entry is old, so the oldest one is
    have hevicted : oldest.2.lastAccessed < t := by
      obtain ⟨e, he, hbefore'⟩ := List.countP_pos_iff.mp hold
      exact (hle e he).trans_lt (of_decide_eq_true hbefore')
    refine ⟨?_, ?_, ?_⟩
    · unfold oldEntries
      rw [hafter.countP_eq, hbefore.countP_eq, List.countP_cons, List.countP_cons]
      simp [hevicted, hyoung]
    · rintro hash' data ⟨entry', hmem, hdata, hsince⟩
      rcases List.mem_cons.mp (hbefore.mem_iff.mp hmem) with hsame | hrest
      · rw [← hsame] at hevicted
        exact absurd hsince (not_le.mpr hevicted)
      · exact ⟨entry', hafter.mem_iff.mpr (List.mem_cons_of_mem _ hrest), hdata, hsince⟩
    · rintro hash' data ⟨rfl, rfl⟩
      exact ⟨entry, hafter.mem_iff.mpr List.mem_cons_self, rfl, hnew⟩

theorem Obtains.usesOld {r' : ContentRenderer} {got : Option Bytes}
    (h : Obtains around hash r r' got) (hold : 0 < oldEntries t r) (hnow : ∀ n, t ≤ around.now n) :
    UsesOld t r r' fun hash' data => hash = hash' ∧ got = some data := by
  cases h with
  | hit _ entry rest hbefore hafter =>
    have hyoung : ¬ around.now 0 < t := not_lt.mpr (hnow 0)
    refine ⟨?_, ?_, ?_⟩
    · unfold oldEntries
      rw [hafter.countP_eq, hbefore.countP_eq, List.countP_cons, List.countP_cons]
      simp only [hyoung, decide_false, Bool.false_eq_true, if_false]
      split <;> omega
    · rintro hash' data ⟨entry', hmem, hdata, hsince⟩
      rcases List.mem_cons.mp (hbefore.mem_iff.mp hmem) with hsame | hrest
      · cases hsame
        exact ⟨_, hafter.mem_iff.mpr List.mem_cons_self, hdata, hnow 0⟩
      · exact ⟨entry', hafter.mem_iff.mpr (List.mem_cons_of_mem _ hrest), hdata, hsince⟩
    · rintro hash' data ⟨rfl, hgot⟩
      exact ⟨_, hafter.mem_iff.mpr List.mem_cons_self, Option.some_inj.mp hgot, hnow 0⟩
  | nothing =>
    have hnone : ∀ hash' data, ¬ (hash = hash' ∧ (none : Option Bytes) = some data) := by simp
    exact usesOld_of_cache_eq rfl hnone
  | fetched r' data hnew hadds =>
    obtain ⟨huses, hkeeps, hbrought⟩ := hadds.usesOld hold (hnow 1)
    refine ⟨huses, hkeeps, ?_⟩
    rintro hash' data' ⟨rfl, hgot⟩
    exact hbrought hash data' ⟨rfl, (Option.some_inj.mp hgot).symm⟩

theorem step_usesOld {input : Surroundings × RendererInput} (hasks : AsksSince t input)
    (hold : 0 < oldEntries t r) :
    UsesOld t r ((rendererMachine H sanitizeHtml).step r input).1
      fun hash data => Brings H r hash data input := by
  obtain ⟨around, input⟩ := input
  cases input with
  | renderContent asked range =>
    show UsesOld t r (r.renderContent H sanitizeHtml around asked range).1 _
    rw [renderContent_fst]
    exact obtainData_obtains.usesOld hold hasks
  | prefetch asked =>
    show UsesOld t r (r.prefetch around asked).1 _
    unfold ContentRenderer.prefetch
    cases hfind : r.cache.find? asked with
    | some entry =>
      -- it is there: nothing is fetched and nothing brought
      have hcached : r.isCached asked = true := by simp [isCached, OrdMap.contains, hfind]
      rw [if_pos hcached]
      refine usesOld_of_cache_eq rfl ?_
      rintro hash data ⟨-, hnone, -⟩
      rw [hfind] at hnone
      cases hnone
    | none =>
      have hcached : ¬ r.isCached asked = true := by simp [isCached, OrdMap.contains, hfind]
      rw [if_neg hcached]
      cases hfetch : around.fetch asked with
      | none =>
        refine usesOld_of_cache_eq rfl ?_
        rintro hash data ⟨-, -, hsome⟩
        rw [hfetch] at hsome
        cases hsome
      -- the data is added as after a miss
      | some data =>
        obtain ⟨huses, hkeeps, hbrought⟩ :=
          (addToCache_adds hfind data).usesOld hold (hasks 1)
        refine ⟨huses, hkeeps, ?_⟩
        rintro hash data' ⟨rfl, -, hsome⟩
        rw [hfetch] at hsome
        exact hbrought asked data' ⟨rfl, (Option.some_inj.mp hsome).symm⟩
  | invalidateCache asked => exact hasks.elim
  | cleanupExpired => exact hasks.elim

/-- Along a run of no more calls than there are old entries. -/
theorem run_usesOld {inputs : List (Surroundings × RendererInput)}
    (hasks : ∀ input ∈ inputs, AsksSince t input) (hfew : inputs.length ≤ oldEntries t r) :
    oldEntries t r ≤
        oldEntries t ((rendererMachine H sanitizeHtml).run r inputs).1 + inputs.length ∧
      ∀ hash data, Holds t r hash data →
        Holds t ((rendererMachine H sanitizeHtml).run r inputs).1 hash data := by
  induction inputs generalizing r with
  | nil => exact ⟨Nat.le_refl _, fun _ _ h => h⟩
  | cons input rest ih =>
    rw [List.length_cons] at hfew
    have hstep : UsesOld t r ((rendererMachine H sanitizeHtml).step r input).1 _ :=
      step_usesOld (hasks input List.mem_cons_self) (by omega)
    have hold := hstep.old
    have hroom : rest.length ≤
        oldEntries t ((rendererMachine H sanitizeHtml).step r input).1 := by
      omega
    obtain ⟨hlater, hkeeps⟩ := ih (fun i hi => hasks i (List.mem_cons_of_mem _ hi)) hroom
    rw [Machine.run, List.length_cons]
    dsimp only
    refine ⟨by omega, ?_⟩
    intro hash data hholds
    exact hkeeps hash data (hstep.keeps hash data hholds)

/-- The bytes in the cache, as `add_to_cache` counts them. -/
def cachedBytes (r : ContentRenderer) : ℕ := (r.cache.entries.map (·.2.data.length)).sum

/-- Contents that are all in the cache are counted together. -/
theorem sum_le_cachedBytes {contents : List (Hash256 × Bytes)}
    (hnodup : (contents.map Prod.fst).Nodup)
    (hholds : ∀ c ∈ contents, Holds t r c.1 c.2) :
    (contents.map (·.2.length)).sum ≤ cachedBytes r := by
  have hsub : (contents.map fun c => (c.1, c.2.length)) ⊆
      r.cache.entries.map fun e => (e.1, e.2.data.length) := by
    intro pair hpair
    obtain ⟨c, hc, rfl⟩ := List.mem_map.mp hpair
    obtain ⟨entry, hmem, hdata, -⟩ := hholds c hc
    rw [← hdata]
    exact List.mem_map_of_mem hmem
  have hnodup' : (contents.map fun c => (c.1, c.2.length)).Nodup := by
    refine List.Nodup.of_map Prod.fst ?_
    rw [List.map_map]
    exact hnodup
  obtain ⟨part, hperm, hpart⟩ := List.subperm_of_subset hnodup' hsub
  have hle : (part.map Prod.snd).sum ≤
      ((r.cache.entries.map fun e => (e.1, e.2.data.length)).map Prod.snd).sum :=
    (hpart.map Prod.snd).sum_le_sum fun _ _ => Nat.zero_le _
  have hsum := (hperm.map Prod.snd).sum_eq
  rw [List.map_map] at hle hsum
  rw [hsum] at hle
  exact hle

/-- **Nothing recent is evicted**, whatever its size. In a run of renderings and prefetches, no
more of them than there are entries from before the run, everything that a call has brought is in
the cache at the end, and the cache has the size of all of it. -/
theorem recent_stay (H : Bytes → Hash256) (sanitizeHtml : Bytes → Bytes)
    {inputs : List (Surroundings × RendererInput)} (hasks : ∀ input ∈ inputs, AsksSince t input)
    (hfew : inputs.length ≤ oldEntries t r) (contents : List (Hash256 × Bytes))
    (hnodup : (contents.map Prod.fst).Nodup)
    (hbrought : ∀ c ∈ contents, ∃ front input back, inputs = front ++ input :: back ∧
      Brings H ((rendererMachine H sanitizeHtml).run r front).1 c.1 c.2 input) :
    (∀ c ∈ contents, ∃ entry,
      ((rendererMachine H sanitizeHtml).run r inputs).1.cache.find? c.1 = some entry ∧
        entry.data = c.2) ∧
    (contents.map (·.2.length)).sum ≤
      cachedBytes ((rendererMachine H sanitizeHtml).run r inputs).1 := by
  have hholds : ∀ c ∈ contents,
      Holds t ((rendererMachine H sanitizeHtml).run r inputs).1 c.1 c.2 := by
    intro c hc
    obtain ⟨front, input, back, rfl, hbrings⟩ := hbrought c hc
    rw [List.length_append, List.length_cons] at hfew
    obtain ⟨hold, -⟩ := @run_usesOld H sanitizeHtml r t front
      (fun i hi => hasks i (List.mem_append_left _ hi)) (by omega)
    -- there are old entries left for this call and for those after it
    have hstep := @step_usesOld H sanitizeHtml
      ((rendererMachine H sanitizeHtml).run r front).1 t input (hasks input (by simp)) (by omega)
    have hnext := hstep.old
    obtain ⟨-, hkeeps⟩ := @run_usesOld H sanitizeHtml
      ((rendererMachine H sanitizeHtml).run r (front ++ [input])).1 t back
      (fun i hi => hasks i (by simp [hi])) (by
        rw [Machine.run_append]
        show back.length ≤ oldEntries t ((rendererMachine H sanitizeHtml).step _ input).1
        omega)
    have hend := hkeeps c.1 c.2 (by
      rw [Machine.run_append]
      exact hstep.brought c.1 c.2 hbrings)
    rw [← Machine.run_append, List.append_assoc] at hend
    exact hend
  refine ⟨?_, sum_le_cachedBytes hnodup hholds⟩
  intro c hc
  obtain ⟨entry, hmem, hdata, -⟩ := hholds c hc
  exact ⟨entry, OrdMap.mem_entries.mp hmem, hdata⟩

/-- What a call meets at second `now`, with content of `size` bytes to fetch. -/
def fetching (now : Int) (size : ℕ) : Surroundings where
  now _ := now
  fetch _ := some (List.replicate size 0)
  order := ⟨id, fun _ => .refl _⟩

/-- A cache for 100 bytes, with an item of one byte from second 0. -/
def smallCache : ContentRenderer :=
  ContentRenderer.addToCache ⟨{ maxCacheSizeBytes := 100 }, .empty, {}⟩ (fetching 0 1)
    (sampleHash [1]) [0]

/-- A thousand bytes are fetched into it. -/
theorem thousand_bytes_stay :
    1000 ≤ cachedBytes ((rendererMachine sampleHash id).run smallCache
      [(fetching 5 1000, .prefetch (sampleHash [2]))]).1 := by
  have hasks : ∀ input ∈ [(fetching 5 1000, RendererInput.prefetch (sampleHash [2]))],
      AsksSince 5 input := by
    intro input hinput
    rw [List.mem_singleton.mp hinput]
    exact fun _ => Int.le_refl 5
  have hold : 1 ≤ oldEntries 5 smallCache := by decide +kernel
  have hnew : smallCache.cache.find? (sampleHash [2]) = none := by decide +kernel
  have hstay := recent_stay sampleHash id hasks hold
    [(sampleHash [2], List.replicate 1000 0)] (List.nodup_singleton _) (by
      intro c hc
      rw [List.mem_singleton.mp hc]
      exact ⟨[], _, [], rfl, rfl, hnew, rfl⟩)
  have hsize : ([(sampleHash [2], List.replicate 1000 (0 : UInt8))].map (·.2.length)).sum =
      1000 := by
    rw [List.map_singleton, List.sum_singleton, List.length_replicate]
  exact (Nat.le_of_eq hsize.symm).trans hstay.2

end Cashew.Theorems.CacheLimits
