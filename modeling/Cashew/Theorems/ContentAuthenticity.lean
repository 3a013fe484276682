import Cashew.Gateway.ContentRenderer

/-!
# Is what the renderer serves what was asked for

Content that is fetched to be rendered is compared with the hash it was asked for by;
content that is fetched ahead of time goes into the cache unseen and is served from there.
The renderer is authentic as long as the cache is, and `prefetch` is the one call that can
spoil it (`content_authentic_iff`).
-/

namespace Cashew.Theorems.ContentAuthenticity

open Cashew Cashew.Lib ContentRenderer

variable {H : Bytes → Hash256} {sanitizeHtml : Bytes → Bytes} {r : ContentRenderer}
  {around : Surroundings} {contentHash : Hash256}

/-- The bytes from one position to another, both included. -/
def slice (data : Bytes) (first last : Nat) : Bytes := (data.drop first).take (last + 1 - first)

/-- A result for the hash: the content that has it, or the range of it that was asked for. -/
structure Authentic (H : Bytes → Hash256) (config : ContentRendererConfig) (contentHash : Hash256)
    (range : Option (Nat × Nat)) (result : RenderResult) : Prop where
  whole : result.isPartial = false → H result.data = contentHash
  ranged : result.isPartial = true → range = some (result.rangeStart, result.rangeEnd) ∧
    ∃ data, H data = contentHash ∧ result.rangeStart ≤ result.rangeEnd ∧
      result.rangeEnd < data.length ∧ result.data = slice data result.rangeStart result.rangeEnd
  asked : result.isPartial = (config.enableRangeRequests && range.isSome)

/-- Whatever is rendered now is authentic. -/
def ServesAuthentic (H : Bytes → Hash256) (sanitizeHtml : Bytes → Bytes) (r : ContentRenderer) :
    Prop :=
  ∀ around contentHash range result,
    (r.renderContent H sanitizeHtml around contentHash range).2 = some result →
      Authentic H r.config contentHash range result

/-- Every entry of the cache has the hash it is kept under. -/
def CacheAuthentic (H : Bytes → Hash256) (r : ContentRenderer) : Prop :=
  ∀ hash entry, r.cache.find? hash = some entry → H entry.data = hash

/-- A prefetch for content that is not there yet gets the content, or nothing. -/
def PrefetchSound (H : Bytes → Hash256) (r : ContentRenderer) :
    Surroundings × RendererInput → Prop
  | (around, .prefetch contentHash) =>
    r.cache.find? contentHash = none →
      ∀ data, around.fetch contentHash = some data → H data = contentHash
  | _ => True

/-! ## Results -/

/-- Without a file name nothing is taken for HTML. -/
theorem extractMetadata_type (now : TimePoint) (hash : Hash256) (data : Bytes) :
    (extractMetadata now hash data).type ≠ .html := by
  show detectContentType data ≠ .html
  unfold detectContentType
  simp only [Option.bind_none]
  split_ifs <;> simp

/-- So nothing is sanitized, and a result is the data or a slice of it. -/
theorem makeResult_authentic {config : ContentRendererConfig} {now : TimePoint}
    {range : Option (Nat × Nat)} {data : Bytes} {result : RenderResult}
    (hdata : H data = contentHash)
    (h : makeResult sanitizeHtml config now contentHash range data = some result) :
    Authentic H config contentHash range result := by
  have hplain : (config.sanitizeHtml &&
      (extractMetadata now contentHash data).type == .html) = false := by
    simp [extractMetadata_type]
  unfold makeResult at h
  simp only [hplain, Bool.false_eq_true, if_false] at h
  split at h
  · rename_i rangeStart rangeEnd hrange
    split at h
    · cases h
    · rename_i hvalid
      simp only [Bool.or_eq_true, decide_eq_true_eq, not_or, Nat.not_le, Nat.not_lt] at hvalid
      obtain ⟨henabled, rfl⟩ : config.enableRangeRequests = true ∧
          range = some (rangeStart, rangeEnd) := by
        simpa using hrange
      cases h
      refine ⟨fun hwhole => Bool.noConfusion hwhole, fun _ => ⟨rfl, data, hdata, ?_⟩, ?_⟩
      · exact ⟨hvalid.2, hvalid.1.2, rfl⟩
      · simp [henabled]
  · rename_i hrange
    cases h
    refine ⟨fun _ => hdata, fun hpart => Bool.noConfusion hpart, ?_⟩
    cases henabled : config.enableRangeRequests with
    | false => rfl
    | true =>
      rw [henabled, if_pos rfl] at hrange
      rw [hrange]
      rfl

/-- What is rendered comes from the cache, or was compared with the hash. -/
theorem obtainData_authentic (hcache : CacheAuthentic H r) {data : Bytes}
    (h : (r.obtainData H around contentHash).2 = some data) : H data = contentHash := by
  unfold obtainData getFromCache at h
  cases hfind : r.cache.find? contentHash with
  | some entry =>
    simp only [hfind, Option.some.injEq] at h
    rw [← h]
    exact hcache contentHash entry hfind
  | none =>
    simp only [hfind] at h
    cases hfetch : around.fetch contentHash with
    | none => simp [hfetch] at h
    | some fetched =>
      simp only [hfetch] at h
      split at h
      · cases h
      · rename_i hvalid
        simp only [Option.some.injEq] at h
        rw [← h]
        simpa [ContentIntegrityChecker.verifyContent] using hvalid

/-- **The renderer is authentic exactly as long as its cache is.** -/
theorem servesAuthentic_iff : ServesAuthentic H sanitizeHtml r ↔ CacheAuthentic H r := by
  constructor
  · intro hserves hash entry hfind
    -- rendering the whole entry shows it
    have hrender : ∃ result, (r.renderContent H sanitizeHtml
        ⟨fun _ => 0, fun _ => none, ⟨id, fun entries => .refl entries⟩⟩ hash none).2 =
          some result ∧ result.data = entry.data ∧ result.isPartial = false := by
      unfold renderContent obtainData getFromCache
      simp only [hfind]
      have hplain : (r.config.sanitizeHtml &&
          (extractMetadata 0 hash entry.data).type == .html) = false := by
        simp [extractMetadata_type]
      unfold makeResult
      simp only [hplain, Bool.false_eq_true, if_false, ite_self]
      exact ⟨_, rfl, rfl, rfl⟩
    obtain ⟨result, hresult, hdata, hwhole⟩ := hrender
    rw [← hdata]
    exact (hserves _ _ _ _ hresult).whole hwhole
  · intro hcache around hash range result h
    unfold renderContent at h
    cases hobtain : r.obtainData H around hash with
    | mk r' data =>
      rw [hobtain] at h
      cases data with
      | none => cases h
      | some data =>
        have hauthentic : H data = hash := by
          have hobtained : (r.obtainData H around hash).2 = some data := by rw [hobtain]
          exact obtainData_authentic hcache hobtained
        exact makeResult_authentic hauthentic h

/-! ## The cache -/

/-- Entries that go away do no harm. -/
theorem CacheAuthentic.of_subset {r' : ContentRenderer} (h : CacheAuthentic H r)
    (hsub : ∀ hash entry, r'.cache.find? hash = some entry → r.cache.find? hash = some entry) :
    CacheAuthentic H r' :=
  fun hash entry hfind => h hash entry (hsub hash entry hfind)

theorem cacheAuthentic_erase (h : CacheAuthentic H r) (hash : Hash256) (stats : CacheStatistics) :
    CacheAuthentic H { r with cache := r.cache.erase hash, stats } := by
  refine h.of_subset fun hash' entry hfind => ?_
  dsimp only at hfind
  rw [OrdMap.find?_erase] at hfind
  split at hfind
  · cases hfind
  · exact hfind

/-- A new entry counts by its data alone. -/
theorem cacheAuthentic_insert_iff (h : CacheAuthentic H r) {entry : CacheEntry} :
    CacheAuthentic H { r with cache := r.cache.insert contentHash entry } ↔
      H entry.data = contentHash := by
  constructor
  · exact fun hall => hall contentHash entry (OrdMap.find?_insert_self _ _ _)
  · intro hentry hash found hfind
    dsimp only at hfind
    rw [OrdMap.find?_insert] at hfind
    split at hfind
    · rename_i hsame
      cases hfind
      rw [← hsame]
      exact hentry
    · exact h hash found hfind

theorem evictLru_authentic (h : CacheAuthentic H r) (order : IterationOrder) :
    CacheAuthentic H (r.evictLru order) := by
  unfold evictLru
  split
  · exact h
  · exact cacheAuthentic_erase h _ _

theorem addToCache_authentic_iff (h : CacheAuthentic H r) {data : Bytes} :
    CacheAuthentic H (r.addToCache around contentHash data) ↔ H data = contentHash := by
  unfold addToCache
  dsimp only
  split
  · exact cacheAuthentic_insert_iff (evictLru_authentic h around.order)
  · exact cacheAuthentic_insert_iff h

theorem obtainData_cacheAuthentic (h : CacheAuthentic H r) :
    CacheAuthentic H (r.obtainData H around contentHash).1 := by
  unfold obtainData getFromCache
  cases hfind : r.cache.find? contentHash with
  | some entry => exact (cacheAuthentic_insert_iff h).mpr (h contentHash entry hfind)
  | none =>
    dsimp only
    cases around.fetch contentHash with
    | none => exact h
    | some data =>
      dsimp only
      split
      · exact h
      · rename_i hvalid
        refine (addToCache_authentic_iff h).mpr ?_
        simpa [ContentIntegrityChecker.verifyContent] using hvalid

theorem renderContent_fst (range : Option (Nat × Nat)) :
    (r.renderContent H sanitizeHtml around contentHash range).1 =
      (r.obtainData H around contentHash).1 := by
  unfold renderContent
  split
  · rename_i hobtain
    rw [hobtain]
  · rename_i hobtain
    rw [hobtain]

theorem prefetch_authentic_iff (h : CacheAuthentic H r) :
    CacheAuthentic H (r.prefetch around contentHash).1 ↔
      PrefetchSound H r (around, .prefetch contentHash) := by
  unfold prefetch isCached PrefetchSound
  cases hfind : r.cache.find? contentHash with
  | some entry => simp [OrdMap.contains, hfind, h]
  | none =>
    cases hfetch : around.fetch contentHash with
    | none => simp [OrdMap.contains, hfind, hfetch, h]
    | some data => simp [OrdMap.contains, hfind, hfetch, addToCache_authentic_iff h]

/-- Only a prefetch can spoil the cache. -/
theorem call_authentic_iff (input : Surroundings × RendererInput) (h : CacheAuthentic H r) :
    CacheAuthentic H ((rendererMachine H sanitizeHtml).step r input).1 ↔
      PrefetchSound H r input := by
  obtain ⟨around, input⟩ := input
  cases input with
  | prefetch contentHash => exact prefetch_authentic_iff h
  | renderContent contentHash range =>
    refine iff_of_true ?_ trivial
    show CacheAuthentic H (r.renderContent H sanitizeHtml around contentHash range).1
    rw [renderContent_fst]
    exact obtainData_cacheAuthentic h
  | invalidateCache contentHash =>
    refine iff_of_true ?_ trivial
    cases contentHash with
    | none => exact fun _ _ hfind => by cases hfind
    | some contentHash => exact cacheAuthentic_erase h contentHash r.stats
  | cleanupExpired =>
    refine iff_of_true (h.of_subset fun hash entry hfind => ?_) trivial
    change (r.cache.filter _).find? hash = some entry at hfind
    rw [OrdMap.find?_filter] at hfind
    exact (Option.filter_eq_some_iff.mp hfind).1

/-- **Authentic content.** All along a run everything the renderer would serve is authentic,
exactly when every prefetch of content that is not cached gets that content or nothing. -/
theorem content_authentic_iff (H : Bytes → Hash256) (sanitizeHtml : Bytes → Bytes)
    (config : ContentRendererConfig) (inputs : List (Surroundings × RendererInput)) :
    (rendererMachine H sanitizeHtml).Always (ServesAuthentic H sanitizeHtml) { config } inputs ↔
      (rendererMachine H sanitizeHtml).StepsMeet (PrefetchSound H) { config } inputs := by
  refine (rendererMachine H sanitizeHtml).always_iff (P := fun _ => True)
    (fun _ _ _ => trivial) (fun r input _ hserves => ?_) trivial ?_ inputs
  · rw [servesAuthentic_iff]
    exact call_authentic_iff input (servesAuthentic_iff.mp hserves)
  · exact servesAuthentic_iff.mpr fun _ _ hfind => by cases hfind

/-! ## A prefetch gone wrong -/

/-- A callback that returns the same byte for every hash. -/
def careless : Surroundings where
  now _ := 0
  fetch _ := some [7]
  order := ⟨id, fun entries => .refl entries⟩

/-- Prefetched under another hash, the byte is served for it. -/
theorem prefetched_byte_served :
    ¬ (rendererMachine sampleHash id).Always (ServesAuthentic sampleHash id) { config := {} }
      [(careless, .prefetch (sampleHash [8]))] := by
  intro halways
  have hserved : ∃ result, (ContentRenderer.renderContent sampleHash id
      ((rendererMachine sampleHash id).step { config := {} }
        (careless, .prefetch (sampleHash [8]))).1 careless (sampleHash [8]) none).2 =
        some result ∧ result.data = [7] ∧ result.isPartial = false := by
    exact ⟨_, rfl, rfl, rfl⟩
  obtain ⟨result, hresult, hdata, hwhole⟩ := hserved
  have hhash := (halways.2 _ _ _ _ hresult).whole hwhole
  rw [hdata] at hhash
  exact absurd hhash (by decide)

end Cashew.Theorems.ContentAuthenticity
