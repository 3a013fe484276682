import Cashew.Security.ContentIntegrity
import Cashew.Lib.Machine

/-!
# The content renderer

`ContentRenderer` of `gateway/content_renderer.cpp`: content is asked for by its hash,
fetched by a callback and kept in a cache. What a call meets outside is its `Surroundings`:
the clock, what the callback returns and the order in which the cache is gone through.

`sanitize_html` has a module of its own; here it is a parameter, and content that comes
without a file name is never taken for HTML (`extractMetadata_type`). Streaming is a loop
over a result of `render_content`.
-/

namespace Cashew

open Cashew.Lib

/-- `std::chrono::system_clock::time_point`, in nanoseconds. -/
abbrev TimePoint := Int

/-- `duration_cast<seconds>`, which rounds towards zero. -/
def inSeconds (duration : Int) : Int := duration.tdiv 1000000000

/-- `ContentType`. -/
inductive ContentType where
  | html
  | javascript
  | css
  | imagePng
  | imageJpeg
  | imageGif
  | imageWebp
  | videoMp4
  | videoWebm
  | audioMp3
  | audioOgg
  | json
  | text
  | binary
  | unknown
  deriving DecidableEq

/-- `ContentMetadata`, without the file name that is never set. -/
structure ContentMetadata where
  contentHash : Hash256
  type : ContentType
  sizeBytes : Nat
  mimeType : String
  lastModified : TimePoint
  isCacheable : Bool := true
  deriving DecidableEq

/-- `CacheEntry`. -/
structure CacheEntry where
  metadata : ContentMetadata
  data : Bytes
  cachedAt : TimePoint
  lastAccessed : TimePoint
  accessCount : Nat := 0
  deriving DecidableEq

/-- `ContentRendererConfig`, the part that rendering reads. -/
structure ContentRendererConfig where
  maxCacheSizeBytes : Nat := 100 * 1024 * 1024
  maxCachedItems : Nat := 1000
  cacheTtl : Int := 3600
  enableRangeRequests : Bool := true
  sanitizeHtml : Bool := true

/-- `ContentRenderer::CacheStatistics`, the counters. -/
structure CacheStatistics where
  hitCount : Nat := 0
  missCount : Nat := 0
  evictionCount : Nat := 0

/-- `ContentRenderer`. -/
structure ContentRenderer where
  config : ContentRendererConfig
  cache : OrdMap Hash256 CacheEntry := .empty
  stats : CacheStatistics := {}

/-- `ContentRenderer::RenderResult`. -/
structure RenderResult where
  metadata : ContentMetadata
  data : Bytes
  isPartial : Bool := false
  rangeStart : Nat := 0
  rangeEnd : Nat := 0
  deriving DecidableEq

/-- An order in which a `std::unordered_map` may be gone through. -/
structure IterationOrder where
  visit : List (Hash256 × CacheEntry) → List (Hash256 × CacheEntry)
  perm : ∀ entries, (visit entries).Perm entries

/-- What a call meets outside. The callback returns nothing where there is none, or where it
throws. -/
structure Surroundings where
  now : Nat → TimePoint
  fetch : Hash256 → Option Bytes
  order : IterationOrder

namespace ContentRenderer

/-! ## Types of content -/

/-- `PNG_MAGIC`, `JPEG_MAGIC`, `GIF_MAGIC` and `WEBP_MAGIC`. -/
def pngMagic : Bytes := [0x89, 0x50, 0x4e, 0x47]
def jpegMagic : Bytes := [0xff, 0xd8, 0xff]
def gifMagic : Bytes := [0x47, 0x49, 0x46]
def webpMagic : Bytes := [0x52, 0x49, 0x46, 0x46]

/-- `has_extension`. -/
def hasExtension (filename : Text) (ext : String) : Bool :=
  (Text.ofString ext).bytes.isSuffixOf filename.bytes

/-- The file name's part in `detect_content_type`. -/
def typeFromFilename (filename : Text) : Option ContentType :=
  if hasExtension filename ".html" || hasExtension filename ".htm" then some .html
  else if hasExtension filename ".js" then some .javascript
  else if hasExtension filename ".css" then some .css
  else if hasExtension filename ".json" then some .json
  else if hasExtension filename ".txt" then some .text
  else if hasExtension filename ".mp4" then some .videoMp4
  else if hasExtension filename ".webm" then some .videoWebm
  else if hasExtension filename ".mp3" then some .audioMp3
  else if hasExtension filename ".ogg" then some .audioOgg
  else none

/-- Bytes that make content look like text: no control characters but line ends and tabs. -/
def looksLikeText (data : Bytes) : Bool :=
  0 < data.length && data.length < 1024 &&
    data.all fun byte => !(byte < 32 && byte != 10 && byte != 13 && byte != 9)

/-- `ContentRenderer::detect_content_type`. -/
def detectContentType (data : Bytes) (filename : Option Text := none) : ContentType :=
  if pngMagic.isPrefixOf data then .imagePng
  else if jpegMagic.isPrefixOf data then .imageJpeg
  else if gifMagic.isPrefixOf data then .imageGif
  else if webpMagic.isPrefixOf data then .imageWebp
  else
    match filename.bind typeFromFilename with
    | some type => type
    | none => if looksLikeText data then .text else .binary

/-- `ContentRenderer::get_mime_type`. -/
def getMimeType : ContentType → String
  | .html => "text/html; charset=utf-8"
  | .javascript => "application/javascript; charset=utf-8"
  | .css => "text/css; charset=utf-8"
  | .imagePng => "image/png"
  | .imageJpeg => "image/jpeg"
  | .imageGif => "image/gif"
  | .imageWebp => "image/webp"
  | .videoMp4 => "video/mp4"
  | .videoWebm => "video/webm"
  | .audioMp3 => "audio/mpeg"
  | .audioOgg => "audio/ogg"
  | .json => "application/json; charset=utf-8"
  | .text => "text/plain; charset=utf-8"
  | .binary => "application/octet-stream"
  | .unknown => "application/octet-stream"

/-- `ContentRenderer::extract_metadata`. -/
def extractMetadata (now : TimePoint) (contentHash : Hash256) (data : Bytes) : ContentMetadata :=
  let type := detectContentType data
  { contentHash
    sizeBytes := data.length
    type
    mimeType := getMimeType type
    lastModified := now }

/-! ## The cache -/

/-- `ContentRenderer::is_cached`. -/
def isCached (r : ContentRenderer) (contentHash : Hash256) : Bool := r.cache.contains contentHash

/-- The loop of `evict_lru`: the first of the entries accessed longest ago. -/
def leastRecent : List (Hash256 × CacheEntry) → Option (Hash256 × CacheEntry)
  | [] => none
  | first :: rest =>
    some (rest.foldl (fun lru entry =>
      if entry.2.lastAccessed < lru.2.lastAccessed then entry else lru) first)

/-- `ContentRenderer::evict_lru`. -/
def evictLru (r : ContentRenderer) (order : IterationOrder) : ContentRenderer :=
  match leastRecent (order.visit r.cache.entries) with
  | none => r
  | some (hash, _) =>
    { r with
      cache := r.cache.erase hash
      stats := { r.stats with evictionCount := r.stats.evictionCount + 1 } }

/-- `ContentRenderer::add_to_cache`. -/
def addToCache (r : ContentRenderer) (around : Surroundings) (contentHash : Hash256)
    (data : Bytes) : ContentRenderer :=
  let currentSize := (r.cache.entries.map fun entry => entry.2.data.length).sum
  let r :=
    if r.config.maxCacheSizeBytes < currentSize + data.length ||
        r.config.maxCachedItems ≤ r.cache.entries.length then r.evictLru around.order
    else r
  { r with
    cache := r.cache.insert contentHash
      { metadata := extractMetadata (around.now 0) contentHash data
        data
        cachedAt := around.now 1
        lastAccessed := around.now 1 } }

/-- `ContentRenderer::get_from_cache`. -/
def getFromCache (r : ContentRenderer) (around : Surroundings) (contentHash : Hash256) :
    ContentRenderer × Option CacheEntry :=
  match r.cache.find? contentHash with
  | none => (r, none)
  | some entry =>
    let entry := { entry with
      lastAccessed := around.now 0
      accessCount := entry.accessCount + 1 }
    ({ r with cache := r.cache.insert contentHash entry }, some entry)

/-- `ContentRenderer::invalidate_cache`. -/
def invalidateCache (r : ContentRenderer) : Option Hash256 → ContentRenderer
  | some contentHash => { r with cache := r.cache.erase contentHash }
  | none => { r with cache := .empty }

/-- `ContentRenderer::cleanup_expired`. -/
def cleanupExpired (r : ContentRenderer) (around : Surroundings) : ContentRenderer :=
  { r with
    cache := r.cache.filter fun _ entry =>
      !(r.config.cacheTtl < inSeconds (around.now 0 - entry.cachedAt)) }

/-! ## Rendering -/

variable (H : Bytes → Hash256)

def countHit (r : ContentRenderer) : ContentRenderer :=
  { r with stats := { r.stats with hitCount := r.stats.hitCount + 1 } }

def countMiss (r : ContentRenderer) : ContentRenderer :=
  { r with stats := { r.stats with missCount := r.stats.missCount + 1 } }

/-- The first half of `render_content`: from the cache, or fetched and verified. -/
def obtainData (r : ContentRenderer) (around : Surroundings) (contentHash : Hash256) :
    ContentRenderer × Option Bytes :=
  match r.getFromCache around contentHash with
  | (r, some cached) => (r.countHit, some cached.data)
  | (r, none) =>
    match around.fetch contentHash with
    | none => (r.countMiss, none)
    | some data =>
      if !(ContentIntegrityChecker.verifyContent H data contentHash).isValid then
        (r.countMiss, none)
      else ((r.addToCache around contentHash data).countMiss, some data)

/-- The second half: the whole, or the range that is asked for. -/
def makeResult (sanitizeHtml : Bytes → Bytes) (config : ContentRendererConfig) (now : TimePoint)
    (contentHash : Hash256) (range : Option (Nat × Nat)) (data : Bytes) : Option RenderResult :=
  let metadata := extractMetadata now contentHash data
  let sanitized (part : Bytes) : Bytes :=
    if config.sanitizeHtml && metadata.type == .html then sanitizeHtml part else part
  match if config.enableRangeRequests then range else none with
  | some (rangeStart, rangeEnd) =>
    if data.length ≤ rangeStart || data.length ≤ rangeEnd || rangeEnd < rangeStart then none
    else
      some
        { metadata
          data := sanitized ((data.drop rangeStart).take (rangeEnd + 1 - rangeStart))
          isPartial := true
          rangeStart
          rangeEnd }
  | none => some { metadata, data := sanitized data }

/-- `ContentRenderer::render_content`. -/
def renderContent (sanitizeHtml : Bytes → Bytes) (r : ContentRenderer) (around : Surroundings)
    (contentHash : Hash256) (range : Option (Nat × Nat)) : ContentRenderer × Option RenderResult :=
  match r.obtainData H around contentHash with
  | (r', none) => (r', none)
  | (r', some data) =>
    (r', makeResult sanitizeHtml r.config (around.now 2) contentHash range data)

/-- `ContentRenderer::prefetch`. What is fetched goes into the cache as it is. -/
def prefetch (r : ContentRenderer) (around : Surroundings) (contentHash : Hash256) :
    ContentRenderer × Bool :=
  if r.isCached contentHash then (r, true)
  else
    match around.fetch contentHash with
    | none => (r, false)
    | some data => (r.addToCache around contentHash data, true)

end ContentRenderer

/-! ## Runs -/

/-- The calls that use or change the cache. -/
inductive RendererInput where
  | renderContent (contentHash : Hash256) (range : Option (Nat × Nat))
  | prefetch (contentHash : Hash256)
  | invalidateCache (contentHash : Option Hash256)
  | cleanupExpired

/-- One call. -/
def ContentRenderer.call (H : Bytes → Hash256) (sanitizeHtml : Bytes → Bytes)
    (r : ContentRenderer) (around : Surroundings) :
    RendererInput → ContentRenderer × List (Option RenderResult)
  | .renderContent contentHash range =>
    (r.renderContent H sanitizeHtml around contentHash range).map id ([·])
  | .prefetch contentHash => ((r.prefetch around contentHash).1, [])
  | .invalidateCache contentHash => (r.invalidateCache contentHash, [])
  | .cleanupExpired => (r.cleanupExpired around, [])

def rendererMachine (H : Bytes → Hash256) (sanitizeHtml : Bytes → Bytes) :
    Machine ContentRenderer (Surroundings × RendererInput) (Option RenderResult) where
  step r input := r.call H sanitizeHtml input.1 input.2

end Cashew
