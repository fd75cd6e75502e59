import PacPrism.Console.Config
import PacPrism.Console.Range
import PacPrism.Console.System
import PacPrism.Foundations.Path

/-!
# Console/FileCache — `FileCache`: files from the cache or from upstream

The statements of the source in their order, less the log lines.  A shared pointer is an `Option`,
the null pointer `none`.
-/

namespace PacPrism

/-- A response with the file or without a body. -/
inductive FileCacheResponse where
  | fileBody (response : Option (Response FileBody))
  | emptyBody (response : Option (Response Unit))

/-- The cache and the settings it reads. -/
structure FileCache where
  config : Config
  cacheDir : Bytes
  upstreamHost : Bytes

namespace FileCache

/-- The Server field of the files served. -/
def serverName : Bytes := lit "pacPrism/0.1.0"

/-- Remove one leading slash. -/
def cleanPath (requestPath : Bytes) : Bytes :=
  if requestPath.head? = some Path.slash then requestPath.tail else requestPath

/-- The local file path for a request path. -/
def getCachePath (cache : FileCache) (requestPath : Bytes) : Bytes :=
  Path.join cache.cacheDir (cleanPath requestPath)

/-- Upstream host and port. -/
def upstreamEndpoint (cache : FileCache) : Bytes × Bytes :=
  match Bytes.find cache.upstreamHost (lit ":") with
  | none => (cache.upstreamHost, lit "80")
  | some colonPos =>
    (Bytes.before cache.upstreamHost colonPos, Bytes.after cache.upstreamHost colonPos)

/-- The request sent upstream. -/
def upstreamRequest (cache : FileCache) (requestPath : Bytes) : UpstreamRequest where
  host := cache.upstreamEndpoint.1
  port := cache.upstreamEndpoint.2
  target := if requestPath.head? = some Path.slash then requestPath else lit "/" ++ requestPath
  connectTimeout := cache.config.getConnectTimeout
  readTimeout := cache.config.getReadTimeout

variable {σ : Type} (sys : System σ) (cache : FileCache)

/-- Check if a file exists in the cache. -/
def isCached (requestPath : Bytes) : Io σ Bool := do
  let cachePath := cache.getCachePath requestPath
  if ← sys.fileExists cachePath then sys.isRegularFile cachePath else pure false

/-! ## Fetching -/

/-- One pass of the retry loop, up to its `return` statements: the body of the `try` block. -/
def fetchAttempt (requestPath : Bytes) : Io σ Bool := do
  let res ← sys.roundTrip (cache.upstreamRequest requestPath)
  if res.result ≠ 200 then
    if 400 ≤ res.result ∧ res.result < 500 then pure false
    else throw ⟨.runtimeError, lit "HTTP error: " ++ Bytes.decimal res.result⟩
  else
    let cachePath := cache.getCachePath requestPath
    sys.createDirectories (Path.parentPath cachePath)
    if ← Io.noexcept (sys.openStream cachePath) then
      -- No write is checked: the stream may have failed at any of them, or at the close.
      modify fun s => res.body.foldl (fun s buffer => sys.writeStream cachePath buffer s) s
      modify (sys.closeStream cachePath)
      pure true
    else pure false

/-- The retry loop from pass `retry` on, with `remaining` passes left.  Only a `beast::system_error`
leads to another pass, and not from the last one. -/
def fetchFrom (requestPath : Bytes) (retry : Nat) : Nat → Io σ Bool
  | 0 => pure false
  | remaining + 1 => do
    let returned ← tryCatch (some <$> cache.fetchAttempt sys requestPath) fun e =>
      if e.kind = .beastSystemError then
        if (retry : Int) = cache.config.getMaxRetries - 1 then pure (some false)
        else do
          modify (sys.sleepFor (1 <<< retry))
          pure none
      else pure (some false)
    match returned with
    | some result => pure result
    | none => fetchFrom requestPath (retry + 1) remaining

/-- Fetch a file from upstream and cache it. -/
def fetchFromUpstream (requestPath : Bytes) : Io σ Bool :=
  cache.fetchFrom sys requestPath 0 cache.config.getMaxRetries.toNat

/-- What each operation starts with: the file is cached, or fetched now. -/
def ensureCached (requestPath : Bytes) : Io σ Bool := do
  if ← cache.isCached sys requestPath then pure true else cache.fetchFromUpstream sys requestPath

/-! ## Modification times and entity tags -/

/-- When a file was modified last, as a `std::time_t`. -/
def modificationTime (cachePath : Bytes) : Io σ Int := do
  let ftime ← sys.lastWriteTime cachePath
  let now ← Io.noexcept sys.readClocks
  pure (toTimeT (ftime - now.1 + now.2))

/-- The modification time as an HTTP date. -/
def getLastModified (cachePath : Bytes) : Io σ Bytes :=
  tryCatch (do
    let cftime ← modificationTime sys cachePath
    pure (sys.time.strftime (sys.time.localtime cftime))) fun _ => pure []

/-- The entity tag: size and modification time. -/
def generateEtag (cachePath : Bytes) : Io σ Bytes :=
  tryCatch (do
    let modTime ← modificationTime sys cachePath
    let fileSize ← sys.fileSize cachePath
    pure (lit "\"" ++ Bytes.decimal fileSize ++ lit "-" ++ Bytes.decimalInt modTime ++ lit "\""))
    fun _ => pure []

/-- The time an HTTP date denotes; 0 if it is none. -/
def parseHttpDate (dateStr : Bytes) : Int :=
  match sys.time.getTime {} dateStr with
  | none => 0
  | some tm => sys.time.mktime tm

/-- Whether the file was modified after the date of the header; in doubt it was. -/
def checkModifiedSince (ifModifiedSince cachePath : Bytes) : Io σ Bool :=
  if ifModifiedSince = [] then pure true
  else
    tryCatch (do
      let fileModTime ← modificationTime sys cachePath
      let ifTime := parseHttpDate sys ifModifiedSince
      if ifTime = 0 then pure true else pure (decide (ifTime < fileModTime))) fun _ => pure true

/-! ## The three operations -/

/-- Get the whole file. -/
def getOrFetch (requestPath : Bytes) (httpVersion : Nat) : Io σ (Option (Response FileBody)) := do
  if ← cache.ensureCached sys requestPath then
    let cachePath := cache.getCachePath requestPath
    match ← Io.noexcept (sys.openFile cachePath) with
    | none => pure none
    | some file =>
      let response : Response FileBody := { status := .ok, version := httpVersion, body := file }
      let response := response.set .contentType (lit "application/octet-stream")
      let response := response.set .server serverName
      let response := response.set .lastModified (← getLastModified sys cachePath)
      let response := response.set .etag (← generateEtag sys cachePath)
      let response := response.setContentLength (Body.size sys.release response.body)
      pure (some (response.preparePayload sys.release))
  else pure none

/-- The range a header asks for in the file on this path. -/
def parseRangeHeader (rangeHeader cachePath : Bytes) : Io σ RangeInfo := do
  match ← tryCatch (some <$> sys.fileSize cachePath) fun _ => pure none with
  | none => pure {}
  | some fileSize => pure (parseRange rangeHeader fileSize)

/-- The answer with a range of the file, from a file positioned at its start. -/
def partialContent (httpVersion : Nat) (range : RangeInfo) (file : FileBody) :
    Response FileBody :=
  let response : Response FileBody :=
    { status := .partialContent, version := httpVersion, body := file }
  let contentLength := sizeSub range.stop range.start + 1
  let response := response.setContentLength contentLength
  let response := response.set .contentType (lit "application/octet-stream")
  let response := response.set .server serverName
  let response := response.set .acceptRanges (lit "bytes")
  let response := response.set .contentRange (lit "bytes " ++ Bytes.decimal range.start
    ++ lit "-" ++ Bytes.decimal range.stop ++ lit "/" ++ Bytes.decimal range.fileSize)
  response.preparePayload sys.release

/-- Get the range of the file the header asks for, or the whole file if it asks for none. -/
def getOrFetchWithRange (requestPath : Bytes) (httpVersion : Nat) (rangeHeader : Bytes) :
    Io σ (Option (Response FileBody)) := do
  if ← cache.ensureCached sys requestPath then
    let cachePath := cache.getCachePath requestPath
    let range ← parseRangeHeader sys rangeHeader cachePath
    if range.valid = false ∨ rangeHeader = [] then cache.getOrFetch sys requestPath httpVersion
    else
      match ← Io.noexcept (sys.openFile cachePath) with
      | none => pure none
      | some file =>
        match ← Io.noexcept (sys.seek file range.start) with
        | none => pure none
        | some file => pure (some (partialContent sys httpVersion range file))
  else pure none

/-- The answer that the client's copy is current. -/
def notModified (httpVersion : Nat) (lastModified etag : Bytes) : Response Unit :=
  let response : Response Unit := { status := .notModified, version := httpVersion, body := () }
  let response := response.set .server serverName
  let response := response.set .date lastModified
  let response := response.set .etag etag
  response.preparePayload sys.release

/-- The entity tag to compare If-None-Match with, generated only if there is such a field. -/
def etagToCompare (ifNoneMatch cachePath : Bytes) : Io σ Bytes :=
  if ifNoneMatch = [] then pure [] else generateEtag sys cachePath

/-- Get the file unless one of the two validators says that the client's copy is current. -/
def getOrFetchWithConditional (requestPath : Bytes) (httpVersion : Nat)
    (ifModifiedSince ifNoneMatch : Bytes) : Io σ FileCacheResponse := do
  if ← cache.ensureCached sys requestPath then
    let cachePath := cache.getCachePath requestPath
    if !(← checkModifiedSince sys ifModifiedSince cachePath) then
      let lastModified ← getLastModified sys cachePath
      let etag ← generateEtag sys cachePath
      pure (.emptyBody (some (notModified sys httpVersion lastModified etag)))
    else
      let currentEtag ← etagToCompare sys ifNoneMatch cachePath
      if ifNoneMatch ≠ [] ∧ currentEtag = ifNoneMatch then
        let lastModified ← getLastModified sys cachePath
        pure (.emptyBody (some (notModified sys httpVersion lastModified currentEtag)))
      else
        match ← Io.noexcept (sys.openFile cachePath) with
        | none => pure (.fileBody none)
        | some file =>
          let response : Response FileBody :=
            { status := .ok, version := httpVersion, body := file }
          let response := response.set .contentType (lit "application/octet-stream")
          let response := response.set .server serverName
          let response := response.set .lastModified (← getLastModified sys cachePath)
          let response := response.set .etag (← generateEtag sys cachePath)
          let response := response.setContentLength (Body.size sys.release response.body)
          pure (.fileBody (some (response.preparePayload sys.release)))
  else pure (.fileBody none)

/-! ## What is caught

Of the calls that may throw, only the status calls of `isCached` are made outside of a `try` block
that catches everything. -/

theorem total_fetchFrom (requestPath : Bytes) (retry remaining : Nat) :
    Io.Total (cache.fetchFrom sys requestPath retry remaining) := by
  induction remaining generalizing retry with
  | zero => exact Io.total_pure false
  | succ remaining ih =>
    rw [fetchFrom]
    refine Io.Total.bind (Io.total_tryCatch _ fun e => ?_) fun returned => ?_
    · split_ifs
      · exact Io.total_pure _
      · exact Io.Total.bind (Io.total_modify _) fun _ => Io.total_pure _
      · exact Io.total_pure _
    · cases returned with
      | some result => exact Io.total_pure result
      | none => exact ih (retry + 1)

theorem total_getLastModified (cachePath : Bytes) : Io.Total (getLastModified sys cachePath) :=
  Io.total_tryCatch _ fun _ => Io.total_pure _

theorem total_generateEtag (cachePath : Bytes) : Io.Total (generateEtag sys cachePath) :=
  Io.total_tryCatch _ fun _ => Io.total_pure _

theorem total_etagToCompare (ifNoneMatch cachePath : Bytes) :
    Io.Total (etagToCompare sys ifNoneMatch cachePath) := by
  rw [etagToCompare]
  split_ifs
  exacts [Io.total_pure _, total_generateEtag sys cachePath]

theorem total_checkModifiedSince (ifModifiedSince cachePath : Bytes) :
    Io.Total (checkModifiedSince sys ifModifiedSince cachePath) := by
  rw [checkModifiedSince]
  split_ifs
  exacts [Io.total_pure _, Io.total_tryCatch _ fun _ => Io.total_pure _]

theorem total_parseRangeHeader (rangeHeader cachePath : Bytes) :
    Io.Total (parseRangeHeader sys rangeHeader cachePath) := by
  refine Io.Total.bind (Io.total_tryCatch _ fun _ => Io.total_pure _) fun size => ?_
  cases size <;> exact Io.total_pure _

/-! ## What only reads -/

section ReadOnly

variable {sys} (hsteady : sys.Steady)

include hsteady

theorem readOnly_isCached (requestPath : Bytes) :
    Io.ReadOnly (cache.isCached sys requestPath) := by
  refine Io.ReadOnly.bind (hsteady.fileExists _) fun found => ?_
  split_ifs
  exacts [hsteady.isRegularFile _, Io.readOnly_pure false]

theorem readOnly_modificationTime (cachePath : Bytes) :
    Io.ReadOnly (modificationTime sys cachePath) :=
  Io.ReadOnly.bind (hsteady.lastWriteTime cachePath) fun _ =>
    Io.ReadOnly.bind (Io.readOnly_noexcept hsteady.readClocks) fun _ => Io.readOnly_pure _

theorem readOnly_getLastModified (cachePath : Bytes) :
    Io.ReadOnly (getLastModified sys cachePath) :=
  Io.ReadOnly.tryCatch (Io.ReadOnly.bind (readOnly_modificationTime hsteady cachePath) fun _ =>
    Io.readOnly_pure _) fun _ => Io.readOnly_pure _

theorem readOnly_generateEtag (cachePath : Bytes) : Io.ReadOnly (generateEtag sys cachePath) :=
  Io.ReadOnly.tryCatch (Io.ReadOnly.bind (readOnly_modificationTime hsteady cachePath) fun _ =>
    Io.ReadOnly.bind (hsteady.fileSize cachePath) fun _ => Io.readOnly_pure _)
    fun _ => Io.readOnly_pure _

theorem readOnly_etagToCompare (ifNoneMatch cachePath : Bytes) :
    Io.ReadOnly (etagToCompare sys ifNoneMatch cachePath) := by
  rw [etagToCompare]
  split_ifs
  exacts [Io.readOnly_pure [], readOnly_generateEtag hsteady cachePath]

theorem readOnly_checkModifiedSince (ifModifiedSince cachePath : Bytes) :
    Io.ReadOnly (checkModifiedSince sys ifModifiedSince cachePath) := by
  rw [checkModifiedSince]
  split_ifs
  · exact Io.readOnly_pure true
  · refine Io.ReadOnly.tryCatch (Io.ReadOnly.bind (readOnly_modificationTime hsteady cachePath)
      fun _ => ?_) fun _ => Io.readOnly_pure true
    dsimp only
    split_ifs <;> exact Io.readOnly_pure _

theorem readOnly_parseRangeHeader (rangeHeader cachePath : Bytes) :
    Io.ReadOnly (parseRangeHeader sys rangeHeader cachePath) := by
  refine Io.ReadOnly.bind (Io.ReadOnly.tryCatch ((hsteady.fileSize cachePath).map some) fun _ =>
    Io.readOnly_pure none) fun size => ?_
  cases size <;> exact Io.readOnly_pure _

end ReadOnly

end FileCache

end PacPrism
