import PacPrism.Console.FileCache
import PacPrism.Network.Target

/-!
# Network/PlainRouter — requests from clients that are no nodes

A file is named by the `target` parameter or by the path, and fetched by the operation that the
Range header or the validators select.
-/

namespace PacPrism

/-- The answer of the router: a pointer to a response with one of three bodies. -/
inductive RouterResponse where
  | stringBody (response : Option (Response Bytes))
  | fileBody (response : Option (Response FileBody))
  | emptyBody (response : Option (Response Unit))

/-- The pointer is not null. -/
def RouterResponse.NonNull : RouterResponse → Prop
  | .stringBody response => response.isSome
  | .fileBody response => response.isSome
  | .emptyBody response => response.isSome

/-- The parts of the router that do not change: the cache, and the version text of the build. -/
structure Router where
  cache : FileCache
  versionFull : Bytes

namespace Router

variable {σ : Type} (sys : System σ) (router : Router)

/-- The Server field of the router's own answers. -/
def serverName : Bytes := lit "pacPrism/" ++ router.versionFull

/-- A response with a text. -/
def defaultResponseBuilder (bodyString : Bytes) (version : Nat) (status : Status) :
    RouterResponse :=
  let response : Response Bytes := { status := status, version := version, body := bodyString }
  let response := response.set .server router.serverName
  .stringBody (some (response.preparePayload sys.release))

/-- The answer where the file could not be obtained. -/
def badGateway (version : Nat) : RouterResponse :=
  router.defaultResponseBuilder sys (lit "Failed to fetch file from upstream.") version .badGateway

/-- The file if there is one. -/
def fileOrBadGateway (version : Nat) : Option (Response FileBody) → RouterResponse
  | some fileResponse => .fileBody (some fileResponse)
  | none => router.badGateway sys version

/-- Convert the variant of the cache to that of the router. -/
def ofCacheResponse : FileCacheResponse → RouterResponse
  | .fileBody response => .fileBody response
  | .emptyBody response => .emptyBody response

/-- Process requests from non node clients. -/
def plainResponseRouter (request : Request) : Io σ RouterResponse :=
  let target := targetParameter request.target
  let rangeHeader := (request.find (lit "Range")).getD []
  let ifModifiedSince := (request.find (lit "If-Modified-Since")).getD []
  let ifNoneMatch := (request.find (lit "If-None-Match")).getD []
  let hasConditional := ifModifiedSince ≠ [] ∨ ifNoneMatch ≠ []
  if target ≠ [] then
    let targetPath := targetPath target
    if rangeHeader ≠ [] then
      router.fileOrBadGateway sys request.version
        <$> router.cache.getOrFetchWithRange sys targetPath request.version rangeHeader
    else if hasConditional then
      ofCacheResponse <$> router.cache.getOrFetchWithConditional sys targetPath request.version
        ifModifiedSince ifNoneMatch
    else
      router.fileOrBadGateway sys request.version
        <$> router.cache.getOrFetch sys targetPath request.version
  else
    let path := pathOf request.target
    if path ≠ lit "/" ∧ path ≠ [] then
      if rangeHeader ≠ [] then
        router.fileOrBadGateway sys request.version
          <$> router.cache.getOrFetchWithRange sys path request.version rangeHeader
      else if hasConditional then
        ofCacheResponse <$> router.cache.getOrFetchWithConditional sys path request.version
          ifModifiedSince ifNoneMatch
      else
        router.fileOrBadGateway sys request.version
          <$> router.cache.getOrFetch sys path request.version
    else
      pure (router.defaultResponseBuilder sys (lit "Hello from pacPrism!") request.version .ok)

/-- The operation a request selects: Range, then the validators, then the whole file. -/
def serveFile (request : Request) (path : Bytes) : Io σ RouterResponse :=
  let rangeHeader := (request.find (lit "Range")).getD []
  let ifModifiedSince := (request.find (lit "If-Modified-Since")).getD []
  let ifNoneMatch := (request.find (lit "If-None-Match")).getD []
  if rangeHeader ≠ [] then
    router.fileOrBadGateway sys request.version
      <$> router.cache.getOrFetchWithRange sys path request.version rangeHeader
  else if ifModifiedSince ≠ [] ∨ ifNoneMatch ≠ [] then
    ofCacheResponse <$> router.cache.getOrFetchWithConditional sys path request.version
      ifModifiedSince ifNoneMatch
  else
    router.fileOrBadGateway sys request.version
      <$> router.cache.getOrFetch sys path request.version

/-- **The two ways to name a file meet**: a plain request is served from the path it names. -/
theorem plainResponseRouter_eq (request : Request) :
    router.plainResponseRouter sys request = match plainRequestPath request.target with
      | some path => router.serveFile sys request path
      | none => pure (router.defaultResponseBuilder sys (lit "Hello from pacPrism!")
          request.version .ok) := by
  rw [plainResponseRouter, plainRequestPath]
  by_cases htarget : targetParameter request.target ≠ []
  · simp only [if_pos htarget]
    rfl
  · simp only [if_neg htarget]
    by_cases hpath : pathOf request.target ≠ lit "/" ∧ pathOf request.target ≠ []
    · simp only [if_pos hpath]
      rfl
    · simp only [if_neg hpath]

end Router

end PacPrism
