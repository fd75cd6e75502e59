import PacPrism.Console.Conditional
import PacPrism.Console.Fetching
import PacPrism.Network.Router

/-!
# Network/NullResponse — when the router hands out a null pointer

Of the three operations of the cache, the router tests the result of two.  The answer to a request
with validators is passed on as it is, and is null where the file could not be obtained.
-/

namespace PacPrism

/-- The pointer is null. -/
def FileCacheResponse.IsNull : FileCacheResponse → Prop
  | .fileBody response => response = none
  | .emptyBody response => response = none

/-- The Range header is absent or empty, and a validator is not: the validators select the
operation. -/
def Request.SelectsConditional (request : Request) : Prop :=
  (request.find (lit "Range")).getD [] = []
    ∧ ((request.find (lit "If-Modified-Since")).getD [] ≠ []
      ∨ (request.find (lit "If-None-Match")).getD [] ≠ [])

instance (request : Request) : Decidable request.SelectsConditional :=
  inferInstanceAs (Decidable (_ = _ ∧ (_ ≠ _ ∨ _ ≠ _)))

instance : DecidablePred FileCacheResponse.IsNull := fun
  | .fileBody response => inferInstanceAs (Decidable (response = none))
  | .emptyBody response => inferInstanceAs (Decidable (response = none))

section

variable {σ : Type} (sys : System σ) (nlohmann : Nlohmann)

/-- **There is nothing to send**: the file is not cached and the fetch fails, or no validator is
current and the cached file cannot be opened. -/
def FileCache.NothingToSend (cache : FileCache) (path ifModifiedSince ifNoneMatch : Bytes) (w : σ) :
    Prop :=
  (∃ w₁ w₂, cache.isCached sys path w = .ok false w₁
      ∧ cache.fetchFromUpstream sys path w₁ = .ok false w₂)
    ∨ ∃ w₁ w₂ w₃ currentEtag, cache.ensureCached sys path w = .ok true w₁
      ∧ checkModifiedSince sys ifModifiedSince (cache.getCachePath path) w₁ = .ok true w₂
      ∧ etagToCompare sys ifNoneMatch (cache.getCachePath path) w₂ = .ok currentEtag w₃
      ∧ (ifNoneMatch = [] ∨ currentEtag ≠ ifNoneMatch)
      ∧ (sys.openFile (cache.getCachePath path) w₃).1 = none

namespace Router

variable (router : Router)

/-- The operation of the cache that a plain request selects. -/
def fileOperation (request : Request) (path : Bytes) : Io σ FileCacheResponse :=
  if (request.find (lit "Range")).getD [] ≠ [] then
    .fileBody <$> router.cache.getOrFetchWithRange sys path request.version
      ((request.find (lit "Range")).getD [])
  else if request.SelectsConditional then
    router.cache.getOrFetchWithConditional sys path request.version
      ((request.find (lit "If-Modified-Since")).getD [])
      ((request.find (lit "If-None-Match")).getD [])
  else .fileBody <$> router.cache.getOrFetch sys path request.version

/-- A plain request names a file, and the operation it selects comes back with a null pointer. -/
def FileFails (request : Request) (s : Server σ) : Prop :=
  Validator.validateRequest request = .plainClient
    ∧ ∃ path, plainRequestPath request.target = some path
      ∧ ∃ r w, router.fileOperation sys request path s.world = .ok r w ∧ r.IsNull

/-- **The promise of the router**: what it returns is no null pointer, and the 502 response where
the file cannot be obtained. -/
def AnswersSafely (request : Request) (s : Server σ) : Prop :=
  ∀ answer s', router.globalRouter sys nlohmann request s = .ok answer s' →
    answer.NonNull
      ∧ (router.FileFails sys request s → answer = router.badGateway sys request.version)

/-- A request whose validators select the operation, for a file there is nothing to send of. -/
def LosesValidators (request : Request) (s : Server σ) : Prop :=
  Validator.validateRequest request = .plainClient ∧ request.SelectsConditional
    ∧ ∃ path, plainRequestPath request.target = some path
      ∧ router.cache.NothingToSend sys path ((request.find (lit "If-Modified-Since")).getD [])
        ((request.find (lit "If-None-Match")).getD []) s.world

end Router

/-! ## The conditional operation -/

variable {sys}

namespace FileCache

variable {cache : FileCache} {path : Bytes}

theorem ensureCached_eq_false_iff {w w' : σ} :
    cache.ensureCached sys path w = .ok false w' ↔ ∃ w₁, cache.isCached sys path w = .ok false w₁
      ∧ cache.fetchFromUpstream sys path w₁ = .ok false w' := by
  rw [ensureCached]
  constructor
  · intro h
    obtain ⟨cached, w₁, hcached, h⟩ := Io.bind_eq_ok h
    cases cached with
    | true => cases h
    | false => exact ⟨w₁, hcached, h⟩
  · rintro ⟨w₁, hmiss, hfetch⟩
    rw [Io.bind_of_ok hmiss]
    exact hfetch

variable {version : Nat} {ifModifiedSince ifNoneMatch : Bytes} {w w' : σ}

/-- The conditional operation has a null pointer where a file is neither cached nor fetched, and
where it cannot be opened. -/
theorem nothingToSend_of_isNull {r : FileCacheResponse}
    (hrun : cache.getOrFetchWithConditional sys path version ifModifiedSince ifNoneMatch w
      = .ok r w') (hnull : r.IsNull) :
    cache.NothingToSend sys path ifModifiedSince ifNoneMatch w := by
  have hsome {m : Io σ FileCacheResponse} {s : σ} (hrun : m s = .ok r w')
      (hm : Io.Yields (fun r => ¬ r.IsNull) m) :
      cache.NothingToSend sys path ifModifiedSince ifNoneMatch w := absurd hnull (hm s r w' hrun)
  rw [getOrFetchWithConditional] at hrun
  obtain ⟨cached, w₁, hcached, hrun⟩ := Io.bind_eq_ok hrun
  cases cached with
  | false =>
    obtain ⟨w₂, hmiss, hfetch⟩ := ensureCached_eq_false_iff.1 hcached
    exact .inl ⟨w₂, w₁, hmiss, hfetch⟩
  | true =>
    rw [if_pos rfl] at hrun
    obtain ⟨modified, w₂, hmodified, hrun⟩ := Io.bind_eq_ok hrun
    cases modified with
    | false =>
      exact hsome hrun (Io.yields_bind fun _ => Io.yields_bind fun _ =>
        Io.yields_pure (Option.some_ne_none _))
    | true =>
      rw [if_neg (by decide)] at hrun
      obtain ⟨currentEtag, w₃, hetag, hrun⟩ := Io.bind_eq_ok hrun
      by_cases hmatch : ifNoneMatch ≠ [] ∧ currentEtag = ifNoneMatch
      · rw [if_pos hmatch] at hrun
        exact hsome hrun (Io.yields_bind fun _ => Io.yields_pure (Option.some_ne_none _))
      · rw [if_neg hmatch] at hrun
        obtain ⟨opened, w₄, hopened, hrun⟩ := Io.bind_eq_ok hrun
        rw [Io.noexcept_apply] at hopened
        injection hopened with hfile
        cases opened with
        | none =>
          rw [not_and_or, not_not] at hmatch
          exact .inr ⟨w₁, w₂, w₃, currentEtag, hcached, hmodified, hetag, hmatch, hfile⟩
        | some file =>
          exact hsome hrun (Io.yields_bind fun _ => Io.yields_bind fun _ =>
            Io.yields_pure (Option.some_ne_none _))

theorem exists_isNull_of_nothingToSend (version : Nat)
    (h : cache.NothingToSend sys path ifModifiedSince ifNoneMatch w) :
    ∃ r w', cache.getOrFetchWithConditional sys path version ifModifiedSince ifNoneMatch w
      = .ok r w' ∧ r.IsNull := by
  obtain ⟨w₁, w₂, hmiss, hfetch⟩ |
    ⟨w₁, w₂, w₃, currentEtag, hcached, hmodified, hetag, hother, hopen⟩ := h
  · rw [getOrFetchWithConditional,
      Io.bind_of_ok (ensureCached_eq_false_iff.2 ⟨w₁, hmiss, hfetch⟩)]
    exact ⟨.fileBody none, w₂, rfl, rfl⟩
  · have hmatch : ¬ (ifNoneMatch ≠ [] ∧ currentEtag = ifNoneMatch) := fun h =>
      hother.elim h.1 fun hne => hne h.2
    exact ⟨.fileBody none, (sys.openFile (cache.getCachePath path) w₃).2,
      conditional_of_unopened version hcached hmodified hetag hmatch (Prod.ext hopen rfl), rfl⟩

/-- The conditional operation comes back with a null pointer exactly when there is nothing to
send. -/
theorem conditional_isNull_iff :
    (∃ r w', cache.getOrFetchWithConditional sys path version ifModifiedSince ifNoneMatch w
        = .ok r w' ∧ r.IsNull)
      ↔ cache.NothingToSend sys path ifModifiedSince ifNoneMatch w :=
  ⟨fun ⟨_, _, hrun, hnull⟩ => nothingToSend_of_isNull hrun hnull,
    exists_isNull_of_nothingToSend version⟩

end FileCache

/-! ## Every request -/

namespace Router

variable {router : Router}

variable (sys router) in
/-- The answer made of what the operation came back with: only the pointers of the two others are
tested. -/
def answerOf (request : Request) (r : FileCacheResponse) : RouterResponse :=
  if request.SelectsConditional ∨ ¬ r.IsNull then ofCacheResponse r
  else router.badGateway sys request.version

theorem nonNull_ofCacheResponse_iff (r : FileCacheResponse) :
    (ofCacheResponse r).NonNull ↔ ¬ r.IsNull := by
  cases r <;> exact Option.isSome_iff_ne_none

theorem nonNull_answerOf_iff (request : Request) (r : FileCacheResponse) :
    (router.answerOf sys request r).NonNull ↔ ¬ (request.SelectsConditional ∧ r.IsNull) := by
  rw [answerOf]
  split_ifs with h
  · rw [nonNull_ofCacheResponse_iff]
    tauto
  · rw [not_or, not_not] at h
    exact iff_of_true rfl fun hc => h.1 hc.1

theorem serveFile_eq (request : Request) (path : Bytes) :
    router.serveFile sys request path
      = router.answerOf sys request <$> router.fileOperation sys request path := by
  have hpointer (h : ¬ request.SelectsConditional) :
      router.answerOf sys request ∘ FileCacheResponse.fileBody
        = router.fileOrBadGateway sys request.version := funext fun p => by
    rw [Function.comp_apply, answerOf]
    cases p with
    | none => exact if_neg (not_or.2 ⟨h, not_not.2 rfl⟩)
    | some response => exact if_pos (.inr nofun)
  rw [serveFile, fileOperation]
  by_cases hrange : (request.find (lit "Range")).getD [] ≠ []
  · rw [if_pos hrange, if_pos hrange, ← hpointer fun h => hrange h.1, comp_map]
  · rw [if_neg hrange, if_neg hrange]
    rw [ne_eq, not_not] at hrange
    by_cases hvalidators : request.SelectsConditional
    · rw [if_pos hvalidators, if_pos hvalidators.2]
      exact congrArg (· <$> _) (funext fun r => (if_pos (.inl hvalidators)).symm)
    · rw [if_neg hvalidators, if_neg fun h => hvalidators ⟨hrange, h⟩, ← hpointer hvalidators,
        comp_map]

/-- What a plain request for a file returns is made of what the operation came back with. -/
theorem globalRouter_of_file {request : Request} {path : Bytes} {s s' : Server σ}
    {answer : RouterResponse} (hplain : Validator.validateRequest request = .plainClient)
    (hpath : plainRequestPath request.target = some path) :
    router.globalRouter sys nlohmann request s = .ok answer s'
      ↔ ∃ r w, router.fileOperation sys request path s.world = .ok r w
        ∧ router.answerOf sys request r = answer ∧ { s with world := w } = s' := by
  rw [globalRouter, hplain]
  dsimp only
  rw [plainResponseRouter_eq, hpath]
  dsimp only
  rw [serveFile_eq, map_eq_pure_bind, Server.onWorld, Io.bind_apply]
  cases router.fileOperation sys request path s.world with
  | ok r w => simp [EStateM.Result.ok.injEq]
  | error e w => simp

/-- The answer to a node is a text. -/
theorem nonNull_of_nodeResponseRouter {request : Request} {s s' : Server σ}
    {answer : RouterResponse}
    (h : router.nodeResponseRouter sys nlohmann request s = .ok answer s') : answer.NonNull := by
  have hyields : Io.Yields RouterResponse.NonNull
      (router.nodeResponseRouter sys nlohmann request) :=
    Io.yields_bind fun _ => Io.yields_bind fun _ => Io.yields_pure rfl
  exact hyields s answer s' h

theorem losesValidators_iff {request : Request} {path : Bytes} {s : Server σ}
    (hplain : Validator.validateRequest request = .plainClient)
    (hpath : plainRequestPath request.target = some path) :
    router.LosesValidators sys request s ↔ request.SelectsConditional
      ∧ ∃ r w, router.fileOperation sys request path s.world = .ok r w ∧ r.IsNull := by
  rw [LosesValidators, and_iff_right hplain]
  refine and_congr_right fun hvalidators => ?_
  rw [fileOperation, if_neg (not_not.2 hvalidators.1), if_pos hvalidators,
    FileCache.conditional_isNull_iff, hpath]
  simp only [Option.some.injEq, exists_eq_left']

/-- With nothing to send, the null pointer of the operation is returned. -/
theorem not_answersSafely {request : Request} {s : Server σ}
    (h : router.LosesValidators sys request s) :
    ¬ router.AnswersSafely sys nlohmann request s := by
  intro hsafe
  obtain ⟨hplain, -, path, hpath, -⟩ := id h
  obtain ⟨hvalidators, r, w, hrun, hnull⟩ := (losesValidators_iff hplain hpath).1 h
  have hanswer := (hsafe _ _ ((globalRouter_of_file nlohmann hplain hpath).2
    ⟨r, w, hrun, rfl, rfl⟩)).1
  exact (nonNull_answerOf_iff request r).1 hanswer ⟨hvalidators, hnull⟩

/-- Where there is something to send, it is sent. -/
theorem answersSafely_of_file {request : Request} {path : Bytes} {s : Server σ}
    (hplain : Validator.validateRequest request = .plainClient)
    (hpath : plainRequestPath request.target = some path)
    (h : ¬ router.LosesValidators sys request s) : router.AnswersSafely sys nlohmann request s := by
  rw [losesValidators_iff hplain hpath] at h
  intro answer s' hanswer
  obtain ⟨r, w, hrun, rfl, rfl⟩ := (globalRouter_of_file nlohmann hplain hpath).1 hanswer
  refine ⟨(nonNull_answerOf_iff request r).2 fun hc => h ⟨hc.1, r, w, hrun, hc.2⟩, ?_⟩
  rintro ⟨-, path', hpath', r', w', hrun', hnull⟩
  obtain rfl : path = path' := Option.some.inj (hpath.symm.trans hpath')
  cases hrun.symm.trans hrun'
  exact if_neg fun hc => hc.elim (fun hv => h ⟨hv, r, w, hrun, hnull⟩) fun hn => hn hnull

/-- A request that is not for a file is answered safely if it is answered at all. -/
theorem answersSafely_iff_of_no_file {request : Request} {s : Server σ}
    (hfile : ∀ path, Validator.validateRequest request = .plainClient →
      plainRequestPath request.target ≠ some path)
    (hnonNull : ∀ answer s', router.globalRouter sys nlohmann request s = .ok answer s' →
      answer.NonNull) :
    router.AnswersSafely sys nlohmann request s ↔ ¬ router.LosesValidators sys request s := by
  refine iff_of_true (fun answer s' h => ⟨hnonNull answer s' h, ?_⟩) ?_
  · exact fun ⟨hplain, path, hpath, _⟩ => absurd hpath (hfile path hplain)
  · exact fun ⟨hplain, _, path, hpath, _⟩ => hfile path hplain hpath

end Router

end

/-- **Which requests are answered safely**: all but those whose validators select the operation, for
a file there is nothing to send of. -/
theorem answersSafely_iff {σ : Type} (sys : System σ) (nlohmann : Nlohmann) (router : Router)
    (request : Request) (s : Server σ) :
    router.AnswersSafely sys nlohmann request s ↔ ¬ router.LosesValidators sys request s := by
  cases hplain : Validator.validateRequest request with
  | invalid =>
    refine Router.answersSafely_iff_of_no_file nlohmann (by simp [hplain]) fun answer s' h => ?_
    rw [Router.globalRouter, hplain] at h
    cases h
    rfl
  | node =>
    refine Router.answersSafely_iff_of_no_file nlohmann (by simp [hplain]) fun answer s' h => ?_
    rw [Router.globalRouter, hplain] at h
    exact Router.nonNull_of_nodeResponseRouter nlohmann h
  | plainClient =>
    cases hpath : plainRequestPath request.target with
    | none =>
      refine Router.answersSafely_iff_of_no_file nlohmann (by simp [hpath]) fun answer s' h => ?_
      rw [Router.globalRouter, hplain] at h
      dsimp only at h
      rw [Router.plainResponseRouter_eq, hpath] at h
      cases h
      rfl
    | some path =>
      exact ⟨fun hsafe h => Router.not_answersSafely nlohmann h hsafe,
        Router.answersSafely_of_file nlohmann hplain hpath⟩

/-- A file that is not cached, with upstream out of reach: a client that asks whether its copy is
current is answered with a null pointer. -/
theorem globalRouter_hands_out_null :
    ¬ ∀ (sys : System TreeDisk) (nlohmann : Nlohmann) (router : Router) (request : Request)
      (s : Server TreeDisk), router.AnswersSafely sys nlohmann request s := by
  intro hall
  let cache : FileCache := ⟨{}, lit "./cache", lit "ftp.debian.org"⟩
  let request : Request := ⟨.get, lit "/f", 11, [(lit "If-None-Match", lit "\"1-1\"")], []⟩
  let sys := Disk.system (.tree []) (.offline .current)
  have hmiss : cache.isCached sys (lit "/f") (.empty []) = _ :=
    Disk.isCached_apply cache (lit "/f") (.empty []) rfl
  have hstart : (Disk.empty [] : TreeDisk).roundTrips = 0 := rfl
  obtain ⟨d', hfetch, -⟩ := Disk.fetchFrom_apply (.offline .current) cache (lit "/f")
    (k := [lit "cache", lit "f"]) hstart (Nat.zero_add cache.config.getMaxRetries.toNat) (by decide)
  rw [show ((Script.offline .current).written 0 cache.config.getMaxRetries.toNat).isSome = false
    by decide] at hfetch
  have hloses : Router.LosesValidators sys ⟨cache, lit "0.1.0"⟩ request { world := .empty [] } :=
    ⟨by decide, by decide, lit "/f", by decide, .inl ⟨_, d', hmiss, hfetch⟩⟩
  exact Router.not_answersSafely .withoutParser hloses (hall _ .withoutParser _ _ _)

end PacPrism
