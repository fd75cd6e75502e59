import PacPrism.Console.Disk
import PacPrism.Network.Router

/-!
# Network/PlainExceptions — which plain requests make the router throw

Of the calls that may throw, the cache makes all but two inside a `try` block that catches
everything.  The two are the status calls of a lookup.  Every request for a file begins with a
lookup, and a Range header that denotes no range of the file leads to a second one.
-/

namespace PacPrism

section

variable {σ : Type} (sys : System σ)

/-- The status calls of a lookup return: whether the path exists and, if it does, whether it is a
regular file. -/
def System.StatusReturns (cachePath : Bytes) (w : σ) : Prop :=
  Io.Returns (sys.fileExists cachePath) w
    ∧ ∀ w₁, sys.fileExists cachePath w = .ok true w₁ → Io.Returns (sys.isRegularFile cachePath) w₁

/-- A file is there, and the Range header denotes no range of it: the file is looked up again. -/
def FileCache.LooksUpAgain (cache : FileCache) (path rangeHeader : Bytes) (w w' : σ) : Prop :=
  ∃ w₁ range, cache.ensureCached sys path w = .ok true w₁
    ∧ parseRangeHeader sys rangeHeader (cache.getCachePath path) w₁ = .ok range w'
    ∧ range.valid = false

/-- The status calls that a request leads to return. -/
def Router.StatusReturns (router : Router) (request : Request) (w : σ) : Prop :=
  ∀ path, plainRequestPath request.target = some path →
    sys.StatusReturns (router.cache.getCachePath path) w
      ∧ ((request.find (lit "Range")).getD [] ≠ [] →
        ∀ w', router.cache.LooksUpAgain sys path ((request.find (lit "Range")).getD []) w w' →
          sys.StatusReturns (router.cache.getCachePath path) w')

/-! ## The operations of the cache -/

namespace FileCache

variable {sys} {cache : FileCache} {path : Bytes} {w : σ}

theorem returns_isCached_iff :
    Io.Returns (cache.isCached sys path) w ↔ sys.StatusReturns (cache.getCachePath path) w := by
  rw [isCached]
  refine Io.returns_bind_iff.trans (and_congr_right fun _ => ?_)
  constructor
  · exact fun h w₁ hfound => h true w₁ hfound
  · intro h found w₁ hfound
    cases found with
    | true => exact h w₁ hfound
    | false => exact Io.total_pure _ _

/-- A fetch catches whatever goes wrong. -/
theorem returns_ensureCached_iff :
    Io.Returns (cache.ensureCached sys path) w ↔ sys.StatusReturns (cache.getCachePath path) w := by
  rw [ensureCached, Io.returns_bind_iff_of_total, returns_isCached_iff]
  intro cached
  cases cached
  exacts [total_fetchFrom sys cache path _ _, Io.total_pure _]

variable {version : Nat}

theorem returns_getOrFetch_iff : Io.Returns (cache.getOrFetch sys path version) w
    ↔ sys.StatusReturns (cache.getCachePath path) w := by
  rw [getOrFetch, Io.returns_bind_iff_of_total, returns_ensureCached_iff]
  intro cached
  cases cached with
  | false => exact Io.total_pure _
  | true =>
    refine Io.Total.bind (Io.total_noexcept _) fun opened => ?_
    cases opened with
    | none => exact Io.total_pure _
    | some file =>
      exact Io.Total.bind (total_getLastModified sys _) fun _ =>
        Io.Total.bind (total_generateEtag sys _) fun _ => Io.total_pure _

theorem returns_getOrFetchWithConditional_iff {ifModifiedSince ifNoneMatch : Bytes} :
    Io.Returns
        (cache.getOrFetchWithConditional sys path version ifModifiedSince ifNoneMatch) w
      ↔ sys.StatusReturns (cache.getCachePath path) w := by
  rw [getOrFetchWithConditional, Io.returns_bind_iff_of_total, returns_ensureCached_iff]
  intro cached
  cases cached with
  | false => exact Io.total_pure _
  | true =>
    refine Io.Total.bind (total_checkModifiedSince sys _ _) fun modified => ?_
    cases modified with
    | false =>
      exact Io.Total.bind (total_getLastModified sys _) fun _ =>
        Io.Total.bind (total_generateEtag sys _) fun _ => Io.total_pure _
    | true =>
      refine Io.Total.bind (total_etagToCompare sys _ _) fun currentEtag => ?_
      split_ifs
      · exact Io.Total.bind (total_getLastModified sys _) fun _ => Io.total_pure _
      · refine Io.Total.bind (Io.total_noexcept _) fun opened => ?_
        cases opened with
        | none => exact Io.total_pure _
        | some file =>
          exact Io.Total.bind (total_getLastModified sys _) fun _ =>
            Io.Total.bind (total_generateEtag sys _) fun _ => Io.total_pure _

/-- Without a valid range the file is looked up by `getOrFetch` once more. -/
theorem returns_getOrFetchWithRange_iff {rangeHeader : Bytes} (hrange : rangeHeader ≠ []) :
    Io.Returns (cache.getOrFetchWithRange sys path version rangeHeader) w
      ↔ sys.StatusReturns (cache.getCachePath path) w
        ∧ ∀ w', cache.LooksUpAgain sys path rangeHeader w w' →
          sys.StatusReturns (cache.getCachePath path) w' := by
  rw [getOrFetchWithRange, Io.returns_bind_iff, returns_ensureCached_iff]
  refine and_congr_right fun _ => ⟨fun h w' ⟨w₁, range, hcached, hparse, hinvalid⟩ => ?_,
    fun h cached w₁ hcached => ?_⟩
  · have hrest := (Io.returns_bind_iff.1 (h true w₁ hcached)).2 range w' hparse
    rwa [if_pos (.inl hinvalid), returns_getOrFetch_iff] at hrest
  · cases cached with
    | false => exact Io.total_pure _ _
    | true =>
      refine Io.returns_bind_iff.2 ⟨total_parseRangeHeader sys _ _ w₁, fun range w' hparse => ?_⟩
      by_cases hinvalid : range.valid = false
      · rw [if_pos (.inl hinvalid), returns_getOrFetch_iff]
        exact h w' ⟨w₁, range, hcached, hparse, hinvalid⟩
      · rw [if_neg (not_or.2 ⟨hinvalid, hrange⟩)]
        refine Io.Total.bind (Io.total_noexcept _) (fun opened => ?_) w'
        cases opened with
        | none => exact Io.total_pure _
        | some file =>
          refine Io.Total.bind (Io.total_noexcept _) fun positioned => ?_
          cases positioned <;> exact Io.total_pure _

end FileCache

/-! ## The router -/

namespace Router

variable (router : Router) (request : Request) (w : σ)

theorem returns_serveFile_iff (path : Bytes) :
    Io.Returns (router.serveFile sys request path) w
      ↔ sys.StatusReturns (router.cache.getCachePath path) w
        ∧ ((request.find (lit "Range")).getD [] ≠ [] →
          ∀ w', router.cache.LooksUpAgain sys path ((request.find (lit "Range")).getD []) w w' →
            sys.StatusReturns (router.cache.getCachePath path) w') := by
  rw [serveFile]
  by_cases hrange : (request.find (lit "Range")).getD [] ≠ []
  · rw [if_pos hrange, Io.returns_map_iff, FileCache.returns_getOrFetchWithRange_iff hrange]
    exact and_congr_right fun _ => (imp_iff_right hrange).symm
  · rw [if_neg hrange, and_iff_left fun h => absurd h hrange]
    split_ifs
    · rw [Io.returns_map_iff, FileCache.returns_getOrFetchWithConditional_iff]
    · rw [Io.returns_map_iff, FileCache.returns_getOrFetch_iff]

theorem returns_plainResponseRouter_iff :
    Io.Returns (router.plainResponseRouter sys request) w ↔ router.StatusReturns sys request w := by
  rw [plainResponseRouter_eq, StatusReturns]
  cases plainRequestPath request.target with
  | none => exact iff_of_true (Io.total_pure _ _) nofun
  | some path =>
    simp only [Option.some.injEq, forall_eq']
    exact returns_serveFile_iff sys router request w path

end Router

end

/-- **With status calls that report every error by their result, no plain request would throw.** -/
theorem total_plainResponseRouter {σ : Type} {sys : System σ} (router : Router) (request : Request)
    (hexists : ∀ path, Io.Total (sys.fileExists path))
    (hregular : ∀ path, Io.Total (sys.isRegularFile path)) :
    Io.Total (router.plainResponseRouter sys request) := fun w =>
  (Router.returns_plainResponseRouter_iff sys router request w).2 fun _ _ =>
    ⟨⟨hexists _ w, fun w₁ _ => hregular _ w₁⟩,
      fun _ w' _ => ⟨hexists _ w', fun w₁ _ => hregular _ w₁⟩⟩

/-- **Which plain requests do not make the router throw**: those whose status calls return. -/
theorem plainResponseRouter_returns_iff {σ : Type} (sys : System σ) (router : Router)
    (request : Request) (w : σ) :
    (∃ answer w', router.plainResponseRouter sys request w = .ok answer w')
      ↔ router.StatusReturns sys request w :=
  Router.returns_plainResponseRouter_iff sys router request w

/-- A request for a file whose name is longer than the file system allows: the status calls fail,
and what they throw leaves the router. -/
theorem plainResponseRouter_throws :
    ¬ ∀ (sys : System TreeDisk) (router : Router) (request : Request) (w : TreeDisk),
      ∃ answer w', router.plainResponseRouter sys request w = .ok answer w' := by
  intro hall
  let script : Script :=
    { Script.offline .current with status := some ⟨.filesystemError, lit "File name too long"⟩ }
  have hname (n : Nat) : plainRequestPath (lit "/" ++ List.replicate (n + 1) 97)
      = some (lit "/" ++ List.replicate (n + 1) 97) :=
    plainRequestPath_eq_self (by simp +decide [List.mem_replicate]) (by simp)
      (by simp [List.replicate_succ])
  have hreturns := hall (Disk.system (.tree []) script) ⟨⟨{}, lit "./cache", lit "ftp.debian.org"⟩,
    lit "0.1.0"⟩ ⟨.get, lit "/" ++ List.replicate 256 97, 11, [], []⟩ (.empty [])
  obtain ⟨⟨⟨_, _, hexists⟩, -⟩, -⟩ :=
    (Router.returns_plainResponseRouter_iff _ _ _ _).1 hreturns _ (hname 255)
  cases hexists

end PacPrism
