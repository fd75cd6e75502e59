import PacPrism.Console.Etags
import PacPrism.Console.Fetching

/-!
# Console/IgnoredHeaders — headers that change nothing

The three operations repeat the lookup, the fetch and the answer with the whole file.  Where the
header turns out to ask for nothing else, one of them starts over with the plain operation and one
goes through its own copy; either way the run is that of the plain operation.
-/

namespace PacPrism

namespace FileCache

variable {σ : Type} (sys : System σ) (cache : FileCache) (path : Bytes)

/-- A fetch that reports success leaves a regular file in the cache. -/
def FetchCaches (s : σ) : Prop :=
  ∀ s', cache.fetchFromUpstream sys path s = .ok true s' →
    cache.isCached sys path s' = .ok true s'

/-- The header asks for no valid range of the file, once that is there. -/
def NoValidRange (rangeHeader : Bytes) (s : σ) : Prop :=
  ∀ s₁ range s₂, cache.ensureCached sys path s = .ok true s₁ →
    parseRangeHeader sys rangeHeader (cache.getCachePath path) s₁ = .ok range s₂ →
    range.valid = false

/-- Neither validator matches the file, once that is there. -/
def NoValidatorMatches (ifModifiedSince ifNoneMatch : Bytes) (s : σ) : Prop :=
  ∀ s₁, cache.ensureCached sys path s = .ok true s₁ →
    (∀ modified s₂, checkModifiedSince sys ifModifiedSince (cache.getCachePath path) s₁
      = .ok modified s₂ → modified = true)
    ∧ (ifNoneMatch ≠ [] → ∀ etag s₂, generateEtag sys (cache.getCachePath path) s₁
      = .ok etag s₂ → etag ≠ ifNoneMatch)

variable {sys cache path} {ifModifiedSince ifNoneMatch compared : Bytes} {s s₁ s₂ s₃ : σ}

/-! ## The plain operation, started over -/

/-- The file that the first step obtained is found when it is run again. -/
theorem ensureCached_again (hsteady : sys.Steady) (hfetch : cache.FetchCaches sys path s)
    (h : cache.ensureCached sys path s = .ok true s₁) :
    cache.ensureCached sys path s₁ = .ok true s₁ := by
  have hfound : cache.isCached sys path s₁ = .ok true s₁ := by
    rw [ensureCached] at h
    obtain ⟨cached, s', hcached, h⟩ := Io.bind_eq_ok h
    obtain rfl := (readOnly_isCached cache hsteady path).eq_of_ok hcached
    cases cached with
    | true =>
      cases h
      exact hcached
    | false => exact hfetch s₁ h
  rw [ensureCached, Io.bind_of_ok hfound]
  rfl

/-- All that the answer depends on is what the first step leaves. -/
theorem getOrFetch_congr (h : cache.ensureCached sys path s = cache.ensureCached sys path s₁)
    (version : Nat) :
    cache.getOrFetch sys path version s = cache.getOrFetch sys path version s₁ := by
  rw [getOrFetch, Io.bind_apply, Io.bind_apply, h]

/-- The copy at the end of the conditional operation. -/
theorem conditional_of_noMatch (hcached : cache.ensureCached sys path s = .ok true s₁)
    (hcheck : checkModifiedSince sys ifModifiedSince (cache.getCachePath path) s₁ = .ok true s₂)
    (hcompare : etagToCompare sys ifNoneMatch (cache.getCachePath path) s₂ = .ok compared s₃)
    (htag : ¬ (ifNoneMatch ≠ [] ∧ compared = ifNoneMatch))
    (hagain : cache.ensureCached sys path s₃ = .ok true s₃) (version : Nat) :
    cache.getOrFetchWithConditional sys path version ifModifiedSince ifNoneMatch s
      = (FileCacheResponse.fileBody <$> cache.getOrFetch sys path version) s₃ := by
  rw [getOrFetchWithConditional, Io.bind_of_ok hcached, if_pos rfl, Io.bind_of_ok hcheck,
    if_neg (by decide), Io.bind_of_ok hcompare, if_neg htag, map_eq_pure_bind, getOrFetch,
    Io.bind_apply, Io.bind_apply, Io.bind_of_ok hagain, if_pos rfl, Io.bind_apply]
  dsimp only [Io.noexcept_apply]
  cases (sys.openFile (cache.getCachePath path) s₃).1 with
  | none => rfl
  | some file =>
    obtain ⟨lastModified, s₅, hlast⟩ := total_getLastModified sys (cache.getCachePath path)
      (sys.openFile (cache.getCachePath path) s₃).2
    obtain ⟨etag, s₆, hetag⟩ := total_generateEtag sys (cache.getCachePath path) s₅
    dsimp only
    rw [Io.bind_of_ok hlast, Io.bind_of_ok hlast, Io.bind_of_ok hetag, Io.bind_of_ok hetag]
    rfl

/-! ## The two operations -/

theorem getOrFetchWithRange_of_noValidRange (hsteady : sys.Steady)
    (hfetch : cache.FetchCaches sys path s) {rangeHeader : Bytes}
    (hrange : cache.NoValidRange sys path rangeHeader s) (version : Nat) :
    cache.getOrFetchWithRange sys path version rangeHeader s
      = cache.getOrFetch sys path version s := by
  cases hcached : cache.ensureCached sys path s with
  | error e s₁ =>
    rw [getOrFetchWithRange, Io.bind_of_error hcached, getOrFetch, Io.bind_of_error hcached]
  | ok cached s₁ =>
    cases cached with
    | false =>
      rw [getOrFetchWithRange, Io.bind_of_ok hcached, getOrFetch, Io.bind_of_ok hcached]
      rfl
    | true =>
      have hagain := ensureCached_again hsteady hfetch hcached
      obtain ⟨range, hparse⟩ :=
        (total_parseRangeHeader sys rangeHeader (cache.getCachePath path)).exists_ok
          (readOnly_parseRangeHeader hsteady rangeHeader (cache.getCachePath path)) s₁
      rw [getOrFetchWithRange, Io.bind_of_ok hcached, if_pos rfl, Io.bind_of_ok hparse,
        if_pos (.inl (hrange s₁ range s₁ hcached hparse))]
      exact getOrFetch_congr (hagain.trans hcached.symm) version

theorem getOrFetchWithConditional_of_noValidatorMatches (hsteady : sys.Steady)
    (hfetch : cache.FetchCaches sys path s)
    (hmatch : cache.NoValidatorMatches sys path ifModifiedSince ifNoneMatch s) (version : Nat) :
    cache.getOrFetchWithConditional sys path version ifModifiedSince ifNoneMatch s
      = (FileCacheResponse.fileBody <$> cache.getOrFetch sys path version) s := by
  rw [map_eq_pure_bind]
  cases hcached : cache.ensureCached sys path s with
  | error e s₁ =>
    have hplain : cache.getOrFetch sys path version s = .error e s₁ := by
      rw [getOrFetch, Io.bind_of_error hcached]
    rw [getOrFetchWithConditional, Io.bind_of_error hcached, Io.bind_of_error hplain]
  | ok cached s₁ =>
    cases cached with
    | false =>
      have hplain : cache.getOrFetch sys path version s = .ok none s₁ := by
        rw [getOrFetch, Io.bind_of_ok hcached]
        rfl
      rw [getOrFetchWithConditional, Io.bind_of_ok hcached, Io.bind_of_ok hplain]
      rfl
    | true =>
      have hagain := ensureCached_again hsteady hfetch hcached
      obtain ⟨hdate, htag⟩ := hmatch s₁ hcached
      obtain ⟨modified, hcheck⟩ :=
        (total_checkModifiedSince sys ifModifiedSince (cache.getCachePath path)).exists_ok
          (readOnly_checkModifiedSince hsteady ifModifiedSince (cache.getCachePath path)) s₁
      obtain rfl : modified = true := hdate modified s₁ hcheck
      obtain ⟨compared, hcompare⟩ :=
        (total_etagToCompare sys ifNoneMatch (cache.getCachePath path)).exists_ok
          (readOnly_etagToCompare hsteady ifNoneMatch (cache.getCachePath path)) s₁
      have hdiffers : ¬ (ifNoneMatch ≠ [] ∧ compared = ifNoneMatch) := by
        rintro ⟨hne, heq⟩
        have hetag := hcompare
        rw [etagToCompare, if_neg hne] at hetag
        exact htag hne compared s₁ hetag heq
      rw [conditional_of_noMatch hcached hcheck hcompare hdiffers hagain version, map_eq_pure_bind,
        Io.bind_apply, Io.bind_apply, getOrFetch_congr (hagain.trans hcached.symm) version]

end FileCache

/-- **Ignored headers do not change the answer**: the operations with headers run like the plain
one, to the same answer, null pointer or exception. -/
theorem ignoredHeaders {σ : Type} {sys : System σ} (hsteady : sys.Steady) {cache : FileCache}
    {path : Bytes} {s : σ} (hfetch : cache.FetchCaches sys path s) (version : Nat) :
    (∀ rangeHeader, cache.NoValidRange sys path rangeHeader s →
      cache.getOrFetchWithRange sys path version rangeHeader s
        = cache.getOrFetch sys path version s)
    ∧ ∀ ifModifiedSince ifNoneMatch,
      cache.NoValidatorMatches sys path ifModifiedSince ifNoneMatch s →
        cache.getOrFetchWithConditional sys path version ifModifiedSince ifNoneMatch s
          = (FileCacheResponse.fileBody <$> cache.getOrFetch sys path version) s :=
  ⟨fun _ hrange => FileCache.getOrFetchWithRange_of_noValidRange hsteady hfetch hrange version,
    fun _ _ hmatch =>
      FileCache.getOrFetchWithConditional_of_noValidatorMatches hsteady hfetch hmatch version⟩

/-- A fetch that reports success has made the file, whatever the disk has lost of its content. -/
theorem Disk.fetchCaches {δ κ : Type} [DecidableEq κ] (volume : Volume δ κ) {script : Script}
    (hstatus : script.status = none) (cache : FileCache) (path : Bytes) (d : Disk volume) :
    cache.FetchCaches (system volume script) path d.next := by
  intro d' hfetch
  obtain ⟨k, d'', hk, hrun, hfiles, hdirectories⟩ := fetchFromUpstream_apply script cache path d
  obtain ⟨hfetched, rfl⟩ := EStateM.Result.ok.inj (hfetch.symm.trans hrun)
  obtain ⟨body, hbody⟩ := Option.isSome_iff_exists.1 hfetched.symm
  rw [isCached_apply cache path d' hstatus, read_of_written hk hbody hfiles hdirectories]
  rfl

/-- A file that is not there is fetched. -/
theorem Disk.ensureCached_of_written {δ κ : Type} [DecidableEq κ] (volume : Volume δ κ)
    {script : Script} (hstatus : script.status = none) {cache : FileCache} {path : Bytes}
    {d : Disk volume} (hnot : d.read (cache.getCachePath path) = none) {body : List Bytes}
    (hwritten : script.written 0 cache.config.getMaxRetries.toNat = some body) :
    ∃ d', cache.ensureCached (system volume script) path d.next = .ok true d'
      ∧ d'.read (cache.getCachePath path) = some (script.stored body) := by
  obtain ⟨k, d', hk, hrun, hfiles, hdirectories⟩ := fetchFromUpstream_apply script cache path d
  refine ⟨d', ?_, read_of_written hk hwritten hfiles hdirectories⟩
  have hmiss : cache.isCached (system volume script) path d.next = .ok false d.next := by
    rw [isCached_apply cache path d.next hstatus]
    exact congrArg (fun content : Option Bytes => EStateM.Result.ok content.isSome d.next) hnot
  rw [hwritten] at hrun
  rw [FileCache.ensureCached, Io.bind_of_ok hmiss]
  exact hrun

/-- A call in which upstream sends this file. -/
def Script.sends (content : Bytes) : Script :=
  { Script.offline .current with roundTrip := fun _ => .ok ⟨200, [content]⟩ }

/-- A file of four bytes is fetched and sent whole: the range starts behind its end, the date is
none and the entity tag is another one. -/
theorem ignoredHeaders_fetched :
    let sys := Disk.system (.tree []) (.sends (lit "data"))
    let cache : FileCache := ⟨{}, lit "./cache", lit "ftp.debian.org"⟩
    let d := Disk.empty []
    cache.getOrFetchWithRange sys (lit "/f") 11 (lit "bytes=9-") d
        = cache.getOrFetch sys (lit "/f") 11 d
      ∧ cache.getOrFetchWithConditional sys (lit "/f") 11 (lit "yesterday") (lit "\"9-0\"") d
        = (FileCacheResponse.fileBody <$> cache.getOrFetch sys (lit "/f") 11) d := by
  intro sys cache d
  have hsteady : sys.Steady := Disk.steady (.tree []) (.sends (lit "data"))
  obtain ⟨hrange, hconditional⟩ :=
    ignoredHeaders hsteady (Disk.fetchCaches (.tree []) rfl cache (lit "/f") d) 11
  have hnot : d.read (cache.getCachePath (lit "/f")) = none := rfl
  have hwritten : (Script.sends (lit "data")).written 0 cache.config.getMaxRetries.toNat
      = some [lit "data"] := by decide
  obtain ⟨d', hensure, hfile⟩ := Disk.ensureCached_of_written (.tree []) rfl hnot hwritten
  refine ⟨hrange _ fun s₁ range s₂ h hparse => ?_, hconditional _ _ fun s₁ h => ?_⟩
  · cases hensure.symm.trans h
    cases (Disk.parseRangeHeader_apply (lit "bytes=9-") rfl hfile).symm.trans hparse
    decide
  · cases hensure.symm.trans h
    refine ⟨fun modified s₂ hcheck => ?_, fun _ etag s₂ hetag => ?_⟩
    · have hchecked : FileCache.checkModifiedSince sys (lit "yesterday") (lit "./cache/f") d'
          = .ok true d' := rfl
      cases hchecked.symm.trans hcheck
      rfl
    · have huntouched : (Script.sends (lit "data")).Untouched 0 0 ⟨0, 0⟩ := ⟨rfl, rfl, rfl, rfl⟩
      have hfile : d'.read (lit "./cache/f") = some (lit "data") := hfile
      have hcurrent := Disk.currentEtag_of_untouched huntouched hfile
      cases (Disk.generateEtag_apply (.tree []) _ (lit "./cache/f") d').symm.trans hetag
      rw [hcurrent]
      decide

end PacPrism
