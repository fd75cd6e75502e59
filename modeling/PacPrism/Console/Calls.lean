import PacPrism.Console.FileCache

/-!
# Console/Calls — operations are as related as their calls

    calls of sys'  ──R──  calls of sys
         │                    │
         ▾                    ▾
    operation sys' ──R──  operation sys

The operations look at the surroundings through the calls of `System`, in sequences and `try`
blocks.  A relation that these respect holds of an operation over two surroundings, or over one, if
it holds of the calls on its path.
-/

namespace PacPrism

/-- Whatever looks at the file on a path is related; nothing else tells the surroundings apart. -/
structure System.LooksAlike {σ' σ : Type} (R : Io.Relation σ' σ) (sys' : System σ')
    (sys : System σ) (path : Bytes) : Prop where
  fileExists : R.rel (sys'.fileExists path) (sys.fileExists path)
  isRegularFile : R.rel (sys'.isRegularFile path) (sys.isRegularFile path)
  fileSize : R.rel (sys'.fileSize path) (sys.fileSize path)
  lastWriteTime : R.rel (sys'.lastWriteTime path) (sys.lastWriteTime path)
  openFile : R.rel (Io.noexcept (sys'.openFile path)) (Io.noexcept (sys.openFile path))
  seek : ∀ file offset,
    R.rel (Io.noexcept (sys'.seek file offset)) (Io.noexcept (sys.seek file offset))
  readClocks : R.rel (Io.noexcept sys'.readClocks) (Io.noexcept sys.readClocks)
  time : sys'.time = sys.time
  release : sys'.release = sys.release

/-- **Whatever is asked of the surroundings keeps a property of them.** -/
structure System.Preserves {σ : Type} (sys : System σ) (I : σ → Prop) : Prop where
  looks : ∀ path, System.LooksAlike (Io.keeping I) sys sys path
  createDirectories : ∀ path, Io.Keeps I (sys.createDirectories path)
  roundTrip : ∀ request, Io.Keeps I (sys.roundTrip request)
  openStream : ∀ path s, I s → I (sys.openStream path s).2
  writeStream : ∀ path buffer s, I s → I (sys.writeStream path buffer s)
  closeStream : ∀ path s, I s → I (sys.closeStream path s)
  sleepFor : ∀ seconds s, I s → I (sys.sleepFor seconds s)
  systemClock : ∀ s, I s → I (sys.systemClock s).2

namespace FileCache

variable {σ' σ : Type} {R : Io.Relation σ' σ} {sys' : System σ'} {sys : System σ}
  (cache : FileCache) {requestPath path : Bytes}

/-! ## Looking at the file -/

theorem related_isCached (h : System.LooksAlike R sys' sys (cache.getCachePath requestPath)) :
    R.rel (cache.isCached sys' requestPath) (cache.isCached sys requestPath) := by
  refine R.bind h.fileExists fun found => ?_
  split_ifs
  exacts [h.isRegularFile, R.pure false]

section Looks

variable (h : System.LooksAlike R sys' sys path)

include h

theorem related_modificationTime :
    R.rel (modificationTime sys' path) (modificationTime sys path) :=
  R.bind h.lastWriteTime fun _ => R.bind h.readClocks fun _ => R.pure _

theorem related_getLastModified :
    R.rel (getLastModified sys' path) (getLastModified sys path) := by
  rw [getLastModified, h.time]
  exact R.tryCatch (R.bind (related_modificationTime h) fun _ => R.pure _) fun _ => R.pure _

theorem related_generateEtag : R.rel (generateEtag sys' path) (generateEtag sys path) :=
  R.tryCatch (R.bind (related_modificationTime h) fun _ => R.bind h.fileSize fun _ => R.pure _)
    fun _ => R.pure _

theorem related_etagToCompare (ifNoneMatch : Bytes) :
    R.rel (etagToCompare sys' ifNoneMatch path) (etagToCompare sys ifNoneMatch path) := by
  rw [etagToCompare, etagToCompare]
  split_ifs
  exacts [R.pure [], related_generateEtag h]

theorem related_checkModifiedSince (ifModifiedSince : Bytes) :
    R.rel (checkModifiedSince sys' ifModifiedSince path)
      (checkModifiedSince sys ifModifiedSince path) := by
  have hdate : parseHttpDate sys' ifModifiedSince = parseHttpDate sys ifModifiedSince := by
    rw [parseHttpDate, parseHttpDate, h.time]
  rw [checkModifiedSince, checkModifiedSince, hdate]
  split_ifs
  · exact R.pure true
  · refine R.tryCatch (R.bind (related_modificationTime h) fun _ => ?_) fun _ => R.pure true
    dsimp only
    split_ifs <;> exact R.pure _

theorem related_parseRangeHeader (rangeHeader : Bytes) :
    R.rel (parseRangeHeader sys' rangeHeader path) (parseRangeHeader sys rangeHeader path) := by
  refine R.bind (R.tryCatch (R.map h.fileSize some) fun _ => R.pure none) fun size => ?_
  cases size <;> exact R.pure _

end Looks

/-! ## Fetching -/

section Fetching

variable {I : σ → Prop}

/-- **What a pass and a pause keep, the retry loop keeps.** -/
theorem keeps_fetchFrom (hattempt : Io.Keeps I (cache.fetchAttempt sys requestPath))
    (hsleep : ∀ seconds s, I s → I (sys.sleepFor seconds s)) (retry remaining : Nat) :
    Io.Keeps I (cache.fetchFrom sys requestPath retry remaining) := by
  induction remaining generalizing retry with
  | zero => exact Io.keeps_pure I false
  | succ remaining ih =>
    rw [fetchFrom]
    refine (Io.Keeps.tryCatch (hattempt.map some) fun e => ?_).bind fun returned => ?_
    · split_ifs
      · exact Io.keeps_pure I _
      · exact (Io.keeps_modify fun s hs => hsleep _ s hs).bind fun _ => Io.keeps_pure I none
      · exact Io.keeps_pure I _
    · cases returned with
      | some result => exact Io.keeps_pure I result
      | none => exact ih (retry + 1)

variable (h : sys.Preserves I)

include h

theorem keeps_fetchAttempt (requestPath : Bytes) :
    Io.Keeps I (cache.fetchAttempt sys requestPath) := by
  rw [fetchAttempt]
  refine (h.roundTrip _).bind fun res => ?_
  split_ifs
  · exact Io.keeps_pure I false
  · exact Io.keeps_throw I _
  · refine (h.createDirectories _).bind fun _ =>
      (Io.keeps_noexcept fun s hs => h.openStream _ s hs).bind fun opened => ?_
    split_ifs
    · refine (Io.keeps_modify fun s hs => ?_).bind fun _ =>
        (Io.keeps_modify fun s hs => h.closeStream _ s hs).bind fun _ => Io.keeps_pure I true
      exact List.foldlRecOn res.body _ hs fun s hs buffer _ => h.writeStream _ buffer s hs
    · exact Io.keeps_pure I false

theorem keeps_ensureCached (requestPath : Bytes) :
    Io.Keeps I (cache.ensureCached sys requestPath) := by
  refine Io.Keeps.bind (cache.related_isCached (h.looks _)) fun cached => ?_
  split_ifs
  · exact Io.keeps_pure I true
  · exact cache.keeps_fetchFrom (cache.keeps_fetchAttempt h requestPath) h.sleepFor 0 _

end Fetching

/-! ## The three operations -/

section Operations

variable (h : System.LooksAlike R sys' sys (cache.getCachePath requestPath))
  (hensure : R.rel (cache.ensureCached sys' requestPath) (cache.ensureCached sys requestPath))

include h hensure

theorem related_getOrFetch (httpVersion : Nat) :
    R.rel (cache.getOrFetch sys' requestPath httpVersion)
      (cache.getOrFetch sys requestPath httpVersion) := by
  refine R.bind hensure fun ok => ?_
  split_ifs
  · refine R.bind h.openFile fun file => ?_
    cases file with
    | none => exact R.pure none
    | some file =>
      dsimp only
      rw [h.release]
      exact R.bind (related_getLastModified h) fun _ => R.bind (related_generateEtag h) fun _ =>
        R.pure _
  · exact R.pure none

theorem related_getOrFetchWithRange (httpVersion : Nat) (rangeHeader : Bytes) :
    R.rel (cache.getOrFetchWithRange sys' requestPath httpVersion rangeHeader)
      (cache.getOrFetchWithRange sys requestPath httpVersion rangeHeader) := by
  refine R.bind hensure fun ok => ?_
  split_ifs
  · refine R.bind (related_parseRangeHeader h rangeHeader) fun range => ?_
    split_ifs
    · exact cache.related_getOrFetch h hensure httpVersion
    · refine R.bind h.openFile fun file => ?_
      cases file with
      | none => exact R.pure none
      | some file =>
        refine R.bind (h.seek file range.start) fun file => ?_
        cases file with
        | none => exact R.pure none
        | some file =>
          dsimp only
          rw [partialContent, partialContent, h.release]
          exact R.pure _
  · exact R.pure none

theorem related_getOrFetchWithConditional (httpVersion : Nat)
    (ifModifiedSince ifNoneMatch : Bytes) :
    R.rel (cache.getOrFetchWithConditional sys' requestPath httpVersion ifModifiedSince ifNoneMatch)
      (cache.getOrFetchWithConditional sys requestPath httpVersion ifModifiedSince
        ifNoneMatch) := by
  refine R.bind hensure fun ok => ?_
  have hnot (httpVersion : Nat) (lastModified etag : Bytes) :
      notModified sys' httpVersion lastModified etag
        = notModified sys httpVersion lastModified etag := by
    rw [notModified, notModified, h.release]
  split_ifs
  · refine R.bind (related_checkModifiedSince h ifModifiedSince) fun modified => ?_
    split_ifs
    · refine R.bind (related_getLastModified h) fun _ => R.bind (related_generateEtag h) fun _ => ?_
      rw [hnot]
      exact R.pure _
    · refine R.bind (related_etagToCompare h ifNoneMatch) fun etag => ?_
      split_ifs
      · refine R.bind (related_getLastModified h) fun _ => ?_
        rw [hnot]
        exact R.pure _
      · refine R.bind h.openFile fun file => ?_
        cases file with
        | none => exact R.pure _
        | some file =>
          dsimp only
          rw [h.release]
          exact R.bind (related_getLastModified h) fun _ => R.bind (related_generateEtag h) fun _ =>
            R.pure _
  · exact R.pure _

end Operations

end FileCache

end PacPrism
