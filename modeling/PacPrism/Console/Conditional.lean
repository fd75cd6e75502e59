import PacPrism.Console.Disk

/-!
# Console/Conditional — what decides a conditional request with an entity tag

The two validators are checked one after the other, the date first.  A date that says the client's
copy is current ends the function before the entity tag is looked at.
-/

namespace PacPrism

namespace FileCacheResponse

/-- The answer is a 304. -/
def IsNotModified : FileCacheResponse → Prop
  | .emptyBody (some response) => response.status = .notModified
  | _ => False

/-- The answer is a 200 with this content. -/
def IsFull (content : Bytes) : FileCacheResponse → Prop
  | .fileBody (some response) => response.status = .ok ∧ response.body.sent = content
  | _ => False

/-- **The answer is decided by the entity tag**: a 304 exactly if the tag of the client is that of
the file, and else the file. -/
def DecidedByTag (ifNoneMatch currentEtag content : Bytes) (r : FileCacheResponse) : Prop :=
  (r.IsNotModified ↔ ifNoneMatch = currentEtag)
    ∧ (ifNoneMatch ≠ currentEtag → r.IsFull content)

end FileCacheResponse

/-! ## The ways through the operation -/

namespace FileCache

section Answers

variable {σ : Type} {sys : System σ} {cache : FileCache} {path ifModifiedSince ifNoneMatch : Bytes}
  {lastModified compared etag : Bytes} {file : FileBody} {s s₁ s₂ s₃ s₄ s₅ s₆ : σ} (version : Nat)

/-- What is compared with the modification time is the number the header is read as. -/
theorem checkModifiedSince_of_ok {cachePath : Bytes} {modified : Int}
    (hheader : ifModifiedSince ≠ []) (h : modificationTime sys cachePath s = .ok modified s₁) :
    checkModifiedSince sys ifModifiedSince cachePath s
      = .ok (decide (parseHttpDate sys ifModifiedSince = 0
        ∨ parseHttpDate sys ifModifiedSince < modified)) s₁ := by
  rw [checkModifiedSince, if_neg hheader]
  refine Io.tryCatch_of_ok ?_ _
  rw [Io.bind_of_ok h]
  by_cases hzero : parseHttpDate sys ifModifiedSince = 0
  · rw [if_pos hzero, decide_eq_true (.inl hzero)]
    rfl
  · rw [if_neg hzero]
    simp only [hzero, false_or]
    rfl

/-- The date says that the client's copy is current. -/
theorem conditional_of_unmodified (hcached : cache.ensureCached sys path s = .ok true s₁)
    (hcheck : checkModifiedSince sys ifModifiedSince (cache.getCachePath path) s₁ = .ok false s₂)
    (hlast : getLastModified sys (cache.getCachePath path) s₂ = .ok lastModified s₃)
    (hetag : generateEtag sys (cache.getCachePath path) s₃ = .ok etag s₄) :
    cache.getOrFetchWithConditional sys path version ifModifiedSince ifNoneMatch s
      = .ok (.emptyBody (some (notModified sys version lastModified etag))) s₄ := by
  rw [getOrFetchWithConditional, Io.bind_of_ok hcached, if_pos rfl, Io.bind_of_ok hcheck,
    if_pos (by decide), Io.bind_of_ok hlast, Io.bind_of_ok hetag]
  rfl

/-- The date does not say so, but the entity tag does. -/
theorem conditional_of_tag (hcached : cache.ensureCached sys path s = .ok true s₁)
    (hcheck : checkModifiedSince sys ifModifiedSince (cache.getCachePath path) s₁ = .ok true s₂)
    (hcompare : etagToCompare sys ifNoneMatch (cache.getCachePath path) s₂ = .ok compared s₃)
    (htag : ifNoneMatch ≠ [] ∧ compared = ifNoneMatch)
    (hlast : getLastModified sys (cache.getCachePath path) s₃ = .ok lastModified s₄) :
    cache.getOrFetchWithConditional sys path version ifModifiedSince ifNoneMatch s
      = .ok (.emptyBody (some (notModified sys version lastModified compared))) s₄ := by
  rw [getOrFetchWithConditional, Io.bind_of_ok hcached, if_pos rfl, Io.bind_of_ok hcheck,
    if_neg (by decide), Io.bind_of_ok hcompare, if_pos htag, Io.bind_of_ok hlast]
  rfl

/-- Neither says so, and the file cannot be opened. -/
theorem conditional_of_unopened (hcached : cache.ensureCached sys path s = .ok true s₁)
    (hcheck : checkModifiedSince sys ifModifiedSince (cache.getCachePath path) s₁ = .ok true s₂)
    (hcompare : etagToCompare sys ifNoneMatch (cache.getCachePath path) s₂ = .ok compared s₃)
    (htag : ¬ (ifNoneMatch ≠ [] ∧ compared = ifNoneMatch))
    (hopen : sys.openFile (cache.getCachePath path) s₃ = (none, s₄)) :
    cache.getOrFetchWithConditional sys path version ifModifiedSince ifNoneMatch s
      = .ok (.fileBody none) s₄ := by
  have hopened : Io.noexcept (sys.openFile (cache.getCachePath path)) s₃ = .ok none s₄ := by
    rw [Io.noexcept_apply, hopen]
  rw [getOrFetchWithConditional, Io.bind_of_ok hcached, if_pos rfl, Io.bind_of_ok hcheck,
    if_neg (by decide), Io.bind_of_ok hcompare, if_neg htag, Io.bind_of_ok hopened]
  rfl

/-- Neither says so, and the file is sent with its entity tag. -/
theorem conditional_of_opened (hcached : cache.ensureCached sys path s = .ok true s₁)
    (hcheck : checkModifiedSince sys ifModifiedSince (cache.getCachePath path) s₁ = .ok true s₂)
    (hcompare : etagToCompare sys ifNoneMatch (cache.getCachePath path) s₂ = .ok compared s₃)
    (htag : ¬ (ifNoneMatch ≠ [] ∧ compared = ifNoneMatch))
    (hopen : sys.openFile (cache.getCachePath path) s₃ = (some file, s₄))
    (hlast : getLastModified sys (cache.getCachePath path) s₄ = .ok lastModified s₅)
    (hetag : generateEtag sys (cache.getCachePath path) s₅ = .ok etag s₆) :
    ∃ response : Response FileBody,
      cache.getOrFetchWithConditional sys path version ifModifiedSince ifNoneMatch s
          = .ok (.fileBody (some response)) s₆
        ∧ response.status = .ok ∧ response.body = file ∧ response.find .etag = some etag := by
  have hopened : Io.noexcept (sys.openFile (cache.getCachePath path)) s₃ = .ok (some file) s₄ := by
    rw [Io.noexcept_apply, hopen]
  rw [getOrFetchWithConditional, Io.bind_of_ok hcached, if_pos rfl, Io.bind_of_ok hcheck,
    if_neg (by decide), Io.bind_of_ok hcompare, if_neg htag, Io.bind_of_ok hopened]
  dsimp only
  rw [Io.bind_of_ok hlast, Io.bind_of_ok hetag]
  exact ⟨_, rfl, rfl, rfl, by simp⟩

end Answers

end FileCache

namespace Disk

variable {δ κ : Type} [DecidableEq κ] (volume : Volume δ κ) (script : Script)

/-- The current entity tag of a file; empty where its size or its modification time cannot be
read. -/
def currentEtag (cachePath : Bytes) (d : Disk volume) : Bytes :=
  match FileCache.generateEtag (system volume script) cachePath d with
  | .ok etag _ => etag
  | .error _ _ => []

/-- The header holds a date, and the file was modified at that time the latest. -/
def UnmodifiedSince (ifModifiedSince : Bytes) : Prop :=
  ifModifiedSince ≠ [] ∧ FileCache.parseHttpDate (system volume script) ifModifiedSince ≠ 0
    ∧ ∃ ftime, script.lastWriteTime = .ok ftime
      ∧ toTimeT (ftime - script.clocks.1 + script.clocks.2)
        ≤ FileCache.parseHttpDate (system volume script) ifModifiedSince

/-! ## The validators -/

theorem generateEtag_apply (cachePath : Bytes) (d : Disk volume) :
    FileCache.generateEtag (system volume script) cachePath d
      = .ok (currentEtag volume script cachePath d) d := by
  obtain ⟨etag, hetag⟩ :=
    (FileCache.total_generateEtag (system volume script) cachePath).exists_ok
      (FileCache.readOnly_generateEtag (steady volume script) cachePath) d
  rw [currentEtag, hetag]

theorem etagToCompare_apply {ifNoneMatch : Bytes} (h : ifNoneMatch ≠ []) (cachePath : Bytes)
    (d : Disk volume) : FileCache.etagToCompare (system volume script) ifNoneMatch cachePath d
      = .ok (currentEtag volume script cachePath d) d := by
  rw [FileCache.etagToCompare, if_neg h, generateEtag_apply]

theorem exists_getLastModified (cachePath : Bytes) (d : Disk volume) :
    ∃ lastModified, FileCache.getLastModified (system volume script) cachePath d
      = .ok lastModified d :=
  (FileCache.total_getLastModified (system volume script) cachePath).exists_ok
    (FileCache.readOnly_getLastModified (steady volume script) cachePath) d

variable {script} in
theorem modificationTime_of_ok {ftime : Int} (h : script.lastWriteTime = .ok ftime)
    (cachePath : Bytes) (d : Disk volume) :
    FileCache.modificationTime (system volume script) cachePath d
      = .ok (toTimeT (ftime - script.clocks.1 + script.clocks.2)) d := by
  have hask : (system volume script).lastWriteTime cachePath d = .ok ftime d := by
    simp only [system, answer, h]
  rw [FileCache.modificationTime, Io.bind_of_ok hask]
  rfl

variable {script} in
theorem modificationTime_of_error {e : Exn} (h : script.lastWriteTime = .error e)
    (cachePath : Bytes) (d : Disk volume) :
    FileCache.modificationTime (system volume script) cachePath d = .error e d := by
  have hask : (system volume script).lastWriteTime cachePath d = .error e d := by
    simp only [system, answer, h]
  rw [FileCache.modificationTime, Io.bind_of_error hask]

/-- The check of the date, whatever goes wrong in it. -/
theorem exists_checkModifiedSince (ifModifiedSince cachePath : Bytes) (d : Disk volume) :
    ∃ modified, FileCache.checkModifiedSince (system volume script) ifModifiedSince cachePath d
        = .ok modified d
      ∧ (modified = false ↔ UnmodifiedSince volume script ifModifiedSince) := by
  by_cases hheader : ifModifiedSince = []
  · rw [FileCache.checkModifiedSince, if_pos hheader]
    exact ⟨true, rfl, iff_of_false (by decide) fun h => h.1 hheader⟩
  rw [UnmodifiedSince, and_iff_right hheader]
  cases hwrite : script.lastWriteTime with
  | error e =>
    have hask := modificationTime_of_error volume hwrite cachePath d
    rw [FileCache.checkModifiedSince, if_neg hheader,
      Io.tryCatch_of_error (Io.bind_of_error hask _)]
    refine ⟨true, rfl, iff_of_false (by decide) ?_⟩
    rintro ⟨-, ftime, h, -⟩
    cases h
  | ok ftime =>
    have hask := modificationTime_of_ok volume hwrite cachePath d
    simp only [Except.ok.injEq, exists_eq_left']
    refine ⟨_, FileCache.checkModifiedSince_of_ok hheader hask, ?_⟩
    rw [decide_eq_false_iff_not, not_or, not_lt]

/-! ## The operation -/

section Operation

variable {volume script} {cache : FileCache}
  {path ifModifiedSince ifNoneMatch content : Bytes} {d : Disk volume} (version : Nat)

/-- Either validator alone leads to a 304. -/
theorem conditional_of_current (hstatus : script.status = none)
    (hfile : d.read (cache.getCachePath path) = some content) (htag : ifNoneMatch ≠ [])
    (h : UnmodifiedSince volume script ifModifiedSince
      ∨ ifNoneMatch = currentEtag volume script (cache.getCachePath path) d) :
    ∃ r, cache.getOrFetchWithConditional (system volume script) path version ifModifiedSince
      ifNoneMatch d = .ok r d ∧ r.IsNotModified := by
  obtain ⟨modified, hcheck, hmodified⟩ :=
    exists_checkModifiedSince volume script ifModifiedSince (cache.getCachePath path) d
  obtain ⟨lastModified, hlast⟩ := exists_getLastModified volume script (cache.getCachePath path) d
  have hcached := ensureCached_of_read cache hstatus hfile
  have hetag := generateEtag_apply volume script (cache.getCachePath path) d
  cases modified with
  | false => exact ⟨_, FileCache.conditional_of_unmodified version hcached hcheck hlast hetag, rfl⟩
  | true =>
    have heq := h.resolve_left fun hsince => nomatch hmodified.2 hsince
    have hcompare := etagToCompare_apply volume script htag (cache.getCachePath path) d
    exact ⟨_, FileCache.conditional_of_tag version hcached hcheck hcompare ⟨htag, heq.symm⟩ hlast,
      rfl⟩

/-- If neither holds, the file is answered, unless it cannot be opened. -/
theorem conditional_of_stale (hstatus : script.status = none)
    (hfile : d.read (cache.getCachePath path) = some content)
    (htag : ifNoneMatch ≠ []) (hsince : ¬ UnmodifiedSince volume script ifModifiedSince)
    (hne : ifNoneMatch ≠ currentEtag volume script (cache.getCachePath path) d) :
    ∃ r, cache.getOrFetchWithConditional (system volume script) path version ifModifiedSince
      ifNoneMatch d = .ok r d ∧ ¬ r.IsNotModified
      ∧ (r.IsFull content ↔ script.openFile = true) := by
  obtain ⟨modified, hcheck, hmodified⟩ :=
    exists_checkModifiedSince volume script ifModifiedSince (cache.getCachePath path) d
  obtain rfl : modified = true := by
    rwa [← hmodified, Bool.not_eq_false] at hsince
  obtain ⟨lastModified, hlast⟩ := exists_getLastModified volume script (cache.getCachePath path) d
  have hcached := ensureCached_of_read cache hstatus hfile
  have hetag := generateEtag_apply volume script (cache.getCachePath path) d
  have hcompare := etagToCompare_apply volume script htag (cache.getCachePath path) d
  have hopened : (system volume script).openFile (cache.getCachePath path) d
      = (if script.openFile then some ⟨content, 0⟩ else none, d) := by
    dsimp only [system]
    rw [hfile]
    rfl
  by_cases hopen : script.openFile = true
  · rw [if_pos hopen] at hopened
    obtain ⟨response, hrun, hok, hbody, -⟩ := FileCache.conditional_of_opened version hcached
      hcheck hcompare (fun h => hne h.2.symm) hopened hlast hetag
    exact ⟨_, hrun, id, iff_of_true ⟨hok, by rw [hbody]; exact List.drop_zero⟩ hopen⟩
  · rw [if_neg hopen] at hopened
    exact ⟨_, FileCache.conditional_of_unopened version hcached hcheck hcompare
      (fun h => hne h.2.symm) hopened, id, iff_of_false id hopen⟩

end Operation

end Disk

/-- **What decides a conditional request with an entity tag**: the tag, if it is that of the file,
and otherwise if the date does not say that the file is unmodified and the file can be opened. -/
theorem conditional_decidedByTag_iff {δ κ : Type} [DecidableEq κ] (volume : Volume δ κ)
    (cache : FileCache) (script : Script) (path : Bytes) (version : Nat) (d : Disk volume)
    (ifModifiedSince ifNoneMatch content : Bytes) (hstatus : script.status = none)
    (hfile : d.read (cache.getCachePath path) = some content)
    (htag : ifNoneMatch ≠ []) :
    (∃ r d', cache.getOrFetchWithConditional (Disk.system volume script) path version
          ifModifiedSince ifNoneMatch d = .ok r d'
        ∧ r.DecidedByTag ifNoneMatch
          (Disk.currentEtag volume script (cache.getCachePath path) d) content)
      ↔ ifNoneMatch = Disk.currentEtag volume script (cache.getCachePath path) d
        ∨ ¬ Disk.UnmodifiedSince volume script ifModifiedSince ∧ script.openFile = true := by
  by_cases heq : ifNoneMatch = Disk.currentEtag volume script (cache.getCachePath path) d
  · obtain ⟨r, hrun, h304⟩ := Disk.conditional_of_current version hstatus hfile htag (.inr heq)
    exact iff_of_true ⟨r, d, hrun, iff_of_true h304 heq, fun hne => absurd heq hne⟩ (.inl heq)
  rw [or_iff_right heq]
  by_cases hsince : Disk.UnmodifiedSince volume script ifModifiedSince
  · obtain ⟨r, hrun, h304⟩ := Disk.conditional_of_current version hstatus hfile htag (.inl hsince)
    refine iff_of_false ?_ fun h => h.1 hsince
    rintro ⟨r', d', hrun', hdecided⟩
    cases hrun.symm.trans hrun'
    exact heq (hdecided.1.1 h304)
  · obtain ⟨r, hrun, h200, hfull⟩ :=
      Disk.conditional_of_stale version hstatus hfile htag hsince heq
    rw [and_iff_right hsince, ← hfull]
    constructor
    · rintro ⟨r', d', hrun', hdecided⟩
      cases hrun.symm.trans hrun'
      exact hdecided.2 heq
    · exact fun h => ⟨r, d, hrun, iff_of_false h200 heq, fun _ => h⟩

/-- A file modified on 21 October 2015 at 07:28:00, where every header stands for this date. -/
def sampleDates (date : Int) : Script where
  roundTrip _ := .error ⟨.beastSystemError, lit "Connection refused"⟩
  lastWriteTime := .ok 1445412480000000000
  time := ⟨fun _ => {}, fun _ => [], fun _ _ => some {}, fun _ => date⟩

/-- A client with another tag and a date one second earlier is sent the file. -/
theorem conditional_decidedByTag_older :
    ∃ r d', (⟨{}, lit "./cache", lit "ftp.debian.org"⟩ : FileCache).getOrFetchWithConditional
        (Disk.system (.tree []) (sampleDates 1445412479)) (lit "/f") 11
        (lit "Wed, 21 Oct 2015 07:27:59 GMT") (lit "\"9-1445412480\"")
        (.withFile [lit "cache", lit "f"] (lit "data")) = .ok r d'
      ∧ r.DecidedByTag (lit "\"9-1445412480\"") (lit "\"4-1445412480\"") (lit "data") := by
  refine (conditional_decidedByTag_iff (.tree []) _ _ _ _ _ _ _ _ rfl
    (Disk.read_withFile (by decide) _) (by decide)).2 (.inr ⟨?_, rfl⟩)
  rintro ⟨-, -, ftime, hftime, hle⟩
  obtain rfl := Except.ok.inj hftime
  exact absurd hle (by decide)

/-- A file of nine bytes was replaced by one of four with the same modification time: a client with
the tag of the former and the date is told that its copy is current. -/
theorem conditional_not_decidedByTag :
    ¬ ∀ (cache : FileCache) (script : Script) (path : Bytes) (version : Nat)
      (d : TreeDisk) (ifModifiedSince ifNoneMatch content : Bytes),
      script.status = none → d.read (cache.getCachePath path) = some content → ifNoneMatch ≠ [] →
      ∃ r d', cache.getOrFetchWithConditional (Disk.system (.tree []) script) path version
          ifModifiedSince ifNoneMatch d = .ok r d'
        ∧ r.DecidedByTag ifNoneMatch
          (Disk.currentEtag (.tree []) script (cache.getCachePath path) d) content := by
  intro hall
  let cache : FileCache := ⟨{}, lit "./cache", lit "ftp.debian.org"⟩
  let d := Disk.withFile [lit "cache", lit "f"] (lit "data")
  have hfile : d.read (cache.getCachePath (lit "/f")) = some (lit "data") :=
    Disk.read_withFile (by decide) _
  have hother : lit "\"9-1445412480\"" ≠ [] := by decide
  have hsince : Disk.UnmodifiedSince (.tree []) (sampleDates 1445412480)
      (lit "Wed, 21 Oct 2015 07:28:00 GMT") :=
    ⟨by decide, by decide, 1445412480000000000, rfl, by decide⟩
  obtain ⟨r, d', hrun, hdecided⟩ := hall cache (sampleDates 1445412480) _ 11 d
    (lit "Wed, 21 Oct 2015 07:28:00 GMT") _ _ rfl hfile hother
  obtain ⟨r', hrun', h304⟩ := Disk.conditional_of_current 11 rfl hfile hother (.inl hsince)
  cases hrun.symm.trans hrun'
  exact absurd (hdecided.1.1 h304) (by decide)

end PacPrism
