import PacPrism.Console.Effects
import PacPrism.Console.Fetching
import PacPrism.Console.Files

/-!
# Console/Provenance — where the content of a file comes from

    log ∋ (request, body) ──stores──▸ content

An output stream stores what it likes of the buffers written to it (`System.Streams`).  The log says
what upstream has sent (`System.recorded`).  Each file that the cache makes is what a stream stored
of a body in the log, sent for a path with this file.
-/

namespace PacPrism

/-- **Output streams**, on some of the paths: what a file holds after the close is stored of what
was written. -/
structure System.Streams {σ κ : Type} [DecidableEq κ] (sys : System σ) (files : σ → Table κ Bytes)
    (locate : Bytes → κ) (paths : Bytes → Prop) (stores : Bytes → Bytes → Prop) : Prop where
  opened : ∀ path (body : List Bytes) s s', paths path → sys.openStream path s = (true, s') →
    ∃ content, stores body.flatten content
      ∧ (files (sys.closeStream path
          (body.foldl (fun s buffer => sys.writeStream path buffer s) s'))).lookup (locate path)
        = some content
  refused : ∀ path s s', sys.openStream path s = (false, s') → files s' = files s

namespace Effect

/-- What upstream has sent with a 200 response, and for which request. -/
def sent : Effect → Option (UpstreamRequest × Bytes)
  | roundTrip request (.ok res) =>
    if res.result = 200 then some (request, res.body.flatten) else none
  | _ => none

/-- By this log, upstream has sent this body for the request. -/
def Sent (log : List Effect) (request : UpstreamRequest) (body : Bytes) : Prop :=
  ∃ x ∈ log, x.sent = some (request, body)

theorem Sent.mono {log log' : List Effect} {request : UpstreamRequest} {body : Bytes}
    (h : Sent log request body) (hlog : log ⊆ log') : Sent log' request body :=
  h.imp fun _ hx => hx.imp_left (hlog ·)

end Effect

/-- The content was stored of what upstream has sent for a path with this file. -/
def FileCache.Fetched {κ : Type} (cache : FileCache) (locate : Bytes → κ)
    (stores : Bytes → Bytes → Prop) (asked : Bytes → Prop) (log : List Effect) (k : κ)
    (content : Bytes) : Prop :=
  ∃ path, asked path ∧ locate (cache.getCachePath path) = k
    ∧ ∃ body, Effect.Sent log (cache.upstreamRequest path) body ∧ stores body content

/-- Each file is one of the files there were, or was fetched. -/
def FileCache.Sourced {κ : Type} [DecidableEq κ] (cache : FileCache) (locate : Bytes → κ)
    (stores : Bytes → Bytes → Prop) (t₀ : Table κ Bytes) (asked : Bytes → Prop)
    (t : Table κ Bytes) (log : List Effect) : Prop :=
  ∀ k content, t.lookup k = some content →
    t₀.lookup k = some content ∨ cache.Fetched locate stores asked log k content

/-- What was asked for and sent stays so. -/
theorem FileCache.Sourced.mono {κ : Type} [DecidableEq κ] {cache : FileCache} {locate : Bytes → κ}
    {stores : Bytes → Bytes → Prop} {t₀ t : Table κ Bytes} {asked asked' : Bytes → Prop}
    {log log' : List Effect} (h : cache.Sourced locate stores t₀ asked t log)
    (hasked : ∀ path, asked path → asked' path) (hlog : log ⊆ log') :
    cache.Sourced locate stores t₀ asked' t log' := fun k content hcontent =>
  (h k content hcontent).imp_right fun ⟨path, hpath, hfile, body, hsent, hstored⟩ =>
    ⟨path, hasked path hpath, hfile, body, hsent.mono hlog, hstored⟩

theorem FileCache.Sourced.append {κ : Type} [DecidableEq κ] {cache : FileCache}
    {locate : Bytes → κ} {stores : Bytes → Bytes → Prop} {t₀ t : Table κ Bytes}
    {asked : Bytes → Prop} {log : List Effect} (h : cache.Sourced locate stores t₀ asked t log)
    (l : List Effect) : cache.Sourced locate stores t₀ asked t (log ++ l) :=
  h.mono (fun _ hasked => hasked) (List.subset_append_left log l)

variable {σ κ : Type} [DecidableEq κ] {sys : System σ} {files : σ → Table κ Bytes}
  {locate : Bytes → κ} {paths : Bytes → Prop} {stores : Bytes → Bytes → Prop}

/-! ## With a log -/

namespace System

/-- Looks keep what the log says of the files, if they may be added to it. -/
theorem Files.looksAlike_recorded (h : sys.Files files locate paths) (path : Bytes)
    {J : Table κ Bytes → List Effect → Prop}
    (hJ : ∀ t log l, (∀ x ∈ l, x = Effect.look path) → J t log → J t (log ++ l)) :
    System.LooksAlike (Io.keeping fun s => J (files s.1) s.2) sys.recorded sys.recorded path := by
  have hlook {α : Type} {m' : Io (σ × List Effect) α} {m : Io σ α}
      (hlogs : FileCache.Looks path m' m) (hkeeps : ∀ t, Io.Keeps (fun s => files s = t) m) :
      Io.Keeps (fun s => J (files s.1) s.2) m' :=
    hlogs.keeps_part hkeeps fun t log _ l => hJ t log l
  have hrecorded := FileCache.looksAlike_recorded sys path
  exact
    { fileExists := hlook hrecorded.fileExists fun t => (h.looks path t).fileExists
      isRegularFile := hlook hrecorded.isRegularFile fun t => (h.looks path t).isRegularFile
      fileSize := hlook hrecorded.fileSize fun t => (h.looks path t).fileSize
      lastWriteTime := hlook hrecorded.lastWriteTime fun t => (h.looks path t).lastWriteTime
      openFile := hlook hrecorded.openFile fun t => (h.looks path t).openFile
      seek := fun file offset =>
        hlook (hrecorded.seek file offset) fun t => (h.looks path t).seek file offset
      readClocks := hlook hrecorded.readClocks fun t => (h.looks path t).readClocks
      time := rfl
      release := rfl }

/-- **The log changes nothing about the files.** -/
theorem Files.recorded (h : sys.Files files locate paths) :
    sys.recorded.Files (fun s => files s.1) locate paths where
  looks path t := h.looksAlike_recorded path (J := fun t' _ => t' = t) fun _ _ _ _ ht => ht
  roundTrip request t := Io.keeps_recorded (J := fun t' _ => t' = t) (h.roundTrip request)
    (fun _ _ _ ht => ht) _
  createDirectories path t := Io.keeps_recordedAs (J := fun t' _ => t' = t)
    (h.createDirectories path) (fun _ _ _ ht => ht) _
  sleepFor seconds s := h.sleepFor seconds s.1
  systemClock s := h.systemClock s.1
  openStream path s := h.openStream path s.1
  writeStream path buffer s := h.writeStream path buffer s.1
  closeStream path s := h.closeStream path s.1
  fileExists path s s' hpath hrun := h.fileExists path s.1 s'.1 hpath (Io.ok_of_recordedAs hrun)
  isRegularFile path s s' hpath hrun :=
    h.isRegularFile path s.1 s'.1 hpath (Io.ok_of_recordedAs hrun)
  fileSize path s size s' hpath hrun :=
    h.fileSize path s.1 size s'.1 hpath (Io.ok_of_recordedAs hrun)
  openFile path s file s' hpath hrun := by
    obtain ⟨hfile, -⟩ := Prod.ext_iff.1 hrun
    exact h.openFile path s.1 file _ hpath (Prod.ext hfile rfl)
  seek file offset s file' s' hrun := by
    obtain ⟨hfile, -⟩ := Prod.ext_iff.1 hrun
    exact h.seek file offset s.1 file' _ (Prod.ext hfile rfl)

/-- What is written to a recorded stream. -/
theorem closeStream_recorded (path : Bytes) (body : List Bytes) (s : σ) (log : List Effect) :
    sys.recorded.closeStream path
        (body.foldl (fun s buffer => sys.recorded.writeStream path buffer s) (s, log))
      = (sys.closeStream path (body.foldl (fun s buffer => sys.writeStream path buffer s) s),
        log ++ body.map (.writeStream path) ++ [.closeStream path]) := by
  have hwrites := Io.foldl_recordedEffect (.writeStream path) (sys.writeStream path) body s log
  exact congrArg (sys.recorded.closeStream path) hwrites

theorem Streams.recorded (h : sys.Streams files locate paths stores) :
    sys.recorded.Streams (fun s => files s.1) locate paths stores where
  opened path body s s' hpath hopen := by
    obtain ⟨hopened, rfl⟩ := Prod.ext_iff.1 hopen
    rw [show (sys.recorded.openStream path s).2 = ((sys.openStream path s.1).2, _) from rfl,
      closeStream_recorded]
    exact h.opened path body s.1 _ hpath (Prod.ext hopened rfl)
  refused path s s' hopen := by
    obtain ⟨hopened, rfl⟩ := Prod.ext_iff.1 hopen
    exact h.refused path s.1 _ (Prod.ext hopened rfl)

/-! ## A fetch -/

section Fetch

variable (h : sys.Files files locate paths) (hstreams : sys.Streams files locate paths stores)
  (cache : FileCache) {requestPath : Bytes} (hpath : paths (cache.getCachePath requestPath))
  {t₀ : Table κ Bytes} {asked : Bytes → Prop} (hasked : asked requestPath)

include h hstreams hpath hasked

/-- A body that was sent is written to the file of the path it was fetched for. -/
theorem Files.sourced_closeStream {log : List Effect} {res : UpstreamResponse}
    (hsent : Effect.Sent log (cache.upstreamRequest requestPath) res.body.flatten) {s s' : σ}
    (hopen : sys.openStream (cache.getCachePath requestPath) s = (true, s'))
    (hs : cache.Sourced locate stores t₀ asked (files s) log) :
    cache.Sourced locate stores t₀ asked (files (sys.closeStream (cache.getCachePath requestPath)
      (res.body.foldl
        (fun s buffer => sys.writeStream (cache.getCachePath requestPath) buffer s) s'))) log := by
  obtain ⟨content, hstored, hcontent⟩ := hstreams.opened _ res.body s s' hpath hopen
  intro k c hc
  rcases eq_or_ne k (locate (cache.getCachePath requestPath)) with rfl | hk
  · obtain rfl := Option.some.inj (hcontent.symm.trans hc)
    exact .inr ⟨requestPath, hasked, rfl, _, hsent, hstored⟩
  · have hopened := h.openStream _ s k hpath hk
    rw [hopen] at hopened
    rw [h.closeStream _ _ k hpath hk, h.lookup_foldl_writeStream hpath _ _ hk, hopened] at hc
    exact hs k c hc

/-- The body of a 200 response is written to the file of the path it was fetched for. -/
theorem Files.sourced_fetchAttempt :
    Io.Keeps (fun s => cache.Sourced locate stores t₀ asked (files s.1) s.2)
      (cache.fetchAttempt sys.recorded requestPath) := by
  let I : Table κ Bytes → List Effect → Prop := cache.Sourced locate stores t₀ asked
  let path := cache.getCachePath requestPath
  have hI (t : Table κ Bytes) (log l : List Effect) (ht : I t log) : I t (log ++ l) := ht.append l
  have htrip : Io.Keeps (fun s => I (files s.1) s.2)
      (sys.recorded.roundTrip (cache.upstreamRequest requestPath)) :=
    Io.keeps_recorded (h.roundTrip _) hI _
  rw [FileCache.fetchAttempt]
  refine Io.Keeps.bind_ensures (Q := fun res s => I (files s.1) s.2 ∧ (res.result = 200 →
      Effect.Sent s.2 (cache.upstreamRequest requestPath) res.body.flatten)) htrip
    (fun s hs res s' hrun => ?_) fun res s hs => ?_
  · have hkept := htrip s hs
    rw [hrun] at hkept
    refine ⟨hkept, fun hresult => ⟨.roundTrip _ (.ok res), ?_, if_pos hresult⟩⟩
    rw [(Io.ok_of_recorded hrun).2]
    exact List.mem_append_right _ (List.mem_singleton_self _)
  obtain ⟨hs, hsent⟩ := hs
  split_ifs with hresult
  · exact hs
  · exact hs
  · -- What was sent is in the log from here on.
    let J : Table κ Bytes → List Effect → Prop := fun t log =>
      I t log ∧ Effect.Sent log (cache.upstreamRequest requestPath) res.body.flatten
    have hJ (t : Table κ Bytes) (log l : List Effect) (ht : J t log) : J t (log ++ l) :=
      ⟨hI t log l ht.1, ht.2.mono (List.subset_append_left log l)⟩
    have hdirectories : Io.Keeps (fun s => J (files s.1) s.2)
        (sys.recorded.createDirectories (Path.parentPath path)) :=
      Io.keeps_recordedAs (h.createDirectories _) hJ _
    refine (Io.Keeps.bind hdirectories (fun _ s hs => ?_) s
      ⟨hs, hsent (not_not.1 hresult)⟩).1
    cases hopen : sys.openStream path s.1 with
    | mk opened s' =>
      have hopened : Io.noexcept (sys.recorded.openStream path) s
          = .ok opened (s', s.2 ++ [.openStream path]) :=
        congrArg (fun r : Bool × σ => EStateM.Result.ok r.1 (r.2, s.2 ++ [Effect.openStream path]))
          hopen
      rw [Io.bind_of_ok hopened]
      cases opened with
      | false =>
        have hsame := hstreams.refused path s.1 s' hopen
        change J (files s') (s.2 ++ [.openStream path])
        rw [hsame]
        exact hJ _ _ _ hs
      | true =>
        change J (files (sys.recorded.closeStream path _).1) (sys.recorded.closeStream path _).2
        rw [closeStream_recorded]
        refine hJ _ _ _ (hJ _ _ _ (hJ _ _ _ ⟨?_, hs.2⟩))
        exact h.sourced_closeStream hstreams cache hpath hasked hs.2 hopen hs.1

/-- **A fetch stores what upstream sent.** -/
theorem Files.sourced_ensureCached :
    Io.Keeps (fun s => cache.Sourced locate stores t₀ asked (files s.1) s.2)
      (cache.ensureCached sys.recorded requestPath) := by
  let I : Table κ Bytes → List Effect → Prop := cache.Sourced locate stores t₀ asked
  have hI (t : Table κ Bytes) (log l : List Effect) (ht : I t log) : I t (log ++ l) := ht.append l
  refine Io.Keeps.bind
    (cache.related_isCached (h.looksAlike_recorded _ fun t log l _ => hI t log l)) fun cached => ?_
  split_ifs
  · exact Io.keeps_pure _ _
  · refine cache.keeps_fetchFrom (h.sourced_fetchAttempt hstreams cache hpath hasked)
      (fun seconds s hs => ?_) 0 _
    change I (files (sys.sleepFor seconds s.1)) (s.2 ++ [.sleepFor seconds])
    rw [h.sleepFor]
    exact hI _ _ _ hs

end Fetch

end System

/-! ## Files of two paths -/

namespace FileCache

/-- Upstream is asked for the path, less one leading slash, behind a slash. -/
theorem upstreamRequest_eq (cache : FileCache) (requestPath : Bytes) :
    cache.upstreamRequest requestPath = ⟨cache.upstreamEndpoint.1, cache.upstreamEndpoint.2,
      Path.slash :: cleanPath requestPath, cache.config.getConnectTimeout,
      cache.config.getReadTimeout⟩ := by
  rw [upstreamRequest, cleanPath]
  split_ifs with h
  · obtain ⟨rest, rfl⟩ := List.head?_eq_some_iff.1 h
    rfl
  · rfl

theorem upstreamRequest_eq_iff (cache : FileCache) (p q : Bytes) :
    cache.upstreamRequest p = cache.upstreamRequest q ↔ cleanPath p = cleanPath q := by
  simp [upstreamRequest_eq]

/-- A path that is absolute, less one leading slash, is the name of its file. -/
theorem getCachePath_of_isAbsolute {cache : FileCache} {p : Bytes}
    (h : Path.isAbsolute (cleanPath p) = true) : cache.getCachePath p = cleanPath p := by
  rw [getCachePath, Path.join, if_pos h]

/-- **Which paths share the name of a file**: those that upstream is asked for in the same words,
and an absolute one with the path whose file it names. -/
theorem getCachePath_eq_iff (cache : FileCache) (p q : Bytes) :
    cache.getCachePath p = cache.getCachePath q
      ↔ cache.upstreamRequest p = cache.upstreamRequest q
        ∨ Path.isAbsolute (cleanPath p) = true ∧ cleanPath p = cache.getCachePath q
        ∨ Path.isAbsolute (cleanPath q) = true ∧ cleanPath q = cache.getCachePath p := by
  rw [upstreamRequest_eq_iff]
  constructor
  · intro h
    cases hp : Path.isAbsolute (cleanPath p) with
    | true => exact .inr (.inl ⟨rfl, by rw [← h, getCachePath_of_isAbsolute hp]⟩)
    | false =>
      cases hq : Path.isAbsolute (cleanPath q) with
      | true => exact .inr (.inr ⟨rfl, by rw [h, getCachePath_of_isAbsolute hq]⟩)
      | false => exact .inl (Path.join_injective cache.cacheDir hp hq h)
  · rintro (h | ⟨hp, h⟩ | ⟨hq, h⟩)
    · rw [getCachePath, h, getCachePath]
    · rw [getCachePath_of_isAbsolute hp, h]
    · rw [getCachePath_of_isAbsolute hq, h]

/-- Paths that share the name of a file are one to upstream. -/
def NamesFaithfully (cache : FileCache) : Prop :=
  ∀ p q, cache.getCachePath p = cache.getCachePath q →
    cache.upstreamRequest p = cache.upstreamRequest q

theorem namesFaithfully_of_relative {cache : FileCache}
    (h : Path.isAbsolute cache.cacheDir = false) : cache.NamesFaithfully := by
  intro p q hpq
  have hrelative (p q : Bytes) (hp : Path.isAbsolute (cleanPath p) = true)
      (hname : cleanPath p = cache.getCachePath q) :
      Path.isAbsolute (cleanPath q) = true := by
    by_contra hq
    rw [hname, getCachePath, Path.isAbsolute_join (by simpa using hq), h] at hp
    cases hp
  rcases (getCachePath_eq_iff cache p q).1 hpq with hsame | ⟨hp, hname⟩ | ⟨hq, hname⟩
  · exact hsame
  · rw [upstreamRequest_eq_iff, hname, getCachePath_of_isAbsolute (hrelative p q hp hname)]
  · rw [upstreamRequest_eq_iff, hname, getCachePath_of_isAbsolute (hrelative q p hq hname)]

/-- Below an absolute directory, a file can also be asked for by its own name, behind a slash. -/
theorem getCachePath_of_name {cache : FileCache} (h : Path.isAbsolute cache.cacheDir = true)
    {p : Bytes} (hp : Path.isAbsolute (cleanPath p) = false) :
    cache.getCachePath (Path.slash :: cache.getCachePath p) = cache.getCachePath p
      ∧ cache.upstreamRequest (Path.slash :: cache.getCachePath p) ≠ cache.upstreamRequest p := by
  have hname : Path.isAbsolute (cache.getCachePath p) = true := by
    rw [← h]
    exact Path.isAbsolute_join hp
  refine ⟨(cache.getCachePath_eq_iff _ p).2 (.inr (.inl ⟨hname, rfl⟩)), fun hsame => ?_⟩
  rw [upstreamRequest_eq_iff] at hsame
  have hrelative : Path.isAbsolute (cache.getCachePath p) = false :=
    (congrArg Path.isAbsolute hsame).trans hp
  rw [hname] at hrelative
  cases hrelative

end FileCache

/-- **Which cache directories keep files apart**: the relative ones.  Below an absolute one, each
file can also be asked for by its own name, behind a slash; what upstream sends for that is then
served to everybody. -/
theorem namesFaithfully_iff (cache : FileCache) :
    (cache.NamesFaithfully ↔ Path.isAbsolute cache.cacheDir = false)
      ∧ (Path.isAbsolute cache.cacheDir = true →
        ∀ p, Path.isAbsolute (FileCache.cleanPath p) = false →
          cache.getCachePath (Path.slash :: cache.getCachePath p) = cache.getCachePath p
          ∧ cache.upstreamRequest (Path.slash :: cache.getCachePath p)
            ≠ cache.upstreamRequest p) := by
  refine ⟨⟨fun h => ?_, FileCache.namesFaithfully_of_relative⟩,
    fun h p => FileCache.getCachePath_of_name h⟩
  by_contra habsolute
  rw [Bool.not_eq_false] at habsolute
  obtain ⟨hname, hrequest⟩ := FileCache.getCachePath_of_name habsolute (p := lit "x") rfl
  exact hrequest (h _ _ hname)

/-! ## The disk -/

theorem Script.stored_prefix (script : Script) (body : List Bytes) :
    script.stored body <+: body.flatten := by
  rw [Script.stored]
  cases script.close with
  | all => exact script.storedFrom_prefix 0 body
  | fails stored => exact (List.take_prefix _ _).trans (script.storedFrom_prefix 0 body)

namespace Disk

variable {δ : Type} {volume : Volume δ κ} {file : Bytes → κ} (hplain : volume.Plain file paths)
  {script : Script}

include hplain

/-- What a disk stores is what its script says. -/
theorem streams_system (h : ∀ body, stores body.flatten (script.stored body)) :
    (system volume script).Streams Disk.files file paths stores where
  opened path body d d' hpath hopen := by
    have hopened : openStream script path d = (true, d') := hopen
    rw [openStream] at hopened
    split_ifs at hopened with hscript
    · obtain ⟨-, rfl⟩ := Prod.ext_iff.1 hopened
      obtain ⟨k, hlocate⟩ := Option.isSome_iff_exists.1 hscript.2
      obtain rfl := hplain.eq_file hpath hlocate
      refine ⟨script.stored body, h body, ?_⟩
      have hkept : volume.locate (d.edit path fun _ => []).directories path = some (file path) := by
        rwa [directories_edit]
      let fresh : Disk volume := { d.edit path fun _ => [] with writes := 0, failed := false }
      have hfiles : (closeStream script path
          (body.foldl (fun d buffer => writeStream script path buffer d) fresh)).files
          = d.files.insert (file path) (script.stored body) :=
        files_closeStream d.files body hkept rfl rfl (files_edit hlocate _)
      exact (congrArg (Finmap.lookup (file path)) hfiles).trans (Finmap.lookup_insert _)
    · cases (Prod.ext_iff.1 hopened).1
  refused path d d' hopen := by
    have hopened : openStream script path d = (false, d') := hopen
    rw [openStream] at hopened
    split_ifs at hopened
    · cases (Prod.ext_iff.1 hopened).1
    · exact (congrArg Disk.files (Prod.ext_iff.1 hopened).2).symm

/-- A disk stores the first part of what is written. -/
theorem streams_prefix (script : Script) : (system volume script).Streams Disk.files file paths
    fun written content => content <+: written :=
  streams_system hplain script.stored_prefix

/-- A disk that no write fails on stores everything. -/
theorem streams_exact (hwrite : ∀ n, script.write n = .all) (hclose : script.close = .all) :
    (system volume script).Streams Disk.files file paths fun written content => content = written :=
  streams_system hplain fun body => (script.stored_eq_flatten_iff body).2
    ⟨fun k _ _ _ hfails => (nomatch (hwrite k).symm.trans hfails),
      fun _ hfails => (nomatch hclose.symm.trans hfails)⟩

end Disk

end PacPrism
