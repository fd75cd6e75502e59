import PacPrism.Console.Calls
import PacPrism.Console.Disk

/-!
# Console/Files — what the cache relies on in a file system

The surroundings may do anything as long as looking leaves the files alone, an output stream changes
the file on its path only, and a file that is there is found (`System.Files`).  Then a file that is
cached is never written again, and what is answered is what it holds.

A file system keeps this for the paths that lead to one file whatever directories there are.  It
does not for `./cache/a/../f`, which leads to `./cache/f` only once there is an `a`.
-/

namespace PacPrism

/-- **A file system, by some of its paths**: the files of a state, and which of them each of these
paths is. -/
structure System.Files {σ κ : Type} [DecidableEq κ] (sys : System σ) (files : σ → Table κ Bytes)
    (locate : Bytes → κ) (paths : Bytes → Prop) : Prop where
  /-- Looking leaves the files alone. -/
  looks : ∀ path t, System.LooksAlike (Io.keeping fun s => files s = t) sys sys path
  roundTrip : ∀ request t, Io.Keeps (fun s => files s = t) (sys.roundTrip request)
  createDirectories : ∀ path t, Io.Keeps (fun s => files s = t) (sys.createDirectories path)
  sleepFor : ∀ seconds s, files (sys.sleepFor seconds s) = files s
  systemClock : ∀ s, files (sys.systemClock s).2 = files s
  /-- A stream on a path leaves all other files alone. -/
  openStream : ∀ path s k, paths path → k ≠ locate path →
    (files (sys.openStream path s).2).lookup k = (files s).lookup k
  writeStream : ∀ path buffer s k, paths path → k ≠ locate path →
    (files (sys.writeStream path buffer s)).lookup k = (files s).lookup k
  closeStream : ∀ path s k, paths path → k ≠ locate path →
    (files (sys.closeStream path s)).lookup k = (files s).lookup k
  /-- A file that is there is found. -/
  fileExists : ∀ path s s', paths path → sys.fileExists path s = .ok false s' →
    locate path ∉ files s
  isRegularFile : ∀ path s s', paths path → sys.isRegularFile path s = .ok false s' →
    locate path ∉ files s
  fileSize : ∀ path s size s', paths path → sys.fileSize path s = .ok size s' →
    ∀ content, (files s).lookup (locate path) = some content → size = content.length
  openFile : ∀ path s file s', paths path → sys.openFile path s = (some file, s') →
    (files s).lookup (locate path) = some file.content ∧ file.cursor = 0
  seek : ∀ file offset s file' s', sys.seek file offset s = (some file', s') →
    file' = { file with cursor := offset }

/-! ## Responses with a file -/

section Responses

variable {κ : Type} [DecidableEq κ] {t t' : Table κ Bytes} {k : κ} {rangeHeader : Bytes}
  {r r' : Response FileBody}

/-- The response has the whole of a file. -/
def Whole (t : Table κ Bytes) (k : κ) (r : Response FileBody) : Prop :=
  ∃ content, t.lookup k = some content ∧ r.status = .ok ∧ r.body = ⟨content, 0⟩

/-- The response has the rest of a file, from where the range starts. -/
def Part (t : Table κ Bytes) (k : κ) (rangeHeader : Bytes) (r : Response FileBody) : Prop :=
  ∃ content, t.lookup k = some content ∧ (parseRange rangeHeader content.length).valid = true
    ∧ r.status = .partialContent
    ∧ r.body = ⟨content, (parseRange rangeHeader content.length).start⟩

theorem Whole.mono (h : Whole t k r) (ht : t.Extends t') : Whole t' k r :=
  let ⟨content, hcontent, h⟩ := h
  ⟨content, ht k content hcontent, h⟩

theorem Part.mono (h : Part t k rangeHeader r) (ht : t.Extends t') : Part t' k rangeHeader r :=
  let ⟨content, hcontent, h⟩ := h
  ⟨content, ht k content hcontent, h⟩

theorem Whole.lookup (h : Whole t k r) : t.lookup k = some r.body.content := by
  obtain ⟨content, hcontent, -, hbody⟩ := h
  rw [hbody, hcontent]

theorem Part.lookup (h : Part t k rangeHeader r) : t.lookup k = some r.body.content := by
  obtain ⟨content, hcontent, -, -, hbody⟩ := h
  rw [hbody, hcontent]

end Responses

namespace System.Files

variable {σ κ : Type} [DecidableEq κ] {sys : System σ} {files : σ → Table κ Bytes}
  {locate : Bytes → κ} {paths : Bytes → Prop} (h : sys.Files files locate paths)

omit [DecidableEq κ] in
/-- What leaves the files alone keeps every property of them. -/
theorem keeps_of_forall {α : Type} {m : Io σ α} (h : ∀ t, Io.Keeps (fun s => files s = t) m)
    (I : Table κ Bytes → Prop) : Io.Keeps (fun s => I (files s)) m := fun s hs => by
  have hfiles : files (Io.finalState (m s)) = files s := h (files s) s rfl
  change I _
  rwa [hfiles]

include h

theorem looksAlike (I : Table κ Bytes → Prop) (path : Bytes) :
    System.LooksAlike (Io.keeping fun s => I (files s)) sys sys path where
  fileExists := keeps_of_forall (fun t => (h.looks path t).fileExists) I
  isRegularFile := keeps_of_forall (fun t => (h.looks path t).isRegularFile) I
  fileSize := keeps_of_forall (fun t => (h.looks path t).fileSize) I
  lastWriteTime := keeps_of_forall (fun t => (h.looks path t).lastWriteTime) I
  openFile := keeps_of_forall (fun t => (h.looks path t).openFile) I
  seek file offset := keeps_of_forall (fun t => (h.looks path t).seek file offset) I
  readClocks := keeps_of_forall (fun t => (h.looks path t).readClocks) I
  time := rfl
  release := rfl

/-! ## A fetch -/

theorem lookup_foldl_writeStream {path : Bytes} (hpath : paths path) (body : List Bytes) (s : σ)
    {k : κ} (hk : k ≠ locate path) :
    (files (body.foldl (fun s buffer => sys.writeStream path buffer s) s)).lookup k
      = (files s).lookup k := by
  induction body generalizing s with
  | nil => rfl
  | cons buffer body ih => rw [List.foldl_cons, ih, h.writeStream path buffer s k hpath hk]

variable (cache : FileCache) {requestPath : Bytes} (hpath : paths (cache.getCachePath requestPath))

include hpath

/-- One pass changes no file but its own. -/
theorem keeps_fetchAttempt {k : κ} (hk : k ≠ locate (cache.getCachePath requestPath))
    (content : Option Bytes) :
    Io.Keeps (fun s => (files s).lookup k = content) (cache.fetchAttempt sys requestPath) := by
  let I : Table κ Bytes → Prop := fun t => t.lookup k = content
  rw [FileCache.fetchAttempt]
  refine Io.Keeps.bind (keeps_of_forall (h.roundTrip _) I) fun res => ?_
  split_ifs
  · exact Io.keeps_pure _ _
  · exact Io.keeps_throw _ _
  · refine Io.Keeps.bind (keeps_of_forall (h.createDirectories _) I) fun _ => ?_
    refine Io.Keeps.bind (Io.keeps_noexcept fun s hs => ?_) fun opened => ?_
    · exact (h.openStream _ s k hpath hk).trans hs
    split_ifs
    · refine Io.Keeps.bind (Io.keeps_modify fun s hs => ?_) fun _ => ?_
      · exact (h.lookup_foldl_writeStream hpath _ s hk).trans hs
      · exact Io.Keeps.bind (Io.keeps_modify fun s hs => (h.closeStream _ s k hpath hk).trans hs)
          fun _ => Io.keeps_pure _ _
    · exact Io.keeps_pure _ _

/-- A fetch changes no file but its own. -/
theorem keeps_fetchFrom (retry remaining : Nat) {k : κ}
    (hk : k ≠ locate (cache.getCachePath requestPath)) (content : Option Bytes) :
    Io.Keeps (fun s => (files s).lookup k = content)
      (cache.fetchFrom sys requestPath retry remaining) := by
  refine cache.keeps_fetchFrom (h.keeps_fetchAttempt cache hpath hk content)
    (fun seconds s hs => ?_) retry remaining
  rwa [h.sleepFor]

/-! ## What is cached is not written -/

/-- What is not found cached is not there. -/
theorem notMem_of_isCached {s s' : σ} (hrun : cache.isCached sys requestPath s = .ok false s') :
    locate (cache.getCachePath requestPath) ∉ files s := by
  obtain ⟨found, s₁, hexists, hregular⟩ := Io.bind_eq_ok hrun
  cases found with
  | false => exact h.fileExists _ s s₁ hpath hexists
  | true =>
    have hfiles := (h.looks (cache.getCachePath requestPath) (files s)).fileExists s rfl
    rw [hexists] at hfiles
    have hnot := h.isRegularFile _ s₁ s' hpath hregular
    exact fun hmem => hnot (hfiles ▸ hmem)

/-- **A file that is there is left alone**: only what was not found is fetched. -/
theorem extends_ensureCached (t : Table κ Bytes) :
    Io.Keeps (fun s => Table.Extends t (files s)) (cache.ensureCached sys requestPath) := by
  intro s hs
  refine Table.Extends.trans hs ?_
  have hcached : files (Io.finalState (cache.isCached sys requestPath s)) = files s :=
    cache.related_isCached (h.looks _ (files s)) s rfl
  rw [FileCache.ensureCached, Io.bind_apply]
  cases hrun : cache.isCached sys requestPath s with
  | error e s₁ =>
    rw [hrun] at hcached
    dsimp only
    rw [hcached]
    exact Table.Extends.refl _
  | ok cached s₁ =>
    rw [hrun] at hcached
    cases cached with
    | true =>
      dsimp only
      rw [if_pos rfl]
      exact hcached.symm ▸ Table.Extends.refl _
    | false =>
      dsimp only
      rw [if_neg Bool.false_ne_true]
      refine Table.extends_of_forall_ne (h.notMem_of_isCached cache hpath hrun)
        fun j hj => ?_
      have hkept := h.keeps_fetchFrom cache hpath 0 cache.config.getMaxRetries.toNat hj
        ((files s).lookup j) s₁ (congrArg (Finmap.lookup j) hcached)
      exact hkept

/-! ## What is answered -/

omit hpath in
/-- A file opened is the file, from its start. -/
theorem ensures_openFile {path : Bytes} (hpath : paths path) (I : Table κ Bytes → Prop) :
    Io.Ensures (fun s => I (files s)) (Io.noexcept (sys.openFile path)) fun opened s =>
      I (files s) ∧ ∀ file, opened = some file →
        (files s).lookup (locate path) = some file.content ∧ file.cursor = 0 := by
  rintro s hs opened s' hrun
  have hfiles : files (sys.openFile path s).2 = files s := (h.looks path (files s)).openFile s rfl
  obtain ⟨hopened, rfl⟩ := EStateM.Result.ok.inj hrun
  rw [hfiles]
  refine ⟨hs, fun file hfile => ?_⟩
  subst hfile
  exact h.openFile path s file _ hpath (Prod.ext hopened rfl)

omit hpath in
/-- The two validators are made without touching a file. -/
theorem ensures_getLastModified (path : Bytes) (I : Table κ Bytes → Prop) :
    Io.Ensures (fun s => I (files s)) (FileCache.getLastModified sys path) fun _ s => I (files s) :=
  Io.Keeps.ensures (FileCache.related_getLastModified (h.looksAlike I path))

omit hpath in
theorem ensures_generateEtag (path : Bytes) (I : Table κ Bytes → Prop) :
    Io.Ensures (fun s => I (files s)) (FileCache.generateEtag sys path) fun _ s => I (files s) :=
  Io.Keeps.ensures (FileCache.related_generateEtag (h.looksAlike I path))

omit hpath in
/-- A file that is opened goes into a response with two validators. -/
theorem ensures_whole (path : Bytes) {α : Type} {file : FileBody}
    {f : Bytes → Bytes → Io σ α} {Q : α → σ → Prop}
    (hf : ∀ lastModified etag, Io.Ensures (fun s => (files s).lookup (locate path)
      = some file.content ∧ file.cursor = 0) (f lastModified etag) Q) :
    Io.Ensures (fun s => True ∧ ∀ file', some file = some file' →
        (files s).lookup (locate path) = some file'.content ∧ file'.cursor = 0)
      (do
        let lastModified ← FileCache.getLastModified sys path
        let etag ← FileCache.generateEtag sys path
        f lastModified etag) Q := by
  let I : Table κ Bytes → Prop := fun t =>
    t.lookup (locate path) = some file.content ∧ file.cursor = 0
  refine Io.Ensures.of_imp (Io.Ensures.bind (h.ensures_getLastModified path I) fun lastModified =>
    Io.Ensures.bind (h.ensures_generateEtag path I) fun etag => hf lastModified etag) ?_
  exact fun s hs => hs.2 file rfl

/-- **The whole file is answered.** -/
theorem ensures_getOrFetch (httpVersion : Nat) :
    Io.Ensures (fun _ => True) (cache.getOrFetch sys requestPath httpVersion) fun answer s =>
      ∀ r, answer = some r → Whole (files s) (locate (cache.getCachePath requestPath)) r := by
  refine Io.ensures_bind_any fun ok => ?_
  split_ifs
  · refine Io.Ensures.bind (h.ensures_openFile hpath fun _ => True) fun opened => ?_
    cases opened with
    | none => exact Io.ensures_pure fun _ _ => nofun
    | some file =>
      refine h.ensures_whole _ fun lastModified etag => Io.ensures_pure fun s hs r hr => ?_
      obtain rfl := Option.some.inj hr
      exact ⟨file.content, hs.1, rfl, congrArg (FileBody.mk file.content) hs.2⟩
  · exact Io.ensures_pure fun _ _ => nofun

/-- **The whole file is answered, or that the client's copy is current.** -/
theorem ensures_getOrFetchWithConditional (httpVersion : Nat)
    (ifModifiedSince ifNoneMatch : Bytes) :
    Io.Ensures (fun _ => True)
      (cache.getOrFetchWithConditional sys requestPath httpVersion ifModifiedSince ifNoneMatch)
      fun answer s => ∀ r, answer = .fileBody (some r) →
        Whole (files s) (locate (cache.getCachePath requestPath)) r := by
  refine Io.ensures_bind_any fun ok => ?_
  split_ifs
  · refine Io.ensures_bind_any fun modified => ?_
    split_ifs
    · exact Io.ensures_bind_any fun _ =>
        Io.ensures_bind_any fun _ =>
          Io.ensures_pure fun _ _ => nofun
    · refine Io.ensures_bind_any fun etag => ?_
      split_ifs
      · exact Io.ensures_bind_any fun _ =>
          Io.ensures_pure fun _ _ => nofun
      · refine Io.Ensures.bind (h.ensures_openFile hpath fun _ => True) fun opened => ?_
        cases opened with
        | none => exact Io.ensures_pure fun _ _ => nofun
        | some file =>
          refine h.ensures_whole _ fun lastModified etag => Io.ensures_pure fun s hs r hr => ?_
          obtain rfl := Option.some.inj (FileCacheResponse.fileBody.inj hr)
          exact ⟨file.content, hs.1, rfl, congrArg (FileBody.mk file.content) hs.2⟩
  · exact Io.ensures_pure fun _ _ => nofun

omit hpath in
/-- A range that was found valid is that of the file. -/
theorem ensures_parseRangeHeader {path : Bytes} (hpath : paths path) (rangeHeader : Bytes) :
    Io.Ensures (fun _ => True) (FileCache.parseRangeHeader sys rangeHeader path) fun range s =>
      range.valid = true → ∀ content, (files s).lookup (locate path) = some content →
        range = parseRange rangeHeader content.length := by
  intro s _ range s' hrun hvalid content hcontent
  obtain ⟨size, s₁, hsize, hrange⟩ := Io.bind_eq_ok hrun
  rw [Io.tryCatch_apply, map_eq_pure_bind, Io.bind_apply] at hsize
  cases hstat : sys.fileSize path s with
  | error e s₂ =>
    rw [hstat] at hsize
    cases hsize
    cases hrange
    cases hvalid
  | ok n s₂ =>
    have hfiles : files (Io.finalState (sys.fileSize path s)) = files s :=
      (h.looks path (files s)).fileSize s rfl
    rw [hstat] at hsize hfiles
    cases hsize
    cases hrange
    rw [h.fileSize path s n s' hpath hstat content (hfiles ▸ hcontent)]

/-- **The whole file is answered, or the rest of it.** -/
theorem ensures_getOrFetchWithRange (httpVersion : Nat) (rangeHeader : Bytes) :
    Io.Ensures (fun _ => True)
      (cache.getOrFetchWithRange sys requestPath httpVersion rangeHeader) fun answer s =>
      ∀ r, answer = some r → Whole (files s) (locate (cache.getCachePath requestPath)) r
        ∨ Part (files s) (locate (cache.getCachePath requestPath)) rangeHeader r := by
  let path := cache.getCachePath requestPath
  refine Io.ensures_bind_any fun ok => ?_
  split_ifs
  · refine Io.Ensures.bind (h.ensures_parseRangeHeader hpath rangeHeader) fun range => ?_
    split_ifs with hwhole
    · refine Io.Ensures.of_imp (Io.Ensures.mono (h.ensures_getOrFetch cache hpath httpVersion)
        fun answer s hanswer r hr => .inl (hanswer r hr)) fun _ _ => trivial
    · obtain ⟨hvalid, -⟩ := not_or.1 hwhole
      rw [Bool.not_eq_false] at hvalid
      let I : Table κ Bytes → Prop := fun t => range.valid = true → ∀ content,
        t.lookup (locate path) = some content → range = parseRange rangeHeader content.length
      refine Io.Ensures.bind (h.ensures_openFile hpath I) fun opened => ?_
      cases opened with
      | none => exact Io.ensures_pure fun _ _ => nofun
      | some file =>
        rintro s ⟨hrange, hopened⟩ answer s' hrun r rfl
        obtain ⟨hfile, -⟩ := hopened file rfl
        obtain ⟨sought, s₁, hseek, hpure⟩ := Io.bind_eq_ok hrun
        have hfiles : files (sys.seek file range.start s).2 = files s :=
          (h.looks path (files s)).seek file range.start s rfl
        obtain ⟨hsought, rfl⟩ := EStateM.Result.ok.inj hseek
        cases sought with
        | none => cases hpure
        | some file' =>
          cases hpure
          obtain rfl := h.seek file range.start s file' _ (Prod.ext hsought rfl)
          refine .inr ⟨file.content, hfiles ▸ hfile, ?_⟩
          have hparse := hrange hvalid file.content hfile
          rw [← hparse]
          exact ⟨hvalid, rfl, rfl⟩
  · exact Io.ensures_pure fun _ _ => nofun

end System.Files

/-! ## The disk -/

namespace Disk

variable {δ κ : Type} {volume : Volume δ κ}

/-- A call that returned was not made to fail. -/
theorem eq_ok_of_answer {α : Type} {error : Option Exn} {a : Disk volume → Except Exn α}
    {d d' : Disk volume} {value : α} (h : answer error a d = .ok value d') :
    error = none ∧ a d = .ok value := by
  cases error with
  | some e => cases h
  | none =>
    rw [answer] at h
    cases ha : a d <;> rw [ha] at h <;> cases h
    exact ⟨rfl, rfl⟩

variable [DecidableEq κ] {file : Bytes → κ} {paths : Bytes → Prop}
  (hplain : volume.Plain file paths)

include hplain

/-- A plain path leads to its file if that is there. -/
theorem read_of_plain {d : Disk volume} {path : Bytes} (hpath : paths path) :
    d.read path = d.files.lookup (file path) := by
  cases hlocate : volume.locate d.directories path with
  | some k => rw [read_of_locate hlocate, hplain.eq_file hpath hlocate]
  | none =>
    have hnot : file path ∉ d.files := fun hmem =>
      nomatch hlocate.symm.trans (hplain.locate_of_home hpath (d.homes _ hmem))
    rw [read, hlocate, Option.bind_none, Finmap.lookup_eq_none.2 hnot]

theorem lookup_edit_of_plain {d : Disk volume} {path : Bytes} (hpath : paths path) {k : κ}
    (hk : k ≠ file path) (f : Bytes → Bytes) :
    (d.edit path f).files.lookup k = d.files.lookup k :=
  lookup_edit_of_ne f fun hlocate => hk (hplain.eq_file hpath hlocate)

/-- **The disk is a file system**, by the plain paths of its volume. -/
theorem files_system (script : Script) :
    (system volume script).Files Disk.files file paths where
  looks path t :=
    { fileExists := (steady volume script).fileExists path |>.keeps _
      isRegularFile := (steady volume script).isRegularFile path |>.keeps _
      fileSize := (steady volume script).fileSize path |>.keeps _
      lastWriteTime := (steady volume script).lastWriteTime path |>.keeps _
      openFile := fun _ hd => hd
      seek := fun _ _ _ hd => hd
      readClocks := fun _ hd => hd
      time := rfl
      release := rfl }
  roundTrip request t d hd := by
    dsimp only [system, exchange]
    cases script.roundTrip d.roundTrips <;> exact hd
  createDirectories path t d hd := by
    dsimp only [system, createDirectories]
    cases script.createDirectories <;> exact hd
  sleepFor _ _ := rfl
  systemClock _ := rfl
  openStream path d k hpath hk := by
    dsimp only [system, openStream]
    split_ifs
    exacts [lookup_edit_of_plain hplain hpath hk _, rfl]
  writeStream path buffer d k hpath hk := by
    dsimp only [system, writeStream]
    split_ifs
    · rfl
    · cases script.write d.writes <;> exact lookup_edit_of_plain hplain hpath hk _
  closeStream path d k hpath hk := by
    dsimp only [system, closeStream]
    cases script.close
    exacts [rfl, lookup_edit_of_plain hplain hpath hk _]
  fileExists path d d' hpath hrun := by
    dsimp only [system] at hrun
    obtain ⟨-, hfound⟩ := eq_ok_of_answer hrun
    have hnone := (Bool.or_eq_false_iff.1 (Except.ok.inj hfound)).1
    rw [read_of_plain hplain hpath, Option.isSome_eq_false_iff, Option.isNone_iff_eq_none] at hnone
    exact Finmap.lookup_eq_none.1 hnone
  isRegularFile path d d' hpath hrun := by
    dsimp only [system] at hrun
    obtain ⟨-, hfound⟩ := eq_ok_of_answer hrun
    have hnone := Except.ok.inj hfound
    rw [read_of_plain hplain hpath, Option.isSome_eq_false_iff, Option.isNone_iff_eq_none] at hnone
    exact Finmap.lookup_eq_none.1 hnone
  fileSize path d size d' hpath hrun content hcontent := by
    dsimp only [system] at hrun
    obtain ⟨-, hsize⟩ := eq_ok_of_answer hrun
    rw [sizeOf, read_of_plain hplain hpath, hcontent] at hsize
    exact (Except.ok.inj hsize).symm
  openFile path d opened d' hpath hrun := by
    obtain ⟨hfile, -⟩ := Prod.ext_iff.1 hrun
    obtain ⟨-, hfile⟩ := Option.ite_none_right_eq_some.1 hfile
    obtain ⟨content, hcontent, rfl⟩ := Option.map_eq_some_iff.1 hfile
    rw [read_of_plain hplain hpath] at hcontent
    exact ⟨hcontent, rfl⟩
  seek opened offset d opened' d' hrun := by
    obtain ⟨hfile, -⟩ := Prod.ext_iff.1 hrun
    exact (Option.some.inj (Option.ite_none_right_eq_some.1 hfile).2).symm

end Disk

end PacPrism
