import PacPrism.Console.Conditional

/-!
# Console/Etags — entity tags in time

    file time ── minus file clock, plus system clock ──▸ system time ──▸ whole seconds

The modification time is converted by two clock readings, made one after the other, so the delay
between them is added to it before it is cut to seconds.  The tag of an unchanged file is the same
at two moments exactly if both delays lead to the same second.
-/

namespace Bytes

/-- Decimal text does not start with a minus. -/
theorem decimal_ne_minus (m n : Nat) : decimal m ≠ lit "-" ++ decimal n := fun h => by
  have hmem : 0x2d ∈ decimal m := h ▸ List.mem_append_left _ (by decide)
  exact absurd ((Numeral.ofNat m).digit 0x2d hmem) (by decide)

theorem decimalInt_injective : Function.Injective decimalInt := fun i j h => by
  cases i with
  | ofNat m =>
    cases j with
    | ofNat n => rw [decimal_injective h]
    | negSucc n => exact absurd h (decimal_ne_minus m (n + 1))
  | negSucc m =>
    cases j with
    | ofNat n => exact absurd h.symm (decimal_ne_minus n (m + 1))
    | negSucc n =>
      have hsucc : m + 1 = n + 1 := decimal_injective (List.append_cancel_left h)
      rw [Nat.succ.inj hsucc]

end Bytes

namespace PacPrism

/-- Two clock readings: the clock of the file system is read at `time`, on the system clock, and the
system clock `delay` after that, before it if the delay is negative. -/
structure ClockReading where
  time : Int
  delay : Int

/-- **A call during which the file is untouched**: nothing fails, the file was modified at `ftime`,
and the epoch of the clock of the file system is `epoch` on the system clock. -/
structure Script.Untouched (script : Script) (ftime epoch : Int) (r : ClockReading) : Prop where
  status : script.status = none
  fileSize : script.fileSize = none
  lastWriteTime : script.lastWriteTime = .ok ftime
  clocks : script.clocks = (r.time - epoch, r.time + r.delay)

namespace Disk

variable {δ κ : Type} [DecidableEq κ] {volume : Volume δ κ} {script : Script}

/-- **The tag of an untouched file**: its size, and the modification time on the system clock with
the delay between the two readings. -/
theorem currentEtag_of_untouched {ftime epoch : Int} {r : ClockReading}
    (h : script.Untouched ftime epoch r) {cachePath content : Bytes} {d : Disk volume}
    (hfile : d.read cachePath = some content) :
    currentEtag volume script cachePath d
      = lit "\"" ++ Bytes.decimal content.length ++ lit "-"
        ++ Bytes.decimalInt (toTimeT (ftime + epoch + r.delay)) ++ lit "\"" := by
  have hsize : (system volume script).fileSize cachePath d = .ok content.length d := by
    simp only [system, answer, sizeOf, h.fileSize, hfile]
  have htime := modificationTime_of_ok volume h.lastWriteTime cachePath d
  rw [h.clocks, show ftime - (r.time - epoch) + (r.time + r.delay) = ftime + epoch + r.delay by
    omega] at htime
  have hetag : FileCache.generateEtag (system volume script) cachePath d
      = .ok (lit "\"" ++ Bytes.decimal content.length ++ lit "-"
        ++ Bytes.decimalInt (toTimeT (ftime + epoch + r.delay)) ++ lit "\"") d := by
    refine Io.tryCatch_of_ok ?_ _
    rw [Io.bind_of_ok htime, Io.bind_of_ok hsize]
    rfl
  rw [currentEtag, hetag]

/-- The tag is made of the seconds it shows. -/
theorem currentEtag_eq_iff {script' : Script} {ftime epoch : Int} {r r' : ClockReading}
    (h : script.Untouched ftime epoch r) (h' : script'.Untouched ftime epoch r')
    {cachePath content : Bytes} {d : Disk volume}
    (hfile : d.read cachePath = some content) :
    currentEtag volume script cachePath d = currentEtag volume script' cachePath d
      ↔ toTimeT (ftime + epoch + r.delay) = toTimeT (ftime + epoch + r'.delay) := by
  rw [currentEtag_of_untouched h hfile, currentEtag_of_untouched h' hfile,
    List.append_left_inj, List.append_right_inj, Bytes.decimalInt_injective.eq_iff]

/-! ## The tags of responses -/

variable {cache : FileCache} {path : Bytes} {d : Disk volume} {version : Nat}

/-- Opening a file leaves the disk alone. -/
theorem openFile_apply (cachePath : Bytes) (d : Disk volume) :
    (system volume script).openFile cachePath d
      = (((system volume script).openFile cachePath d).1, d) := rfl

/-- The whole file is sent with its current tag. -/
theorem etag_getOrFetch (hstatus : script.status = none)
    (hfile : d.read (cache.getCachePath path) = some content) {r : Response FileBody}
    {d' : Disk volume}
    (hrun : cache.getOrFetch (system volume script) path version d = .ok (some r) d') :
    r.find .etag = some (currentEtag volume script (cache.getCachePath path) d) := by
  obtain ⟨lastModified, hlast⟩ := exists_getLastModified volume script (cache.getCachePath path) d
  have hetag := generateEtag_apply volume script (cache.getCachePath path) d
  rw [FileCache.getOrFetch, Io.bind_of_ok (ensureCached_of_read cache hstatus hfile), if_pos rfl,
    Io.bind_of_ok (Io.noexcept_apply _ d), openFile_apply] at hrun
  cases hopen : ((system volume script).openFile (cache.getCachePath path) d).1 with
  | none =>
    rw [hopen] at hrun
    cases hrun
  | some file =>
    rw [hopen] at hrun
    dsimp only at hrun
    rw [Io.bind_of_ok hlast, Io.bind_of_ok hetag] at hrun
    cases hrun
    simp

/-- A file sent by the conditional operation has its current tag, too. -/
theorem etag_getOrFetchWithConditional {ifModifiedSince ifNoneMatch : Bytes}
    (hstatus : script.status = none) (hfile : d.read (cache.getCachePath path) = some content)
    {r : Response FileBody} {d' : Disk volume}
    (hrun : cache.getOrFetchWithConditional (system volume script) path version ifModifiedSince
      ifNoneMatch d = .ok (.fileBody (some r)) d') :
    r.find .etag = some (currentEtag volume script (cache.getCachePath path) d) := by
  obtain ⟨modified, hcheck, -⟩ :=
    exists_checkModifiedSince volume script ifModifiedSince (cache.getCachePath path) d
  obtain ⟨lastModified, hlast⟩ := exists_getLastModified volume script (cache.getCachePath path) d
  obtain ⟨compared, hcompared⟩ :
      ∃ compared, FileCache.etagToCompare (system volume script) ifNoneMatch
        (cache.getCachePath path) d = .ok compared d := by
    rw [FileCache.etagToCompare]
    split_ifs
    exacts [⟨[], rfl⟩, ⟨_, generateEtag_apply volume script (cache.getCachePath path) d⟩]
  have hetag := generateEtag_apply volume script (cache.getCachePath path) d
  have hcached := ensureCached_of_read cache hstatus hfile
  have hopened : (system volume script).openFile (cache.getCachePath path) d
      = (((system volume script).openFile (cache.getCachePath path) d).1, d) := openFile_apply _ d
  cases modified with
  | false =>
    cases hrun.symm.trans (FileCache.conditional_of_unmodified version hcached hcheck hlast hetag)
  | true =>
    by_cases htag : ifNoneMatch ≠ [] ∧ compared = ifNoneMatch
    · cases hrun.symm.trans
        (FileCache.conditional_of_tag version hcached hcheck hcompared htag hlast)
    cases hopen : ((system volume script).openFile (cache.getCachePath path) d).1 with
    | none =>
      rw [hopen] at hopened
      cases hrun.symm.trans
        (FileCache.conditional_of_unopened version hcached hcheck hcompared htag hopened)
    | some file =>
      rw [hopen] at hopened
      obtain ⟨response, hrun', -, -, hfind⟩ := FileCache.conditional_of_opened version hcached
        hcheck hcompared htag hopened hlast hetag
      cases hrun.symm.trans hrun'
      exact hfind

/-- The file is sent, by either operation that sends it whole. -/
def SendsFile (volume : Volume δ κ) (script : Script) (cache : FileCache) (path : Bytes)
    (d : Disk volume) (r : Response FileBody) : Prop :=
  ∃ version d', cache.getOrFetch (system volume script) path version d = .ok (some r) d'
    ∨ ∃ ifModifiedSince ifNoneMatch,
        cache.getOrFetchWithConditional (system volume script) path version ifModifiedSince
          ifNoneMatch d = .ok (.fileBody (some r)) d'

theorem SendsFile.etag {r : Response FileBody} (h : SendsFile volume script cache path d r)
    (hstatus : script.status = none) (hfile : d.read (cache.getCachePath path) = some content) :
    r.find .etag = some (currentEtag volume script (cache.getCachePath path) d) := by
  obtain ⟨version, d', hrun | ⟨ifModifiedSince, ifNoneMatch, hrun⟩⟩ := h
  · exact etag_getOrFetch hstatus hfile hrun
  · exact etag_getOrFetchWithConditional hstatus hfile hrun

end Disk

/-- **When the tag of an untouched file is stable** between two calls, and a client that replays the
tag of a response is told that its copy is current: the delays between their clock readings lead to
the same second. -/
theorem etag_stable_iff {δ κ : Type} [DecidableEq κ] (volume : Volume δ κ) (cache : FileCache)
    (path content : Bytes) (version : Nat) (d : Disk volume) (script script' : Script)
    (ftime epoch : Int) (r r' : ClockReading) (h : script.Untouched ftime epoch r)
    (h' : script'.Untouched ftime epoch r')
    (hfile : d.read (cache.getCachePath path) = some content) :
    Disk.currentEtag volume script (cache.getCachePath path) d
        = Disk.currentEtag volume script' (cache.getCachePath path) d
      ∧ (∀ response, Disk.SendsFile volume script cache path d response →
        ∃ etag, response.find .etag = some etag
          ∧ ∃ answer d', cache.getOrFetchWithConditional (Disk.system volume script') path version
              [] etag d = .ok answer d' ∧ answer.IsNotModified)
      ↔ toTimeT (ftime + epoch + r.delay) = toTimeT (ftime + epoch + r'.delay) := by
  rw [Disk.currentEtag_eq_iff h h' hfile]
  refine and_iff_left_of_imp fun heq response hsent => ?_
  have htag : Disk.currentEtag volume script (cache.getCachePath path) d ≠ [] := by
    rw [Disk.currentEtag_of_untouched h hfile]
    simp [lit]
  obtain ⟨answer, hrun, h304⟩ := Disk.conditional_of_current version h'.status hfile htag
    (.inr ((Disk.currentEtag_eq_iff h h' hfile).2 heq))
  exact ⟨_, hsent.etag h.status hfile, answer, d, hrun, h304⟩

/-- A call at which the two clocks, which share their epoch, are read in these nanoseconds. -/
def sampleReading (ftime : Int) (r : ClockReading) : Script :=
  { sampleDates 0 with lastWriteTime := .ok ftime, clocks := (r.time - 0, r.time + r.delay) }

theorem untouched_sampleReading (ftime : Int) (r : ClockReading) :
    (sampleReading ftime r).Untouched ftime 0 r := ⟨rfl, rfl, rfl, rfl⟩

/-- In the first nanosecond of a second, a short delay leaves the tag as it is. -/
theorem etag_stable_sameSecond :
    Disk.currentEtag (.tree []) (sampleReading 1445412480000000000 ⟨0, 0⟩) (lit "./cache/f")
        (.withFile [lit "cache", lit "f"] (lit "data"))
      = Disk.currentEtag (.tree []) (sampleReading 1445412480000000000 ⟨5, 999⟩) (lit "./cache/f")
        (.withFile [lit "cache", lit "f"] (lit "data")) :=
  ((etag_stable_iff (.tree []) ⟨{}, lit "./cache", lit "ftp.debian.org"⟩ (lit "/f") (lit "data") 11
    _ _ _ _ 0 _ _ (untouched_sampleReading _ _) (untouched_sampleReading _ _)
    (Disk.read_withFile (by decide) _)).2 (by decide)).1

/-- In the last nanosecond of a second, a delay of one nanosecond changes the tag. -/
theorem etag_stable_fails : ¬ ∀ (script script' : Script) (ftime epoch : Int) (r r' : ClockReading)
    (cachePath content : Bytes) (d : TreeDisk), script.Untouched ftime epoch r →
    script'.Untouched ftime epoch r' → d.read cachePath = some content →
    Disk.currentEtag (.tree []) script cachePath d
      = Disk.currentEtag (.tree []) script' cachePath d := by
  intro hall
  have hfile : (Disk.withFile [lit "cache", lit "f"] (lit "data")).read (lit "./cache/f")
      = some (lit "data") := Disk.read_withFile (by decide) _
  have heq := (Disk.currentEtag_eq_iff (untouched_sampleReading 1445412480999999999 ⟨0, 0⟩)
    (untouched_sampleReading 1445412480999999999 ⟨0, 1⟩) hfile).1
    (hall _ _ _ 0 _ _ _ _ _ (untouched_sampleReading _ _) (untouched_sampleReading _ _) hfile)
  exact absurd heq (by decide)

end PacPrism
