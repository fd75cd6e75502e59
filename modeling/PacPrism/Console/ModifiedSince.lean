import PacPrism.Console.Conditional
import PacPrism.Console.HttpDates

/-!
# Console/ModifiedSince — If-Modified-Since in the time zone of the server

The date of the header is in GMT, and so is the one the server sends, by what both say.  Yet the
server breaks its times down into local time, and takes the fields of the header for local standard
time: a date `d` is read as `d - std`, where `std` is what `mktime` takes off its fields, and one
the server wrote itself at `m` as `m + offset m - std`.
-/

namespace PacPrism

/-- The file on a path was modified `t` nanoseconds after the epoch of the system clock.  The two
clocks are read at one moment, and count from epochs that are `epoch` apart. -/
def System.ModifiedAt {σ : Type} (sys : System σ) (cachePath : Bytes) (t : Int) (s s' : σ) : Prop :=
  ∃ epoch now s₁, sys.lastWriteTime cachePath s = .ok (t + epoch) s₁
    ∧ sys.readClocks s₁ = ((now + epoch, now), s')

/-- **The answer is decided by the date**: a 304 exactly if the file was not modified after `d`, and
else the file, if it can be opened. -/
def FileCacheResponse.DecidedByDate (d modified : Int) (opened : Option FileBody)
    (r : FileCacheResponse) : Prop :=
  (r.IsNotModified ↔ modified ≤ d) ∧ (d < modified → ∀ file ∈ opened, r.IsFull file.sent)

/-- A date that is taken for another one, `std` seconds earlier and on the other side of the
modification time: east of Greenwich a file modified before the date counts as modified after it,
west of Greenwich it is the other way round.  The date that is read as 0 counts as none. -/
def Misleads (std d modified : Int) : Prop :=
  modified ≤ d ∧ (d - std < modified ∨ d = std) ∨ d < modified ∧ modified ≤ d - std

instance (std d modified : Int) : Decidable (Misleads std d modified) :=
  inferInstanceAs (Decidable (_ ∨ _))

/-- The system clock counts its nanoseconds in 64 bits. -/
theorem toTimeT_lt {t : Int} (h : t < 2 ^ 63) : toTimeT t < 9223372037 := by
  rw [toTimeT]
  rcases le_total 0 t with hpos | hneg
  · rw [Int.tdiv_eq_ediv_of_nonneg hpos]
    omega
  · have hquotient := Int.tdiv_nonneg (Int.neg_nonneg_of_nonpos hneg) (b := 1000000000) (by decide)
    rw [Int.neg_tdiv] at hquotient
    omega

namespace FileCache

variable {σ : Type} {sys : System σ} {cachePath : Bytes} {t : Int} {s s₁ s₂ : σ}

theorem modificationTime_of_modifiedAt (h : sys.ModifiedAt cachePath t s s₂) :
    modificationTime sys cachePath s = .ok (toTimeT t) s₂ := by
  obtain ⟨epoch, now, s₁, hwrite, hclocks⟩ := h
  have hdifference : t + epoch - (now + epoch) + now = t := by omega
  rw [modificationTime, Io.bind_of_ok hwrite, Io.bind_apply, Io.noexcept_apply, hclocks]
  dsimp only
  rw [hdifference]
  rfl

/-- **Without an entity tag, the check of the date decides.** -/
theorem conditional_of_checked (cache : FileCache) {path header : Bytes} (version : Nat)
    {d modified : Int} (hcached : cache.ensureCached sys path s = .ok true s₁)
    (hcheck : checkModifiedSince sys header (cache.getCachePath path) s₁
      = .ok (decide (d < modified)) s₂) :
    ∃ r s₃, cache.getOrFetchWithConditional sys path version header [] s = .ok r s₃
      ∧ r.DecidedByDate d modified (sys.openFile (cache.getCachePath path) s₂).1 := by
  have hcompare : etagToCompare sys [] (cache.getCachePath path) s₂ = .ok [] s₂ := rfl
  by_cases hlater : d < modified
  · rw [decide_eq_true hlater] at hcheck
    cases hopen : sys.openFile (cache.getCachePath path) s₂ with
    | mk opened s₃ =>
      cases opened with
      | none =>
        exact ⟨_, _, conditional_of_unopened version hcached hcheck hcompare (fun h => h.1 rfl)
          hopen, iff_of_false id (by omega), fun _ file h => absurd h (Option.not_mem_none file)⟩
      | some file =>
        obtain ⟨lastModified, s₄, hlast⟩ :=
          total_getLastModified sys (cache.getCachePath path) s₃
        obtain ⟨etag, s₅, hetag⟩ := total_generateEtag sys (cache.getCachePath path) s₄
        obtain ⟨response, hrun, hok, hbody, -⟩ := conditional_of_opened version hcached hcheck
          hcompare (fun h => h.1 rfl) hopen hlast hetag
        refine ⟨_, _, hrun, iff_of_false id (by omega), fun _ file' h => ?_⟩
        obtain rfl := Option.some.inj h
        exact ⟨hok, by rw [hbody]⟩
  · rw [decide_eq_false hlater] at hcheck
    obtain ⟨lastModified, s₃, hlast⟩ := total_getLastModified sys (cache.getCachePath path) s₂
    obtain ⟨etag, s₄, hetag⟩ := total_generateEtag sys (cache.getCachePath path) s₃
    exact ⟨_, _, conditional_of_unmodified version hcached hcheck hlast hetag,
      iff_of_true rfl (by omega), fun h => absurd h hlater⟩

/-- **A date is read as local standard time.** -/
theorem parseHttpDate_httpDate {zone : Zone} (hlib : sys.time.Follows zone) {tm : Tm}
    (h : tm.Writable) :
    parseHttpDate sys tm.httpDate = tm.toSeconds - zone.taken tm.moment := by
  obtain ⟨tm', hread, hmoment, hisdst⟩ := hlib.getTime tm h
  have hrange : tm'.InRange := by
    rw [← Tm.inRange_moment_iff, hmoment, Tm.inRange_moment_iff]
    exact h.toInRange
  have hseconds : tm'.toSeconds = tm.toSeconds := by
    rw [← Tm.toSeconds_moment, hmoment, Tm.toSeconds_moment]
  rw [parseHttpDate, hread]
  dsimp only
  rw [hlib.mktime tm' hrange hisdst, hseconds, hmoment]

theorem checkModifiedSince_httpDate {zone : Zone} (hlib : sys.time.Follows zone) {tm : Tm}
    (hdate : tm.Writable) (h : sys.ModifiedAt cachePath t s s₂) :
    checkModifiedSince sys tm.httpDate cachePath s
      = .ok (decide (tm.toSeconds = zone.taken tm.moment
          ∨ tm.toSeconds - zone.taken tm.moment < toTimeT t)) s₂ := by
  rw [checkModifiedSince_of_ok tm.httpDate_ne_nil (modificationTime_of_modifiedAt h),
    parseHttpDate_httpDate hlib hdate]
  simp only [Int.sub_eq_zero]

/-- The text of a modification time is its local time, with GMT behind it. -/
theorem getLastModified_of_modifiedAt {zone : Zone} (hlib : sys.time.Follows zone)
    (hlow : 0 ≤ toTimeT t) (hhigh : t < 2 ^ 63) (h : sys.ModifiedAt cachePath t s s₂) :
    getLastModified sys cachePath s = .ok (zone.localtime (toTimeT t)).httpDate s₂ := by
  have hwritable := zone.writable_localtime hlow (toTimeT_lt hhigh)
  rw [getLastModified]
  refine Io.tryCatch_of_ok ?_ _
  rw [Io.bind_of_ok (modificationTime_of_modifiedAt h), hlib.localtime _ hlow (toTimeT_lt hhigh),
    hlib.strftime _ hwritable]
  rfl

end FileCache

/-! ## The date of a client -/

/-- A call without upstream on a server in this zone, whose files were modified `t` nanoseconds
after the epoch. -/
def Script.inZone (zone : Zone) (t : Int) : Script :=
  { Script.offline .current with lastWriteTime := .ok t, time := zoneLibrary zone }

theorem Disk.modifiedAt_inZone {δ κ : Type} [DecidableEq κ] (volume : Volume δ κ) (zone : Zone)
    (t : Int) (cachePath : Bytes) (d : Disk volume) :
    (system volume (Script.inZone zone t)).ModifiedAt cachePath t d d :=
  ⟨0, 0, d, by rw [Int.add_zero]; rfl, rfl⟩

/-- A cache in `./cache`, and a disk with one file in it. -/
def sampleCache : FileCache := ⟨{}, lit "./cache", lit "ftp.debian.org"⟩

def sampleDisk : TreeDisk := .withFile [lit "cache", lit "f"] (lit "data")

theorem sample_cached (zone : Zone) (t : Int) :
    sampleCache.ensureCached (Disk.system (.tree []) (Script.inZone zone t)) (lit "/f") sampleDisk
      = .ok true sampleDisk :=
  Disk.ensureCached_of_read sampleCache rfl (Disk.read_withFile (by decide) _)

theorem writable_sample : (Tm.ofSeconds 1445412480).Writable :=
  Tm.writable_ofSeconds (by decide) (by decide)

/-- **A date of the server is a validator**: it is read as the modification time `modified` it was
written for, and a client that sends it gets the file exactly if it was modified later. -/
def FileCache.Revalidates {σ : Type} (cache : FileCache) (sys : System σ) (path : Bytes)
    (version : Nat) (text : Bytes) (modified : Int) : Prop :=
  parseHttpDate sys text = modified
    ∧ ∀ t s s₁ s₂, cache.ensureCached sys path s = .ok true s₁ →
      sys.ModifiedAt (cache.getCachePath path) t s₁ s₂ →
      ∃ r s₃, cache.getOrFetchWithConditional sys path version text [] s = .ok r s₃
        ∧ r.DecidedByDate modified (toTimeT t) (sys.openFile (cache.getCachePath path) s₂).1

namespace FileCache

variable {σ : Type} {sys : System σ} {zone : Zone} {t : Int} {s s' : σ}

/-- What the date of the server is read as. -/
theorem parseHttpDate_getLastModified (hlib : sys.time.Follows zone) {cachePath text : Bytes}
    (hlow : 0 ≤ toTimeT t) (hhigh : t < 2 ^ 63) (hmodified : sys.ModifiedAt cachePath t s s')
    (htext : getLastModified sys cachePath s = .ok text s') :
    text ≠ [] ∧ parseHttpDate sys text = toTimeT t + zone.offset (toTimeT t)
      - zone.taken (zone.localtime (toTimeT t)).moment := by
  have hlocal := getLastModified_of_modifiedAt hlib hlow hhigh hmodified
  obtain ⟨rfl, -⟩ := EStateM.Result.ok.inj (htext.symm.trans hlocal)
  refine ⟨Tm.httpDate_ne_nil _, ?_⟩
  rw [parseHttpDate_httpDate hlib (zone.writable_localtime hlow (toTimeT_lt hhigh)),
    zone.toSeconds_localtime]

end FileCache

/-- **The server knows its own dates again** exactly if `mktime` takes off them what local time was
ahead when the file was modified; where standard time has never changed, if daylight saving was not
in effect then (`Zone.readsBack_saving_iff`). -/
theorem revalidates_iff {σ : Type} {sys : System σ} {zone : Zone} (hlib : sys.time.Follows zone)
    (cache : FileCache) (path : Bytes) (version : Nat) {t : Int} (hpos : 0 < toTimeT t)
    (hhigh : t < 2 ^ 63) {s s' : σ} (hmodified : sys.ModifiedAt (cache.getCachePath path) t s s')
    {text : Bytes}
    (htext : FileCache.getLastModified sys (cache.getCachePath path) s = .ok text s') :
    cache.Revalidates sys path version text (toTimeT t) ↔ zone.ReadsBack (toTimeT t) := by
  obtain ⟨hheader, hparse⟩ :=
    FileCache.parseHttpDate_getLastModified hlib hpos.le hhigh hmodified htext
  constructor
  · rintro ⟨hback, -⟩
    rw [hparse] at hback
    rw [Zone.ReadsBack]
    omega
  · intro hreads
    rw [hreads, Int.add_sub_cancel] at hparse
    refine ⟨hparse, fun t' s s₁ s₂ hcached hmodified' => ?_⟩
    refine FileCache.conditional_of_checked cache version hcached ?_
    rw [FileCache.checkModifiedSince_of_ok hheader
      (FileCache.modificationTime_of_modifiedAt hmodified'), hparse]
    simp only [hpos.ne', false_or]

/-- Central Europe in 2015: an hour ahead of UTC, and two from 29 March to 25 October. -/
def centralEurope : Zone :=
  Zone.saving 3600 (fun t => if 1427590800 ≤ t ∧ t < 1445734800 then 3600 else 0) fun t => by
    split_ifs <;> decide

/-- In winter, the date a file is sent with is read as its modification time. -/
theorem revalidates_winter :
    sampleCache.Revalidates
      (Disk.system (.tree []) (Script.inZone centralEurope 1450000000000000000)) (lit "/f") 11
      (lit "Sun, 13 Dec 2015 10:46:40 GMT") 1450000000 :=
  (revalidates_iff (zoneLibrary_follows centralEurope) sampleCache (lit "/f") 11
    (t := 1450000000000000000) (by decide) (by decide)
    (Disk.modifiedAt_inZone (.tree []) _ _ _ sampleDisk) rfl).2
    ((Zone.readsBack_saving_iff _ _).2 (by decide))

/-- In summer it is read as a time an hour later: a file modified again within this hour counts as
unmodified. -/
theorem not_revalidates :
    ¬ ∀ (σ : Type) (sys : System σ) (zone : Zone), sys.time.Follows zone →
      ∀ (cache : FileCache) (path : Bytes) (version : Nat) (t : Int) (s s' : σ) (text : Bytes),
        0 < toTimeT t → t < 2 ^ 63 → sys.ModifiedAt (cache.getCachePath path) t s s' →
        FileCache.getLastModified sys (cache.getCachePath path) s = .ok text s' →
        cache.Revalidates sys path version text (toTimeT t) := by
  intro hall
  have hmodified := Disk.modifiedAt_inZone (.tree []) centralEurope 1445412480000000000
    (sampleCache.getCachePath (lit "/f")) sampleDisk
  have hlib : (Disk.system (.tree [])
      (Script.inZone centralEurope 1445412480000000000)).time.Follows centralEurope :=
    zoneLibrary_follows centralEurope
  have htext := FileCache.getLastModified_of_modifiedAt hlib (by decide) (by decide) hmodified
  have hparse :=
    FileCache.parseHttpDate_getLastModified hlib (by decide) (by decide) hmodified htext
  obtain ⟨hclaimed, -⟩ := hall _ _ centralEurope hlib sampleCache (lit "/f") 11 _ _ _ _ (by decide)
    (by decide) hmodified htext
  exact absurd (hparse.2.symm.trans hclaimed) (by decide)

end PacPrism
