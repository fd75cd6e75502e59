import PacPrism.Console.Disk

/-!
# Console/RangeResponse — what a 206 response sends

The length of the range is announced first, and then replaced: `prepare_payload` announces what is
left of the file, and that is also what is sent.  So a 206 response is exact for the ranges that
reach to the end of the file.
-/

namespace PacPrism

/-- The response announces the range and its length, and sends these bytes of the file. -/
def SendsSlice (r : Response FileBody) (content : Bytes) (range : RangeInfo) : Prop :=
  r.find .contentLength = some (Bytes.decimal (range.stop - range.start + 1))
    ∧ r.find .contentRange = some (lit "bytes " ++ Bytes.decimal range.start ++ lit "-"
        ++ Bytes.decimal range.stop ++ lit "/" ++ Bytes.decimal content.length)
    ∧ r.body.sent = (content.drop range.start).take (range.stop - range.start + 1)

/-- The length announced is that of the range if the range reaches to the end of the file, and if
the release counts from the cursor where the range does not start at the beginning. -/
theorem size_fileBody_eq_iff {content : Bytes} {start stop : Nat} (release : BeastRelease)
    (hle : start ≤ stop) (hlt : stop < content.length) :
    Body.size release (FileBody.mk content start) = stop - start + 1
      ↔ stop + 1 = content.length ∧ (release = .current ∨ start = 0) := by
  cases release with
  | current =>
    rw [and_iff_left (.inl rfl)]
    change content.length - start = stop - start + 1 ↔ _
    omega
  | older =>
    simp only [reduceCtorEq, false_or]
    change content.length = stop - start + 1 ↔ _
    omega

theorem sendsSlice_partialContent_iff {σ : Type} (sys : System σ) (version : Nat) {content : Bytes}
    {range : RangeInfo} (hsound : range.Sound content.length) (hvalid : range.valid = true) :
    SendsSlice (FileCache.partialContent sys version range ⟨content, range.start⟩) content range
      ↔ range.stop + 1 = content.length ∧ (sys.release = .current ∨ range.start = 0) := by
  obtain ⟨hsize, hbounds⟩ := hsound
  obtain ⟨hle, hlt⟩ := hbounds hvalid
  have hsent : content.drop range.start
        = (content.drop range.start).take (range.stop - range.start + 1)
      ↔ range.stop + 1 = content.length := by
    rw [eq_comm, List.take_eq_self_iff, List.length_drop]
    omega
  have hlength : some (Bytes.decimal (Body.size sys.release (FileBody.mk content range.start)))
        = some (Bytes.decimal (range.stop - range.start + 1))
      ↔ range.stop + 1 = content.length ∧ (sys.release = .current ∨ range.start = 0) := by
    rw [Option.some.injEq, Bytes.decimal_injective.eq_iff]
    exact size_fileBody_eq_iff sys.release hle hlt
  rw [SendsSlice, FileCache.partialContent]
  simp only [Response.find_preparePayload, Response.find_set, Response.body_preparePayload,
    Response.body_set, Response.body_setContentLength, FileBody.sent, hsize, hsent, hlength,
    reduceCtorEq, if_true, if_false, true_and]
  exact and_iff_left_of_imp And.left

namespace Disk

variable {δ κ : Type} [DecidableEq κ] {volume : Volume δ κ} {script : Script}

/-- A valid range of a cached file is answered with the file positioned at its start. -/
theorem getOrFetchWithRange_of_valid (hread : script.Readable) (cache : FileCache) {path : Bytes}
    {d : Disk volume} {content : Bytes}
    (hfile : d.read (cache.getCachePath path) = some content) (version : Nat)
    {header : Bytes} (hvalid : (parseRange header content.length).valid = true) :
    cache.getOrFetchWithRange (system volume script) path version header d
      = .ok (some (FileCache.partialContent (system volume script) version
          (parseRange header content.length)
          ⟨content, (parseRange header content.length).start⟩)) d := by
  obtain ⟨hstatus, hsize, hopen, hseek⟩ := hread
  have hheader : header ≠ [] := by
    rintro rfl
    cases hvalid
  have hopened : (system volume script).openFile (cache.getCachePath path) d
      = (some ⟨content, 0⟩, d) := by
    simp only [system, hopen, if_true, hfile, Option.map_some]
  rw [FileCache.getOrFetchWithRange,
    Io.bind_of_ok (ensureCached_of_read cache hstatus hfile),
    if_pos rfl, Io.bind_of_ok (parseRangeHeader_apply header hsize hfile),
    if_neg (by simp [hvalid, hheader]), Io.bind_apply, Io.noexcept_apply, hopened]
  dsimp only
  rw [Io.bind_apply, Io.noexcept_apply]
  simp only [system, hseek, if_true]
  rfl

end Disk

/-- **Which 206 responses are exact**: those for a range that reaches to the end of the file and,
where the release announces the size of the whole file, starts at its beginning. -/
theorem rangeResponse_exact_iff {δ κ : Type} [DecidableEq κ] (volume : Volume δ κ) (script : Script)
    (hread : script.Readable) (cache : FileCache) (path : Bytes) (version : Nat) (header : Bytes)
    (d : Disk volume) (content : Bytes)
    (hfile : d.read (cache.getCachePath path) = some content)
    (hvalid : (parseRange header content.length).valid = true) :
    (∃ r, cache.getOrFetchWithRange (Disk.system volume script) path version header d
          = .ok (some r) d
        ∧ r.status = .partialContent
        ∧ SendsSlice r content (parseRange header content.length))
      ↔ (parseRange header content.length).stop + 1 = content.length
        ∧ (script.release = .current ∨ (parseRange header content.length).start = 0) := by
  have hrun := Disk.getOrFetchWithRange_of_valid hread cache hfile version hvalid
  have hslice := sendsSlice_partialContent_iff (Disk.system volume script) version
    (sound_parseRange header content.length) hvalid
  constructor
  · rintro ⟨r, hr, -, hsends⟩
    cases hr.symm.trans hrun
    exact hslice.1 hsends
  · exact fun hcond => ⟨_, hrun, rfl, hslice.2 hcond⟩

/-- A cache that holds a file of ten bytes. -/
def tenBytes : TreeDisk := .withFile [lit "cache", lit "f"] (lit "0123456789")

theorem read_tenBytes : tenBytes.read (lit "./cache/f") = some (lit "0123456789") :=
  Disk.read_withFile (by decide) _

/-- The theorem on the last four bytes of a file: they are sent as announced. -/
theorem rangeResponse_exact_suffix :
    (∃ r, FileCache.getOrFetchWithRange (Disk.system (.tree []) (.offline .current))
          ⟨{}, lit "./cache", lit "ftp.debian.org"⟩ (lit "/f") 11 (lit "bytes=-4") tenBytes
          = .ok (some r) tenBytes
        ∧ r.status = .partialContent
        ∧ SendsSlice r (lit "0123456789") (parseRange (lit "bytes=-4") 10)) :=
  (rangeResponse_exact_iff (.tree []) (.offline .current) ⟨rfl, rfl, rfl, rfl⟩
    ⟨{}, lit "./cache", lit "ftp.debian.org"⟩ (lit "/f") 11 (lit "bytes=-4") tenBytes
    (lit "0123456789") read_tenBytes (by decide)).2 (by decide)

/-- The first four bytes of a file of ten: the whole file is announced and sent. -/
theorem rangeResponse_inexact :
    ¬ ∀ (script : Script), script.Readable → ∀ (cache : FileCache) (path : Bytes) (version : Nat)
      (header : Bytes) (d : TreeDisk) (content : Bytes),
      d.read (cache.getCachePath path) = some content →
      (parseRange header content.length).valid = true →
      ∃ r, cache.getOrFetchWithRange (Disk.system (.tree []) script) path version header d
          = .ok (some r) d
        ∧ r.status = .partialContent
        ∧ SendsSlice r content (parseRange header content.length) := by
  intro hall
  have hread : (Script.offline .current).Readable := ⟨rfl, rfl, rfl, rfl⟩
  have hfile : tenBytes.read (FileCache.getCachePath
      ⟨{}, lit "./cache", lit "ftp.debian.org"⟩ (lit "/f")) = some (lit "0123456789") :=
    read_tenBytes
  obtain ⟨r, hr, -, hsends⟩ := hall (.offline .current) hread
    ⟨{}, lit "./cache", lit "ftp.debian.org"⟩ (lit "/f") 11 (lit "bytes=0-3") tenBytes
    (lit "0123456789") hfile (by decide)
  have hvalid : (parseRange (lit "bytes=0-3") (lit "0123456789").length).valid = true := by decide
  have hrun := Disk.getOrFetchWithRange_of_valid hread _ hfile 11 hvalid
  cases hr.symm.trans hrun
  exact absurd ((sendsSlice_partialContent_iff _ 11 (sound_parseRange _ _) (by decide)).1 hsends)
    (by decide)

end PacPrism
