import PacPrism.Console.Disk
import PacPrism.Foundations.Runs

/-!
# Console/Fetching — what a fetch leaves on the disk

`Script.received` is what upstream decides: the body of the response the retry loop comes to.
`Script.stored` is what the disk makes of it.  A fetch writes the second where the first is there
and the file can be created, and changes no file otherwise; but as soon as a body is received it
makes directories (`Disk.fetchFrom_apply`).
-/

namespace PacPrism

namespace Script

variable (script : Script)

/-- The body of the response the retry loop comes to, from pass `retry` on with `remaining` passes
left: that of the first 200 response, if only transport errors come before it. -/
def received : Nat → Nat → Option (List Bytes)
  | _, 0 => none
  | retry, remaining + 1 =>
    match script.roundTrip retry with
    | .ok res => if res.result = 200 then some res.body else none
    | .error e => if e.kind = .beastSystemError then received (retry + 1) remaining else none

/-- The body that is written to a file: one is received, and the file can be created. -/
def written (retry remaining : Nat) : Option (List Bytes) :=
  if script.createDirectories = none ∧ script.openStream = true then
    script.received retry remaining
  else none

/-- What the stream takes of a body, from its write `k` on: nothing after the first failure. -/
def storedFrom : Nat → List Bytes → Bytes
  | _, [] => []
  | k, buffer :: body =>
    match script.write k with
    | .all => buffer ++ storedFrom (k + 1) body
    | .fails stored => buffer.take stored

/-- What is in the file after the close. -/
def stored (body : List Bytes) : Bytes :=
  match script.close with
  | .all => script.storedFrom 0 body
  | .fails stored => (script.storedFrom 0 body).take stored

/-- **No byte of the body is lost**: a write that fails has stored its buffer, with nothing left to
write after it, and a close that fails has kept everything. -/
def KeepsBody (body : List Bytes) : Prop :=
  (∀ k stored buffer, body[k]? = some buffer → script.write k = .fails stored →
      buffer.length ≤ stored ∧ (body.drop (k + 1)).flatten = [])
    ∧ ∀ stored, script.close = .fails stored → body.flatten.length ≤ stored

theorem written_zero (retry : Nat) : script.written retry 0 = none := by
  rw [written, received, ite_self]

section Written

variable {script} {retry remaining : Nat} {e : Exn} {res : UpstreamResponse}

theorem received_of_transient (h : script.roundTrip retry = .error e)
    (hkind : e.kind = .beastSystemError) :
    script.received retry (remaining + 1) = script.received (retry + 1) remaining := by
  rw [received, h]
  exact if_pos hkind

theorem received_of_error (h : script.roundTrip retry = .error e)
    (hkind : e.kind ≠ .beastSystemError) : script.received retry (remaining + 1) = none := by
  rw [received, h]
  exact if_neg hkind

theorem received_of_ok (h : script.roundTrip retry = .ok res) :
    script.received retry (remaining + 1)
      = if res.result = 200 then some res.body else none := by
  rw [received, h]

theorem written_of_transient (h : script.roundTrip retry = .error e)
    (hkind : e.kind = .beastSystemError) :
    script.written retry (remaining + 1) = script.written (retry + 1) remaining := by
  rw [written, written, received_of_transient h hkind]

theorem written_of_error (h : script.roundTrip retry = .error e)
    (hkind : e.kind ≠ .beastSystemError) : script.written retry (remaining + 1) = none := by
  rw [written, received_of_error h hkind, ite_self]

theorem written_of_ok (h : script.roundTrip retry = .ok res) :
    script.written retry (remaining + 1)
      = if res.result = 200 ∧ script.createDirectories = none ∧ script.openStream = true
        then some res.body else none := by
  rw [written, received_of_ok h, ← ite_and]
  exact if_congr and_comm rfl rfl

end Written

/-! ## What the disk stores -/

theorem storedFrom_prefix (k : Nat) (body : List Bytes) :
    script.storedFrom k body <+: body.flatten := by
  induction body generalizing k with
  | nil => exact List.prefix_rfl
  | cons buffer body ih =>
    rw [storedFrom, List.flatten_cons]
    cases script.write k with
    | all => exact (List.prefix_append_right_inj buffer).2 (ih (k + 1))
    | fails stored => exact (List.take_prefix stored buffer).trans (List.prefix_append buffer _)

/-- The writes store the whole body exactly when none that fails loses anything. -/
theorem storedFrom_eq_flatten_iff (k : Nat) (body : List Bytes) :
    script.storedFrom k body = body.flatten
      ↔ ∀ j stored buffer, body[j]? = some buffer → script.write (k + j) = .fails stored →
          buffer.length ≤ stored ∧ (body.drop (j + 1)).flatten = [] := by
  induction body generalizing k with
  | nil => exact iff_of_true rfl fun j stored buffer h => nomatch h
  | cons first body ih =>
    have hshift : ∀ j, k + (j + 1) = k + 1 + j := fun j => by omega
    rw [storedFrom, List.flatten_cons]
    cases hwrite : script.write k with
    | all =>
      rw [List.append_cancel_left_eq, ih (k + 1)]
      constructor
      · rintro h (_ | j) stored buffer hbuffer hfails
        · cases hwrite.symm.trans hfails
        · exact h j stored buffer hbuffer (by rwa [← hshift])
      · exact fun h j stored buffer hbuffer hfails =>
          h (j + 1) stored buffer hbuffer (by rwa [hshift])
    | fails stored =>
      rw [Bytes.take_eq_append_iff]
      constructor
      · rintro ⟨hle, hrest⟩ j stored' buffer hbuffer hfails
        cases j with
        | zero =>
          obtain rfl : first = buffer := Option.some.inj hbuffer
          obtain rfl : stored = stored' := WriteOutcome.fails.inj (hwrite.symm.trans hfails)
          exact ⟨hle, hrest⟩
        | succ j =>
          -- Whatever a later write does, nothing is left for it.
          have hempty : ∀ b ∈ body, b = [] := List.flatten_eq_nil_iff.1 hrest
          rw [hempty buffer (List.mem_of_getElem? hbuffer)]
          exact ⟨Nat.zero_le _, List.flatten_eq_nil_iff.2 fun b hb =>
            hempty b (List.mem_of_mem_drop hb)⟩
      · exact fun h => h 0 stored first rfl hwrite

theorem stored_eq_flatten_iff (body : List Bytes) :
    script.stored body = body.flatten ↔ script.KeepsBody body := by
  have hwrites := script.storedFrom_eq_flatten_iff 0 body
  simp only [Nat.zero_add] at hwrites
  rw [KeepsBody, ← hwrites, stored]
  cases script.close with
  | all => exact (and_iff_left fun stored h => nomatch h).symm
  | fails stored =>
    simp only [WriteOutcome.fails.injEq, forall_eq']
    constructor
    · intro htake
      have hwhole : script.storedFrom 0 body = body.flatten :=
        (script.storedFrom_prefix 0 body).eq_of_length_le (by
          rw [← htake]
          exact List.length_take_le' stored _)
      rw [hwhole, List.take_eq_self_iff] at htake
      exact ⟨hwhole, htake⟩
    · rintro ⟨hwhole, hle⟩
      rw [hwhole, List.take_of_length_le hle]

end Script

/-! ## One pass of the retry loop -/

namespace FileCache

variable {σ : Type} {sys : System σ} {cache : FileCache} {requestPath : Bytes}
  {retry remaining : Nat} {s s' : σ} {e : Exn}

/-- A pass that returns ends the loop. -/
theorem fetchFrom_of_ok {result : Bool} (h : cache.fetchAttempt sys requestPath s = .ok result s') :
    cache.fetchFrom sys requestPath retry (remaining + 1) s = .ok result s' := by
  rw [fetchFrom, map_eq_pure_bind, Io.bind_apply,
    Io.tryCatch_of_ok (Io.bind_of_ok h fun result => pure (some result))]
  rfl

/-- So does one that throws anything but a transport error. -/
theorem fetchFrom_of_error (h : cache.fetchAttempt sys requestPath s = .error e s')
    (hkind : e.kind ≠ .beastSystemError) :
    cache.fetchFrom sys requestPath retry (remaining + 1) s = .ok false s' := by
  rw [fetchFrom, map_eq_pure_bind, Io.bind_apply, Io.tryCatch_of_error (Io.bind_of_error h _),
    if_neg hkind]
  rfl

/-- After a transport error comes the next pass, if there is one. -/
theorem fetchFrom_of_transient (h : cache.fetchAttempt sys requestPath s = .error e s')
    (hkind : e.kind = .beastSystemError) :
    cache.fetchFrom sys requestPath retry (remaining + 1) s
      = if (retry : Int) = cache.config.getMaxRetries - 1 then .ok false s'
        else cache.fetchFrom sys requestPath (retry + 1) remaining
          (sys.sleepFor (1 <<< retry) s') := by
  rw [fetchFrom, map_eq_pure_bind, Io.bind_apply, Io.tryCatch_of_error (Io.bind_of_error h _),
    if_pos hkind]
  by_cases hlast : (retry : Int) = cache.config.getMaxRetries - 1
  · rw [if_pos hlast, if_pos hlast]
    rfl
  · rw [if_neg hlast, if_neg hlast]
    rfl

end FileCache

namespace Disk

variable {δ κ : Type} [DecidableEq κ] {volume : Volume δ κ} {script : Script}

/-! ## The output stream -/

theorem modify_insert (t : Table κ Bytes) (k : κ) (content : Bytes) (f : Bytes → Bytes) :
    Table.modify (Finmap.insert k content t) k f = Finmap.insert k (f content) t := by
  rw [Table.modify, Table.subscript, Finmap.lookup_insert, Finmap.insert_insert]
  rfl

theorem foldl_writeStream_of_failed (path : Bytes) (body : List Bytes) {d : Disk volume}
    (h : d.failed = true) :
    body.foldl (fun d buffer => writeStream script path buffer d) d = d := by
  induction body with
  | nil => rfl
  | cons buffer body ih => rw [List.foldl_cons, writeStream, if_pos h, ih]

section Streams

variable {path : Bytes} {k : κ} (t : Table κ Bytes)

variable (script) in
/-- The write loop appends what the stream takes. -/
theorem files_foldl_writeStream (body : List Bytes) {d : Disk volume} (content : Bytes)
    (hlocate : volume.locate d.directories path = some k) (hok : d.failed = false)
    (hfiles : d.files = t.insert k content) :
    (body.foldl (fun d buffer => writeStream script path buffer d) d).files
      = t.insert k (content ++ script.storedFrom d.writes body) := by
  induction body generalizing d content with
  | nil => rw [List.foldl_nil, Script.storedFrom, List.append_nil, hfiles]
  | cons buffer body ih =>
    rw [List.foldl_cons, writeStream, if_neg (by simp [hok]), Script.storedFrom]
    have hedit (f : Bytes → Bytes) : (d.edit path f).files = t.insert k (f content) := by
      rw [files_edit hlocate, hfiles, modify_insert]
    cases script.write d.writes with
    | all =>
      rw [← List.append_assoc]
      refine ih (content ++ buffer) ?_ ((failed_edit path _ d).trans hok) (hedit _)
      dsimp only
      rwa [directories_edit]
    | fails stored =>
      dsimp only
      rw [foldl_writeStream_of_failed path body rfl]
      exact hedit _

theorem directories_foldl_writeStream (path : Bytes) (body : List Bytes) (d : Disk volume) :
    (body.foldl (fun d buffer => writeStream script path buffer d) d).directories
      = d.directories := by
  induction body generalizing d with
  | nil => rfl
  | cons buffer body ih =>
    rw [List.foldl_cons, ih, writeStream]
    split_ifs
    · rfl
    · cases script.write d.writes <;> exact directories_edit _ _ d

theorem directories_closeStream (path : Bytes) (d : Disk volume) :
    (closeStream script path d).directories = d.directories := by
  rw [closeStream]
  cases script.close with
  | all => rfl
  | fails stored => exact directories_edit _ _ d

/-- The disk after a body was written to a fresh file. -/
theorem files_closeStream (body : List Bytes) {d : Disk volume}
    (hlocate : volume.locate d.directories path = some k) (hok : d.failed = false)
    (hwrites : d.writes = 0) (hfiles : d.files = t.insert k []) :
    (closeStream script path
      (body.foldl (fun d buffer => writeStream script path buffer d) d)).files
      = t.insert k (script.stored body) := by
  have hbody := files_foldl_writeStream script t body [] hlocate hok hfiles
  rw [hwrites, List.nil_append] at hbody
  rw [closeStream, Script.stored]
  cases script.close with
  | all => exact hbody
  | fails stored =>
    dsimp only
    have hkept : (body.foldl (fun d buffer => writeStream script path buffer d) d).directories
        = d.directories := directories_foldl_writeStream path body d
    rw [files_edit (hkept ▸ hlocate), hbody, modify_insert]

end Streams

/-! ## The retry loop -/

/-- What is on the disk after a body, if one was, was written to the file `k`. -/
def filesAfter (script : Script) (files : Table κ Bytes) (k : κ) :
    Option (List Bytes) → Table κ Bytes
  | none => files
  | some body => files.insert k (script.stored body)

/-- The directories after a fetch that has received a body, or none. -/
def directoriesAfter (volume : Volume δ κ) (script : Script) (cachePath : Bytes)
    (directories : δ) : Option (List Bytes) → δ
  | none => directories
  | some _ => volume.makeDirectories (script.createDirectories.map Prod.snd)
      (Path.parentPath cachePath) directories

/-- The file that a fetch for this path writes: the one it leads to once its directories are
made. -/
def target (d : Disk volume) (cachePath : Bytes) : Option κ :=
  volume.locate (volume.makeDirectories none (Path.parentPath cachePath) d.directories) cachePath

section Attempt

variable (cache : FileCache) (path : Bytes) {d : Disk volume}

theorem roundTrip_of_ok {res : UpstreamResponse} (request : UpstreamRequest)
    (h : script.roundTrip d.roundTrips = .ok res) :
    (system volume script).roundTrip request d
      = .ok res { d with roundTrips := d.roundTrips + 1 } := by simp only [system, exchange, h]

theorem roundTrip_of_error {e : Exn} (request : UpstreamRequest)
    (h : script.roundTrip d.roundTrips = .error e) :
    (system volume script).roundTrip request d
      = .error e { d with roundTrips := d.roundTrips + 1 } := by simp only [system, exchange, h]

theorem createDirectories_of_none (h : script.createDirectories = none) (p : Bytes)
    (d : Disk volume) :
    (system volume script).createDirectories p d = .ok () (d.make none p) := by
  simp only [system, createDirectories, h]

theorem createDirectories_of_some {what : Bytes} {reached : Nat}
    (h : script.createDirectories = some (what, reached)) (p : Bytes) (d : Disk volume) :
    (system volume script).createDirectories p d
      = .error ⟨.filesystemError, what⟩ (d.make (some reached) p) := by
  simp only [system, createDirectories, h]

theorem fetchAttempt_of_error {e : Exn} (h : script.roundTrip d.roundTrips = .error e) :
    cache.fetchAttempt (system volume script) path d
      = .error e { d with roundTrips := d.roundTrips + 1 } := by
  rw [FileCache.fetchAttempt, Io.bind_of_error (roundTrip_of_error _ h)]

/-- A transport error leads to the next pass.  The last pass returns what no pass would. -/
theorem fetchFrom_of_transportError {e : Exn} {remaining : Nat}
    (h : script.roundTrip d.roundTrips = .error e) (hkind : e.kind = .beastSystemError)
    (hmax : d.roundTrips + (remaining + 1) = cache.config.getMaxRetries.toNat) :
    cache.fetchFrom (system volume script) path d.roundTrips (remaining + 1) d
      = cache.fetchFrom (system volume script) path (d.roundTrips + 1) remaining
          { d with roundTrips := d.roundTrips + 1 } := by
  rw [FileCache.fetchFrom_of_transient (fetchAttempt_of_error cache path h) hkind]
  by_cases hlast : (d.roundTrips : Int) = cache.config.getMaxRetries - 1
  · obtain rfl : remaining = 0 := by omega
    rw [if_pos hlast]
    rfl
  · rw [if_neg hlast]
    rfl

/-- A 200 response is written to its file, if that can be created. -/
theorem fetchAttempt_of_ok {res : UpstreamResponse}
    (h : script.roundTrip d.roundTrips = .ok res) (hresult : res.result = 200)
    (hdir : script.createDirectories = none) (hopen : script.openStream = true) {k : κ}
    (hk : d.target (cache.getCachePath path) = some k) :
    ∃ d', cache.fetchAttempt (system volume script) path d = .ok true d'
      ∧ d'.files = d.files.insert k (script.stored res.body)
      ∧ d'.directories = volume.makeDirectories none
        (Path.parentPath (cache.getCachePath path)) d.directories := by
  let cachePath := cache.getCachePath path
  let made : Disk volume :=
    { d with roundTrips := d.roundTrips + 1 }.make none (Path.parentPath cachePath)
  let opened : Disk volume := { made.edit cachePath fun _ => [] with writes := 0, failed := false }
  have hmade : volume.locate made.directories cachePath = some k := hk
  have hdirectories : opened.directories = made.directories := directories_edit _ _ made
  have hopened : (system volume script).openStream cachePath made = (true, opened) :=
    if_pos ⟨hopen, by rw [hmade]; rfl⟩
  refine ⟨closeStream script cachePath
    (res.body.foldl (fun d buffer => writeStream script cachePath buffer d) opened), ?_, ?_, ?_⟩
  · rw [FileCache.fetchAttempt, Io.bind_of_ok (roundTrip_of_ok _ h),
      if_neg (not_not.2 hresult), Io.bind_of_ok (createDirectories_of_none hdir _ _),
      Io.bind_apply, Io.noexcept_apply, hopened]
    rfl
  · exact files_closeStream d.files res.body (hdirectories ▸ hmade) rfl rfl (files_edit hmade _)
  · rw [directories_closeStream, directories_foldl_writeStream, hdirectories]
    rfl

/-- An attempt that ends the fetch without a file. -/
def GivesUp (r : EStateM.Result Exn (Disk volume) Bool) (files : Table κ Bytes)
    (directories : δ) : Prop :=
  (Io.finalState r).files = files ∧ (Io.finalState r).directories = directories
    ∧ ((∃ d', r = .ok false d') ∨ ∃ e d', r = .error e d' ∧ e.kind ≠ .beastSystemError)

theorem givesUp_fetchAttempt {res : UpstreamResponse}
    (h : script.roundTrip d.roundTrips = .ok res)
    (hrefused : ¬ (res.result = 200 ∧ script.createDirectories = none ∧ script.openStream = true)) :
    GivesUp (cache.fetchAttempt (system volume script) path d) d.files
      (directoriesAfter volume script (cache.getCachePath path) d.directories
        (if res.result = 200 then some res.body else none)) := by
  rw [FileCache.fetchAttempt, Io.bind_of_ok (roundTrip_of_ok _ h)]
  by_cases hresult : res.result = 200
  case neg =>
    rw [if_pos hresult, if_neg hresult]
    split_ifs
    · exact ⟨rfl, rfl, .inl ⟨_, rfl⟩⟩
    · exact ⟨rfl, rfl, .inr ⟨_, _, rfl, by simp⟩⟩
  case pos =>
    rw [if_neg (not_not.2 hresult), if_pos hresult, directoriesAfter]
    cases hdir : script.createDirectories with
    | some failure =>
      rw [Io.bind_of_error (createDirectories_of_some hdir _ _)]
      exact ⟨rfl, rfl, .inr ⟨_, _, rfl, by simp⟩⟩
    | none =>
      have hopen : ¬ script.openStream = true := fun hopen => hrefused ⟨hresult, hdir, hopen⟩
      have hopened : ∀ (p : Bytes) (d : Disk volume),
          (system volume script).openStream p d = (false, d) :=
        fun p d => if_neg fun h => hopen h.1
      rw [Io.bind_of_ok (createDirectories_of_none hdir _ _), Io.bind_apply,
        Io.noexcept_apply, hopened]
      exact ⟨rfl, rfl, .inl ⟨_, rfl⟩⟩

end Attempt

variable (script) in
/-- **The retry loop, as upstream and the disk decide it.** -/
theorem fetchFrom_apply (cache : FileCache) (path : Bytes) {remaining : Nat} {k : κ} :
    ∀ {retry : Nat} {d : Disk volume}, d.roundTrips = retry →
      retry + remaining = cache.config.getMaxRetries.toNat →
      d.target (cache.getCachePath path) = some k →
      ∃ d', cache.fetchFrom (system volume script) path retry remaining d
          = .ok (script.written retry remaining).isSome d'
        ∧ d'.files = filesAfter script d.files k (script.written retry remaining)
        ∧ d'.directories = directoriesAfter volume script (cache.getCachePath path) d.directories
          (script.received retry remaining) := by
  induction remaining with
  | zero =>
    intro retry d _ _ _
    rw [script.written_zero]
    exact ⟨d, rfl, rfl, rfl⟩
  | succ remaining ih =>
    intro retry d hd hmax hk
    subst hd
    cases htrip : script.roundTrip d.roundTrips with
    | error e =>
      by_cases hkind : e.kind = .beastSystemError
      · rw [fetchFrom_of_transportError cache path htrip hkind hmax,
          Script.written_of_transient htrip hkind, Script.received_of_transient htrip hkind]
        exact ih (d := { d with roundTrips := d.roundTrips + 1 }) rfl (by omega) hk
      · rw [FileCache.fetchFrom_of_error (fetchAttempt_of_error cache path htrip) hkind,
          Script.written_of_error htrip hkind, Script.received_of_error htrip hkind]
        exact ⟨_, rfl, rfl, rfl⟩
    | ok res =>
      rw [Script.written_of_ok htrip, Script.received_of_ok htrip]
      by_cases haccepted :
        res.result = 200 ∧ script.createDirectories = none ∧ script.openStream = true
      case pos =>
        obtain ⟨d', hattempt, hfiles, hdirectories⟩ := fetchAttempt_of_ok cache path htrip
          haccepted.1 haccepted.2.1 haccepted.2.2 hk
        rw [if_pos haccepted, if_pos haccepted.1]
        refine ⟨d', FileCache.fetchFrom_of_ok hattempt, hfiles, ?_⟩
        rw [hdirectories, directoriesAfter, haccepted.2.1]
        rfl
      case neg =>
        rw [if_neg haccepted]
        obtain ⟨hfiles, hdirectories, ⟨d', hattempt⟩ | ⟨e, d', hattempt, hkind⟩⟩ :=
          givesUp_fetchAttempt cache path htrip haccepted
        · rw [hattempt] at hfiles hdirectories
          exact ⟨d', FileCache.fetchFrom_of_ok hattempt, hfiles, hdirectories⟩
        · rw [hattempt] at hfiles hdirectories
          exact ⟨d', FileCache.fetchFrom_of_error hattempt hkind, hfiles, hdirectories⟩

/-- A fetch that writes has received what it writes, and made the directories. -/
theorem received_of_written {retry remaining : Nat} {body : List Bytes}
    (h : script.written retry remaining = some body) :
    script.received retry remaining = some body ∧ script.createDirectories = none := by
  rw [Script.written] at h
  split_ifs at h with haccepted
  exact ⟨h, haccepted.1⟩

variable (script) in
/-- **A fetch**: whether it reports success, the files it leaves and the directories. -/
theorem fetchFromUpstream_apply (cache : FileCache) (path : Bytes) (d : Disk volume) :
    ∃ k d', d.target (cache.getCachePath path) = some k
      ∧ cache.fetchFromUpstream (system volume script) path d.next
        = .ok (script.written 0 cache.config.getMaxRetries.toNat).isSome d'
      ∧ d'.files = filesAfter script d.files k
        (script.written 0 cache.config.getMaxRetries.toNat)
      ∧ d'.directories = directoriesAfter volume script (cache.getCachePath path) d.directories
        (script.received 0 cache.config.getMaxRetries.toNat) := by
  obtain ⟨k, hk⟩ := volume.exists_locate d.directories (cache.getCachePath path)
  obtain ⟨d', hrun, hfiles, hdirectories⟩ :=
    fetchFrom_apply script cache path (roundTrips_next d) (Nat.zero_add _) hk
  exact ⟨k, d', hk, hrun, hfiles, hdirectories⟩

/-- The path leads to what was written. -/
theorem read_of_written {d d' : Disk volume} {cachePath : Bytes} {k : κ} {retry remaining : Nat}
    {body : List Bytes} (hk : d.target cachePath = some k)
    (hwritten : script.written retry remaining = some body)
    (hfiles : d'.files = filesAfter script d.files k (script.written retry remaining))
    (hdirectories : d'.directories = directoriesAfter volume script cachePath d.directories
      (script.received retry remaining)) : d'.read cachePath = some (script.stored body) := by
  obtain ⟨hreceived, hdir⟩ := received_of_written hwritten
  rw [hreceived, directoriesAfter, hdir] at hdirectories
  rw [hwritten] at hfiles
  have hlocate : volume.locate d'.directories cachePath = some k := by
    rw [hdirectories]
    exact hk
  rw [read_of_locate hlocate, hfiles]
  exact Finmap.lookup_insert _

end Disk

end PacPrism
