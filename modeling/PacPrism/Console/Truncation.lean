import PacPrism.Console.Fetching

/-!
# Console/Truncation — when a truncated file enters the cache

The writes of a fetch are not checked, so a fetch reports success whatever the disk has stored.  One
that reports failure has written no file, but it may have made directories, and its path may lead to
a file only now.  It keeps its promise exactly when neither happens; and as long as the disk loses
nothing, every file ever served is a complete body of upstream, or was there from the start.
-/

namespace PacPrism

/-- A request for a file, and what happens during it. -/
structure GetCall where
  script : Script
  path : Bytes
  version : Nat

namespace Disk

variable {δ κ : Type} [DecidableEq κ] {volume : Volume δ κ} (cache : FileCache)

/-- The answer of `is_cached`, if it gives one. -/
def cachedIn (script : Script) (path : Bytes) (d : Disk volume) : Option Bool :=
  match cache.isCached (system volume script) path d with
  | .ok cached _ => some cached
  | .error _ _ => none

/-- **The promise of a fetch**: if it returns true then the file is the complete upstream body, and
if it returns false then the file is cached if it was before. -/
def FetchIntact (script : Script) (path : Bytes) (d : Disk volume) : Prop :=
  ∃ fetched d', cache.fetchFromUpstream (system volume script) path d.next = .ok fetched d'
    ∧ (fetched = true → ∃ body, script.received 0 cache.config.getMaxRetries.toNat = some body
        ∧ d'.read (cache.getCachePath path) = some body.flatten)
    ∧ (fetched = false → d'.cachedIn cache script path = d.cachedIn cache script path)

/-- The disk loses nothing of a body that is written to it. -/
def LosesNothing (script : Script) : Prop :=
  ∀ body, script.written 0 cache.config.getMaxRetries.toNat = some body → script.KeepsBody body

/-- The path leads nowhere, and to a file that is there once a fetch has made directories on it,
without writing anything. -/
def Reveals (script : Script) (path : Bytes) (d : Disk volume) : Prop :=
  script.status = none ∧ script.received 0 cache.config.getMaxRetries.toNat ≠ none
    ∧ script.written 0 cache.config.getMaxRetries.toNat = none
    ∧ d.read (cache.getCachePath path) = none
    ∧ (d.make (script.createDirectories.map Prod.snd)
        (Path.parentPath (cache.getCachePath path))).read (cache.getCachePath path) ≠ none

instance (script : Script) (path : Bytes) (d : Disk volume) :
    Decidable (d.Reveals cache script path) := inferInstanceAs (Decidable (_ ∧ _ ∧ _ ∧ _ ∧ _))

/-- The disk after a call. -/
def serve (d : Disk volume) (call : GetCall) : Disk volume :=
  Io.finalState (cache.getOrFetch (system volume call.script) call.path call.version d.next)

/-- The disk after a sequence of calls. -/
abbrev served (d : Disk volume) (calls : List GetCall) : Disk volume :=
  Runs.run (serve cache) d calls

/-- The content is a complete body that upstream sent in one of the calls, for a path that led to
this file. -/
def Complete (d : Disk volume) (calls : List GetCall) (file : κ) (content : Bytes) : Prop :=
  ∃ before call after, calls = before ++ call :: after
    ∧ (served cache d before).target (cache.getCachePath call.path) = some file
    ∧ ∃ body, call.script.received 0 cache.config.getMaxRetries.toNat = some body
      ∧ body.flatten = content

variable {cache} {script : Script} {path : Bytes}

/-! ## One fetch -/

theorem cachedIn_of_none (h : script.status = none) (d : Disk volume) :
    d.cachedIn cache script path = some (d.read (cache.getCachePath path)).isSome := by
  rw [cachedIn, isCached_apply cache path d h]

theorem cachedIn_of_some {e : Exn} (h : script.status = some e) (d : Disk volume) :
    d.cachedIn cache script path = none := by
  have hthrows : cache.isCached (system volume script) path d = .error e d := by
    rw [FileCache.isCached]
    exact Io.bind_of_error (by simp only [system, answer, h]) _
  rw [cachedIn, hthrows]

/-- What a path leads to is a matter of the directories and the files. -/
theorem read_congr {d d' : Disk volume} (hfiles : d'.files = d.files)
    (hdirectories : d'.directories = d.directories) (p : Bytes) : d'.read p = d.read p := by
  rw [read, read, hfiles, hdirectories]

/-- A fetch that writes nothing leaves its path cached if it was, unless it reveals a file. -/
theorem cachedIn_eq_iff {d d' : Disk volume}
    (hwritten : script.written 0 cache.config.getMaxRetries.toNat = none)
    (hfiles : d'.files = d.files)
    (hdirectories : d'.directories = directoriesAfter volume script (cache.getCachePath path)
      d.directories (script.received 0 cache.config.getMaxRetries.toNat)) :
    d'.cachedIn cache script path = d.cachedIn cache script path
      ↔ ¬ d.Reveals cache script path := by
  rw [Reveals]
  cases hstatus : script.status with
  | some e =>
    rw [cachedIn_of_some hstatus, cachedIn_of_some hstatus]
    exact iff_of_true rfl fun h => nomatch h.1
  | none =>
    rw [cachedIn_of_none hstatus, cachedIn_of_none hstatus, Option.some.injEq]
    cases hreceived : script.received 0 cache.config.getMaxRetries.toNat with
    | none =>
      rw [hreceived] at hdirectories
      rw [read_congr hfiles hdirectories]
      exact iff_of_true rfl fun h => h.2.1 rfl
    | some body =>
      rw [hreceived] at hdirectories
      rw [read_congr (d := d.make (script.createDirectories.map Prod.snd)
        (Path.parentPath (cache.getCachePath path))) hfiles hdirectories]
      cases hread : d.read (cache.getCachePath path) with
      | some content =>
        rw [read_make hread]
        exact iff_of_true rfl fun h => nomatch h.2.2.2.1
      | none =>
        rw [Option.isSome_none, Option.isSome_eq_false_iff, Option.isNone_iff_eq_none]
        simp [hwritten]

/-- A fetch keeps its promise exactly when the disk loses nothing of what is written to it, and no
file is revealed. -/
theorem fetchIntact_iff (d : Disk volume) :
    d.FetchIntact cache script path
      ↔ LosesNothing cache script ∧ ¬ d.Reveals cache script path := by
  obtain ⟨k, d', hk, hrun, hfiles, hdirectories⟩ := fetchFromUpstream_apply script cache path d
  cases hwritten : script.written 0 cache.config.getMaxRetries.toNat with
  | none =>
    rw [hwritten] at hrun hfiles
    have hcached := cachedIn_eq_iff hwritten hfiles hdirectories
    rw [LosesNothing, hwritten, ← hcached]
    constructor
    · rintro ⟨fetched, d'', hrun', -, hsame⟩
      cases hrun'.symm.trans hrun
      exact ⟨nofun, hsame rfl⟩
    · exact fun h => ⟨false, d', hrun, nofun, fun _ => h.2⟩
  | some body =>
    obtain ⟨hreceived, -⟩ := received_of_written hwritten
    have hstored := read_of_written hk hwritten hfiles hdirectories
    have hreveals : ¬ d.Reveals cache script path := fun h => nomatch hwritten.symm.trans h.2.2.1
    rw [hwritten] at hrun
    rw [and_iff_left hreveals, LosesNothing, hwritten]
    simp only [Option.some.injEq, forall_eq']
    rw [← script.stored_eq_flatten_iff]
    constructor
    · rintro ⟨fetched, d'', hrun', hcomplete, -⟩
      cases hrun'.symm.trans hrun
      obtain ⟨body', hbody', hread⟩ := hcomplete rfl
      obtain rfl : body = body' := Option.some.inj (hreceived.symm.trans hbody')
      exact Option.some.inj (hstored.symm.trans hread)
    · intro hwhole
      exact ⟨true, d', hrun, fun _ => ⟨body, hreceived, by rw [hstored, hwhole]⟩, nofun⟩

/-! ## Sequences of calls -/

/-- What a call does to the files, its first step does: the rest only reads. -/
theorem files_serve (d : Disk volume) (call : GetCall) :
    (serve cache d call).files
      = (Io.finalState
        (cache.ensureCached (system volume call.script) call.path d.next)).files := by
  have hsteady := steady volume call.script
  rw [serve, FileCache.getOrFetch]
  refine Io.finalState_bind Disk.files _ (fun cached files => ?_) d.next
  split_ifs
  · refine Io.Keeps.bind (Io.keeps_noexcept fun _ h => h) fun opened => ?_
    cases opened with
    | none => exact Io.keeps_pure _ _
    | some file =>
      exact Io.Keeps.bind ((FileCache.readOnly_getLastModified hsteady _).keeps _) fun _ =>
        Io.Keeps.bind ((FileCache.readOnly_generateEtag hsteady _).keeps _) fun _ =>
          Io.keeps_pure _ _
  · exact Io.keeps_pure _ _

variable (cache script path) in
/-- The first step writes the body that is received, or no file. -/
theorem files_ensureCached (d : Disk volume) :
    (Io.finalState (cache.ensureCached (system volume script) path d.next)).files = d.files
      ∨ ∃ k body, d.target (cache.getCachePath path) = some k
        ∧ script.written 0 cache.config.getMaxRetries.toNat = some body
        ∧ (Io.finalState (cache.ensureCached (system volume script) path d.next)).files
          = d.files.insert k (script.stored body) := by
  have hsame := FileCache.readOnly_isCached cache (steady volume script) path d.next
  rw [FileCache.ensureCached, Io.bind_apply]
  cases hcached : cache.isCached (system volume script) path d.next with
  | error e d₁ =>
    rw [hcached] at hsame
    obtain rfl : d₁ = d.next := hsame
    exact .inl rfl
  | ok cached d₁ =>
    obtain rfl : d₁ = d.next := by rwa [hcached] at hsame
    cases cached with
    | true => exact .inl rfl
    | false =>
      obtain ⟨k, d', hk, hrun, hfiles, -⟩ := fetchFromUpstream_apply script cache path d
      have hfinal : Io.finalState (cache.fetchFromUpstream (system volume script) path d.next)
          = d' := by rw [hrun]; rfl
      change (Io.finalState (cache.fetchFromUpstream _ path d.next)).files = _
        ∨ ∃ k body, _ ∧ _ ∧ (Io.finalState (cache.fetchFromUpstream _ path d.next)).files = _
      rw [hfinal, hfiles]
      cases script.written 0 cache.config.getMaxRetries.toNat with
      | none => exact .inl rfl
      | some body => exact .inr ⟨k, body, hk, rfl, rfl⟩

/-- A file is answered as it is on the disk. -/
theorem read_of_getOrFetch {version : Nat} {d d' : Disk volume} {r : Response FileBody}
    (h : cache.getOrFetch (system volume script) path version d = .ok (some r) d') :
    d'.read (cache.getCachePath path) = some r.body.content ∧ r.body.cursor = 0 := by
  have hsteady := steady volume script
  rw [FileCache.getOrFetch] at h
  obtain ⟨cached, d₁, hcached, h⟩ := Io.bind_eq_ok h
  cases cached with
  | false => cases h
  | true =>
    rw [if_pos rfl] at h
    obtain ⟨opened, d₂, hopened, h⟩ := Io.bind_eq_ok h
    obtain ⟨hfile, hsame⟩ := EStateM.Result.ok.inj hopened
    obtain rfl : d₁ = d₂ := hsame
    cases opened with
    | none => cases h
    | some file =>
      change (if script.openFile then _ else none) = some file at hfile
      split_ifs at hfile
      obtain ⟨content, hcontent, rfl⟩ := Option.map_eq_some_iff.1 hfile
      obtain ⟨lastModified, d₃, hlast, hrest⟩ := Io.bind_eq_ok h
      obtain ⟨etag, d₄, hetag, hpure⟩ := Io.bind_eq_ok hrest
      have hkept := FileCache.readOnly_getLastModified hsteady (cache.getCachePath path) d₁
      have hkept' := FileCache.readOnly_generateEtag hsteady (cache.getCachePath path) d₃
      rw [hlast] at hkept
      rw [hetag] at hkept'
      obtain rfl : d₃ = d₁ := hkept
      obtain rfl : d₄ = d₃ := hkept'
      cases hpure
      exact ⟨hcontent, rfl⟩

theorem Complete.append {d : Disk volume} {calls : List GetCall} {file : κ} {content : Bytes}
    (h : Complete cache d calls file content) (call : GetCall) :
    Complete cache d (calls ++ [call]) file content := by
  obtain ⟨before, earlier, after, rfl, h⟩ := h
  exact ⟨before, earlier, after ++ [call], List.append_assoc _ _ _, h⟩

/-- While the disk loses nothing, every file in the cache is complete or was there at the start. -/
theorem complete_served {d : Disk volume} {calls : List GetCall}
    (hkeeps : ∀ call ∈ calls, LosesNothing cache call.script) {file : κ} {content : Bytes}
    (h : (served cache d calls).files.lookup file = some content) :
    Complete cache d calls file content ∨ d.files.lookup file = some content := by
  induction calls using List.reverseRecOn generalizing content with
  | nil => exact .inr h
  | append_singleton calls call ih =>
    rw [served, Runs.run_append, Runs.run_cons, Runs.run_nil, files_serve] at h
    have hearlier (hlookup : (served cache d calls).files.lookup file = some content) :
        Complete cache d (calls ++ [call]) file content ∨ d.files.lookup file = some content :=
      (ih (fun c hc => hkeeps c (List.mem_append_left _ hc)) hlookup).imp_left (·.append call)
    rcases files_ensureCached cache call.script call.path (served cache d calls)
      with hsame | ⟨k, body, hk, hbody, hinsert⟩
    · rw [hsame] at h
      exact hearlier h
    · rw [hinsert, Table.lookup_insert_eq_ite] at h
      split_ifs at h with hfile
      · have hwhole := (call.script.stored_eq_flatten_iff body).2
          (hkeeps call List.mem_concat_self body hbody)
        rw [hwhole] at h
        exact .inl ⟨calls, call, [], rfl, hfile ▸ hk, body, (received_of_written hbody).1,
          Option.some.inj h⟩
      · exact hearlier h

end Disk

-- A file that cannot be written is there, and no `./cache/a`: a fetch for `/a/../f` fails, and the
-- path is cached afterwards.
example : (Disk.withFile [lit "cache", lit "f"] (lit "data")).Reveals
    ⟨{}, lit "./cache", lit "ftp.debian.org"⟩
    { Script.offline .current with
      roundTrip := fun _ => .ok ⟨200, [lit "new"]⟩
      openStream := false } (lit "/a/../f") := by decide

end PacPrism
