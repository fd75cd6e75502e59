import PacPrism.Console.FileCache
import PacPrism.Foundations.Table
import PacPrism.Foundations.Volume

/-!
# Console/Disk — a disk whose writes may fail

The surroundings of the file cache, made concrete: the regular files of a disk, and a script of what
happens during one call of the cache.  Every outcome the calls can have is some script's: a round
trip may throw or answer anything, a write may store all of its bytes or a part, and the close may
lose what was buffered.  Once an output stream has failed it ignores what is written to it.

The operating system decides which file a path is, and that depends on the directories there are:
the volume is any `Volume`.  A fetch makes directories, and so may show a file that no path led to.
-/

namespace PacPrism

/-- How much of what was written is stored: all of it, or the first bytes. -/
inductive WriteOutcome where
  | all
  | fails (stored : Nat)
  deriving DecidableEq

/-- What happens during one call of the cache. -/
structure Script where
  /-- The outcomes of the round trips to the upstream server, in order. -/
  roundTrip : Nat → Except Exn UpstreamResponse
  /-- The exception the status calls end in, if any. -/
  status : Option Exn := none
  fileSize : Option Exn := none
  lastWriteTime : Except Exn Int := .ok 0
  /-- The message `create_directories` fails with, if it does, and how many components of the path
  have been made directories by then. -/
  createDirectories : Option (Bytes × Nat) := none
  openStream : Bool := true
  /-- The outcomes of the writes to the output stream, in order. -/
  write : Nat → WriteOutcome := fun _ => .all
  close : WriteOutcome := .all
  openFile : Bool := true
  seek : Bool := true
  systemClock : Int := 0
  clocks : Int × Int := (0, 0)
  time : TimeLibrary
  release : BeastRelease := .current

/-- Files can be read: no status call fails, and the file that is there is opened and positioned. -/
def Script.Readable (script : Script) : Prop :=
  script.status = none ∧ script.fileSize = none ∧ script.openFile = true ∧ script.seek = true

/-- A call without upstream, in which nothing else fails. -/
def Script.offline (release : BeastRelease) : Script where
  roundTrip _ := .error ⟨.beastSystemError, lit "Connection refused"⟩
  time := ⟨fun _ => {}, fun _ => [], fun _ _ => none, fun _ => 0⟩
  release := release

/-- The directories and the regular files, each with its directory there; how many round trips the
call has made; and its output stream: how many writes it has taken, and whether it has failed. -/
structure Disk {δ κ : Type} (volume : Volume δ κ) where
  directories : δ
  files : Table κ Bytes
  homes : ∀ k ∈ files, volume.Home directories k
  roundTrips : Nat := 0
  writes : Nat := 0
  failed : Bool := false

/-- The disk of a tree of directories, worked on from its root. -/
abbrev TreeDisk := Disk (Volume.tree [])

namespace Disk

variable {δ κ : Type} {volume : Volume δ κ}

/-- A disk without files. -/
def empty (directories : δ) : Disk volume where
  directories := directories
  files := ∅
  homes _ h := absurd h Finmap.notMem_empty

/-- A call returns or throws, and leaves the disk alone. -/
def answer {α : Type} (error : Option Exn) (a : Disk volume → Except Exn α) :
    Io (Disk volume) α := fun d =>
  match error with
  | some e => .error e d
  | none =>
    match a d with
    | .ok a => .ok a d
    | .error e => .error e d

/-- The disk as a new call finds it. -/
def next (d : Disk volume) : Disk volume := { d with roundTrips := 0 }

@[simp] theorem roundTrips_next (d : Disk volume) : d.next.roundTrips = 0 := rfl

/-- The disk once the directories on a path are made, or those on its first components. -/
def make (n : Option Nat) (path : Bytes) (d : Disk volume) : Disk volume :=
  { d with
    directories := volume.makeDirectories n path d.directories
    homes := fun k hk => volume.home_makeDirectories n path (d.homes k hk) }

section Files

variable [DecidableEq κ]

/-- A tree with one file. -/
def withFile (place : Tree.Place) (content : Bytes) : TreeDisk where
  directories := [place.dropLast]
  files := Finmap.insert place content ∅
  homes k hk := by
    obtain rfl := (Finmap.mem_insert.1 hk).resolve_right Finmap.notMem_empty
    exact ⟨_, List.mem_cons_of_mem _ List.mem_cons_self, List.prefix_rfl⟩

/-- The content of the file that a path leads to, if there is one. -/
def read (d : Disk volume) (path : Bytes) : Option Bytes :=
  (volume.locate d.directories path).bind fun k => d.files.lookup k

/-- The disk with another content of a file whose directory is there. -/
def put (d : Disk volume) (k : κ) (home : volume.Home d.directories k) (content : Bytes) :
    Disk volume :=
  { d with
    files := d.files.insert k content
    homes := fun j hj => by
      rcases Finmap.mem_insert.1 hj with rfl | hj
      exacts [home, d.homes j hj] }

/-- The disk with the file that a path leads to changed. -/
def edit (path : Bytes) (f : Bytes → Bytes) (d : Disk volume) : Disk volume :=
  match h : volume.locate d.directories path with
  | some k => d.put k (volume.home_of_locate h) (f (d.files.subscript k))
  | none => d

variable (script : Script)

/-- The size of a file that is there. -/
def sizeOf (d : Disk volume) (path : Bytes) : Except Exn Nat :=
  match d.read path with
  | some content => .ok content.length
  | none => .error ⟨.filesystemError, lit "No such file or directory"⟩

/-- A round trip. -/
def exchange : Io (Disk volume) UpstreamResponse := fun d =>
  match script.roundTrip d.roundTrips with
  | .ok res => .ok res { d with roundTrips := d.roundTrips + 1 }
  | .error e => .error e { d with roundTrips := d.roundTrips + 1 }

/-- Make the directories on a path; what is made before a failure stays. -/
def createDirectories (path : Bytes) : Io (Disk volume) Unit := fun d =>
  match script.createDirectories with
  | none => .ok () (d.make none path)
  | some (what, reached) => .error ⟨.filesystemError, what⟩ (d.make (some reached) path)

/-- Construct an output stream: the file is created, or emptied. -/
def openStream (path : Bytes) (d : Disk volume) : Bool × Disk volume :=
  if script.openStream ∧ (volume.locate d.directories path).isSome then
    (true, { d.edit path fun _ => [] with writes := 0, failed := false })
  else (false, d)

/-- One write. -/
def writeStream (path buffer : Bytes) (d : Disk volume) : Disk volume :=
  if d.failed then d
  else
    match script.write d.writes with
    | .all => { d.edit path (· ++ buffer) with writes := d.writes + 1 }
    | .fails stored =>
      { d.edit path (· ++ buffer.take stored) with writes := d.writes + 1, failed := true }

/-- Flush and close. -/
def closeStream (path : Bytes) (d : Disk volume) : Disk volume :=
  match script.close with
  | .all => d
  | .fails stored => d.edit path (·.take stored)

variable (volume)

/-- The disk, and the script of a call, as the surroundings of the file cache. -/
def system : System (Disk volume) where
  fileExists path := answer script.status fun d =>
    .ok ((d.read path).isSome || volume.isDirectory d.directories path)
  isRegularFile path := answer script.status fun d => .ok (d.read path).isSome
  fileSize path := answer script.fileSize fun d => d.sizeOf path
  lastWriteTime _ := answer none fun _ => script.lastWriteTime
  createDirectories := createDirectories script
  roundTrip _ := exchange script
  openFile path d := (if script.openFile then (d.read path).map (FileBody.mk · 0) else none, d)
  seek file offset d := (if script.seek then some { file with cursor := offset } else none, d)
  openStream := openStream script
  writeStream := writeStream script
  closeStream := closeStream script
  sleepFor _ d := d
  systemClock d := (script.systemClock, d)
  readClocks d := (script.clocks, d)
  time := script.time
  release := script.release

end Files

/-! ## Reading -/

theorem readOnly_answer {α : Type} (error : Option Exn) (a : Disk volume → Except Exn α) :
    Io.ReadOnly (answer error a) := fun d => by
  cases error with
  | some e => rfl
  | none =>
    rw [answer]
    cases a d <;> rfl

variable [DecidableEq κ] {script : Script}

variable (volume script) in
theorem steady : (system volume script).Steady where
  fileExists path := readOnly_answer script.status fun d : Disk volume =>
    .ok ((d.read path).isSome || volume.isDirectory d.directories path)
  isRegularFile path := readOnly_answer script.status fun d : Disk volume =>
    .ok (d.read path).isSome
  fileSize _ := readOnly_answer script.fileSize _
  lastWriteTime _ := readOnly_answer none _
  readClocks _ := rfl

theorem read_of_locate {d : Disk volume} {path : Bytes} {k : κ}
    (h : volume.locate d.directories path = some k) : d.read path = d.files.lookup k := by
  rw [read, h]
  rfl

theorem read_withFile {place : Tree.Place} {path : Bytes}
    (h : (Volume.tree []).locate [place.dropLast] path = some place) (content : Bytes) :
    (withFile place content).read path = some content :=
  (read_of_locate h).trans (Finmap.lookup_insert _)

/-- A file that is read is one that the path leads to. -/
theorem exists_locate_of_read {d : Disk volume} {path content : Bytes}
    (h : d.read path = some content) :
    ∃ k, volume.locate d.directories path = some k ∧ d.files.lookup k = some content :=
  Option.bind_eq_some_iff.1 h

/-- More directories take no file away. -/
theorem read_make {d : Disk volume} {path content : Bytes} (h : d.read path = some content)
    (n : Option Nat) (q : Bytes) : (d.make n q).read path = some content := by
  obtain ⟨k, hk, hcontent⟩ := exists_locate_of_read h
  rw [read_of_locate (volume.locate_makeDirectories n q hk)]
  exact hcontent

/-- A path is cached if it leads to a file, whatever else is there. -/
theorem isCached_apply (cache : FileCache) (path : Bytes) (d : Disk volume)
    (h : script.status = none) :
    cache.isCached (system volume script) path d
      = .ok (d.read (cache.getCachePath path)).isSome d := by
  let p := cache.getCachePath path
  have hask (a : Disk volume → Bool) :
      answer script.status (fun d => .ok (a d)) d = .ok (a d) d := by
    rw [h]
    rfl
  have hexists : (system volume script).fileExists p d
      = .ok ((d.read p).isSome || volume.isDirectory d.directories p) d :=
    hask fun d => (d.read p).isSome || volume.isDirectory d.directories p
  have hregular : (system volume script).isRegularFile p d = .ok (d.read p).isSome d :=
    hask fun d => (d.read p).isSome
  rw [FileCache.isCached, Io.bind_of_ok hexists]
  split_ifs with hfound
  · exact hregular
  · rw [Bool.not_eq_true, Bool.or_eq_false_iff] at hfound
    rw [hfound.1]
    rfl

/-- A cached file is not fetched again. -/
theorem ensureCached_of_read (cache : FileCache) {path content : Bytes} {d : Disk volume}
    (h : script.status = none) (hfile : d.read (cache.getCachePath path) = some content) :
    cache.ensureCached (system volume script) path d = .ok true d := by
  rw [FileCache.ensureCached, Io.bind_of_ok (isCached_apply cache path d h), hfile]
  rfl

theorem parseRangeHeader_apply {path content : Bytes} {d : Disk volume} (header : Bytes)
    (h : script.fileSize = none) (hfile : d.read path = some content) :
    FileCache.parseRangeHeader (system volume script) header path d
      = .ok (parseRange header content.length) d := by
  have hsize : (system volume script).fileSize path d = .ok content.length d := by
    simp only [system, answer, sizeOf, h, hfile]
  have hsome : (some <$> (system volume script).fileSize path) d = .ok (some content.length) d := by
    rw [map_eq_pure_bind, Io.bind_of_ok hsize]
    rfl
  rw [FileCache.parseRangeHeader, Io.bind_of_ok (Io.tryCatch_of_ok hsome _)]
  rfl

/-! ## Writing -/

@[simp] theorem directories_edit (path : Bytes) (f : Bytes → Bytes) (d : Disk volume) :
    (d.edit path f).directories = d.directories := by
  rw [edit]
  split <;> rfl

@[simp] theorem roundTrips_edit (path : Bytes) (f : Bytes → Bytes) (d : Disk volume) :
    (d.edit path f).roundTrips = d.roundTrips := by
  rw [edit]
  split <;> rfl

@[simp] theorem failed_edit (path : Bytes) (f : Bytes → Bytes) (d : Disk volume) :
    (d.edit path f).failed = d.failed := by
  rw [edit]
  split <;> rfl

theorem files_edit {d : Disk volume} {path : Bytes} {k : κ}
    (h : volume.locate d.directories path = some k) (f : Bytes → Bytes) :
    (d.edit path f).files = d.files.modify k f := by
  rw [edit]
  split
  · next j hj =>
    obtain rfl : k = j := Option.some.inj (h.symm.trans hj)
    rfl
  · next hnone => cases h.symm.trans hnone

/-- Only the file that the path leads to is changed. -/
theorem lookup_edit_of_ne {d : Disk volume} {path : Bytes} {k : κ} (f : Bytes → Bytes)
    (h : volume.locate d.directories path ≠ some k) :
    (d.edit path f).files.lookup k = d.files.lookup k := by
  rw [edit]
  split
  · next j hj => exact Finmap.lookup_insert_of_ne _ fun hk => h (hk ▸ hj)
  · rfl

end Disk

end PacPrism
