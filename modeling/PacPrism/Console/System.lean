import PacPrism.Http.Message

/-!
# Console/System — what the file cache asks of its surroundings

The file system, the output stream, the upstream server and the clocks, as calls on a state `σ` of
the world that nothing else is known about.  The calls that may throw are in `Io σ`, those that
report failure by their result are functions on the state.
-/

namespace PacPrism

/-- A request to the upstream server. -/
structure UpstreamRequest where
  host : Bytes
  port : Bytes
  target : Bytes
  connectTimeout : Int
  readTimeout : Int
  deriving DecidableEq

/-- Its answer: the status code, and the body in the buffers it was received in. -/
structure UpstreamResponse where
  result : Nat
  body : List Bytes
  deriving DecidableEq

/-- Broken-down time, as initialised with `{}`. -/
structure Tm where
  sec : Int := 0
  min : Int := 0
  hour : Int := 0
  mday : Int := 0
  mon : Int := 0
  year : Int := 0
  wday : Int := 0
  yday : Int := 0
  isdst : Int := 0
  deriving DecidableEq

/-- The time functions of the C and C++ libraries, in the time zone of the server. -/
structure TimeLibrary where
  /-- `localtime_r`. -/
  localtime : Int → Tm
  /-- `std::strftime` with the format of HTTP dates. -/
  strftime : Tm → Bytes
  /-- `std::get_time` with the same format, filling in a `Tm`; `none` sets failbit. -/
  getTime : Tm → Bytes → Option Tm
  /-- `std::mktime`. -/
  mktime : Tm → Int

/-- The surroundings of the file cache.  Times of the clocks are in nanoseconds, each clock counting
from an epoch of its own; `std::time_t` counts seconds. -/
structure System (σ : Type) where
  /-- `fs::exists`. -/
  fileExists : Bytes → Io σ Bool
  /-- `fs::is_regular_file`. -/
  isRegularFile : Bytes → Io σ Bool
  /-- `fs::file_size`. -/
  fileSize : Bytes → Io σ Nat
  /-- `fs::last_write_time`, on the clock of the file system. -/
  lastWriteTime : Bytes → Io σ Int
  /-- `fs::create_directories`. -/
  createDirectories : Bytes → Io σ Unit
  /-- Resolve, connect, send the request and receive the whole response. -/
  roundTrip : UpstreamRequest → Io σ UpstreamResponse
  /-- `file_body::open` for reading; `none` sets the error code. -/
  openFile : Bytes → σ → Option FileBody × σ
  /-- `file_body::seek`; `none` sets the error code. -/
  seek : FileBody → Nat → σ → Option FileBody × σ
  /-- Construct an `std::ofstream` on a path; false if it is not open. -/
  openStream : Bytes → σ → Bool × σ
  /-- `ofstream::write` to the stream on a path.  The state of the stream is not reported. -/
  writeStream : Bytes → Bytes → σ → σ
  /-- `ofstream::close`. -/
  closeStream : Bytes → σ → σ
  /-- `std::this_thread::sleep_for`, in seconds. -/
  sleepFor : Nat → σ → σ
  /-- The system clock. -/
  systemClock : σ → Int × σ
  /-- The clock of the file system and the system clock, read in one expression. -/
  readClocks : σ → (Int × Int) × σ
  /-- The conversions of time. -/
  time : TimeLibrary
  /-- The release of Beast the program is built with. -/
  release : BeastRelease

/-- **Nothing changes by being looked at**, the clocks included: what is read during one call is
read at one moment. -/
structure System.Steady {σ : Type} (sys : System σ) : Prop where
  fileExists : ∀ path, Io.ReadOnly (sys.fileExists path)
  isRegularFile : ∀ path, Io.ReadOnly (sys.isRegularFile path)
  fileSize : ∀ path, Io.ReadOnly (sys.fileSize path)
  lastWriteTime : ∀ path, Io.ReadOnly (sys.lastWriteTime path)
  readClocks : ∀ s, (sys.readClocks s).2 = s

/-- `system_clock::to_time_t`: nanoseconds to seconds, towards zero. -/
def toTimeT (ns : Int) : Int := ns.tdiv 1000000000

end PacPrism
