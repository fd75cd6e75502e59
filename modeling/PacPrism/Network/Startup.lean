import PacPrism.Console.ConfigFile
import PacPrism.Network.Footprint

/-!
# Network/Startup — from the command line to the server

    arguments ──Parser──▸ file ──Config──▸ settings ──FileCache, Router──▸ server

`main` reads the arguments, then the file they name, and builds the parts from the settings.  What
the program does to files and asks upstream is in the end up to the file it was configured with.
-/

namespace PacPrism

/-! ## The command line -/

/-- What `cxxopts` finds in the arguments, with the defaults it is given. -/
structure ParseResult where
  help : Bool
  port : UInt16
  configPath : Bytes

/-- The parser of the command line. -/
structure Parser where
  port : UInt16 := 9001
  configPath : Bytes := lit "build/config/pacprism.conf"

/-- Parse all arguments; false if the program is not to start. -/
def Parser.parse (parser : Parser) (cxxopts : List Bytes → Except Bytes ParseResult)
    (argv : List Bytes) : Bool × Parser :=
  match cxxopts argv with
  | .error _ => (false, parser)
  | .ok result =>
    if result.help then (false, parser)
    else if result.port.toNat < 1 ∨ 65535 < result.port.toNat then (false, parser)
    else (true, { port := result.port, configPath := result.configPath })

/-- The program starts with what was parsed, on a port that is one. -/
theorem Parser.exists_of_parse {parser parser' : Parser}
    {cxxopts : List Bytes → Except Bytes ParseResult} {argv : List Bytes}
    (h : parser.parse cxxopts argv = (true, parser')) :
    ∃ result, cxxopts argv = .ok result ∧ 1 ≤ result.port.toNat
      ∧ parser' = ⟨result.port, result.configPath⟩ := by
  rw [parse] at h
  cases hargs : cxxopts argv with
  | error e =>
    rw [hargs] at h
    cases h
  | ok result =>
    rw [hargs] at h
    dsimp only at h
    split_ifs at h with hhelp hport
    · cases h
    · cases h
    · exact ⟨result, rfl, by omega, (Prod.ext_iff.1 h).2.symm⟩

/-! ## The cache directory -/

namespace FileCache

variable {σ : Type} (sys : System σ)

/-- Ensure that the cache directory exists: a failure to create it is passed over. -/
def ensureCacheDir (cache : FileCache) : Io σ Unit := do
  if ← sys.fileExists cache.cacheDir then pure ()
  else tryCatch (sys.createDirectories cache.cacheDir) fun _ => pure ()

/-- The constructor. -/
def create (config : Config) (cacheDir upstreamHost : Bytes) : Io σ FileCache := do
  let cache : FileCache := { config, cacheDir, upstreamHost }
  cache.ensureCacheDir sys
  pure cache

/-- Host and port are read off the upstream host alone. -/
theorem upstreamEndpoint_congr {cache cache' : FileCache}
    (h : cache.upstreamHost = cache'.upstreamHost) :
    cache.upstreamEndpoint = cache'.upstreamEndpoint := by
  obtain ⟨config, cacheDir, host⟩ := cache
  obtain ⟨config', cacheDir', _⟩ := cache'
  cases h
  rw [upstreamEndpoint, upstreamEndpoint]
  dsimp only
  cases Bytes.find host (lit ":") <;> rfl

end FileCache

/-! ## The program -/

/-- `main`, up to where the server listens: its router and its port, unless the arguments end it. -/
def main {σ : Type} (cxxopts : List Bytes → Except Bytes ParseResult)
    (openConfig : Bytes → σ → Option Bytes × σ) (versionFull : Bytes) (sys : System σ)
    (argv : List Bytes) : Io σ (Option (Router × UInt16)) := do
  let (parsed, parser) := ({} : Parser).parse cxxopts argv
  if parsed then
    let file ← Io.noexcept (openConfig parser.configPath)
    let config := (({} : Config).loadFromFile file).2
    let cache ← FileCache.create sys config config.getCacheDir config.getUpstream
    pure (some (⟨cache, versionFull⟩, parser.port))
  else pure none

/-! ## What the configuration file says -/

namespace Config

/-- The last value that a file sets for a key, or the default where that is empty. -/
def setting (file : List (Line × LineEnd)) (key defaultValue : Bytes) : Bytes :=
  let value := ((bindings file).reverse.lookup key).getD []
  if value = [] then defaultValue else value

/-- The same, read as an `int`. -/
def intSetting (file : List (Line × LineEnd)) (key defaultValue : Bytes) (fallback : Int) : Int :=
  match Bytes.stoi (setting file key defaultValue) with
  | .ok n => n
  | .error _ => fallback

/-- The configuration that a file is. -/
def ofFile (file : List (Line × LineEnd)) : Config :=
  (bindings file).foldl (fun config b => config.set b.1 b.2) {}

theorem loadFromFile_eq (file : List (Line × LineEnd)) :
    (({} : Config).loadFromFile (some (fileText file))).2 = ofFile file := by
  rw [loadFromFile, ofFile]
  dsimp only
  rw [lines_fileText, foldl_parseLine]

theorem getOr_ofFile (file : List (Line × LineEnd)) (key defaultValue : Bytes) :
    (ofFile file).getOr key defaultValue = setting file key defaultValue := by
  have hnone : ({} : Config).entries.lookup key = none := Finmap.lookup_empty key
  rw [getOr, get, ofFile, lookup_foldl_set, hnone, Option.or_none, setting]

theorem getInt_ofFile (file : List (Line × LineEnd)) (key defaultValue : Bytes) (fallback : Int) :
    (ofFile file).getInt key defaultValue fallback = intSetting file key defaultValue fallback := by
  rw [getInt, getOr_ofFile]
  rfl

/-- How often a fetch is attempted, as a file has it. -/
def retries (file : List (Line × LineEnd)) : Nat :=
  (intSetting file (lit "max_retries") (lit "3") 3).toNat

/-- **The program does what the file says**: it contacts the upstream server of the file, with its
timeouts, and so often at most for a number of requests; and it writes below the cache directory of
the file, if not to a path that is absolute or climbs. -/
structure Governs (file : List (Line × LineEnd)) (requests : Nat) (l : List Effect) : Prop where
  upstream : ∀ request answer, Effect.roundTrip request answer ∈ l →
    (request.host, request.port)
        = FileCache.upstreamEndpoint ⟨{}, [], setting file (lit "upstream") (lit "ftp.debian.org")⟩
      ∧ request.connectTimeout = intSetting file (lit "connect_timeout") (lit "10") 10
      ∧ request.readTimeout = intSetting file (lit "read_timeout") (lit "30") 30
  writes : ∀ path buffer, Effect.writeStream path buffer ∈ l →
    ∃ requestPath, path
      = Path.join (setting file (lit "cache_dir") (lit "./cache")) (FileCache.cleanPath requestPath)
  contacts : Effect.total Effect.contacts l ≤ requests * (2 * retries file)
  seconds : Effect.total Effect.seconds l ≤ requests * (2 * (2 ^ (retries file - 1) - 1))

/-- Looking does not count. -/
theorem Governs.append_left {file : List (Line × LineEnd)} {requests : Nat} {l₀ l : List Effect}
    {dir : Bytes} (h : Governs file requests l)
    (h₀ : ∀ x ∈ l₀, x = .look dir ∨ x = .createDirectories dir) :
    Governs file requests (l₀ ++ l) := by
  have hright {x : Effect} (hx : x ∈ l₀ ++ l) (hlook : x ≠ .look dir)
      (hcreate : x ≠ .createDirectories dir) : x ∈ l :=
    (List.mem_append.1 hx).resolve_left fun hx => (h₀ x hx).elim hlook hcreate
  have hfree (cost : Effect → Nat) (hlook : cost (.look dir) = 0)
      (hcreate : cost (.createDirectories dir) = 0) : Effect.total cost l₀ = 0 :=
    Effect.total_eq_zero fun x hx => by rcases h₀ x hx with rfl | rfl <;> assumption
  refine ⟨fun request answer hmem => h.upstream request answer (hright hmem nofun nofun),
    fun path buffer hmem => h.writes path buffer (hright hmem nofun nofun), ?_, ?_⟩
  · rw [Effect.total_append, hfree _ rfl rfl, Nat.zero_add]
    exact h.contacts
  · rw [Effect.total_append, hfree _ rfl rfl, Nat.zero_add]
    exact h.seconds

end Config

/-! ## Starting -/

/-- Making sure of the cache directory looks at it, and may create it. -/
theorem FileCache.logsOnly_ensureCacheDir {σ : Type} (sys : System σ) (cache : FileCache) :
    Io.LogsOnly (fun x => x = Effect.look cache.cacheDir ∨ x = .createDirectories cache.cacheDir)
      (cache.ensureCacheDir sys.recorded) (cache.ensureCacheDir sys) := by
  refine (Io.logsOnly_recordedAs (.inl rfl)).bind fun found => ?_
  split_ifs
  · exact Io.logsOnly_pure _
  · exact (Io.logsOnly_recordedAs (.inr rfl)).tryCatch fun _ => Io.logsOnly_pure _

/-- **What a start went through**: the arguments were parsed, the file they name was read, and the
cache directory was made sure of. -/
theorem exists_of_main {σ : Type} {cxxopts : List Bytes → Except Bytes ParseResult}
    {openConfig : Bytes → σ → Option Bytes × σ} {versionFull : Bytes} {sys : System σ}
    {argv : List Bytes} {w w' : σ} {router : Router} {port : UInt16}
    (h : main cxxopts openConfig versionFull sys argv w = .ok (some (router, port)) w') :
    ∃ result config, cxxopts argv = .ok result ∧ port = result.port ∧ 1 ≤ port.toNat
      ∧ config = (({} : Config).loadFromFile (openConfig result.configPath w).1).2
      ∧ router = ⟨⟨config, config.getCacheDir, config.getUpstream⟩, versionFull⟩
      ∧ router.cache.ensureCacheDir sys (openConfig result.configPath w).2 = .ok () w' := by
  rw [main] at h
  cases hparse : ({} : Parser).parse cxxopts argv with
  | mk parsed parser =>
    rw [hparse] at h
    cases parsed with
    | false => cases h
    | true =>
      obtain ⟨result, hargs, hport, rfl⟩ := Parser.exists_of_parse hparse
      obtain ⟨file, w₁, hfile, h⟩ := Io.bind_eq_ok h
      obtain ⟨rfl, rfl⟩ := EStateM.Result.ok.inj hfile
      obtain ⟨cache, w₂, hcreate, h⟩ := Io.bind_eq_ok h
      obtain ⟨_, w₃, hensure, hcache⟩ := Io.bind_eq_ok hcreate
      obtain ⟨rfl, rfl⟩ := EStateM.Result.ok.inj hcache
      obtain ⟨hstarted, rfl⟩ := EStateM.Result.ok.inj h
      obtain ⟨rfl, rfl⟩ := Prod.ext_iff.1 (Option.some.inj hstarted)
      exact ⟨result, _, hargs, rfl, hport, rfl, rfl, hensure⟩

namespace Running

variable {framing : Framing Request} {router : Router} {file : List (Config.Line × Config.LineEnd)}
  {versionFull : Bytes} {t : ServerTrans RouterResponse} {l l₀ : List Effect}

/-- What was asked for is done as the file says. -/
theorem Contained.governs (h : Contained framing router t l)
    (hrouter : router = ⟨⟨Config.ofFile file, (Config.ofFile file).getCacheDir,
      (Config.ofFile file).getUpstream⟩, versionFull⟩) :
    Config.Governs file (requestCount t) l := by
  subst hrouter
  have hretries : (Config.ofFile file).getMaxRetries.toNat = Config.retries file := by
    rw [Config.getMaxRetries, Config.getInt_ofFile, Config.retries]
  refine ⟨fun request answer hmem => ?_, fun path buffer hmem => ?_, ?_, ?_⟩
  · obtain ⟨asking, -, -, path, -, hon⟩ := h.asked _ hmem
    obtain rfl : request = FileCache.upstreamRequest _ path := hon
    refine ⟨?_, Config.getInt_ofFile file _ _ _, Config.getInt_ofFile file _ _ _⟩
    exact FileCache.upstreamEndpoint_congr (Config.getOr_ofFile file _ _)
  · obtain ⟨asking, -, -, requestPath, -, hon⟩ := h.asked _ hmem
    refine ⟨requestPath, Eq.trans hon ?_⟩
    rw [← Config.getOr_ofFile]
    rfl
  · exact hretries ▸ h.contacts
  · exact hretries ▸ h.seconds

end Running

/-- **The program does what its configuration file says.**  Whatever the command line, as soon as it
names a configuration file and the program starts with it; whatever the file has between its
settings, and in every state that is reached: upstream is the server of the file, with the timeouts
of the file, and is contacted for each request at most twice as often as the file has retries; and
every file written is one of the cache directory of the file. -/
theorem configuration_governs {σ : Type} {framing : Framing Request} {sys : System σ}
    {nlohmann : Nlohmann} {cxxopts : List Bytes → Except Bytes ParseResult}
    {openConfig : Bytes → σ → Option Bytes × σ} {versionFull : Bytes} {argv : List Bytes}
    {drift : σ × List Effect → σ × List Effect → Prop} (hdrift : ∀ w w', drift w w' → w'.2 = w.2)
    {world : σ} {result : ParseResult} (hargs : cxxopts argv = .ok result)
    {file : List (Config.Line × Config.LineEnd)}
    (hfile : (openConfig result.configPath world).1 = some (Config.fileText file))
    {router : Router} {port : UInt16} {started : σ × List Effect}
    (hmain : main cxxopts (fun path => Io.silentCall (openConfig path)) versionFull sys.recorded
      argv (world, []) = .ok (some (router, port)) started)
    {s : Running (σ × List Effect)}
    (hs : Running.Reachable framing sys.recorded nlohmann router drift started s) :
    port = result.port
      ∧ Config.Governs file (Running.requestCount s.transmission) s.server.world.2 := by
  obtain ⟨result', config, hargs', rfl, -, rfl, hrouter, hensure⟩ := exists_of_main hmain
  obtain rfl := Except.ok.inj (hargs.symm.trans hargs')
  refine ⟨rfl, ?_⟩
  let cache : FileCache := ⟨Config.ofFile file, (Config.ofFile file).getCacheDir,
    (Config.ofFile file).getUpstream⟩
  have hsame : router = ⟨cache, versionFull⟩ := by
    rw [hrouter, show (Io.silentCall (openConfig result.configPath) (world, [])).1
      = some (Config.fileText file) from hfile, Config.loadFromFile_eq]
  obtain ⟨l₀, hlog₀, hlooks⟩ := router.cache.logsOnly_ensureCacheDir sys
    (openConfig result.configPath world).2 []
  have hopen : (Io.silentCall (openConfig result.configPath) (world, ([] : List Effect))).2
      = ((openConfig result.configPath world).2, []) := rfl
  rw [hopen, hlog₀] at hensure
  have hstarted : started.2 = l₀ := by
    have hfinal := congrArg Io.finalState hensure
    rw [Io.finalState_withLog] at hfinal
    exact (congrArg Prod.snd hfinal).symm
  obtain ⟨l, hlog, hl⟩ := hs.contained hdrift
  rw [hlog, hstarted]
  exact (hl.governs hsame).append_left hlooks

/-- A text whose ends are no blanks. -/
theorem Config.trimmed_of_ends {s : Bytes} (hhead : (s.head?.any fun b => b ∈ blanks) = false)
    (hlast : (s.getLast?.any fun b => b ∈ blanks) = false) : Bytes.Trimmed blanks s :=
  ⟨fun b hb => of_decide_eq_false ((Option.any_eq_false _ _).1 hhead b hb),
    fun b hb => of_decide_eq_false ((Option.any_eq_false _ _).1 hlast b hb)⟩

/-- A mirror that is out of reach: it is the one that is tried, as often as the file says. -/
theorem configuration_governs_mirror :
    let text := lit "upstream=mirror:8080\nmax_retries=2\n"
    let sys := Disk.system (.tree []) (.offline .current)
    ∃ (file : List (Config.Line × Config.LineEnd)) (router : Router)
      (world : TreeDisk × List Effect) (s : Running (TreeDisk × List Effect)),
      Config.fileText file = text
      ∧ main (fun _ => .ok ⟨false, 9001, lit "conf"⟩)
          (fun _ => Io.silentCall fun d => (some text, d)) (lit "0.1.0")
          sys.recorded [] (.empty [], []) = .ok (some (router, 9001)) world
      ∧ Running.Reachable ServerTrans.getFraming sys.recorded .withoutParser router Eq world s
      ∧ Effect.total Effect.contacts s.server.world.2 = 2
      ∧ Config.Governs file (Running.requestCount s.transmission) s.server.world.2 := by
  intro text sys
  let noBlanks : Config.Padding := ⟨[], nofun, nofun⟩
  let upstream : Config.Setting := ⟨lit "upstream", lit "mirror:8080", nofun, by decide, by decide,
    by decide, Config.trimmed_of_ends rfl rfl, by decide, Config.trimmed_of_ends rfl rfl⟩
  let retries : Config.Setting := ⟨lit "max_retries", lit "2", nofun, by decide, by decide,
    by decide, Config.trimmed_of_ends rfl rfl, by decide, Config.trimmed_of_ends rfl rfl⟩
  let file : List (Config.Line × Config.LineEnd) :=
    [(.setting upstream noBlanks noBlanks noBlanks noBlanks, .lf),
      (.setting retries noBlanks noBlanks noBlanks noBlanks, .lf)]
  have htext : Config.fileText file = text := by decide
  let request := lit "GET /x HTTP/1.1\r\n\r\n"
  let cxxopts : List Bytes → Except Bytes ParseResult := fun _ => .ok ⟨false, 9001, lit "conf"⟩
  let openConfig : Bytes → TreeDisk → Option Bytes × TreeDisk := fun _ d => (some text, d)
  let start : Server (TreeDisk × List Effect) := { world := (.empty [], []) }
  obtain ⟨answer, server, hrun, hanswer, hcontacts⟩ := Io.exists_ok_of_check
    (m := do
      let started ← Server.onWorld (main cxxopts (fun path => Io.silentCall (openConfig path))
        (lit "0.1.0") sys.recorded [])
      started.elim (throw ⟨.runtimeError, []⟩) fun p =>
        p.1.globalRouter sys.recorded .withoutParser (ServerTrans.getFraming.decode request))
    (s := start)
    (fun answer server => answer.NonNull ∧ Effect.total Effect.contacts server.world.2 = 2)
    (by decide +kernel)
  obtain ⟨started, server', hmain, hrun⟩ := Io.bind_eq_ok hrun
  cases started with
  | none => cases hrun
  | some started =>
    obtain ⟨router, port⟩ := started
    obtain ⟨world, hworld, rfl⟩ := Server.exists_of_onWorld hmain
    obtain ⟨result, -, hargs, hport, -⟩ := exists_of_main hworld
    obtain rfl : result = ⟨false, 9001, lit "conf"⟩ := (Except.ok.inj hargs).symm
    obtain rfl : port = 9001 := hport
    let started : Running (TreeDisk × List Effect) := .started world
    have hrun : router.globalRouter sys.recorded .withoutParser
      (ServerTrans.getFraming.decode request) started.server = .ok answer server := hrun
    have hserving : started.Serving := Running.serving_started _
    obtain ⟨s, hs, -, hserver, -, -⟩ := hserving.exists_exchange (fun _ => rfl) .refl (w := request)
      (by decide) hrun hanswer
    have hfile : (openConfig (lit "conf") (.empty [])).1 = some (Config.fileText file) := by
      rw [htext]
    obtain ⟨-, hgoverns⟩ := configuration_governs (by rintro w _ rfl; rfl) hargs hfile hworld hs
    exact ⟨file, router, world, s, htext, hworld, hs, by rw [hserver, hcontacts], hgoverns⟩

end PacPrism
