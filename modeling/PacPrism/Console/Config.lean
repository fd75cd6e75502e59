import PacPrism.Foundations.Numerals
import PacPrism.Foundations.Table

/-!
# Console/Config — the settings of the program
-/

namespace PacPrism

/-- Settings by name. -/
structure Config where
  entries : Table Bytes Bytes := ∅

namespace Config

/-- The value of a setting; empty if it is not set. -/
def get (config : Config) (key : Bytes) : Bytes := (config.entries.lookup key).getD []

/-- The value of a setting, or the default where it is empty. -/
def getOr (config : Config) (key defaultValue : Bytes) : Bytes :=
  if config.get key = [] then defaultValue else config.get key

/-- The upstream mirror. -/
def getUpstream (config : Config) : Bytes := config.getOr (lit "upstream") (lit "ftp.debian.org")

/-- The cache directory. -/
def getCacheDir (config : Config) : Bytes := config.getOr (lit "cache_dir") (lit "./cache")

/-- A setting read as an `int`; the fallback stands in for text that is none. -/
def getInt (config : Config) (key defaultValue : Bytes) (fallback : Int) : Int :=
  match Bytes.stoi (config.getOr key defaultValue) with
  | .ok n => n
  | .error _ => fallback

/-- How often a fetch is attempted. -/
def getMaxRetries (config : Config) : Int := config.getInt (lit "max_retries") (lit "3") 3

/-- Seconds to connect. -/
def getConnectTimeout (config : Config) : Int :=
  config.getInt (lit "connect_timeout") (lit "10") 10

/-- Seconds to read. -/
def getReadTimeout (config : Config) : Int := config.getInt (lit "read_timeout") (lit "30") 30

end Config

end PacPrism
