import PairedTuning.Definition.HyperParameters

/-!
# Configuration

The settings of a coordinator, by section.
-/

namespace PairedTuning

structure InstanceConfig where
  /-- Only the primary instance issues perturbations and accepts reports. -/
  primary : Bool
  deriving DecidableEq

structure CacheConfig where
  /-- The number of seconds that a copy stays valid. -/
  ttlSecs : Nat
  /-- The greatest number of copies. -/
  maxCapacity : Nat
  deriving DecidableEq

structure LockConfig where
  /-- The number of shards, a power of two. -/
  shards : Nat
  deriving DecidableEq

/-- The log, with its choices as they are spelled in the configuration. -/
structure LoggingConfig where
  level : String
  format : String
  /-- The directory of the log files; without one, nothing is written to files. -/
  logDir : Option String
  rotation : String
  deriving DecidableEq

structure Config where
  role : InstanceConfig
  cache : CacheConfig
  locks : LockConfig
  hyper : HyperDefaults Float
  logging : LoggingConfig

def Config.standard : Config where
  role := ⟨true⟩
  cache := ⟨60, 1000⟩
  locks := ⟨16⟩
  hyper := .standard
  logging := ⟨"info", "json", none, "daily"⟩

end PairedTuning
