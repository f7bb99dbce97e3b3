import PairedTuning.Document.Record
import PairedTuning.Logging.Settings

/-!
# Configurations as documents

How a configuration and log settings are written as documents, and read back. Every section and
every field has a default. Whether an array given for a section may have more items than the section
has fields is for the caller to say. Log settings have no document if their directory is no text.
-/

namespace PairedTuning

open Document

namespace InstanceConfig

def toDocument (c : InstanceConfig) : Document := obj [("primary", bool c.primary)]

def ofDocument? (more : Bool) (d : Document) : Option InstanceConfig := do
  let fields ← d.record? ["primary"] more
  let primary ← fields.defaulted "primary" Config.standard.role.primary toBool?
  pure { primary }

end InstanceConfig

namespace CacheConfig

def toDocument (c : CacheConfig) : Document :=
  obj [("ttl_secs", ofNat c.ttlSecs), ("max_capacity", ofNat c.maxCapacity)]

def ofDocument? (more : Bool) (d : Document) : Option CacheConfig := do
  let fields ← d.record? ["ttl_secs", "max_capacity"] more
  let ttlSecs ← fields.defaulted "ttl_secs" Config.standard.cache.ttlSecs (toNat? 64)
  let maxCapacity ← fields.defaulted "max_capacity" Config.standard.cache.maxCapacity (toNat? 64)
  pure { ttlSecs, maxCapacity }

end CacheConfig

namespace LockConfig

def toDocument (c : LockConfig) : Document := obj [("shards", ofNat c.shards)]

def ofDocument? (more : Bool) (d : Document) : Option LockConfig := do
  let fields ← d.record? ["shards"] more
  let shards ← fields.defaulted "shards" Config.standard.locks.shards (toNat? 64)
  pure { shards }

end LockConfig

namespace HyperDefaults

def toDocument (d : HyperDefaults Float) : Document :=
  obj (HyperParameter.all.map fun p => (p.name, ofFloat (d.get p)))

def ofDocument? (more : Bool) (d : Document) : Option (HyperDefaults Float) := do
  let fields ← d.record? (HyperParameter.all.map (·.name)) more
  HyperParameter.all.foldlM (fun values p => do
    let x ← fields.defaulted p.name (HyperDefaults.standard.get p) toFloat?
    pure (values.set p x)) .standard

end HyperDefaults

namespace LoggingConfig

/-- The section as a document. No directory is left out. -/
def toDocument (c : LoggingConfig) : Document :=
  obj
    ([("level", str c.level), ("format", str c.format)] ++ present "log_dir" str c.logDir ++
      [("rotation", str c.rotation)])

def ofDocument? (more : Bool) (d : Document) : Option LoggingConfig := do
  let fields ← d.record? ["level", "format", "log_dir", "rotation"] more
  let level ← fields.defaulted "level" Config.standard.logging.level toString?
  let format ← fields.defaulted "format" Config.standard.logging.format toString?
  let logDir ← fields.optional "log_dir" toString?
  let rotation ← fields.defaulted "rotation" Config.standard.logging.rotation toString?
  pure { level, format, logDir, rotation }

end LoggingConfig

namespace Config

/-- A configuration is written section by section. -/
def toDocument (c : Config) : Document :=
  obj
    [("instance", c.role.toDocument), ("cache", c.cache.toDocument),
      ("locks", c.locks.toDocument), ("optimizer", c.hyper.toDocument),
      ("logging", c.logging.toDocument)]

def ofDocument? (more : Bool) (d : Document) : Option Config := do
  let fields ← d.record? ["instance", "cache", "locks", "optimizer", "logging"] more
  let role ← fields.defaulted "instance" standard.role (InstanceConfig.ofDocument? more)
  let cache ← fields.defaulted "cache" standard.cache (CacheConfig.ofDocument? more)
  let locks ← fields.defaulted "locks" standard.locks (LockConfig.ofDocument? more)
  let hyper ← fields.defaulted "optimizer" standard.hyper (HyperDefaults.ofDocument? more)
  let logging ← fields.defaulted "logging" standard.logging (LoggingConfig.ofDocument? more)
  pure { role, cache, locks, hyper, logging }

end Config

namespace LogSettings

/-- The document for a directory. A path that is no text has none. -/
def writeDirectory? : Option DirectoryPath → Option Document
  | none => some null
  | some path => path.text?.map str

def readDirectory? (d : Document) : Option DirectoryPath := d.toString?.map .ofText

/-- Log settings are written with the names of their choices, if their directory can be written. -/
def write? (s : LogSettings) : Option Document := do
  let directory ← writeDirectory? s.directory
  pure (obj
    [("level", str s.level), ("format", str s.format.name), ("log_dir", directory),
      ("enable_stdout", bool s.stdout), ("rotation", str s.rotation.name)])

/-- The document of settings that can be written, as all can that were read from a document. -/
def toDocument (s : LogSettings) : Document := s.write?.getD null

/-- The fields of written log settings. An array of them has to go as far as the directory. -/
def fields? : Document → Option Fields
  | arr items =>
    if items.length < 3 then none
    else (arr items).record? ["level", "format", "log_dir", "enable_stdout", "rotation"] false
  | d => d.record? [] false

def ofDocument? (d : Document) : Option LogSettings := do
  let fields ← fields? d
  let level ← fields.defaulted "level" standard.level toString?
  let format ←
    fields.defaulted "format" standard.format fun d => (d.word? isNull).bind LogFormat.ofName?
  let directory ← fields.optional "log_dir" readDirectory?
  let stdout ← fields.defaulted "enable_stdout" standard.stdout toBool?
  let rotation ←
    fields.defaulted "rotation" standard.rotation fun d => (d.word? isNull).bind Rotation.ofName?
  pure { level, format, directory, stdout, rotation }

end LogSettings

end PairedTuning
