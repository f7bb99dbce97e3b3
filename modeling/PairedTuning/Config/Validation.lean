import PairedTuning.Decimal.Writer
import PairedTuning.Logging.Settings

/-!
# Checking a configuration

A configuration is checked section by section; the first setting that is wrong is reported. The
words of the log section have to be spelled exactly. The check has lists of words and a table of
what the hyper-parameters have to satisfy; it does not ask those who use the configuration.
-/

namespace PairedTuning

/-- What is wrong with a configuration. -/
inductive ConfigError where
  | unknownLevel (text : String)
  | unknownFormat (text : String)
  | unknownRotation (text : String)
  | emptyLogDir
  | shardsNotPowerOfTwo (shards : Nat)
  | zeroTtl
  | zeroCapacity
  | outOfRange (p : HyperParameter) (value : Float) (rule : Requirement)

def ConfigError.message : ConfigError → String
  | unknownLevel text =>
    "Invalid log level: " ++ text ++ ". Must be one of: trace, debug, info, warn, error"
  | unknownFormat text => "Invalid log format: " ++ text ++ ". Must be one of: json, pretty"
  | unknownRotation text =>
    "Invalid log rotation: " ++ text ++ ". Must be one of: daily, hourly, never"
  | emptyLogDir => "Log directory cannot be empty"
  | shardsNotPowerOfTwo shards => s!"Invalid lock shards: {shards}. Must be a power of two"
  | zeroTtl => "Invalid cache ttl_secs: 0. Must be at least 1"
  | zeroCapacity => "Invalid cache max_capacity: 0. Must be at least 1"
  | outOfRange p value rule =>
    "Invalid optimizer default " ++ p.name ++ ": " ++ Decimal.write value ++ ". Must " ++ rule.rule

/-- Whether a number is a power of two. -/
def isPowerOfTwo (n : Nat) : Bool := 1 <<< n.log2 == n

namespace Config

/-- The words for a level. -/
def levelWords : List String := ["trace", "debug", "info", "warn", "error"]

/-- The words for a format. -/
def formatWords : List String := ["json", "pretty"]

/-- The words for a rotation. -/
def rotationWords : List String := ["daily", "hourly", "never"]

/-- Check the log section. -/
def checkLogging (c : LoggingConfig) : Except ConfigError Unit := do
  if !levelWords.contains c.level then throw (.unknownLevel c.level)
  if !formatWords.contains c.format then throw (.unknownFormat c.format)
  if !rotationWords.contains c.rotation then throw (.unknownRotation c.rotation)
  if c.logDir = some "" then throw .emptyLogDir

/-- What the hyper-parameters have to satisfy, in the order in which they are checked. -/
def hyperRules : List (HyperParameter × Requirement) :=
  [(.lr, .positive), (.beta, .properFraction), (.beta2, .positiveFraction), (.eps, .nonNegative),
    (.initialMoment, .secondMoment), (.offsetFraction, .nonNegative), (.alpha, .nonNegative),
    (.gamma, .nonNegative)]

/-- Check the values of all hyper-parameters. -/
def checkHyper (d : HyperDefaults Float) : Except ConfigError Unit :=
  hyperRules.forM fun (p, rule) =>
    if rule.admits (d.get p) then .ok () else .error (.outOfRange p (d.get p) rule)

/-- Check a configuration. -/
def check (c : Config) : Except ConfigError Unit := do
  checkLogging c.logging
  if !isPowerOfTwo c.locks.shards then throw (.shardsNotPowerOfTwo c.locks.shards)
  if c.cache.ttlSecs = 0 then throw .zeroTtl
  if c.cache.maxCapacity = 0 then throw .zeroCapacity
  checkHyper c.hyper

end Config

end PairedTuning
