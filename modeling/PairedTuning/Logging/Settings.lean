import PairedTuning.Config.Basic
import PairedTuning.Logging.Path

/-!
# Log settings

The choices of the configuration's log section as values. Whoever needs one looks it up by its word
in a table of its own, and case does not matter there; the case map is that of ASCII, which is exact
for these words.
-/

namespace PairedTuning

/-- How much is logged. -/
inductive LogLevel where
  | trace
  | debug
  | info
  | warn
  | error
  deriving DecidableEq, Repr

namespace LogLevel

def name : LogLevel → String
  | trace => "trace"
  | debug => "debug"
  | info => "info"
  | warn => "warn"
  | error => "error"

/-- The level that a logger takes a word for. -/
def ofWord? (s : String) : Option LogLevel :=
  match s.toLower with
  | "trace" => some trace
  | "debug" => some debug
  | "info" => some info
  | "warn" => some warn
  | "error" => some error
  | _ => none

end LogLevel

/-- How a line of the log is written. -/
inductive LogFormat where
  | json
  | pretty
  deriving DecidableEq, Repr

namespace LogFormat

def all : List LogFormat := [json, pretty]

def name : LogFormat → String
  | json => "json"
  | pretty => "pretty"

/-- The format with a name, as settings are written. -/
def ofName? (s : String) : Option LogFormat := all.find? (·.name == s)

/-- The format that a configuration asks for by a word. -/
def ofWord? (s : String) : Option LogFormat :=
  match s.toLower with
  | "json" => some json
  | "pretty" => some pretty
  | _ => none

end LogFormat

/-- When a new log file is begun. -/
inductive Rotation where
  | daily
  | hourly
  | never
  deriving DecidableEq, Repr

namespace Rotation

def all : List Rotation := [daily, hourly, never]

def name : Rotation → String
  | daily => "daily"
  | hourly => "hourly"
  | never => "never"

/-- The rotation with a name, as settings are written. -/
def ofName? (s : String) : Option Rotation := all.find? (·.name == s)

/-- The rotation that a configuration asks for by a word. -/
def ofWord? (s : String) : Option Rotation :=
  match s.toLower with
  | "daily" => some daily
  | "hourly" => some hourly
  | "never" => some never
  | _ => none

end Rotation

/-- What a logger is set up with. -/
structure LogSettings where
  level : String
  format : LogFormat
  /-- The directory of the log files; without one, nothing is written to files. -/
  directory : Option DirectoryPath
  /-- Whether the log goes to standard output as well. -/
  stdout : Bool
  rotation : Rotation
  deriving DecidableEq

namespace LogSettings

def standard : LogSettings where
  level := "info"
  format := .json
  directory := none
  stdout := true
  rotation := .daily

/-- The text that spells the directory, if there is a directory and a text for it. -/
def logDir (s : LogSettings) : Option String := s.directory.bind (·.text?)

/-- The settings that a configuration asks for. A word that names nothing leaves the built-in
choice; a checked configuration has no such word. -/
def ofConfig (c : LoggingConfig) : LogSettings where
  level := c.level
  format := (LogFormat.ofWord? c.format).getD .json
  directory := c.logDir.map .ofText
  stdout := true
  rotation := (Rotation.ofWord? c.rotation).getD .daily

end LogSettings

/-- Why a logger cannot be installed. -/
inductive LoggerError where
  | unknownLevel (level : String)
  /-- The process has a logger already. -/
  | alreadyInstalled
  deriving DecidableEq, Repr

/-- The words for an error. -/
def LoggerError.message : LoggerError → String
  | unknownLevel level => "Invalid log level: " ++ level
  | alreadyInstalled => "Failed to install global tracing subscriber"

/-- Install a logger in a process that may have one already. The level is checked first. -/
def LogSettings.install (s : LogSettings) (installed : Bool) : Except LoggerError LogLevel :=
  match LogLevel.ofWord? s.level with
  | none => .error (.unknownLevel s.level)
  | some level => if installed then .error .alreadyInstalled else .ok level

end PairedTuning
