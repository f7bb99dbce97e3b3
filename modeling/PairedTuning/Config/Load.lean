import PairedTuning.Config.EnvText
import PairedTuning.Config.File
import PairedTuning.Config.Validation
import PairedTuning.Document.Overlay
import PairedTuning.Wire.Config

/-!
# Loading a configuration

A configuration is laid together from layers, each over the ones before it: the built-in settings,
the project file, the local file, and the environment. What comes out is read as a configuration and
checked. What the text of a variable stands for is up to a reader of values that is given.
-/

namespace PairedTuning

/-- Why a configuration could not be loaded. -/
inductive LoadError where
  /-- The layers do not make up a configuration. -/
  | unreadable
  /-- The text of a variable would split a character. -/
  | splitCharacter
  | invalid (error : ConfigError)

namespace Environment

/-- The prefix of the variables that belong to the configuration, in lower case. -/
def variableMark : List Char := "spsa_".toList

/-- The levels of a variable's name, which two underscores or a point separate. -/
def levels : List Char → List (List Char)
  | [] => [[]]
  | '_' :: '_' :: rest => [] :: levels rest
  | '.' :: rest => [] :: levels rest
  | c :: rest =>
    match levels rest with
    | [] => [[c]]
    | level :: more => (c :: level) :: more

/-- The path of the setting that a variable stands for. Case does not matter, nor do blanks at the
ends of the name and right after the mark. A name with an empty level stands for nothing. -/
def path? (name : String) : Option (List String) :=
  let cs := (Text.trim name.toList).map Char.toLower
  if variableMark.isPrefixOf cs then
    let path := levels (Text.trim (cs.drop variableMark.length))
    if path.contains [] then none else some (path.map String.ofList)
  else none

/-- The document with a value at the end of a path. -/
def nest (path : List String) (d : Document) : Document :=
  path.foldr (fun key d => .obj [(key, d)]) d

/-- The layer that a list of variables makes up. A text without a value ends it. -/
def layer (read : String → Option Document) (environment : List (String × String)) :
    Except LoadError Document :=
  environment.foldlM (fun d (name, text) =>
    match path? name with
    | none => pure d
    | some path =>
      match read text with
      | some value => pure (d.overlay (nest path value))
      | none => throw .splitCharacter) (.obj [])

end Environment

namespace Config

/-- Lay a file over a layer. A missing file changes nothing. -/
def withFile (layer : Document) : ConfigFile → Except LoadError Document
  | .missing => .ok layer
  | .unreadable => .error .unreadable
  | .holding fields => .ok (layer.overlay (.obj fields))

/-- Read what the layers make up, and check it. -/
def ofLayers (layers : Document) : Except LoadError Config :=
  match ofDocument? true layers with
  | none => .error .unreadable
  | some c =>
    match c.check with
    | .error e => .error (.invalid e)
    | .ok () => .ok c

/-- Load a configuration from one file. -/
def loadFile (file : ConfigFile) : Except LoadError Config := do
  ofLayers (← withFile standard.toDocument file)

/-- Load a configuration from the project file, the local file and the environment. What is wrong
with the environment is told first. -/
def loadWith (read : String → Option Document) (file localFile : ConfigFile)
    (environment : List (String × String)) : Except LoadError Config := do
  let top ← Environment.layer read environment
  let layers ← withFile standard.toDocument file
  let layers ← withFile layers localFile
  ofLayers (layers.overlay top)

/-- Load a configuration, with the values of the variables written as structured texts. -/
def load (file localFile : ConfigFile) (environment : List (String × String)) :
    Except LoadError Config :=
  loadWith EnvText.read? file localFile environment

end Config

end PairedTuning
