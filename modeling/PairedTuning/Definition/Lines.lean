import PairedTuning.Definition.Error
import PairedTuning.Text.Blank
import PairedTuning.Text.Lines

/-!
# Lines of a definition

A definition lists one parameter per line as `name, start, min, max, c_end, r_end`, where the last
field may be absent. Blank lines are skipped, but counted. Reading stops at the first line that is
wrong, and in that line at the first check that fails.

The reader of numbers is a parameter: nothing here depends on how a number is written.
-/

namespace PairedTuning

/-- One line of a definition. -/
structure ParamLine (α : Type) where
  /-- The number of the line, counted from one. -/
  line : Nat
  name : String
  start : α
  low : α
  high : α
  cEnd : α
  rEnd : Option α

variable {α : Type} [Scalar α]

namespace ParamLine

/-- The finite number in a field. -/
def number (read : String → Option α) (line : Nat) (column : Column) (text : String) :
    Except (DefinitionError α) α :=
  match (read text).filter Scalar.isFinite with
  | some x => .ok x
  | none => .error (.notANumber line column text)

/-- The numbers of a line, before their ranges are checked. -/
def numbers (read : String → Option α) (line : Nat) (name start low high cEnd : String)
    (rEnd : Option String) : Except (DefinitionError α) (ParamLine α) := do
  let start ← number read line .start start
  let low ← number read line .low low
  let high ← number read line .high high
  let cEnd ← number read line .cEnd cEnd
  let rEnd ← match rEnd with
    | none => pure none
    | some text => some <$> number read line .rEnd text
  pure { line, name, start, low, high, cEnd, rEnd }

/-- Check the bounds, the start within them, and the signs of the end values, in this order. -/
def checked (p : ParamLine α) : Except (DefinitionError α) (ParamLine α) :=
  if p.high ≤ p.low then .error (.crossedBounds p.name p.low p.high)
  else if ¬ (p.low ≤ p.start ∧ p.start ≤ p.high) then
    .error (.startOutOfBounds p.name p.start p.low p.high)
  else if p.cEnd ≤ 0 then .error (.nonPositive p.name .cEnd p.cEnd)
  else match p.rEnd with
    | some r => if r ≤ 0 then .error (.nonPositive p.name .rEnd r) else .ok p
    | none => .ok p

/-- The fields of a line by column: the name, the four numbers, and the last one if it is there. -/
def columns (line : Nat) :
    List String → Except (DefinitionError α)
      (String × String × String × String × String × Option String)
  | [name, start, low, high, cEnd] => .ok (name, start, low, high, cEnd, none)
  | [name, start, low, high, cEnd, rEnd] => .ok (name, start, low, high, cEnd, some rEnd)
  | fields => .error (.fieldCount line fields.length)

/-- Check a name, after parameters of the given names. -/
def checkName (line : Nat) (earlier : List String) (name : String) :
    Except (DefinitionError α) Unit :=
  if name = "" then .error (.emptyName line)
  else if name ∈ earlier then .error (.duplicateName name)
  else .ok ()

/-- Read a line whose fields are already trimmed, after parameters of the given names. -/
def ofFields (read : String → Option α) (line : Nat) (earlier : List String)
    (fields : List String) : Except (DefinitionError α) (ParamLine α) := do
  let (name, start, low, high, cEnd, rEnd) ← columns line fields
  checkName line earlier name
  let p ← numbers read line name start low high cEnd rEnd
  p.checked

/-- Read the lines from number `line` on, after parameters of the given names. -/
def ofLines (read : String → Option α) :
    (line : Nat) → (earlier : List String) → List (List Char) →
      Except (DefinitionError α) (List (ParamLine α))
  | _, _, [] => pure []
  | line, earlier, text :: rest =>
    if Text.trim text = [] then ofLines read (line + 1) earlier rest
    else do
      let fields := (Text.fields ',' text).map fun field => String.ofList (Text.trim field)
      let p ← ofFields read line earlier fields
      let more ← ofLines read (line + 1) (p.name :: earlier) rest
      pure (p :: more)

/-- Read the text of a definition, which has to name a parameter. -/
def ofText (read : String → Option α) (text : String) :
    Except (DefinitionError α) (List (ParamLine α)) := do
  match ← ofLines read 1 [] (Text.lines text.toList) with
  | [] => throw .noParameters
  | params => pure params

end ParamLine

end PairedTuning
