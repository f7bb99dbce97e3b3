import PairedTuning.Decimal.Writer
import PairedTuning.Definition.HyperParameters

/-!
# Errors in a definition

What can be wrong with the definition of a run, and the words for it.
-/

namespace PairedTuning

/-- The columns of a definition's lines. -/
inductive Column where
  | name
  | start
  | low
  | high
  | cEnd
  | rEnd
  deriving DecidableEq, Repr

def Column.heading : Column → String
  | name => "name"
  | start => "start"
  | low => "min"
  | high => "max"
  | cEnd => "c_end"
  | rEnd => "r_end"

/-- A value whose range is checked before a run is built. -/
inductive Setting where
  | hyper (p : HyperParameter)
  | priorDistribution
  | priorReports
  | priorPairs
  deriving DecidableEq, Repr

namespace Setting

def name : Setting → String
  | hyper p => p.name
  | priorDistribution => "mu2_prior.p5"
  | priorReports => "mu2_prior.reports"
  | priorPairs => "mu2_prior.mean_n"

def requirement : Setting → Requirement
  | hyper p => p.requirement
  | priorDistribution => .totalProbability
  | priorReports => .nonNegative
  | priorPairs => .nonNegative

end Setting

/-- What is wrong with a definition. Lines are counted from one. -/
inductive DefinitionError (α : Type) where
  /-- A line has neither five nor six fields. -/
  | fieldCount (line found : Nat)
  /-- A line of a classic run has no final gain. -/
  | missingFinalGain (line : Nat)
  | notANumber (line : Nat) (column : Column) (text : String)
  | emptyName (line : Nat)
  | duplicateName (name : String)
  | crossedBounds (name : String) (low high : α)
  | startOutOfBounds (name : String) (start low high : α)
  | nonPositive (name : String) (column : Column) (value : α)
  | noParameters
  /-- Fewer games than one pair are planned. -/
  | tooFewGames (games : Nat)
  | outOfRange (setting : Setting) (value : α)

def DefinitionError.message : DefinitionError Float → String
  | fieldCount line found =>
    s!"Line {line}: expected 5 or 6 comma-separated fields, got {found}"
  | missingFinalGain line =>
    s!"Line {line}: expected 6 (classic runs need r_end) comma-separated fields, got 5"
  | notANumber line column text =>
    s!"Line {line}: field '" ++ column.heading ++ "' is not a number: " ++ text
  | emptyName line => s!"Line {line}: parameter name is empty"
  | duplicateName name => "Parameter '" ++ name ++ "' is defined more than once"
  | crossedBounds name low high =>
    "Parameter '" ++ name ++ "': min (" ++ Decimal.write low ++ ") must be less than max (" ++
      Decimal.write high ++ ")"
  | startOutOfBounds name start low high =>
    "Parameter '" ++ name ++ "': start (" ++ Decimal.write start ++ ") is outside [" ++
      Decimal.write low ++ ", " ++ Decimal.write high ++ "]"
  | nonPositive name column value =>
    "Parameter '" ++ name ++ "': " ++ column.heading ++ " must be positive, got " ++
      Decimal.write value
  | noParameters => "Tuning definition has no parameters"
  | tooFewGames games => s!"Run must play at least one game pair, got num_games={games}"
  | outOfRange setting value =>
    "Invalid hyper-parameter " ++ setting.name ++ "=" ++ Decimal.write value ++ ": must " ++
      setting.requirement.rule

end PairedTuning
