import PairedTuning.Scalar

/-!
# Optimizers

A run is tuned by one of three families: the classic decaying schedule, or one of the two
schedule-free rules. A family with its hyper-parameters is an `Optimizer`.
-/

namespace PairedTuning

/-- The three families of update rules. -/
inductive Family where
  | classic
  | scheduleFreeSgd
  | scheduleFreeAdam
  deriving DecidableEq, Repr

namespace Family

def all : List Family := [classic, scheduleFreeSgd, scheduleFreeAdam]

def name : Family → String
  | classic => "classic"
  | scheduleFreeSgd => "schedule_free_sgd"
  | scheduleFreeAdam => "schedule_free_adam"

def ofName? (s : String) : Option Family :=
  all.find? (·.name == s)

@[simp] theorem ofName?_name (f : Family) : ofName? f.name = some f := by cases f <;> rfl

/-- The names under which a user may ask for a family. -/
def aliases : Family → List String
  | classic => ["classic", "spsa"]
  | scheduleFreeSgd => ["schedule_free_sgd", "sf_sgd", "sgd"]
  | scheduleFreeAdam => ["schedule_free_adam", "sf_adam", "adam"]

/-- The family that a user asks for. Case does not matter, and a hyphen counts as an underscore.
The case map is that of ASCII, which is exact here: no other character has one of the letters of
these names as its lower case. -/
def ofAlias? (s : String) : Option Family :=
  let word := s.toLower.map fun c => if c = '-' then '_' else c
  all.find? (·.aliases.contains word)

/-- Whether the family needs no schedule. -/
def isScheduleFree : Family → Bool
  | classic => false
  | _ => true

end Family

/-- How a classic run weighs the pairs of one block. -/
inductive BlockGain where
  /-- Every pair counts with the gain at which the block was issued. -/
  | blockStart
  /-- Every pair counts with the mean gain over the block. -/
  | blockMean
  deriving DecidableEq, Repr

namespace BlockGain

def all : List BlockGain := [blockStart, blockMean]

def name : BlockGain → String
  | blockStart => "block_start"
  | blockMean => "block_mean"

def ofName? (s : String) : Option BlockGain :=
  all.find? (·.name == s)

@[simp] theorem ofName?_name (g : BlockGain) : ofName? g.name = some g := by cases g <;> rfl

end BlockGain

/-- A family with its hyper-parameters. -/
inductive Optimizer (α : Type) where
  | classic (offset alpha gamma : α) (gain : BlockGain)
  | scheduleFreeSgd (lr beta : α)
  | scheduleFreeAdam (lr beta1 beta2 eps : α)

def Optimizer.family {α : Type} : Optimizer α → Family
  | classic .. => .classic
  | scheduleFreeSgd .. => .scheduleFreeSgd
  | scheduleFreeAdam .. => .scheduleFreeAdam

end PairedTuning
