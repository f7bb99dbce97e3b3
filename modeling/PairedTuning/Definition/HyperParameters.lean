import PairedTuning.Moments
import PairedTuning.Optimizer

/-!
# Hyper-parameters

The hyper-parameters that new runs start with, each with the values it admits. A run depends only on
those of its own family.
-/

namespace PairedTuning

/-- What a value has to satisfy. -/
inductive Requirement where
  | positive
  | nonNegative
  /-- In `[0, 1)`. -/
  | properFraction
  /-- In `(0, 1]`. -/
  | positiveFraction
  /-- In the range of second moments. -/
  | secondMoment
  /-- The total of a probability distribution: one, up to rounding. -/
  | totalProbability
  deriving DecidableEq, Repr

namespace Requirement

/-- Whether a value satisfies the requirement. -/
def admits {α : Type} [Scalar α] : Requirement → α → Bool
  | positive, x => decide (0 < x)
  | nonNegative, x => decide (0 ≤ x)
  | properFraction, x => decide (0 ≤ x ∧ x < 1)
  | positiveFraction, x => decide (0 < x ∧ x ≤ 1)
  | secondMoment, x =>
    decide (PairMoments.leastEstimate ≤ x ∧ x ≤ PairMoments.greatestEstimate)
  | totalProbability, x => decide (Scalar.abs (x - 1) < 1e-9)

/-- The requirement in words that follow "must". -/
def rule : Requirement → String
  | positive => "be positive"
  | nonNegative => "be non-negative"
  | properFraction => "lie in [0, 1)"
  | positiveFraction => "lie in (0, 1]"
  | secondMoment => "lie in [1e-12, 4]"
  | totalProbability => "be a probability distribution"

end Requirement

/-- The values of all hyper-parameters. -/
structure HyperDefaults (α : Type) where
  lr : α
  beta : α
  beta2 : α
  eps : α
  /-- The second moment assumed before any report. -/
  initialMoment : α
  /-- The offset of the classic schedule, as a fraction of the planned pairs. -/
  offsetFraction : α
  alpha : α
  gamma : α

def HyperDefaults.standard {α : Type} [Scalar α] : HyperDefaults α where
  lr := 1
  beta := 0.9
  beta2 := 0.999
  eps := 1e-8
  initialMoment := 1
  offsetFraction := 0.1
  alpha := 0.602
  gamma := 0.101

/-- The hyper-parameters, in the order in which they are stored. -/
inductive HyperParameter where
  | lr
  | beta
  | beta2
  | eps
  | initialMoment
  | offsetFraction
  | alpha
  | gamma
  deriving DecidableEq, Repr

namespace HyperParameter

def all : List HyperParameter :=
  [lr, beta, beta2, eps, initialMoment, offsetFraction, alpha, gamma]

theorem mem_all (p : HyperParameter) : p ∈ all := by
  cases p <;> decide

def name : HyperParameter → String
  | lr => "sf_lr"
  | beta => "sf_beta"
  | beta2 => "adam_beta2"
  | eps => "adam_eps"
  | initialMoment => "mu2_init"
  | offsetFraction => "classic_a_fraction"
  | alpha => "classic_alpha"
  | gamma => "classic_gamma"

def ofName? (s : String) : Option HyperParameter :=
  all.find? (·.name == s)

/-- What a value has to satisfy for a run to be built with it. -/
def requirement : HyperParameter → Requirement
  | lr => .positive
  | beta => .properFraction
  | beta2 => .positiveFraction
  | eps => .nonNegative
  | initialMoment => .secondMoment
  | offsetFraction => .nonNegative
  | alpha => .nonNegative
  | gamma => .nonNegative

end HyperParameter

namespace HyperDefaults

variable {α : Type}

def get (d : HyperDefaults α) : HyperParameter → α
  | .lr => d.lr
  | .beta => d.beta
  | .beta2 => d.beta2
  | .eps => d.eps
  | .initialMoment => d.initialMoment
  | .offsetFraction => d.offsetFraction
  | .alpha => d.alpha
  | .gamma => d.gamma

def set (d : HyperDefaults α) (p : HyperParameter) (x : α) : HyperDefaults α :=
  match p with
  | .lr => { d with lr := x }
  | .beta => { d with beta := x }
  | .beta2 => { d with beta2 := x }
  | .eps => { d with eps := x }
  | .initialMoment => { d with initialMoment := x }
  | .offsetFraction => { d with offsetFraction := x }
  | .alpha => { d with alpha := x }
  | .gamma => { d with gamma := x }

@[simp] theorem get_set (d : HyperDefaults α) (p q : HyperParameter) (x : α) :
    (d.set p x).get q = if p = q then x else d.get q := by
  cases p <;> cases q <;> rfl

end HyperDefaults

/-- The hyper-parameters that a family depends on, in the order in which they are checked. -/
def Family.hyperParameters : Family → List HyperParameter
  | .classic => [.initialMoment, .offsetFraction, .alpha, .gamma]
  | .scheduleFreeSgd => [.initialMoment, .lr, .beta]
  | .scheduleFreeAdam => [.initialMoment, .lr, .beta, .beta2, .eps]

end PairedTuning
