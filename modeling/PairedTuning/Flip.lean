import PairedTuning.Scalar

/-!
# Flips

A perturbation moves each parameter one way for the first side of a game pair and the opposite way
for the second. A `Flip` is the direction of the first side.
-/

namespace PairedTuning

/-- The direction in which a perturbation moves a parameter. -/
inductive Flip where
  | minus
  | plus
  deriving DecidableEq, Repr

namespace Flip

/-- The direction for the other side of the game pair. -/
def opposite : Flip → Flip
  | minus => plus
  | plus => minus

@[simp] theorem opposite_opposite (f : Flip) : f.opposite.opposite = f := by cases f <;> rfl

/-- The sign of a direction as an integer. -/
def sign : Flip → Int
  | minus => -1
  | plus => 1

/-- The direction with a given sign. -/
def ofSign? : Int → Option Flip
  | 1 => some plus
  | -1 => some minus
  | _ => none

@[simp] theorem ofSign?_sign (f : Flip) : ofSign? f.sign = some f := by cases f <;> rfl

/-- The sign of a direction as a factor. -/
def factor {α : Type} [Scalar α] : Flip → α
  | minus => -1
  | plus => 1

end Flip

end PairedTuning
