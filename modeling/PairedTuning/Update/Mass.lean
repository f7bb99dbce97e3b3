import PairedTuning.Scalar

/-!
# Mass

A schedule-free run averages its iterates, each with the learning rate as its weight. A report of
`n` pairs adds `lr · n` to the total weight, the mass of the run.
-/

namespace PairedTuning

/-- The mass around one report. -/
structure Mass (α : Type) where
  before : α
  after : α
  /-- The weight of the report. -/
  weight : α
  /-- The part of the mass that the report makes up. -/
  share : α

/-- The mass around a report of `n` pairs. A run without mass gives its first report all of it. -/
def Mass.advance {α : Type} [Scalar α] (before : α) (n : Nat) (lr : α) : Mass α :=
  let weight := lr * Scalar.ofNat n
  let after := before + weight
  { before, after, weight, share := if 0 < after then weight / after else 1 }

end PairedTuning
