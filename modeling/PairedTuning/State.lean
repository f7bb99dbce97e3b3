import PairedTuning.Moments
import PairedTuning.Optimizer

/-!
# Tuning state

What a run knows about its parameters: their bounds and current values, how many game pairs have
been counted, the moments of those pairs, and the snapshots taken on the way.
-/

namespace PairedTuning

/-- One tuned parameter. -/
structure Parameter (α : Type) where
  name : String
  start : α
  /-- The least value the parameter may take. -/
  low : α
  /-- The greatest value the parameter may take. -/
  high : α
  /-- The current value, always exported within the bounds. -/
  theta : α
  /-- The size of a perturbation: fixed in schedule-free runs, the numerator of a decaying one in
  classic runs. -/
  c : α
  /-- The size of a perturbation at the planned end of the run. -/
  cEnd : α
  /-- The gain at the planned end of the run. -/
  rEnd : α
  /-- The numerator of the decaying gain of a classic run. -/
  a : α
  /-- The fast iterate of a schedule-free run, which no bound restrains. -/
  z : α
  /-- The second moment that Adam carries along. -/
  v : α

namespace Parameter

variable {α : Type} [Scalar α]

/-- The value within the parameter's bounds that is nearest to `x`. -/
def clamp (p : Parameter α) (x : α) : α :=
  Scalar.clamp p.low p.high x

/-- Whether the bounds hold a value at all. Bounds that are crossed, or no numbers, do not. -/
def hasRange (p : Parameter α) : Bool :=
  decide (p.low ≤ p.high)

/-- The answer `x`, unless a clamp into the parameter's bounds makes no sense. -/
def guarded {β : Type} (p : Parameter α) (x : β) : Option β :=
  if p.hasRange then some x else none

end Parameter

/-- One parameter in a snapshot: the value shown and the size of its last perturbation. -/
structure Sample (α : Type) where
  theta : α
  c : α

/-- Everything that the update rules read and write. -/
structure TuningState (α : Type) where
  optimizer : Optimizer α
  /-- The number of game pairs counted so far. The counter starts again from zero at its bound. -/
  iter : Nat
  /-- The number of game pairs planned. -/
  plannedPairs : Nat
  /-- The total weight of the reports so far, in schedule-free runs. -/
  mass : α
  moments : PairMoments α
  params : List (Parameter α)
  /-- The snapshots, oldest first. -/
  history : List (List (Sample α))

end PairedTuning
