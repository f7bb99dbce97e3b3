import PairedTuning.Flip
import PairedTuning.Schedule

/-!
# Perturbations

A perturbation moves every parameter at once, each in a direction of its own: the first side of a
game pair (white) plays with `theta + c · flip`, the second (black) with `theta - c · flip`.

Sizes and gains are functions of the counter at which a perturbation is issued. Only the flips have
to be remembered until the report comes back, and `contexts` rebuilds the rest.
-/

namespace PairedTuning

/-- How one parameter was moved. -/
structure Nudge (α : Type) where
  /-- The size of the move. -/
  c : α
  flip : Flip
  /-- The gain sent along, in classic runs. -/
  gain : Option α

/-- One parameter as the first side plays it. -/
structure WhiteParam (α : Type) where
  name : String
  value : α
  c : α
  flip : Flip
  gain : Option α

/-- One parameter as the second side plays it. -/
structure BlackParam (α : Type) where
  name : String
  value : α

/-- A perturbation of all parameters, for both sides of a game pair. -/
structure Perturbation (α : Type) where
  white : List (WhiteParam α)
  black : List (BlackParam α)

/-- The flips of a perturbation, in the order of the parameters. -/
def Perturbation.flips {α : Type} (p : Perturbation α) : List Flip :=
  p.white.map (·.flip)

variable {α : Type} [Scalar α]

namespace Parameter

/-- The move of a parameter in a direction, issued at a counter. The counter is the number of
earlier pairs, so the schedule is read one further on. -/
def nudge (optimizer : Optimizer α) (p : Parameter α) (iteration : Nat) (flip : Flip) : Nudge α :=
  match Schedule.ofParameter? optimizer p with
  | some s =>
    let k := Scalar.ofNat iteration + 1
    ⟨s.size k, flip, some (s.gain k)⟩
  | none => ⟨p.c, flip, none⟩

/-- The value that the first side plays. -/
def white (p : Parameter α) (n : Nudge α) : WhiteParam α :=
  { name := p.name
    value := p.clamp (p.theta + n.c * n.flip.factor)
    c := n.c
    flip := n.flip
    gain := n.gain }

/-- The value that the second side plays. -/
def black (p : Parameter α) (n : Nudge α) : BlackParam α :=
  { name := p.name
    value := p.clamp (p.theta + n.c * n.flip.opposite.factor) }

end Parameter

namespace TuningState

/-- The perturbation issued at a counter, with `draw i` the flip of parameter `i`. -/
def perturb (state : TuningState α) (iteration : Nat) (draw : Nat → Flip) : Perturbation α :=
  let nudged := state.params.mapIdx fun i p => (p, p.nudge state.optimizer iteration (draw i))
  { white := nudged.map fun (p, n) => p.white n
    black := nudged.map fun (p, n) => p.black n }

/-- The moves of the perturbation issued at a counter with the given flips. Values are not rebuilt:
`theta` may have moved since. -/
def contexts (state : TuningState α) (iteration : Nat) (flips : List Flip) : List (Nudge α) :=
  state.params.zipWith (fun p flip => p.nudge state.optimizer iteration flip) flips

/-- Whether every parameter has bounds that hold a value. -/
def hasRanges (state : TuningState α) : Bool :=
  state.params.all (·.hasRange)

/-- The perturbation of a state whose bounds all make sense. -/
def perturb? (state : TuningState α) (iteration : Nat) (draw : Nat → Flip) :
    Option (Perturbation α) :=
  if state.hasRanges then some (state.perturb iteration draw) else none

end TuningState

end PairedTuning
