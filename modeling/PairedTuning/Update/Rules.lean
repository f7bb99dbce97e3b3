import PairedTuning.Perturbation
import PairedTuning.Update.Mass

/-!
# Update rules

A report carries only the number `n` of pairs and the sum `s` of their outcomes. Each rule folds
the block in one step whose result is that of `n` steps that each see the mean outcome `s / n`:

* the classic rule moves `theta` by step gain times `s`;
* schedule-free SGD moves the fast iterate by `lr · c · s`, and its average by the triangular sum
  over the iterates that a single step skips;
* schedule-free Adam carries the second moment along in closed form, and damps its step for the
  drift of the denominator inside the block.

What leaves a rule as `theta`, and every average that is recovered, is clamped to the bounds.
-/

namespace PairedTuning

/-- One parameter after a report. -/
structure ParamUpdate (α : Type) where
  theta : α
  z : α
  /-- The average of the fast iterates; without averaging, the iterate itself. -/
  x : α
  v : α
  /-- The value to show. -/
  display : α

/-- The hyper-parameters of Adam. -/
structure AdamRates (α : Type) where
  lr : α
  beta1 : α
  beta2 : α
  eps : α

variable {α : Type} [Scalar α]

namespace Parameter

/-- The average before a report. It is not stored: `theta` is a blend of it and `z`. -/
def average (p : Parameter α) (beta : α) : α :=
  p.clamp ((p.theta - (1 - beta) * p.z) / beta)

/-- The blend of the fast iterate and the average that is exported as `theta`. -/
def blend (p : Parameter α) (z x beta : α) : α :=
  p.clamp ((1 - beta) * z + beta * x)

/-- Take over the outcome of a rule. -/
def store (p : Parameter α) (u : ParamUpdate α) : Parameter α :=
  { p with theta := u.theta, z := u.z, v := u.v }

def classicStep (p : Parameter α) (nudge : Nudge α) (stepGain s : α) : ParamUpdate α :=
  let theta := p.clamp (p.theta + stepGain * s * nudge.flip.factor)
  { theta, z := p.z, x := theta, v := p.v, display := theta }

/-- Schedule-free SGD for a block of `n` pairs. -/
def sgdStep (p : Parameter α) (nudge : Nudge α) (n : Nat) (s lr beta : α) (mass : Mass α) :
    ParamUpdate α :=
  let delta := lr * nudge.c * s * nudge.flip.factor
  let z := p.z + delta
  if beta == 0 then
    let theta := p.clamp z
    { theta, z, x := z, v := p.v, display := theta }
  else
    let triangle := (Scalar.ofNat n + 1) / 2
    let x := p.clamp
      ((mass.before * p.average beta + mass.weight * p.z + lr * delta * triangle) / mass.after)
    { theta := p.blend z x beta, z, x, v := p.v, display := x }

end Parameter

namespace Adam

/-- A bias correction of at most this size counts as zero. -/
def correctionFloor : α := 1e-16

/-- If the root of `beta2` is this close to one, the damping is taken from its series. -/
def seriesThreshold : α := 1e-12

/-- The second moment after `n` steps that each see `mu2`, and the same corrected for its start at
zero, `steps` steps ago. Without decay the moment stays where it is. -/
def moment (v beta2 : α) (n : Nat) (mu2 : α) (steps : Nat) : α × α :=
  if beta2 < 1 then
    let decay := Scalar.pow beta2 (Scalar.ofNat n)
    let v := decay * v + (1 - decay) * mu2
    let correction := 1 - Scalar.pow beta2 (Scalar.ofNat steps)
    (v, if correctionFloor < correction then v / correction else v)
  else (v, v)

/-- The second moment after `n` steps, and the denominator of the step. -/
def secondMoment (v beta2 : α) (n : Nat) (mu2 : α) (steps : Nat) (eps : α) : α × α :=
  let (v, corrected) := moment v beta2 n mu2 steps
  (v, Scalar.sqrt corrected + eps)

/-- The factor by which the step of a block of `n` pairs shrinks, between `1e-12` and `1`. It is the
mean of the first `n` powers of the root of `beta2`. -/
def damping (n : Nat) (beta2 : α) : α :=
  if n ≤ 1 ∨ ¬ (0 < beta2 ∧ beta2 < 1) then 1
  else
    let n : α := Scalar.ofNat n
    let q := Scalar.sqrt beta2
    let k :=
      if seriesThreshold < Scalar.abs (1 - q) then
        (1 - Scalar.pow beta2 (0.5 * n)) / (n * (1 - q))
      else 1 - (n - 1) * 0.25 * (1 - beta2)
    Scalar.clamp 1e-12 1 k

end Adam

/-- Schedule-free Adam for a block of `n` pairs. -/
def Parameter.adamStep (p : Parameter α) (nudge : Nudge α) (n : Nat) (s : α) (rates : AdamRates α)
    (mass : Mass α) (mu2 : α) (steps : Nat) : ParamUpdate α :=
  let (v, denominator) := Adam.secondMoment p.v rates.beta2 n mu2 steps rates.eps
  let raw := if 0 < denominator then rates.lr * s / denominator else 0
  let step := raw * Adam.damping n rates.beta2
  let z := p.z + step * nudge.c * nudge.flip.factor
  if rates.beta1 == 0 then
    let theta := p.clamp z
    { theta, z, x := z, v, display := theta }
  else
    let x := p.clamp ((1 - mass.share) * p.average rates.beta1 + mass.share * z)
    { theta := p.blend z x rates.beta1, z, x, v, display := x }

end PairedTuning
