import PairedTuning.Update.Rules

/-!
# Folding a report

`TuningState.fold` counts the pairs of a report, moves every parameter by the rule of the run's
family, and only then shows the block to the moment estimator: a block never scales its own step.
Nobody checks whether the counter has room for the pairs; past its bound it starts again from zero.
-/

namespace PairedTuning

variable {α : Type} [Scalar α]

/-- Store the updates in the parameters, one for one. A parameter without an update stays. -/
def storeUpdates : List (Parameter α) → List (ParamUpdate α) → List (Parameter α)
  | p :: ps, u :: us => p.store u :: storeUpdates ps us
  | ps, [] => ps
  | [], _ => []

namespace TuningState

/-- The step gain of a classic parameter over the `n` pairs of a block issued at `issued`. -/
def blockGain (state : TuningState α) (gain : BlockGain) (p : Parameter α) (nudge : Nudge α)
    (issued n : Nat) : α :=
  match gain with
  | .blockStart => nudge.gain.getD 0 * nudge.c
  | .blockMean =>
    match Schedule.ofParameter? state.optimizer p with
    | some s => s.meanStepGain (Scalar.ofNat issued + 1) n
    | none => 0

/-- The updates of all parameters by a block of `n` pairs, and the mass of the run after it. -/
def updates (state : TuningState α) (nudges : List (Nudge α)) (issued n : Nat) (s : α) :
    List (ParamUpdate α) × α :=
  match state.optimizer with
  | .classic _ _ _ gain =>
    (state.params.zipWith
      (fun p nudge => p.classicStep nudge (state.blockGain gain p nudge issued n) s) nudges,
      state.mass)
  | .scheduleFreeSgd lr beta =>
    let mass := Mass.advance state.mass n lr
    (state.params.zipWith (fun p nudge => p.sgdStep nudge n s lr beta mass) nudges, mass.after)
  | .scheduleFreeAdam lr beta1 beta2 eps =>
    let mass := Mass.advance state.mass n lr
    let mu2 := state.moments.estimate
    let steps := Scalar.count α (state.iter + n)
    (state.params.zipWith
      (fun p nudge => p.adamStep nudge n s ⟨lr, beta1, beta2, eps⟩ mass mu2 steps) nudges,
      mass.after)

/-- Fold a report of `n` pairs with sum `s`, for the perturbation that was issued at `issued` with
the given moves. Answers the new state and the value of each parameter to show. A report without
pairs changes nothing. -/
def fold (state : TuningState α) (nudges : List (Nudge α)) (issued n : Nat) (s : α) :
    TuningState α × List α :=
  if n = 0 then (state, state.params.map (·.theta))
  else
    let (updates, mass) := state.updates nudges issued n s
    ({ state with
        iter := Scalar.count α (state.iter + n)
        mass
        params := storeUpdates state.params updates
        moments := state.moments.add n s },
      updates.map (·.display))

/-- Whether a report touches only parameters whose bounds hold a value. -/
def canFold (state : TuningState α) (nudges : List (Nudge α)) (n : Nat) : Bool :=
  n == 0 || (state.params.take nudges.length).all (·.hasRange)

/-- Fold a report that touches only parameters whose bounds hold a value. -/
def fold? (state : TuningState α) (nudges : List (Nudge α)) (issued n : Nat) (s : α) :
    Option (TuningState α × List α) :=
  if state.canFold nudges n then some (state.fold nudges issued n s) else none

end TuningState

end PairedTuning
