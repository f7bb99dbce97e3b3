import PairedTuning.Perturbation

/-!
# History

Snapshots of the parameters for display. The period between two of them follows from the planned
number of games, so that their number stays bounded however long a run is planned.
-/

namespace PairedTuning

variable {α : Type} [Scalar α]

/-- The number of snapshots aimed at, for a number of parameters. -/
def targetSamples (params : Nat) : α :=
  if params < 100 then 100
  else if params < 1000 then 10000 / Scalar.ofNat params
  else 1

/-- The number of pairs between two snapshots. -/
def samplingPeriod (games params : Nat) : α :=
  Scalar.ofNat games / 2 / targetSamples params

/-- The snapshot of the shown values, each with the size of the parameter's last move. -/
def snapshot (nudges : List (Nudge α)) (display : List α) : List (Sample α) :=
  nudges.zipWith (fun nudge theta => ⟨theta, nudge.c⟩) display

namespace TuningState

/-- Whether the counter has passed the next sampling point. -/
def snapshotDue (state : TuningState α) (games : Nat) : Bool :=
  let period : α := samplingPeriod games state.params.length
  if period ≤ 0 then false
  else decide (Scalar.ofNat (state.history.length + 1) ≤ Scalar.ofNat state.iter / period)

/-- Append a snapshot of the shown values if one is due, and say whether it was. -/
def record (state : TuningState α) (games : Nat) (nudges : List (Nudge α)) (display : List α) :
    TuningState α × Bool :=
  if state.snapshotDue games then
    ({ state with history := state.history ++ [snapshot nudges display] }, true)
  else (state, false)

end TuningState

end PairedTuning
