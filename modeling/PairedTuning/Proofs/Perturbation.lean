import Mathlib
import PairedTuning.Proofs.Flip.Packing
import PairedTuning.Proofs.Update.Setup

/-!
# Perturbations can be rebuilt

A worker is sent how every parameter was moved; the run keeps the counter and the packed flips.
These give the moves back, whatever reports were folded in between.
-/

namespace PairedTuning

variable {α : Type}

/-- How a parameter was moved, as the first side is told. -/
def WhiteParam.nudge (w : WhiteParam α) : Nudge α := ⟨w.c, w.flip, w.gain⟩

/-- How the parameters were moved, in their order, as the first side is told. -/
def Perturbation.nudges (p : Perturbation α) : List (Nudge α) := p.white.map (·.nudge)

variable [Scalar α]

@[simp] lemma Parameter.nudge_white (p : Parameter α) (n : Nudge α) : (p.white n).nudge = n := rfl

@[simp] lemma Parameter.nudge_flip (optimizer : Optimizer α) (p : Parameter α) (k : Nat)
    (f : Flip) : (p.nudge optimizer k f).flip = f := by
  cases optimizer <;> rfl

namespace TuningState

lemma white_perturb (state : TuningState α) (k : Nat) (draw : Nat → Flip) :
    (state.perturb k draw).white =
      state.params.mapIdx fun i p => p.white (p.nudge state.optimizer k (draw i)) := by
  apply List.ext_getElem?
  intro i
  simp [perturb, Function.comp_def]

/-- The moves of the parameters in the directions that are drawn for them. -/
lemma nudges_perturb (state : TuningState α) (k : Nat) (draw : Nat → Flip) :
    (state.perturb k draw).nudges =
      state.params.mapIdx fun i p => p.nudge state.optimizer k (draw i) := by
  apply List.ext_getElem?
  intro i
  simp [Perturbation.nudges, white_perturb, Function.comp_def]

lemma flips_perturb (state : TuningState α) (k : Nat) (draw : Nat → Flip) :
    (state.perturb k draw).flips = state.params.mapIdx fun i _ => draw i := by
  apply List.ext_getElem?
  intro i
  simp [Perturbation.flips, white_perturb, Parameter.white, Function.comp_def]

/-- A parameter is moved in the direction at its index, if there is one. -/
lemma getElem?_contexts {state : TuningState α} {i : Nat} {p : Parameter α}
    (hp : state.params[i]? = some p) (k : Nat) (flips : List Flip) :
    (state.contexts k flips)[i]? = flips[i]?.map (p.nudge state.optimizer k) := by
  rw [contexts, List.getElem?_zipWith, hp]
  cases flips[i]? <;> rfl

lemma contexts_mapIdx (state : TuningState α) (k : Nat) (draw : Nat → Flip) :
    state.contexts k (state.params.mapIdx fun i _ => draw i) =
      state.params.mapIdx fun i p => p.nudge state.optimizer k (draw i) := by
  apply List.ext_getElem
  · simp [contexts]
  · intro i _ _
    simp [contexts]

/-- The counter and the packed flips of a perturbation give back every move that was sent. -/
lemma contexts_unpack_pack (state : TuningState α) (k : Nat) (draw : Nat → Flip) :
    state.contexts k (Flip.unpack (Flip.pack (state.perturb k draw).flips) state.params.length) =
      (state.perturb k draw).nudges := by
  have hlength : state.params.length = (state.perturb k draw).flips.length := by
    simp [flips_perturb]
  rw [hlength, Flip.unpack_pack, flips_perturb, contexts_mapIdx, nudges_perturb]

end TuningState

end PairedTuning
