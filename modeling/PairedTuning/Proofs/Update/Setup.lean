import Mathlib
import PairedTuning.History
import PairedTuning.Update.Report
import PairedTuning.Proofs.Scalar.Real

/-!
# What no report changes

A report moves the values `theta`, `z` and `v` of a parameter and nothing else of it. The optimizer,
the number of the parameters, their names, bounds, sizes and gains stay as a run starts with them.
They are the `Setup` of a run, and all that a perturbation needs besides its counter and its flips.
-/

namespace PairedTuning

variable {α : Type} [Scalar α]

/-! ### Parameters -/

/-- The parameter as a run starts with it. -/
def Parameter.initial (p : Parameter α) : Parameter α :=
  { p with theta := p.start, z := p.start, v := 0 }

namespace Parameter

@[simp] lemma initial_store (p : Parameter α) (u : ParamUpdate α) :
    (p.store u).initial = p.initial := rfl

@[simp] lemma nudge_initial (optimizer : Optimizer α) (p : Parameter α) (k : Nat) (f : Flip) :
    p.initial.nudge optimizer k f = p.nudge optimizer k f := by
  cases optimizer <;> rfl

@[simp] lemma ofParameter?_initial (optimizer : Optimizer α) (p : Parameter α) :
    Schedule.ofParameter? optimizer p.initial = Schedule.ofParameter? optimizer p := by
  cases optimizer <;> rfl

variable {p q : Parameter α}

lemma c_eq_of_initial (h : p.initial = q.initial) : p.c = q.c := congrArg (·.c) h

lemma low_eq_of_initial (h : p.initial = q.initial) : p.low = q.low := congrArg (·.low) h

lemma high_eq_of_initial (h : p.initial = q.initial) : p.high = q.high := congrArg (·.high) h

lemma clamp_eq_of_initial (h : p.initial = q.initial) (x : α) : p.clamp x = q.clamp x := by
  rw [clamp, clamp, low_eq_of_initial h, high_eq_of_initial h]

end Parameter

lemma map_initial_storeUpdates (ps : List (Parameter α)) (us : List (ParamUpdate α)) :
    (storeUpdates ps us).map Parameter.initial = ps.map Parameter.initial := by
  induction ps generalizing us with
  | nil => cases us <;> rfl
  | cons p ps ih =>
    cases us with
    | nil => rfl
    | cons u us =>
      rw [storeUpdates, List.map_cons, List.map_cons, ih us, Parameter.initial_store]

namespace TuningState

/-! ### States with the same setup -/

/-- The two states agree in all that no report changes. -/
structure SameSetup (s t : TuningState α) : Prop where
  optimizer : t.optimizer = s.optimizer
  plannedPairs : t.plannedPairs = s.plannedPairs
  params : t.params.map Parameter.initial = s.params.map Parameter.initial

namespace SameSetup

variable {s t u : TuningState α}

lemma refl (s : TuningState α) : SameSetup s s := ⟨rfl, rfl, rfl⟩

lemma trans (hst : SameSetup s t) (htu : SameSetup t u) : SameSetup s u :=
  ⟨htu.optimizer.trans hst.optimizer, htu.plannedPairs.trans hst.plannedPairs,
    htu.params.trans hst.params⟩

lemma length_eq (h : SameSetup s t) : t.params.length = s.params.length := by
  simpa using congrArg List.length h.params

lemma exists_param (h : SameSetup s t) {i : Nat} {p : Parameter α} (hp : s.params[i]? = some p) :
    ∃ q, t.params[i]? = some q ∧ q.initial = p.initial := by
  have hmap := congrArg (·[i]?) h.params
  simp only [List.getElem?_map, hp, Option.map_some] at hmap
  exact Option.map_eq_some_iff.mp hmap

lemma contexts_eq (h : SameSetup s t) (k : Nat) (flips : List Flip) :
    t.contexts k flips = s.contexts k flips := by
  have hinit (state : TuningState α) : state.contexts k flips =
      (state.params.map Parameter.initial).zipWith
        (fun p flip => p.nudge state.optimizer k flip) flips := by
    simp only [contexts, List.zipWith_map_left, Parameter.nudge_initial]
  rw [hinit t, hinit s, h.params, h.optimizer]

lemma exists_mem (h : SameSetup s t) {p : Parameter α} (hp : p ∈ t.params) :
    ∃ q ∈ s.params, q.initial = p.initial := by
  have hmem : p.initial ∈ s.params.map Parameter.initial := h.params ▸ List.mem_map_of_mem hp
  exact List.mem_map.mp hmem

/-- What relates the parameters to a list goes on doing so, if it does not look at their values. -/
lemma forall₂ (h : SameSetup s t) {β : Type} {R : β → Parameter α → Prop}
    (hR : ∀ b p, R b p.initial ↔ R b p) {bs : List β} (hs : List.Forall₂ R bs s.params) :
    List.Forall₂ R bs t.params := by
  have hinit (ps : List (Parameter α)) :
      List.Forall₂ R bs (ps.map Parameter.initial) ↔ List.Forall₂ R bs ps := by
    simp only [List.forall₂_map_right_iff, hR]
  rwa [← hinit, h.params, hinit]

/-- Bounds that hold a value go on holding one. -/
lemma hasRange (h : SameSetup s t) (hs : ∀ p ∈ s.params, p.hasRange) :
    ∀ p ∈ t.params, p.hasRange := by
  intro p hp
  obtain ⟨q, hq, hinit⟩ := h.exists_mem hp
  have hrange : p.initial.hasRange = q.initial.hasRange := congrArg _ hinit.symm
  exact hrange.trans (hs q hq)

end SameSetup

/-! ### Reports and snapshots -/

/-- Bounds that hold a value admit every report. -/
lemma canFold_of_hasRange {t : TuningState α} (h : ∀ p ∈ t.params, p.hasRange)
    (nudges : List (Nudge α)) (n : Nat) : t.canFold nudges n := by
  rw [canFold, Bool.or_eq_true, List.all_eq_true]
  exact .inr fun p hp => h p (List.mem_of_mem_take hp)

lemma fold_iter_of_ne_zero (state : TuningState α) (nudges : List (Nudge α)) (issued : Nat)
    {n : Nat} (hn : n ≠ 0) (s : α) :
    (state.fold nudges issued n s).1.iter = Scalar.count α (state.iter + n) := by
  simp [fold, hn]

/-- Without a bound the counter is exact. -/
@[simp] lemma fold_iter (state : TuningState ℝ) (nudges : List (Nudge ℝ)) (issued n : Nat) (s : ℝ) :
    (state.fold nudges issued n s).1.iter = state.iter + n := by
  by_cases hn : n = 0
  · simp [fold, hn]
  · rw [fold_iter_of_ne_zero state nudges issued hn s, Scalar.count_real]

lemma sameSetup_fold (state : TuningState α) (nudges : List (Nudge α)) (issued n : Nat) (s : α) :
    SameSetup state (state.fold nudges issued n s).1 := by
  by_cases hn : n = 0
  · simpa [fold, hn] using SameSetup.refl state
  · simp only [fold, hn, if_false]
    exact ⟨rfl, rfl, map_initial_storeUpdates _ _⟩

/-- A snapshot adds to the history and changes nothing else. -/
lemma record_eq (state : TuningState α) (games : Nat) (nudges : List (Nudge α))
    (display : List α) :
    (state.record games nudges display).1 =
      { state with history := (state.record games nudges display).1.history } := by
  by_cases hdue : state.snapshotDue games
  · simp [record, hdue]
  · simp [record, hdue]

/-- The state after a report and the snapshot that may follow it. -/
def apply (state : TuningState α) (games : Nat) (nudges : List (Nudge α)) (issued n : Nat)
    (s : α) : TuningState α :=
  ((state.fold nudges issued n s).1.record games nudges (state.fold nudges issued n s).2).1

lemma apply_iter_of_ne_zero (state : TuningState α) (games : Nat) (nudges : List (Nudge α))
    (issued : Nat) {n : Nat} (hn : n ≠ 0) (s : α) :
    (state.apply games nudges issued n s).iter = Scalar.count α (state.iter + n) := by
  rw [apply, record_eq]
  exact fold_iter_of_ne_zero state nudges issued hn s

@[simp] lemma apply_iter (state : TuningState ℝ) (games : Nat) (nudges : List (Nudge ℝ))
    (issued n : Nat) (s : ℝ) :
    (state.apply games nudges issued n s).iter = state.iter + n := by
  rw [apply, record_eq]
  exact fold_iter state nudges issued n s

lemma sameSetup_apply (state : TuningState α) (games : Nat) (nudges : List (Nudge α))
    (issued n : Nat) (s : α) : SameSetup state (state.apply games nudges issued n s) := by
  have hfold := sameSetup_fold state nudges issued n s
  rw [apply, record_eq]
  exact ⟨hfold.optimizer, hfold.plannedPairs, hfold.params⟩

end TuningState

end PairedTuning
