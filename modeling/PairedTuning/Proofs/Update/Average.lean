import Mathlib
import PairedTuning.Proofs.Definition.Build
import PairedTuning.Proofs.Scalar.Real
import PairedTuning.Proofs.Update.Blocks

/-!
# What is kept of an average

A schedule-free run averages its fast iterates and shows the average, but does not store it. It
exports the mix of the fast iterate and the average as `theta`, clamped to the bounds, and recovers
the average from `theta` when the next report comes.

No bound restrains the fast iterate, so the mix may be out of bounds even though the average is not.
Then the clamp takes something away that the next report misses. `average_after_report` says how
much: the recovered average is the one that was shown exactly as long as the mix was within the
bounds, unless both are pinned to the same bound anyway.
-/

namespace PairedTuning

/-! ### Reports with chosen moves -/

/-- A report with the moves of the parameters, however they came about. -/
structure Batch (α : Type) where
  nudges : List (Nudge α)
  /-- The counter at which the perturbation was issued. -/
  issued : Nat
  pairs : Nat
  signed : α

namespace TuningState

section

variable {α : Type} [Scalar α]

def foldBatch (state : TuningState α) (b : Batch α) : TuningState α × List α :=
  state.fold b.nudges b.issued b.pairs b.signed

/-- Fold batches one after the other. -/
def foldBatches (state : TuningState α) (batches : List (Batch α)) : TuningState α :=
  batches.foldl (fun t b => (t.foldBatch b).1) state

@[simp] lemma foldBatches_nil (state : TuningState α) : state.foldBatches [] = state := rfl

@[simp] lemma foldBatches_cons (state : TuningState α) (b : Batch α) (batches : List (Batch α)) :
    state.foldBatches (b :: batches) = (state.foldBatch b).1.foldBatches batches := rfl

lemma sameSetup_foldBatches (state : TuningState α) (batches : List (Batch α)) :
    SameSetup state (state.foldBatches batches) := by
  induction batches generalizing state with
  | nil => exact .refl state
  | cons b batches ih =>
    rw [foldBatches_cons]
    exact (sameSetup_fold state b.nudges b.issued b.pairs b.signed).trans (ih _)

/-- A batch with a move for every parameter updates each by itself. -/
lemma getElem?_foldBatch (t : TuningState α) {b : Batch α} (hb : b.pairs ≠ 0)
    (hlength : b.nudges.length = t.params.length) {i : Nat} {p : Parameter α}
    (hp : t.params[i]? = some p) :
    ∃ nudge, (t.foldBatch b).1.params[i]? =
        some (p.store (t.updateOf b.issued b.pairs b.signed p nudge)) ∧
      (t.foldBatch b).2[i]? = some (t.updateOf b.issued b.pairs b.signed p nudge).display := by
  obtain ⟨hi, -⟩ := List.getElem?_eq_some_iff.mp hp
  have hnudge : b.nudges[i]? = some b.nudges[i] := List.getElem?_eq_getElem (hlength ▸ hi)
  have hfold := getElem?_fold t b.nudges b.issued hb b.signed hp
  rw [hnudge] at hfold
  exact ⟨b.nudges[i], hfold⟩

end

end TuningState

/-! ### One parameter -/

namespace Parameter

/-- The mix of the fast iterate and an average, before it is clamped to the bounds. -/
def mix (p : Parameter ℝ) (beta x : ℝ) : ℝ := (1 - beta) * p.z + beta * x

/-- The parameter exports the mix of its fast iterate and an average within its bounds. -/
structure Exports (beta x : ℝ) (p : Parameter ℝ) : Prop where
  theta : p.theta = p.clamp (p.mix beta x)
  bounds : x ∈ Set.Icc p.low p.high

variable {beta x : ℝ} {p : Parameter ℝ}

/-- The average that is recovered lacks what the clamp has taken from the mix. -/
lemma average_eq (hbeta : beta ≠ 0) :
    p.average beta = p.clamp (x - (p.mix beta x - p.theta) / beta) := by
  have hquot : (p.theta - (1 - beta) * p.z) / beta = x - (p.mix beta x - p.theta) / beta := by
    rw [mix]
    field_simp
    ring
  rw [average, Scalar.one_real, hquot]

namespace Exports

lemma average_eq_of_mem (h : p.Exports beta x) (hbeta : beta ≠ 0)
    (hmix : p.mix beta x ∈ Set.Icc p.low p.high) : p.average beta = x := by
  have htheta : p.theta = p.mix beta x := h.theta.trans (Scalar.clamp_of_mem hmix)
  rw [average_eq hbeta (x := x), htheta, sub_self, zero_div, sub_zero]
  exact Scalar.clamp_of_mem h.bounds

lemma average_eq_iff_of_gt (h : p.Exports beta x) (hbeta : 0 < beta)
    (hmix : p.high < p.mix beta x) :
    p.average beta = x ↔ x = p.low := by
  have hbounds := h.bounds.1.trans h.bounds.2
  have htheta : p.theta = p.high := h.theta.trans (Scalar.clamp_of_gt hbounds hmix)
  have hcut : 0 < (p.mix beta x - p.theta) / beta := by
    rw [htheta]
    exact div_pos (sub_pos.mpr hmix) hbeta
  rw [average_eq hbeta.ne' (x := x), clamp]
  rcases lt_or_ge (x - (p.mix beta x - p.theta) / beta) p.low with hlt | hge
  · rw [Scalar.clamp_of_lt hlt]
    exact eq_comm
  · rw [Scalar.clamp_of_mem ⟨hge, by linarith [h.bounds.2]⟩]
    constructor
    · intro heq
      linarith
    · intro heq
      linarith

lemma average_eq_iff_of_lt (h : p.Exports beta x) (hbeta : 0 < beta) (hmix : p.mix beta x < p.low) :
    p.average beta = x ↔ x = p.high := by
  have hbounds := h.bounds.1.trans h.bounds.2
  have htheta : p.theta = p.low := h.theta.trans (Scalar.clamp_of_lt hmix)
  have hcut : (p.mix beta x - p.theta) / beta < 0 := by
    rw [htheta]
    exact div_neg_of_neg_of_pos (sub_neg.mpr hmix) hbeta
  rw [average_eq hbeta.ne' (x := x), clamp]
  rcases lt_or_ge p.high (x - (p.mix beta x - p.theta) / beta) with hgt | hle
  · rw [Scalar.clamp_of_gt hbounds hgt]
    exact eq_comm
  · rw [Scalar.clamp_of_mem ⟨by linarith [h.bounds.1], hle⟩]
    constructor
    · intro heq
      linarith
    · intro heq
      linarith

/-- The average is recovered exactly if the mix was within the bounds, or beyond one bound with the
average at the other. -/
lemma average_eq_iff (h : p.Exports beta x) (hbeta : 0 < beta) :
    p.average beta = x ↔ p.mix beta x ∈ Set.Icc p.low p.high ∨
      (p.high < p.mix beta x ∧ x = p.low) ∨ (p.mix beta x < p.low ∧ x = p.high) := by
  have hbounds := h.bounds.1.trans h.bounds.2
  rcases lt_or_ge (p.mix beta x) p.low with hlt | hge
  · have hgt : ¬ p.high < p.mix beta x := not_lt.mpr (hlt.le.trans hbounds)
    have hmem : p.mix beta x ∉ Set.Icc p.low p.high := fun hmem => absurd hmem.1 (not_le.mpr hlt)
    simp [h.average_eq_iff_of_lt hbeta hlt, hlt, hgt, hmem]
  · rcases lt_or_ge p.high (p.mix beta x) with hgt | hle
    · have hmem : p.mix beta x ∉ Set.Icc p.low p.high := fun hmem => absurd hmem.2 (not_le.mpr hgt)
      simp [h.average_eq_iff_of_gt hbeta hgt, hgt, not_lt.mpr hge, hmem]
    · exact iff_of_true (h.average_eq_of_mem hbeta.ne' ⟨hge, hle⟩) (.inl ⟨hge, hle⟩)

end Exports

lemma sgdStep_exports (hbounds : p.low ≤ p.high) (hbeta : beta ≠ 0) (nudge : Nudge ℝ) (n : Nat)
    (s lr : ℝ) (mass : Mass ℝ) :
    let u := p.sgdStep nudge n s lr beta mass
    (p.store u).Exports beta u.display := by
  refine ⟨?_, ?_⟩
  · simp [sgdStep, hbeta, store, blend, mix, clamp]
  · simpa [sgdStep, hbeta, store, clamp] using Scalar.clamp_mem hbounds _

lemma adamStep_exports (hbounds : p.low ≤ p.high) (hbeta : beta ≠ 0) (nudge : Nudge ℝ) (n : Nat)
    (s lr beta2 eps : ℝ) (mass : Mass ℝ) (mu2 : ℝ) (steps : Nat) :
    let u := p.adamStep nudge n s ⟨lr, beta, beta2, eps⟩ mass mu2 steps
    (p.store u).Exports beta u.display := by
  refine ⟨?_, ?_⟩
  · simp [adamStep, hbeta, store, blend, mix, clamp]
  · simpa [adamStep, hbeta, store, clamp] using Scalar.clamp_mem hbounds _

end Parameter

namespace TuningState

variable {t : TuningState ℝ} {p : Parameter ℝ}

/-- A report of a schedule-free run with averaging leaves every parameter exporting the mix with the
average that is shown. -/
lemma updateOf_exports {defaults : HyperDefaults ℝ} {family : Family} {gain : BlockGain}
    {planned : ℝ} (hoptimizer : t.optimizer = defaults.optimizer family gain planned)
    (hfamily : family.isScheduleFree) (hbeta : defaults.beta ≠ 0) (hbounds : p.low ≤ p.high)
    (issued n : Nat) (s : ℝ) (nudge : Nudge ℝ) :
    let u := t.updateOf issued n s p nudge
    (p.store u).Exports defaults.beta u.display := by
  cases family with
  | classic => cases hfamily
  | scheduleFreeSgd =>
    simp only [updateOf, hoptimizer, HyperDefaults.optimizer]
    exact Parameter.sgdStep_exports hbounds hbeta ..
  | scheduleFreeAdam =>
    simp only [updateOf, hoptimizer, HyperDefaults.optimizer]
    exact Parameter.adamStep_exports hbounds hbeta ..

/-- In a schedule-free run with averaging, every parameter starts with its start value as the
average that is recovered. After every report, `theta` is the mix of the fast iterate with the
average that was shown, clamped to the bounds, and the average that the next report recovers lacks
what this clamp has taken from the mix. So it is the one that was shown exactly if the mix was
within the bounds, or beyond one bound with the average at the other. -/
theorem average_after_report {read : String → Option ℝ} {defaults : HyperDefaults ℝ}
    {d : Definition ℝ} {state : TuningState ℝ} (hbuild : d.build read defaults = .ok state)
    (hfamily : d.family.isScheduleFree) (hbeta : 0 < defaults.beta) :
    (∀ p ∈ state.params, p.average defaults.beta = p.start) ∧
    ∀ done b, (∀ b' ∈ done ++ [b], b'.pairs ≠ 0 ∧ b'.nudges.length = state.params.length) →
      ∀ i < state.params.length, ∃ p x,
        ((state.foldBatches done).foldBatch b).1.params[i]? = some p ∧
        ((state.foldBatches done).foldBatch b).2[i]? = some x ∧
        p.theta = p.clamp (p.mix defaults.beta x) ∧
        p.average defaults.beta =
          p.clamp (x - (p.mix defaults.beta x - p.theta) / defaults.beta) ∧
        (p.average defaults.beta = x ↔ p.mix defaults.beta x ∈ Set.Icc p.low p.high ∨
          (p.high < p.mix defaults.beta x ∧ x = p.low) ∨
          (p.mix defaults.beta x < p.low ∧ x = p.high)) := by
  have hbuilt := Definition.built_of_build hbuild
  constructor
  · intro p hp
    have hinit := hbuilt.initial_eq hp
    have hz : p.z = p.start := congrArg (·.z) hinit.symm
    have htheta : p.theta = p.start := congrArg (·.theta) hinit.symm
    have hmix : p.mix defaults.beta p.start = p.start := by
      rw [Parameter.mix, hz]
      ring
    have hmem := hbuilt.start_mem hp
    have hexports : p.Exports defaults.beta p.start := by
      refine ⟨?_, hmem⟩
      rw [htheta, hmix]
      exact (Scalar.clamp_of_mem hmem).symm
    exact hexports.average_eq_of_mem hbeta.ne' (hmix.symm ▸ hmem)
  · intro done b hbatches i hi
    obtain ⟨hpairs, hlength⟩ := hbatches b (by simp)
    have hsetup := sameSetup_foldBatches state done
    have hp₀ : state.params[i]? = some state.params[i] := List.getElem?_eq_getElem hi
    obtain ⟨p, hp, hinit⟩ := hsetup.exists_param hp₀
    obtain ⟨nudge, hp', hx⟩ :=
      getElem?_foldBatch (state.foldBatches done) hpairs (hlength.trans hsetup.length_eq.symm) hp
    have hbounds : p.low ≤ p.high := by
      have hmem := hbuilt.start_mem (List.mem_of_getElem? hp₀)
      rw [Parameter.low_eq_of_initial hinit, Parameter.high_eq_of_initial hinit]
      exact hmem.1.trans hmem.2
    have hexports := updateOf_exports (hsetup.optimizer.trans hbuilt.optimizer) hfamily hbeta.ne'
      hbounds b.issued b.pairs b.signed nudge
    exact ⟨_, _, hp', hx, hexports.theta, Parameter.average_eq hbeta.ne',
      hexports.average_eq_iff hbeta⟩

end TuningState

/-! ### A small run -/

/-- Two pairs of the small run, played with its parameter moved up. -/
def Batch.small (s : ℝ) : Batch ℝ := ⟨[⟨Parameter.small.c, .plus, none⟩], 0, 2, s⟩

namespace TuningState

lemma foldBatch_small {s x theta : ℝ} (hx : Parameter.small.clamp (5 + 3 / 2 * s) = x)
    (htheta : Parameter.small.clamp (1 / 10 * (5 + 2 * s) + 9 / 10 * x) = theta) :
    let state := small (HyperDefaults.standard.optimizer .scheduleFreeSgd .blockMean 10)
    let folded := state.foldBatch (.small s)
    folded.1.params[0]? = some { Parameter.small with theta, z := 5 + 2 * s } ∧
      folded.2[0]? = some x := by
  have hlr : (HyperDefaults.standard.lr : ℝ) = 1 := Scalar.one_real
  have hbeta : (HyperDefaults.standard.beta : ℝ) = 9 / 10 := by norm_num [HyperDefaults.standard]
  have hsum : (2 * Parameter.small.z + 2 * s * ((2 + 1) / 2)) / 2 = 5 + 3 / 2 * s := by
    simp only [Parameter.small]
    ring
  have hmix : (1 - 9 / 10) * (Parameter.small.z + 2 * s) + 9 / 10 * x =
      1 / 10 * (5 + 2 * s) + 9 / 10 * x := by
    simp only [Parameter.small]
    ring
  have hc : (Parameter.small.c : ℝ) = 2 := rfl
  have hstep : Parameter.small.sgdStep ⟨Parameter.small.c, .plus, none⟩ 2 s 1 (9 / 10)
      (Mass.advance 0 2 1) = { theta, z := 5 + 2 * s, x, v := 0, display := x } := by
    simp [Parameter.sgdStep, Parameter.blend, Mass.advance, Flip.factor, hc, hsum, hx, hmix]
    simpa [Parameter.small] using htheta
  simp [foldBatch, fold, updates, small, Batch.small, HyperDefaults.optimizer, storeUpdates,
    Parameter.store, hlr, hbeta, hstep]
  rfl

theorem average_after_report_small :
    let state := small (HyperDefaults.standard.optimizer .scheduleFreeSgd .blockMean 10)
    (Definition.small .scheduleFreeSgd).build readNat .standard = .ok state ∧
      Family.scheduleFreeSgd.isScheduleFree ∧ 0 < (HyperDefaults.standard.beta : ℝ) ∧
      (Batch.small 1).pairs ≠ 0 ∧ (Batch.small 1).nudges.length = state.params.length ∧
      ∃ p, (state.foldBatch (.small 1)).1.params[0]? = some p ∧
        (state.foldBatch (.small 1)).2[0]? = some (13 / 2) ∧
        p.average HyperDefaults.standard.beta = 13 / 2 := by
  have hbeta : (HyperDefaults.standard.beta : ℝ) = 9 / 10 := by norm_num [HyperDefaults.standard]
  have hbuild : (Definition.small .scheduleFreeSgd).build readNat .standard =
      .ok (small (HyperDefaults.standard.optimizer .scheduleFreeSgd .blockMean 10)) :=
    Definition.build_small rfl
  have hpos : 0 < (HyperDefaults.standard.beta : ℝ) := by norm_num [hbeta]
  have hx : Parameter.small.clamp (5 + 3 / 2 * 1) = 13 / 2 := by
    norm_num [Parameter.clamp, Scalar.clamp, Parameter.small]
  have htheta : Parameter.small.clamp (1 / 10 * (5 + 2 * 1) + 9 / 10 * (13 / 2)) = 131 / 20 := by
    norm_num [Parameter.clamp, Scalar.clamp, Parameter.small]
  obtain ⟨hp, hshown⟩ := foldBatch_small hx htheta
  obtain ⟨p, x, hp', hx', -, -, hiff⟩ := (average_after_report hbuild rfl hpos).2 [] (.small 1)
    (by simp [Batch.small, small]) 0 (by simp [small])
  rw [foldBatches_nil] at hp' hx'
  obtain rfl := Option.some_injective _ (hp.symm.trans hp')
  obtain rfl := Option.some_injective _ (hshown.symm.trans hx')
  refine ⟨hbuild, rfl, hpos, by decide, rfl, _, hp, hshown, hiff.mpr (.inl ?_)⟩
  rw [Parameter.mix, hbeta]
  norm_num [Parameter.small]

/-- The average is at the upper bound and shown there. The mix is beyond that bound, so the next
report starts from another average. -/
theorem average_lost_small :
    let state := small (HyperDefaults.standard.optimizer .scheduleFreeSgd .blockMean 10)
    (Definition.small .scheduleFreeSgd).build readNat .standard = .ok state ∧
      0 < (HyperDefaults.standard.beta : ℝ) ∧
      (Batch.small 4).pairs ≠ 0 ∧ (Batch.small 4).nudges.length = state.params.length ∧
      ∃ p, (state.foldBatch (.small 4)).1.params[0]? = some p ∧
        (state.foldBatch (.small 4)).2[0]? = some 10 ∧
        p.average HyperDefaults.standard.beta = 29 / 3 := by
  have hbeta : (HyperDefaults.standard.beta : ℝ) = 9 / 10 := by norm_num [HyperDefaults.standard]
  have hx : Parameter.small.clamp (5 + 3 / 2 * 4) = 10 := by
    norm_num [Parameter.clamp, Scalar.clamp, Parameter.small]
  have htheta : Parameter.small.clamp (1 / 10 * (5 + 2 * 4) + 9 / 10 * 10) = 10 := by
    norm_num [Parameter.clamp, Scalar.clamp, Parameter.small]
  obtain ⟨hp, hshown⟩ := foldBatch_small hx htheta
  refine ⟨Definition.build_small rfl, by norm_num [hbeta], by decide, rfl, _, hp, hshown, ?_⟩
  rw [hbeta, Parameter.average_eq (x := 10) (by norm_num)]
  norm_num [Parameter.mix, Parameter.clamp, Scalar.clamp, Parameter.small]

end TuningState

end PairedTuning
