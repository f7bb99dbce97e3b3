import Mathlib
import PairedTuning.Proofs.Adam.Normalisation
import PairedTuning.Proofs.Schedule.Mean
import PairedTuning.Proofs.Update.Average
import PairedTuning.Proofs.Update.Sides

/-!
# Better results move further

A better result for the side that played with a flip never leaves the parameter less far in the
direction of that flip. Every rule multiplies the result with factors that are not negative: gains,
rates, sizes, the damping, the inverse of the denominator, the share of the report in the mass. What
follows is a mix with weights that are not negative and clamps, and these keep the order. The
denominator of Adam is fixed before the block is looked at.
-/

namespace PairedTuning

/-! ### Directions -/

/-- The second value is at least as far in the direction as the first. -/
def Flip.Toward (f : Flip) (x y : ℝ) : Prop :=
  match f with
  | plus => x ≤ y
  | minus => y ≤ x

/-- One update is nowhere above another, and carries the same second moment. -/
structure ParamUpdate.AtMost (u w : ParamUpdate ℝ) : Prop where
  theta : u.theta ≤ w.theta
  z : u.z ≤ w.z
  display : u.display ≤ w.display
  v : u.v = w.v

/-! ### Rules -/

namespace Parameter

variable {p : Parameter ℝ}

lemma clamp_le_clamp (hbounds : p.low ≤ p.high) {x y : ℝ} (h : x ≤ y) : p.clamp x ≤ p.clamp y :=
  Scalar.clamp_le_clamp hbounds h

lemma blend_le_blend (hbounds : p.low ≤ p.high) {beta z z' x x' : ℝ} (hbeta : beta ∈ Set.Icc 0 1)
    (hz : z ≤ z') (hx : x ≤ x') : p.blend z x beta ≤ p.blend z' x' beta := by
  have hbeta' : 0 ≤ 1 - beta := sub_nonneg.mpr hbeta.2
  have hbeta'' : 0 ≤ beta := hbeta.1
  refine clamp_le_clamp hbounds ?_
  rw [Scalar.one_real]
  gcongr

variable {nudge : Nudge ℝ} {s s' : ℝ}

lemma classicStep_atMost (hbounds : p.low ≤ p.high) {gain : ℝ} (hgain : 0 ≤ gain) (hs : s ≤ s') :
    (p.classicStep nudge.upright gain s).AtMost (p.classicStep nudge.upright gain s') := by
  have hmove : p.theta + gain * s * nudge.upright.flip.factor ≤
      p.theta + gain * s' * nudge.upright.flip.factor := by
    simp only [Nudge.upright, Flip.factor, Scalar.one_real]
    gcongr
  have htheta := clamp_le_clamp hbounds hmove
  exact ⟨htheta, le_rfl, htheta, rfl⟩

lemma sgdStep_atMost (hbounds : p.low ≤ p.high) {lr beta : ℝ} {mass : Mass ℝ} (hlr : 0 ≤ lr)
    (hc : 0 ≤ nudge.c) (hbeta : beta ∈ Set.Icc 0 1) (hmass : 0 ≤ mass.after) (n : Nat)
    (hs : s ≤ s') :
    (p.sgdStep nudge.upright n s lr beta mass).AtMost
      (p.sgdStep nudge.upright n s' lr beta mass) := by
  have hdelta : lr * nudge.upright.c * s * nudge.upright.flip.factor ≤
      lr * nudge.upright.c * s' * nudge.upright.flip.factor := by
    simp only [Nudge.upright, Flip.factor, Scalar.one_real]
    gcongr
  simp only [sgdStep, Scalar.zero_real, Scalar.one_real, Scalar.numeral_real, beq_iff_eq]
  generalize lr * nudge.upright.c * s * nudge.upright.flip.factor = delta at hdelta
  generalize lr * nudge.upright.c * s' * nudge.upright.flip.factor = delta' at hdelta
  have hz : p.z + delta ≤ p.z + delta' := by gcongr
  by_cases hzero : beta = 0
  · simp only [if_pos hzero]
    have htheta := clamp_le_clamp hbounds hz
    exact ⟨htheta, hz, htheta, rfl⟩
  · have hx : p.clamp ((mass.before * p.average beta + mass.weight * p.z +
        lr * delta * ((Scalar.ofNat n + 1) / 2)) / mass.after) ≤
        p.clamp ((mass.before * p.average beta + mass.weight * p.z +
          lr * delta' * ((Scalar.ofNat n + 1) / 2)) / mass.after) := by
      refine clamp_le_clamp hbounds ?_
      rw [Scalar.ofNat_real]
      gcongr
    simp only [if_neg hzero]
    exact ⟨blend_le_blend hbounds hbeta hz hx, hz, hx, rfl⟩

lemma adamStep_atMost (hbounds : p.low ≤ p.high) {rates : AdamRates ℝ} {mass : Mass ℝ}
    (hlr : 0 ≤ rates.lr) (hc : 0 ≤ nudge.c) (hbeta : rates.beta1 ∈ Set.Icc 0 1)
    (hmass : 0 ≤ mass.share) (n : Nat) (mu2 : ℝ) (steps : Nat) (hs : s ≤ s') :
    (p.adamStep nudge.upright n s rates mass mu2 steps).AtMost
      (p.adamStep nudge.upright n s' rates mass mu2 steps) := by
  obtain ⟨hdamping, -⟩ := Adam.damping_mem n rates.beta2
  -- The denominator comes from the state alone, so it is the same for both results.
  have hmove (denominator : ℝ) :
      (if 0 < denominator then rates.lr * s / denominator else 0) * Adam.damping n rates.beta2 *
          nudge.upright.c * nudge.upright.flip.factor ≤
        (if 0 < denominator then rates.lr * s' / denominator else 0) *
          Adam.damping n rates.beta2 * nudge.upright.c * nudge.upright.flip.factor := by
    simp only [Nudge.upright, Flip.factor, Scalar.one_real]
    split_ifs
    · gcongr
    · exact le_rfl
  have hz := add_le_add_right (hmove (Scalar.sqrt
    (Adam.moment p.v rates.beta2 n mu2 steps).2 + rates.eps)) p.z
  simp only [adamStep, Adam.secondMoment, Scalar.zero_real, Scalar.one_real, beq_iff_eq]
  by_cases hzero : rates.beta1 = 0
  · simp only [if_pos hzero]
    have htheta := clamp_le_clamp hbounds hz
    exact ⟨htheta, hz, htheta, rfl⟩
  · have hx := clamp_le_clamp hbounds (add_le_add_right (mul_le_mul_of_nonneg_left hz hmass)
      ((1 - mass.share) * p.average rates.beta1))
    simp only [if_neg hzero]
    exact ⟨blend_le_blend hbounds hbeta hz hx, hz, hx, rfl⟩

end Parameter

/-! ### States -/

lemma Mass.share_nonneg (before : ℝ) (n : Nat) {lr : ℝ} (hlr : 0 ≤ lr) :
    0 ≤ (advance before n lr).share := by
  have hweight : 0 ≤ lr * n := mul_nonneg hlr n.cast_nonneg
  simp only [advance, Scalar.ofNat_real, Scalar.zero_real, Scalar.one_real]
  split_ifs with hafter
  · exact div_nonneg hweight hafter.le
  · exact zero_le_one

lemma Schedule.a_eq_of_ofParameter? {optimizer : Optimizer ℝ} {p : Parameter ℝ} {s : Schedule ℝ}
    (h : ofParameter? optimizer p = some s) : s.a = p.a := by
  cases optimizer with
  | classic offset alpha gamma gain =>
    cases h
    rfl
  | scheduleFreeSgd lr beta => cases h
  | scheduleFreeAdam lr beta1 beta2 eps => cases h

/-- The weight of the average in the mix that a run exports. -/
def Optimizer.beta : Optimizer ℝ → ℝ
  | classic .. => 0
  | scheduleFreeSgd _ beta => beta
  | scheduleFreeAdam _ beta1 .. => beta1

namespace TuningState

/-- All that a result is multiplied or mixed with is not negative. -/
structure Ascending (t : TuningState ℝ) : Prop extends t.Sound where
  beta : t.optimizer.beta ∈ Set.Icc 0 1
  a : ∀ p ∈ t.params, 0 ≤ p.a

variable {t u : TuningState ℝ} {p : Parameter ℝ}

lemma Ascending.of_sameSetup (h : t.Ascending) (hsetup : SameSetup t u) (hu : u.Sound) :
    u.Ascending where
  toSound := hu
  beta := hsetup.optimizer ▸ h.beta
  a p hp := by
    obtain ⟨q, hq, hinit⟩ := hsetup.exists_mem hp
    have ha : q.a = p.a := congrArg (·.a) hinit
    exact ha ▸ h.a q hq

lemma Sound.foldBatches (h : t.Sound) (batches : List (Batch ℝ)) :
    (t.foldBatches batches).Sound := by
  induction batches generalizing t with
  | nil => exact h
  | cons b batches ih => exact ih (h.fold b.nudges b.issued b.pairs b.signed).1

namespace Ascending

variable (h : t.Ascending)

include h

lemma foldBatches (batches : List (Batch ℝ)) : (t.foldBatches batches).Ascending :=
  h.of_sameSetup (sameSetup_foldBatches t batches) (h.toSound.foldBatches batches)

lemma blockGain_nonneg (hp : p ∈ t.params) (gain : BlockGain) (issued n : Nat) (f : Flip) :
    0 ≤ t.blockGain gain p (p.nudge t.optimizer issued f) issued n := by
  have hk : (0 : ℝ) < issued + 1 := by positivity
  cases hs : Schedule.ofParameter? t.optimizer p with
  | none => cases gain <;> simp [blockGain, Parameter.nudge, hs]
  | some s =>
    have hproper := h.proper.schedule p hp s hs
    have ha : 0 ≤ s.a := (Schedule.a_eq_of_ofParameter? hs).symm ▸ h.a p hp
    cases gain with
    | blockStart =>
      simp only [blockGain, Parameter.nudge, hs, Option.getD_some, Scalar.ofNat_real,
        Scalar.one_real]
      rw [Schedule.gain_mul_size hproper hk]
      exact hproper.stepGain_nonneg ha hk.le
    | blockMean =>
      simp only [blockGain, hs, Scalar.ofNat_real, Scalar.one_real]
      exact hproper.meanStepGain_nonneg ha hk n

lemma updateOf_atMost (hp : p ∈ t.params) (issued : Nat) {n : Nat} (hn : n ≠ 0) (f : Flip)
    {s s' : ℝ} (hs : s ≤ s') :
    let nudge := (p.nudge t.optimizer issued f).upright
    (t.updateOf issued n s p nudge).AtMost (t.updateOf issued n s' p nudge) := by
  have htheta := (h.params p hp).theta
  have hbounds := htheta.1.trans htheta.2
  have hc := (Parameter.nudge_pos t.optimizer (h.size p hp) issued f).le
  have hadmitted := h.optimizer
  have hbeta := h.beta
  have hmass := h.proper.mass
  have hgain := fun gain => h.blockGain_nonneg hp gain issued n f
  unfold updateOf
  cases hoptimizer : t.optimizer with
  | classic offset alpha gamma gain =>
    dsimp only
    rw [blockGain_upright, ← hoptimizer]
    exact Parameter.classicStep_atMost hbounds (hgain gain) hs
  | scheduleFreeSgd lr beta =>
    rw [hoptimizer] at hc hadmitted hbeta
    have hafter := hmass (by rw [hoptimizer]; rfl) n hn
    rw [massAfter, hoptimizer] at hafter
    exact Parameter.sgdStep_atMost hbounds hadmitted.le hc hbeta hafter.le n hs
  | scheduleFreeAdam lr beta1 beta2 eps =>
    rw [hoptimizer] at hc hadmitted hbeta
    have hshare := Mass.share_nonneg t.mass n hadmitted.1.le
    exact Parameter.adamStep_atMost hbounds hadmitted.1.le hc hbeta hshare n _ _ hs

/-- A better result leaves a parameter at least as far in the direction in which it was moved. -/
lemma updateOf_toward (hp : p ∈ t.params) (issued : Nat) {n : Nat} (hn : n ≠ 0) (f : Flip)
    {s s' : ℝ} (hs : s ≤ s') :
    let nudge := p.nudge t.optimizer issued f
    let u := t.updateOf issued n s p nudge
    let u' := t.updateOf issued n s' p nudge
    f.Toward u.z u'.z ∧ f.Toward u.theta u'.theta ∧ f.Toward u.display u'.display ∧ u'.v = u.v := by
  dsimp only
  rw [updateOf_upright, t.updateOf_upright issued n s', Parameter.nudge_flip]
  cases f with
  | plus =>
    have hfactor : s * Flip.plus.factor ≤ s' * Flip.plus.factor := by simpa [Flip.factor] using hs
    have hatMost := h.updateOf_atMost hp issued hn .plus hfactor
    exact ⟨hatMost.z, hatMost.theta, hatMost.display, hatMost.v.symm⟩
  | minus =>
    -- Downwards the better result has the lesser product, so the two change places.
    have hfactor : s' * Flip.minus.factor ≤ s * Flip.minus.factor := by
      simpa [Flip.factor] using hs
    have hatMost := h.updateOf_atMost hp issued hn .minus hfactor
    exact ⟨hatMost.z, hatMost.theta, hatMost.display, hatMost.v⟩

end Ascending

end TuningState

/-! ### The start -/

@[simp] lemma HyperDefaults.beta_optimizer (defaults : HyperDefaults ℝ) (family : Family)
    (gain : BlockGain) (n : ℝ) : (defaults.optimizer family gain n).beta =
      if family.isScheduleFree then defaults.beta else 0 := by
  cases family <;> rfl

namespace Definition.Built

variable {read : String → Option ℝ} {defaults : HyperDefaults ℝ} {d : Definition ℝ}
  {state : TuningState ℝ}

lemma a_nonneg (h : Built read defaults d state) {p : Parameter ℝ} (hp : p ∈ state.params) :
    0 ≤ p.a := by
  obtain ⟨line, hvalid, hline⟩ := h.params p hp
  have hconstants := ParamLine.constants_of_toParameter hline
  have hadmitted := h.optimizer_admitted
  by_cases hfree : state.optimizer.family.isScheduleFree
  · obtain ⟨-, -, ha⟩ := ParamLine.constants_scheduleFree_eq_ok hfree hconstants
    exact (ha.trans Scalar.zero_real).ge
  · cases hoptimizer : state.optimizer with
    | classic offset alpha gamma gain =>
      rw [hoptimizer] at hconstants hadmitted
      obtain ⟨hrEnd, -, ha⟩ := ParamLine.constants_classic_eq_ok hconstants
      have hr : 0 < p.rEnd := by simpa using hvalid.rEnd p.rEnd hrEnd
      have hc : 0 < line.cEnd := by simpa using hvalid.cEnd
      have hplanned : 0 ≤ offset + (state.plannedPairs : ℝ) :=
        add_nonneg hadmitted (Nat.cast_nonneg _)
      rw [ha]
      exact mul_nonneg (mul_pos (mul_pos hr hc) hc).le (Real.rpow_nonneg hplanned alpha)
    | scheduleFreeSgd lr beta => exact absurd (by rw [hoptimizer]; rfl) hfree
    | scheduleFreeAdam lr beta1 beta2 eps => exact absurd (by rw [hoptimizer]; rfl) hfree

lemma ascending (h : Built read defaults d state) : state.Ascending where
  toSound := h.sound
  beta := by
    rw [h.optimizer, HyperDefaults.beta_optimizer]
    split_ifs with hfree
    · exact Set.Ico_subset_Icc_self (h.beta_mem hfree)
    · exact ⟨le_rfl, zero_le_one⟩
  a _ hp := h.a_nonneg hp

end Definition.Built

/-! ### Two results for one state -/

namespace TuningState

/-- A better result never moves a parameter less. A state that a run reaches by reports takes either
of two results for the same perturbation. With the better one, every parameter that has a flip ends
at least as far in its direction, in the fast iterate, in `theta` and in the value that is shown.
The second moments, the counter and the mass do not depend on the result. -/
theorem better_result_moves_no_less {read : String → Option ℝ} {defaults : HyperDefaults ℝ}
    {d : Definition ℝ} {state : TuningState ℝ} (hbuild : d.build read defaults = .ok state)
    (batches : List (Batch ℝ)) (issued : Nat) (flips : List Flip) {n : Nat} (hn : n ≠ 0) {s s' : ℝ}
    (hs : s ≤ s') :
    let t := state.foldBatches batches
    let nudges := t.contexts issued flips
    ∃ worse better, t.fold? nudges issued n s = some worse ∧
      t.fold? nudges issued n s' = some better ∧
      better.1.iter = worse.1.iter ∧ better.1.mass = worse.1.mass ∧
      ∀ i < t.params.length, ∃ p p', worse.1.params[i]? = some p ∧
        better.1.params[i]? = some p' ∧ p'.v = p.v ∧
        ∀ f, flips[i]? = some f → ∃ x x', worse.2[i]? = some x ∧ better.2[i]? = some x' ∧
          f.Toward p.z p'.z ∧ f.Toward p.theta p'.theta ∧ f.Toward x x' := by
  intro t nudges
  have hascending : t.Ascending :=
    (Definition.built_of_build hbuild).ascending.foldBatches batches
  refine ⟨_, _, hascending.fold?_eq nudges issued n s, hascending.fold?_eq nudges issued n s',
    by simp, ?_, fun i hi => ?_⟩
  · simp only [fold, if_neg hn, updates_eq]
  · have hp : t.params[i]? = some t.params[i] := List.getElem?_eq_getElem hi
    obtain ⟨hworse, hworse'⟩ := getElem?_fold t nudges issued hn s hp
    obtain ⟨hbetter, hbetter'⟩ := getElem?_fold t nudges issued hn s' hp
    rw [getElem?_contexts hp] at hworse hworse' hbetter hbetter'
    cases hflip : flips[i]? with
    | none =>
      -- A parameter without a flip stays as it is.
      rw [hflip] at hworse hbetter
      refine ⟨_, _, hworse, hbetter, rfl, ?_⟩
      rintro f ⟨⟩
    | some f =>
      rw [hflip] at hworse hworse' hbetter hbetter'
      obtain ⟨hz, htheta, hdisplay, hv⟩ :=
        hascending.updateOf_toward (List.getElem_mem hi) issued hn f hs
      refine ⟨_, _, hworse, hbetter, hv, ?_⟩
      rintro f' ⟨⟩
      exact ⟨_, _, hworse', hbetter', hz, htheta, hdisplay⟩

/-- The small run has taken a result for its parameter moved up, and takes a result of one or of
three for it moved down. -/
theorem better_result_moves_no_less_small :
    let optimizer := HyperDefaults.standard.optimizer .scheduleFreeAdam .blockMean (10 : ℝ)
    let t := (small optimizer).foldBatches [.small 1]
    let nudges := t.contexts 2 [.minus]
    (Definition.small .scheduleFreeAdam).build readNat .standard = .ok (small optimizer) ∧
      ∃ worse better p p', t.fold? nudges 2 2 1 = some worse ∧ t.fold? nudges 2 2 3 = some better ∧
        worse.1.params[0]? = some p ∧ better.1.params[0]? = some p' ∧
        p'.v = p.v ∧ p'.z ≤ p.z ∧ p'.theta ≤ p.theta := by
  intro optimizer t nudges
  have hbuild : (Definition.small .scheduleFreeAdam).build readNat .standard =
      .ok (small optimizer) := Definition.build_small rfl
  have hlength : 0 < t.params.length := by
    rw [(sameSetup_foldBatches (small optimizer) [.small 1]).length_eq]
    exact Nat.one_pos
  obtain ⟨worse, better, hworse, hbetter, -, -, hparams⟩ :=
    better_result_moves_no_less hbuild [.small 1] 2 [.minus] (n := 2) two_ne_zero
      (by norm_num : (1 : ℝ) ≤ 3)
  obtain ⟨p, p', hp, hp', hv, hflip⟩ := hparams 0 hlength
  obtain ⟨-, -, -, -, hz, htheta, -⟩ := hflip .minus rfl
  exact ⟨hbuild, worse, better, p, p', hworse, hbetter, hp, hp', hv, hz, htheta⟩

end TuningState

end PairedTuning
