import Mathlib
import PairedTuning.Proofs.Adam.SecondMoment
import PairedTuning.Proofs.Moments.Estimate

/-!
# The size of Adam's steps

The root in the denominator makes a step of Adam independent of the scale of the outcomes. Its
argument is an average of estimates and so lies in their range, once the correction for the start at
zero is above its floor. Below the floor nothing is corrected: the second moment is then next to
zero, without decay it is zero for ever, and `eps` alone bounds the step.
-/

namespace PairedTuning

lemma Adam.damping_mem (n : Nat) (beta2 : ℝ) : damping n beta2 ∈ Set.Icc 0 1 := by
  have hbounds : (1e-12 : ℝ) ≤ 1 := by norm_num
  unfold damping
  split
  · simp
  · have hmem := Scalar.clamp_mem hbounds
    rw [Scalar.one_real]
    exact ⟨le_trans (by norm_num) (hmem _).1, (hmem _).2⟩

/-- A move is no longer than it would be without a root, over a bound from below of the
denominator. -/
lemma Parameter.abs_adamMove_le {p : Parameter ℝ} {lr beta2 eps v bound : ℝ} (hlr : 0 ≤ lr)
    (hc : 0 ≤ p.c) (hbound : 0 < bound) (hdenominator : bound ≤ √v + eps) (b : Block ℝ) (i : Nat) :
    |p.adamMove lr beta2 eps b i v| ≤ lr * p.c * |b.signed| / bound := by
  have hpos : 0 < √v + eps := hbound.trans_le hdenominator
  obtain ⟨hdamping, hdamping'⟩ := Adam.damping_mem b.pairs beta2
  have hflip : |(b.draw i).factor| = (1 : ℝ) := by
    cases b.draw i <;> simp [Flip.factor]
  rw [adamMove, if_pos hpos, abs_mul, hflip, mul_one, abs_mul, abs_of_nonneg hc, abs_mul,
    abs_of_nonneg hdamping, abs_div, abs_of_pos hpos, abs_mul, abs_of_nonneg hlr]
  have hraw : lr * |b.signed| / (√v + eps) ≤ lr * |b.signed| / bound := by gcongr
  calc lr * |b.signed| / (√v + eps) * Adam.damping b.pairs beta2 * p.c
      ≤ lr * |b.signed| / bound * 1 * p.c := by gcongr
    _ = lr * p.c * |b.signed| / bound := by ring

namespace TuningState

lemma readings_mem {t : TuningState ℝ} (ht : t.moments.initial ∈ PairMoments.range)
    {blocks : List (Block ℝ)} (hpairs : ∀ b ∈ blocks, b.pairs ≠ 0) :
    ∀ r ∈ t.readings blocks, r.moment ∈ PairMoments.range := by
  induction blocks generalizing t with
  | nil => simp [readings]
  | cons b blocks ih =>
    obtain ⟨hb, hblocks⟩ := List.forall_mem_cons.mp hpairs
    have hnext : (t.foldBlock b).1.moments.initial ∈ PairMoments.range := by
      rwa [foldBlock_moments t hb, PairMoments.initial_add]
    rw [readings, List.forall_mem_cons]
    exact ⟨PairMoments.estimate_mem ht, ih hnext hblocks⟩

namespace AdamBlock

variable {defaults : HyperDefaults ℝ} {t : TuningState ℝ} {rs : List Reading} {b : Block ℝ}
  {i : Nat}
  {p p' : Parameter ℝ}

/-- Before it is corrected, the second moment lacks as much as the correction makes up for. -/
lemma v_mem (h : AdamBlock defaults t rs b i p p') (hbeta2 : defaults.beta2 ∈ Set.Ioc 0 1)
    (hrange : ∀ r ∈ rs, r.moment ∈ PairMoments.range) :
    let correction := 1 - defaults.beta2 ^ (t.foldBlock b).1.iter
    p'.v ∈ Set.Icc (correction * 1e-12) (correction * 4) := by
  have hsum := Reading.weightedSum_mem (Reading.length_weights _)
    (Reading.weights_nonneg hbeta2.1.le hbeta2.2 rs) hrange
  rw [Reading.sum_weights, ← h.iter] at hsum
  rwa [h.v, Reading.unitSteps_eq, mul_zero, zero_add]

lemma abs_move_le (h : AdamBlock defaults t rs b i p p') (hlr : 0 ≤ defaults.lr) (hc : 0 ≤ p.c)
    {bound : ℝ} (hbound : 0 < bound)
    (hdenominator : bound ≤ √(t.correctedMoment defaults.beta2 b p) + defaults.eps) :
    |p'.z - p.z| ≤ defaults.lr * p.c * |b.signed| / bound := by
  rw [h.z, add_sub_cancel_left]
  exact Parameter.abs_adamMove_le hlr hc hbound hdenominator b i

end AdamBlock

/-- In every run of Adam, as soon as the correction for the start at zero is above its floor, the
value under the root in the denominator of a step is in the range of second moments, and no step is
longer than a million times its length without a denominator. Up to the floor, and so always without
decay, the value is the second moment itself, which is next to zero: then a positive `eps` bounds
the step. -/
theorem adam_step_normalised {read : String → Option ℝ} {defaults : HyperDefaults ℝ}
    {d : Definition ℝ} {state : TuningState ℝ} (hbuild : d.build read defaults = .ok state)
    (hfamily : d.family = .scheduleFreeAdam) {done : List (Block ℝ)} {b : Block ℝ}
    (hpairs : ∀ b' ∈ done ++ [b], b'.pairs ≠ 0) {i : Nat} (hi : i < state.params.length) :
    let t := state.foldBlocks done
    let correction := 1 - defaults.beta2 ^ (t.foldBlock b).1.iter
    ∃ p p', t.params[i]? = some p ∧ (t.foldBlock b).1.params[i]? = some p' ∧
      let v := t.correctedMoment defaults.beta2 b p
      p'.z = p.z + p.adamMove defaults.lr defaults.beta2 defaults.eps b i v ∧
      (1e-16 < correction → v ∈ Set.Icc 1e-12 4 ∧
        |p'.z - p.z| ≤ 1e6 * (defaults.lr * p.c * |b.signed|)) ∧
      (correction ≤ 1e-16 → v = p'.v ∧ v ∈ Set.Icc 0 (4 * correction) ∧
        (0 < defaults.eps → |p'.z - p.z| ≤ defaults.lr * p.c * |b.signed| / defaults.eps)) := by
  intro t correction
  have hbuilt := Definition.built_of_build hbuild
  have hfree : d.family.isScheduleFree := by rw [hfamily]; rfl
  have hbeta2 := hbuilt.beta2_mem hfamily
  have hp₀ : state.params[i]? = some state.params[i] := List.getElem?_eq_getElem hi
  obtain ⟨p, p', hinit, hblock⟩ := exists_adamBlock hbuilt hfamily hpairs hp₀
  have hlr : 0 ≤ defaults.lr := (hbuilt.lr_pos hfree).le
  have heps : 0 ≤ defaults.eps := hbuilt.eps_nonneg hfamily
  have hc : 0 ≤ p.c := by
    rw [Parameter.c_eq_of_initial hinit]
    exact (hbuilt.c_pos hfree (List.getElem_mem hi)).le
  have hv : p'.v ∈ Set.Icc (correction * 1e-12) (correction * 4) :=
    hblock.v_mem hbeta2 (readings_mem hbuilt.initial_mem hpairs)
  have hcorrected := hblock.corrected
  rw [← hblock.iter] at hcorrected
  refine ⟨p, p', hblock.before, hblock.after, hblock.z, ?_, ?_⟩
  · intro hfloor
    have hpos : 0 < correction := lt_trans (by norm_num) hfloor
    have hmem : t.correctedMoment defaults.beta2 b p ∈ Set.Icc 1e-12 4 := by
      rw [hcorrected, if_pos hfloor]
      exact ⟨by rw [le_div_iff₀ hpos, mul_comm]; exact hv.1,
        by rw [div_le_iff₀ hpos, mul_comm]; exact hv.2⟩
    have hroot : 1e-6 ≤ √(t.correctedMoment defaults.beta2 b p) :=
      Real.le_sqrt_of_sq_le (le_trans (by norm_num) hmem.1)
    have hmove := hblock.abs_move_le hlr hc (by norm_num) (le_add_of_le_of_nonneg hroot heps)
    refine ⟨hmem, hmove.trans_eq ?_⟩
    rw [div_eq_mul_inv, mul_comm]
    norm_num
  · intro hfloor
    have hnonneg : 0 ≤ correction := sub_nonneg.mpr (pow_le_one₀ hbeta2.1.le hbeta2.2)
    rw [if_neg (not_lt.mpr hfloor)] at hcorrected
    refine ⟨hcorrected, ?_, fun hpos => ?_⟩
    · rw [hcorrected, mul_comm]
      exact ⟨le_trans (by positivity) hv.1, hv.2⟩
    · exact hblock.abs_move_le hlr hc hpos (le_add_of_nonneg_left (Real.sqrt_nonneg _))

theorem adam_step_normalised_small :
    let state := small (HyperDefaults.standard.optimizer .scheduleFreeAdam .blockMean 10)
    (Definition.small .scheduleFreeAdam).build readNat .standard = .ok state ∧
      Block.small.pairs ≠ 0 ∧ 0 < state.params.length ∧
      1e-16 < 1 - (HyperDefaults.standard.beta2 : ℝ) ^ (state.foldBlock .small).1.iter ∧
      ∃ p p', state.params[0]? = some p ∧ (state.foldBlock .small).1.params[0]? = some p' ∧
        state.correctedMoment HyperDefaults.standard.beta2 .small p ∈ Set.Icc 1e-12 4 ∧
        |p'.z - p.z| ≤ 1e6 * (HyperDefaults.standard.lr * p.c * |Block.small.signed|) := by
  intro state
  have hbuild : (Definition.small .scheduleFreeAdam).build readNat .standard = .ok state :=
    Definition.build_small rfl
  have hpairs : ∀ b ∈ [] ++ [Block.small], b.pairs ≠ 0 := by simp [Block.small]
  have hlength : 0 < state.params.length := by simp [state, small]
  have hiter : (state.foldBlock .small).1.iter = 2 := by
    rw [foldBlock_iter]
    rfl
  have hfloor : 1e-16 <
      1 - (HyperDefaults.standard.beta2 : ℝ) ^ (state.foldBlock .small).1.iter := by
    rw [hiter]
    norm_num [HyperDefaults.standard]
  obtain ⟨p, p', hp, hp', -, hmove, -⟩ := adam_step_normalised hbuild rfl hpairs hlength
  exact ⟨hbuild, by decide, hlength, hfloor, p, p', hp, hp', hmove hfloor⟩

/-- Without decay the second moment stays at zero, and `eps` alone is the denominator. -/
theorem adam_step_without_decay :
    let defaults : HyperDefaults ℝ := { HyperDefaults.standard with beta2 := 1 }
    let state := small (defaults.optimizer .scheduleFreeAdam .blockMean 10)
    (Definition.small .scheduleFreeAdam).build readNat defaults = .ok state ∧
      Block.small.pairs ≠ 0 ∧ state.params[0]? = some .small ∧
      state.correctedMoment defaults.beta2 .small .small = 0 ∧
      ∃ p, (state.foldBlock .small).1.params[0]? = some p ∧
        ¬ |p.z - Parameter.small.z| ≤
          1e6 * (defaults.lr * Parameter.small.c * |Block.small.signed|) := by
  intro defaults state
  have hcheck : defaults.check .scheduleFreeAdam = .ok () := by
    rw [HyperDefaults.check_eq_ok_iff]
    intro p _
    cases p <;> simp [defaults, HyperParameter.requirement, Requirement.admits, HyperDefaults.get,
      HyperDefaults.standard, PairMoments.leastEstimate, PairMoments.greatestEstimate] <;> norm_num
  have hbeta2 : defaults.beta2 = 1 := rfl
  have hlr : defaults.lr = 1 := Scalar.one_real
  have heps : defaults.eps = 1e-8 := rfl
  have hoptimizer : state.optimizer =
      .scheduleFreeAdam defaults.lr defaults.beta defaults.beta2 defaults.eps := rfl
  have hmoment : state.correctedMoment defaults.beta2 .small .small = 0 := by
    rw [correctedMoment, hbeta2, Adam.moment_of_le _ _ _ _ le_rfl]
    norm_num [Parameter.small, Reading.iterate_unitStep]
  have hdamping : Adam.damping 2 (1 : ℝ) = 1 := by
    simp [Adam.damping]
  have hmove : Parameter.small.adamMove 1 1 1e-8 .small 0 0 = 2e8 := by
    rw [Parameter.adamMove, show Block.small.pairs = 2 from rfl, hdamping]
    simp [Parameter.small, Block.small, Flip.factor]
    norm_num
  have hp := (getElem?_foldBlock state (b := .small) (by decide) (i := 0) (p := .small) rfl).1
  refine ⟨Definition.build_small_of_check rfl hcheck Scalar.one_real, by decide, rfl, hmoment, _,
    hp, ?_⟩
  have hz : (Parameter.small.store (state.updateAt .small 0 .small)).z =
      Parameter.small.z + 2e8 := by
    rw [Parameter.store, updateAt_z hoptimizer, hmoment, hbeta2, hlr, heps, hmove]
  rw [hz, add_sub_cancel_left, hlr]
  norm_num [Parameter.small, Block.small]

end TuningState

end PairedTuning
