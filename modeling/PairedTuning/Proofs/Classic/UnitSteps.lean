import Mathlib
import PairedTuning.Proofs.Schedule.Mean
import PairedTuning.Proofs.Update.Reordering

/-!
# Classic blocks as unit steps

With the mean gain, a block of a classic run moves a parameter as far as its pairs would one by one,
each at its own step gain and with the mean outcome of the block: the block may be replaced by that
many reports of one pair. The gain at which a block was issued, in contrast, is its mean gain only
if the block is a single pair, and there the two modes agree.
-/

namespace PairedTuning

/-- The pairs of a block as reports of their own, each with the mean outcome. -/
noncomputable def Block.units (b : Block ℝ) : List (Block ℝ) :=
  (List.range b.pairs).map fun j => ⟨b.issued + j, b.draw, 1, b.signed / b.pairs⟩

namespace TuningState

variable {t : TuningState ℝ} {offset alpha gamma : ℝ} {b : Block ℝ}

/-! ### Moves -/

/-- With the mean gain, a block moves a parameter as far as its pairs do. -/
lemma moveAt_blockMean (hoptimizer : t.optimizer = .classic offset alpha gamma .blockMean)
    {p : Parameter ℝ} {s : Schedule ℝ} (hs : Schedule.ofParameter? t.optimizer p = some s)
    (hpairs : b.pairs ≠ 0) (hshort : b.pairs ≤ Schedule.exactPairs + 1) (i : Nat) :
    t.moveAt b i p = ∑ j ∈ Finset.range b.pairs,
      s.stepGain (b.issued + 1 + j) * (b.signed / b.pairs) * (b.draw i).factor := by
  have hgain : t.blockGain .blockMean p (p.nudge t.optimizer b.issued (b.draw i)) b.issued
      b.pairs = s.meanStepGain (b.issued + 1) b.pairs := by
    simp [blockGain, hs]
  have hmove : t.moveAt b i p = t.blockGain .blockMean p
      (p.nudge t.optimizer b.issued (b.draw i)) b.issued b.pairs * b.signed *
        (b.draw i).factor := by
    simp only [moveAt, hoptimizer]
  rw [hmove, hgain, Schedule.meanStepGain_of_le hpairs hshort, Schedule.totalGain,
    ← Finset.sum_mul, ← Finset.sum_mul]
  ring

/-- The pairs of a block, as reports of their own, move a parameter as far as the block. -/
lemma sum_moveAt_units (hoptimizer : t.optimizer = .classic offset alpha gamma .blockMean)
    (hpairs : b.pairs ≠ 0) (hshort : b.pairs ≤ Schedule.exactPairs + 1) (i : Nat)
    (p : Parameter ℝ) : (b.units.map fun u => t.moveAt u i p).sum = t.moveAt b i p := by
  have hs : Schedule.ofParameter? t.optimizer p = some ⟨p.a, p.c, offset, alpha, gamma⟩ := by
    rw [hoptimizer]
    rfl
  rw [moveAt_blockMean hoptimizer hs hpairs hshort, Block.units, List.map_map, ← Scalar.sum_real,
    Scalar.sum_range_real]
  refine Finset.sum_congr rfl fun j _ => ?_
  rw [Function.comp_apply, moveAt_blockMean hoptimizer hs one_ne_zero (by simp)]
  simp only [Finset.sum_range_one, Nat.cast_add, Nat.cast_one, Nat.cast_zero, add_zero, div_one]
  rw [add_right_comm]

end TuningState

lemma Parameter.shiftTheta_shiftTheta (p : Parameter ℝ) (x y : ℝ) :
    (p.shiftTheta x).shiftTheta y = p.shiftTheta (x + y) := by
  simp only [shiftTheta, add_assoc]

namespace TuningState

variable {t : TuningState ℝ} {offset alpha gamma : ℝ} {b : Block ℝ}

/-- Blocks that shift a parameter shift it by the sum of their moves. -/
lemma params_foldl_shiftTheta (t : TuningState ℝ) (blocks : List (Block ℝ)) :
    (blocks.foldl (shiftBy Parameter.shiftTheta) t).params =
      t.params.mapIdx fun i p => p.shiftTheta (blocks.map fun b => t.moveAt b i p).sum := by
  induction blocks generalizing t with
  | nil =>
    apply List.ext_getElem?
    simp [Parameter.shiftTheta]
  | cons b blocks ih =>
    have hparams : (t.shiftBy Parameter.shiftTheta b).params =
        t.params.mapIdx fun i p => p.shiftTheta (t.moveAt b i p) := rfl
    have hmove (c : Block ℝ) (i : Nat) (p : Parameter ℝ) (x : ℝ) :
        (t.shiftBy Parameter.shiftTheta b).moveAt c i (p.shiftTheta x) = t.moveAt c i p :=
      moveAt_congr (u := t.shiftBy _ b) (t := t) (q := p.shiftTheta x) (p := p) rfl rfl c i
    simp only [List.foldl_cons, ih, hparams, List.mapIdx_mapIdx, Function.comp_def, hmove,
      Parameter.shiftTheta_shiftTheta, List.map_cons, List.sum_cons]

/-- The pairs of a block, as reports of their own, leave the parameters that the block leaves, as
long as no clamp changes a value. -/
lemma params_foldBlocks_units
    (hoptimizer : t.optimizer = .classic offset alpha gamma .blockMean) (hpairs : b.pairs ≠ 0)
    (hshort : b.pairs ≤ Schedule.exactPairs + 1) (hblock : t.Unclamped [b])
    (hunits : t.Unclamped b.units) :
    (t.foldBlocks b.units).params = (t.foldBlock b).1.params := by
  have hfamily : t.optimizer.family = .classic := by rw [hoptimizer]; rfl
  have hone : ∀ u ∈ b.units, u.pairs ≠ 0 := by simp [Block.units]
  rw [foldBlocks_of_unclamped hfamily hone hunits, params_foldl_shiftTheta,
    foldBlock_of_unclamped hfamily hpairs hblock.1]
  simp only [sum_moveAt_units hoptimizer hpairs hshort, shiftBy]

/-! ### Gains of a block -/

/-- The state with another way to weigh the pairs of a block. -/
def withGain (t : TuningState ℝ) (gain : BlockGain) : TuningState ℝ :=
  match t.optimizer with
  | .classic offset alpha gamma _ => { t with optimizer := .classic offset alpha gamma gain }
  | _ => t

/-- A block of one pair is folded alike, whichever way its pairs are weighed. -/
lemma foldBlock_withGain (ht : t.Sound) (hfamily : t.optimizer.family = .classic)
    (hone : b.pairs = 1) :
    ((t.withGain .blockStart).foldBlock b).1.params =
        ((t.withGain .blockMean).foldBlock b).1.params ∧
      ((t.withGain .blockStart).foldBlock b).2 = ((t.withGain .blockMean).foldBlock b).2 := by
  have hpairs : b.pairs ≠ 0 := by omega
  cases hoptimizer : t.optimizer with
  | classic offset alpha gamma gain =>
    have hupdate (i : Nat) (hi : i < t.params.length) :
        (t.withGain .blockStart).updateAt b i t.params[i] =
          (t.withGain .blockMean).updateAt b i t.params[i] := by
      have hp := List.getElem_mem hi
      set p := t.params[i]
      have hproper : (⟨p.a, p.c, offset, alpha, gamma⟩ : Schedule ℝ).Proper :=
        ht.proper.schedule p hp _ (by rw [hoptimizer]; rfl)
      have hk : (0 : ℝ) < b.issued + 1 := by positivity
      simp only [updateAt, updateOf, withGain, hoptimizer, Parameter.nudge, Schedule.ofParameter?,
        blockGain, hone, Option.getD_some, Scalar.ofNat_real, Scalar.one_real]
      rw [Schedule.gain_mul_size hproper hk, Schedule.meanStepGain_of_le one_ne_zero (by simp)]
      simp [Schedule.totalGain]
    have hparams (gain : BlockGain) : (t.withGain gain).params = t.params := by
      simp only [withGain, hoptimizer]
    simp only [foldBlock_of_pairs _ hpairs, hparams, List.mapIdx_eq_mapIdx_iff]
    exact ⟨fun i hi => by rw [hupdate i hi], fun i hi => by rw [hupdate i hi]⟩
  | scheduleFreeSgd lr beta => simp [hoptimizer, Optimizer.family] at hfamily
  | scheduleFreeAdam lr beta1 beta2 eps => simp [hoptimizer, Optimizer.family] at hfamily

/-! ### Runs -/

/-- In every state that a classic run reaches, a block whose pairs are weighed by the mean gain
moves each parameter by the sum of what its pairs move it, up to the clamp at the end: each pair at
its own step gain, with the mean outcome. This holds up to the first block with an integral, of 4097
pairs. A block of one pair is folded alike with the gain at which it was issued. -/
theorem classic_eq_unit_steps {read : String → Option ℝ} {defaults : HyperDefaults ℝ}
    {d : Definition ℝ} {state : TuningState ℝ} (hbuild : d.build read defaults = .ok state)
    (hfamily : d.family = .classic) (blocks : List (Block ℝ)) (b : Block ℝ) :
    let t := state.foldBlocks blocks
    (d.gain = .blockMean → b.pairs ∈ Set.Icc 1 4097 →
      (∀ (i : Nat) (p : Parameter ℝ), t.params[i]? = some p → ∃ s q,
        Schedule.ofParameter? t.optimizer p = some s ∧ (t.foldBlock b).1.params[i]? = some q ∧
        let move := ∑ j ∈ Finset.range b.pairs,
          s.stepGain (b.issued + 1 + j) * (b.signed / b.pairs) * (b.draw i).factor
        q.theta = p.clamp (p.theta + move) ∧
          (p.clamp (p.theta + move) = p.theta + move → q.theta - p.theta = move)) ∧
      (t.Unclamped [b] → t.Unclamped b.units →
        (t.foldBlocks b.units).params = (t.foldBlock b).1.params)) ∧
    (b.pairs = 1 →
      ((t.withGain .blockStart).foldBlock b).1.params =
          ((t.withGain .blockMean).foldBlock b).1.params ∧
        ((t.withGain .blockStart).foldBlock b).2 = ((t.withGain .blockMean).foldBlock b).2) := by
  intro t
  have hbuilt := Definition.built_of_build hbuild
  have hoptimizer : t.optimizer = .classic (defaults.offsetFraction * state.plannedPairs)
      defaults.alpha defaults.gamma d.gain := by
    rw [(sameSetup_foldBlocks state blocks).optimizer, hbuilt.optimizer, hfamily]
    rfl
  have hclassic : t.optimizer.family = .classic := by rw [hoptimizer]; rfl
  refine ⟨fun hgain hpairs => ?_, foldBlock_withGain (hbuilt.sound.foldBlocks blocks) hclassic⟩
  rw [hgain] at hoptimizer
  have hzero : b.pairs ≠ 0 := (Nat.lt_of_succ_le hpairs.1).ne'
  refine ⟨fun i p hp => ?_, params_foldBlocks_units hoptimizer hzero hpairs.2⟩
  obtain ⟨s, hs⟩ : ∃ s, Schedule.ofParameter? t.optimizer p = some s := by
    rw [hoptimizer]
    exact ⟨_, rfl⟩
  refine ⟨s, _, hs, (getElem?_foldBlock t hzero hp).1, ?_⟩
  rw [store_updateAt_classic hclassic, moveAt_blockMean hoptimizer hs hzero hpairs.2]
  exact ⟨rfl, fun hclamp => by rw [hclamp, add_sub_cancel_left]⟩

end TuningState

/-! ### A small classic run -/

/-- Hyper-parameters with exponents of one, so that gains are fractions. -/
noncomputable def HyperDefaults.harmonic : HyperDefaults ℝ :=
  { HyperDefaults.standard with alpha := 1, gamma := 1 }

/-- The parameter of the small definition at a value, with the constants of its schedule. -/
def Parameter.scheduledAt (theta : ℝ) : Parameter ℝ :=
  { Parameter.small with c := 20, a := 44, theta }

/-- The state in which the small classic run starts. -/
noncomputable def TuningState.smallClassicRun : TuningState ℝ :=
  { TuningState.small (HyperDefaults.harmonic.optimizer .classic .blockMean (10 : ℕ)) with
    params := [.scheduledAt Parameter.small.start] }

lemma HyperDefaults.check_harmonic : HyperDefaults.harmonic.check .classic = .ok () := by
  rw [check_eq_ok_iff]
  intro p hp
  cases p <;> simp [Family.hyperParameters] at hp <;>
    simp [harmonic, HyperParameter.requirement, Requirement.admits, HyperDefaults.get, standard,
      PairMoments.leastEstimate, PairMoments.greatestEstimate] <;> norm_num

lemma ParamLine.toParameter_scheduledAt :
    ParamLine.small.toParameter (HyperDefaults.harmonic.optimizer .classic .blockMean 10) 10 =
      .ok (.scheduledAt 5) := by
  have hconstants : ParamLine.small.constants
      (HyperDefaults.harmonic.optimizer .classic .blockMean (10 : ℝ)) 10 = .ok (20, 1, 44) := by
    simp only [constants, HyperDefaults.optimizer, HyperDefaults.harmonic, HyperDefaults.standard,
      small, Scalar.pow, Scalar.one_real, Real.rpow_one]
    norm_num
  rw [toParameter, bind_eq_ok_iff]
  exact ⟨(20, 1, 44), hconstants, by simp [small, Parameter.scheduledAt, Parameter.small, pure,
    Except.pure]⟩

/-- The schedule of that parameter. -/
def Schedule.harmonic : Schedule ℝ := ⟨44, 20, 1, 1, 1⟩

lemma Schedule.stepGain_harmonic (k : ℝ) :
    harmonic.stepGain k = 44 / (1 + k) / (20 / k) := by
  rw [stepGain_eq]
  simp only [numerator, size, harmonic, Scalar.pow, Real.rpow_one]

lemma TuningState.ofParameter?_scheduledAt (theta : ℝ) :
    Schedule.ofParameter? TuningState.smallClassicRun.optimizer (.scheduledAt theta) =
      some .harmonic := by
  have hoffset : HyperDefaults.harmonic.offsetFraction * (10 : ℕ) = 1 := by
    norm_num [HyperDefaults.harmonic, HyperDefaults.standard]
  simp only [TuningState.smallClassicRun, TuningState.small, HyperDefaults.optimizer,
    Schedule.ofParameter?, hoffset]
  simp [HyperDefaults.harmonic, Parameter.scheduledAt, Schedule.harmonic]

lemma Definition.build_smallClassicRun :
    (small .classic).build readNat .harmonic = .ok .smallClassicRun :=
  build_small_of_toParameter HyperDefaults.check_harmonic Scalar.one_real
    ParamLine.toParameter_scheduledAt

namespace TuningState

/-- A pair of the small block, with its mean outcome. -/
noncomputable def pairAt (issued : Nat) : Block ℝ :=
  ⟨issued, fun _ => .plus, 1, Block.small.signed / Block.small.pairs⟩

lemma units_small : Block.small.units = [pairAt 0, pairAt 1] := by
  simp [Block.units, Block.small, List.range_succ, pairAt]

lemma moveAt_pairAt {t : TuningState ℝ} (hoptimizer : t.optimizer = smallClassicRun.optimizer)
    (issued : Nat) (theta : ℝ) :
    t.moveAt (pairAt issued) 0 (.scheduledAt theta) =
      11 * (issued + 1) / (10 * (issued + 2)) := by
  have hk : (0 : ℝ) < issued + 1 := by positivity
  have hs : Schedule.ofParameter? t.optimizer (.scheduledAt theta) =
      some .harmonic := hoptimizer ▸ ofParameter?_scheduledAt theta
  rw [moveAt_blockMean hoptimizer hs one_ne_zero (Nat.le_add_left _ _),
    show (pairAt issued).pairs = 1 from rfl, Finset.sum_range_one]
  simp only [pairAt, Block.small, Flip.factor, Scalar.one_real, Nat.cast_zero, Nat.cast_one,
    Nat.cast_ofNat, add_zero, mul_one, div_one]
  rw [Schedule.stepGain_harmonic]
  field_simp
  ring

/-- The first two pairs of the small classic run have step gains of 11/10 and 22/15, and a pair as
its first one is folded alike in both modes. -/
theorem classic_eq_unit_steps_small :
    (Definition.small .classic).build readNat .harmonic = .ok smallClassicRun ∧
      (Definition.small .classic).family = .classic ∧
      (Definition.small .classic).gain = .blockMean ∧ Block.small.pairs ∈ Set.Icc 1 4097 ∧
      smallClassicRun.Unclamped [.small] ∧ smallClassicRun.Unclamped Block.small.units ∧
      (smallClassicRun.foldBlocks Block.small.units).params =
        (smallClassicRun.foldBlock .small).1.params ∧
      (∃ q, (smallClassicRun.foldBlock .small).1.params[0]? = some q ∧
        q.theta - (Parameter.scheduledAt 5).theta = 11 / 10 * (1 / 2) + 22 / 15 * (1 / 2)) ∧
      (pairAt 0).pairs = 1 ∧
      ((smallClassicRun.withGain .blockStart).foldBlock (pairAt 0)).1.params =
        ((smallClassicRun.withGain .blockMean).foldBlock (pairAt 0)).1.params := by
  have hpairs : Block.small.pairs ∈ Set.Icc 1 4097 := by
    norm_num [Block.small]
  have hfirst {t : TuningState ℝ} (ht : t.optimizer = smallClassicRun.optimizer) (theta : ℝ) :
      t.moveAt (pairAt 0) 0 (.scheduledAt theta) = 11 / 20 := by
    rw [moveAt_pairAt ht]
    norm_num
  have hsecond {t : TuningState ℝ} (ht : t.optimizer = smallClassicRun.optimizer) (theta : ℝ) :
      t.moveAt (pairAt 1) 0 (.scheduledAt theta) = 11 / 15 := by
    rw [moveAt_pairAt ht]
    norm_num
  have hmove : smallClassicRun.moveAt .small 0 (.scheduledAt 5) = 11 / 20 + 11 / 15 := by
    rw [← sum_moveAt_units rfl (by decide) (by decide), units_small, List.map_cons, List.map_cons,
      List.map_nil, List.sum_cons, List.sum_cons, List.sum_nil, hfirst rfl, hsecond rfl, add_zero]
  have hmem {theta x y : ℝ} (hy : theta + x = y) (h : y ∈ Set.Icc 0 10) :
      ((Parameter.scheduledAt theta).shiftTheta x).theta ∈ Set.Icc 0 10 :=
    Set.mem_of_eq_of_mem hy h
  have hblock : smallClassicRun.Unclamped [.small] := by
    refine unclamped_cons_of_single rfl rfl (by decide) ?_ fun _ _ _ => trivial
    exact hmem (congrArg _ hmove) (by norm_num [Parameter.small])
  have hunits : smallClassicRun.Unclamped Block.small.units := by
    rw [units_small]
    refine unclamped_cons_of_single rfl rfl one_ne_zero ?_ fun t ht hparams => ?_
    · exact hmem (congrArg _ (hfirst rfl 5)) (by norm_num [Parameter.small])
    · rw [hfirst rfl] at hparams
      have hfamily : t.optimizer.family = .classic := by rw [ht]; rfl
      refine unclamped_cons_of_single (p := .scheduledAt (5 + 11 / 20)) hfamily hparams one_ne_zero
        ?_ fun _ _ _ => trivial
      exact hmem (congrArg _ (hsecond ht _)) (by norm_num)
  obtain ⟨hmean, -⟩ := classic_eq_unit_steps Definition.build_smallClassicRun rfl [] .small
  obtain ⟨hmoves, hsame⟩ := hmean rfl hpairs
  obtain ⟨s, q, hs, hq, -, htheta⟩ := hmoves 0 (.scheduledAt 5) rfl
  have hsum := moveAt_blockMean (t := smallClassicRun) (b := .small) rfl hs (by decide)
    (by decide) 0
  have hone := (classic_eq_unit_steps Definition.build_smallClassicRun rfl [] (pairAt 0)).2 rfl
  refine ⟨Definition.build_smallClassicRun, rfl, rfl, hpairs, hblock, hunits, hsame hblock hunits,
    ⟨q, hq, ?_⟩, rfl, hone.1⟩
  rw [htheta (hsum ▸ hblock.1 0 _ rfl), ← hsum, hmove]
  norm_num

end TuningState

end PairedTuning
