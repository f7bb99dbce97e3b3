import Mathlib
import PairedTuning.Proofs.Definition.Build
import PairedTuning.Proofs.Scalar.Real
import PairedTuning.Proofs.Update.Blocks

/-!
# The second moment of Adam

Adam divides its step by the root of a second moment. A parameter carries a decaying average of the
estimates that the run had, one before each report: a reading. A report counts with as many unit
steps as it has pairs, all with the same reading, and the program takes them in one step.

The decaying average starts at zero. What it lacks for that is the same for every run with as many
pairs, so dividing by it makes a true average of the readings: `Reading.shares` are the weights.
-/

namespace PairedTuning

/-- An estimate of the second moment, and the number of pairs it is used for. -/
structure Reading where
  pairs : Nat
  moment : ℝ

namespace Reading

def totalPairs (rs : List Reading) : Nat := (rs.map (·.pairs)).sum

/-- The second moment after one pair that sees `m`. -/
def unitStep (beta2 m v : ℝ) : ℝ := beta2 * v + (1 - beta2) * m

/-- The second moment after a unit step for every pair of some readings. -/
def unitSteps (beta2 v : ℝ) (rs : List Reading) : ℝ :=
  rs.foldl (fun v r => (unitStep beta2 r.moment)^[r.pairs] v) v

/-- What is left of every reading in the second moment. -/
def weights (beta2 : ℝ) : List Reading → List ℝ
  | [] => []
  | r :: rs => beta2 ^ totalPairs rs * (1 - beta2 ^ r.pairs) :: weights beta2 rs

/-- The part that every reading has in the corrected second moment. -/
noncomputable def shares (beta2 : ℝ) (rs : List Reading) : List ℝ :=
  (weights beta2 rs).map (· / (1 - beta2 ^ totalPairs rs))

/-- The sum of the readings, each with a weight. -/
def weightedSum (ws : List ℝ) (rs : List Reading) : ℝ :=
  (ws.zipWith (fun w r => w * r.moment) rs).sum

/-- A value is an average of readings, with weights that are not negative and sum to one. -/
structure IsAverage (ws : List ℝ) (rs : List Reading) (x : ℝ) : Prop where
  length : ws.length = rs.length
  nonneg : ∀ w ∈ ws, 0 ≤ w
  sum : ws.sum = 1
  value : x = weightedSum ws rs

variable {beta2 : ℝ}

@[simp] lemma totalPairs_cons (r : Reading) (rs : List Reading) :
    totalPairs (r :: rs) = r.pairs + totalPairs rs := by
  simp [totalPairs]

@[simp] lemma unitSteps_cons (v : ℝ) (r : Reading) (rs : List Reading) :
    unitSteps beta2 v (r :: rs) = unitSteps beta2 ((unitStep beta2 r.moment)^[r.pairs] v) rs := rfl

@[simp] lemma weightedSum_cons (w : ℝ) (ws : List ℝ) (r : Reading) (rs : List Reading) :
    weightedSum (w :: ws) (r :: rs) = w * r.moment + weightedSum ws rs := by
  simp [weightedSum]

/-! ### Steps in closed form -/

lemma iterate_unitStep (m v : ℝ) (n : Nat) :
    (unitStep beta2 m)^[n] v = beta2 ^ n * v + (1 - beta2 ^ n) * m := by
  induction n with
  | zero => simp
  | succ n ih =>
    rw [Function.iterate_succ_apply', ih, unitStep]
    ring

lemma unitSteps_eq (v : ℝ) (rs : List Reading) :
    unitSteps beta2 v rs =
      beta2 ^ totalPairs rs * v + weightedSum (weights beta2 rs) rs := by
  induction rs generalizing v with
  | nil => simp [unitSteps, totalPairs, weights, weightedSum]
  | cons r rs ih =>
    rw [unitSteps_cons, ih, iterate_unitStep, weights, weightedSum_cons, totalPairs_cons, pow_add]
    ring

/-! ### Weights -/

@[simp] lemma length_weights (rs : List Reading) : (weights beta2 rs).length = rs.length := by
  induction rs with
  | nil => rfl
  | cons r rs ih => simp [weights, ih]

/-- Only what the start at zero still has is missing from the weights. -/
lemma sum_weights (rs : List Reading) : (weights beta2 rs).sum = 1 - beta2 ^ totalPairs rs := by
  induction rs with
  | nil => simp [weights, totalPairs]
  | cons r rs ih =>
    rw [weights, List.sum_cons, ih, totalPairs_cons, pow_add]
    ring

lemma weights_nonneg (h0 : 0 ≤ beta2) (h1 : beta2 ≤ 1) (rs : List Reading) :
    ∀ w ∈ weights beta2 rs, 0 ≤ w := by
  induction rs with
  | nil => simp [weights]
  | cons r rs ih =>
    rw [weights, List.forall_mem_cons]
    exact ⟨mul_nonneg (pow_nonneg h0 _) (sub_nonneg.mpr (pow_le_one₀ h0 h1)), ih⟩

lemma weightedSum_map_div (c : ℝ) (ws : List ℝ) (rs : List Reading) :
    weightedSum (ws.map (· / c)) rs = weightedSum ws rs / c := by
  induction ws generalizing rs with
  | nil => simp [weightedSum]
  | cons w ws ih =>
    cases rs with
    | nil => simp [weightedSum]
    | cons r rs =>
      rw [List.map_cons, weightedSum_cons, weightedSum_cons, ih]
      ring

/-- Weights that are not negative keep the bounds of the readings. -/
lemma weightedSum_mem {ws : List ℝ} {rs : List Reading} {lo hi : ℝ}
    (hlength : ws.length = rs.length) (hnonneg : ∀ w ∈ ws, 0 ≤ w)
    (hmem : ∀ r ∈ rs, r.moment ∈ Set.Icc lo hi) :
    weightedSum ws rs ∈ Set.Icc (ws.sum * lo) (ws.sum * hi) := by
  induction ws generalizing rs with
  | nil =>
    simp [weightedSum]
  | cons w ws ih =>
    cases rs with
    | nil => simp at hlength
    | cons r rs =>
      obtain ⟨hw, hws⟩ := List.forall_mem_cons.mp hnonneg
      obtain ⟨hr, hrs⟩ := List.forall_mem_cons.mp hmem
      have hrest := ih (by simpa using hlength) hws hrs
      rw [weightedSum_cons, List.sum_cons, add_mul, add_mul]
      exact ⟨add_le_add (mul_le_mul_of_nonneg_left hr.1 hw) hrest.1,
        add_le_add (mul_le_mul_of_nonneg_left hr.2 hw) hrest.2⟩

lemma isAverage_shares (h0 : 0 ≤ beta2) (h1 : beta2 ≤ 1) {rs : List Reading}
    (hcorrection : 0 < 1 - beta2 ^ totalPairs rs) :
    IsAverage (shares beta2 rs) rs
      (weightedSum (weights beta2 rs) rs / (1 - beta2 ^ totalPairs rs)) := by
  refine ⟨by simp [shares], ?_, ?_, (weightedSum_map_div ..).symm⟩
  · intro w hw
    obtain ⟨w', hw', rfl⟩ := List.mem_map.mp hw
    exact div_nonneg (weights_nonneg h0 h1 rs w' hw') hcorrection.le
  · simp only [shares, div_eq_mul_inv, List.sum_map_mul_right, List.map_id']
    rw [sum_weights, mul_inv_cancel₀ hcorrection.ne']

lemma IsAverage.mem {ws : List ℝ} {rs : List Reading} {x lo hi : ℝ} (h : IsAverage ws rs x)
    (hmem : ∀ r ∈ rs, r.moment ∈ Set.Icc lo hi) : x ∈ Set.Icc lo hi := by
  have hsum := weightedSum_mem h.length h.nonneg hmem
  rwa [h.sum, one_mul, one_mul, ← h.value] at hsum

end Reading

/-! ### One block -/

namespace Adam

lemma correctionFloor_real : (correctionFloor : ℝ) = 1e-16 := rfl

variable {beta2 : ℝ} (v mu2 : ℝ) (n steps : Nat)

/-- The second moment after a block, and its correction. Without decay the steps change nothing and
the correction is zero, so the case is no exception. -/
lemma moment_of_le (h : beta2 ≤ 1) :
    moment v beta2 n mu2 steps =
      let v := (Reading.unitStep beta2 mu2)^[n] v
      (v, if 1e-16 < 1 - beta2 ^ steps then v / (1 - beta2 ^ steps) else v) := by
  have hpow (k : Nat) : Scalar.pow beta2 (Scalar.ofNat k) = beta2 ^ k := Real.rpow_natCast beta2 k
  rcases h.lt_or_eq with hlt | rfl
  · simp only [moment, hlt, if_true, hpow, Reading.iterate_unitStep, Scalar.one_real,
      correctionFloor_real]
  · have hfloor : ¬ (1e-16 : ℝ) < 0 := by norm_num
    simp [moment, Reading.iterate_unitStep, hfloor]

end Adam

namespace Parameter

variable (p : Parameter ℝ) (nudge : Nudge ℝ) (n : Nat) (s : ℝ) (rates : AdamRates ℝ) (mass : Mass ℝ)
  (mu2 : ℝ) (steps : Nat)

lemma adamStep_v :
    (p.adamStep nudge n s rates mass mu2 steps).v =
      (Adam.moment p.v rates.beta2 n mu2 steps).1 := by
  simp only [adamStep, Adam.secondMoment]
  split <;> rfl

lemma adamStep_z :
    (p.adamStep nudge n s rates mass mu2 steps).z =
      let denominator := √(Adam.moment p.v rates.beta2 n mu2 steps).2 + rates.eps
      p.z + (if 0 < denominator then rates.lr * s / denominator else 0) *
        Adam.damping n rates.beta2 * nudge.c * nudge.flip.factor := by
  simp only [adamStep, Adam.secondMoment, Scalar.zero_real]
  split <;> rfl

/-- How far a block moves the fast iterate of the parameter at an index, if the root in the
denominator is taken of `v`. -/
noncomputable def adamMove (lr beta2 eps : ℝ) (b : Block ℝ) (i : Nat) (v : ℝ) : ℝ :=
  (if 0 < √v + eps then lr * b.signed / (√v + eps) else 0) * Adam.damping b.pairs beta2 * p.c *
    (b.draw i).factor

end Parameter

namespace TuningState

/-- The second moment in the denominator of a block's step: that of the parameter after the block,
corrected for its start at zero. -/
noncomputable def correctedMoment (t : TuningState ℝ) (beta2 : ℝ) (b : Block ℝ) (p : Parameter ℝ) :
    ℝ :=
  (Adam.moment p.v beta2 b.pairs t.moments.estimate (t.iter + b.pairs)).2

variable {t : TuningState ℝ} {lr beta1 beta2 eps : ℝ} {p : Parameter ℝ}

lemma updateAt_v (hoptimizer : t.optimizer = .scheduleFreeAdam lr beta1 beta2 eps) (b : Block ℝ)
    (i : Nat) :
    (t.updateAt b i p).v =
      (Adam.moment p.v beta2 b.pairs t.moments.estimate (t.iter + b.pairs)).1 := by
  simp only [updateAt, updateOf, hoptimizer, Scalar.count_real]
  exact Parameter.adamStep_v ..

lemma updateAt_z (hoptimizer : t.optimizer = .scheduleFreeAdam lr beta1 beta2 eps) (b : Block ℝ)
    (i : Nat) :
    (t.updateAt b i p).z = p.z + p.adamMove lr beta2 eps b i (t.correctedMoment beta2 b p) := by
  simp only [updateAt, updateOf, hoptimizer, Scalar.count_real]
  exact Parameter.adamStep_z ..

/-! ### Whole runs -/

/-- The readings of a run: before every block, the estimate at that time. -/
noncomputable def readings : TuningState ℝ → List (Block ℝ) → List Reading
  | _, [] => []
  | t, b :: blocks => ⟨b.pairs, t.moments.estimate⟩ :: readings (t.foldBlock b).1 blocks

lemma foldBlocks_iter (t : TuningState ℝ) (blocks : List (Block ℝ)) :
    (t.foldBlocks blocks).iter = t.iter + Reading.totalPairs (t.readings blocks) := by
  induction blocks generalizing t with
  | nil => rfl
  | cons b blocks ih =>
    rw [foldBlocks_cons, ih, foldBlock_iter, readings, Reading.totalPairs_cons, add_assoc]

/-- Every block takes the second moment of a parameter through as many unit steps as it has pairs,
with the estimate before it. -/
lemma foldBlocks_v (hoptimizer : t.optimizer = .scheduleFreeAdam lr beta1 beta2 eps)
    (hbeta2 : beta2 ≤ 1) {blocks : List (Block ℝ)} (hpairs : ∀ b ∈ blocks, b.pairs ≠ 0) {i : Nat}
    (hp : t.params[i]? = some p) :
    ∃ p', (t.foldBlocks blocks).params[i]? = some p' ∧
      p'.v = Reading.unitSteps beta2 p.v (t.readings blocks) := by
  induction blocks generalizing t p with
  | nil => exact ⟨p, hp, rfl⟩
  | cons b blocks ih =>
    obtain ⟨hb, hblocks⟩ := List.forall_mem_cons.mp hpairs
    have hv : (p.store (t.updateAt b i p)).v =
        (Reading.unitStep beta2 t.moments.estimate)^[b.pairs] p.v := by
      rw [Parameter.store, updateAt_v hoptimizer, Adam.moment_of_le _ _ _ _ hbeta2]
    obtain ⟨p', hp', hv'⟩ := ih ((sameSetup_foldBlock t b).optimizer.trans hoptimizer) hblocks
      (getElem?_foldBlock t hb hp).1
    exact ⟨p', hp', by rw [hv', hv, readings, Reading.unitSteps_cons]⟩

/-- What a block does to the parameter at an index, in a run of Adam with some readings so far, that
before the block included. -/
structure AdamBlock (defaults : HyperDefaults ℝ) (t : TuningState ℝ) (rs : List Reading)
    (b : Block ℝ) (i : Nat) (p p' : Parameter ℝ) : Prop where
  optimizer : t.optimizer =
    .scheduleFreeAdam defaults.lr defaults.beta defaults.beta2 defaults.eps
  before : t.params[i]? = some p
  after : (t.foldBlock b).1.params[i]? = some p'
  iter : (t.foldBlock b).1.iter = Reading.totalPairs rs
  v : p'.v = Reading.unitSteps defaults.beta2 0 rs
  z : p'.z = p.z + p.adamMove defaults.lr defaults.beta2 defaults.eps b i
    (t.correctedMoment defaults.beta2 b p)
  corrected : t.correctedMoment defaults.beta2 b p =
    if 1e-16 < 1 - defaults.beta2 ^ Reading.totalPairs rs then
      p'.v / (1 - defaults.beta2 ^ Reading.totalPairs rs)
    else p'.v

lemma exists_adamBlock {read : String → Option ℝ} {defaults : HyperDefaults ℝ} {d : Definition ℝ}
    {state : TuningState ℝ} (h : d.Built read defaults state)
    (hfamily : d.family = .scheduleFreeAdam)
    {done : List (Block ℝ)} {b : Block ℝ} (hpairs : ∀ b' ∈ done ++ [b], b'.pairs ≠ 0) {i : Nat}
    {p₀ : Parameter ℝ} (hp₀ : state.params[i]? = some p₀) :
    ∃ p p', p.initial = p₀.initial ∧
      AdamBlock defaults (state.foldBlocks done) (state.readings (done ++ [b])) b i p p' := by
  have hbeta2 := h.beta2_mem hfamily
  have hoptimizer : state.optimizer =
      .scheduleFreeAdam defaults.lr defaults.beta defaults.beta2 defaults.eps := by
    rw [h.optimizer, hfamily]
    rfl
  have hsetup := sameSetup_foldBlocks state done
  have hoptimizer' := hsetup.optimizer.trans hoptimizer
  obtain ⟨p, hp, hinit⟩ := hsetup.exists_param hp₀
  obtain ⟨hp', -⟩ := getElem?_foldBlock (state.foldBlocks done) (hpairs b (by simp)) hp
  obtain ⟨q, hq, hv⟩ := foldBlocks_v hoptimizer hbeta2.2 hpairs hp₀
  rw [foldBlocks_append_singleton] at hq
  obtain rfl := Option.some_injective _ (hp'.symm.trans hq)
  have hv₀ : p₀.v = 0 := by
    rw [← h.initial_eq (List.mem_of_getElem? hp₀)]
    exact Scalar.zero_real
  have hiter := foldBlocks_iter state (done ++ [b])
  rw [foldBlocks_append_singleton, h.iter, zero_add] at hiter
  refine ⟨p, _, hinit, hoptimizer', hp, hp', hiter, hv₀ ▸ hv, updateAt_z hoptimizer' b i, ?_⟩
  rw [← hiter, foldBlock_iter, correctedMoment, Adam.moment_of_le _ _ _ _ hbeta2.2, Parameter.store,
    updateAt_v hoptimizer', Adam.moment_of_le _ _ _ _ hbeta2.2]

/-- In every run of Adam, a report takes the second moment of every parameter through as many unit
steps as it has pairs, all with the estimate that was read before the report, whatever its pairs and
its sum are. Once the correction for the start at zero is above its floor, the value under the root
in the denominator of the step is an average of all the readings. -/
theorem adam_moment_eq_unit_steps {read : String → Option ℝ} {defaults : HyperDefaults ℝ}
    {d : Definition ℝ} {state : TuningState ℝ} (hbuild : d.build read defaults = .ok state)
    (hfamily : d.family = .scheduleFreeAdam) {done : List (Block ℝ)} {b : Block ℝ}
    (hpairs : ∀ b' ∈ done ++ [b], b'.pairs ≠ 0) {i : Nat} (hi : i < state.params.length) :
    let t := state.foldBlocks done
    let rs := state.readings (done ++ [b])
    ∃ p p', t.params[i]? = some p ∧ (t.foldBlock b).1.params[i]? = some p' ∧
      p'.v = Reading.unitSteps defaults.beta2 0 rs ∧
      p'.z = p.z + p.adamMove defaults.lr defaults.beta2 defaults.eps b i
        (t.correctedMoment defaults.beta2 b p) ∧
      (1e-16 < 1 - defaults.beta2 ^ (t.foldBlock b).1.iter →
        Reading.IsAverage (Reading.shares defaults.beta2 rs) rs
          (t.correctedMoment defaults.beta2 b p) ∧
        (∀ lo hi, (∀ r ∈ rs, r.moment ∈ Set.Icc lo hi) →
          t.correctedMoment defaults.beta2 b p ∈ Set.Icc lo hi) ∧
        ∀ m, (∀ r ∈ rs, r.moment = m) → t.correctedMoment defaults.beta2 b p = m) ∧
      ∀ n s, n ≠ 0 →
        (t.foldBlock { b with pairs := n, signed := s }).1.params[i]?.map (·.v) =
          some ((Reading.unitStep defaults.beta2 t.moments.estimate)^[n] p.v) := by
  intro t rs
  have hbuilt := Definition.built_of_build hbuild
  have hbeta2 := hbuilt.beta2_mem hfamily
  obtain ⟨p, p', -, hblock⟩ := exists_adamBlock hbuilt hfamily hpairs (List.getElem?_eq_getElem hi)
  refine ⟨p, p', hblock.before, hblock.after, hblock.v, hblock.z, ?_, ?_⟩
  · intro hcorrection
    rw [hblock.iter] at hcorrection
    have hpos : 0 < 1 - defaults.beta2 ^ Reading.totalPairs rs := lt_trans (by norm_num) hcorrection
    have hvalue : t.correctedMoment defaults.beta2 b p =
        Reading.weightedSum (Reading.weights defaults.beta2 rs) rs /
          (1 - defaults.beta2 ^ Reading.totalPairs rs) := by
      rw [hblock.corrected, if_pos hcorrection, hblock.v, Reading.unitSteps_eq, mul_zero, zero_add]
    have haverage := Reading.isAverage_shares hbeta2.1.le hbeta2.2 hpos
    rw [← hvalue] at haverage
    refine ⟨haverage, fun lo hi hmem => haverage.mem hmem, fun m hm => ?_⟩
    have hmem : t.correctedMoment defaults.beta2 b p ∈ Set.Icc m m :=
      haverage.mem fun r hr => by simp [hm r hr]
    exact le_antisymm hmem.2 hmem.1
  · intro n s hn
    obtain ⟨hp', -⟩ :=
      getElem?_foldBlock t (b := { b with pairs := n, signed := s }) hn hblock.before
    rw [hp', Option.map_some, Parameter.store, updateAt_v hblock.optimizer,
      Adam.moment_of_le _ _ _ _ hbeta2.2]

/-- The assumed moment is one. The mean outcome of the pairs of the first block is one half, and
nothing is left for a variance. -/
lemma readings_small (optimizer : Optimizer ℝ) :
    (small optimizer).readings [.small, .small] = [⟨2, 1⟩, ⟨2, 1 / 4⟩] := by
  have hfirst : (small optimizer).moments.estimate = 1 := by
    simp [small, PairMoments.estimate, PairMoments.empty]
  have hsecond : ((small optimizer).foldBlock .small).1.moments.estimate = 1 / 4 := by
    rw [foldBlock_moments _ (by decide), PairMoments.add_of_ne_zero _ (by decide)]
    rw [PairMoments.estimate_of_pos (by simp [small, PairMoments.empty])
      (by simp [small, PairMoments.empty, Block.small])]
    simp only [small, Block.small, PairMoments.empty, Scalar.zero_real]
    norm_num [Scalar.clamp]
  simp only [readings, hfirst, hsecond]
  rfl

theorem adam_moment_eq_unit_steps_small :
    let state := small (HyperDefaults.standard.optimizer .scheduleFreeAdam .blockMean 10)
    let t := (state.foldBlock .small).1
    (Definition.small .scheduleFreeAdam).build readNat .standard = .ok state ∧
      (∀ b ∈ [Block.small, .small], b.pairs ≠ 0) ∧ 0 < state.params.length ∧
      ∃ p p', t.params[0]? = some p ∧ (t.foldBlock .small).1.params[0]? = some p' ∧
        p'.v = Reading.unitSteps HyperDefaults.standard.beta2 0 [⟨2, 1⟩, ⟨2, 1 / 4⟩] ∧
        t.correctedMoment HyperDefaults.standard.beta2 .small p ∈ Set.Icc (1 / 4) 1 := by
  intro state t
  have hbeta2 : (HyperDefaults.standard.beta2 : ℝ) = 999 / 1000 := by
    norm_num [HyperDefaults.standard]
  have hbuild : (Definition.small .scheduleFreeAdam).build readNat .standard = .ok state :=
    Definition.build_small rfl
  have hpairs : ∀ b ∈ [Block.small, .small], b.pairs ≠ 0 := by simp [Block.small]
  have hlength : 0 < state.params.length := by simp [state, small]
  obtain ⟨p, p', hp, hp', hv, -, haverage, -⟩ :=
    adam_moment_eq_unit_steps hbuild rfl (show ∀ b ∈ [Block.small] ++ [.small], _ from hpairs)
      hlength
  have hiter : (((state.foldBlocks [.small]).foldBlock .small).1).iter = 4 := by
    rw [foldBlock_iter, foldBlocks_cons, foldBlocks_nil, foldBlock_iter]
    rfl
  obtain ⟨-, hmem, -⟩ := haverage (by rw [hiter, hbeta2]; norm_num)
  refine ⟨hbuild, hpairs, hlength, p, p', hp, hp', ?_, ?_⟩
  · rw [hv, List.singleton_append, readings_small]
  · refine hmem (1 / 4) 1 fun r hr => ?_
    rw [List.singleton_append, readings_small] at hr
    simp only [List.mem_cons, List.not_mem_nil, or_false] at hr
    rcases hr with rfl | rfl
    · norm_num
    · norm_num

end TuningState

end PairedTuning
