import Mathlib
import PairedTuning.History
import PairedTuning.Proofs.Scalar.Checked
import PairedTuning.Proofs.Update.Blocks

/-!
# Reports do not divide by zero

Read over `Checked` scalars, every formula of a report gives the numbers that it gives over the real
numbers: no division on the way has a zero divisor. The formulas see to most of this themselves.
What they rely on is collected in `Proper`: positive sizes and a non-negative offset in a classic
run, and some mass after the report in a schedule-free one.
-/

namespace PairedTuning

/-! ### Other scalars -/

section

variable {α β : Type}

@[simps]
def Schedule.map (f : α → β) (s : Schedule α) : Schedule β :=
  ⟨f s.a, f s.c, f s.offset, f s.alpha, f s.gamma⟩

def Optimizer.map (f : α → β) : Optimizer α → Optimizer β
  | classic offset alpha gamma gain => .classic (f offset) (f alpha) (f gamma) gain
  | scheduleFreeSgd lr beta => .scheduleFreeSgd (f lr) (f beta)
  | scheduleFreeAdam lr beta1 beta2 eps => .scheduleFreeAdam (f lr) (f beta1) (f beta2) (f eps)

@[simps]
def Parameter.map (f : α → β) (p : Parameter α) : Parameter β :=
  { name := p.name, start := f p.start, low := f p.low, high := f p.high, theta := f p.theta
    c := f p.c, cEnd := f p.cEnd, rEnd := f p.rEnd, a := f p.a, z := f p.z, v := f p.v }

@[simps]
def Nudge.map (f : α → β) (n : Nudge α) : Nudge β := ⟨f n.c, n.flip, n.gain.map f⟩

@[simps]
def PairMoments.map (f : α → β) (m : PairMoments α) : PairMoments β :=
  ⟨f m.reports, f m.pairs, f m.signed, f m.squaredPerPair, f m.initial⟩

@[simps]
def Mass.map (f : α → β) (m : Mass α) : Mass β := ⟨f m.before, f m.after, f m.weight, f m.share⟩

@[simps]
def AdamRates.map (f : α → β) (r : AdamRates α) : AdamRates β :=
  ⟨f r.lr, f r.beta1, f r.beta2, f r.eps⟩

def ParamUpdate.map (f : α → β) (u : ParamUpdate α) : ParamUpdate β :=
  ⟨f u.theta, f u.z, f u.x, f u.v, f u.display⟩

def Sample.map (f : α → β) (s : Sample α) : Sample β := ⟨f s.theta, f s.c⟩

@[simps]
def TuningState.map (f : α → β) (t : TuningState α) : TuningState β :=
  { optimizer := t.optimizer.map f, iter := t.iter, plannedPairs := t.plannedPairs
    mass := f t.mass, moments := t.moments.map f, params := t.params.map (·.map f)
    history := t.history.map (·.map (·.map f)) }

end

open Checked

variable {guess : Bool}

/-! ### Schedules -/

namespace Schedule

/-- The sizes of a schedule are positive, and its offset keeps the gains finite. -/
structure Proper (s : Schedule ℝ) : Prop where
  size : 0 < s.c
  offset : 0 ≤ s.offset

variable {s : Schedule ℝ} {k : ℝ}

lemma size_pos (h : s.Proper) (hk : 0 < k) : 0 < s.size k :=
  div_pos h.size (Real.rpow_pos_of_pos hk s.gamma)

lemma size_of (hk : 0 < k) : (s.map of).size (of k : Checked guess) = of (s.size k) := by
  have hpow : Scalar.pow k s.gamma ≠ 0 := (Real.rpow_pos_of_pos hk s.gamma).ne'
  simp [size, map, hpow]

lemma numerator_of (h : s.Proper) (hk : 0 < k) :
    (s.map of).numerator (of k : Checked guess) = of (s.numerator k) := by
  have hpow : Scalar.pow (s.offset + k) s.alpha ≠ 0 :=
    (Real.rpow_pos_of_pos (add_pos_of_nonneg_of_pos h.offset hk) s.alpha).ne'
  simp [numerator, map, hpow]

lemma gain_of (h : s.Proper) (hk : 0 < k) :
    (s.map of).gain (of k : Checked guess) = of (s.gain k) := by
  have hsize := (size_pos h hk).ne'
  simp only [gain, size_of hk, numerator_of h hk, mul_of, div_of (mul_ne_zero hsize hsize)]

lemma stepGain_of (h : s.Proper) (hk : 0 < k) :
    (s.map of).stepGain (of k : Checked guess) = of (s.stepGain k) := by
  simp only [stepGain, size_of hk, numerator_of h hk, numeral_of, beq_of,
    div_of (size_pos h hk).ne', ite_of]

lemma logGain_of (h : s.Proper) (u : ℝ) :
    (s.map of).logGain (of u : Checked guess) = of (s.logGain u) := by
  have hk : 0 < Scalar.exp u := Real.exp_pos u
  simp only [logGain, exp_of, stepGain_of h hk, mul_of]

lemma integral_of (h : s.Proper) (lo hi : ℝ) :
    (s.map of).integral (of lo) (of hi : Checked guess) = of (s.integral lo hi) := by
  have hintervals : (Scalar.ofNat tailIntervals : ℝ) ≠ 0 := by simp [tailIntervals]
  have hthree : @OfNat.ofNat ℝ 3 (Scalar.instOfNat 3) ≠ 0 := by simp
  simp only [integral, le_of, log_of, ofNat_of, sub_of, div_of hintervals, logGain_of h,
    numeral_of, ite_of, mul_of, add_of, sum_of, div_of hthree]

lemma meanStepGain_of (h : s.Proper) (hk : 0 < k) (n : Nat) :
    (s.map of).meanStepGain (of k : Checked guess) n = of (s.meanStepGain k n) := by
  have hlater (j : Nat) : 0 < k + Scalar.ofNat j := add_pos_of_pos_of_nonneg hk (Nat.cast_nonneg j)
  unfold meanStepGain
  by_cases hn : n = 0
  · rw [if_pos hn, if_pos hn, numeral_of]
  · have hpairs : (Scalar.ofNat n : ℝ) ≠ 0 := Nat.cast_ne_zero.mpr hn
    simp only [if_neg hn, ofNat_of, add_of, stepGain_of h (hlater _), integral_of h,
      scientific_of, mul_of, sum_of, ite_of, div_of hpairs]

lemma ofParameter?_of (optimizer : Optimizer ℝ) (p : Parameter ℝ) :
    ofParameter? (optimizer.map (of : ℝ → Checked guess)) (p.map of) =
      (ofParameter? optimizer p).map (·.map of) := by
  cases optimizer <;> rfl

end Schedule

/-! ### Rules -/

@[simp] lemma factor_of (f : Flip) : (f.factor : Checked guess) = of f.factor := by
  cases f <;> rfl

@[simp] lemma Mass.advance_of (mass : ℝ) (n : Nat) (lr : ℝ) :
    Mass.advance (of mass : Checked guess) n (of lr) = (Mass.advance mass n lr).map of := by
  have hmass (h : 0 < mass + lr * Scalar.ofNat n) : mass + lr * Scalar.ofNat n ≠ 0 := h.ne'
  simp only [advance, map, ofNat_of, mul_of, add_of, numeral_of, lt_of, Scalar.zero_real,
    ite_div_of hmass]

namespace Adam

@[simp] lemma moment_of (v beta2 : ℝ) (n : Nat) (mu2 : ℝ) (steps : Nat) :
    moment (of v : Checked guess) (of beta2) n (of mu2) steps =
      (of (moment v beta2 n mu2 steps).1, of (moment v beta2 n mu2 steps).2) := by
  have hfloor {x : ℝ} (h : 1e-16 < x) : x ≠ 0 := (lt_trans (by norm_num) h).ne'
  simp only [moment, correctionFloor, ofNat_of, numeral_of, scientific_of, pow_of, mul_of, sub_of,
    add_of, lt_of, Scalar.one_real, ite_div_of hfloor]
  by_cases hdecay : beta2 < 1
  · simp only [if_pos hdecay]
  · simp only [if_neg hdecay]

@[simp] lemma secondMoment_of (v beta2 : ℝ) (n : Nat) (mu2 : ℝ) (steps : Nat) (eps : ℝ) :
    secondMoment (of v : Checked guess) (of beta2) n (of mu2) steps (of eps) =
      (of (secondMoment v beta2 n mu2 steps eps).1,
        of (secondMoment v beta2 n mu2 steps eps).2) := by
  simp only [secondMoment, moment_of, sqrt_of, add_of]

@[simp] lemma damping_of (n : Nat) (beta2 : ℝ) :
    damping n (of beta2 : Checked guess) = of (damping n beta2) := by
  simp only [damping, seriesThreshold, numeral_of, scientific_of, ofNat_of, lt_of, sqrt_of, sub_of,
    abs_of, mul_of, pow_of, Scalar.zero_real, Scalar.one_real]
  by_cases htrivial : n ≤ 1 ∨ ¬ (0 < beta2 ∧ beta2 < 1)
  · simp only [if_pos htrivial]
  · have hpairs : (Scalar.ofNat n : ℝ) ≠ 0 := by
      have hn : ¬ n ≤ 1 := fun h => htrivial (.inl h)
      exact Nat.cast_ne_zero.mpr (by omega)
    have hseries (h : 1e-12 < Scalar.abs (1 - Scalar.sqrt beta2)) :
        Scalar.ofNat n * (1 - Scalar.sqrt beta2) ≠ 0 :=
      mul_ne_zero hpairs (abs_pos.mp (lt_trans (by norm_num) h))
    simp only [if_neg htrivial, ite_div_of hseries, Checked.clamp_of]

end Adam

namespace Parameter

variable {p : Parameter ℝ} {optimizer : Optimizer ℝ}

@[simp] lemma clamp_of (p : Parameter ℝ) (x : ℝ) :
    (p.map of).clamp (of x : Checked guess) = of (p.clamp x) :=
  Checked.clamp_of p.low p.high x

lemma nudge_of (h : ∀ s, Schedule.ofParameter? optimizer p = some s → s.Proper) (k : Nat)
    (f : Flip) :
    (p.map of).nudge (optimizer.map (of : ℝ → Checked guess)) k f =
      (p.nudge optimizer k f).map of := by
  unfold nudge
  rw [Schedule.ofParameter?_of]
  cases hs : Schedule.ofParameter? optimizer p with
  | none => rfl
  | some s =>
    have hk : 0 < (Scalar.ofNat k : ℝ) + 1 := by
      rw [Scalar.ofNat_real]
      positivity
    simp only [Option.map_some, ofNat_of, numeral_of, add_of, Scalar.one_real, Schedule.size_of hk,
      Schedule.gain_of (h s hs) hk]
    rfl

lemma average_of {beta : ℝ} (hbeta : beta ≠ 0) (p : Parameter ℝ) :
    (p.map of).average (of beta : Checked guess) = of (p.average beta) := by
  simp only [average, map_theta, map_z, numeral_of, sub_of, mul_of, div_of hbeta, clamp_of]

@[simp] lemma blend_of (p : Parameter ℝ) (z x beta : ℝ) :
    (p.map of).blend (of z : Checked guess) (of x) (of beta) = of (p.blend z x beta) := by
  simp only [blend, numeral_of, sub_of, mul_of, add_of, clamp_of]

lemma classicStep_of (p : Parameter ℝ) (nudge : Nudge ℝ) (gain s : ℝ) :
    (p.map of).classicStep (nudge.map of) (of gain : Checked guess) (of s) =
      (p.classicStep nudge gain s).map of := by
  simp only [classicStep, map_theta, map_z, map_v, Nudge.map_flip, factor_of, mul_of, add_of,
    clamp_of, ParamUpdate.map]

lemma sgdStep_of (p : Parameter ℝ) (nudge : Nudge ℝ) (n : Nat) (s lr beta : ℝ) {mass : Mass ℝ}
    (hmass : mass.after ≠ 0) :
    (p.map of).sgdStep (nudge.map of) n (of s : Checked guess) (of lr) (of beta) (mass.map of) =
      (p.sgdStep nudge n s lr beta mass).map of := by
  simp only [sgdStep, map_z, map_v, Nudge.map_c, Nudge.map_flip, Mass.map_before, Mass.map_weight,
    Mass.map_after, factor_of, mul_of, add_of, numeral_of, beq_of, Scalar.zero_real, beq_iff_eq]
  by_cases hbeta : beta = 0
  · simp only [if_pos hbeta, clamp_of, ParamUpdate.map]
  · have htwo : @OfNat.ofNat ℝ 2 (Scalar.instOfNat 2) ≠ 0 := by simp
    simp only [if_neg hbeta, ofNat_of, average_of hbeta, add_of, mul_of, div_of htwo, div_of hmass,
      clamp_of, blend_of, ParamUpdate.map]

lemma adamStep_of (p : Parameter ℝ) (nudge : Nudge ℝ) (n : Nat) (s : ℝ) (rates : AdamRates ℝ)
    (mass : Mass ℝ) (mu2 : ℝ) (steps : Nat) :
    (p.map of).adamStep (nudge.map of) n (of s : Checked guess) (rates.map of) (mass.map of)
        (of mu2) steps =
      (p.adamStep nudge n s rates mass mu2 steps).map of := by
  have hroot {x : ℝ} (h : 0 < x) : x ≠ 0 := h.ne'
  simp only [adamStep, map_z, map_v, Nudge.map_c, Nudge.map_flip, Mass.map_share, AdamRates.map_lr,
    AdamRates.map_beta1, AdamRates.map_beta2, AdamRates.map_eps, Adam.secondMoment_of,
    Adam.damping_of, factor_of, numeral_of, lt_of, beq_of, mul_of, add_of, Scalar.zero_real,
    ite_div_of hroot, beq_iff_eq]
  by_cases hbeta : rates.beta1 = 0
  · simp only [if_pos hbeta, clamp_of, ParamUpdate.map]
  · simp only [if_neg hbeta, average_of hbeta, sub_of, mul_of, add_of, clamp_of, blend_of,
      ParamUpdate.map]

end Parameter

/-! ### Moments -/

namespace PairMoments

variable (m : PairMoments ℝ)

lemma add_of (n : Nat) (s : ℝ) :
    (m.map of).add n (of s : Checked guess) = (m.add n s).map of := by
  by_cases hn : n = 0
  · simp only [add, if_pos hn]
  · have hlarger : Scalar.larger (Scalar.ofNat n : ℝ) 1 ≠ 0 := by
      rw [Scalar.larger_real]
      exact (lt_max_of_lt_right one_pos).ne'
    simp only [add, if_neg hn, map, numeral_of, ofNat_of, Checked.add_of, mul_of, Checked.larger_of,
      Scalar.one_real, div_of hlarger]

lemma mean?_of : (m.map (of : ℝ → Checked guess)).mean? = m.mean?.map of := by
  simp only [mean?, map_pairs, map_signed, numeral_of, lt_of, Scalar.zero_real]
  split_ifs with hpairs
  · rw [div_of hpairs.ne', Option.map_some]
  · rfl

lemma variance?_of : (m.map (of : ℝ → Checked guess)).variance? = m.variance?.map of := by
  simp only [variance?, map_reports, map_pairs, map_squaredPerPair, mean?_of, numeral_of, le_of,
    Scalar.zero_real]
  split_ifs with hreports
  · rfl
  · have hreports' : m.reports ≠ 0 := (not_le.mp hreports).ne'
    cases m.mean? with
    | none => rfl
    | some mean =>
      simp only [Option.map_some, div_of hreports', mul_of, sub_of, Checked.larger_of]

@[simp] lemma estimate_of : (m.map (of : ℝ → Checked guess)).estimate = of m.estimate := by
  have hgetD (x? : Option ℝ) (x : ℝ) :
      (x?.map of).getD (of x : Checked guess) = of (x?.getD x) := by
    cases x? <;> rfl
  simp only [estimate, leastEstimate, greatestEstimate, map_reports, map_initial, mean?_of,
    variance?_of, numeral_of, scientific_of, le_of, hgetD, mul_of, Checked.add_of,
    Checked.clamp_of, ite_of]

end PairMoments

/-! ### Reports -/

section

variable {α β γ : Type}

lemma zipWith_map_of_mem {α' β' γ' : Type} {f : α → α'} {g : β → β'} {h : γ → γ'}
    {op : α → β → γ} {op' : α' → β' → γ'} {as : List α} (bs : List β)
    (hop : ∀ a ∈ as, ∀ b, op' (f a) (g b) = h (op a b)) :
    (as.map f).zipWith op' (bs.map g) = (as.zipWith op bs).map h := by
  induction as generalizing bs with
  | nil => rfl
  | cons a as ih =>
    obtain ⟨ha, has⟩ := List.forall_mem_cons.mp hop
    cases bs with
    | nil => rfl
    | cons b bs => simp only [List.map_cons, List.zipWith_cons_cons, ha, ih bs has]

lemma storeUpdates_map (f : α → β) (ps : List (Parameter α)) (us : List (ParamUpdate α)) :
    storeUpdates (ps.map (·.map f)) (us.map (·.map f)) = (storeUpdates ps us).map (·.map f) := by
  induction ps generalizing us with
  | nil => cases us <;> rfl
  | cons p ps ih =>
    cases us with
    | nil => rfl
    | cons u us =>
      simp only [List.map_cons, storeUpdates, ih]
      rfl

end

namespace TuningState

/-- What the formulas of a report rely on. -/
structure Proper (t : TuningState ℝ) : Prop where
  schedule : ∀ p ∈ t.params, ∀ s, Schedule.ofParameter? t.optimizer p = some s → s.Proper
  mass : t.optimizer.family.isScheduleFree → ∀ n, n ≠ 0 → 0 < t.massAfter n

variable {t : TuningState ℝ} {p : Parameter ℝ}

lemma contexts_of (h : t.Proper) (k : Nat) (flips : List Flip) :
    (t.map (of : ℝ → Checked guess)).contexts k flips = (t.contexts k flips).map (·.map of) := by
  have hzip : (t.params.map (·.map of)).zipWith
      (fun p flip => p.nudge (t.optimizer.map of) k flip) (flips.map id) =
        (t.contexts k flips).map (·.map (of : ℝ → Checked guess)) :=
    zipWith_map_of_mem flips fun p hp flip => Parameter.nudge_of (h.schedule p hp) k flip
  rwa [List.map_id] at hzip

lemma blockGain_of (hp : ∀ s, Schedule.ofParameter? t.optimizer p = some s → s.Proper)
    (gain : BlockGain) (nudge : Nudge ℝ) (issued n : Nat) :
    (t.map of).blockGain gain (p.map of) (nudge.map (of : ℝ → Checked guess)) issued n =
      of (t.blockGain gain p nudge issued n) := by
  have hk : 0 < (Scalar.ofNat issued : ℝ) + 1 := by
    rw [Scalar.ofNat_real]
    positivity
  cases gain with
  | blockStart =>
    obtain ⟨c, flip, gain?⟩ := nudge
    cases gain? <;> rfl
  | blockMean =>
    simp only [blockGain, map_optimizer, Schedule.ofParameter?_of]
    cases hs : Schedule.ofParameter? t.optimizer p with
    | none => rfl
    | some s =>
      simp only [Option.map_some, ofNat_of, numeral_of, Checked.add_of, Scalar.one_real,
        Schedule.meanStepGain_of (hp s hs) hk]

lemma updateOf_of (h : t.Proper) (hp : p ∈ t.params) (issued : Nat) {n : Nat} (hn : n ≠ 0) (s : ℝ)
    (nudge : Nudge ℝ) :
    (t.map of).updateOf issued n (of s : Checked guess) (p.map of) (nudge.map of) =
      (t.updateOf issued n s p nudge).map of := by
  cases hoptimizer : t.optimizer with
  | classic offset alpha gamma gain =>
    simp only [updateOf, map_optimizer, hoptimizer, Optimizer.map, blockGain_of (h.schedule p hp),
      Parameter.classicStep_of]
  | scheduleFreeSgd lr beta =>
    have hmass : (Mass.advance t.mass n lr).after ≠ 0 := by
      have hpos := h.mass (by rw [hoptimizer]; rfl) n hn
      rw [massAfter, hoptimizer] at hpos
      exact hpos.ne'
    simp only [updateOf, map_optimizer, hoptimizer, Optimizer.map, map_mass, Mass.advance_of,
      Parameter.sgdStep_of p nudge n s lr beta hmass]
  | scheduleFreeAdam lr beta1 beta2 eps =>
    simp only [updateOf, map_optimizer, hoptimizer, Optimizer.map, map_mass, map_moments, map_iter,
      Mass.advance_of, PairMoments.estimate_of]
    exact Parameter.adamStep_of p nudge n s ⟨lr, beta1, beta2, eps⟩ _ _ _

lemma massAfter_of (t : TuningState ℝ) (n : Nat) :
    (t.map (of : ℝ → Checked guess)).massAfter n = of (t.massAfter n) := by
  cases hoptimizer : t.optimizer <;>
    simp only [massAfter, map_optimizer, hoptimizer, Optimizer.map, map_mass, Mass.advance_of,
      Mass.map_after]

lemma fold_of (h : t.Proper) (nudges : List (Nudge ℝ)) (issued n : Nat) (s : ℝ) :
    (t.map of).fold (nudges.map (·.map of)) issued n (of s : Checked guess) =
      ((t.fold nudges issued n s).1.map of, (t.fold nudges issued n s).2.map of) := by
  by_cases hn : n = 0
  · simp only [fold, if_pos hn, map_params, List.map_map]
    rfl
  · have hupdates : (t.params.map (·.map of)).zipWith
        ((t.map of).updateOf issued n (of s : Checked guess)) (nudges.map (·.map of)) =
          (t.params.zipWith (t.updateOf issued n s) nudges).map (·.map of) :=
      zipWith_map_of_mem nudges fun p hp nudge => updateOf_of h hp issued hn s nudge
    simp only [fold, if_neg hn, updates_eq, map_params, hupdates, massAfter_of, storeUpdates_map,
      map_moments, PairMoments.add_of, List.map_map]
    rfl

lemma targetSamples_ne_zero (params : Nat) : (targetSamples params : ℝ) ≠ 0 := by
  unfold targetSamples
  split_ifs with hfew hsome
  · simp
  · exact div_ne_zero (by simp) (Nat.cast_ne_zero.mpr (by omega))
  · simp

@[simp] lemma targetSamples_of (params : Nat) :
    (targetSamples params : Checked guess) = of (targetSamples params) := by
  unfold targetSamples
  split_ifs with hfew hsome
  · rfl
  · have hparams : (Scalar.ofNat params : ℝ) ≠ 0 := Nat.cast_ne_zero.mpr (by omega)
    rw [numeral_of, ofNat_of, div_of hparams]
  · rfl

@[simp] lemma samplingPeriod_of (games params : Nat) :
    (samplingPeriod games params : Checked guess) = of (samplingPeriod games params) := by
  have htwo : @OfNat.ofNat ℝ 2 (Scalar.instOfNat 2) ≠ 0 := by simp
  simp only [samplingPeriod, targetSamples_of, ofNat_of, numeral_of, div_of htwo,
    div_of (targetSamples_ne_zero params)]

lemma snapshotDue_of (t : TuningState ℝ) (games : Nat) :
    (t.map (of : ℝ → Checked guess)).snapshotDue games = t.snapshotDue games := by
  simp only [snapshotDue, map_params, map_history, map_iter, List.length_map, samplingPeriod_of,
    numeral_of, ofNat_of, le_of, Scalar.zero_real]
  split_ifs with hperiod
  · rfl
  · simp only [div_of (not_le.mp hperiod).ne', le_of]

lemma record_of (t : TuningState ℝ) (games : Nat) (nudges : List (Nudge ℝ)) (display : List ℝ) :
    (t.map (of : ℝ → Checked guess)).record games (nudges.map (·.map of)) (display.map of) =
      ((t.record games nudges display).1.map of, (t.record games nudges display).2) := by
  have hsnapshot : snapshot (nudges.map (·.map of)) (display.map (of : ℝ → Checked guess)) =
      (snapshot nudges display).map (·.map of) :=
    zipWith_map_of_mem display fun _ _ _ => rfl
  simp only [record, snapshotDue_of, hsnapshot]
  split_ifs
  · simp only [map, List.map_append, List.map_singleton]
  · rfl

end TuningState

end PairedTuning
