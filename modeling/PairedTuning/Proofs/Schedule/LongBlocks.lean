import Mathlib
import PairedTuning.Proofs.Schedule.Gain

/-!
# The mean gain of a long block

The gains that are not summed one by one are integrated, and half of both ends is added. Two errors
are made. Simpson's rule misses the integral by a fraction of it: the step in `log k` is at most
`37 / 1024`, since a block has less than `2 ^ 64` pairs. The trapezoidal rule takes the integral for
the sum; that error is small because the gain hardly bends any more once `exactPairs` pairs have
passed. Together they are less than a millionth of the sum.
-/

namespace PairedTuning

namespace Schedule

open Finset Quadrature

variable {s : Schedule ℝ} {k x y : ℝ} {n m : ℕ}

/-! ### The integral -/

lemma integral_eq_sum_simpson (hxy : x < y) :
    s.integral x y = ∑ i ∈ range 512, panelRule (1 / 3) (4 / 3) s.logGain
      (Real.log x + (2 * i + 1) * ((Real.log y - Real.log x) / 1024))
      ((Real.log y - Real.log x) / 1024) := by
  have hlast : Real.log x + 2 * (512 : ℕ) * ((Real.log y - Real.log x) / 1024) = Real.log y := by
    push_cast
    ring
  rw [sum_simpson_eq _ _ _ (by norm_num), hlast, integral, if_neg (not_le.mpr hxy)]
  simp only [tailIntervals, Scalar.sum_range_real, Scalar.ofNat_real]
  norm_num
  rfl

/-- The integral of the step gain over a range that spans less than 52 octaves. -/
lemma abs_integral_sub_le (h : s.Moderate) (hx : 0 < x) (hxy : x < y) (hspan : y ≤ 2 ^ 52 * x) :
    |s.integral x y - ∫ k in x..y, s.stepGain k| ≤ 7.2e-7 * ∫ k in x..y, s.stepGain k := by
  set step := (Real.log y - Real.log x) / 1024 with hstep
  have hstep_nonneg : 0 ≤ step := by
    have hlog := Real.log_le_log hx hxy.le
    rw [hstep]
    linarith
  have hstep_le : step ≤ 37 / 1024 := by
    have hlog := Real.log_le_log (hx.trans hxy) hspan
    rw [Real.log_mul (by norm_num) hx.ne', Real.log_pow] at hlog
    have htwo := Real.log_two_lt_d9
    rw [hstep]
    push_cast at hlog
    linarith
  have hgrowth (u : ℝ) : s.logGain (u + 2 * step) ≤ 3 * s.logGain u := by
    have hexp : Real.exp (2 * (2 * step)) ≤ 3 := by
      calc Real.exp (2 * (2 * step)) ≤ Real.exp 1 := Real.exp_le_exp.mpr (by linarith)
        _ ≤ 3 := by linarith [Real.exp_one_lt_d9]
    exact (logGain_add_le h (by linarith) u).trans
      (mul_le_mul_of_nonneg_right hexp (logGain_nonneg h u))
  have hrule := (derivatives_logGain h.toProper).abs_sum_simpson_sub_integral_le (B := 25) (K := 3)
    hstep_nonneg (by norm_num) (by norm_num)
  simp only [derivLogGain_zero] at hrule
  have herror := hrule (logGain_monotone h) (abs_derivLogGain_four_le h) hgrowth (Real.log x) 512
  have hlast : Real.log x + 2 * (512 : ℕ) * step = Real.log y := by
    rw [hstep]
    push_cast
    ring
  rw [hlast, ← integral_stepGain_eq h.toProper hx hxy.le, ← integral_eq_sum_simpson hxy] at herror
  have hintegral : 0 ≤ ∫ k in x..y, s.stepGain k :=
    intervalIntegral.integral_nonneg hxy.le fun k hk => stepGain_nonneg h (hx.le.trans hk.1)
  refine herror.trans (mul_le_mul_of_nonneg_right ?_ hintegral)
  calc 25 * 3 * step ^ 4 / 180 ≤ 25 * 3 * (37 / 1024) ^ 4 / 180 := by gcongr
    _ ≤ 7.2e-7 := by norm_num

/-! ### The sum -/

/-- Between two neighbouring pairs the gain is almost linear. -/
lemma abs_trapezoid_sub_le (h : s.Moderate) (hx : 4097 ≤ x) :
    |1 / 2 * (s.stepGain x + s.stepGain (x + 1)) - ∫ k in x..(x + 1), s.stepGain k| ≤
      2e-8 * s.stepGain x := by
  have hx0 : 0 < x := by linarith
  have hcurvature : ∀ k ∈ Set.Icc x (x + 1),
      |s.curvature k * s.stepGain k| ≤ 4 / x ^ 2 * s.stepGain x := by
    intro k hk
    have hk0 : 0 < k := hx0.trans_le hk.1
    have hratio : k / x ≤ 2 := by
      rw [div_le_iff₀ hx0]
      linarith [hk.2]
    have hgain : s.stepGain k ≤ 2 * s.stepGain x :=
      (stepGain_le_of_le h hx0 hk.1).trans
        (mul_le_mul_of_nonneg_right hratio (stepGain_nonneg h hx0.le))
    calc |s.curvature k * s.stepGain k| = |s.curvature k| * s.stepGain k := by
          rw [abs_mul, abs_of_nonneg (stepGain_nonneg h hk0.le)]
      _ ≤ 2 / x ^ 2 * (2 * s.stepGain x) := by
        have hbend : |s.curvature k| ≤ 2 / x ^ 2 := by
          refine (abs_curvature_le h hk0).trans ?_
          gcongr
          exact hk.1
        exact mul_le_mul hbend hgain (stepGain_nonneg h hk0.le) (by positivity)
      _ = 4 / x ^ 2 * s.stepGain x := by ring
  refine (abs_trapezoid_sub_integral_le
    (fun k hk => hasDerivAt_stepGain h.toProper (hx0.trans_le hk.1))
    (fun k hk => hasDerivAt_slope_mul_stepGain h.toProper (hx0.trans_le hk.1)) hcurvature).trans ?_
  rw [mul_div_right_comm]
  refine mul_le_mul_of_nonneg_right ?_ (stepGain_nonneg h hx0.le)
  calc 4 / x ^ 2 / 12 ≤ 4 / 4097 ^ 2 / 12 := by gcongr
    _ ≤ 2e-8 := by norm_num

lemma integral_add_eq (h : s.Proper) (hx : 0 < x) (m : ℕ) :
    ∑ j ∈ range m, ∫ k in (x + j)..(x + j + 1), s.stepGain k = ∫ k in x..(x + m), s.stepGain k := by
  have hintegrable (j : ℕ) :
      IntervalIntegrable s.stepGain MeasureTheory.volume (x + j) (x + (j + 1 : ℕ)) := by
    refine ContinuousOn.intervalIntegrable fun k hk => ?_
    have hle : x + j ≤ x + (j + 1 : ℕ) := by
      push_cast
      linarith
    rw [Set.uIcc_of_le hle] at hk
    have hk0 : 0 < k := (add_pos_of_pos_of_nonneg hx j.cast_nonneg).trans_le hk.1
    exact (hasDerivAt_stepGain h hk0).continuousAt.continuousWithinAt
  have hsum := intervalIntegral.sum_integral_adjacent_intervals
    (a := fun j : ℕ => x + j) (n := m) fun j _ => hintegrable j
  simpa [add_assoc] using hsum

lemma totalGain_eq_trapezoids (s : Schedule ℝ) (x : ℝ) (m : ℕ) :
    s.totalGain x (m + 1) =
      ∑ j ∈ range m, 1 / 2 * (s.stepGain (x + j) + s.stepGain (x + j + 1)) +
        1 / 2 * (s.stepGain x + s.stepGain (x + m)) := by
  induction m with
  | zero => simp [totalGain]; ring
  | succ m ih =>
    rw [totalGain, sum_range_succ, ← totalGain, ih, sum_range_succ]
    push_cast
    ring_nf

lemma totalGain_nonneg (h : s.Moderate) (hk : 0 ≤ k) (n : ℕ) : 0 ≤ s.totalGain k n :=
  h.toProper.totalGain_nonneg h.a hk n

/-- The integral and half of both ends are the sum of the gains, up to a fraction of it. -/
lemma abs_integral_add_ends_sub_totalGain_le (h : s.Moderate) (hx : 4097 ≤ x) (m : ℕ) :
    |(∫ k in x..(x + m), s.stepGain k) + 1 / 2 * (s.stepGain x + s.stepGain (x + m)) -
        s.totalGain x (m + 1)| ≤ 2e-8 * s.totalGain x (m + 1) := by
  have hx0 : 0 < x := by linarith
  have hsum : |∑ j ∈ range m, (1 / 2 * (s.stepGain (x + j) + s.stepGain (x + j + 1)) -
      ∫ k in (x + j)..(x + j + 1), s.stepGain k)| ≤ 2e-8 * s.totalGain x m := by
    rw [totalGain, mul_sum]
    refine (abs_sum_le_sum_abs _ _).trans (sum_le_sum fun j _ => abs_trapezoid_sub_le h ?_)
    exact hx.trans (le_add_of_nonneg_right j.cast_nonneg)
  have hle : s.totalGain x m ≤ s.totalGain x (m + 1) := by
    rw [totalGain, totalGain, sum_range_succ]
    exact le_add_of_nonneg_right (stepGain_nonneg h (add_nonneg hx0.le m.cast_nonneg))
  rw [sum_sub_distrib, integral_add_eq h.toProper hx0, abs_sub_comm] at hsum
  rw [s.totalGain_eq_trapezoids, add_sub_add_right_eq_sub, ← s.totalGain_eq_trapezoids]
  exact hsum.trans (by gcongr)

/-! ### The mean -/

/-- What stands for the gains that are not summed one by one is close to their sum. -/
lemma abs_tail_sub_totalGain_le (h : s.Moderate) (hx : 4097 ≤ x) (hm : m ≠ 0) (hm' : m < 2 ^ 64) :
    |s.integral x (x + m) + 1 / 2 * (s.stepGain x + s.stepGain (x + m)) - s.totalGain x (m + 1)| ≤
      1e-6 * s.totalGain x (m + 1) := by
  have hx0 : 0 < x := by linarith
  have hlt : x < x + m := lt_add_of_pos_right x (Nat.cast_pos.mpr (Nat.pos_of_ne_zero hm))
  have hspan : x + m ≤ 2 ^ 52 * x := by
    have hm'' : (m : ℝ) < 2 ^ 64 := by exact_mod_cast hm'
    linarith
  have hrule := abs_integral_sub_le h hx0 hlt hspan
  have hsum := abs_integral_add_ends_sub_totalGain_le h hx m
  have hx' := stepGain_nonneg h hx0.le
  have hy' := stepGain_nonneg h (hx0.trans hlt).le
  have htotal := totalGain_nonneg h hx0.le (m + 1)
  rw [abs_le] at hrule hsum ⊢
  constructor <;> linarith

/-- However long a block is, its mean gain is the mean of the gains of its pairs, up to a millionth
of it. -/
theorem abs_meanStepGain_sub_le (h : s.Moderate) (hk : 1 ≤ k) (hn : 1 ≤ n) (hn' : n < 2 ^ 64) :
    |s.meanStepGain k n - (∑ j ∈ range n, s.stepGain (k + j)) / n| ≤
      1e-6 * ((∑ j ∈ range n, s.stepGain (k + j)) / n) := by
  have hk0 : 0 ≤ k := zero_le_one.trans hk
  change |s.meanStepGain k n - s.totalGain k n / n| ≤ 1e-6 * (s.totalGain k n / n)
  rcases Nat.lt_or_ge (exactPairs + 1) n with hlong | hshort
  · obtain ⟨m, hm⟩ := Nat.exists_eq_add_of_lt hlong
    obtain rfl : n = exactPairs + (m + 1 + 1) := by omega
    have hx : 4097 ≤ k + exactPairs := by
      norm_num [exactPairs]
      linarith
    have htail := abs_tail_sub_totalGain_le h hx (Nat.succ_ne_zero m) (by omega)
    have hsplit : s.totalGain k (exactPairs + (m + 1 + 1)) =
        s.totalGain k exactPairs + s.totalGain (k + exactPairs) (m + 1 + 1) := by
      simp only [totalGain, sum_range_add, Nat.cast_add, add_assoc]
    have hlast : k + (exactPairs + (m + 1 + 1) - 1 : ℕ) = k + exactPairs + (m + 1 : ℕ) := by
      rw [← add_assoc, Nat.add_sub_cancel, Nat.cast_add, add_assoc]
    have hhead := totalGain_nonneg h hk0 exactPairs
    rw [meanStepGain_of_lt (by omega), hsplit, hlast, ← sub_div, abs_div, Nat.abs_cast,
      ← mul_div_assoc, add_sub_add_left_eq_sub]
    gcongr
    linarith
  · rw [meanStepGain_of_le (by omega) hshort, sub_self, abs_zero]
    have htotal := totalGain_nonneg h hk0 n
    positivity

/-- The longest block of a common schedule. -/
theorem abs_meanStepGain_sub_le_longest :
    let s : Schedule ℝ := ⟨2, 10, 1000, 0.602, 0.101⟩
    s.Moderate ∧ (1 : ℝ) ≤ 1 ∧ 1 ≤ 2 ^ 64 - 1 ∧ 2 ^ 64 - 1 < 2 ^ 64 ∧
      |s.meanStepGain 1 (2 ^ 64 - 1) -
          (∑ j ∈ range (2 ^ 64 - 1), s.stepGain (1 + j)) / (2 ^ 64 - 1 : ℕ)| ≤
        1e-6 * ((∑ j ∈ range (2 ^ 64 - 1), s.stepGain (1 + j)) / (2 ^ 64 - 1 : ℕ)) := by
  intro s
  have hmoderate : s.Moderate :=
    { size := by norm_num [s], offset := by norm_num [s], a := by norm_num [s]
      alpha := by norm_num [s], gamma := by norm_num [s] }
  exact ⟨hmoderate, le_rfl, by norm_num, by norm_num,
    abs_meanStepGain_sub_le hmoderate le_rfl (by norm_num) (by norm_num)⟩

end Schedule

end PairedTuning
