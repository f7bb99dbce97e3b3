import Mathlib
import PairedTuning.Proofs.Schedule.Mean
import PairedTuning.Proofs.Schedule.Quadrature

/-!
# The step gain as a function of the pair

Between two pairs the step gain is still defined, and smooth: it is a power of `k` over a power of
`offset + k`. With both exponents between zero and one it grows at most linearly. As a function of
`log k`, and multiplied by `k`, its derivatives are the function itself times polynomials in the
share of `k` in `offset + k`, so they are at most a constant times the function. The constant is the
same for all schedules.
-/

namespace PairedTuning

namespace Schedule

open Polynomial Set

/-- A proper schedule whose gains are not negative, with both exponents between zero and one. -/
structure Moderate (s : Schedule ℝ) : Prop extends s.Proper where
  a : 0 ≤ s.a
  alpha : s.alpha ∈ Icc 0 1
  gamma : s.gamma ∈ Icc 0 1

variable {s : Schedule ℝ} {k x y u t : ℝ}

/-! ### Growth -/

lemma stepGain_eq_rpow (s : Schedule ℝ) (k : ℝ) :
    s.stepGain k = s.a / s.c * (k ^ s.gamma / (s.offset + k) ^ s.alpha) := by
  rw [stepGain_eq, numerator, size, div_div_eq_mul_div, div_mul_div_comm, div_mul_eq_mul_div,
    div_div, mul_comm s.c]
  rfl

lemma stepGain_nonneg (h : s.Moderate) (hk : 0 ≤ k) : 0 ≤ s.stepGain k :=
  h.toProper.stepGain_nonneg h.a hk

/-- The step gain grows at most linearly. -/
lemma stepGain_le_of_le (h : s.Moderate) (hx : 0 < x) (hxy : x ≤ y) :
    s.stepGain y ≤ y / x * s.stepGain x := by
  have hratio : 1 ≤ y / x := (one_le_div hx).mpr hxy
  have hoffset : 0 < s.offset + x := add_pos_of_nonneg_of_pos h.offset hx
  have hnumerator : y ^ s.gamma ≤ y / x * x ^ s.gamma := by
    have hpow := Real.rpow_le_rpow_of_exponent_le hratio h.gamma.2
    rw [Real.rpow_one, Real.div_rpow (hx.le.trans hxy) hx.le,
      div_le_iff₀ (Real.rpow_pos_of_pos hx _)] at hpow
    exact hpow
  have hdenominator : (s.offset + x) ^ s.alpha ≤ (s.offset + y) ^ s.alpha :=
    Real.rpow_le_rpow hoffset.le (by linarith) h.alpha.1
  calc s.stepGain y = s.a / s.c * (y ^ s.gamma / (s.offset + y) ^ s.alpha) := s.stepGain_eq_rpow y
    _ ≤ s.a / s.c * (y / x * x ^ s.gamma / (s.offset + x) ^ s.alpha) :=
      mul_le_mul_of_nonneg_left
        (div_le_div₀ (by positivity) hnumerator (Real.rpow_pos_of_pos hoffset _) hdenominator)
        (div_nonneg h.a h.size.le)
    _ = y / x * s.stepGain x := by
      rw [stepGain_eq_rpow]
      ring

/-! ### The derivatives of the step gain -/

/-- The derivative of the logarithm of the step gain. -/
noncomputable def slope (s : Schedule ℝ) (k : ℝ) : ℝ := s.gamma / k - s.alpha / (s.offset + k)

/-- The second derivative of the step gain, relative to the step gain. -/
noncomputable def curvature (s : Schedule ℝ) (k : ℝ) : ℝ :=
  s.alpha / (s.offset + k) ^ 2 - s.gamma / k ^ 2 + s.slope k ^ 2

lemma hasDerivAt_stepGain (h : s.Proper) (hk : 0 < k) :
    HasDerivAt s.stepGain (s.slope k * s.stepGain k) k := by
  have hoffset : 0 < s.offset + k := add_pos_of_nonneg_of_pos h.offset hk
  have hpow := (Real.rpow_pos_of_pos hoffset s.alpha).ne'
  have hnumerator := (hasDerivAt_id k).rpow_const (p := s.gamma) (.inl hk.ne')
  have hdenominator := ((hasDerivAt_id k).const_add s.offset).rpow_const (p := s.alpha)
    (.inl hoffset.ne')
  have hquotient := (hnumerator.div hdenominator hpow).const_mul (s.a / s.c)
  refine (hquotient.congr_deriv ?_).congr_of_eventuallyEq (.of_forall s.stepGain_eq_rpow)
  simp only [id, Real.rpow_sub_one hk.ne', Real.rpow_sub_one hoffset.ne', slope, stepGain_eq_rpow]
  field_simp

lemma hasDerivAt_slope_mul_stepGain (h : s.Proper) (hk : 0 < k) :
    HasDerivAt (fun k => s.slope k * s.stepGain k) (s.curvature k * s.stepGain k) k := by
  have hoffset : s.offset + k ≠ 0 := (add_pos_of_nonneg_of_pos h.offset hk).ne'
  have hslope : HasDerivAt s.slope (s.alpha / (s.offset + k) ^ 2 - s.gamma / k ^ 2) k := by
    have hgamma := (hasDerivAt_const k s.gamma).div (hasDerivAt_id k) hk.ne'
    have halpha := (hasDerivAt_const k s.alpha).div ((hasDerivAt_id k).const_add s.offset) hoffset
    refine (hgamma.sub halpha).congr_deriv ?_
    simp only [id]
    ring
  refine (hslope.mul (hasDerivAt_stepGain h hk)).congr_deriv ?_
  rw [curvature]
  ring

lemma abs_curvature_le (h : s.Moderate) (hk : 0 < k) : |s.curvature k| ≤ 2 / k ^ 2 := by
  have hpart {p : ℝ} (hp : p ∈ Icc 0 1) {z : ℝ} (hz : k ≤ z) (n : ℕ) :
      p / z ^ n ∈ Icc 0 (1 / k ^ n) := by
    have hz0 := hk.trans_le hz
    refine ⟨div_nonneg hp.1 (by positivity), ?_⟩
    exact div_le_div₀ zero_le_one hp.2 (by positivity) (pow_le_pow_left₀ hk.le hz n)
  have hle : k ≤ s.offset + k := le_add_of_nonneg_left h.offset
  have hslope : |s.slope k| ≤ 1 / k := by
    have hgamma := hpart h.gamma le_rfl 1
    have halpha := hpart h.alpha hle 1
    simp only [pow_one] at hgamma halpha
    exact abs_sub_le_of_nonneg_of_le hgamma.1 hgamma.2 halpha.1 halpha.2
  have hchange : |s.alpha / (s.offset + k) ^ 2 - s.gamma / k ^ 2| ≤ 1 / k ^ 2 := by
    have hgamma := hpart h.gamma le_rfl 2
    have halpha := hpart h.alpha hle 2
    exact abs_sub_le_of_nonneg_of_le halpha.1 halpha.2 hgamma.1 hgamma.2
  calc |s.curvature k| ≤ 1 / k ^ 2 + |s.slope k| ^ 2 := by
        rw [curvature, ← abs_pow]
        exact (abs_add_le _ _).trans (by gcongr)
    _ ≤ 1 / k ^ 2 + (1 / k) ^ 2 := by gcongr
    _ = 2 / k ^ 2 := by ring

/-! ### The logarithmic gain -/

/-- The share of the pair in its sum with the offset, at `u = log k`. -/
noncomputable def share (s : Schedule ℝ) (u : ℝ) : ℝ := Real.exp u / (s.offset + Real.exp u)

lemma share_mem (h : s.Proper) (u : ℝ) : s.share u ∈ Icc 0 1 := by
  have hu := Real.exp_pos u
  have hoffset := h.offset
  exact ⟨by unfold share; positivity, div_le_one_of_le₀ (by linarith) (by positivity)⟩

lemma hasDerivAt_share (h : s.Proper) (u : ℝ) :
    HasDerivAt s.share (s.share u * (1 - s.share u)) u := by
  have hoffset : s.offset + Real.exp u ≠ 0 :=
    (add_pos_of_nonneg_of_pos h.offset (Real.exp_pos u)).ne'
  have hexp := Real.hasDerivAt_exp u
  refine (hexp.div (hexp.const_add s.offset) hoffset).congr_deriv ?_
  simp only [share]
  field_simp

lemma logGain_eq (s : Schedule ℝ) (u : ℝ) :
    s.logGain u = s.stepGain (Real.exp u) * Real.exp u := rfl

lemma logGain_nonneg (h : s.Moderate) (u : ℝ) : 0 ≤ s.logGain u :=
  h.toProper.logGain_nonneg h.a u

lemma hasDerivAt_logGain (h : s.Proper) (u : ℝ) :
    HasDerivAt s.logGain ((1 + s.gamma - s.alpha * s.share u) * s.logGain u) u := by
  have hexp := Real.hasDerivAt_exp u
  have hoffset : s.offset + Real.exp u ≠ 0 :=
    (add_pos_of_nonneg_of_pos h.offset (Real.exp_pos u)).ne'
  refine (((hasDerivAt_stepGain h (Real.exp_pos u)).comp u hexp).mul hexp).congr_deriv ?_
  simp only [Function.comp, logGain_eq, share, slope]
  field_simp
  ring

/-- The derivatives of the logarithmic gain, relative to the gain itself, as polynomials in the
share of the pair. The share itself grows by `share * (1 - share)`. -/
noncomputable def growth (s : Schedule ℝ) : ℕ → ℝ[X]
  | 0 => 1
  | n + 1 => X * (1 - X) * derivative (growth s n) +
      (C (1 + s.gamma) - C s.alpha * X) * growth s n

/-- A derivative of the logarithmic gain. -/
noncomputable def derivLogGain (s : Schedule ℝ) (n : ℕ) (u : ℝ) : ℝ :=
  (s.growth n).eval (s.share u) * s.logGain u

lemma derivLogGain_zero (s : Schedule ℝ) : s.derivLogGain 0 = s.logGain := by
  funext u
  rw [derivLogGain, growth, eval_one, one_mul]

lemma derivatives_logGain (h : s.Proper) : Quadrature.Derivatives s.derivLogGain := by
  intro n u
  have hfactor := ((s.growth n).hasDerivAt (s.share u)).comp u (hasDerivAt_share h u)
  refine (hfactor.mul (hasDerivAt_logGain h u)).congr_deriv ?_
  simp only [derivLogGain, growth, Function.comp, eval_add, eval_mul, eval_sub, eval_X, eval_one,
    eval_C]
  ring

/-- The fourth derivative in terms of `p`, the rate at which the gain itself grows. -/
lemma eval_growth_four (s : Schedule ℝ) (x : ℝ) :
    let p := 1 + s.gamma - s.alpha * x
    let q := s.alpha * (x * (1 - x))
    (s.growth 4).eval x = p ^ 4 - 6 * p ^ 2 * q + 3 * q ^ 2 - 4 * p * (q * (1 - 2 * x)) -
      q * (1 - 6 * (x * (1 - x))) := by
  simp only [growth, derivative_mul, derivative_add, derivative_sub, derivative_X, derivative_C,
    derivative_neg, derivative_one, neg_zero, mul_zero, zero_mul, zero_add, zero_sub, add_zero,
    eval_add, eval_mul, eval_sub, eval_neg, eval_X, eval_one, eval_C]
  ring

/-- The fourth derivative is at most a constant times the gain, whatever the schedule. -/
lemma abs_eval_growth_four_le (h : s.Moderate) {x : ℝ} (hx : x ∈ Icc 0 1) :
    |(s.growth 4).eval x| ≤ 25 := by
  rw [eval_growth_four]
  have hproduct : x * (1 - x) ∈ Icc 0 (1 / 4) :=
    ⟨mul_nonneg hx.1 (sub_nonneg.mpr hx.2), by nlinarith [sq_nonneg (x - 1 / 2)]⟩
  have hp : |1 + s.gamma - s.alpha * x| ≤ 2 := by
    have hle := mul_le_one₀ h.alpha.2 hx.1 hx.2
    have hnonneg := mul_nonneg h.alpha.1 hx.1
    exact abs_le.mpr ⟨by linarith [h.gamma.1], by linarith [h.gamma.2]⟩
  have hq : |s.alpha * (x * (1 - x))| ≤ 1 / 4 := by
    rw [abs_of_nonneg (mul_nonneg h.alpha.1 hproduct.1)]
    exact (mul_le_of_le_one_left hproduct.1 h.alpha.2).trans hproduct.2
  have hslope : |1 - 2 * x| ≤ 1 := abs_le.mpr ⟨by linarith [hx.2], by linarith [hx.1]⟩
  have hbend : |1 - 6 * (x * (1 - x))| ≤ 1 :=
    abs_le.mpr ⟨by linarith [hproduct.2], by linarith [hproduct.1]⟩
  set p := 1 + s.gamma - s.alpha * x
  set q := s.alpha * (x * (1 - x))
  calc |p ^ 4 - 6 * p ^ 2 * q + 3 * q ^ 2 - 4 * p * (q * (1 - 2 * x)) -
        q * (1 - 6 * (x * (1 - x)))|
      ≤ |p ^ 4| + |6 * p ^ 2 * q| + |3 * q ^ 2| + |4 * p * (q * (1 - 2 * x))| +
          |q * (1 - 6 * (x * (1 - x)))| := by
        refine (abs_sub _ _).trans (add_le_add_left ?_ _)
        refine (abs_sub _ _).trans (add_le_add_left ?_ _)
        exact (abs_add_le _ _).trans (add_le_add_left (abs_sub _ _) _)
    _ = |p| ^ 4 + 6 * |p| ^ 2 * |q| + 3 * |q| ^ 2 + 4 * |p| * (|q| * |1 - 2 * x|) +
          |q| * |1 - 6 * (x * (1 - x))| := by
      simp only [abs_mul, abs_pow, Nat.abs_ofNat]
    _ ≤ 2 ^ 4 + 6 * 2 ^ 2 * (1 / 4) + 3 * (1 / 4) ^ 2 + 4 * 2 * (1 / 4 * 1) + 1 / 4 * 1 := by
      gcongr
    _ ≤ 25 := by norm_num

lemma abs_derivLogGain_four_le (h : s.Moderate) (u : ℝ) :
    |s.derivLogGain 4 u| ≤ 25 * s.logGain u := by
  rw [derivLogGain, abs_mul, abs_of_nonneg (logGain_nonneg h u)]
  exact mul_le_mul_of_nonneg_right (abs_eval_growth_four_le h (share_mem h.toProper u))
    (logGain_nonneg h u)

lemma logGain_monotone (h : s.Moderate) : Monotone s.logGain := by
  refine monotone_of_deriv_nonneg
    (fun u => (hasDerivAt_logGain h.toProper u).differentiableAt) fun u => ?_
  have hshare := share_mem h.toProper u
  have hle := mul_le_one₀ h.alpha.2 hshare.1 hshare.2
  rw [(hasDerivAt_logGain h.toProper u).deriv]
  exact mul_nonneg (by linarith [h.gamma.1]) (logGain_nonneg h u)

lemma logGain_add_le (h : s.Moderate) (ht : 0 ≤ t) (u : ℝ) :
    s.logGain (u + t) ≤ Real.exp (2 * t) * s.logGain u := by
  have hu := Real.exp_pos u
  have hle : Real.exp u ≤ Real.exp (u + t) := Real.exp_le_exp.mpr (by linarith)
  have hratio : Real.exp (u + t) / Real.exp u = Real.exp t := by
    rw [← Real.exp_sub]
    ring_nf
  have hgrowth := stepGain_le_of_le h hu hle
  rw [hratio] at hgrowth
  calc s.logGain (u + t) ≤ Real.exp t * s.stepGain (Real.exp u) * Real.exp (u + t) :=
        mul_le_mul_of_nonneg_right hgrowth (Real.exp_pos _).le
    _ = Real.exp (2 * t) * s.logGain u := by
      rw [logGain_eq, Real.exp_add, two_mul, Real.exp_add]
      ring

/-- The integral of the step gain is the integral of the logarithmic gain. -/
lemma integral_stepGain_eq (h : s.Proper) (hx : 0 < x) (hxy : x ≤ y) :
    ∫ k in x..y, s.stepGain k = ∫ u in (Real.log x)..(Real.log y), s.logGain u := by
  have hy : 0 < y := hx.trans_le hxy
  have hpositive : Real.exp '' uIcc (Real.log x) (Real.log y) ⊆ Ioi 0 := by
    rintro _ ⟨u, -, rfl⟩
    exact Real.exp_pos u
  have hcontinuous : ContinuousOn s.stepGain (Real.exp '' uIcc (Real.log x) (Real.log y)) :=
    fun k hk => (hasDerivAt_stepGain h (hpositive hk)).continuousAt.continuousWithinAt
  have hsubst := intervalIntegral.integral_comp_mul_deriv'
    (fun u _ => Real.hasDerivAt_exp u) Real.continuous_exp.continuousOn hcontinuous
  rw [Real.exp_log hx, Real.exp_log hy] at hsubst
  exact hsubst.symm

end Schedule

end PairedTuning
