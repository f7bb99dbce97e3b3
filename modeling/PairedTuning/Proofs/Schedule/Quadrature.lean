import Mathlib

/-!
# Quadrature

The error of Simpson's rule for integrands that are known through their derivatives. What is wanted
is an error relative to the integral: the integrand may grow by many orders of magnitude over the
whole interval, but not by much within a panel, so each panel is compared with its own part of the
integral. The trapezoidal rule is used on panels of width one.
-/

namespace PairedTuning

namespace Quadrature

open Set

/-! ### Growth -/

/-- A function that starts at zero is bounded by the integral of a bound for its derivative. -/
lemma abs_le_of_abs_deriv_le {φ φ' : ℝ → ℝ} {c h : ℝ} {n : ℕ}
    (hderiv : ∀ t ∈ Icc 0 h, HasDerivAt φ (φ' t) t) (hzero : φ 0 = 0)
    (hbound : ∀ t ∈ Icc 0 h, |φ' t| ≤ c * t ^ n) :
    ∀ t ∈ Icc 0 h, |φ t| ≤ c / (n + 1) * t ^ (n + 1) := by
  have hpow (t : ℝ) : HasDerivAt (fun t => c / (n + 1) * t ^ (n + 1)) (c * t ^ n) t := by
    refine ((hasDerivAt_pow (n + 1) t).const_mul (c / (n + 1))).congr_deriv ?_
    push_cast
    field_simp
  intro t ht
  exact image_norm_le_of_norm_deriv_right_le_deriv_boundary
    (fun t ht => (hderiv t ht).continuousAt.continuousWithinAt)
    (fun t ht => (hderiv t (Ico_subset_Icc_self ht)).hasDerivWithinAt) (by simp [hzero]) hpow
    (fun t ht => hbound t (Ico_subset_Icc_self ht)) ht

section

variable {g g' : ℝ → ℝ} (h : ∀ u, HasDerivAt g (g' u) u) (m t : ℝ)

include h

lemma hasDerivAt_sub_sides :
    HasDerivAt (fun t => g (m + t) - g (m - t)) (g' (m + t) + g' (m - t)) t := by
  refine ((h (m + t)).comp_const_add m t |>.sub ((h (m - t)).comp_const_sub m t)).congr_deriv ?_
  ring

lemma hasDerivAt_add_sides :
    HasDerivAt (fun t => g (m + t) + g (m - t)) (g' (m + t) - g' (m - t)) t := by
  refine ((h (m + t)).comp_const_add m t |>.add ((h (m - t)).comp_const_sub m t)).congr_deriv ?_
  ring

end

/-! ### Simpson's rule on a panel -/

/-- The rule on the panel of half width `h` around `m` in which both ends have the weight `p` and
the middle has the weight `q`. Simpson's rule has the weights `1 / 3` and `4 / 3`. -/
noncomputable def panelRule (p q : ℝ) (f : ℝ → ℝ) (m h : ℝ) : ℝ :=
  h * (p * (f (m - h) + f (m + h)) + q * f m)

/-- The error of a rule on a panel. -/
noncomputable def panelError (p q : ℝ) (f : ℝ → ℝ) (m h : ℝ) : ℝ :=
  (∫ u in (m - h)..(m + h), f u) - panelRule p q f m h

/-- Every function is the derivative of the one before. -/
def Derivatives (f : ℕ → ℝ → ℝ) : Prop := ∀ n u, HasDerivAt (f n) (f (n + 1) u) u

namespace Derivatives

variable {f : ℕ → ℝ → ℝ} (hf : Derivatives f)

include hf

lemma continuous : Continuous (f 0) :=
  continuous_iff_continuousAt.mpr fun u => (hf 0 u).continuousAt

lemma hasDerivAt_integral (m t : ℝ) :
    HasDerivAt (fun t => ∫ u in (m - t)..(m + t), f 0 u) (f 0 (m + t) + f 0 (m - t)) t := by
  have hprimitive (u : ℝ) : HasDerivAt (fun u => ∫ v in (0 : ℝ)..u, f 0 v) (f 0 u) u :=
    (hf.continuous.integral_hasStrictDerivAt 0 u).hasDerivAt
  refine (hasDerivAt_sub_sides hprimitive m t).congr_of_eventuallyEq (.of_forall fun t => ?_)
  exact (intervalIntegral.integral_interval_sub_left (hf.continuous.intervalIntegrable _ _)
    (hf.continuous.intervalIntegrable _ _)).symm

/-- How the error of Simpson's rule changes with the width of the panel. -/
lemma hasDerivAt_simpsonError (m t : ℝ) :
    HasDerivAt (panelError (1 / 3) (4 / 3) (f 0) m)
      (2 / 3 * (f 0 (m + t) + f 0 (m - t)) - 4 / 3 * f 0 m -
        t / 3 * (f 1 (m + t) - f 1 (m - t))) t := by
  have hends := (hasDerivAt_add_sides (hf 0) m t).const_mul (1 / 3)
  have hrule := (hasDerivAt_id t).mul (hends.add_const (4 / 3 * f 0 m))
  refine ((hf.hasDerivAt_integral m t).sub hrule).congr_deriv ?_ |>.congr_of_eventuallyEq ?_
  · simp only [id]
    ring
  · refine .of_forall fun t => ?_
    simp only [panelError, panelRule, Pi.sub_apply, Pi.mul_apply, id]
    ring

lemma hasDerivAt_simpsonError₁ (m t : ℝ) :
    HasDerivAt (fun t => 2 / 3 * (f 0 (m + t) + f 0 (m - t)) - 4 / 3 * f 0 m -
        t / 3 * (f 1 (m + t) - f 1 (m - t)))
      ((f 1 (m + t) - f 1 (m - t)) / 3 - t / 3 * (f 2 (m + t) + f 2 (m - t))) t := by
  have hends := ((hasDerivAt_add_sides (hf 0) m t).const_mul (2 / 3)).sub_const (4 / 3 * f 0 m)
  have hslopes := ((hasDerivAt_id t).div_const 3).mul (hasDerivAt_sub_sides (hf 1) m t)
  refine (hends.sub hslopes).congr_deriv ?_
  simp only [id]
  ring

/-- With the weights of Simpson's rule the lower derivatives cancel. -/
lemma hasDerivAt_simpsonError₂ (m t : ℝ) :
    HasDerivAt (fun t => (f 1 (m + t) - f 1 (m - t)) / 3 - t / 3 * (f 2 (m + t) + f 2 (m - t)))
      (-(t / 3) * (f 3 (m + t) - f 3 (m - t))) t := by
  have hslopes := (hasDerivAt_sub_sides (hf 1) m t).div_const 3
  have hcurves := ((hasDerivAt_id t).div_const 3).mul (hasDerivAt_add_sides (hf 2) m t)
  refine (hslopes.sub hcurves).congr_deriv ?_
  simp only [id]
  ring

/-- The error of Simpson's rule is of the fifth order in the width of the panel. -/
lemma abs_simpsonError_le {m h M : ℝ} (hh : 0 ≤ h)
    (hM : ∀ u ∈ Icc (m - h) (m + h), |f 4 u| ≤ M) :
    |panelError (1 / 3) (4 / 3) (f 0) m h| ≤ M * h ^ 5 / 90 := by
  have hthird : ∀ t ∈ Icc 0 h,
      |f 3 (m + t) - f 3 (m - t)| ≤ 2 * M / ((0 : ℕ) + 1) * t ^ (0 + 1) := by
    refine abs_le_of_abs_deriv_le (fun t _ => hasDerivAt_sub_sides (hf 3) m t) (by simp) ?_
    intro t ht
    have hright := hM (m + t) ⟨by linarith [ht.1], by linarith [ht.2]⟩
    have hleft := hM (m - t) ⟨by linarith [ht.2], by linarith [ht.1]⟩
    calc |f 4 (m + t) + f 4 (m - t)| ≤ |f 4 (m + t)| + |f 4 (m - t)| := abs_add_le _ _
      _ ≤ 2 * M * t ^ 0 := by linarith
  have hsecond : ∀ t ∈ Icc 0 h,
      |(f 1 (m + t) - f 1 (m - t)) / 3 - t / 3 * (f 2 (m + t) + f 2 (m - t))| ≤
        2 * M / 3 / ((2 : ℕ) + 1) * t ^ (2 + 1) := by
    refine abs_le_of_abs_deriv_le (fun t _ => hf.hasDerivAt_simpsonError₂ m t) (by simp) ?_
    intro t ht
    have ht0 : 0 ≤ t / 3 := by linarith [ht.1]
    calc |-(t / 3) * (f 3 (m + t) - f 3 (m - t))| = t / 3 * |f 3 (m + t) - f 3 (m - t)| := by
          rw [abs_mul, abs_neg, abs_of_nonneg ht0]
      _ ≤ t / 3 * (2 * M / ((0 : ℕ) + 1) * t ^ (0 + 1)) :=
        mul_le_mul_of_nonneg_left (hthird t ht) ht0
      _ = 2 * M / 3 * t ^ 2 := by
        push_cast
        ring
  have hfirst := abs_le_of_abs_deriv_le (fun t _ => hf.hasDerivAt_simpsonError₁ m t)
    (by ring_nf) hsecond
  have herror := abs_le_of_abs_deriv_le (fun t _ => hf.hasDerivAt_simpsonError m t)
    (by simp [panelError, panelRule]) hfirst h ⟨hh, le_rfl⟩
  refine herror.trans_eq ?_
  push_cast
  ring

/-- If the integrand grows by a factor of at most `K` over a panel, and its fourth derivative is at
most `B` times the integrand, then the error is a fraction of the integral over the panel. -/
lemma abs_simpsonError_le_integral {B K m h : ℝ} (hh : 0 ≤ h) (hB : 0 ≤ B)
    (hmono : Monotone (f 0)) (hfourth : ∀ u, |f 4 u| ≤ B * f 0 u)
    (hgrowth : f 0 (m + h) ≤ K * f 0 (m - h)) (hK : 0 ≤ K) :
    |panelError (1 / 3) (4 / 3) (f 0) m h| ≤
      B * K * h ^ 4 / 180 * ∫ u in (m - h)..(m + h), f 0 u := by
  have hM : ∀ u ∈ Icc (m - h) (m + h), |f 4 u| ≤ B * (K * f 0 (m - h)) := by
    intro u hu
    calc |f 4 u| ≤ B * f 0 u := hfourth u
      _ ≤ B * f 0 (m + h) := mul_le_mul_of_nonneg_left (hmono hu.2) hB
      _ ≤ B * (K * f 0 (m - h)) := mul_le_mul_of_nonneg_left hgrowth hB
  have harea : 2 * h * f 0 (m - h) ≤ ∫ u in (m - h)..(m + h), f 0 u := by
    have hle : m - h ≤ m + h := by linarith
    calc 2 * h * f 0 (m - h) = ∫ _ in (m - h)..(m + h), f 0 (m - h) := by
          rw [intervalIntegral.integral_const, smul_eq_mul]
          ring
      _ ≤ ∫ u in (m - h)..(m + h), f 0 u :=
        intervalIntegral.integral_mono_on hle intervalIntegrable_const
          (hf.continuous.intervalIntegrable _ _) fun u hu => hmono hu.1
  calc |panelError (1 / 3) (4 / 3) (f 0) m h| ≤ B * (K * f 0 (m - h)) * h ^ 5 / 90 :=
        hf.abs_simpsonError_le hh hM
    _ = B * K * h ^ 4 / 180 * (2 * h * f 0 (m - h)) := by ring
    _ ≤ B * K * h ^ 4 / 180 * ∫ u in (m - h)..(m + h), f 0 u :=
      mul_le_mul_of_nonneg_left harea (by positivity)

/-! ### Simpson's rule on many panels -/

/-- On any number of panels from `lo` on, the error is the same fraction of the integral. -/
lemma abs_sum_simpson_sub_integral_le {B K h : ℝ} (hh : 0 ≤ h) (hB : 0 ≤ B) (hK : 0 ≤ K)
    (hmono : Monotone (f 0)) (hfourth : ∀ u, |f 4 u| ≤ B * f 0 u)
    (hgrowth : ∀ u, f 0 (u + 2 * h) ≤ K * f 0 u) (lo : ℝ) (n : ℕ) :
    |∑ i ∈ Finset.range n, panelRule (1 / 3) (4 / 3) (f 0) (lo + (2 * i + 1) * h) h -
        ∫ u in lo..(lo + 2 * n * h), f 0 u| ≤
      B * K * h ^ 4 / 180 * ∫ u in lo..(lo + 2 * n * h), f 0 u := by
  have hpanels : ∑ i ∈ Finset.range n,
      ∫ u in (lo + (2 * i + 1) * h - h)..(lo + (2 * i + 1) * h + h), f 0 u =
        ∫ u in lo..(lo + 2 * n * h), f 0 u := by
    have hsum : ∑ i ∈ Finset.range n,
        ∫ u in (lo + 2 * (i : ℕ) * h)..(lo + 2 * (i + 1 : ℕ) * h), f 0 u =
          ∫ u in (lo + 2 * (0 : ℕ) * h)..(lo + 2 * (n : ℕ) * h), f 0 u :=
      intervalIntegral.sum_integral_adjacent_intervals
        (a := fun i : ℕ => lo + 2 * i * h) fun _ _ => hf.continuous.intervalIntegrable _ _
    simp only [Nat.cast_zero, mul_zero, zero_mul, add_zero] at hsum
    rw [← hsum]
    refine Finset.sum_congr rfl fun i _ => ?_
    congr 1
    · ring
    · push_cast
      ring
  have hpanel (i : ℕ) : |panelError (1 / 3) (4 / 3) (f 0) (lo + (2 * i + 1) * h) h| ≤
      B * K * h ^ 4 / 180 *
        ∫ u in (lo + (2 * i + 1) * h - h)..(lo + (2 * i + 1) * h + h), f 0 u := by
    refine hf.abs_simpsonError_le_integral hh hB hmono hfourth ?_ hK
    have hpanelGrowth := hgrowth (lo + (2 * i + 1) * h - h)
    rwa [show lo + (2 * i + 1) * h - h + 2 * h = lo + (2 * i + 1) * h + h by ring] at hpanelGrowth
  rw [← hpanels, ← Finset.sum_sub_distrib, Finset.mul_sum]
  refine (Finset.abs_sum_le_sum_abs _ _).trans (Finset.sum_le_sum fun i _ => ?_)
  rw [abs_sub_comm]
  exact hpanel i

end Derivatives

/-- The usual form of Simpson's rule: both ends count once, the middles of the panels four times,
and the points between two panels twice. -/
lemma sum_simpson_eq (f : ℝ → ℝ) (lo h : ℝ) {n : ℕ} (hn : n ≠ 0) :
    ∑ i ∈ Finset.range n, panelRule (1 / 3) (4 / 3) f (lo + (2 * i + 1) * h) h =
      (f lo + f (lo + 2 * n * h) + ∑ j ∈ Finset.range (2 * n - 1),
        (if (j + 1) % 2 = 1 then 4 else 2) * f (lo + (j + 1 : ℕ) * h)) * h / 3 := by
  induction n, Nat.one_le_iff_ne_zero.mpr hn using Nat.le_induction with
  | base =>
    simp only [panelRule, Finset.sum_range_one, Nat.cast_one, Nat.cast_zero, mul_zero, mul_one,
      Nat.add_one_sub_one, zero_add, Nat.one_mod, if_true]
    ring_nf
  | succ n hn ih =>
    have hodd : (2 * n - 1 + 1) % 2 = 0 := by omega
    have heven : (2 * n - 1 + 1 + 1) % 2 = 1 := by omega
    have hlast : 2 * n - 1 + 1 = 2 * n := by omega
    rw [Finset.sum_range_succ, ih (by omega), show 2 * (n + 1) - 1 = 2 * n - 1 + 1 + 1 by omega,
      Finset.sum_range_succ _ (2 * n - 1 + 1), Finset.sum_range_succ _ (2 * n - 1), hodd, heven,
      hlast, if_neg zero_ne_one, if_pos rfl, panelRule]
    push_cast
    ring_nf

/-! ### The trapezoidal rule -/

/-- The trapezoidal rule on a panel of width one. -/
lemma abs_trapezoid_sub_integral_le {g g₁ g₂ : ℝ → ℝ} {x M : ℝ}
    (hfirst : ∀ y ∈ Icc x (x + 1), HasDerivAt g (g₁ y) y)
    (hsecond : ∀ y ∈ Icc x (x + 1), HasDerivAt g₁ (g₂ y) y)
    (hM : ∀ y ∈ Icc x (x + 1), |g₂ y| ≤ M) :
    |1 / 2 * (g x + g (x + 1)) - ∫ y in x..(x + 1), g y| ≤ M / 12 := by
  have hlt : x < x + 1 := lt_add_one x
  have hunique := uniqueDiffOn_Icc hlt
  have hderiv : ∀ y ∈ Icc x (x + 1), derivWithin g (Icc x (x + 1)) y = g₁ y := fun y hy =>
    (hfirst y hy).hasDerivWithinAt.derivWithin (hunique y hy)
  have hsecondWithin : ∀ y ∈ Icc x (x + 1),
      HasDerivWithinAt (derivWithin g (Icc x (x + 1))) (g₂ y) (Icc x (x + 1)) y := fun y hy =>
    (hsecond y hy).hasDerivWithinAt.congr hderiv (hderiv y hy)
  have hbound (y : ℝ) : |iteratedDerivWithin 2 g (Icc x (x + 1)) y| ≤ M := by
    rw [iteratedDerivWithin_succ, iteratedDerivWithin_one]
    by_cases hy : y ∈ Icc x (x + 1)
    · rw [(hsecondWithin y hy).derivWithin (hunique y hy)]
      exact hM y hy
    · rw [derivWithin_zero_of_notMem_closure (by rwa [isClosed_Icc.closure_eq]), abs_zero]
      exact (abs_nonneg _).trans (hM x ⟨le_rfl, hlt.le⟩)
  have herror := trapezoidal_error_le (f := g) (a := x) (b := x + 1) (N := 1) (ζ := M)
    (by
      rw [uIcc_of_le hlt.le]
      exact fun y hy => (hfirst y hy).differentiableAt.differentiableWithinAt)
    (by
      rw [uIcc_of_le hlt.le]
      exact fun y hy => (hsecondWithin y hy).differentiableWithinAt)
    (by rwa [uIcc_of_le hlt.le]) one_pos
  simpa [trapezoidal_error] using herror

end Quadrature

end PairedTuning
