import Mathlib
import PairedTuning.Proofs.Update.Defined

/-!
# The mean gain of a block

The mean step gain is a plain mean as long as every gain but one is summed by itself: the integral
over what is left of the block is empty then, and half of both its ends is the gain of the last
pair. So nothing changes where the integral sets in. If no gain is negative, no mean is.
-/

namespace PairedTuning

namespace Schedule

variable {s : Schedule ℝ} {k : ℝ}

/-- The sum of the step gains of the `n` pairs from `k` on. -/
noncomputable def totalGain (s : Schedule ℝ) (k : ℝ) (n : Nat) : ℝ :=
  ∑ j ∈ Finset.range n, s.stepGain (k + j)

/-- Over the real numbers a perturbation of size zero needs no case of its own. -/
lemma stepGain_eq (s : Schedule ℝ) (k : ℝ) : s.stepGain k = s.numerator k / s.size k := by
  by_cases hsize : s.size k = 0 <;> simp [stepGain, hsize]

/-- The gain that is sent along, times the size of the perturbation, is the step gain. -/
lemma gain_mul_size (h : s.Proper) (hk : 0 < k) : s.gain k * s.size k = s.stepGain k := by
  have hsize := (size_pos h hk).ne'
  rw [stepGain_eq, gain]
  field_simp

/-! ### Means -/

/-- Up to its last pair a block that is longer than `exactPairs` is summed one by one. -/
lemma meanStepGain_of_lt {n : Nat} (hn : exactPairs < n) :
    s.meanStepGain k n =
      (s.totalGain k exactPairs + (s.integral (k + exactPairs) (k + (n - 1 : Nat)) +
        1 / 2 * (s.stepGain (k + exactPairs) + s.stepGain (k + (n - 1 : Nat))))) / n := by
  have hzero : n ≠ 0 := (Nat.zero_le _).trans_lt hn |>.ne'
  have hhalf : (0.5 : ℝ) = 1 / 2 := by norm_num
  rw [meanStepGain, if_neg hzero, min_eq_right hn.le]
  simp only [if_pos hn, Scalar.sum_range_real, Scalar.ofNat_real, hhalf, totalGain]

lemma meanStepGain_of_le_exactPairs {n : Nat} (hzero : n ≠ 0) (hn : n ≤ exactPairs) :
    s.meanStepGain k n = s.totalGain k n / n := by
  rw [meanStepGain, if_neg hzero, min_eq_left hn]
  simp only [lt_irrefl, if_false, Scalar.sum_range_real, Scalar.ofNat_real, totalGain]

/-- The mean gain is the mean of the gains, up to one pair more than are summed one by one. -/
lemma meanStepGain_of_le {n : Nat} (hzero : n ≠ 0) (hn : n ≤ exactPairs + 1) :
    s.meanStepGain k n = s.totalGain k n / n := by
  rcases Nat.lt_or_ge exactPairs n with hlong | hshort
  · obtain rfl : n = exactPairs + 1 := by omega
    have hempty : s.integral (k + exactPairs) (k + exactPairs) = 0 := by
      rw [integral, if_pos le_rfl, Scalar.zero_real]
    rw [meanStepGain_of_lt hlong, Nat.add_sub_cancel, hempty, zero_add, totalGain, totalGain,
      Finset.sum_range_succ]
    ring
  · exact meanStepGain_of_le_exactPairs hzero hshort

/-! ### Signs -/

namespace Proper

variable (h : s.Proper) (ha : 0 ≤ s.a)

include h ha

lemma stepGain_nonneg (hk : 0 ≤ k) : 0 ≤ s.stepGain k := by
  have hsize : 0 ≤ s.size k := div_nonneg h.size.le (Real.rpow_nonneg hk s.gamma)
  have hnumerator : 0 ≤ s.numerator k :=
    div_nonneg ha (Real.rpow_nonneg (add_nonneg h.offset hk) s.alpha)
  rw [stepGain_eq]
  exact div_nonneg hnumerator hsize

lemma logGain_nonneg (u : ℝ) : 0 ≤ s.logGain u :=
  mul_nonneg (h.stepGain_nonneg ha (Real.exp_pos u).le) (Real.exp_pos u).le

lemma totalGain_nonneg (hk : 0 ≤ k) (n : Nat) : 0 ≤ s.totalGain k n :=
  Finset.sum_nonneg fun j _ => h.stepGain_nonneg ha (add_nonneg hk j.cast_nonneg)

/-- The weights of Simpson's rule are positive. -/
lemma integral_nonneg {lo : ℝ} (hlo : 0 < lo) (hi : ℝ) : 0 ≤ s.integral lo hi := by
  unfold integral
  split_ifs with hempty
  · exact Scalar.zero_real.ge
  · have hlog : Real.log lo ≤ Real.log hi := Real.log_le_log hlo (not_le.mp hempty).le
    have hstep : 0 ≤ (Scalar.log hi - Scalar.log lo) / (Scalar.ofNat tailIntervals : ℝ) :=
      div_nonneg (sub_nonneg.mpr hlog) (Nat.cast_nonneg _)
    have hweight (i : Nat) : (0 : ℝ) ≤ if i % 2 = 1 then 4 else 2 := by
      split_ifs <;> norm_num
    have hgain := h.logGain_nonneg ha
    simp only [Scalar.sum_range_real, Scalar.numeral_real]
    refine div_nonneg (mul_nonneg (add_nonneg (add_nonneg (hgain _) (hgain _)) ?_) hstep)
      zero_le_three
    exact Finset.sum_nonneg fun j _ => mul_nonneg (hweight _) (hgain _)

lemma meanStepGain_nonneg (hk : 0 < k) (n : Nat) : 0 ≤ s.meanStepGain k n := by
  rcases eq_or_ne n 0 with rfl | hzero
  · rw [meanStepGain, if_pos rfl, Scalar.zero_real]
  · rcases Nat.lt_or_ge exactPairs n with hlong | hshort
    · have hhead := h.totalGain_nonneg ha hk.le exactPairs
      have htail := h.integral_nonneg ha (add_pos_of_pos_of_nonneg hk exactPairs.cast_nonneg)
        (k + (n - 1 : Nat))
      have hfirst := h.stepGain_nonneg ha (add_nonneg hk.le exactPairs.cast_nonneg)
      have hlast := h.stepGain_nonneg ha (add_nonneg hk.le (n - 1).cast_nonneg)
      have hends := mul_nonneg (one_half_pos (α := ℝ)).le (add_nonneg hfirst hlast)
      rw [meanStepGain_of_lt hlong]
      exact div_nonneg (add_nonneg hhead (add_nonneg htail hends)) n.cast_nonneg
    · rw [meanStepGain_of_le_exactPairs hzero hshort]
      exact div_nonneg (h.totalGain_nonneg ha hk.le n) n.cast_nonneg

end Proper

end Schedule

end PairedTuning
