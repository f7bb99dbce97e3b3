import Mathlib
import PairedTuning.Proofs.Scalar.Real
import PairedTuning.Update.Rules

/-!
# The damping of a block

A block of Adam is folded in one step. It is damped as if the step of every pair were shorter by the
factor `q` than the step of the pair before, where `q` is the root of `beta2`: the damping is the
mean of the first `n` powers of `q`. While `q` is away from one, that mean is a ratio, and the
damping is the mean itself, but for its floor. Closer to one the program takes the first terms of a
series; how far it is off then follows from bounds of the sum of powers by its own first terms.
-/

namespace PairedTuning.Adam

/-- The mean decay over the `n` pairs of a block in which every pair decays by `q`. -/
noncomputable def meanDecay (q : ℝ) (n : Nat) : ℝ := (∑ j ∈ Finset.range n, q ^ j) / n

variable {q beta2 : ℝ} {n : Nat}

/-! ### Sums of powers

Every bound is that of one term less, put into the recursion of the sum. -/

lemma sum_pow_le (hq : q ∈ Set.Icc 0 1) (n : Nat) : ∑ j ∈ Finset.range n, q ^ j ≤ n := by
  have hterm : ∀ j ∈ Finset.range n, q ^ j ≤ 1 := fun j _ => pow_le_one₀ hq.1 hq.2
  simpa using Finset.sum_le_card_nsmul _ _ _ hterm

lemma le_sum_pow (hq : q ∈ Set.Icc 0 1) (n : Nat) :
    n - n * (n - 1) / 2 * (1 - q) ≤ ∑ j ∈ Finset.range n, q ^ j := by
  induction n with
  | zero => simp
  | succ n ih =>
    have hstep := mul_le_mul_of_nonneg_left (sum_pow_le hq n) (sub_nonneg.mpr hq.2)
    rw [geom_sum_succ]
    push_cast
    linarith

lemma sum_pow_le_quadratic (hq : q ∈ Set.Icc 0 1) (n : Nat) :
    ∑ j ∈ Finset.range n, q ^ j ≤
      n - n * (n - 1) / 2 * (1 - q) + n * (n - 1) * (n - 2) / 6 * (1 - q) ^ 2 := by
  induction n with
  | zero => simp
  | succ n ih =>
    have hstep := mul_le_mul_of_nonneg_left (le_sum_pow hq n) (sub_nonneg.mpr hq.2)
    rw [geom_sum_succ]
    push_cast
    linarith

/-! ### The mean decay -/

lemma mul_meanDecay (hn : n ≠ 0) : n * meanDecay q n = ∑ j ∈ Finset.range n, q ^ j :=
  mul_div_cancel₀ _ (Nat.cast_ne_zero.mpr hn)

@[simp] lemma meanDecay_one (q : ℝ) : meanDecay q 1 = 1 := by simp [meanDecay]

lemma meanDecay_pos (hq : 0 ≤ q) (hn : n ≠ 0) : 0 < meanDecay q n :=
  div_pos (geom_sum_pos hq hn) (Nat.cast_pos.mpr (Nat.pos_of_ne_zero hn))

lemma meanDecay_le_one (hq : q ∈ Set.Icc 0 1) (n : Nat) : meanDecay q n ≤ 1 :=
  div_le_one_of_le₀ (sum_pow_le hq n) n.cast_nonneg

lemma meanDecay_lt_one (hq : q ∈ Set.Ico 0 1) (hn : 1 < n) : meanDecay q n < 1 := by
  obtain ⟨m, rfl⟩ : ∃ m, n = m + 1 := ⟨n - 1, by omega⟩
  have hm : (0 : ℝ) < m := Nat.cast_pos.mpr (by omega)
  have hsum := mul_le_mul_of_nonneg_left (sum_pow_le (Set.Ico_subset_Icc_self hq) m) hq.1
  have hless : q * m < m := mul_lt_of_lt_one_left hm hq.2
  rw [meanDecay, geom_sum_succ, div_lt_one (by positivity)]
  push_cast
  linarith

/-- A further pair decays more than all pairs before it, so it lowers the mean. -/
lemma meanDecay_succ_le (hq : q ∈ Set.Icc 0 1) (hn : n ≠ 0) :
    meanDecay q (n + 1) ≤ meanDecay q n := by
  have hpairs : (0 : ℝ) < n := Nat.cast_pos.mpr (Nat.pos_of_ne_zero hn)
  have hterm : ∀ j ∈ Finset.range n, q ^ n ≤ q ^ j := fun j hj =>
    pow_le_pow_of_le_one hq.1 hq.2 (Finset.mem_range.mp hj).le
  have hlast : n * q ^ n ≤ ∑ j ∈ Finset.range n, q ^ j := by
    simpa using Finset.card_nsmul_le_sum _ _ _ hterm
  rw [meanDecay, meanDecay, Finset.sum_range_succ, div_le_div_iff₀ (by positivity) hpairs]
  push_cast
  linarith

/-- The ratio that the program computes is the mean. -/
lemma ratio_eq_meanDecay (hq : q ≠ 1) (n : Nat) :
    (1 - q ^ n) / (n * (1 - q)) = meanDecay q n := by
  have hne : 1 - q ≠ 0 := sub_ne_zero.mpr hq.symm
  rw [meanDecay, ← mul_neg_geom_sum q n, mul_comm (n : ℝ), mul_div_mul_left _ _ hne]

/-- The series that the program computes has the first terms of the mean. -/
lemma abs_series_sub_meanDecay_le (hq : q ∈ Set.Icc 0 1) (hn : n ≠ 0) :
    |1 - (n - 1) * 0.25 * (1 - q ^ 2) - meanDecay q n| ≤ (n * (1 - q)) ^ 2 / 4 := by
  have hpairs : (1 : ℝ) ≤ n := Nat.one_le_cast.mpr (Nat.one_le_iff_ne_zero.mpr hn)
  have hsquare : 0 ≤ (1 - q) ^ 2 := sq_nonneg _
  have hlower : 1 - (n - 1) / 2 * (1 - q) ≤ meanDecay q n := by
    rw [meanDecay, le_div_iff₀ (by linarith)]
    linarith [le_sum_pow hq n]
  have hupper : meanDecay q n ≤
      1 - (n - 1) / 2 * (1 - q) + (n - 1) * (n - 2) / 6 * (1 - q) ^ 2 := by
    rw [meanDecay, div_le_iff₀ (by linarith)]
    linarith [sum_pow_le_quadratic hq n]
  have hseries : 1 - (n - 1) * 0.25 * (1 - q ^ 2) =
      1 - (n - 1) / 2 * (1 - q) + (n - 1) / 4 * (1 - q) ^ 2 := by ring
  have hfirst : ((n : ℝ) - 1) / 4 * (1 - q) ^ 2 ≤ n ^ 2 / 4 * (1 - q) ^ 2 :=
    mul_le_mul_of_nonneg_right (by nlinarith) hsquare
  have hsecond : ((n : ℝ) - 1) * (n - 2) / 6 * (1 - q) ^ 2 ≤
      (n ^ 2 / 4 + (n - 1) / 4) * (1 - q) ^ 2 :=
    mul_le_mul_of_nonneg_right (by nlinarith) hsquare
  rw [hseries, mul_pow, abs_le]
  exact ⟨by linarith, by linarith⟩

/-! ### The damping -/

@[simp] lemma damping_of_le_one (hn : n ≤ 1) (beta2 : ℝ) : damping n beta2 = 1 := by
  rw [damping, if_pos (.inl hn), Scalar.one_real]

/-- The damping of a block of more than one pair, with the powers of the root. -/
lemma damping_of_one_lt (hbeta2 : beta2 ∈ Set.Ioo 0 1) (hn : 1 < n) :
    damping n beta2 = Scalar.clamp 1e-12 1 (if 1e-12 < 1 - √beta2 then
      (1 - √beta2 ^ n) / (n * (1 - √beta2)) else 1 - (n - 1) * 0.25 * (1 - √beta2 ^ 2)) := by
  have hroot : √beta2 ≤ 1 := Real.sqrt_le_one.mpr hbeta2.2.le
  have hpow : Scalar.pow beta2 (0.5 * n : ℝ) = √beta2 ^ n := by
    rw [Real.sqrt_eq_rpow, ← Real.rpow_natCast, ← Real.rpow_mul hbeta2.1.le]
    norm_num [Scalar.pow]
  have habs : Scalar.abs (1 - √beta2) = 1 - √beta2 := abs_of_nonneg (sub_nonneg.mpr hroot)
  have hproper : ¬ (n ≤ 1 ∨ ¬ (0 < beta2 ∧ beta2 < 1)) := by
    rintro (h | h)
    · omega
    · exact h hbeta2
  have hsquare : √beta2 ^ 2 = beta2 := Real.sq_sqrt hbeta2.1.le
  simp only [damping, Scalar.zero_real, Scalar.one_real, Scalar.ofNat_real, if_neg hproper, hpow,
    hsquare, seriesThreshold, show Scalar.sqrt beta2 = √beta2 from rfl, habs]

lemma damping_eq_max (hbeta2 : beta2 ∈ Set.Ioo 0 1) (hroot : 1e-12 < 1 - √beta2) (hn : n ≠ 0) :
    damping n beta2 = max 1e-12 (meanDecay (√beta2) n) := by
  have hq : √beta2 ∈ Set.Icc 0 1 := ⟨Real.sqrt_nonneg _, Real.sqrt_le_one.mpr hbeta2.2.le⟩
  rcases Nat.lt_or_ge 1 n with hlong | hshort
  · have hne : √beta2 ≠ 1 := fun h => by norm_num [h] at hroot
    rw [damping_of_one_lt hbeta2 hlong, if_pos hroot, ratio_eq_meanDecay hne,
      Scalar.clamp_eq_max (meanDecay_le_one hq n)]
  · obtain rfl : n = 1 := by omega
    rw [damping_of_le_one le_rfl, meanDecay_one]
    norm_num

/-- A clamp moves a value no further away from one within the bounds, but for the floor. -/
lemma abs_clamp_sub_le {lo hi x y : ℝ} (hlo : 0 ≤ lo) (hy : y ∈ Set.Icc 0 hi) :
    |Scalar.clamp lo hi x - y| ≤ |x - y| + lo := by
  have hdistance := abs_le.mp (le_refl |x - y|)
  rw [abs_le, Scalar.clamp]
  split_ifs with hlow hhigh
  · exact ⟨by linarith, by linarith [hy.1, abs_nonneg (x - y)]⟩
  · exact ⟨by linarith [hy.2, abs_nonneg (x - y)], by linarith⟩
  · exact ⟨by linarith, by linarith⟩

lemma abs_damping_sub_le (hbeta2 : beta2 ∈ Set.Ioo 0 1) (hroot : 1 - √beta2 ≤ 1e-12) (hn : n ≠ 0) :
    |damping n beta2 - meanDecay (√beta2) n| ≤ (n * (1 - √beta2)) ^ 2 / 4 + 1e-12 := by
  have hq : √beta2 ∈ Set.Icc 0 1 := ⟨Real.sqrt_nonneg _, Real.sqrt_le_one.mpr hbeta2.2.le⟩
  rcases Nat.lt_or_ge 1 n with hlong | hshort
  · have hmean : meanDecay (√beta2) n ∈ Set.Icc 0 1 :=
      ⟨(meanDecay_pos hq.1 hn).le, meanDecay_le_one hq n⟩
    rw [damping_of_one_lt hbeta2 hlong, if_neg (not_lt.mpr hroot)]
    exact (abs_clamp_sub_le (by norm_num) hmean).trans
      (add_le_add_left (abs_series_sub_meanDecay_le hq hn) _)
  · obtain rfl : n = 1 := by omega
    rw [damping_of_le_one le_rfl, meanDecay_one, sub_self, abs_zero]
    positivity

/-- The damping of a block is the mean decay of its pairs, but for a floor of `1e-12`, as long as
the root of `beta2` is not that close to one. So it is positive and at most one, which it is only
for a single pair; it never grows with the block, and the number of pairs that the block counts for
never shrinks. For a root next to one the damping is off by a term of second order. -/
theorem damping_eq_mean_decay (hbeta2 : beta2 ∈ Set.Ioo 0 1) :
    (1e-12 < 1 - √beta2 →
      (∀ n, 1 ≤ n → damping n beta2 = max 1e-12 (meanDecay (√beta2) n) ∧
        damping n beta2 ∈ Set.Ioc 0 1 ∧ (damping n beta2 = 1 ↔ n = 1)) ∧
      Antitone (fun n => damping n beta2) ∧ Monotone (fun n : Nat => n * damping n beta2)) ∧
    (1 - √beta2 ≤ 1e-12 → ∀ n, 1 ≤ n →
      |damping n beta2 - meanDecay (√beta2) n| ≤ (n * (1 - √beta2)) ^ 2 / 4 + 1e-12) := by
  have hq : √beta2 ∈ Set.Ico 0 1 :=
    ⟨Real.sqrt_nonneg _, (Real.sqrt_lt' one_pos).mpr (by simpa using hbeta2.2)⟩
  have hq' := Set.Ico_subset_Icc_self hq
  have hfloor : (1e-12 : ℝ) < 1 := by norm_num
  refine ⟨fun hroot => ?_, fun hroot n hn => abs_damping_sub_le hbeta2 hroot (by omega)⟩
  have hmax {n : Nat} (hn : n ≠ 0) := damping_eq_max hbeta2 hroot hn
  refine ⟨fun n hn => ⟨hmax (by omega), ?_, ?_⟩, ?_, ?_⟩
  · rw [hmax (by omega)]
    exact ⟨lt_max_of_lt_left (by norm_num), max_le hfloor.le (meanDecay_le_one hq' n)⟩
  · constructor
    · intro h
      by_contra hne
      have hless := max_lt hfloor (meanDecay_lt_one hq (show 1 < n by omega))
      rw [← hmax (by omega), h] at hless
      exact lt_irrefl _ hless
    · rintro rfl
      exact damping_of_le_one le_rfl _
  · refine antitone_nat_of_succ_le fun n => ?_
    rcases eq_or_ne n 0 with rfl | hn
    · simp
    · rw [hmax hn, hmax (Nat.succ_ne_zero n)]
      exact max_le_max_left _ (meanDecay_succ_le hq' hn)
  · refine monotone_nat_of_le_succ fun n => ?_
    rcases eq_or_ne n 0 with rfl | hn
    · simp
    · -- Times the number of pairs the mean is a sum, which a further pair adds to.
      have hsum : n * meanDecay (√beta2) n ≤ (n + 1 : Nat) * meanDecay (√beta2) (n + 1) := by
        rw [mul_meanDecay hn, mul_meanDecay (Nat.succ_ne_zero n), Finset.sum_range_succ]
        exact le_add_of_nonneg_right (pow_nonneg hq.1 n)
      rw [hmax hn, hmax (Nat.succ_ne_zero n), mul_max_of_nonneg _ _ n.cast_nonneg,
        mul_max_of_nonneg _ _ (n + 1).cast_nonneg]
      refine max_le_max ?_ hsum
      push_cast
      linarith

/-- Two pairs with a root of one half decay by three quarters. A root of `1 - 1e-13` is too close to
one for the ratio. -/
theorem damping_eq_mean_decay_small :
    1 / 4 ∈ Set.Ioo (0 : ℝ) 1 ∧ 1e-12 < 1 - √(1 / 4 : ℝ) ∧ damping 2 (1 / 4 : ℝ) = 3 / 4 ∧
      (1 - 1e-13) ^ 2 ∈ Set.Ioo (0 : ℝ) 1 ∧ 1 - √((1 - 1e-13) ^ 2 : ℝ) ≤ 1e-12 ∧
      |damping 100 ((1 - 1e-13) ^ 2 : ℝ) - meanDecay (1 - 1e-13) 100| ≤ 2e-12 := by
  have hfar : 1 / 4 ∈ Set.Ioo (0 : ℝ) 1 := by norm_num
  have hhalf : √(1 / 4 : ℝ) = 1 / 2 := by
    rw [show (1 / 4 : ℝ) = (1 / 2) ^ 2 by norm_num, Real.sqrt_sq (by norm_num)]
  have hnear : (1 - 1e-13) ^ 2 ∈ Set.Ioo (0 : ℝ) 1 := by norm_num
  have hroot : √((1 - 1e-13) ^ 2 : ℝ) = 1 - 1e-13 := Real.sqrt_sq (by norm_num)
  have hratio : 1e-12 < 1 - √(1 / 4 : ℝ) := by
    rw [hhalf]
    norm_num
  have hseries : 1 - √((1 - 1e-13) ^ 2 : ℝ) ≤ 1e-12 := by
    rw [hroot]
    norm_num
  refine ⟨hfar, hratio, ?_, hnear, hseries, ?_⟩
  · rw [(((damping_eq_mean_decay hfar).1 hratio).1 2 one_le_two).1, hhalf]
    norm_num [meanDecay, Finset.sum_range_succ]
  · have hoff := (damping_eq_mean_decay hnear).2 hseries 100 (by norm_num)
    rw [hroot] at hoff
    exact hoff.trans (by norm_num)

end PairedTuning.Adam
