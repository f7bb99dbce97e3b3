import Mathlib
import PairedTuning.Scalar

/-!
# Exact arithmetic

The real numbers as scalars. Over them the formulas of the program are exact, every value is finite,
`==` is equality, and counters have no bound.
-/

namespace PairedTuning

namespace Scalar

noncomputable instance : Scalar ℝ where
  decLt := fun x y => inferInstanceAs (Decidable (x < y))
  decLe := fun x y => inferInstanceAs (Decidable (x ≤ y))
  ofNat n := n
  pow x y := x ^ y
  exp := Real.exp
  log := Real.log
  sqrt := Real.sqrt
  abs x := |x|
  isFinite _ := true
  counterModulus := 0

/-! ### Numerals -/

@[simp] lemma ofNat_real (n : Nat) : (Scalar.ofNat n : ℝ) = n := rfl

@[simp] lemma zero_real : @OfNat.ofNat ℝ 0 (instOfNat 0) = 0 := Nat.cast_zero

@[simp] lemma one_real : @OfNat.ofNat ℝ 1 (instOfNat 1) = 1 := Nat.cast_one

@[simp] lemma numeral_real (n : Nat) [n.AtLeastTwo] :
    @OfNat.ofNat ℝ n (instOfNat n) = OfNat.ofNat n := rfl

/-! ### Clamping -/

lemma clamp_of_mem {lo hi x : ℝ} (h : x ∈ Set.Icc lo hi) : clamp lo hi x = x := by
  rw [clamp, if_neg (not_lt.mpr h.1), if_neg (not_lt.mpr h.2)]

lemma clamp_of_lt {lo hi x : ℝ} (h : x < lo) : clamp lo hi x = lo := by
  rw [clamp, if_pos h]

lemma clamp_of_gt {lo hi x : ℝ} (hbounds : lo ≤ hi) (h : hi < x) : clamp lo hi x = hi := by
  rw [clamp, if_neg (not_lt.mpr (hbounds.trans h.le)), if_pos h]

lemma clamp_mem {lo hi : ℝ} (hbounds : lo ≤ hi) (x : ℝ) : clamp lo hi x ∈ Set.Icc lo hi := by
  rcases lt_or_ge x lo with hlt | hge
  · rw [clamp_of_lt hlt]
    exact ⟨le_rfl, hbounds⟩
  · rcases lt_or_ge hi x with hgt | hle
    · rw [clamp_of_gt hbounds hgt]
      exact ⟨hbounds, le_rfl⟩
    · rw [clamp_of_mem ⟨hge, hle⟩]
      exact ⟨hge, hle⟩

lemma le_clamp {lo hi x y : ℝ} (hx : x ∈ Set.Icc lo hi) (hxy : x ≤ y) : x ≤ clamp lo hi y := by
  rw [clamp, if_neg (not_lt.mpr (hx.1.trans hxy))]
  split_ifs
  · exact hx.2
  · exact hxy

lemma clamp_le {lo hi x y : ℝ} (hx : x ∈ Set.Icc lo hi) (hyx : y ≤ x) : clamp lo hi y ≤ x := by
  unfold clamp
  split_ifs with hlo hhi
  · exact hx.1
  · exact hhi.le.trans hyx
  · exact hyx

lemma clamp_le_clamp {lo hi x y : ℝ} (hbounds : lo ≤ hi) (h : x ≤ y) :
    clamp lo hi x ≤ clamp lo hi y := by
  rcases lt_or_ge x lo with hlt | hge
  · rw [clamp_of_lt hlt]
    exact (clamp_mem hbounds y).1
  · rcases lt_or_ge hi x with hgt | hle
    · rw [clamp_of_gt hbounds hgt, clamp_of_gt hbounds (hgt.trans_le h)]
    · rw [clamp_of_mem ⟨hge, hle⟩]
      exact le_clamp ⟨hge, hle⟩ h

lemma clamp_eq_max {lo hi x : ℝ} (hx : x ≤ hi) : clamp lo hi x = max lo x := by
  rcases lt_or_ge x lo with hlt | hge
  · rw [clamp_of_lt hlt, max_eq_left hlt.le]
  · rw [clamp_of_mem ⟨hge, hx⟩, max_eq_right hge]

/-! ### The larger of two -/

lemma larger_real (x y : ℝ) : larger x y = max x y := by
  unfold larger
  rw [if_pos le_rfl]
  rcases lt_or_ge y x with h | h
  · rw [if_pos h, max_eq_left h.le]
  · rw [if_neg (not_lt.mpr h), max_eq_right h]

/-! ### Sums -/

lemma sum_real (xs : List ℝ) : sum xs = xs.sum := by
  simp [sum, List.sum_eq_foldl]

lemma sum_range_real (f : ℕ → ℝ) (n : ℕ) :
    sum ((List.range n).map f) = ∑ j ∈ Finset.range n, f j := by
  rw [sum_real]
  rfl

/-! ### Counters -/

@[simp] lemma count_real (n : Nat) : count ℝ n = n := Nat.mod_zero n

end Scalar

end PairedTuning
