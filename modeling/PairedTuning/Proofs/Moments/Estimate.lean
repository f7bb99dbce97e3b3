import Mathlib
import PairedTuning.Moments
import PairedTuning.Proofs.Scalar.Real

/-!
# The estimate in exact arithmetic

What the running sums and the estimate are over the real numbers. The estimated second moment stays
in its range, whatever was reported: before the first report it is the one assumed, and from then on
it is clamped.
-/

namespace PairedTuning

namespace PairMoments

section

variable {α : Type} [Scalar α]

@[simp] lemma initial_add (m : PairMoments α) (n : Nat) (s : α) :
    (m.add n s).initial = m.initial := by
  by_cases hn : n = 0
  · simp [add, hn]
  · simp [add, hn]

@[simp] lemma initial_merge (m other : PairMoments α) : (m.merge other).initial = m.initial := by
  by_cases hother : other.reports ≤ 0
  · simp [merge, hother]
  · simp [merge, hother]

end

lemma add_of_ne_zero (m : PairMoments ℝ) {n : Nat} (hn : n ≠ 0) (s : ℝ) :
    m.add n s =
      ⟨m.reports + 1, m.pairs + n, m.signed + s, m.squaredPerPair + s * s / n, m.initial⟩ := by
  have hlarger : Scalar.larger (Scalar.ofNat n : ℝ) 1 = n := by
    rw [Scalar.larger_real]
    exact max_eq_left (by simpa using Nat.one_le_iff_ne_zero.mpr hn)
  rw [add, if_neg hn, Scalar.one_real, hlarger]
  rfl

lemma mean?_of_pos {m : PairMoments ℝ} (hpairs : 0 < m.pairs) :
    m.mean? = some (m.signed / m.pairs) := by
  rw [mean?, Scalar.zero_real, if_pos hpairs]

lemma variance?_of_pos {m : PairMoments ℝ} (hreports : 0 < m.reports) (hpairs : 0 < m.pairs) :
    m.variance? =
      let mean := m.signed / m.pairs
      some (max (m.squaredPerPair / m.reports - mean * mean * (m.pairs / m.reports)) 0) := by
  rw [variance?, mean?_of_pos hpairs, Scalar.zero_real, if_neg (not_le.mpr hreports),
    Option.map_some, Scalar.larger_real]

lemma estimate_of_pos {m : PairMoments ℝ} (hreports : 0 < m.reports) (hpairs : 0 < m.pairs) :
    m.estimate =
      let mean := m.signed / m.pairs
      let variance := m.squaredPerPair / m.reports - mean * mean * (m.pairs / m.reports)
      Scalar.clamp 1e-12 4 (mean * mean + max variance 0) := by
  rw [estimate, variance?_of_pos hreports hpairs, mean?_of_pos hpairs, Scalar.zero_real,
    if_neg (not_le.mpr hreports), Option.getD_some, Option.getD_some]
  rfl

/-- The range of second moments. -/
def range : Set ℝ := Set.Icc 1e-12 4

lemma estimate_mem {m : PairMoments ℝ} (h : m.initial ∈ range) : m.estimate ∈ range := by
  have hbounds : (leastEstimate : ℝ) ≤ greatestEstimate := by
    norm_num [leastEstimate, greatestEstimate]
  have hrange : Set.Icc (leastEstimate : ℝ) greatestEstimate = range := by
    simp [range, leastEstimate, greatestEstimate]
  unfold estimate
  split
  · exact h
  · rw [← hrange]
    exact Scalar.clamp_mem hbounds _

end PairMoments

end PairedTuning
