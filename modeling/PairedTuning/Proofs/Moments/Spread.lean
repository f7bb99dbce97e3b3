import Mathlib
import PairedTuning.Proofs.Moments.Prior

/-!
# The spread of reports

The estimated variance comes out of a difference of running sums, and is cut off at zero. In exact
arithmetic the cut never happens: up to the number of reports, the difference is the squared
distance of the reports from the common mean, each report with its own mean and the weight of its
pairs. This spread adds up over reports and priors, and none of them has less than zero.
-/

namespace PairedTuning

namespace PairMoments

/-- The squared distances of the means of the reports from a value, each with the weight of the
pairs of its report; a prior has the variances of its own reports on top. -/
def spread (m : PairMoments ℝ) (x : ℝ) : ℝ :=
  m.squaredPerPair - x * m.signed - x * (m.signed - x * m.pairs)

lemma spread_plus (m d : PairMoments ℝ) (x : ℝ) :
    (m.plus d).spread x = m.spread x + d.spread x := by
  simp only [spread, plus]
  ring

lemma spread_collect (initial : ℝ) (cs : List (Contribution ℝ)) (x : ℝ) :
    ((empty initial).collect cs).spread x = (cs.map fun c => c.amounts.spread x).sum :=
  collect_eq_sum (f := fun m => m.spread x) (fun m d => spread_plus m d x) initial cs

/-- What is left of the squared sums when the mean is taken out is the spread about the mean. -/
lemma spread_mean {m : PairMoments ℝ} (hpairs : 0 < m.pairs) :
    m.spread (m.signed / m.pairs) = m.squaredPerPair - m.signed ^ 2 / m.pairs := by
  rw [spread]
  field_simp
  ring

/-- The spread is least about the mean. -/
lemma spread_eq_add {m : PairMoments ℝ} (hpairs : 0 < m.pairs) (x : ℝ) :
    m.spread x = m.spread (m.signed / m.pairs) + m.pairs * (m.signed / m.pairs - x) ^ 2 := by
  rw [spread_mean hpairs, spread]
  field_simp
  ring

/-- The estimated variance, before it is cut off, is the spread about the mean per report. -/
lemma variance_eq_spread {m : PairMoments ℝ} (hpairs : 0 < m.pairs) :
    m.squaredPerPair / m.reports - m.signed / m.pairs * (m.signed / m.pairs) *
        (m.pairs / m.reports) = m.spread (m.signed / m.pairs) / m.reports := by
  rw [spread_mean hpairs]
  field_simp

/-- A spread that is not negative is not cut off. -/
lemma variance?_eq_spread {m : PairMoments ℝ} (hreports : 0 < m.reports) (hpairs : 0 < m.pairs)
    (hspread : 0 ≤ m.spread (m.signed / m.pairs)) :
    m.variance? = some (m.spread (m.signed / m.pairs) / m.reports) := by
  rw [variance?_of_pos hreports hpairs]
  dsimp only
  rw [variance_eq_spread hpairs, max_eq_left (div_nonneg hspread hreports.le)]

end PairMoments

/-! ### One contribution -/

namespace Contribution

/-- A report with pairs, or a prior with a weight. -/
def Genuine : Contribution ℝ → Prop
  | block pairs _ => pairs ≠ 0
  | group sums => ∃ prior : MomentPrior ℝ, prior.Proper ∧ sums = .ofPrior prior

lemma spread_block {n : Nat} (hn : n ≠ 0) (s x : ℝ) :
    (block n s).amounts.spread x = n * (s / n - x) ^ 2 := by
  have hn' : (n : ℝ) ≠ 0 := Nat.cast_ne_zero.mpr hn
  rw [amounts, if_neg hn, PairMoments.spread]
  field_simp

lemma spread_prior {prior : MomentPrior ℝ} (h : prior.Proper) (x : ℝ) :
    (group (.ofPrior prior)).amounts.spread x =
      prior.reports * (prior.distribution.variance +
        prior.pairsPerReport * (prior.distribution.mean - x) ^ 2) := by
  rw [h.amounts_eq, h.ofPrior_eq, PairMoments.spread]
  ring

namespace Genuine

variable {c : Contribution ℝ}

lemma amounts_pos (h : c.Genuine) : 0 < c.amounts.reports ∧ 0 < c.amounts.pairs := by
  cases c with
  | block n s =>
    have hn : n ≠ 0 := h
    rw [amounts, if_neg hn]
    exact ⟨one_pos, Nat.cast_pos.mpr (Nat.pos_of_ne_zero hn)⟩
  | group sums =>
    obtain ⟨prior, hprior, rfl⟩ := h
    rw [hprior.amounts_eq, hprior.ofPrior_eq]
    exact ⟨hprior.reports, mul_pos hprior.reports hprior.pairsPerReport⟩

lemma spread_nonneg (h : c.Genuine) (x : ℝ) : 0 ≤ c.amounts.spread x := by
  cases c with
  | block n s =>
    rw [spread_block h]
    positivity
  | group sums =>
    obtain ⟨prior, hprior, rfl⟩ := h
    have hvariance := hprior.distribution.variance_nonneg
    have hreports := hprior.reports
    have hpairs := hprior.pairsPerReport
    rw [spread_prior hprior]
    positivity

end Genuine

end Contribution

/-! ### Many contributions -/

namespace PairMoments

section

variable {cs : List (Contribution ℝ)} (h : ∀ c ∈ cs, c.Genuine) (initial : ℝ)

include h

lemma collect_genuine_pos (hne : cs ≠ []) :
    0 < ((empty initial).collect cs).reports ∧ 0 < ((empty initial).collect cs).pairs :=
  collect_pos hne (fun c hc => (h c hc).amounts_pos) initial

lemma spread_collect_nonneg (x : ℝ) : 0 ≤ ((empty initial).collect cs).spread x := by
  rw [spread_collect]
  exact List.sum_nonneg (List.forall_mem_map.mpr fun c hc => (h c hc).spread_nonneg x)

/-- The inequality of Cauchy and Schwarz for the running sums. -/
lemma sq_signed_le :
    ((empty initial).collect cs).signed ^ 2 ≤
      ((empty initial).collect cs).pairs * ((empty initial).collect cs).squaredPerPair := by
  rcases eq_or_ne cs [] with rfl | hne
  · simp [empty]
  · obtain ⟨-, hpairs⟩ := collect_genuine_pos h initial hne
    have hspread := spread_collect_nonneg h initial
      (((empty initial).collect cs).signed / ((empty initial).collect cs).pairs)
    rw [spread_mean hpairs, sub_nonneg, div_le_iff₀ hpairs] at hspread
    rwa [mul_comm]

end

/-- Reports have no spread about a value exactly if it is the mean of each of them. -/
lemma spread_blocks_eq_zero_iff {blocks : List (ℕ × ℝ)} (hpairs : ∀ b ∈ blocks, b.1 ≠ 0)
    (initial x : ℝ) :
    ((empty initial).collect (blocks.map fun b => .block b.1 b.2)).spread x = 0 ↔
      ∀ b ∈ blocks, b.2 / b.1 = x := by
  have hblock : ∀ b ∈ blocks, ((b.1 : ℝ) * (b.2 / b.1 - x) ^ 2 = 0 ↔ b.2 / b.1 = x) := by
    intro b hb
    have hb' : (b.1 : ℝ) ≠ 0 := Nat.cast_ne_zero.mpr (hpairs b hb)
    rw [mul_eq_zero_iff_left hb', sq_eq_zero_iff, sub_eq_zero]
  have hspread : ((empty initial).collect (blocks.map fun b => .block b.1 b.2)).spread x =
      (blocks.map fun b => (b.1 : ℝ) * (b.2 / b.1 - x) ^ 2).sum := by
    rw [spread_collect, List.map_map]
    exact congrArg List.sum (List.map_congr_left fun b hb =>
      Contribution.spread_block (hpairs b hb) b.2 x)
  rw [hspread]
  constructor
  · intro hzero b hb
    refine (hblock b hb).mp (List.all_zero_of_le_zero_le_of_sum_eq_zero ?_ hzero
      (List.mem_map_of_mem hb))
    exact List.forall_mem_map.mpr fun b _ => by positivity
  · intro hall
    exact List.sum_eq_zero (List.forall_mem_map.mpr fun b hb => (hblock b hb).mpr (hall b hb))

/-- The estimated variance is never cut off: whatever reports and priors come, the running sums obey
the inequality of Cauchy and Schwarz, so the difference of which the variance is taken is not
negative, and the second moment is estimated from it as it is. Reports alone have no variance
exactly if they all have the same mean. -/
theorem variance_never_cut_off (initial : ℝ) :
    (∀ cs : List (Contribution ℝ), (∀ c ∈ cs, c.Genuine) →
      let m := (empty initial).collect cs
      m.signed ^ 2 ≤ m.pairs * m.squaredPerPair ∧
      (cs = [] → m.mean? = none ∧ m.variance? = none ∧ m.estimate = initial) ∧
      (cs ≠ [] →
        let mean := m.signed / m.pairs
        let variance := m.squaredPerPair / m.reports - mean * mean * (m.pairs / m.reports)
        0 ≤ variance ∧ m.mean? = some mean ∧ m.variance? = some variance ∧
          m.estimate = Scalar.clamp 1e-12 4 (mean * mean + variance))) ∧
    ∀ blocks : List (ℕ × ℝ), blocks ≠ [] → (∀ b ∈ blocks, b.1 ≠ 0) →
      (((empty initial).collect (blocks.map fun b => .block b.1 b.2)).variance? = some 0 ↔
        ∃ mean, ∀ b ∈ blocks, b.2 / b.1 = mean) := by
  constructor
  · intro cs h m
    refine ⟨sq_signed_le h initial, ?_, fun hne => ?_⟩
    · rintro rfl
      simp [m, empty, mean?, variance?, estimate]
    · obtain ⟨hreports, hpairs⟩ := collect_genuine_pos h initial hne
      have hspread := spread_collect_nonneg h initial (m.signed / m.pairs)
      intro mean variance
      have hvariance : variance = m.spread mean / m.reports := variance_eq_spread hpairs
      have hnonneg : 0 ≤ variance := hvariance ▸ div_nonneg hspread hreports.le
      refine ⟨hnonneg, mean?_of_pos hpairs, ?_, ?_⟩
      · rw [variance?_eq_spread hreports hpairs hspread, hvariance]
      · have hmax : max variance 0 = variance := max_eq_left hnonneg
        rw [estimate_of_pos hreports hpairs]
        exact congrArg (fun x => Scalar.clamp 1e-12 4 (mean * mean + x)) hmax
  · intro blocks hne hblocks
    have hgenuine : ∀ c ∈ blocks.map fun b => Contribution.block b.1 b.2, c.Genuine :=
      List.forall_mem_map.mpr hblocks
    obtain ⟨hreports, hpairs⟩ := collect_genuine_pos hgenuine initial (by simpa using hne)
    set m := (empty initial).collect (blocks.map fun b => .block b.1 b.2)
    have hmean : 0 ≤ m.spread (m.signed / m.pairs) := spread_collect_nonneg hgenuine initial _
    rw [variance?_eq_spread hreports hpairs hmean, Option.some.injEq, div_eq_zero_iff,
      or_iff_left hreports.ne']
    constructor
    · intro h
      exact ⟨_, (spread_blocks_eq_zero_iff hblocks initial _).mp h⟩
    · rintro ⟨x, hx⟩
      have hspread := spread_eq_add (m := m) hpairs x
      rw [(spread_blocks_eq_zero_iff hblocks initial x).mpr hx] at hspread
      have hdistance : 0 ≤ m.pairs * (m.signed / m.pairs - x) ^ 2 := by positivity
      linarith

/-- Two reports and a prior between them, two reports with the same mean, and two with different
ones. -/
theorem variance_never_cut_off_small :
    let prior : MomentPrior ℝ := ⟨⟨0, 0, 1 / 2, 0, 1 / 2⟩, 1, 3⟩
    let mixed : List (Contribution ℝ) := [.block 2 3, .group (.ofPrior prior), .block 4 (-5)]
    let m := (empty 1).collect mixed
    (∀ c ∈ mixed, c.Genuine) ∧ mixed ≠ [] ∧ m.signed ^ 2 ≤ m.pairs * m.squaredPerPair ∧
      (∃ variance, 0 ≤ variance ∧ m.variance? = some variance) ∧
      ((empty (1 : ℝ)).collect [.block 2 3, .block 4 6]).variance? = some 0 ∧
      ((empty (1 : ℝ)).collect [.block 2 3, .block 4 (-5)]).variance? ≠ some 0 := by
  intro prior mixed m
  have hprior : prior.Proper := by
    refine ⟨⟨?_, ?_⟩, ?_, ?_⟩ <;> norm_num [prior, Pentanomial.toList]
  have hmixed : ∀ c ∈ mixed, c.Genuine := by
    simp only [mixed, List.forall_mem_cons]
    exact ⟨two_ne_zero, ⟨prior, hprior, rfl⟩, four_ne_zero, List.forall_mem_nil _⟩
  obtain ⟨hcontributions, hblocks⟩ := variance_never_cut_off 1
  obtain ⟨hsquares, -, hne⟩ := hcontributions mixed hmixed
  obtain ⟨hnonneg, -, hvariance, -⟩ := hne (by simp [mixed])
  have hsame := hblocks [(2, 3), (4, 6)] (by simp) (by simp)
  have hdifferent := hblocks [(2, 3), (4, -5)] (by simp) (by simp)
  refine ⟨hmixed, by simp [mixed], hsquares, ⟨_, hnonneg, hvariance⟩, hsame.mpr ⟨3 / 2, ?_⟩,
    hdifferent.not.mpr ?_⟩
  · norm_num
  · rintro ⟨mean, hmean⟩
    norm_num at hmean
    linarith

end PairMoments

end PairedTuning
