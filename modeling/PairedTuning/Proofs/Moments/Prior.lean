import Mathlib
import PairedTuning.Proofs.Definition.Build
import PairedTuning.Proofs.Moments.Summary

/-!
# Priors

A prior is a distribution of the outcome of a pair, with the weight of some reports. It enters the
running sums as if those reports had come: their mean and their variance are those of the
distribution, and a sum of `n` outcomes has `n` times the variance of one. The estimator takes this
apart again, so it answers with the moments of the distribution. The weight does not show in the
answers; it only says how firmly they resist the reports that follow.
-/

namespace PairedTuning

/-! ### Distributions -/

namespace Pentanomial

/-- The expected value of a function of the outcome. -/
noncomputable def expect (p : Pentanomial ℝ) (f : ℝ → ℝ) : ℝ :=
  (p.toList.zipWith (fun probability x => probability * f x) outcomes).sum

/-- The probabilities are not negative and sum to one. -/
structure Proper (p : Pentanomial ℝ) : Prop where
  nonneg : ∀ probability ∈ p.toList, 0 ≤ probability
  sum : p.toList.sum = 1

lemma expect_eq (p : Pentanomial ℝ) (f : ℝ → ℝ) :
    p.expect f = p.minusTwo * f (-2) + p.minusOne * f (-1) + p.zero * f 0 + p.plusOne * f 1 +
      p.plusTwo * f 2 := by
  simp [expect, toList, outcomes, add_assoc]

lemma mean_eq_expect (p : Pentanomial ℝ) : p.mean = p.expect id :=
  Scalar.sum_real _

lemma secondMoment_eq_expect (p : Pentanomial ℝ) : p.secondMoment = p.expect (· ^ 2) := by
  simp only [secondMoment, Scalar.sum_real, expect, mul_assoc, sq]

namespace Proper

variable {p : Pentanomial ℝ} (h : p.Proper)

include h

lemma expect_const (c : ℝ) : p.expect (fun _ => c) = c := by
  have hsum := h.sum
  simp only [toList, List.sum_cons, List.sum_nil] at hsum
  rw [expect_eq]
  linear_combination c * hsum

lemma expect_mono {f g : ℝ → ℝ} (hfg : ∀ x ∈ outcomes, f x ≤ g x) : p.expect f ≤ p.expect g := by
  have hnonneg := h.nonneg
  simp only [toList, outcomes, Scalar.zero_real, Scalar.one_real, Scalar.numeral_real,
    List.forall_mem_cons] at hnonneg hfg
  obtain ⟨hp₀, hp₁, hp₂, hp₃, hp₄, -⟩ := hnonneg
  obtain ⟨h₀, h₁, h₂, h₃, h₄, -⟩ := hfg
  rw [expect_eq, expect_eq]
  gcongr

lemma expect_sq_nonneg (f : ℝ → ℝ) : 0 ≤ p.expect fun x => f x ^ 2 := by
  rw [← h.expect_const 0]
  exact h.expect_mono fun x _ => sq_nonneg (f x)

/-- The expected squared distance from the mean is what the second moment has on top of the square
of the mean. -/
lemma variance_eq_expect : p.variance = p.expect fun x => (x - p.mean) ^ 2 := by
  have hsum := h.sum
  simp only [toList, List.sum_cons, List.sum_nil] at hsum
  rw [variance, secondMoment_eq_expect, mean_eq_expect]
  simp only [expect_eq, id]
  set μ := p.minusTwo * -2 + p.minusOne * -1 + p.zero * 0 + p.plusOne * 1 + p.plusTwo * 2 with hμ
  linear_combination (-μ ^ 2) * hsum + 2 * μ * hμ

lemma variance_nonneg : 0 ≤ p.variance := by
  rw [h.variance_eq_expect]
  exact h.expect_sq_nonneg _

/-- No outcome exceeds two. -/
lemma secondMoment_le : p.secondMoment ≤ 4 := by
  rw [secondMoment_eq_expect, ← h.expect_const 4]
  refine h.expect_mono fun x hx => ?_
  simp only [outcomes, Scalar.zero_real, Scalar.one_real, Scalar.numeral_real, List.mem_cons,
    List.not_mem_nil, or_false] at hx
  rcases hx with rfl | rfl | rfl | rfl | rfl <;> norm_num

end Proper

end Pentanomial

/-! ### The sums of a prior -/

/-- A prior that is a distribution and has a weight. -/
structure MomentPrior.Proper (prior : MomentPrior ℝ) : Prop where
  distribution : prior.distribution.Proper
  reports : 0 < prior.reports
  pairsPerReport : 0 < prior.pairsPerReport

namespace MomentPrior.Proper

variable {prior : MomentPrior ℝ} (h : prior.Proper)

include h

lemma ofPrior_eq :
    PairMoments.ofPrior prior =
      let μ := prior.distribution.mean
      ⟨prior.reports, prior.reports * prior.pairsPerReport,
        prior.reports * prior.pairsPerReport * μ,
        prior.reports * (prior.distribution.variance + prior.pairsPerReport * μ * μ),
        prior.distribution.secondMoment⟩ := by
  have hweight : ¬ (prior.reports ≤ 0 ∨ prior.pairsPerReport ≤ 0) :=
    not_or.mpr ⟨not_le.mpr h.reports, not_le.mpr h.pairsPerReport⟩
  rw [PairMoments.ofPrior, Scalar.zero_real, if_neg hweight]
  rfl

lemma amounts_eq : (Contribution.group (.ofPrior prior)).amounts = .ofPrior prior := by
  have hreports : ¬ (PairMoments.ofPrior prior).reports ≤ 0 := by
    rw [h.ofPrior_eq]
    exact not_le.mpr h.reports
  rw [Contribution.amounts, if_neg hreports]

lemma check_eq_ok : prior.check = .ok () := by
  have hsum : Scalar.sum prior.distribution.toList = 1 :=
    (Scalar.sum_real _).trans h.distribution.sum
  have hnonneg : prior.distribution.toList.all fun x => decide (0 ≤ x) := by
    rw [List.all_eq_true]
    intro x hx
    simpa using h.distribution.nonneg x hx
  have htotal : Setting.priorDistribution.check (1 : ℝ) = .ok () := by
    rw [Setting.check_eq_ok_iff]
    simp only [Setting.requirement, Requirement.admits, Scalar.abs, Scalar.one_real, sub_self]
    norm_num
  simp only [check, Scalar.zero_real, if_pos hnonneg, hsum, bind_eq_ok_iff]
  refine ⟨(), htotal, (), ?_, ?_⟩
  · rw [Setting.check_eq_ok_iff]
    simpa [Setting.requirement, Requirement.admits] using h.reports.le
  · rw [Setting.check_eq_ok_iff]
    simpa [Setting.requirement, Requirement.admits] using h.pairsPerReport.le

end MomentPrior.Proper

/-- A prior that passes its check changes nothing of a new run but its sums. -/
lemma Definition.build_withPrior {prior : MomentPrior ℝ} (h : prior.check = .ok ())
    (read : String → Option ℝ) (defaults : HyperDefaults ℝ) (d : Definition ℝ) :
    ({ d with prior := some prior } : Definition ℝ).build read defaults =
      (({ d with prior := none } : Definition ℝ).build read defaults).map fun state =>
        { state with
          moments := (PairMoments.empty defaults.initialMoment).merge (.ofPrior prior) } := by
  simp only [build, checkPrior, h, checkGames, moments]
  cases defaults.check d.family with
  | error e => rfl
  | ok _ =>
    by_cases hgames : d.games / 2 = 0
    · simp only [if_pos hgames]
      rfl
    · simp only [if_neg hgames]
      cases ParamLine.ofText read d.text with
      | error e => rfl
      | ok lines =>
        simp only [bind, Except.bind]
        cases lines.mapM fun p => p.toParameter
            (defaults.optimizer d.family d.gain (Scalar.ofNat (d.games / 2)))
            (Scalar.ofNat (d.games / 2)) with
        | error e => rfl
        | ok params => rfl

/-! ### Recovery -/

namespace PairMoments

/-- The estimator answers with the moments of a distribution. -/
structure Recovers (m : PairMoments ℝ) (p : Pentanomial ℝ) : Prop where
  mean : m.mean? = some (p.expect id)
  variance : m.variance? = some (p.expect fun x => (x - p.expect id) ^ 2)
  estimate : m.estimate = max 1e-12 (p.expect (· ^ 2))

variable {p : Pentanomial ℝ}

/-- The estimator recovers a distribution from sums of reports that have its mean and variance. -/
lemma recovers_of_sums (hp : p.Proper) {m : PairMoments ℝ} (hreports : 0 < m.reports)
    (hpairs : 0 < m.pairs) (hsigned : m.signed = m.pairs * p.mean)
    (hsquared : m.squaredPerPair = m.reports * p.variance + m.pairs * (p.mean * p.mean)) :
    m.Recovers p := by
  have hmean : m.signed / m.pairs = p.mean := by
    rw [hsigned, mul_div_cancel_left₀ _ hpairs.ne']
  have hvariance : m.squaredPerPair / m.reports - p.mean * p.mean * (m.pairs / m.reports) =
      p.variance := by
    rw [hsquared]
    field_simp
    ring
  have hsecond : p.mean * p.mean + p.variance = p.secondMoment := add_sub_cancel _ _
  refine ⟨?_, ?_, ?_⟩
  · rw [mean?_of_pos hpairs, hmean, p.mean_eq_expect]
  · rw [variance?_of_pos hreports hpairs, hmean]
    dsimp only
    rw [hvariance, max_eq_left hp.variance_nonneg, ← p.mean_eq_expect, hp.variance_eq_expect]
  · rw [estimate_of_pos hreports hpairs, hmean]
    dsimp only
    rw [hvariance, max_eq_left hp.variance_nonneg, hsecond, Scalar.clamp_eq_max hp.secondMoment_le,
      p.secondMoment_eq_expect]

/-- Priors with the same distribution, whatever their weights, add up to sums that have its mean and
variance. -/
lemma recovers_collect (hp : p.Proper) (initial : ℝ) (priors : List (MomentPrior ℝ))
    (hne : priors ≠ []) (hpriors : ∀ prior ∈ priors, prior.Proper ∧ prior.distribution = p) :
    ((empty initial).collect (priors.map fun prior => .group (.ofPrior prior))).Recovers p := by
  have hamounts : ∀ c ∈ priors.map fun prior => Contribution.group (ofPrior prior),
      (0 < c.amounts.reports ∧ 0 < c.amounts.pairs) ∧
        c.amounts.signed - c.amounts.pairs * p.mean = 0 ∧
        c.amounts.squaredPerPair - (c.amounts.reports * p.variance +
          c.amounts.pairs * (p.mean * p.mean)) = 0 := by
    rw [List.forall_mem_map]
    intro prior hprior
    obtain ⟨h, rfl⟩ := hpriors prior hprior
    rw [h.amounts_eq, h.ofPrior_eq]
    exact ⟨⟨h.reports, mul_pos h.reports h.pairsPerReport⟩, sub_self _, by ring⟩
  set cs := priors.map fun prior => Contribution.group (ofPrior prior)
  obtain ⟨hreports, hpairs⟩ :=
    collect_pos (by simpa [cs] using hne) (fun c hc => (hamounts c hc).1) initial
  have hsigned : ((empty initial).collect cs).signed - ((empty initial).collect cs).pairs * p.mean =
      0 := by
    rw [collect_eq_sum (f := fun m => m.signed - m.pairs * p.mean)
      fun m d => by simp only [plus]; ring]
    exact List.sum_eq_zero (List.forall_mem_map.mpr fun c hc => (hamounts c hc).2.1)
  have hsquared : ((empty initial).collect cs).squaredPerPair -
      (((empty initial).collect cs).reports * p.variance +
        ((empty initial).collect cs).pairs * (p.mean * p.mean)) = 0 := by
    rw [collect_eq_sum
      (f := fun m => m.squaredPerPair - (m.reports * p.variance + m.pairs * (p.mean * p.mean)))
      fun m d => by simp only [plus]; ring]
    exact List.sum_eq_zero (List.forall_mem_map.mpr fun c hc => (hamounts c hc).2.2)
  exact recovers_of_sums hp hreports hpairs (sub_eq_zero.mp hsigned) (sub_eq_zero.mp hsquared)

/-- Whatever second moment is assumed before the first report, and whatever weights they have: sums
that are merged with priors for a distribution, once or more often, give back its mean, its variance
and its second moment. So a run whose definition has such a prior is built as it would be without,
and starts from the second moment of the distribution. -/
theorem prior_recovered (hp : p.Proper) :
    (∀ (initial : ℝ) (priors : List (MomentPrior ℝ)), priors ≠ [] →
      (∀ prior ∈ priors,
        prior.distribution = p ∧ 0 < prior.reports ∧ 0 < prior.pairsPerReport) →
      ((empty initial).collect (priors.map fun prior => .group (.ofPrior prior))).Recovers p) ∧
    ∀ (read : String → Option ℝ) (defaults : HyperDefaults ℝ) (d : Definition ℝ)
      (prior : MomentPrior ℝ),
      prior.distribution = p → 0 < prior.reports → 0 < prior.pairsPerReport →
      let m := (empty defaults.initialMoment).merge (.ofPrior prior)
      m.Recovers p ∧
        ({ d with prior := some prior } : Definition ℝ).build read defaults =
          (({ d with prior := none } : Definition ℝ).build read defaults).map fun state =>
            { state with moments := m } := by
  constructor
  · intro initial priors hne hpriors
    refine recovers_collect hp initial priors hne fun prior hprior => ?_
    obtain ⟨rfl, hreports, hpairs⟩ := hpriors prior hprior
    exact ⟨⟨hp, hreports, hpairs⟩, rfl⟩
  · rintro read defaults d prior rfl hreports hpairs
    have hprior : prior.Proper := ⟨hp, hreports, hpairs⟩
    refine ⟨?_, Definition.build_withPrior hprior.check_eq_ok read defaults d⟩
    exact recovers_collect hp defaults.initialMoment [prior] (by simp) (by simp [hprior])

/-- A distribution of draws and double wins, with a light prior and a heavy one. -/
theorem prior_recovered_small :
    let p : Pentanomial ℝ := ⟨0, 0, 1 / 2, 0, 1 / 2⟩
    let light : MomentPrior ℝ := ⟨p, 1, 3⟩
    let heavy : MomentPrior ℝ := ⟨p, 10, 16⟩
    let both := ((empty 3).merge (.ofPrior light)).merge (.ofPrior heavy)
    let optimizer := HyperDefaults.standard.optimizer .scheduleFreeSgd .blockMean (10 : ℝ)
    let alone := (empty HyperDefaults.standard.initialMoment).merge (.ofPrior heavy)
    p.Proper ∧ (0 < light.reports ∧ 0 < light.pairsPerReport) ∧
      (0 < heavy.reports ∧ 0 < heavy.pairsPerReport) ∧
      both.mean? = some 1 ∧ both.variance? = some 1 ∧ both.estimate = 2 ∧ alone.estimate = 2 ∧
      ({ Definition.small .scheduleFreeSgd with prior := some heavy } : Definition ℝ).build readNat
        .standard = .ok { TuningState.small optimizer with moments := alone } := by
  intro p light heavy both optimizer alone
  have hp : p.Proper := by
    constructor <;> norm_num [p, Pentanomial.toList]
  have hlight : 0 < light.reports ∧ 0 < light.pairsPerReport := by norm_num [light]
  have hheavy : 0 < heavy.reports ∧ 0 < heavy.pairsPerReport := by norm_num [heavy]
  have hmean : p.expect id = 1 := by norm_num [Pentanomial.expect_eq, p]
  have hvariance : p.expect (fun x => (x - p.expect id) ^ 2) = 1 := by
    norm_num [hmean, Pentanomial.expect_eq, p]
  have hsecond : max 1e-12 (p.expect (· ^ 2)) = 2 := by norm_num [Pentanomial.expect_eq, p]
  obtain ⟨hcollect, hbuild⟩ := prior_recovered hp
  have hboth : both.Recovers p :=
    hcollect 3 [light, heavy] (by simp) (by simp [hlight, hheavy, light, heavy])
  obtain ⟨halone, hbuild⟩ :=
    hbuild readNat .standard (.small .scheduleFreeSgd) heavy rfl hheavy.1 hheavy.2
  have hsmall : ({ Definition.small .scheduleFreeSgd with prior := none } : Definition ℝ).build
      readNat .standard = .ok (.small optimizer) := Definition.build_small rfl
  refine ⟨hp, hlight, hheavy, hboth.mean.trans (by rw [hmean]),
    hboth.variance.trans (by rw [hvariance]), hboth.estimate.trans hsecond,
    halone.estimate.trans hsecond, ?_⟩
  rw [hbuild, hsmall]
  rfl

end PairMoments

end PairedTuning
