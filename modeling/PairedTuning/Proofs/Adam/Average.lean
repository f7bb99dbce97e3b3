import Mathlib
import PairedTuning.Proofs.Adam.Normalisation
import PairedTuning.Proofs.Adam.SecondMoment
import PairedTuning.Proofs.Update.Average

/-!
# The average of Adam

Schedule-free Adam shows the mean of the fast iterates that its reports have left, each counted with
the pairs of its report. The mean is not stored, and neither are the iterates: a report mixes its
own iterate into the average by its share of the mass, and `theta` and `z` determine the average as
long as no clamp has moved a value.

What carries the proof is the average times the number of pairs, the sum of the iterates so far
(`CarriesMean`). The first report has a share of one, so nothing of the start value is left in it.
-/

namespace PairedTuning

/-- The fast iterate that a report has left, and the number of its pairs. -/
structure Iterate where
  pairs : Nat
  z : ℝ

namespace Iterate

def totalPairs (rs : List Iterate) : Nat := (rs.map (·.pairs)).sum

/-- The sum of the iterates, each as often as it has pairs. -/
def weightedSum (rs : List Iterate) : ℝ := (rs.map fun r => (r.pairs : ℝ) * r.z).sum

/-- The mean of the iterates, each counted with its pairs. -/
noncomputable def mean (rs : List Iterate) : ℝ := weightedSum rs / totalPairs rs

/-- The mean of the iterates is within the bounds of a parameter, and so is its blend with the last
of them. -/
structure MeanInBounds (beta : ℝ) (p : Parameter ℝ) (rs : List Iterate) : Prop where
  mean : Iterate.mean rs ∈ Set.Icc p.low p.high
  blend : ∀ r ∈ rs.getLast?, (1 - beta) * r.z + beta * Iterate.mean rs ∈ Set.Icc p.low p.high

@[simp] lemma totalPairs_append_singleton (rs : List Iterate) (r : Iterate) :
    totalPairs (rs ++ [r]) = totalPairs rs + r.pairs := by
  simp [totalPairs]

@[simp] lemma weightedSum_append_singleton (rs : List Iterate) (r : Iterate) :
    weightedSum (rs ++ [r]) = weightedSum rs + r.pairs * r.z := by
  simp [weightedSum]

end Iterate

/-! ### One report -/

/-- The share of a report in the mass is that of its pairs in all pairs. -/
lemma Mass.share_advance {lr : ℝ} (hlr : 0 < lr) (total : Nat) {n : Nat} (hn : n ≠ 0) :
    (Mass.advance (lr * total) n lr).share = n / (total + n) := by
  have hpairs : (0 : ℝ) < n := Nat.cast_pos.mpr (Nat.pos_of_ne_zero hn)
  have hmass : 0 < lr * total + lr * n := by positivity
  have htotal : (total : ℝ) + n ≠ 0 := by positivity
  simp only [advance, Scalar.ofNat_real, Scalar.zero_real, if_pos hmass]
  rw [← mul_add, mul_div_mul_left _ _ hlr.ne']

namespace Parameter

variable {p : Parameter ℝ} {lr beta : ℝ}

/-- Let the average stand for the mean of `total` pairs. After a report, if no clamp moves a value,
the average that is shown, and that the next report recovers, is the mean of the pairs with those of
the report. -/
lemma adamStep_mean {total n : Nat} {sum mean beta2 eps : ℝ} (hsum : total * p.average beta = sum)
    (hlr : 0 < lr) (hbeta : beta ≠ 0) (hn : n ≠ 0) {nudge : Nudge ℝ} {s mu2 : ℝ} {steps : Nat}
    {u : ParamUpdate ℝ} (hu : u = p.adamStep nudge n s ⟨lr, beta, beta2, eps⟩
      (Mass.advance (lr * total) n lr) mu2 steps)
    (hmean : mean = (sum + n * u.z) / (total + n)) (hmem : mean ∈ Set.Icc p.low p.high)
    (htheta : (1 - beta) * u.z + beta * mean ∈ Set.Icc p.low p.high) :
    u.display = mean ∧ u.theta = (1 - beta) * u.z + beta * mean ∧
      (p.store u).average beta = mean := by
  have hpairs : (total : ℝ) + n ≠ 0 := by
    exact_mod_cast (by omega : total + n ≠ 0)
  have hmix : (1 - (Mass.advance (lr * total) n lr).share) * p.average beta +
      (Mass.advance (lr * total) n lr).share * u.z = mean := by
    rw [hmean, Mass.share_advance hlr total hn, ← hsum]
    field_simp
    ring
  have hdisplay : u.display = mean := by
    have hclamp : u.display = p.clamp ((1 - (Mass.advance (lr * total) n lr).share) *
        p.average beta + (Mass.advance (lr * total) n lr).share * u.z) := by
      simp [hu, adamStep, hbeta]
    rw [hclamp, hmix]
    exact Scalar.clamp_of_mem hmem
  have hexports : (p.store u).Exports beta mean := by
    rw [← hdisplay, hu]
    exact adamStep_exports (hmem.1.trans hmem.2) hbeta ..
  refine ⟨hdisplay, ?_, hexports.average_eq_of_mem hbeta htheta⟩
  exact hexports.theta.trans (Scalar.clamp_of_mem htheta)

end Parameter

namespace TuningState

/-! ### Whole runs -/

/-- The fast iterate of the parameter at an index, zero if there is none. -/
def iterateAt (t : TuningState ℝ) (i : Nat) : ℝ := (t.params[i]?.map (·.z)).getD 0

/-- The iterates that the blocks of a run leave of the parameter at an index. -/
noncomputable def iterates (i : Nat) : TuningState ℝ → List (Block ℝ) → List Iterate
  | _, [] => []
  | t, b :: blocks =>
    ⟨b.pairs, (t.foldBlock b).1.iterateAt i⟩ :: iterates i (t.foldBlock b).1 blocks

lemma iterates_append_singleton (i : Nat) (t : TuningState ℝ) (blocks : List (Block ℝ))
    (b : Block ℝ) :
    iterates i t (blocks ++ [b]) =
      iterates i t blocks ++ [⟨b.pairs, ((t.foldBlocks blocks).foldBlock b).1.iterateAt i⟩] := by
  induction blocks generalizing t with
  | nil => rfl
  | cons b' blocks ih => simp only [List.cons_append, iterates, ih, foldBlocks_cons]

/-- The average that the parameter at an index carries is the mean of its iterates so far. Before
the first report that says nothing of it. -/
structure CarriesMean (lr beta beta2 eps : ℝ) (i : Nat) (start : Parameter ℝ) (rs : List Iterate)
    (t : TuningState ℝ) : Prop where
  optimizer : t.optimizer = .scheduleFreeAdam lr beta beta2 eps
  mass : t.mass = lr * Iterate.totalPairs rs
  param : ∃ p, t.params[i]? = some p ∧ p.initial = start.initial ∧
    Iterate.totalPairs rs * p.average beta = Iterate.weightedSum rs

namespace CarriesMean

variable {t : TuningState ℝ} {lr beta beta2 eps : ℝ} {i : Nat} {start : Parameter ℝ}
  {rs : List Iterate}

lemma foldBlock (h : CarriesMean lr beta beta2 eps i start rs t) (hlr : 0 < lr) (hbeta : beta ≠ 0)
    {b : Block ℝ} (hb : b.pairs ≠ 0) :
    let rs' := rs ++ [⟨b.pairs, (t.foldBlock b).1.iterateAt i⟩]
    Iterate.MeanInBounds beta start rs' →
      CarriesMean lr beta beta2 eps i start rs' (t.foldBlock b).1 ∧
      (t.foldBlock b).2[i]? = some (Iterate.mean rs') ∧
      ∃ p, (t.foldBlock b).1.params[i]? = some p ∧
        p.theta = (1 - beta) * p.z + beta * Iterate.mean rs' := by
  intro rs' hbounds
  obtain ⟨p, hp, hinit, hsum⟩ := h.param
  have hmem := hbounds.mean
  have hblend := hbounds.blend _ List.getLast?_concat
  rw [← Parameter.low_eq_of_initial hinit, ← Parameter.high_eq_of_initial hinit] at hmem hblend
  obtain ⟨hp', hshown⟩ := getElem?_foldBlock t hb hp
  have hupdate : t.updateAt b i p = p.adamStep ⟨p.c, b.draw i, none⟩ b.pairs b.signed
      ⟨lr, beta, beta2, eps⟩ (Mass.advance (lr * Iterate.totalPairs rs) b.pairs lr)
      t.moments.estimate (t.iter + b.pairs) := by
    simp only [updateAt, updateOf, Parameter.nudge, Schedule.ofParameter?, h.optimizer, h.mass,
      Scalar.count_real]
  have hz : (t.foldBlock b).1.iterateAt i = (t.updateAt b i p).z := by
    rw [iterateAt, hp', Option.map_some, Option.getD_some, Parameter.store]
  have hmean : Iterate.mean rs' = (Iterate.weightedSum rs + b.pairs * (t.updateAt b i p).z) /
      (Iterate.totalPairs rs + b.pairs) := by
    simp only [rs', hz, Iterate.mean, Iterate.weightedSum_append_singleton,
      Iterate.totalPairs_append_singleton, Nat.cast_add]
  obtain ⟨hdisplay, htheta, haverage⟩ :=
    Parameter.adamStep_mean hsum hlr hbeta hb hupdate hmean hmem (hz ▸ hblend)
  have htotal : (Iterate.totalPairs rs' : ℝ) ≠ 0 := by
    simp only [rs', Iterate.totalPairs_append_singleton]
    exact Nat.cast_ne_zero.mpr (by omega)
  refine ⟨⟨?_, ?_, _, hp', hinit, ?_⟩, ?_, _, hp', htheta⟩
  · exact (sameSetup_foldBlock t b).optimizer.trans h.optimizer
  · rw [foldBlock_of_pairs t hb]
    simp [massAfter, h.optimizer, Mass.advance, h.mass, rs', mul_add]
  · rw [haverage, Iterate.mean, mul_div_cancel₀ _ htotal]
  · rw [hshown, hdisplay]

end CarriesMean

/-- As long as the means and the blends are within the bounds, a parameter carries the mean of its
iterates. -/
lemma carriesMean_foldBlocks {state : TuningState ℝ} {lr beta beta2 eps : ℝ} {i : Nat}
    {p : Parameter ℝ} (hstart : CarriesMean lr beta beta2 eps i p [] state) (hlr : 0 < lr)
    (hbeta : beta ≠ 0) {blocks : List (Block ℝ)} (hpairs : ∀ b ∈ blocks, b.pairs ≠ 0)
    (hbounds : ∀ done b, done ++ [b] <+: blocks →
      Iterate.MeanInBounds beta p (state.iterates i (done ++ [b]))) :
    CarriesMean lr beta beta2 eps i p (state.iterates i blocks) (state.foldBlocks blocks) := by
  -- The bounds are known of every start of the list, so the list is taken apart at its end.
  induction blocks using List.reverseRecOn with
  | nil => exact hstart
  | append_singleton done b ih =>
    have hdone : CarriesMean lr beta beta2 eps i p (state.iterates i done)
        (state.foldBlocks done) :=
      ih (fun b' hb' => hpairs b' (by simp [hb']))
        fun done' b' h => hbounds done' b' (h.trans (List.prefix_append done [b]))
    have hbounds' := hbounds done b List.prefix_rfl
    rw [iterates_append_singleton] at hbounds' ⊢
    rw [foldBlocks_append_singleton]
    exact (hdone.foldBlock hlr hbeta (hpairs b (by simp)) hbounds').1

/-- In every run of Adam with averaging, the first report takes its own iterate as the average, with
nothing left of the start value. As long as the mean of the iterates so far and its blend with the
last of them have stayed within the bounds, every report shows that mean, each iterate counted with
the pairs of its report, and exports the blend. -/
theorem adam_average_eq_pair_mean {read : String → Option ℝ} {defaults : HyperDefaults ℝ}
    {d : Definition ℝ} {state : TuningState ℝ} (hbuild : d.build read defaults = .ok state)
    (hfamily : d.family = .scheduleFreeAdam) (hbeta : 0 < defaults.beta) {blocks : List (Block ℝ)}
    (hpairs : ∀ b ∈ blocks, b.pairs ≠ 0) {i : Nat} {p : Parameter ℝ}
    (hp : state.params[i]? = some p)
    (hbounds : ∀ done b, done ++ [b] <+: blocks →
      Iterate.MeanInBounds defaults.beta p (state.iterates i (done ++ [b]))) :
    (∀ n, n ≠ 0 → (Mass.advance state.mass n defaults.lr).share = 1) ∧
    ∀ done b, done ++ [b] <+: blocks →
      let mean := Iterate.mean (state.iterates i (done ++ [b]))
      let folded := (state.foldBlocks done).foldBlock b
      folded.2[i]? = some mean ∧ ∃ p', folded.1.params[i]? = some p' ∧
        p'.theta = (1 - defaults.beta) * p'.z + defaults.beta * mean := by
  have hbuilt := Definition.built_of_build hbuild
  have hlr : 0 < defaults.lr := hbuilt.lr_pos (by rw [hfamily]; rfl)
  have hmass : state.mass = defaults.lr * (0 : Nat) := by
    rw [hbuilt.mass, Nat.cast_zero, mul_zero, Scalar.zero_real]
  constructor
  · intro n hn
    have hn' : (n : ℝ) ≠ 0 := Nat.cast_ne_zero.mpr hn
    rw [hmass, Mass.share_advance hlr 0 hn, Nat.cast_zero, zero_add, div_self hn']
  · intro done b hinitial mean folded
    have hstart : CarriesMean defaults.lr defaults.beta defaults.beta2 defaults.eps i p []
        state := by
      refine ⟨?_, hmass, p, hp, rfl, ?_⟩
      · rw [hbuilt.optimizer, hfamily]
        rfl
      · simp [Iterate.totalPairs, Iterate.weightedSum]
    have hdone := carriesMean_foldBlocks hstart hlr hbeta.ne'
      (fun b' hb' => hpairs b' (hinitial.subset (by simp [hb'])))
      fun done' b' h => hbounds done' b' ((h.trans (List.prefix_append done [b])).trans hinitial)
    have hbounds' := hbounds done b hinitial
    simp only [mean, iterates_append_singleton] at hbounds' ⊢
    exact (hdone.foldBlock hlr hbeta.ne' (hpairs b (hinitial.subset (by simp))) hbounds').2

/-! ### A small run -/

/-- A block of the small run moves the fast iterate by at most the size of its perturbation over the
root of the second moment. -/
lemma abs_iterateAt_small_le (done : List (Block ℝ)) (rs : List Reading) (bound : ℝ)
    (hpairs : ∀ b ∈ done ++ [.small], b.pairs ≠ 0) (hbound : 0 < bound) :
    let state := small (HyperDefaults.standard.optimizer .scheduleFreeAdam .blockMean 10)
    state.readings (done ++ [.small]) = rs →
    1e-16 < 1 - (999 / 1000 : ℝ) ^ Reading.totalPairs rs →
    bound ^ 2 ≤ Reading.unitSteps (999 / 1000) 0 rs / (1 - (999 / 1000) ^ Reading.totalPairs rs) →
      |((state.foldBlocks done).foldBlock .small).1.iterateAt 0 -
        (state.foldBlocks done).iterateAt 0| ≤ 2 / bound := by
  intro state hrs hfloor hmoment
  have hbuild : (Definition.small .scheduleFreeAdam).build readNat .standard = .ok state :=
    Definition.build_small rfl
  have hbuilt := Definition.built_of_build hbuild
  have hparam : state.params[0]? = some .small := rfl
  have hbeta2 : (HyperDefaults.standard.beta2 : ℝ) = 999 / 1000 := by
    norm_num [HyperDefaults.standard]
  have hlr : (HyperDefaults.standard.lr : ℝ) = 1 := Scalar.one_real
  obtain ⟨p, p', hinit, hblock⟩ := exists_adamBlock hbuilt rfl hpairs hparam
  have hc : p.c = 2 := Parameter.c_eq_of_initial hinit
  have hcorrected := hblock.corrected
  rw [hblock.v, hbeta2, hrs, if_pos hfloor] at hcorrected
  have hroot : bound ≤ √((state.foldBlocks done).correctedMoment HyperDefaults.standard.beta2
      .small p) := by
    rw [hbeta2, hcorrected]
    exact Real.le_sqrt_of_sq_le hmoment
  have hmove := hblock.abs_move_le (hlr ▸ zero_le_one) (hc ▸ zero_le_two) hbound
    (le_add_of_le_of_nonneg hroot (hbuilt.eps_nonneg rfl))
  rw [iterateAt, iterateAt, hblock.after, hblock.before]
  simpa [hlr, hc, Block.small] using hmove

lemma exists_iterates_small :
    let state := small (HyperDefaults.standard.optimizer .scheduleFreeAdam .blockMean 10)
    ∃ x y, state.iterates 0 [.small] = [⟨2, x⟩] ∧
      state.iterates 0 [.small, .small] = [⟨2, x⟩, ⟨2, y⟩] ∧ |x - 5| ≤ 2 ∧ |y - x| ≤ 4 := by
  intro state
  have hreadings := readings_small state.optimizer
  have hfirst := abs_iterateAt_small_le [] [⟨2, 1⟩] 1 (by simp [Block.small]) one_pos
    (congrArg (List.take 1) hreadings) (by norm_num [Reading.totalPairs])
    (by norm_num [Reading.totalPairs, Reading.unitSteps, Reading.unitStep])
  have hsecond := abs_iterateAt_small_le [.small] [⟨2, 1⟩, ⟨2, 1 / 4⟩] (1 / 2)
    (by simp [Block.small]) one_half_pos hreadings (by norm_num [Reading.totalPairs])
    (by norm_num [Reading.totalPairs, Reading.unitSteps, Reading.unitStep])
  rw [div_one] at hfirst
  refine ⟨_, _, rfl, rfl, hfirst, hsecond.trans_eq (by norm_num)⟩

lemma meanInBounds_small {x y : ℝ} (hx : |x - 5| ≤ 2) (hy : |y - x| ≤ 4) :
    Iterate.MeanInBounds HyperDefaults.standard.beta .small [⟨2, x⟩] ∧
      Iterate.MeanInBounds HyperDefaults.standard.beta .small [⟨2, x⟩, ⟨2, y⟩] := by
  have hbeta : (HyperDefaults.standard.beta : ℝ) = 9 / 10 := by norm_num [HyperDefaults.standard]
  have hmean : Iterate.mean [⟨2, x⟩] = x := by
    simp [Iterate.mean, Iterate.weightedSum, Iterate.totalPairs]
  have hmean' : Iterate.mean [⟨2, x⟩, ⟨2, y⟩] = (2 * x + 2 * y) / 4 := by
    norm_num [Iterate.mean, Iterate.weightedSum, Iterate.totalPairs]
  have hlow : Parameter.small.low = (0 : ℝ) := rfl
  have hhigh : Parameter.small.high = (10 : ℝ) := rfl
  rw [abs_le] at hx hy
  refine ⟨⟨?_, ?_⟩, ⟨?_, ?_⟩⟩
  · rw [hmean, hlow, hhigh]
    constructor <;> linarith
  · simp only [hmean, hbeta, hlow, hhigh, List.getLast?_singleton, Option.mem_some_iff, forall_eq']
    constructor <;> linarith
  · rw [hmean', hlow, hhigh]
    constructor <;> linarith
  · simp only [hmean', hbeta, hlow, hhigh, List.getLast?_cons_cons, List.getLast?_singleton,
      Option.mem_some_iff, forall_eq']
    constructor <;> linarith

theorem adam_average_eq_pair_mean_small :
    let state := small (HyperDefaults.standard.optimizer .scheduleFreeAdam .blockMean 10)
    (Definition.small .scheduleFreeAdam).build readNat .standard = .ok state ∧
      0 < (HyperDefaults.standard.beta : ℝ) ∧ (∀ b ∈ [Block.small, .small], b.pairs ≠ 0) ∧
      state.params[0]? = some .small ∧
      (∀ done b, done ++ [b] <+: [Block.small, .small] →
        Iterate.MeanInBounds HyperDefaults.standard.beta .small (state.iterates 0 (done ++ [b]))) ∧
      ∃ x y, state.iterates 0 [.small, .small] = [⟨2, x⟩, ⟨2, y⟩] ∧
        ((state.foldBlock .small).1.foldBlock .small).2[0]? =
          some (Iterate.mean [⟨2, x⟩, ⟨2, y⟩]) := by
  intro state
  have hbuild : (Definition.small .scheduleFreeAdam).build readNat .standard = .ok state :=
    Definition.build_small rfl
  have hbeta : 0 < (HyperDefaults.standard.beta : ℝ) := by norm_num [HyperDefaults.standard]
  have hpairs : ∀ b ∈ [Block.small, .small], b.pairs ≠ 0 := by simp [Block.small]
  have hparam : state.params[0]? = some .small := rfl
  obtain ⟨x, y, hone, htwo, hx, hy⟩ := exists_iterates_small
  obtain ⟨hfirst, hsecond⟩ := meanInBounds_small hx hy
  have hbounds : ∀ done b, done ++ [b] <+: [Block.small, .small] →
      Iterate.MeanInBounds HyperDefaults.standard.beta .small
        (state.iterates 0 (done ++ [b])) := by
    intro done b hinitial
    rcases List.prefix_cons_iff.mp hinitial with h | ⟨rest, h, hrest⟩
    · simp at h
    · rcases List.prefix_cons_iff.mp hrest with rfl | ⟨rest', rfl, hrest'⟩
      · rwa [h, hone]
      · rwa [h, List.prefix_nil.mp hrest', htwo]
  obtain ⟨hshown, -⟩ := (adam_average_eq_pair_mean hbuild rfl hbeta hpairs hparam hbounds).2
    [.small] .small List.prefix_rfl
  rw [List.singleton_append, htwo] at hshown
  exact ⟨hbuild, hbeta, hpairs, hparam, hbounds, x, y, htwo, hshown⟩

end TuningState

end PairedTuning
