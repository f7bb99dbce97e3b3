import Mathlib
import PairedTuning.Proofs.Update.Invariant

/-!
# Swapped sides

Which of the two sides of a game pair is called the first is a matter of naming: with the names
swapped, every flip is the opposite one and every sum of outcomes has the other sign. No rule sees
the difference, since a result and a flip enter only through their product (`updateOf_upright`). The
running sums keep the sign in one place, the sum of the outcomes, and the estimator squares it. So a
run that is told with its sides swapped is the same run, but for that sign.
-/

namespace PairedTuning

/-! ### Flips and moves -/

@[simp] lemma Flip.factor_opposite (f : Flip) : (f.opposite.factor : ℝ) = -f.factor := by
  cases f <;> simp [opposite, factor]

namespace Nudge

/-- The same move in the opposite direction. -/
def opposite (n : Nudge ℝ) : Nudge ℝ := { n with flip := n.flip.opposite }

/-- The same move upwards. -/
def upright (n : Nudge ℝ) : Nudge ℝ := { n with flip := .plus }

@[simp] lemma upright_opposite (n : Nudge ℝ) : n.opposite.upright = n.upright := rfl

end Nudge

/-! ### Rules -/

namespace Parameter

variable (p : Parameter ℝ) (nudge : Nudge ℝ) (n : Nat) (s : ℝ)

lemma classicStep_upright (gain : ℝ) :
    p.classicStep nudge gain s = p.classicStep nudge.upright gain (s * nudge.flip.factor) := by
  simp only [classicStep, Nudge.upright, Flip.factor, Scalar.one_real, mul_one, mul_assoc]

lemma sgdStep_upright (lr beta : ℝ) (mass : Mass ℝ) :
    p.sgdStep nudge n s lr beta mass =
      p.sgdStep nudge.upright n (s * nudge.flip.factor) lr beta mass := by
  have hdelta : lr * nudge.c * s * nudge.flip.factor =
      lr * nudge.upright.c * (s * nudge.flip.factor) * nudge.upright.flip.factor := by
    simp only [Nudge.upright, Flip.factor, Scalar.one_real, mul_one, mul_assoc]
  simp only [sgdStep, hdelta]

lemma adamStep_upright (rates : AdamRates ℝ) (mass : Mass ℝ) (mu2 : ℝ) (steps : Nat) :
    p.adamStep nudge n s rates mass mu2 steps =
      p.adamStep nudge.upright n (s * nudge.flip.factor) rates mass mu2 steps := by
  have hmove (denominator damping : ℝ) :
      (if 0 < denominator then rates.lr * s / denominator else 0) * damping * nudge.c *
          nudge.flip.factor =
        (if 0 < denominator then rates.lr * (s * nudge.flip.factor) / denominator else 0) *
          damping * nudge.upright.c * nudge.upright.flip.factor := by
    simp only [Nudge.upright, Flip.factor, Scalar.one_real]
    split_ifs
    · ring
    · ring
  simp only [adamStep, Scalar.zero_real, hmove]

end Parameter

/-! ### Moments -/

namespace PairMoments

/-- The running sums with the outcomes of all pairs negated. -/
def mirror (m : PairMoments ℝ) : PairMoments ℝ := { m with signed := -m.signed }

variable (m : PairMoments ℝ)

lemma mirror_add (n : Nat) (s : ℝ) : (m.add n s).mirror = m.mirror.add n (-s) := by
  by_cases hn : n = 0
  · simp only [add, if_pos hn]
  · simp only [add_of_ne_zero _ hn, mirror, neg_add, neg_mul_neg]

lemma mean?_mirror : m.mirror.mean? = m.mean?.map (-·) := by
  simp only [mean?, mirror, neg_div]
  split_ifs <;> rfl

lemma variance?_mirror : m.mirror.variance? = m.variance? := by
  simp only [variance?, mean?_mirror, Option.map_map, Function.comp_def, neg_mul_neg]
  rfl

/-- The sign of the outcomes does not show in the second moment. -/
lemma estimate_mirror : m.mirror.estimate = m.estimate := by
  have hmean : m.mirror.mean?.getD 0 * m.mirror.mean?.getD 0 = m.mean?.getD 0 * m.mean?.getD 0 := by
    rw [mean?_mirror]
    cases m.mean? with
    | none => rfl
    | some x => exact neg_mul_neg x x
  simp only [estimate, Scalar.zero_real, variance?_mirror, hmean]
  rfl

end PairMoments

/-! ### Reports -/

/-- The report with the sides of its pairs swapped. -/
def IssuedReport.mirror (r : IssuedReport ℝ) : IssuedReport ℝ :=
  { r with flips := r.flips.map Flip.opposite, signed := -r.signed }

namespace TuningState

/-- The state with the outcomes of all pairs so far negated. -/
def mirror (t : TuningState ℝ) : TuningState ℝ := { t with moments := t.moments.mirror }

variable (t : TuningState ℝ)

lemma blockGain_upright (gain : BlockGain) (p : Parameter ℝ) (nudge : Nudge ℝ) (issued n : Nat) :
    t.blockGain gain p nudge.upright issued n = t.blockGain gain p nudge issued n := by
  cases gain <;> rfl

/-- A rule sees a result and a flip only through their product. -/
lemma updateOf_upright (issued n : Nat) (s : ℝ) (p : Parameter ℝ) (nudge : Nudge ℝ) :
    t.updateOf issued n s p nudge =
      t.updateOf issued n (s * nudge.flip.factor) p nudge.upright := by
  unfold updateOf
  cases t.optimizer with
  | classic offset alpha gamma gain =>
    dsimp only
    rw [blockGain_upright, Parameter.classicStep_upright]
  | scheduleFreeSgd lr beta => exact Parameter.sgdStep_upright ..
  | scheduleFreeAdam lr beta1 beta2 eps => exact Parameter.adamStep_upright ..

lemma updateOf_mirror (issued n : Nat) (s : ℝ) (p : Parameter ℝ) (nudge : Nudge ℝ) :
    t.mirror.updateOf issued n (-s) p nudge.opposite = t.updateOf issued n s p nudge := by
  have hproduct : -s * nudge.opposite.flip.factor = s * nudge.flip.factor := by
    rw [Nudge.opposite, Flip.factor_opposite, neg_mul_neg]
  have hstate (s : ℝ) (nudge : Nudge ℝ) :
      t.mirror.updateOf issued n s p nudge = t.updateOf issued n s p nudge := by
    unfold updateOf blockGain
    simp only [mirror, PairMoments.estimate_mirror]
  rw [updateOf_upright, hproduct, Nudge.upright_opposite, hstate, ← updateOf_upright]

lemma contexts_mirror (k : Nat) (flips : List Flip) :
    t.mirror.contexts k (flips.map Flip.opposite) = (t.contexts k flips).map Nudge.opposite := by
  have hnudge (p : Parameter ℝ) (f : Flip) :
      p.nudge t.optimizer k f.opposite = (p.nudge t.optimizer k f).opposite := by
    cases t.optimizer <;> rfl
  simp only [contexts, mirror, List.zipWith_map_right, List.map_zipWith, hnudge]

lemma fold_mirror (nudges : List (Nudge ℝ)) (issued n : Nat) (s : ℝ) :
    t.mirror.fold (nudges.map Nudge.opposite) issued n (-s) =
      ((t.fold nudges issued n s).1.mirror, (t.fold nudges issued n s).2) := by
  by_cases hn : n = 0
  · simp only [fold, if_pos hn]
    rfl
  · have hupdates : t.mirror.params.zipWith (t.mirror.updateOf issued n (-s))
        (nudges.map Nudge.opposite) = t.params.zipWith (t.updateOf issued n s) nudges := by
      simp only [List.zipWith_map_right, updateOf_mirror]
      rfl
    simp only [fold, if_neg hn, updates_eq, hupdates]
    simp only [mirror, PairMoments.mirror_add]
    rfl

lemma record_mirror (games : Nat) (nudges : List (Nudge ℝ)) (display : List ℝ) :
    t.mirror.record games (nudges.map Nudge.opposite) display =
      ((t.record games nudges display).1.mirror, (t.record games nudges display).2) := by
  have hsnapshot : snapshot (nudges.map Nudge.opposite) display = snapshot nudges display := by
    simp only [snapshot, List.zipWith_map_left]
    rfl
  have hdue : t.mirror.snapshotDue games = t.snapshotDue games := rfl
  simp only [record, hdue, hsnapshot]
  split_ifs <;> rfl

/-- A report with swapped sides does to the mirrored state what the report does to the state, and
shows the same values. -/
lemma report_mirror (games : Nat) (r : IssuedReport ℝ) :
    t.mirror.report games r.mirror = ((t.report games r).1.mirror, (t.report games r).2) := by
  simp only [report, IssuedReport.mirror, contexts_mirror, fold_mirror, record_mirror]

lemma afterReports_mirror (games : Nat) (reports : List (IssuedReport ℝ)) :
    t.mirror.afterReports games (reports.map .mirror) = (t.afterReports games reports).mirror := by
  induction reports using List.reverseRecOn with
  | nil => rfl
  | append_singleton reports r ih =>
    rw [List.map_append, List.map_singleton, afterReports_append_singleton, ih, report_mirror,
      afterReports_append_singleton]

/-- A run that is told with its sides swapped is the same run. It starts from the same state, but
for the sign of the outcomes so far; every report has the opposite flips and the negated sum. After
any number of reports the states still agree in all but that sign, and in the estimate; the next
report shows the same values. No report is refused, since all bounds hold a value. -/
theorem swapped_sides_agree (hbounds : ∀ p ∈ t.params, p.low ≤ p.high) (games : Nat)
    (reports : List (IssuedReport ℝ)) :
    let u := t.afterReports games reports
    let u' := t.mirror.afterReports games (reports.map .mirror)
    u' = u.mirror ∧ u'.moments.estimate = u.moments.estimate ∧
      ∀ r : IssuedReport ℝ,
        u.canFold (u.contexts r.issued r.flips) r.pairs ∧
        u'.canFold (u'.contexts r.issued r.mirror.flips) r.pairs ∧
        u'.report games r.mirror = ((u.report games r).1.mirror, (u.report games r).2) := by
  intro u u'
  have hmirror : u' = u.mirror := afterReports_mirror t games reports
  have hranges : ∀ p ∈ u.params, p.hasRange :=
    (sameSetup_afterReports t games reports).hasRange fun p hp => decide_eq_true (hbounds p hp)
  refine ⟨hmirror, ?_, fun r => ⟨canFold_of_hasRange hranges _ _, ?_, ?_⟩⟩
  · rw [hmirror]
    exact u.moments.estimate_mirror
  · rw [hmirror]
    exact canFold_of_hasRange (t := u.mirror) hranges _ _
  · rw [hmirror]
    exact u.report_mirror games r

/-- The small run after a block in which the side that plays with plus won a game. -/
theorem swapped_sides_agree_small :
    let optimizer := HyperDefaults.standard.optimizer .scheduleFreeAdam .blockMean (10 : ℝ)
    let t := { small optimizer with moments := (PairMoments.empty 1).add 2 1 }
    let first : IssuedReport ℝ := ⟨0, [.plus], 2, 4⟩
    let second : IssuedReport ℝ := ⟨2, [.minus], 3, -6⟩
    let u := t.afterReports 20 [first]
    let u' := t.mirror.afterReports 20 [⟨0, [.minus], 2, -4⟩]
    (∀ p ∈ t.params, p.low ≤ p.high) ∧ t.mirror.moments.signed = -1 ∧ u'.params = u.params ∧
      u'.history = u.history ∧ u'.moments.signed = -u.moments.signed ∧
      (u'.report 20 ⟨2, [.plus], 3, 6⟩).2 = (u.report 20 second).2 := by
  intro optimizer t first second u u'
  have hbounds : ∀ p ∈ t.params, p.low ≤ p.high := by
    norm_num [t, small, Parameter.small]
  have hsigned : t.mirror.moments.signed = -1 := by
    simp [t, mirror, PairMoments.mirror, PairMoments.add, PairMoments.empty]
  obtain ⟨hstate, -, hreport⟩ := swapped_sides_agree t hbounds 20 [first]
  obtain ⟨-, -, hshown⟩ := hreport second
  have hsecond : second.mirror = ⟨2, [.plus], 3, 6⟩ := by
    simp [second, IssuedReport.mirror, Flip.opposite]
  rw [hsecond] at hshown
  exact ⟨hbounds, hsigned, congrArg (·.params) hstate, congrArg (·.history) hstate,
    congrArg (·.moments.signed) hstate, congrArg (·.2) hshown⟩

end TuningState

end PairedTuning
