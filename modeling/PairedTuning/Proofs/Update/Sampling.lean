import Mathlib
import PairedTuning.Proofs.Update.Invariant

/-!
# Sampling

A snapshot is due when the counter has passed the next sampling point, and a report takes one
snapshot at most. A report may stand for many pairs and pass several points at once. None of them is
skipped for that: the reports that follow take one snapshot each until the history has caught up
with the counter. It is never ahead of it.
-/

namespace PairedTuning

/-! ### The sampling rule -/

lemma targetSamples_pos (n : Nat) : (0 : ℝ) < targetSamples n := by
  unfold targetSamples
  split_ifs with hfew hmany
  · norm_num
  · exact div_pos (by norm_num) (Nat.cast_pos.mpr (by omega))
  · simp

lemma targetSamples_le (n : Nat) : (targetSamples n : ℝ) ≤ 100 := by
  unfold targetSamples
  split_ifs with hfew hmany
  · norm_num
  · have hn : (100 : ℝ) ≤ n := by exact_mod_cast not_lt.mp hfew
    simp only [Scalar.ofNat_real]
    rw [div_le_iff₀ (by linarith)]
    linarith
  · rw [Scalar.one_real, Scalar.numeral_real]
    norm_num

lemma samplingPeriod_pos {games : Nat} (hgames : games ≠ 0) (n : Nat) :
    (0 : ℝ) < samplingPeriod games n := by
  have hpos : (0 : ℝ) < games := Nat.cast_pos.mpr (Nat.pos_of_ne_zero hgames)
  have htarget := targetSamples_pos n
  simp only [samplingPeriod, Scalar.ofNat_real]
  positivity

/-- The planned pairs are the target number of periods. -/
lemma targetSamples_mul_samplingPeriod (games n : Nat) :
    (targetSamples n : ℝ) * samplingPeriod games n = games / 2 := by
  rw [samplingPeriod, mul_div_cancel₀ _ (targetSamples_pos n).ne']
  rfl

namespace TuningState

variable {t : TuningState ℝ} {games : Nat}

lemma snapshotDue_iff (hperiod : (0 : ℝ) < samplingPeriod games t.params.length) :
    t.snapshotDue games ↔
      ((t.history.length + 1 : Nat) : ℝ) * samplingPeriod games t.params.length ≤ t.iter := by
  simp only [snapshotDue, Scalar.ofNat_real, Scalar.zero_real, if_neg hperiod.not_ge,
    decide_eq_true_eq]
  rw [le_div_iff₀ hperiod]

lemma fold_history (t : TuningState ℝ) (nudges : List (Nudge ℝ)) (issued n : Nat) (s : ℝ) :
    (t.fold nudges issued n s).1.history = t.history := by
  by_cases hn : n = 0
  · simp [fold, hn]
  · simp [fold, hn]

/-- A report leaves a snapshot exactly if the counter after it has reached the next sampling
point. -/
lemma history_apply (hperiod : (0 : ℝ) < samplingPeriod games t.params.length)
    (nudges : List (Nudge ℝ)) (issued n : Nat) (s : ℝ) :
    (t.apply games nudges issued n s).history =
      if ((t.history.length + 1 : Nat) : ℝ) * samplingPeriod games t.params.length ≤
          (t.iter + n : Nat) then
        t.history ++ [snapshot nudges (t.fold nudges issued n s).2]
      else t.history := by
  have hlength := (sameSetup_fold t nudges issued n s).length_eq
  have hdue := snapshotDue_iff (t := (t.fold nudges issued n s).1) (hlength ▸ hperiod)
  rw [hlength, fold_history, fold_iter] at hdue
  rw [apply, record]
  by_cases h : (t.fold nudges issued n s).1.snapshotDue games
  · rw [if_pos h, if_pos (hdue.mp h), fold_history]
  · rw [if_neg h, if_neg (hdue.not.mp h), fold_history]

lemma length_history_apply (hperiod : (0 : ℝ) < samplingPeriod games t.params.length)
    (nudges : List (Nudge ℝ)) (issued n : Nat) (s : ℝ) :
    (t.apply games nudges issued n s).history.length =
      if ((t.history.length + 1 : Nat) : ℝ) * samplingPeriod games t.params.length ≤
          (t.iter + n : Nat) then
        t.history.length + 1
      else t.history.length := by
  rw [history_apply hperiod, apply_ite List.length, List.length_append, List.length_singleton]

end TuningState

/-! ### Values and sizes -/

/-- The size of a perturbation does not depend on its direction. -/
lemma Parameter.nudge_c_eq (optimizer : Optimizer ℝ) (p : Parameter ℝ) (k : Nat) (f g : Flip) :
    (p.nudge optimizer k f).c = (p.nudge optimizer k g).c := by
  cases optimizer <;> rfl

section

variable {nudges : List (Nudge ℝ)} {display : List ℝ}

lemma map_theta_snapshot (h : nudges.length = display.length) :
    (snapshot nudges display).map (·.theta) = display := by
  apply List.ext_getElem
  · simp [snapshot, h]
  · simp [snapshot]

lemma map_c_snapshot (h : nudges.length = display.length) :
    (snapshot nudges display).map (·.c) = nudges.map (·.c) := by
  apply List.ext_getElem
  · simp [snapshot, h]
  · simp [snapshot]

end

namespace TuningState

variable {s t : TuningState ℝ}

/-- Sizes are rebuilt as they were issued, in whatever state of the run that was. -/
lemma map_c_contexts (h : SameSetup s t) (issued : Nat) (draw : Nat → Flip) {flips : List Flip}
    (hflips : flips.length = s.params.length) :
    (s.contexts issued flips).map (·.c) = (t.perturb issued draw).white.map (·.c) := by
  have hwhite : (t.perturb issued draw).white.map (·.c) =
      (t.contexts issued (t.params.mapIdx fun i _ => draw i)).map (·.c) := by
    rw [contexts_mapIdx, ← nudges_perturb, Perturbation.nudges, List.map_map]
    rfl
  rw [hwhite, h.contexts_eq]
  apply List.ext_getElem
  · simp [contexts, hflips, h.length_eq]
  · intro i _ _
    simp only [contexts, List.getElem_map, List.getElem_zipWith]
    exact Parameter.nudge_c_eq ..

lemma length_display_fold {nudges : List (Nudge ℝ)} (h : nudges.length = t.params.length)
    (issued n : Nat) (s : ℝ) : (t.fold nudges issued n s).2.length = t.params.length := by
  by_cases hn : n = 0
  · simp [fold, hn]
  · simp [fold, hn, updates_eq, h]

end TuningState

/-! ### Snapshots -/

/-- A snapshot shows the report that came after the given ones: a value and a size for each
parameter, in the order of the parameters. -/
structure ShowsReport (start : TuningState ℝ) (games : Nat) (done : List (IssuedReport ℝ))
    (r : IssuedReport ℝ) (samples : List (Sample ℝ)) : Prop where
  length : samples.length = start.params.length
  theta : samples.map (·.theta) = ((start.afterReports games done).report games r).2
  /-- The sizes are those with which the perturbation was issued, whenever that was. -/
  c : ∀ (earlier : List (IssuedReport ℝ)) (draw : Nat → Flip), samples.map (·.c) =
    ((start.afterReports games earlier).perturb r.issued draw).white.map (·.c)

section

variable {start : TuningState ℝ} {games : Nat}

lemma showsReport_snapshot (done : List (IssuedReport ℝ)) {r : IssuedReport ℝ}
    (hflips : r.flips.length = start.params.length) :
    ShowsReport start games done r (snapshot
      ((start.afterReports games done).contexts r.issued r.flips)
      ((start.afterReports games done).report games r).2) := by
  have hsetup := TuningState.sameSetup_afterReports start games done
  set t := start.afterReports games done
  have hnudges : (t.contexts r.issued r.flips).length = t.params.length := by
    simp [TuningState.contexts, hflips, hsetup.length_eq]
  have hdisplay : (t.contexts r.issued r.flips).length = (t.report games r).2.length :=
    hnudges.trans (TuningState.length_display_fold hnudges ..).symm
  refine ⟨?_, map_theta_snapshot hdisplay, fun earlier draw => ?_⟩
  · rw [snapshot, List.length_zipWith, ← hdisplay, min_self, hnudges, hsetup.length_eq]
  · rw [map_c_snapshot hdisplay, hsetup.contexts_eq]
    exact TuningState.map_c_contexts (TuningState.sameSetup_afterReports start games earlier)
      r.issued draw hflips

/-- What a report does to the history of a run. -/
lemma history_afterReports_append_singleton (start : TuningState ℝ) (hgames : games ≠ 0)
    (reports : List (IssuedReport ℝ)) (r : IssuedReport ℝ) :
    let t := start.afterReports games reports
    (start.afterReports games (reports ++ [r])).history =
      if ((t.history.length + 1 : Nat) : ℝ) * samplingPeriod games start.params.length ≤
          ((start.afterReports games (reports ++ [r])).iter : ℝ) then
        t.history ++ [snapshot (t.contexts r.issued r.flips) (t.report games r).2]
      else t.history := by
  intro t
  have hlength : t.params.length = start.params.length :=
    (TuningState.sameSetup_afterReports start games reports).length_eq
  rw [TuningState.afterReports_append_singleton, TuningState.report_iter, ← hlength]
  exact TuningState.history_apply (samplingPeriod_pos hgames _) _ r.issued r.pairs r.signed

/-! ### Runs -/

/-- The history of a run after reports, and what becomes of it with those that follow. -/
structure Sampled (games : Nat) (start : TuningState ℝ) (reports : List (IssuedReport ℝ)) :
    Prop where
  /-- No snapshot is taken before its sampling point. -/
  pace : (start.afterReports games reports).history.length *
    samplingPeriod games start.params.length ≤ ((start.afterReports games reports).iter : ℝ)
  /-- Every snapshot shows one of the reports. -/
  snapshots : ∀ samples ∈ (start.afterReports games reports).history, ∃ done r rest,
    reports = done ++ r :: rest ∧ ShowsReport start games done r samples
  /-- A report adds one snapshot to the history, or the next sampling point is still ahead. -/
  next : ∀ r : IssuedReport ℝ, r.flips.length = start.params.length →
    let t := start.afterReports games (reports ++ [r])
    (∃ samples, t.history = (start.afterReports games reports).history ++ [samples] ∧
      ShowsReport start games reports r samples) ∨
    t.history = (start.afterReports games reports).history ∧
      (t.iter : ℝ) < (t.history.length + 1 : Nat) * samplingPeriod games start.params.length
  /-- Sampling points that were passed are taken by the reports that follow, one by each. -/
  catchUp : ∀ (point : Nat) (more : List (IssuedReport ℝ)),
    point * samplingPeriod games start.params.length ≤
      ((start.afterReports games reports).iter : ℝ) →
    min point ((start.afterReports games reports).history.length + more.length) ≤
      (start.afterReports games (reports ++ more)).history.length

lemma pace_afterReports (hgames : games ≠ 0) (hhistory : start.history = [])
    (reports : List (IssuedReport ℝ)) :
    (start.afterReports games reports).history.length *
      samplingPeriod games start.params.length ≤ ((start.afterReports games reports).iter : ℝ) := by
  induction reports using List.reverseRecOn with
  | nil => simp [TuningState.afterReports, hhistory]
  | append_singleton reports r ih =>
    rw [history_afterReports_append_singleton _ hgames]
    split_ifs with hdue
    · rwa [List.length_append, List.length_singleton]
    · refine ih.trans ?_
      rw [TuningState.afterReports_append_singleton, TuningState.report_iter]
      exact_mod_cast Nat.le_add_right _ _

/-- A report adds one snapshot to the history, or the next sampling point is still ahead. -/
lemma next_afterReports (hgames : games ≠ 0) (reports : List (IssuedReport ℝ))
    {r : IssuedReport ℝ} (hflips : r.flips.length = start.params.length) :
    let t := start.afterReports games (reports ++ [r])
    (∃ samples, t.history = (start.afterReports games reports).history ++ [samples] ∧
      ShowsReport start games reports r samples) ∨
    t.history = (start.afterReports games reports).history ∧
      (t.iter : ℝ) < (t.history.length + 1 : Nat) * samplingPeriod games start.params.length := by
  intro t
  have hstep := history_afterReports_append_singleton start hgames reports r
  dsimp only at hstep
  split_ifs at hstep with hdue
  · exact .inl ⟨_, hstep, showsReport_snapshot reports hflips⟩
  · refine .inr ⟨hstep, ?_⟩
    rw [show t.history = _ from hstep]
    exact not_le.mp hdue

lemma snapshots_afterReports (hgames : games ≠ 0) (hhistory : start.history = [])
    {reports : List (IssuedReport ℝ)}
    (hflips : ∀ r ∈ reports, r.flips.length = start.params.length) :
    ∀ samples ∈ (start.afterReports games reports).history, ∃ done r rest,
      reports = done ++ r :: rest ∧ ShowsReport start games done r samples := by
  induction reports using List.reverseRecOn with
  | nil => simp [TuningState.afterReports, hhistory]
  | append_singleton reports r ih =>
    rw [List.forall_mem_append, List.forall_mem_singleton] at hflips
    have hearlier : ∀ samples ∈ (start.afterReports games reports).history, ∃ done q rest,
        reports ++ [r] = done ++ q :: rest ∧ ShowsReport start games done q samples := by
      intro samples hsamples
      obtain ⟨done, q, rest, rfl, hshows⟩ := ih hflips.1 samples hsamples
      exact ⟨done, q, rest ++ [r], by simp, hshows⟩
    rcases next_afterReports hgames reports hflips.2 with ⟨last, hnext, hshows⟩ | ⟨hnext, -⟩
    · rw [hnext, List.forall_mem_append, List.forall_mem_singleton]
      exact ⟨hearlier, reports, r, [], rfl, hshows⟩
    · rwa [hnext]

/-- As long as a sampling point that was passed has no snapshot, every report takes one. -/
lemma catchUp_afterReports (hgames : games ≠ 0) {reports : List (IssuedReport ℝ)} {point : Nat}
    (hpoint : point * samplingPeriod games start.params.length ≤
      ((start.afterReports games reports).iter : ℝ)) (more : List (IssuedReport ℝ)) :
    min point ((start.afterReports games reports).history.length + more.length) ≤
      (start.afterReports games (reports ++ more)).history.length := by
  induction more using List.reverseRecOn with
  | nil => simp
  | append_singleton more r ih =>
    have hiter : (start.afterReports games reports).iter ≤
        (start.afterReports games (reports ++ more ++ [r])).iter := by
      simp only [TuningState.afterReports_iter, List.map_append, List.sum_append]
      omega
    rw [← List.append_assoc, history_afterReports_append_singleton _ hgames]
    set length := (start.afterReports games (reports ++ more)).history.length with hlength
    split_ifs with hdue
    · simp only [List.length_append, List.length_singleton]
      omega
    · -- Nothing is due, so the point has its snapshot.
      have hreached : point ≤ length := by
        by_contra hbehind
        apply hdue
        calc ((length + 1 : Nat) : ℝ) * samplingPeriod games start.params.length
            ≤ point * samplingPeriod games start.params.length := by
              have := samplingPeriod_pos hgames start.params.length
              gcongr
              omega
          _ ≤ (start.afterReports games reports).iter := hpoint
          _ ≤ (start.afterReports games (reports ++ more ++ [r])).iter := by exact_mod_cast hiter
      exact (min_le_left _ _).trans hreached

/-- Whatever the sizes of its reports, a run samples its history at the pace of its counter. It is
never ahead of the counter, it keeps every snapshot it has, every report adds at most one, and no
sampling point that was passed is left out. -/
theorem history_sampled (hgames : games ≠ 0) (hhistory : start.history = [])
    {reports : List (IssuedReport ℝ)}
    (hflips : ∀ r ∈ reports, r.flips.length = start.params.length) :
    Sampled games start reports where
  pace := pace_afterReports hgames hhistory reports
  snapshots := snapshots_afterReports hgames hhistory hflips
  next _ hr := next_afterReports hgames reports hr
  catchUp _ more hpoint := catchUp_afterReports hgames hpoint more

end

/-- The small run, planned for a thousand pairs with a sampling point every ten. Its first report
passes two of them and takes one snapshot, and its second takes the other. -/
theorem history_sampled_small :
    let start := { TuningState.small (.scheduleFreeSgd 1 0.9) with plannedPairs := 1000 }
    let first : IssuedReport ℝ := ⟨0, [.plus], 25, 1⟩
    let second : IssuedReport ℝ := ⟨25, [.minus], 1, -1⟩
    2000 ≠ 0 ∧ start.history = [] ∧
      (∀ r ∈ [first, second], r.flips.length = start.params.length) ∧
      (samplingPeriod 2000 start.params.length : ℝ) = 10 ∧
      (start.afterReports 2000 [first]).history.length = 1 ∧
      (start.afterReports 2000 [first, second]).history.length = 2 := by
  intro start first second
  have hflips : ∀ r ∈ [first, second], r.flips.length = start.params.length := by
    simp [first, second, start, TuningState.small]
  have hperiod : (samplingPeriod 2000 start.params.length : ℝ) = 10 := by
    norm_num [samplingPeriod, targetSamples, start, TuningState.small]
  have hiter (reports : List (IssuedReport ℝ)) :
      (start.afterReports 2000 reports).iter = (reports.map (·.pairs)).sum := by
    rw [TuningState.afterReports_iter]
    exact Nat.zero_add _
  have hstart : Sampled 2000 start [] :=
    history_sampled (by decide) rfl (List.forall_mem_nil _)
  have hfirst : Sampled 2000 start [first] :=
    history_sampled (by decide) rfl (List.forall_mem_singleton.mpr (hflips first (by simp)))
  have hboth : Sampled 2000 start [first, second] := history_sampled (by decide) rfl hflips
  have hone : (start.afterReports 2000 [first]).history.length = 1 := by
    rcases hstart.next first rfl with ⟨samples, hnext, -⟩ | ⟨hsame, hahead⟩
    · rw [← List.nil_append [first], hnext]
      rfl
    · rw [hsame, hiter, hperiod] at hahead
      norm_num [TuningState.afterReports, start, TuningState.small, first] at hahead
  refine ⟨by decide, rfl, hflips, hperiod, hone, le_antisymm ?_ ?_⟩
  · have hpace := hboth.pace
    rw [hiter, hperiod] at hpace
    by_contra hlong
    have hthree : (3 : ℝ) ≤ (start.afterReports 2000 [first, second]).history.length := by
      exact_mod_cast not_le.mp hlong
    norm_num [first, second] at hpace
    linarith
  · have hcatch := hfirst.catchUp 2 [second] (by
      rw [hiter, hperiod]
      norm_num [first])
    rw [hone] at hcatch
    exact hcatch

end PairedTuning
