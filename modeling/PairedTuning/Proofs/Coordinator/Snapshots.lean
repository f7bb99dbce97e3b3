import Mathlib
import PairedTuning.Proofs.Coordinator.Rounds
import PairedTuning.Proofs.Update.Sampling

/-!
# The length of the history

A snapshot is due when the counter has passed the next sampling point, so the history is never ahead
of the counter: it has at most one snapshot for each period that was played, and as many as planned
when the planned pairs are played. The counter may go on from there, and the history goes on with
it. Its length has no bound: every pair of the small run leaves a snapshot, however many are played.

The arithmetic is exact: sampling points are real numbers, and counters have no bound.
-/

namespace PairedTuning

/-! ### Runs -/

/-- Whether the call is a report that was applied to a run. -/
def Entry.applies {σ α : Type} (id : RunId) (e : Entry σ α) : Bool :=
  match e.call, e.answer with
  | .report _ run _ _, .report (.applied _) => run = id
  | _, _ => false

lemma Entry.applies_of_not_touches {σ α : Type} {id : RunId} {e : Entry σ α}
    (h : ∀ task, e.touches id task = false) : e.applies id = false := by
  unfold applies
  split
  · rename_i run task report k hcall hanswer
    by_contra happlies
    have hrun : run = id := by simpa using happlies
    subst hrun
    exact Bool.false_ne_true ((h task).symm.trans (touches_of_applied hcall hanswer))
  · rfl

/-- How the history of a run compares with what was played of it: with the counter, and with the
reports that were applied. -/
structure KeepsPace (games : Nat) (applied : Nat) (t : TuningState ℝ) : Prop where
  /-- No snapshot is taken before its sampling point. -/
  pace : t.history.length * samplingPeriod games t.params.length ≤ (t.iter : ℝ)
  /-- A report leaves at most one snapshot. -/
  count : t.history.length ≤ applied
  applied_le : applied ≤ t.iter
  /-- If there is a sampling point for every pair, then every report leaves a snapshot. -/
  every : (samplingPeriod games t.params.length : ℝ) ≤ 1 → t.history.length = applied

namespace KeepsPace

variable {games applied : Nat} {t : TuningState ℝ}

lemma start (hhistory : t.history = []) : KeepsPace games 0 t where
  pace := by simp [hhistory]
  count := by simp [hhistory]
  applied_le := Nat.zero_le _
  every _ := by simp [hhistory]

lemma apply (h : KeepsPace games applied t) (hgames : games ≠ 0) (nudges : List (Nudge ℝ))
    (issued : Nat) {n : Nat} (hn : n ≠ 0) (s : ℝ) :
    KeepsPace games (applied + 1) (t.apply games nudges issued n s) := by
  have hlength := (t.sameSetup_apply games nudges issued n s).length_eq
  have hiter := t.apply_iter games nudges issued n s
  have hhistory := TuningState.length_history_apply (samplingPeriod_pos hgames t.params.length)
    nudges issued n s
  have hcount := h.count
  have happlied := h.applied_le
  constructor
  · rw [hlength, hiter, hhistory]
    split_ifs with hdue
    · exact hdue
    · exact h.pace.trans (Nat.cast_le.mpr (Nat.le_add_right _ _))
  · rw [hhistory]
    split_ifs <;> omega
  · omega
  · intro hperiod
    rw [hlength] at hperiod
    -- There are no more snapshots than pairs so far, so the new pairs reach the next point.
    have hdue : ((t.history.length + 1 : Nat) : ℝ) * samplingPeriod games t.params.length ≤
        (t.iter + n : Nat) := by
      calc ((t.history.length + 1 : Nat) : ℝ) * samplingPeriod games t.params.length
          ≤ (t.history.length + 1 : Nat) * 1 := by gcongr
        _ ≤ (t.iter + n : Nat) := by rw [mul_one]; exact_mod_cast (by omega)
    rw [hhistory, if_pos hdue, h.every hperiod]

/-- Within the planned pairs there are no more snapshots than the plan aims at. -/
lemma length_le_targetSamples (h : KeepsPace games applied t) (hgames : games ≠ 0)
    (hplan : 2 * t.iter ≤ games) :
    (t.history.length : ℝ) ≤ targetSamples t.params.length := by
  have hplan' : (t.iter : ℝ) ≤ games / 2 := by
    have : (2 : ℝ) * t.iter ≤ games := by exact_mod_cast hplan
    linarith
  have hpace := h.pace.trans hplan'
  rw [← targetSamples_mul_samplingPeriod games t.params.length] at hpace
  exact le_of_mul_le_mul_right hpace (samplingPeriod_pos hgames _)

end KeepsPace

lemma KeepsPace.step {id : RunId} {games : Nat} (hgames : games ≠ 0)
    {H : List (Entry (Store ℝ) ℝ)} {e : Entry (Store ℝ) ℝ} {r r' : Run ℝ} (hrun : r.games = games)
    (h : KeepsPace games (H.countP (·.applies id)) r.state) (hstep : RunStep id r e r') :
    KeepsPace games ((H ++ [e]).countP (·.applies id)) r'.state := by
  rw [List.countP_append, List.countP_singleton]
  cases hstep with
  | idle hidle => simpa [Entry.applies_of_not_touches hidle] using h
  | issued hissue =>
    obtain ⟨-, -, -, -, -, rfl⟩ := Run.issue_eq_ok_iff.mp hissue
    exact h
  | consumed _ hconsumed =>
    cases hconsumed with
    | mismatch => exact h
    | empty => exact h
    | @applied issued _ _ hpairs =>
      have hnext := h.apply hgames (r.state.contexts issued.iter
        (Flip.unpack issued.packed r.state.params.length)) issued.iter hpairs
      simpa [Entry.applies, Run.applyReport, hrun] using hnext _

/-! ### A small run -/

/-- The small run of SGD, with one worker. -/
noncomputable def Run.solo : Run ℝ :=
  let optimizer := .scheduleFreeSgd HyperDefaults.standard.lr HyperDefaults.standard.beta
  (create ⟨1⟩ 20 (.small optimizer)).addTask "first"

/-- A store that has just this run. -/
noncomputable def Store.solo : Store ℝ := Store.empty.insert Run.solo

lemma Store.filed_solo : Store.solo.Filed := Store.filed_empty.insert Run.solo

lemma Store.get?_solo : Store.solo.runs.get? ⟨1⟩ = some Run.solo := rfl

lemma Run.build_solo :
    (Definition.small .scheduleFreeSgd).build readNat .standard = .ok Run.solo.state :=
  Definition.build_small rfl

lemma Run.playing_solo : Run.solo.Playing 0 where
  alive := rfl
  active := ⟨_, rfl, rfl⟩
  hasRange := (Definition.built_of_build build_solo).sound.hasRange

namespace Coordinator

/-- The report of a pair in which each side wins a game. -/
def soloReport : Report := ⟨1, 1, 0, 2, some (Checksum.ofBytes (Flip.pack [.plus]))⟩

/-- The worker plays such a pair. -/
def soloRound : List Call :=
  [.request true ⟨1⟩ 0 fun _ => .plus, .report true ⟨1⟩ 0 soloReport]

/-- The worker plays one pair after the other. The plan ends after ten. -/
def soloRounds (k : Nat) : List Call := (List.replicate k soloRound).flatten

lemma soloRounds_succ (k : Nat) : soloRounds (k + 1) = soloRounds k ++ soloRound := by
  rw [soloRounds, List.replicate_succ', List.flatten_append, List.flatten_singleton, soloRounds]

lemma exists_run_after_soloRounds (k : Nat) :
    ∃ r, (after Store.repository Store.solo (soloRounds k)).runs.get? ⟨1⟩ = some r ∧
      r.Playing 0 ∧ r.games = 20 ∧ r.state.params.length = 1 ∧ r.state.iter = k ∧
      r.state.history.length = k := by
  induction k with
  | zero => exact ⟨Run.solo, Store.get?_solo, Run.playing_solo, rfl, rfl, rfl, rfl⟩
  | succ k ih =>
    obtain ⟨r, hget, hplaying, hgames, hparams, hiter, hhistory⟩ := ih
    have hfiled := filed_after Store.filed_solo (soloRounds k)
    have hget' := get?_after_round hfiled hget hplaying (fun _ => .plus) soloReport
      (by rw [Run.pendingOf_eq hparams]; rfl) (by decide)
    have hpairs : soloReport.pairs = 1 := rfl
    have hstate' := r.round_state 0 (fun _ => .plus) soloReport
    have hperiod : (samplingPeriod r.games r.state.params.length : ℝ) = 1 / 10 := by
      rw [hgames, hparams]
      norm_num [samplingPeriod, targetSamples]
    have hdue : ((k + 1 : Nat) : ℝ) * (1 / 10) ≤ (k + 1 : Nat) := by
      have : (0 : ℝ) ≤ (k + 1 : Nat) := Nat.cast_nonneg _
      linarith
    -- Only the counter and the history move; the rest is what the next round needs.
    refine ⟨r.round 0 (fun _ => .plus) soloReport, ?_, hplaying.round 0 _ _, hgames, ?_, ?_, ?_⟩
    · rw [soloRounds_succ, after_append]
      exact hget'
    · rw [r.length_params_round, hparams]
    · rw [hstate', TuningState.apply_iter, hiter, hpairs]
    · rw [hstate', TuningState.length_history_apply (hperiod ▸ by norm_num), hperiod, hhistory,
        hiter, hpairs]
      exact if_pos hdue

/-! ### Any calls -/

/-- Whatever the calls, the history of a run that was built from a definition is never ahead of the
counter, and within the planned pairs it keeps to the target, so to a hundred snapshots. It grows by
at most one snapshot with each report that is applied, and by one with every such report if the
plan has a sampling point for every pair. This is exact arithmetic, with a counter that has no
bound. -/
theorem history_keeps_pace {read : String → Option ℝ} {defaults : HyperDefaults ℝ}
    {d : Definition ℝ} {state : TuningState ℝ} (hbuild : d.build read defaults = .ok state)
    {s : Store ℝ} (hs : s.Filed) {id : RunId} {r : Run ℝ} (hget : s.runs.get? id = some r)
    (hstate : r.state = state) (hgames : r.games = d.games) (calls : List Call) :
    ∃ r', (after Store.repository s calls).runs.get? id = some r' ∧
      KeepsPace d.games ((trace Store.repository s calls).countP (·.applies id)) r'.state ∧
      (2 * r'.state.iter ≤ d.games →
        (r'.state.history.length : ℝ) ≤ targetSamples r'.state.params.length ∧
          r'.state.history.length ≤ 100) := by
  have hbuilt := Definition.built_of_build hbuild
  have hgames_ne : d.games ≠ 0 := by
    intro hzero
    have hplanned := hbuilt.plannedPairs_ne_zero
    rw [hbuilt.plannedPairs, hzero] at hplanned
    exact hplanned rfl
  obtain ⟨r', hget', -, hpace⟩ := exists_run_after
    (fun H r' => r'.games = d.games ∧ KeepsPace d.games (H.countP (·.applies id)) r'.state)
    (fun h _ hstep => ⟨hstep.games_eq.trans h.1, h.2.step hgames_ne h.1 hstep⟩) hs hget
    ⟨hgames, .start (hstate ▸ hbuilt.history)⟩ calls
  refine ⟨r', hget', hpace, fun hplan => ?_⟩
  have htarget := hpace.length_le_targetSamples hgames_ne hplan
  exact ⟨htarget, by exact_mod_cast htarget.trans (targetSamples_le _)⟩

theorem history_keeps_pace_solo :
    (Definition.small .scheduleFreeSgd).build readNat .standard = .ok Run.solo.state ∧
      Store.solo.Filed ∧ Store.solo.runs.get? ⟨1⟩ = some Run.solo ∧
      Run.solo.games = (Definition.small .scheduleFreeSgd).games ∧
      ∃ r, (after Store.repository Store.solo (soloRounds 10)).runs.get? ⟨1⟩ = some r ∧
        2 * r.state.iter ≤ (Definition.small .scheduleFreeSgd).games ∧
        r.state.history.length = 10 ∧ r.state.history.length ≤ 100 := by
  obtain ⟨r, hget, -, -, -, hiter, hhistory⟩ := exists_run_after_soloRounds 10
  obtain ⟨r', hget', -, hplan⟩ :=
    history_keeps_pace Run.build_solo Store.filed_solo Store.get?_solo rfl rfl (soloRounds 10)
  obtain rfl := Option.some_injective _ (hget.symm.trans hget')
  have hplanned : 2 * r.state.iter ≤ (Definition.small .scheduleFreeSgd).games := by
    rw [hiter]
    rfl
  exact ⟨Run.build_solo, Store.filed_solo, Store.get?_solo, rfl, r, hget, hplanned, hhistory,
    (hplan hplanned).2⟩

/-- With a hundred and one of ten planned pairs played, the history of the small run is longer than
its target. -/
theorem history_exceeds_target :
    (Definition.small .scheduleFreeSgd).build readNat .standard = .ok Run.solo.state ∧
      Store.solo.Filed ∧ Store.solo.runs.get? ⟨1⟩ = some Run.solo ∧
      Run.solo.games = (Definition.small .scheduleFreeSgd).games ∧
      ∃ r, (after Store.repository Store.solo (soloRounds 101)).runs.get? ⟨1⟩ = some r ∧
        r.state.history.length = 101 ∧
        ¬ (r.state.history.length : ℝ) ≤ targetSamples r.state.params.length := by
  obtain ⟨r, hget, -, -, hparams, -, hhistory⟩ := exists_run_after_soloRounds 101
  refine ⟨Run.build_solo, Store.filed_solo, Store.get?_solo, rfl, r, hget, hhistory, ?_⟩
  rw [hhistory, hparams]
  norm_num [targetSamples]

end Coordinator

end PairedTuning
