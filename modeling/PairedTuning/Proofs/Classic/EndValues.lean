import Mathlib
import PairedTuning.Proofs.Classic.UnitSteps

/-!
# Where a classic schedule ends

A definition says where the schedule of a parameter ends: with a perturbation of size `c_end` and a
gain of `r_end` at the last planned pair. The constants of a run are chosen for that, and the
schedule that is computed from them ends there, whatever the exponents and the offset are. On the
way it only falls, since no exponent is negative. Pairs are counted from one and the counter of a
run from zero, so the last planned pair is the one issued when a single planned pair is left.
-/

namespace PairedTuning

namespace Schedule

/-- The schedule falls to a size and a gain that it has at pair `n`. -/
structure EndsAt (s : Schedule ℝ) (n cEnd rEnd : ℝ) : Prop where
  size : s.size n = cEnd
  gain : s.gain n = rEnd
  le_size : ∀ k ∈ Set.Icc 1 n, cEnd ≤ s.size k
  size_antitone : AntitoneOn s.size (Set.Ici 1)
  numerator_antitone : AntitoneOn s.numerator (Set.Ici 1)

variable {s : Schedule ℝ}

lemma size_antitoneOn (hc : 0 ≤ s.c) (hgamma : 0 ≤ s.gamma) : AntitoneOn s.size (Set.Ioi 0) := by
  intro k hk k' _ hle
  exact div_le_div_of_nonneg_left hc (Real.rpow_pos_of_pos hk _)
    (Real.rpow_le_rpow (le_of_lt hk) hle hgamma)

lemma numerator_antitoneOn (ha : 0 ≤ s.a) (hoffset : 0 ≤ s.offset) (halpha : 0 ≤ s.alpha) :
    AntitoneOn s.numerator (Set.Ioi 0) := by
  intro k hk k' _ hle
  have hpos : 0 < s.offset + k := add_pos_of_nonneg_of_pos hoffset hk
  exact div_le_div_of_nonneg_left ha (Real.rpow_pos_of_pos hpos _)
    (Real.rpow_le_rpow hpos.le (by gcongr) halpha)

/-- The constants of a line undo the powers by which the schedule divides at its last pair. -/
lemma endsAt_of_constants {n cEnd rEnd : ℝ} (hn : 1 ≤ n) (hcEnd : 0 < cEnd) (hrEnd : 0 < rEnd)
    (hoffset : 0 ≤ s.offset) (halpha : 0 ≤ s.alpha) (hgamma : 0 ≤ s.gamma)
    (hc : s.c = cEnd * n ^ s.gamma) (ha : s.a = rEnd * cEnd * cEnd * (s.offset + n) ^ s.alpha) :
    s.EndsAt n cEnd rEnd := by
  have hpos : 0 < n := one_pos.trans_le hn
  have hpower : 0 < n ^ s.gamma := Real.rpow_pos_of_pos hpos _
  have hpower' : 0 < (s.offset + n) ^ s.alpha :=
    Real.rpow_pos_of_pos (add_pos_of_nonneg_of_pos hoffset hpos) _
  have hsize : s.size n = cEnd := by
    rw [size, hc]
    exact mul_div_cancel_right₀ _ hpower.ne'
  have hnumerator : s.numerator n = rEnd * (cEnd * cEnd) := by
    rw [numerator, ha, mul_assoc rEnd]
    exact mul_div_cancel_right₀ _ hpower'.ne'
  have hsizes : AntitoneOn s.size (Set.Ioi 0) :=
    size_antitoneOn (hc ▸ (mul_pos hcEnd hpower).le) hgamma
  have hnumerators : AntitoneOn s.numerator (Set.Ioi 0) :=
    numerator_antitoneOn (ha ▸ by positivity) hoffset halpha
  have hpairs : Set.Ici (1 : ℝ) ⊆ Set.Ioi 0 := Set.Ici_subset_Ioi.mpr one_pos
  refine ⟨hsize, ?_, fun k hk => ?_, hsizes.mono hpairs, hnumerators.mono hpairs⟩
  · rw [gain, hsize, hnumerator]
    exact mul_div_cancel_right₀ _ (mul_pos hcEnd hcEnd).ne'
  · exact hsize ▸ hsizes (hpairs hk.1) hpos hk.2

end Schedule

/-- The last planned pair is issued with the size and the gain at which the schedule ends. -/
lemma Schedule.EndsAt.nudge_eq {s : Schedule ℝ} {n : Nat} {cEnd rEnd : ℝ}
    (h : s.EndsAt n cEnd rEnd) (hn : n ≠ 0) {optimizer : Optimizer ℝ} {p : Parameter ℝ}
    (hs : ofParameter? optimizer p = some s) (f : Flip) :
    p.nudge optimizer (n - 1) f = ⟨cEnd, f, some rEnd⟩ := by
  have hk : ((n - 1 : Nat) : ℝ) + 1 = n := by
    rw [← Nat.cast_add_one, Nat.sub_one_add_one hn]
  simp only [Parameter.nudge, hs, Scalar.ofNat_real, Scalar.one_real, hk, h.size, h.gain]

/-- The parameter has a schedule that ends after `n` pairs where its line says. -/
def ParamLine.Reaches (optimizer : Optimizer ℝ) (n : ℝ) (line : ParamLine ℝ) (p : Parameter ℝ) :
    Prop :=
  ∃ s rEnd, Schedule.ofParameter? optimizer p = some s ∧ line.rEnd = some rEnd ∧
    s.EndsAt n line.cEnd rEnd

lemma Definition.Built.reaches {read : String → Option ℝ} {defaults : HyperDefaults ℝ}
    {d : Definition ℝ} {state : TuningState ℝ} (h : Built read defaults d state)
    (hfamily : d.family = .classic) {line : ParamLine ℝ} (hvalid : line.Valid) {p : Parameter ℝ}
    (hline : line.toParameter state.optimizer (Scalar.ofNat state.plannedPairs) = .ok p) :
    line.Reaches state.optimizer state.plannedPairs p := by
  have hadmitted (x : HyperParameter) (hx : x ∈ Family.classic.hyperParameters) :=
    h.admitted x (hfamily ▸ hx)
  have hcEnd : 0 < line.cEnd := by simpa using hvalid.cEnd
  have hn : (1 : ℝ) ≤ state.plannedPairs :=
    Nat.one_le_cast.mpr (Nat.one_le_iff_ne_zero.mpr h.plannedPairs_ne_zero)
  have hoffset := h.optimizer_admitted
  have hconstants := ParamLine.constants_of_toParameter hline
  have hoptimizer := h.optimizer
  rw [hfamily, HyperDefaults.optimizer] at hoptimizer
  rw [hoptimizer] at hconstants hoffset ⊢
  obtain ⟨hrEnd, hc, ha⟩ := ParamLine.constants_classic_eq_ok hconstants
  refine ⟨_, p.rEnd, rfl, hrEnd, Schedule.endsAt_of_constants hn hcEnd ?_ hoffset ?_ ?_ hc ha⟩
  · simpa using hvalid.rEnd p.rEnd hrEnd
  · simpa [HyperParameter.requirement, Requirement.admits, HyperDefaults.get] using
      hadmitted .alpha (by simp [Family.hyperParameters])
  · simpa [HyperParameter.requirement, Requirement.admits, HyperDefaults.get] using
      hadmitted .gamma (by simp [Family.hyperParameters])

/-- What is mapped one for one stays related one for one. -/
lemma forall₂_mapIdx {α β γ : Type} {R : α → β → Prop} {S : α → γ → Prop} {f : Nat → β → γ}
    {xs : List α} {ys : List β} (h : List.Forall₂ R xs ys) (hf : ∀ i x y, R x y → S x (f i y)) :
    List.Forall₂ S xs (ys.mapIdx f) := by
  induction h generalizing f with
  | nil => exact .nil
  | cons hxy _ ih =>
    rw [List.mapIdx_cons]
    exact .cons (hf 0 _ _ hxy) (ih fun i => hf (i + 1))

namespace TuningState

/-- Every classic run that is accepted has a line for every parameter, and whatever reports have
been folded, the schedule of the parameter ends at the size and the gain of the line: it has them at
the last planned pair, is never smaller before, and neither the sizes nor the numerators of the
gains ever grow. The perturbation issued for the last planned pair has exactly this size and this
gain for every parameter. -/
theorem schedule_ends_as_defined {read : String → Option ℝ} {defaults : HyperDefaults ℝ}
    {d : Definition ℝ} {state : TuningState ℝ} (hbuild : d.build read defaults = .ok state)
    (hfamily : d.family = .classic) (games : Nat) (reports : List (IssuedReport ℝ)) :
    let t := state.afterReports games reports
    ∃ lines, ParamLine.ofText read d.text = .ok lines ∧ t.plannedPairs = d.games / 2 ∧
      List.Forall₂ (fun line p => ∃ s rEnd, Schedule.ofParameter? t.optimizer p = some s ∧
        line.rEnd = some rEnd ∧ s.EndsAt t.plannedPairs line.cEnd rEnd) lines t.params ∧
      ∀ draw : Nat → Flip, ∃ perturbation,
        t.perturb? (t.plannedPairs - 1) draw = some perturbation ∧
        List.Forall₂ (fun line w => w.c = line.cEnd ∧ w.gain = line.rEnd) lines
          perturbation.white := by
  intro t
  have hbuilt := Definition.built_of_build hbuild
  have hsetup : SameSetup state t := sameSetup_afterReports state games reports
  have hsound : t.Sound := hbuilt.sound.afterReports games reports
  have hplanned : t.plannedPairs ≠ 0 := hsetup.plannedPairs ▸ hbuilt.plannedPairs_ne_zero
  obtain ⟨lines, htext, hlines⟩ := Definition.exists_lines_of_build hbuild
  have hvalid := (ParamLine.ofText_eq_ok htext).2
  have hreaches : List.Forall₂ (ParamLine.Reaches t.optimizer t.plannedPairs) lines t.params := by
    rw [hsetup.optimizer, hsetup.plannedPairs]
    apply hsetup.forall₂ fun line p => by
      rw [ParamLine.Reaches, Parameter.ofParameter?_initial]
      rfl
    have hboth := (List.forall₂_and_left lines state.params).mpr ⟨hvalid, hlines⟩
    exact hboth.imp fun line p h => hbuilt.reaches hfamily h.1 h.2
  refine ⟨lines, htext, hsetup.plannedPairs.trans hbuilt.plannedPairs, hreaches, fun draw => ?_⟩
  refine ⟨_, hsound.perturb?_eq _ draw, ?_⟩
  rw [white_perturb]
  refine forall₂_mapIdx hreaches fun i line p h => ?_
  obtain ⟨s, rEnd, hs, hrEnd, hends⟩ := h
  rw [hends.nudge_eq hplanned hs]
  exact ⟨rfl, hrEnd.symm⟩

/-- The line of the small run ends with a size of two and a gain of one, after ten pairs. -/
theorem schedule_ends_as_defined_small :
    let t := smallClassicRun.afterReports 20 [⟨0, [.plus], 2, 4⟩]
    (Definition.small .classic).build readNat .harmonic = .ok smallClassicRun ∧
      (Definition.small .classic).family = .classic ∧
      ∃ p s perturbation w, t.params = [p] ∧ Schedule.ofParameter? t.optimizer p = some s ∧
        s.size 10 = 2 ∧ s.gain 10 = 1 ∧ 2 ≤ s.size 1 ∧
        t.perturb? 9 (fun _ => .minus) = some perturbation ∧ perturbation.white = [w] ∧
        w.c = 2 ∧ w.gain = some 1 := by
  intro t
  obtain ⟨lines, htext, hplanned, hparams, hissued⟩ :=
    schedule_ends_as_defined Definition.build_smallClassicRun rfl 20 [⟨0, [.plus], 2, 4⟩]
  have hten : t.plannedPairs = 10 := hplanned
  obtain rfl : lines = [ParamLine.small] :=
    Except.ok.inj (htext.symm.trans (ParamLine.ofText_small .classic))
  obtain ⟨perturbation, hperturb, hwhite⟩ := hissued fun _ => .minus
  obtain ⟨p, rest, ⟨s, rEnd, hs, hrEnd, hends⟩, hrest, hp⟩ := List.forall₂_cons_left_iff.mp hparams
  obtain ⟨w, more, ⟨hc, hgain⟩, hmore, hw⟩ := List.forall₂_cons_left_iff.mp hwhite
  rw [List.forall₂_nil_left_iff] at hrest hmore
  subst hrest hmore
  change t.perturb? (t.plannedPairs - 1) _ = _ at hperturb
  change Schedule.EndsAt s t.plannedPairs _ _ at hends
  rw [hten] at hperturb hends
  cases hrEnd
  exact ⟨Definition.build_smallClassicRun, rfl, p, s, perturbation, w, hp, hs, hends.size,
    hends.gain, hends.le_size 1 (by norm_num), hperturb, hw, hc, hgain⟩

end TuningState

end PairedTuning
