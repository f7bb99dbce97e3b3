import Mathlib
import PairedTuning.Proofs.Definition.Build
import PairedTuning.Proofs.Update.Defined

/-!
# What every run keeps

A run that was built from a definition is tuned by reports, each for a perturbation with flips for
the parameters, or for the first of them. `Sound` is what holds at the start and what every report
keeps, whatever the rule: values within their bounds, second moments within their range, a mass that
is the learning rate times the counter. The other laws of all reachable states follow from it,
in particular that no report divides by zero.
-/

namespace PairedTuning

/-! ### Reports -/

/-- A report for a perturbation that was issued. -/
structure IssuedReport (α : Type) where
  /-- The counter at which the perturbation was issued. -/
  issued : Nat
  flips : List Flip
  pairs : Nat
  signed : α

def IssuedReport.map {α β : Type} (f : α → β) (r : IssuedReport α) : IssuedReport β :=
  ⟨r.issued, r.flips, r.pairs, f r.signed⟩

namespace TuningState

section

variable {α : Type} [Scalar α]

/-- The state after a report in a run of a number of games, and the values shown. -/
def report (t : TuningState α) (games : Nat) (r : IssuedReport α) : TuningState α × List α :=
  let nudges := t.contexts r.issued r.flips
  let (folded, display) := t.fold nudges r.issued r.pairs r.signed
  ((folded.record games nudges display).1, display)

/-- The state after reports, one after the other. -/
def afterReports (t : TuningState α) (games : Nat) (reports : List (IssuedReport α)) :
    TuningState α :=
  reports.foldl (fun t r => (t.report games r).1) t

@[simp] lemma afterReports_append_singleton (t : TuningState α) (games : Nat)
    (reports : List (IssuedReport α)) (r : IssuedReport α) :
    t.afterReports games (reports ++ [r]) = ((t.afterReports games reports).report games r).1 := by
  simp [afterReports]

lemma sameSetup_report (t : TuningState α) (games : Nat) (r : IssuedReport α) :
    SameSetup t (t.report games r).1 :=
  sameSetup_apply t games _ r.issued r.pairs r.signed

@[simp] lemma report_iter (t : TuningState ℝ) (games : Nat) (r : IssuedReport ℝ) :
    (t.report games r).1.iter = t.iter + r.pairs :=
  apply_iter t games _ r.issued r.pairs r.signed

lemma sameSetup_afterReports (t : TuningState α) (games : Nat) (reports : List (IssuedReport α)) :
    SameSetup t (t.afterReports games reports) := by
  induction reports using List.reverseRecOn with
  | nil => exact .refl t
  | append_singleton reports r ih =>
    rw [afterReports_append_singleton]
    exact ih.trans (sameSetup_report ..)

lemma afterReports_iter (t : TuningState ℝ) (games : Nat) (reports : List (IssuedReport ℝ)) :
    (t.afterReports games reports).iter = t.iter + (reports.map (·.pairs)).sum := by
  induction reports using List.reverseRecOn with
  | nil => rfl
  | append_singleton reports r ih =>
    rw [afterReports_append_singleton, report_iter, ih, List.map_append, List.sum_append,
      Nat.add_assoc, List.map_singleton, List.sum_singleton]

end

end TuningState

/-! ### What is kept -/

/-- The rate at which a schedule-free run gains mass. -/
def Optimizer.rate : Optimizer ℝ → ℝ
  | classic .. => 0
  | scheduleFreeSgd lr _ => lr
  | scheduleFreeAdam lr .. => lr

@[simp] lemma HyperDefaults.rate_optimizer (defaults : HyperDefaults ℝ) (family : Family)
    (gain : BlockGain) (n : ℝ) : (defaults.optimizer family gain n).rate =
      if family.isScheduleFree then defaults.lr else 0 := by
  cases family <;> rfl

/-- The hyper-parameters of a run are admitted ones. -/
def Optimizer.Admitted : Optimizer ℝ → Prop
  | classic offset .. => 0 ≤ offset
  | scheduleFreeSgd lr _ => 0 < lr
  | scheduleFreeAdam lr _ beta2 _ => 0 < lr ∧ beta2 ∈ Set.Ioc 0 1

namespace Optimizer.Admitted

variable {optimizer : Optimizer ℝ} (h : optimizer.Admitted)

include h

lemma rate_pos (hfree : optimizer.family.isScheduleFree) : 0 < optimizer.rate := by
  cases optimizer with
  | classic => cases hfree
  | scheduleFreeSgd lr beta => exact h
  | scheduleFreeAdam lr beta1 beta2 eps => exact h.1

lemma proper {p : Parameter ℝ} (hsize : 0 < p.c) {s : Schedule ℝ}
    (hs : Schedule.ofParameter? optimizer p = some s) : s.Proper := by
  cases optimizer with
  | classic offset alpha gamma gain =>
    cases hs
    exact ⟨hsize, h⟩
  | scheduleFreeSgd lr beta => cases hs
  | scheduleFreeAdam lr beta1 beta2 eps => cases hs

end Optimizer.Admitted

/-- The values of a parameter stay where its rule keeps them. -/
structure Parameter.Sound (optimizer : Optimizer ℝ) (p : Parameter ℝ) : Prop where
  theta : p.theta ∈ Set.Icc p.low p.high
  v : p.v ∈ Set.Icc 0 4
  v_eq : optimizer.family ≠ .scheduleFreeAdam → p.v = 0
  z_eq : optimizer.family = .classic → p.z = p.start

/-- Each of the values belongs to a parameter and is within its bounds. -/
def Within (params : List (Parameter ℝ)) (xs : List ℝ) : Prop :=
  ∀ (i : Nat) (x : ℝ), xs[i]? = some x → ∃ p, params[i]? = some p ∧ x ∈ Set.Icc p.low p.high

namespace TuningState

/-- What every report keeps. -/
structure Sound (t : TuningState ℝ) : Prop where
  optimizer : t.optimizer.Admitted
  size : ∀ p ∈ t.params, 0 < p.c
  params : ∀ p ∈ t.params, p.Sound t.optimizer
  history : ∀ samples ∈ t.history, Within t.params (samples.map (·.theta))
  mass : t.mass = t.optimizer.rate * t.iter
  initial : t.moments.initial ∈ PairMoments.range

end TuningState

/-! ### The start -/

namespace Definition.Built

variable {read : String → Option ℝ} {defaults : HyperDefaults ℝ} {d : Definition ℝ}
  {state : TuningState ℝ}

lemma offsetFraction_nonneg (h : Built read defaults d state) (hfamily : d.family = .classic) :
    0 ≤ defaults.offsetFraction := by
  simpa [HyperParameter.requirement, Requirement.admits, HyperDefaults.get] using
    h.admitted .offsetFraction (by simp [hfamily, Family.hyperParameters])

lemma optimizer_admitted (h : Built read defaults d state) : state.optimizer.Admitted := by
  rw [h.optimizer]
  cases hfamily : d.family with
  | classic => exact mul_nonneg (h.offsetFraction_nonneg hfamily) (Nat.cast_nonneg _)
  | scheduleFreeSgd => exact h.lr_pos (by rw [hfamily]; rfl)
  | scheduleFreeAdam => exact ⟨h.lr_pos (by rw [hfamily]; rfl), h.beta2_mem hfamily⟩

/-- In a run of any family the size of a perturbation is positive. -/
lemma size_pos (h : Built read defaults d state) {p : Parameter ℝ} (hp : p ∈ state.params) :
    0 < p.c := by
  cases hfamily : d.family with
  | classic =>
    obtain ⟨line, hvalid, hline⟩ := h.params p hp
    have hcEnd : 0 < line.cEnd := by simpa using hvalid.cEnd
    have hplanned : (0 : ℝ) < state.plannedPairs :=
      Nat.cast_pos.mpr (Nat.pos_of_ne_zero h.plannedPairs_ne_zero)
    rw [h.optimizer, hfamily, HyperDefaults.optimizer] at hline
    obtain ⟨-, hc, -⟩ :=
      ParamLine.constants_classic_eq_ok (ParamLine.constants_of_toParameter hline)
    rw [hc]
    exact mul_pos hcEnd (Real.rpow_pos_of_pos hplanned _)
  | scheduleFreeSgd => exact h.c_pos (by rw [hfamily]; rfl) hp
  | scheduleFreeAdam => exact h.c_pos (by rw [hfamily]; rfl) hp

lemma sound (h : Built read defaults d state) : state.Sound where
  optimizer := h.optimizer_admitted
  size _ hp := h.size_pos hp
  params p hp := by
    have hinit := h.initial_eq hp
    have hz : p.z = p.start := congrArg (·.z) hinit.symm
    have htheta : p.theta = p.start := congrArg (·.theta) hinit.symm
    have hv : p.v = 0 := (congrArg (·.v) hinit.symm).trans Scalar.zero_real
    exact ⟨htheta ▸ h.start_mem hp, by simp [hv], fun _ => hv, fun _ => hz⟩
  history := by simp [h.history]
  mass := by simp [h.mass, h.iter]
  initial := h.initial_mem

end Definition.Built

/-! ### One parameter -/

/-- The second moment stays between where it was and the estimate. -/
lemma Adam.moment_mem {v beta2 mu2 : ℝ} (hv : v ∈ Set.Icc 0 4) (hbeta2 : beta2 ∈ Set.Ioc 0 1)
    (hmu2 : mu2 ∈ PairMoments.range) (n steps : Nat) :
    (moment v beta2 n mu2 steps).1 ∈ Set.Icc 0 4 := by
  have hmu2' : mu2 ∈ Set.Icc (0 : ℝ) 4 := ⟨le_trans (by norm_num) hmu2.1, hmu2.2⟩
  have hdecay : Scalar.pow beta2 (Scalar.ofNat n) = beta2 ^ n := Real.rpow_natCast beta2 n
  have hdecay_nonneg : 0 ≤ beta2 ^ n := pow_nonneg hbeta2.1.le n
  have hdecay_le : 0 ≤ 1 - beta2 ^ n := sub_nonneg.mpr (pow_le_one₀ hbeta2.1.le hbeta2.2)
  have hmix : beta2 ^ n * v + (1 - beta2 ^ n) * mu2 ∈ Set.Icc 0 4 :=
    convex_Icc 0 4 hv hmu2' hdecay_nonneg hdecay_le (by ring)
  unfold moment
  split_ifs
  · simpa only [hdecay, Scalar.one_real] using hmix
  · exact hv

namespace Parameter

variable {optimizer : Optimizer ℝ} {p : Parameter ℝ}

lemma clamp_mem (hp : p.theta ∈ Set.Icc p.low p.high) (x : ℝ) :
    p.clamp x ∈ Set.Icc p.low p.high :=
  Scalar.clamp_mem (hp.1.trans hp.2) x

lemma sgdStep_mem (hp : p.theta ∈ Set.Icc p.low p.high) (nudge : Nudge ℝ) (n : Nat)
    (s lr beta : ℝ) (mass : Mass ℝ) :
    let u := p.sgdStep nudge n s lr beta mass
    u.theta ∈ Set.Icc p.low p.high ∧ u.display ∈ Set.Icc p.low p.high ∧ u.v = p.v := by
  simp only [sgdStep, Scalar.zero_real, beq_iff_eq]
  by_cases hbeta : beta = 0
  · rw [if_pos hbeta]
    exact ⟨clamp_mem hp _, clamp_mem hp _, rfl⟩
  · rw [if_neg hbeta]
    exact ⟨clamp_mem hp _, clamp_mem hp _, rfl⟩

lemma adamStep_mem (hp : p.theta ∈ Set.Icc p.low p.high) (nudge : Nudge ℝ) (n : Nat) (s : ℝ)
    (rates : AdamRates ℝ) (mass : Mass ℝ) (mu2 : ℝ) (steps : Nat) :
    let u := p.adamStep nudge n s rates mass mu2 steps
    u.theta ∈ Set.Icc p.low p.high ∧ u.display ∈ Set.Icc p.low p.high ∧
      u.v = (Adam.moment p.v rates.beta2 n mu2 steps).1 := by
  simp only [adamStep, Adam.secondMoment, Scalar.zero_real, beq_iff_eq]
  by_cases hbeta : rates.beta1 = 0
  · rw [if_pos hbeta]
    exact ⟨clamp_mem hp _, clamp_mem hp _, rfl⟩
  · rw [if_neg hbeta]
    exact ⟨clamp_mem hp _, clamp_mem hp _, rfl⟩

/-- Every rule keeps a parameter sound, and shows a value within its bounds. -/
lemma Sound.updateOf {t : TuningState ℝ} (hp : p.Sound t.optimizer) (ht : t.Sound)
    (issued n : Nat) (s : ℝ) (nudge : Nudge ℝ) :
    let u := t.updateOf issued n s p nudge
    (p.store u).Sound t.optimizer ∧ u.display ∈ Set.Icc p.low p.high := by
  have hadmitted := ht.optimizer
  have hestimate := PairMoments.estimate_mem ht.initial
  dsimp only [TuningState.updateOf]
  cases hoptimizer : t.optimizer with
  | classic offset alpha gamma gain =>
    rw [hoptimizer] at hp
    have hclamp := clamp_mem hp.theta
      (p.theta + t.blockGain gain p nudge issued n * s * nudge.flip.factor)
    exact ⟨⟨hclamp, hp.v, hp.v_eq, hp.z_eq⟩, hclamp⟩
  | scheduleFreeSgd lr beta =>
    rw [hoptimizer] at hp
    obtain ⟨htheta, hdisplay, hv⟩ :=
      sgdStep_mem hp.theta nudge n s lr beta (Mass.advance t.mass n lr)
    exact ⟨⟨htheta, Set.mem_of_eq_of_mem hv hp.v, fun h => hv.trans (hp.v_eq h), nofun⟩, hdisplay⟩
  | scheduleFreeAdam lr beta1 beta2 eps =>
    rw [hoptimizer] at hp hadmitted
    obtain ⟨htheta, hdisplay, hv⟩ := adamStep_mem hp.theta nudge n s ⟨lr, beta1, beta2, eps⟩
      (Mass.advance t.mass n lr) t.moments.estimate (Scalar.count ℝ (t.iter + n))
    have hmem := Adam.moment_mem hp.v hadmitted.2 hestimate n (Scalar.count ℝ (t.iter + n))
    exact ⟨⟨htheta, Set.mem_of_eq_of_mem hv hmem, fun h => absurd rfl h, nofun⟩, hdisplay⟩

end Parameter

/-! ### One report -/

lemma Within.of_sameSetup {s t : TuningState ℝ} (h : s.SameSetup t) {xs : List ℝ}
    (hxs : Within s.params xs) : Within t.params xs := by
  intro i x hx
  obtain ⟨p, hp, hmem⟩ := hxs i x hx
  obtain ⟨q, hq, hinit⟩ := h.exists_param hp
  refine ⟨q, hq, ?_⟩
  rwa [Parameter.low_eq_of_initial hinit, Parameter.high_eq_of_initial hinit]

lemma TuningState.massAfter_eq (t : TuningState ℝ) (n : Nat) :
    t.massAfter n = t.mass + t.optimizer.rate * n := by
  cases hoptimizer : t.optimizer <;> simp [massAfter, hoptimizer, Mass.advance, Optimizer.rate]

namespace TuningState.Sound

variable {t : TuningState ℝ}

/-- The mass after a block is what the learning rate makes of the counter after it. -/
lemma massAfter (h : t.Sound) (n : Nat) :
    t.massAfter n = t.optimizer.rate * (t.iter + n : Nat) := by
  rw [massAfter_eq, h.mass, Nat.cast_add, mul_add]

/-- A sound state has all that the formulas of a report rely on. -/
lemma proper (h : t.Sound) : t.Proper where
  schedule p hp s hs := h.optimizer.proper (h.size p hp) hs
  mass hfree n hn := by
    have hcount : (0 : ℝ) < (t.iter + n : Nat) := Nat.cast_pos.mpr (by omega)
    rw [h.massAfter]
    exact mul_pos (h.optimizer.rate_pos hfree) hcount

lemma fold (h : t.Sound) (nudges : List (Nudge ℝ)) (issued n : Nat) (s : ℝ) :
    (t.fold nudges issued n s).1.Sound ∧ Within t.params (t.fold nudges issued n s).2 := by
  have hsetup := sameSetup_fold t nudges issued n s
  by_cases hn : n = 0
  · simp only [TuningState.fold, if_pos hn]
    refine ⟨h, fun i x hx => ?_⟩
    obtain ⟨p, hp, rfl⟩ := Option.map_eq_some_iff.mp ((List.getElem?_map ..).symm.trans hx)
    exact ⟨p, hp, (h.params p (List.mem_of_getElem? hp)).theta⟩
  · simp only [TuningState.fold, if_neg hn, updates_eq, Scalar.count_real] at hsetup ⊢
    set updates := t.params.zipWith (t.updateOf issued n s) nudges
    have hupdate {i : Nat} {u : ParamUpdate ℝ} (hu : updates[i]? = some u) :
        ∃ p nudge, t.params[i]? = some p ∧ t.updateOf issued n s p nudge = u := by
      obtain ⟨p, nudge, hp, -, hu⟩ := List.getElem?_zipWith_eq_some.mp hu
      exact ⟨p, nudge, hp, hu⟩
    have hparam : ∀ p' ∈ storeUpdates t.params updates, ∃ p ∈ t.params,
        p' = p ∨ ∃ nudge, p' = p.store (t.updateOf issued n s p nudge) := by
      intro p' hp'
      obtain ⟨i, hi⟩ := List.mem_iff_getElem?.mp hp'
      obtain ⟨p, hp, rfl⟩ := Option.map_eq_some_iff.mp ((getElem?_storeUpdates ..).symm.trans hi)
      have hmem := List.mem_of_getElem? hp
      cases hu : updates[i]? with
      | none => exact ⟨p, hmem, .inl rfl⟩
      | some u =>
        obtain ⟨q, nudge, hq, rfl⟩ := hupdate hu
        cases hp.symm.trans hq
        exact ⟨p, hmem, .inr ⟨nudge, rfl⟩⟩
    refine ⟨⟨h.optimizer, ?_, ?_, ?_, h.massAfter n, ?_⟩, ?_⟩
    · intro p' hp'
      obtain ⟨p, hp, rfl | ⟨nudge, rfl⟩⟩ := hparam p' hp'
      · exact h.size p' hp
      · exact h.size p hp
    · intro p' hp'
      obtain ⟨p, hp, rfl | ⟨nudge, rfl⟩⟩ := hparam p' hp'
      · exact h.params p' hp
      · exact ((h.params p hp).updateOf h issued n s nudge).1
    · exact fun samples hsamples => (h.history samples hsamples).of_sameSetup hsetup
    · rw [PairMoments.initial_add]
      exact h.initial
    · intro i x hx
      obtain ⟨u, hu, rfl⟩ := Option.map_eq_some_iff.mp ((List.getElem?_map ..).symm.trans hx)
      obtain ⟨p, nudge, hp, rfl⟩ := hupdate hu
      exact ⟨p, hp, ((h.params p (List.mem_of_getElem? hp)).updateOf h issued n s nudge).2⟩

lemma record (h : t.Sound) (games : Nat) (nudges : List (Nudge ℝ)) {display : List ℝ}
    (hdisplay : Within t.params display) : (t.record games nudges display).1.Sound := by
  unfold TuningState.record
  split_ifs
  · refine ⟨h.optimizer, h.size, h.params, ?_, h.mass, h.initial⟩
    rw [List.forall_mem_append, List.forall_mem_singleton]
    refine ⟨h.history, fun i x hx => ?_⟩
    obtain ⟨sample, hsample, rfl⟩ :=
      Option.map_eq_some_iff.mp ((List.getElem?_map ..).symm.trans hx)
    obtain ⟨nudge, theta, -, htheta, rfl⟩ := List.getElem?_zipWith_eq_some.mp hsample
    exact hdisplay i theta htheta
  · exact h

lemma report (h : t.Sound) (games : Nat) (r : IssuedReport ℝ) :
    (t.report games r).1.Sound ∧ Within t.params (t.report games r).2 := by
  obtain ⟨hfold, hdisplay⟩ := h.fold (t.contexts r.issued r.flips) r.issued r.pairs r.signed
  exact ⟨hfold.record games _ (hdisplay.of_sameSetup (sameSetup_fold ..)), hdisplay⟩

lemma afterReports (h : t.Sound) (games : Nat) (reports : List (IssuedReport ℝ)) :
    (t.afterReports games reports).Sound := by
  induction reports using List.reverseRecOn with
  | nil => exact h
  | append_singleton reports r ih =>
    rw [afterReports_append_singleton]
    exact (ih.report games r).1

lemma foldBlock (h : t.Sound) (b : Block ℝ) : (t.foldBlock b).1.Sound :=
  (h.fold _ b.issued b.pairs b.signed).1

lemma foldBlocks (h : t.Sound) (blocks : List (Block ℝ)) : (t.foldBlocks blocks).Sound := by
  induction blocks generalizing t with
  | nil => exact h
  | cons b blocks ih => exact ih (h.foldBlock b)

/-- Over checked scalars a report gives the numbers that it gives as ever. -/
lemma report_of {guess : Bool} (h : t.Sound) (games : Nat) (r : IssuedReport ℝ) :
    (t.map (Checked.of : ℝ → Checked guess)).report games (r.map .of) =
      ((t.report games r).1.map .of, (t.report games r).2.map .of) := by
  simp only [TuningState.report, IssuedReport.map, contexts_of h.proper, fold_of h.proper,
    record_of]

lemma hasRange (h : t.Sound) : ∀ p ∈ t.params, p.hasRange := by
  intro p hp
  have hmem := (h.params p hp).theta
  exact decide_eq_true (hmem.1.trans hmem.2)

/-- No report is refused for its bounds. -/
lemma fold?_eq (h : t.Sound) (nudges : List (Nudge ℝ)) (issued n : Nat) (s : ℝ) :
    t.fold? nudges issued n s = some (t.fold nudges issued n s) := by
  rw [fold?, if_pos (canFold_of_hasRange h.hasRange nudges n)]

lemma perturb?_eq (h : t.Sound) (k : Nat) (draw : Nat → Flip) :
    t.perturb? k draw = some (t.perturb k draw) :=
  if_pos (List.all_eq_true.mpr h.hasRange)

end TuningState.Sound

/-! ### Perturbations -/

/-- The first side plays on the side of the flip, the second on the other, and `theta` is between
them. -/
def Flip.Parts (f : Flip) (white theta black : ℝ) : Prop :=
  match f with
  | plus => black ≤ theta ∧ theta ≤ white
  | minus => white ≤ theta ∧ theta ≤ black

lemma Parameter.nudge_pos (optimizer : Optimizer ℝ) {p : Parameter ℝ} (hc : 0 < p.c) (k : Nat)
    (f : Flip) : 0 < (p.nudge optimizer k f).c := by
  cases optimizer with
  | classic offset alpha gamma gain =>
    have hk : (0 : ℝ) < k + 1 := by positivity
    simp only [nudge, Schedule.ofParameter?, Schedule.size, Scalar.ofNat_real, Scalar.one_real]
    exact div_pos hc (Real.rpow_pos_of_pos hk gamma)
  | scheduleFreeSgd => exact hc
  | scheduleFreeAdam => exact hc

/-- A move keeps both sides within the bounds, and `theta` between them. -/
lemma Parameter.parts_of_mem {p : Parameter ℝ} (hp : p.theta ∈ Set.Icc p.low p.high) {n : Nudge ℝ}
    (hc : 0 ≤ n.c) : n.flip.Parts (p.white n).value p.theta (p.black n).value := by
  have hup : p.theta ≤ p.theta + n.c := le_add_of_nonneg_right hc
  have hdown : p.theta + -n.c ≤ p.theta := add_le_of_nonpos_right (neg_nonpos.mpr hc)
  simp only [white, black, clamp]
  cases n.flip with
  | plus =>
    simp only [Flip.Parts, Flip.opposite, Flip.factor, Scalar.one_real, mul_one, mul_neg]
    exact ⟨Scalar.clamp_le hp hdown, Scalar.le_clamp hp hup⟩
  | minus =>
    simp only [Flip.Parts, Flip.opposite, Flip.factor, Scalar.one_real, mul_one, mul_neg]
    exact ⟨Scalar.clamp_le hp hdown, Scalar.le_clamp hp hup⟩

namespace TuningState

/-- The perturbation at a counter moves every parameter within its bounds, to both sides of where
it is. -/
structure PerturbsWithin (t : TuningState ℝ) (k : Nat) (draw : Nat → Flip) : Prop where
  issued : t.perturb? k draw = some (t.perturb k draw)
  white : (t.perturb k draw).white.length = t.params.length
  black : (t.perturb k draw).black.length = t.params.length
  values : ∀ (i : Nat) (p : Parameter ℝ) (w : WhiteParam ℝ) (b : BlackParam ℝ),
    t.params[i]? = some p → (t.perturb k draw).white[i]? = some w →
    (t.perturb k draw).black[i]? = some b →
    w.flip = draw i ∧ w.value ∈ Set.Icc p.low p.high ∧ b.value ∈ Set.Icc p.low p.high ∧
      (draw i).Parts w.value p.theta b.value

lemma Sound.perturbsWithin {t : TuningState ℝ} (h : t.Sound) (k : Nat) (draw : Nat → Flip) :
    t.PerturbsWithin k draw where
  issued := h.perturb?_eq k draw
  white := by simp [perturb]
  black := by simp [perturb]
  values i p w b hp hw hb := by
    have hmem := List.mem_of_getElem? hp
    have htheta := (h.params p hmem).theta
    have hc := Parameter.nudge_pos t.optimizer (h.size p hmem) k (draw i)
    simp only [perturb, List.getElem?_map, List.getElem?_mapIdx, hp, Option.map_some,
      Option.some.injEq] at hw hb
    subst hw hb
    have hparts := Parameter.parts_of_mem htheta hc.le
    rw [Parameter.nudge_flip] at hparts
    exact ⟨Parameter.nudge_flip .., Parameter.clamp_mem htheta _, Parameter.clamp_mem htheta _,
      hparts⟩

/-! ### All reachable states -/

/-- What holds of a state that is reached in a run for a number of games. -/
structure Lawful (defaults : HyperDefaults ℝ) (d : Definition ℝ) (games : Nat)
    (start t : TuningState ℝ) : Prop where
  setup : SameSetup start t
  theta : ∀ p ∈ t.params, p.theta ∈ Set.Icc p.low p.high
  v : ∀ p ∈ t.params, p.v ∈ Set.Icc 0 4
  v_eq_zero : d.family ≠ .scheduleFreeAdam → ∀ p ∈ t.params, p.v = 0
  z_eq_start : d.family = .classic → ∀ p ∈ t.params, p.z = p.start
  history : ∀ samples ∈ t.history, Within t.params (samples.map (·.theta))
  mass : t.mass = if d.family.isScheduleFree then defaults.lr * t.iter else 0
  estimate : t.moments.estimate ∈ Set.Icc 1e-12 4
  perturbs : ∀ (k : Nat) (draw : Nat → Flip), t.PerturbsWithin k draw
  /-- The bounds admit every report. -/
  folds : ∀ (nudges : List (Nudge ℝ)) (issued n : Nat) (s : ℝ),
    t.fold? nudges issued n s = some (t.fold nudges issued n s)
  /-- Every value that a report shows is within the bounds of its parameter. -/
  display : ∀ r : IssuedReport ℝ, Within t.params (t.report games r).2
  iter_le : ∀ r : IssuedReport ℝ, t.iter ≤ (t.report games r).1.iter
  /-- No report divides by zero, neither for the moves nor after that. -/
  checked : ∀ (guess : Bool) (r : IssuedReport ℝ),
    (t.map (Checked.of : ℝ → Checked guess)).contexts r.issued r.flips =
        (t.contexts r.issued r.flips).map (·.map .of) ∧
      (t.map (Checked.of : ℝ → Checked guess)).report games (r.map .of) =
        ((t.report games r).1.map .of, (t.report games r).2.map .of)

/-- Every state that a run reaches by reports is lawful, and has counted their pairs. -/
theorem lawful_of_reached {read : String → Option ℝ} {defaults : HyperDefaults ℝ}
    {d : Definition ℝ} {state : TuningState ℝ} (hbuild : d.build read defaults = .ok state)
    (games : Nat) (reports : List (IssuedReport ℝ)) :
    Lawful defaults d games state (state.afterReports games reports) ∧
      (state.afterReports games reports).iter = (reports.map (·.pairs)).sum := by
  have hbuilt := Definition.built_of_build hbuild
  have hsound := hbuilt.sound.afterReports games reports
  have hsetup := sameSetup_afterReports state games reports
  have hiter := afterReports_iter state games reports
  rw [hbuilt.iter, Nat.zero_add] at hiter
  refine ⟨?_, hiter⟩
  generalize state.afterReports games reports = t at hsound hsetup
  have hoptimizer := hsetup.optimizer.trans hbuilt.optimizer
  have hfamily : t.optimizer.family = d.family := by rw [hoptimizer, HyperDefaults.family_optimizer]
  exact
    { setup := hsetup
      theta := fun p hp => (hsound.params p hp).theta
      v := fun p hp => (hsound.params p hp).v
      v_eq_zero := fun h p hp => (hsound.params p hp).v_eq (hfamily ▸ h)
      z_eq_start := fun h p hp => (hsound.params p hp).z_eq (hfamily.trans h)
      history := hsound.history
      mass := by rw [hsound.mass, hoptimizer, HyperDefaults.rate_optimizer, ite_mul, zero_mul]
      estimate := PairMoments.estimate_mem hsound.initial
      perturbs := hsound.perturbsWithin
      folds := hsound.fold?_eq
      display := fun r => (hsound.report games r).2
      iter_le := fun r => report_iter t games r ▸ Nat.le_add_right _ _
      checked := fun _ r => ⟨contexts_of hsound.proper r.issued r.flips, hsound.report_of games r⟩ }

/-- Three reports of the small run: one that moves its parameter, one without pairs, and one
without a flip for the parameter. -/
theorem lawful_of_reached_small :
    let optimizer := HyperDefaults.standard.optimizer .scheduleFreeAdam .blockMean (10 : ℝ)
    let reports : List (IssuedReport ℝ) := [⟨0, [.plus], 2, 4⟩, ⟨2, [.minus], 0, 0⟩, ⟨1, [], 3, -6⟩]
    let t := (small optimizer).afterReports 20 reports
    (Definition.small .scheduleFreeAdam).build readNat .standard = .ok (small optimizer) ∧
      t.mass = 5 ∧ (∀ p ∈ t.params, p.v ∈ Set.Icc 0 4) ∧
      t.PerturbsWithin t.iter fun _ => .plus := by
  intro optimizer reports t
  have hbuild : (Definition.small .scheduleFreeAdam).build readNat .standard =
      .ok (small optimizer) := Definition.build_small rfl
  obtain ⟨hlawful, hiter⟩ := lawful_of_reached hbuild 20 reports
  have hfree : (Definition.small .scheduleFreeAdam).family.isScheduleFree = true := rfl
  have hmass := hlawful.mass
  rw [hiter, if_pos hfree] at hmass
  refine ⟨hbuild, hmass.trans ?_, hlawful.v, hlawful.perturbs _ _⟩
  simp [reports, HyperDefaults.standard]

end TuningState

end PairedTuning
