import Mathlib
import PairedTuning.Decimal.Reader
import PairedTuning.Definition.Build
import PairedTuning.Proofs.Except
import PairedTuning.Proofs.Moments.Estimate
import PairedTuning.Proofs.Scalar.Real
import PairedTuning.Proofs.Update.Setup

/-!
# Accepted definitions

Building a run refuses everything that does not make sense, so a state that was built is known to
have admitted hyper-parameters, and parameters that start within their bounds. `Built` collects what
is known, and is all that the laws of new runs need about how a definition is read.
-/

namespace PairedTuning

variable {α : Type} [Scalar α]

/-! ### Hyper-parameters -/

/-- Every schedule-free family has a learning rate and averages. -/
lemma Family.mem_hyperParameters {family : Family} (h : family.isScheduleFree) :
    .lr ∈ family.hyperParameters ∧ .beta ∈ family.hyperParameters := by
  cases family with
  | classic => cases h
  | scheduleFreeSgd => simp [hyperParameters]
  | scheduleFreeAdam => simp [hyperParameters]

lemma Setting.check_eq_ok_iff {setting : Setting} {x : α} :
    setting.check x = .ok () ↔ setting.requirement.admits x := by
  unfold check
  split_ifs with h
  · simp [h]
  · simp [h]

@[simp] lemma HyperDefaults.family_optimizer (defaults : HyperDefaults α) (family : Family)
    (gain : BlockGain) (n : α) : (defaults.optimizer family gain n).family = family := by
  cases family <;> rfl

lemma HyperDefaults.check_eq_ok_iff {defaults : HyperDefaults α} {family : Family} :
    defaults.check family = .ok () ↔
      ∀ p ∈ family.hyperParameters, p.requirement.admits (defaults.get p) := by
  rw [check, forM_eq_ok_iff]
  simp only [Setting.check_eq_ok_iff]
  rfl

/-! ### Lines -/

namespace ParamLine

/-- The values of a line make sense. -/
structure Valid (p : ParamLine α) : Prop where
  bounds : ¬ p.high ≤ p.low
  low_le : p.low ≤ p.start
  le_high : p.start ≤ p.high
  cEnd : ¬ p.cEnd ≤ 0
  rEnd : ∀ r, p.rEnd = some r → ¬ r ≤ 0

/-- A line passes the checks unchanged, exactly if its values make sense. -/
lemma checked_eq_ok_iff {p q : ParamLine α} : p.checked = .ok q ↔ p = q ∧ p.Valid := by
  unfold checked
  split_ifs with hbounds hstart hc
  · rw [false_iff]
    exact fun ⟨_, h⟩ => h.bounds hbounds
  · rw [false_iff]
    exact fun ⟨_, h⟩ => h.cEnd hc
  · have hvalid (hr : ∀ r, p.rEnd = some r → ¬ r ≤ 0) : p.Valid :=
      ⟨hbounds, hstart.1, hstart.2, hc, hr⟩
    cases hr : p.rEnd with
    | none => simpa using fun _ => hvalid (by simp [hr])
    | some r =>
      dsimp only
      split_ifs with hr'
      · rw [false_iff]
        exact fun ⟨_, h⟩ => h.rEnd r hr hr'
      · simpa using fun _ => hvalid (by simpa [hr] using hr')
  · rw [false_iff]
    exact fun ⟨_, h⟩ => hstart ⟨h.low_le, h.le_high⟩

variable {read : String → Option α}

lemma valid_of_ofFields {line : Nat} {earlier fields : List String} {p : ParamLine α}
    (h : ofFields read line earlier fields = .ok p) : p.Valid := by
  simp only [ofFields, bind_eq_ok_iff] at h
  obtain ⟨-, -, -, -, q, -, hchecked⟩ := h
  obtain ⟨rfl, hvalid⟩ := checked_eq_ok_iff.mp hchecked
  exact hvalid

lemma valid_of_ofLines {line : Nat} {earlier : List String} {texts : List (List Char)}
    {lines : List (ParamLine α)} (h : ofLines read line earlier texts = .ok lines) :
    ∀ p ∈ lines, p.Valid := by
  induction texts generalizing line earlier lines with
  | nil =>
    cases h
    simp
  | cons text rest ih =>
    unfold ofLines at h
    split_ifs at h
    · exact ih h
    · simp only [bind_eq_ok_iff, pure_eq_ok_iff] at h
      obtain ⟨p, hp, more, hmore, rfl⟩ := h
      exact List.forall_mem_cons.mpr ⟨valid_of_ofFields hp, ih hmore⟩

lemma ofText_eq_ok {text : String} {lines : List (ParamLine α)}
    (h : ofText read text = .ok lines) : lines ≠ [] ∧ ∀ p ∈ lines, p.Valid := by
  unfold ofText at h
  rw [bind_eq_ok_iff] at h
  obtain ⟨params, hlines, h⟩ := h
  cases params with
  | nil => cases h
  | cons p rest =>
    cases h
    exact ⟨by simp, valid_of_ofLines hlines⟩

end ParamLine

/-! ### Parameters -/

/-- A parameter starts at the start value of its line, with the name and the bounds of the line. -/
structure ParamLine.Starts (line : ParamLine α) (p : Parameter α) : Prop where
  name : p.name = line.name
  start : p.start = line.start
  low : p.low = line.low
  high : p.high = line.high
  cEnd : p.cEnd = line.cEnd
  initial : p.initial = p

lemma ParamLine.starts_of_toParameter {line : ParamLine α} {optimizer : Optimizer α} {n : α}
    {p : Parameter α} (h : line.toParameter optimizer n = .ok p) : line.Starts p := by
  unfold toParameter at h
  rw [bind_eq_ok_iff] at h
  obtain ⟨⟨c, rEnd, a⟩, -, h⟩ := h
  cases h
  exact ⟨rfl, rfl, rfl, rfl, rfl, rfl⟩

/-- The constants of a line are those of its parameter. -/
lemma ParamLine.constants_of_toParameter {line : ParamLine α} {optimizer : Optimizer α} {n : α}
    {p : Parameter α} (h : line.toParameter optimizer n = .ok p) :
    line.constants optimizer n = .ok (p.c, p.rEnd, p.a) := by
  unfold toParameter at h
  rw [bind_eq_ok_iff] at h
  obtain ⟨constants, hconstants, h⟩ := h
  cases h
  exact hconstants

/-- In a classic run a line has to give its final gain. -/
lemma ParamLine.constants_classic_eq_ok {line : ParamLine α} {offset alpha gamma n c rEnd a : α}
    {gain : BlockGain}
    (h : line.constants (.classic offset alpha gamma gain) n = .ok (c, rEnd, a)) :
    line.rEnd = some rEnd ∧ c = line.cEnd * Scalar.pow n gamma ∧
      a = rEnd * line.cEnd * line.cEnd * Scalar.pow (offset + n) alpha := by
  unfold constants at h
  cases hr : line.rEnd with
  | none =>
    rw [hr] at h
    cases h
  | some r =>
    rw [hr] at h
    cases h
    exact ⟨rfl, rfl, rfl⟩

lemma ParamLine.constants_scheduleFree_eq_ok {line : ParamLine α} {optimizer : Optimizer α}
    {n c rEnd a : α} (hfree : optimizer.family.isScheduleFree)
    (h : line.constants optimizer n = .ok (c, rEnd, a)) :
    c = line.cEnd ∧ rEnd = line.rEnd.getD 0 ∧ a = 0 := by
  cases optimizer with
  | classic => cases hfree
  | scheduleFreeSgd =>
    cases h
    exact ⟨rfl, rfl, rfl⟩
  | scheduleFreeAdam =>
    cases h
    exact ⟨rfl, rfl, rfl⟩

/-! ### States -/

namespace Definition

/-- The lines of the text define the parameters, one for one. -/
lemma exists_lines_of_build {read : String → Option α} {defaults : HyperDefaults α}
    {d : Definition α} {state : TuningState α} (h : d.build read defaults = .ok state) :
    ∃ lines, ParamLine.ofText read d.text = .ok lines ∧
      List.Forall₂ (fun line p => line.toParameter state.optimizer
        (Scalar.ofNat state.plannedPairs) = .ok p) lines state.params := by
  simp only [build, bind_eq_ok_iff, pure_eq_ok_iff] at h
  obtain ⟨_, -, _, -, _, -, lines, hlines, params, hparams, rfl⟩ := h
  exact ⟨lines, hlines, mapM_eq_ok_iff.mp hparams⟩

/-- What is known about a state that a definition was built into. -/
structure Built (read : String → Option α) (defaults : HyperDefaults α) (d : Definition α)
    (state : TuningState α) : Prop where
  admitted : ∀ p ∈ d.family.hyperParameters, p.requirement.admits (defaults.get p)
  prior : ∀ prior, d.prior = some prior → prior.check = .ok ()
  optimizer : state.optimizer =
    defaults.optimizer d.family d.gain (Scalar.ofNat state.plannedPairs)
  iter : state.iter = 0
  plannedPairs : state.plannedPairs = d.games / 2
  plannedPairs_ne_zero : state.plannedPairs ≠ 0
  mass : state.mass = 0
  moments : state.moments = d.moments defaults
  history : state.history = []
  params_ne_nil : state.params ≠ []
  params : ∀ p ∈ state.params, ∃ line : ParamLine α, line.Valid ∧
    line.toParameter state.optimizer (Scalar.ofNat state.plannedPairs) = .ok p

theorem built_of_build {read : String → Option α} {defaults : HyperDefaults α} {d : Definition α}
    {state : TuningState α} (h : d.build read defaults = .ok state) :
    Built read defaults d state := by
  simp only [build, bind_eq_ok_iff, pure_eq_ok_iff] at h
  obtain ⟨_, hcheck, _, hprior, _, hgames, lines, hlines, params, hparams, rfl⟩ := h
  obtain ⟨hne, hvalid⟩ := ParamLine.ofText_eq_ok hlines
  rw [mapM_eq_ok_iff] at hparams
  refine
    { admitted := HyperDefaults.check_eq_ok_iff.mp hcheck
      prior := ?_
      optimizer := rfl
      iter := rfl
      plannedPairs := rfl
      plannedPairs_ne_zero := ?_
      mass := rfl
      moments := rfl
      history := rfl
      params_ne_nil := ?_
      params := ?_ }
  · intro prior h
    simpa [checkPrior, h] using hprior
  · intro h
    simp [checkGames, show d.games / 2 = 0 from h] at hgames
  · rintro rfl
    exact hne (List.forall₂_nil_right_iff.mp hparams)
  · intro p hp
    obtain ⟨i, hi, rfl⟩ := List.getElem_of_mem hp
    have hi' : i < lines.length := by rw [hparams.length_eq]; exact hi
    exact ⟨lines[i], hvalid _ (List.getElem_mem hi'), hparams.get hi' hi⟩

/-- A run starts with every parameter as no report has touched it. -/
lemma Built.initial_eq {read : String → Option α} {defaults : HyperDefaults α} {d : Definition α}
    {state : TuningState α} (h : Built read defaults d state) {p : Parameter α}
    (hp : p ∈ state.params) : p.initial = p := by
  obtain ⟨line, -, hline⟩ := h.params p hp
  exact (ParamLine.starts_of_toParameter hline).initial

lemma Built.start_mem {read : String → Option ℝ} {defaults : HyperDefaults ℝ} {d : Definition ℝ}
    {state : TuningState ℝ} (h : Built read defaults d state) {p : Parameter ℝ}
    (hp : p ∈ state.params) : p.start ∈ Set.Icc p.low p.high := by
  obtain ⟨line, hvalid, hline⟩ := h.params p hp
  have hstarts := ParamLine.starts_of_toParameter hline
  rw [hstarts.start, hstarts.low, hstarts.high]
  exact ⟨hvalid.low_le, hvalid.le_high⟩

/-- In a schedule-free run the size of a perturbation is the one that the line gives. -/
lemma Built.c_pos {read : String → Option ℝ} {defaults : HyperDefaults ℝ} {d : Definition ℝ}
    {state : TuningState ℝ} (h : Built read defaults d state) (hfamily : d.family.isScheduleFree)
    {p : Parameter ℝ} (hp : p ∈ state.params) : 0 < p.c := by
  obtain ⟨line, hvalid, hline⟩ := h.params p hp
  have hfree : state.optimizer.family.isScheduleFree := by
    rw [h.optimizer, HyperDefaults.family_optimizer, hfamily]
  obtain ⟨hc, -, -⟩ :=
    ParamLine.constants_scheduleFree_eq_ok hfree (ParamLine.constants_of_toParameter hline)
  rw [hc]
  simpa using hvalid.cEnd

lemma Built.initial_mem {read : String → Option ℝ} {defaults : HyperDefaults ℝ} {d : Definition ℝ}
    {state : TuningState ℝ} (h : Built read defaults d state) :
    state.moments.initial ∈ PairMoments.range := by
  have hadmitted : defaults.initialMoment ∈ PairMoments.range := by
    have hmem := of_decide_eq_true
      (h.admitted .initialMoment (by cases d.family <;> simp [Family.hyperParameters]))
    simpa [HyperDefaults.get, PairMoments.range, PairMoments.leastEstimate,
      PairMoments.greatestEstimate] using hmem
  have hinitial : state.moments.initial = defaults.initialMoment := by
    rw [h.moments, Definition.moments]
    cases d.prior with
    | none => rfl
    | some prior => exact PairMoments.initial_merge _ _
  exact hinitial ▸ hadmitted

lemma Built.lr_pos {read : String → Option ℝ} {defaults : HyperDefaults ℝ} {d : Definition ℝ}
    {state : TuningState ℝ} (h : Built read defaults d state) (hfamily : d.family.isScheduleFree) :
    0 < defaults.lr := by
  simpa [HyperParameter.requirement, Requirement.admits, HyperDefaults.get] using
    h.admitted .lr (Family.mem_hyperParameters hfamily).1

lemma Built.beta_mem {read : String → Option ℝ} {defaults : HyperDefaults ℝ} {d : Definition ℝ}
    {state : TuningState ℝ} (h : Built read defaults d state) (hfamily : d.family.isScheduleFree) :
    defaults.beta ∈ Set.Ico 0 1 := by
  simpa [HyperParameter.requirement, Requirement.admits, HyperDefaults.get] using
    h.admitted .beta (Family.mem_hyperParameters hfamily).2

lemma Built.beta2_mem {read : String → Option ℝ} {defaults : HyperDefaults ℝ} {d : Definition ℝ}
    {state : TuningState ℝ} (h : Built read defaults d state) (hfamily : d.family = .scheduleFreeAdam) :
    defaults.beta2 ∈ Set.Ioc 0 1 := by
  simpa [HyperParameter.requirement, Requirement.admits, HyperDefaults.get] using
    h.admitted .beta2 (by simp [hfamily, Family.hyperParameters])

lemma Built.eps_nonneg {read : String → Option ℝ} {defaults : HyperDefaults ℝ} {d : Definition ℝ}
    {state : TuningState ℝ} (h : Built read defaults d state) (hfamily : d.family = .scheduleFreeAdam) :
    0 ≤ defaults.eps := by
  simpa [HyperParameter.requirement, Requirement.admits, HyperDefaults.get] using
    h.admitted .eps (by simp [hfamily, Family.hyperParameters])

end Definition

/-! ### A small run -/

/-- A reader of natural numbers. -/
noncomputable def readNat (text : String) : Option ℝ :=
  if text ≠ "" ∧ text.toList.all Char.isDigit then some (Decimal.natOfDigits text.toList) else none

lemma ParamLine.number_readNat {line : Nat} {column : Column} {text : String}
    (h : text ≠ "" ∧ text.toList.all Char.isDigit) :
    number readNat line column text = .ok (Decimal.natOfDigits text.toList : ℝ) := by
  rw [number, readNat, if_pos h]
  rfl

/-- The line of one parameter. -/
def ParamLine.small : ParamLine ℝ :=
  { line := 1, name := "margin", start := 5, low := 0, high := 10, cEnd := 2, rEnd := some 1 }

/-- A run of ten pairs with one parameter. -/
def Definition.small (family : Family) : Definition ℝ :=
  { text := "margin,5,0,10,2,1", games := 20, family, gain := .blockMean, prior := none }

lemma ParamLine.ofText_small (family : Family) :
    ofText readNat (Definition.small family).text = .ok [small] := by
  let text := "margin,5,0,10,2,1"
  have hlines : Text.lines text.toList = [text.toList] := by decide
  have htrim : Text.trim text.toList ≠ [] := by decide
  have hfields : (Text.fields ',' text.toList).map (fun field => String.ofList (Text.trim field)) =
      ["margin", "5", "0", "10", "2", "1"] := by decide
  have hnumbers : numbers readNat 1 "margin" "5" "0" "10" "2" (some "1") = .ok small := by
    simp only [numbers]
    rw [number_readNat (by decide), number_readNat (by decide), number_readNat (by decide),
      number_readNat (by decide), number_readNat (by decide)]
    simp [bind, Except.bind, Functor.map, Except.map, pure, Except.pure, Decimal.natOfDigits, small]
  have hvalid : small.Valid := by
    constructor <;> simp [small]
    norm_num
  have hline : ofFields readNat 1 [] ["margin", "5", "0", "10", "2", "1"] = .ok small := by
    simp only [ofFields, bind_eq_ok_iff]
    exact ⟨_, rfl, (), rfl, small, hnumbers, checked_eq_ok_iff.mpr ⟨rfl, hvalid⟩⟩
  have hlines' : ofLines readNat 1 [] [text.toList] = .ok [small] := by
    rw [ofLines, if_neg htrim]
    simp only [hfields, hline]
    rfl
  rw [ofText, show (Definition.small family).text = text from rfl, hlines, hlines']
  rfl

/-- The parameter of the line, without a schedule. -/
def Parameter.small : Parameter ℝ :=
  { name := "margin", start := 5, low := 0, high := 10, theta := 5, c := 2, cEnd := 2, rEnd := 1
    a := 0, z := 5, v := 0 }

/-- The state in which the run starts. -/
noncomputable def TuningState.small (optimizer : Optimizer ℝ) : TuningState ℝ :=
  { optimizer, iter := 0, plannedPairs := 10, mass := 0, moments := .empty 1, params := [.small]
    history := [] }

lemma HyperDefaults.check_standard (family : Family) :
    (HyperDefaults.standard : HyperDefaults ℝ).check family = .ok () := by
  rw [check_eq_ok_iff]
  intro p _
  cases p <;> simp [HyperParameter.requirement, Requirement.admits, HyperDefaults.get, standard,
    PairMoments.leastEstimate, PairMoments.greatestEstimate] <;> norm_num

lemma ParamLine.toParameter_small {optimizer : Optimizer ℝ}
    (h : optimizer.family.isScheduleFree) (n : ℝ) :
    small.toParameter optimizer n = .ok .small := by
  have hconstants : small.constants optimizer n = .ok (2, 1, 0) := by
    cases optimizer with
    | classic => cases h
    | scheduleFreeSgd => simp [constants, small]
    | scheduleFreeAdam => simp [constants, small]
  rw [toParameter, bind_eq_ok_iff]
  exact ⟨(2, 1, 0), hconstants, by simp [small, Parameter.small, pure, Except.pure]⟩

lemma Definition.build_small_of_toParameter {family : Family} {defaults : HyperDefaults ℝ}
    {p : Parameter ℝ} (hcheck : defaults.check family = .ok ())
    (hinitial : defaults.initialMoment = 1)
    (hparam : ParamLine.small.toParameter (defaults.optimizer family .blockMean 10) 10 = .ok p) :
    (small family).build readNat defaults =
      .ok { TuningState.small (defaults.optimizer family .blockMean 10) with params := [p] } := by
  have hparams : [ParamLine.small].mapM (fun p => p.toParameter
      (defaults.optimizer family .blockMean 10) 10) = .ok [p] :=
    mapM_eq_ok_iff.mpr (.cons hparam .nil)
  have hpairs : (Scalar.ofNat (20 / 2) : ℝ) = 10 := by norm_num
  simp only [build, bind_eq_ok_iff, pure_eq_ok_iff]
  refine ⟨(), hcheck, (), rfl, (), by simp [checkGames, small], _, ParamLine.ofText_small family,
    [p], ?_, ?_⟩
  · simpa [small, hpairs] using hparams
  · simp [small, TuningState.small, moments, hinitial]

lemma Definition.build_small_of_check {family : Family} {defaults : HyperDefaults ℝ}
    (h : family.isScheduleFree) (hcheck : defaults.check family = .ok ())
    (hinitial : defaults.initialMoment = 1) :
    (small family).build readNat defaults =
      .ok (.small (defaults.optimizer family .blockMean 10)) := by
  have hoptimizer : (defaults.optimizer family .blockMean (10 : ℝ)).family.isScheduleFree := by
    cases family <;> exact h
  exact build_small_of_toParameter hcheck hinitial (ParamLine.toParameter_small hoptimizer 10)

lemma Definition.build_small {family : Family} (h : family.isScheduleFree) :
    (small family).build readNat HyperDefaults.standard =
      .ok (.small (HyperDefaults.standard.optimizer family .blockMean 10)) :=
  build_small_of_check h (HyperDefaults.check_standard family) Scalar.one_real

end PairedTuning
