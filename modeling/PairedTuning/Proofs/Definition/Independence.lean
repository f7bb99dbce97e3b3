import Mathlib
import PairedTuning.Proofs.Definition.Lines
import PairedTuning.Proofs.Update.Invariant

/-!
# What a run does not depend on

Hyper-parameters are given for all families at once, and a line of a definition may give a final
gain that only a classic run needs. Neither has a say in the runs of another family. Whatever the
hyper-parameters of other families are, numbers or not, a definition is built into the same state or
refused with the same error. And in a schedule-free run every final gain may be left out or be any
positive number: the lines are accepted or refused alike, and no rule looks at what is kept of it.
-/

namespace PairedTuning

variable {α : Type}

/-! ### Hyper-parameters -/

namespace HyperDefaults

/-- The two agree on the assumed second moment and on the values of a family. -/
def AgreeFor (family : Family) (d d' : HyperDefaults α) : Prop :=
  d.initialMoment = d'.initialMoment ∧
    match family with
    | .classic => d.offsetFraction = d'.offsetFraction ∧ d.alpha = d'.alpha ∧ d.gamma = d'.gamma
    | .scheduleFreeSgd => d.lr = d'.lr ∧ d.beta = d'.beta
    | .scheduleFreeAdam =>
      d.lr = d'.lr ∧ d.beta = d'.beta ∧ d.beta2 = d'.beta2 ∧ d.eps = d'.eps

namespace AgreeFor

variable {family : Family} {d d' : HyperDefaults α}

/-- Every value that is checked for a family is one that the two agree on. -/
lemma get_eq (h : AgreeFor family d d') : ∀ p ∈ family.hyperParameters, d'.get p = d.get p := by
  obtain ⟨hinitial, h⟩ := h
  cases family with
  | classic => simp [Family.hyperParameters, get, hinitial, h]
  | scheduleFreeSgd => simp [Family.hyperParameters, get, hinitial, h]
  | scheduleFreeAdam => simp [Family.hyperParameters, get, hinitial, h]

variable [Scalar α]

lemma check_eq (h : AgreeFor family d d') : d'.check family = d.check family :=
  forM_congr fun p hp => by rw [h.get_eq p hp]

lemma optimizer_eq (h : AgreeFor family d d') (gain : BlockGain) (n : α) :
    d'.optimizer family gain n = d.optimizer family gain n := by
  obtain ⟨-, h⟩ := h
  cases family with
  | classic => simp [optimizer, h]
  | scheduleFreeSgd => simp [optimizer, h]
  | scheduleFreeAdam => simp [optimizer, h]

end AgreeFor

end HyperDefaults

variable [Scalar α]

lemma Definition.build_eq_of_agreeFor (read : String → Option α) {d : Definition α}
    {defaults defaults' : HyperDefaults α} (h : defaults.AgreeFor d.family defaults') :
    d.build read defaults' = d.build read defaults := by
  simp only [build, moments, h.check_eq, h.optimizer_eq, h.1]

/-! ### Lines -/

namespace Text

lemma isBlank_of_trim_eq_nil {cs : List Char} (h : trim cs = []) : ∀ c ∈ cs, isBlank c := by
  have hrest : (cs.dropWhile isBlank).reverse.dropWhile isBlank = [] := List.reverse_eq_nil_iff.mp h
  rw [List.dropWhile_eq_nil_iff] at hrest
  intro c hc
  rw [← List.takeWhile_append_dropWhile (p := isBlank) (l := cs), List.mem_append] at hc
  rcases hc with hc | hc
  · exact List.mem_takeWhile_imp hc
  · exact hrest c (List.mem_reverse.mpr hc)

lemma fields_of_notMem {separator : Char} {cs : List Char} (h : separator ∉ cs) :
    fields separator cs = [cs] := by
  induction cs with
  | nil => rfl
  | cons c cs ih =>
    rw [List.mem_cons, not_or] at h
    rw [fields, ih h.2]
    exact if_neg (Ne.symm h.1)

end Text

namespace ParamLine

/-- The fields of a line with or without a final gain. -/
def row (name start low high cEnd : String) (rEnd : Option String) : List String :=
  [name, start, low, high, cEnd] ++ rEnd.toList

/-- A text reads as a positive number. That it is positive is said as the reader of lines checks it,
which needs no law of the scalars. -/
def IsFinalGain (read : String → Option α) (text : String) : Prop :=
  ∃ r, read text = some r ∧ Scalar.isFinite r ∧ ¬ r ≤ 0

/-- The lines are the same, blank and wrong ones too, or have the same fields but for final gains:
each of them has a positive one or none. -/
inductive SameButGain (read : String → Option α) (text : List Char) : List Char → Prop
  | same : SameButGain read text text
  | gains {text' : List Char} {name start low high cEnd : String} {rEnd rEnd' : Option String}
    (hfields : fieldsOf text = row name start low high cEnd rEnd)
    (hfields' : fieldsOf text' = row name start low high cEnd rEnd')
    (hrEnd : ∀ r, rEnd = some r → IsFinalGain read r)
    (hrEnd' : ∀ r, rEnd' = some r → IsFinalGain read r) : SameButGain read text text'

/-- A line but for its final gain. -/
def withoutGain (p : ParamLine α) : ParamLine α := { p with rEnd := none }

variable {read : String → Option α} {text text' : List Char} {line : Nat} {earlier : List String}
  {name start low high cEnd : String} {rEnd rEnd' : Option String} {p q : ParamLine α}

lemma trim_ne_nil_of_row (h : fieldsOf text = row name start low high cEnd rEnd) :
    Text.trim text ≠ [] := by
  intro hblank
  have hnone : ',' ∉ text := fun hmem =>
    absurd (Text.isBlank_of_trim_eq_nil hblank ',' hmem) (by decide)
  rw [fieldsOf, Text.fields_of_notMem hnone] at h
  cases h

omit [Scalar α] in
lemma columns_row : columns (α := α) line (row name start low high cEnd rEnd) =
    .ok (name, start, low, high, cEnd, rEnd) := by
  cases rEnd <;> rfl

/-- A positive final gain is read, and one that is not there is no fault. -/
lemma exists_of_isFinalGain (h : ∀ r, rEnd = some r → IsFinalGain read r) (line : Nat) :
    ∃ r, rEnd.mapM (number read line .rEnd) = .ok r ∧ ∀ x, r = some x → ¬ x ≤ 0 := by
  cases rEnd with
  | none => exact ⟨none, rfl, nofun⟩
  | some text =>
    obtain ⟨x, hread, hfinite, hpos⟩ := h text rfl
    have hkept : (some x).filter Scalar.isFinite = some x := Option.filter_some_pos hfinite
    refine ⟨some x, ?_, ?_⟩
    · rw [Option.mapM_some, map_eq_ok_iff]
      exact ⟨x, by rw [number, hread, hkept], rfl⟩
    · rintro y ⟨⟩
      exact hpos

lemma numbers_alike (h : ∀ r, rEnd = some r → IsFinalGain read r)
    (h' : ∀ r, rEnd' = some r → IsFinalGain read r) :
    Alike (fun p q => p.withoutGain = q.withoutGain ∧ (∀ r, p.rEnd = some r → ¬ r ≤ 0) ∧
        ∀ r, q.rEnd = some r → ¬ r ≤ 0)
      (numbers read line name start low high cEnd rEnd)
      (numbers read line name start low high cEnd rEnd') := by
  obtain ⟨r, hr, hpos⟩ := exists_of_isFinalGain h line
  obtain ⟨r', hr', hpos'⟩ := exists_of_isFinalGain h' line
  rw [numbers_eq, numbers_eq, hr, hr']
  refine .bind_same fun start => .bind_same fun low => .bind_same fun high =>
    .bind_same fun cEnd => ?_
  exact .ok ⟨rfl, hpos, hpos'⟩

/-- A line with a positive final gain, or none, is checked as if the gain were not there. -/
lemma checked_eq (h : ∀ r, p.rEnd = some r → ¬ r ≤ 0) :
    p.checked = (fun _ => p) <$> p.withoutGain.checked := by
  unfold checked withoutGain
  dsimp only
  split_ifs
  · rfl
  · rfl
  · cases hr : p.rEnd with
    | none => rfl
    | some r => exact if_neg (h r hr)
  · rfl

lemma checked_alike (h : p.withoutGain = q.withoutGain) (hp : ∀ r, p.rEnd = some r → ¬ r ≤ 0)
    (hq : ∀ r, q.rEnd = some r → ¬ r ≤ 0) :
    Alike (fun p q => p.withoutGain = q.withoutGain) p.checked q.checked := by
  rw [checked_eq hp, checked_eq hq, h]
  cases q.withoutGain.checked with
  | error e => exact .error e
  | ok _ => exact .ok h

namespace SameButGain

lemma trim_eq_nil_iff (h : SameButGain read text text') :
    Text.trim text' = [] ↔ Text.trim text = [] := by
  cases h with
  | same => rfl
  | gains hfields hfields' => simp [trim_ne_nil_of_row hfields, trim_ne_nil_of_row hfields']

lemma ofFields_alike (h : SameButGain read text text') :
    Alike (fun p q => p.withoutGain = q.withoutGain)
      (ofFields read line earlier (fieldsOf text))
      (ofFields read line earlier (fieldsOf text')) := by
  cases h with
  | same => exact .refl (fun p => Eq.refl p.withoutGain) _
  | gains hfields hfields' hrEnd hrEnd' =>
    rw [ofFields, ofFields, hfields, hfields', columns_row, columns_row]
    refine .bind_same fun _ => (numbers_alike hrEnd hrEnd').bind fun p q h => ?_
    exact checked_alike h.1 h.2.1 h.2.2

end SameButGain

variable {texts texts' : List (List Char)}

/-- Lines that are the same but for final gains are read alike: a gain decides neither on the name
of a parameter nor on the number of its line. -/
lemma ofLines_alike (h : List.Forall₂ (SameButGain read) texts texts') :
    Alike (List.Forall₂ fun p q => p.withoutGain = q.withoutGain)
      (ofLines read line earlier texts) (ofLines read line earlier texts') := by
  induction h generalizing line earlier with
  | nil => exact .ok .nil
  | @cons text text' _ _ hline _ ih =>
    by_cases hblank : Text.trim text = []
    · rw [ofLines_cons_of_blank hblank, ofLines_cons_of_blank (hline.trim_eq_nil_iff.mpr hblank)]
      exact ih
    · rw [ofLines_cons hblank, ofLines_cons (mt hline.trim_eq_nil_iff.mp hblank)]
      refine hline.ofFields_alike.bind fun p q hpq => ?_
      have hname : p.name = q.name := congrArg (·.name) hpq
      rw [hname]
      exact ih.bind fun _ _ hmore => .ok (.cons hpq hmore)

lemma ofText_alike {text text' : String}
    (h : List.Forall₂ (SameButGain read) (Text.lines text.toList) (Text.lines text'.toList)) :
    Alike (List.Forall₂ fun p q => p.withoutGain = q.withoutGain)
      (ofText read text) (ofText read text') := by
  refine (ofLines_alike h).bind fun lines lines' hlines => ?_
  cases hlines with
  | nil => exact .error DefinitionError.noParameters
  | cons h hmore => exact .ok (.cons h hmore)

end ParamLine

/-! ### Parameters -/

/-- A parameter but for its final gain. -/
def Parameter.withoutGain (p : Parameter α) : Parameter α := { p with rEnd := 0 }

/-- The final gain of a schedule-free parameter is kept, and nothing is computed from it. -/
lemma ParamLine.toParameter_alike {line line' : ParamLine α} {optimizer : Optimizer α}
    (hfree : optimizer.family.isScheduleFree) (h : line.withoutGain = line'.withoutGain) (n : α) :
    Alike (fun p q => p.withoutGain = q.withoutGain)
      (line.toParameter optimizer n) (line'.toParameter optimizer n) := by
  simp only [withoutGain, mk.injEq] at h
  cases optimizer with
  | classic => cases hfree
  | scheduleFreeSgd => exact .ok (by simp [Parameter.withoutGain, h])
  | scheduleFreeAdam => exact .ok (by simp [Parameter.withoutGain, h])

namespace Parameter

variable (p : Parameter α)

@[simp] lemma nudge_withoutGain (optimizer : Optimizer α) (k : Nat) (f : Flip) :
    p.withoutGain.nudge optimizer k f = p.nudge optimizer k f := by
  cases optimizer <;> rfl

@[simp] lemma ofParameter?_withoutGain (optimizer : Optimizer α) :
    Schedule.ofParameter? optimizer p.withoutGain = Schedule.ofParameter? optimizer p := by
  cases optimizer <;> rfl

@[simp] lemma store_withoutGain (u : ParamUpdate α) :
    p.withoutGain.store u = (p.store u).withoutGain := rfl

end Parameter

lemma storeUpdates_withoutGain (ps : List (Parameter α)) (us : List (ParamUpdate α)) :
    storeUpdates (ps.map .withoutGain) us = (storeUpdates ps us).map .withoutGain := by
  induction ps generalizing us with
  | nil => cases us <;> rfl
  | cons p ps ih =>
    cases us with
    | nil => rfl
    | cons u us =>
      rw [List.map_cons, storeUpdates, storeUpdates, List.map_cons, ih us,
        Parameter.store_withoutGain]

/-! ### Runs -/

namespace TuningState

/-- A state but for the final gains of its parameters. -/
def withoutGains (t : TuningState α) : TuningState α :=
  { t with params := t.params.map .withoutGain }

variable (t : TuningState α)

@[simp] lemma params_withoutGains : t.withoutGains.params = t.params.map .withoutGain := rfl

lemma contexts_withoutGains (k : Nat) (flips : List Flip) :
    t.withoutGains.contexts k flips = t.contexts k flips := by
  simp only [contexts, withoutGains, List.zipWith_map_left, Parameter.nudge_withoutGain]

lemma canFold_withoutGains (nudges : List (Nudge α)) (n : Nat) :
    t.withoutGains.canFold nudges n = t.canFold nudges n := by
  simp only [canFold, withoutGains, ← List.map_take, List.all_map]
  rfl

/-- No rule looks at a final gain. -/
lemma updateOf_withoutGains (issued n : Nat) (s : α) (p : Parameter α) (nudge : Nudge α) :
    t.withoutGains.updateOf issued n s p.withoutGain nudge = t.updateOf issued n s p nudge := by
  unfold updateOf blockGain
  rw [Parameter.ofParameter?_withoutGain]
  rfl

lemma fold_withoutGains (nudges : List (Nudge α)) (issued n : Nat) (s : α) :
    t.withoutGains.fold nudges issued n s =
      ((t.fold nudges issued n s).1.withoutGains, (t.fold nudges issued n s).2) := by
  by_cases hn : n = 0
  · simp only [fold, if_pos hn, withoutGains, List.map_map]
    rfl
  · have hupdates : t.withoutGains.params.zipWith (t.withoutGains.updateOf issued n s) nudges =
        t.params.zipWith (t.updateOf issued n s) nudges := by
      rw [params_withoutGains, List.zipWith_map_left]
      simp only [updateOf_withoutGains]
    simp only [fold, if_neg hn, updates_eq, hupdates]
    simp only [withoutGains, storeUpdates_withoutGain]
    rfl

lemma record_withoutGains (games : Nat) (nudges : List (Nudge α)) (display : List α) :
    t.withoutGains.record games nudges display =
      ((t.record games nudges display).1.withoutGains, (t.record games nudges display).2) := by
  have hdue : t.withoutGains.snapshotDue games = t.snapshotDue games := by
    simp only [snapshotDue, withoutGains, List.length_map]
  simp only [record, hdue]
  split_ifs <;> rfl

lemma report_withoutGains (games : Nat) (r : IssuedReport α) :
    t.withoutGains.report games r =
      ((t.report games r).1.withoutGains, (t.report games r).2) := by
  simp only [report, contexts_withoutGains, fold_withoutGains, record_withoutGains]

lemma afterReports_withoutGains (games : Nat) (reports : List (IssuedReport α)) :
    t.withoutGains.afterReports games reports = (t.afterReports games reports).withoutGains := by
  induction reports using List.reverseRecOn with
  | nil => rfl
  | append_singleton reports r ih =>
    rw [afterReports_append_singleton, ih, report_withoutGains, afterReports_append_singleton]

/-- After any reports the states agree in all but final gains, and the next report is taken or
refused in both and shows the same values. -/
def RunAlike (t t' : TuningState α) : Prop :=
  ∀ (games : Nat) (reports : List (IssuedReport α)),
    let u := t.afterReports games reports
    let u' := t'.afterReports games reports
    u.withoutGains = u'.withoutGains ∧ ∀ r : IssuedReport α,
      u.canFold (u.contexts r.issued r.flips) r.pairs =
          u'.canFold (u'.contexts r.issued r.flips) r.pairs ∧
        (u.report games r).2 = (u'.report games r).2

lemma runAlike_of_withoutGains_eq {t t' : TuningState α} (h : t.withoutGains = t'.withoutGains) :
    RunAlike t t' := by
  intro games reports u u'
  have hu : u.withoutGains = u'.withoutGains := by
    rw [← afterReports_withoutGains, ← afterReports_withoutGains, h]
  refine ⟨hu, fun r => ⟨?_, ?_⟩⟩
  · rw [← canFold_withoutGains, ← contexts_withoutGains, hu, canFold_withoutGains,
      contexts_withoutGains]
  · calc (u.report games r).2 = (u.withoutGains.report games r).2 := by rw [report_withoutGains]
      _ = (u'.report games r).2 := by rw [hu, report_withoutGains]

end TuningState

/-! ### Definitions -/

namespace Definition

variable {read : String → Option α}

lemma build_alike {d : Definition α} (hfree : d.family.isScheduleFree) {text' : String}
    (h : List.Forall₂ (ParamLine.SameButGain read) (Text.lines d.text.toList)
      (Text.lines text'.toList)) (defaults : HyperDefaults α) :
    Alike (fun t t' => t.withoutGains = t'.withoutGains)
      (d.build read defaults) ({ d with text := text' }.build read defaults) := by
  -- Hyper-parameters, prior and games are checked before the text is read.
  refine .bind_same fun _ => .bind_same fun _ => .bind_same fun _ => ?_
  refine (ParamLine.ofText_alike h).bind fun lines lines' hlines => ?_
  have hfamily : (defaults.optimizer d.family d.gain
      (Scalar.ofNat (d.games / 2))).family.isScheduleFree := by
    rwa [HyperDefaults.family_optimizer]
  refine (Alike.mapM hlines fun _ _ hline =>
    ParamLine.toParameter_alike hfamily hline _).bind fun params params' hparams => .ok ?_
  have hmap : params.map Parameter.withoutGain = params'.map Parameter.withoutGain :=
    List.forall₂_eq_eq_eq ▸ List.forall₂_map_left_iff.mpr (List.forall₂_map_right_iff.mpr hparams)
  simp only [TuningState.withoutGains, hmap]
  rfl

/-- Settings of other families have no say. Two sets of hyper-parameters that agree on the values of
the definition's family build the same state, or are refused with the same error, whatever the other
values are; nothing here depends on the scalars being numbers. And if lines of a schedule-free
definition gain, lose or change positive final gains, the definition is refused with the same error,
or the states that are built run alike. -/
theorem other_settings_irrelevant (read : String → Option α) (d : Definition α)
    (defaults : HyperDefaults α) :
    (∀ defaults' : HyperDefaults α, defaults.AgreeFor d.family defaults' →
      d.build read defaults' = d.build read defaults) ∧
    (d.family.isScheduleFree → ∀ text' : String,
      List.Forall₂ (ParamLine.SameButGain read) (Text.lines d.text.toList)
        (Text.lines text'.toList) →
      Alike TuningState.RunAlike (d.build read defaults)
        ({ d with text := text' }.build read defaults)) := by
  refine ⟨fun defaults' h => build_eq_of_agreeFor read h, fun hfree text' h => ?_⟩
  exact (build_alike hfree h defaults).imp fun _ _ => TuningState.runAlike_of_withoutGains_eq

/-- A definition for SGD over floats, with values of the other families that are no numbers or out
of range; and the small run of Adam, with and without its final gain. -/
theorem other_settings_irrelevant_small :
    let defaults : HyperDefaults Float := .standard
    let defaults' := { defaults with beta2 := 7, eps := -1, alpha := 0 / 0, gamma := -1 }
    let d : Definition Float :=
      { text := "margin,5,0,10,2,1", games := 20, family := .scheduleFreeSgd, gain := .blockMean
        prior := none }
    let text' := "margin,5,0,10,2"
    defaults.AgreeFor .scheduleFreeSgd defaults' ∧
      d.build Decimal.read? defaults' = d.build Decimal.read? defaults ∧
      List.Forall₂ (ParamLine.SameButGain readNat)
        (Text.lines (small .scheduleFreeAdam).text.toList) (Text.lines text'.toList) ∧
      ∃ t', { small .scheduleFreeAdam with text := text' }.build readNat .standard = .ok t' ∧
        TuningState.RunAlike
          (.small (HyperDefaults.standard.optimizer .scheduleFreeAdam .blockMean 10)) t' := by
  intro defaults defaults' d text'
  have hagree : defaults.AgreeFor .scheduleFreeSgd defaults' := ⟨rfl, rfl, rfl⟩
  have hgain : ParamLine.IsFinalGain readNat "1" := by
    refine ⟨1, ?_, rfl, by simp⟩
    simp [readNat, Decimal.natOfDigits]
  have hfields : ParamLine.fieldsOf "margin,5,0,10,2,1".toList =
      ParamLine.row "margin" "5" "0" "10" "2" (some "1") := by decide
  have hfields' : ParamLine.fieldsOf text'.toList =
      ParamLine.row "margin" "5" "0" "10" "2" none := by decide
  have hline : ParamLine.SameButGain readNat "margin,5,0,10,2,1".toList text'.toList :=
    .gains hfields hfields' (by rintro _ ⟨⟩; exact hgain) (by simp)
  have htexts : List.Forall₂ (ParamLine.SameButGain readNat)
      (Text.lines (small .scheduleFreeAdam).text.toList) (Text.lines text'.toList) := by
    have hlines : Text.lines (small .scheduleFreeAdam).text.toList =
        ["margin,5,0,10,2,1".toList] := by decide
    have hlines' : Text.lines text'.toList = [text'.toList] := by decide
    rw [hlines, hlines']
    exact .cons hline .nil
  have hsame : d.build Decimal.read? defaults' = d.build Decimal.read? defaults :=
    (other_settings_irrelevant Decimal.read? d defaults).1 defaults' hagree
  have hruns :=
    (other_settings_irrelevant readNat (small .scheduleFreeAdam) .standard).2 rfl text' htexts
  rw [build_small rfl] at hruns
  refine ⟨hagree, hsame, htexts, ?_⟩
  generalize { small .scheduleFreeAdam with text := text' }.build readNat .standard = built
    at hruns ⊢
  cases hruns with
  | ok h => exact ⟨_, rfl, h⟩

end Definition

end PairedTuning
