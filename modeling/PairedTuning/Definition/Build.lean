import PairedTuning.Definition.Lines
import PairedTuning.State

/-!
# Building a run

A definition and the hyper-parameters give the state in which a run starts: every parameter at its
start value, no pair counted, and the moments of the prior if there is one.

A classic run is given by where its schedule ends. Its constants are chosen so that at the last
planned pair the size of the perturbation is `c_end` and the gain `r_end`.
-/

namespace PairedTuning

/-- All that a user says about a run. -/
structure Definition (α : Type) where
  /-- The parameters, one per line. -/
  text : String
  games : Nat
  family : Family
  gain : BlockGain
  prior : Option (MomentPrior α)

variable {α : Type} [Scalar α]

/-- Refuse a value that its setting does not admit. -/
def Setting.check (setting : Setting) (x : α) : Except (DefinitionError α) Unit :=
  if setting.requirement.admits x then .ok () else .error (.outOfRange setting x)

/-- Check the hyper-parameters that a family depends on. -/
def HyperDefaults.check (d : HyperDefaults α) (family : Family) :
    Except (DefinitionError α) Unit :=
  family.hyperParameters.forM fun p => (Setting.hyper p).check (d.get p)

/-- Check that a prior is a distribution with a weight. -/
def MomentPrior.check (p : MomentPrior α) : Except (DefinitionError α) Unit := do
  let total := Scalar.sum p.distribution.toList
  if p.distribution.toList.all fun x => decide (0 ≤ x) then Setting.priorDistribution.check total
  else throw (.outOfRange .priorDistribution total)
  Setting.priorReports.check p.reports
  Setting.priorPairs.check p.pairsPerReport

/-- The optimizer of a run of `n` pairs. -/
def HyperDefaults.optimizer (d : HyperDefaults α) (family : Family) (gain : BlockGain) (n : α) :
    Optimizer α :=
  match family with
  | .classic => .classic (d.offsetFraction * n) d.alpha d.gamma gain
  | .scheduleFreeSgd => .scheduleFreeSgd d.lr d.beta
  | .scheduleFreeAdam => .scheduleFreeAdam d.lr d.beta d.beta2 d.eps

/-- The size `c`, the final gain and the gain numerator `a` of a line, in a run of `n` pairs. -/
def ParamLine.constants (p : ParamLine α) (optimizer : Optimizer α) (n : α) :
    Except (DefinitionError α) (α × α × α) :=
  match optimizer with
  | .classic offset alpha gamma _ =>
    match p.rEnd with
    | none => .error (.missingFinalGain p.line)
    | some r =>
      .ok (p.cEnd * Scalar.pow n gamma, r,
        r * p.cEnd * p.cEnd * Scalar.pow (offset + n) alpha)
  | _ => .ok (p.cEnd, p.rEnd.getD 0, 0)

/-- The parameter that a line defines, in a run of `n` pairs. -/
def ParamLine.toParameter (p : ParamLine α) (optimizer : Optimizer α) (n : α) :
    Except (DefinitionError α) (Parameter α) := do
  let (c, rEnd, a) ← p.constants optimizer n
  pure
    { name := p.name
      start := p.start
      low := p.low
      high := p.high
      theta := p.start
      c
      cEnd := p.cEnd
      rEnd
      a
      z := p.start
      v := 0 }

namespace Definition

/-- The moments with which a run starts. -/
def moments (d : Definition α) (defaults : HyperDefaults α) : PairMoments α :=
  let empty := PairMoments.empty defaults.initialMoment
  match d.prior with
  | none => empty
  | some prior => empty.merge (.ofPrior prior)

/-- Check the prior, if there is one. -/
def checkPrior (d : Definition α) : Except (DefinitionError α) Unit :=
  match d.prior with
  | none => .ok ()
  | some prior => prior.check

/-- Check that the games make up a pair at least. -/
def checkGames (d : Definition α) : Except (DefinitionError α) Unit :=
  if d.games / 2 = 0 then .error (.tooFewGames d.games) else .ok ()

/-- The state in which a run starts. Hyper-parameters are checked first, then the prior, the number
of games, and the text. -/
def build (read : String → Option α) (defaults : HyperDefaults α) (d : Definition α) :
    Except (DefinitionError α) (TuningState α) := do
  defaults.check d.family
  d.checkPrior
  d.checkGames
  let pairs := d.games / 2
  let lines ← ParamLine.ofText read d.text
  let n : α := Scalar.ofNat pairs
  let optimizer := defaults.optimizer d.family d.gain n
  let params ← lines.mapM fun p => p.toParameter optimizer n
  pure
    { optimizer
      iter := 0
      plannedPairs := pairs
      mass := 0
      moments := d.moments defaults
      params
      history := [] }

end Definition

end PairedTuning
