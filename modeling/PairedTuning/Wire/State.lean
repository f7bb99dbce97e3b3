import PairedTuning.Document.Record
import PairedTuning.Flip
import PairedTuning.State

/-!
# States as documents

How a tuning state and its parts are written as documents, and read back. Optional fields that carry
nothing are left out; fields that came later than the format have defaults.
-/

namespace PairedTuning

open Document

namespace Flip

/-- A flip is written as its sign. -/
def toDocument (f : Flip) : Document := int f.sign

def ofDocument? : Document → Option Flip
  | int i => ofSign? i
  | _ => none

end Flip

namespace Family

def toDocument (f : Family) : Document := str f.name

def ofDocument? (d : Document) : Option Family := (d.word? isNull).bind ofName?

end Family

namespace BlockGain

def toDocument (g : BlockGain) : Document := str g.name

def ofDocument? (d : Document) : Option BlockGain := (d.word? isNull).bind ofName?

/-- Read a way to weigh blocks inside an optimizer, where an empty object counts as null. -/
def ofField? (d : Document) : Option BlockGain := (d.word? isVoid).bind ofName?

end BlockGain

namespace Optimizer

def fieldNames : Family → List String
  | .classic => ["A", "alpha", "gamma", "gain"]
  | .scheduleFreeSgd => ["lr", "beta"]
  | .scheduleFreeAdam => ["lr", "beta1", "beta2", "eps"]

/-- An optimizer is written as one object, with its family under `kind`. -/
def toDocument : Optimizer Float → Document
  | classic offset alpha gamma gain =>
    obj
      [("kind", Family.toDocument .classic), ("A", ofFloat offset), ("alpha", ofFloat alpha),
        ("gamma", ofFloat gamma), ("gain", gain.toDocument)]
  | scheduleFreeSgd lr beta =>
    obj
      [("kind", Family.toDocument .scheduleFreeSgd), ("lr", ofFloat lr), ("beta", ofFloat beta)]
  | scheduleFreeAdam lr beta1 beta2 eps =>
    obj
      [("kind", Family.toDocument .scheduleFreeAdam), ("lr", ofFloat lr),
        ("beta1", ofFloat beta1), ("beta2", ofFloat beta2), ("eps", ofFloat eps)]

/-- The family of a written optimizer, and what is left for its fields. In an array the family comes
first. -/
def splitKind? : Document → Option (Family × Document)
  | obj fields => do
    let name ← (lookup "kind" fields).bind toString?
    let family ← Family.ofName? name
    pure (family, obj fields)
  | arr (str name :: rest) => (Family.ofName? name).map fun family => (family, arr rest)
  | _ => none

def ofDocument? (d : Document) : Option (Optimizer Float) := do
  let (family, rest) ← splitKind? d
  let fields ← rest.record? (fieldNames family) false
  match family with
  | .classic =>
    let offset ← fields.required "A" toFloat?
    let alpha ← fields.required "alpha" toFloat?
    let gamma ← fields.required "gamma" toFloat?
    let gain ← fields.defaulted "gain" .blockStart BlockGain.ofField?
    pure (classic offset alpha gamma gain)
  | .scheduleFreeSgd =>
    let lr ← fields.required "lr" toFloat?
    let beta ← fields.required "beta" toFloat?
    pure (scheduleFreeSgd lr beta)
  | .scheduleFreeAdam =>
    let lr ← fields.required "lr" toFloat?
    let beta1 ← fields.required "beta1" toFloat?
    let beta2 ← fields.required "beta2" toFloat?
    let eps ← fields.required "eps" toFloat?
    pure (scheduleFreeAdam lr beta1 beta2 eps)

end Optimizer

namespace PairMoments

/-- The second moment that is assumed where a document does not say. -/
def standardInitial : Float := 1

def fieldNames : List String :=
  ["report_count", "sum_n", "sum_signed_result", "sum_squared_result_over_n", "mu2_init"]

def toDocument (m : PairMoments Float) : Document :=
  obj
    [("report_count", ofFloat m.reports), ("sum_n", ofFloat m.pairs),
      ("sum_signed_result", ofFloat m.signed),
      ("sum_squared_result_over_n", ofFloat m.squaredPerPair), ("mu2_init", ofFloat m.initial)]

def ofDocument? (d : Document) : Option (PairMoments Float) := do
  let fields ← d.record? fieldNames false
  let reports ← fields.required "report_count" toFloat?
  let pairs ← fields.required "sum_n" toFloat?
  let signed ← fields.required "sum_signed_result" toFloat?
  let squaredPerPair ← fields.required "sum_squared_result_over_n" toFloat?
  let initial ← fields.defaulted "mu2_init" standardInitial toFloat?
  pure { reports, pairs, signed, squaredPerPair, initial }

end PairMoments

namespace Parameter

def fieldNames : List String :=
  ["name", "start", "min", "max", "theta", "c", "c_end", "r_end", "a", "z", "v"]

def toDocument (p : Parameter Float) : Document :=
  obj
    [("name", str p.name), ("start", ofFloat p.start), ("min", ofFloat p.low),
      ("max", ofFloat p.high), ("theta", ofFloat p.theta), ("c", ofFloat p.c),
      ("c_end", ofFloat p.cEnd), ("r_end", ofFloat p.rEnd), ("a", ofFloat p.a),
      ("z", ofFloat p.z), ("v", ofFloat p.v)]

def ofDocument? (d : Document) : Option (Parameter Float) := do
  let fields ← d.record? fieldNames false
  let name ← fields.required "name" toString?
  let start ← fields.required "start" toFloat?
  let low ← fields.required "min" toFloat?
  let high ← fields.required "max" toFloat?
  let theta ← fields.required "theta" toFloat?
  let c ← fields.required "c" toFloat?
  let cEnd ← fields.required "c_end" toFloat?
  let rEnd ← fields.required "r_end" toFloat?
  let a ← fields.defaulted "a" 0 toFloat?
  let z ← fields.defaulted "z" 0 toFloat?
  let v ← fields.defaulted "v" 0 toFloat?
  pure { name, start, low, high, theta, c, cEnd, rEnd, a, z, v }

end Parameter

namespace Sample

def toDocument (s : Sample Float) : Document :=
  obj [("theta", ofFloat s.theta), ("c", ofFloat s.c)]

def ofDocument? (d : Document) : Option (Sample Float) := do
  let fields ← d.record? ["theta", "c"] false
  let theta ← fields.required "theta" toFloat?
  let c ← fields.required "c" toFloat?
  pure { theta, c }

end Sample

namespace TuningState

def fieldNames : List String :=
  ["optimizer", "iter", "num_iter", "sf_weight_sum", "moments", "params", "param_history"]

def toDocument (s : TuningState Float) : Document :=
  obj
    [("optimizer", s.optimizer.toDocument), ("iter", ofNat s.iter),
      ("num_iter", ofNat s.plannedPairs), ("sf_weight_sum", ofFloat s.mass),
      ("moments", s.moments.toDocument), ("params", ofList Parameter.toDocument s.params),
      ("param_history", ofList (ofList Sample.toDocument) s.history)]

def ofDocument? (d : Document) : Option (TuningState Float) := do
  let fields ← d.record? fieldNames false
  let optimizer ← fields.required "optimizer" Optimizer.ofDocument?
  let iter ← fields.required "iter" (toNat? 64)
  let plannedPairs ← fields.required "num_iter" (toNat? 64)
  let mass ← fields.defaulted "sf_weight_sum" 0 toFloat?
  let moments ←
    fields.defaulted "moments" (.empty PairMoments.standardInitial) PairMoments.ofDocument?
  let params ← fields.required "params" (toList? Parameter.ofDocument?)
  let history ← fields.defaulted "param_history" [] (toList? (toList? Sample.ofDocument?))
  pure { optimizer, iter, plannedPairs, mass, moments, params, history }

end TuningState

end PairedTuning
