import Mathlib
import PairedTuning.Wire.State
import PairedTuning.Proofs.Document.Reading

/-!
# States survive being written

A tuning state and each of its parts is read back as it was written, if its numbers fit: whole
numbers have 64 bits, and floats are of finite size. Whatever is read from JSON fits, the defaults
of absent fields included.
-/

namespace PairedTuning

open Document

/-! ### Words -/

lemma Flip.ofDocument?_toDocument (f : Flip) : Flip.ofDocument? f.toDocument = some f :=
  Flip.ofSign?_sign f

lemma Family.ofDocument?_toDocument (f : Family) : Family.ofDocument? f.toDocument = some f :=
  Family.ofName?_name f

namespace BlockGain

lemma ofDocument?_toDocument (g : BlockGain) : ofDocument? g.toDocument = some g :=
  ofName?_name g

lemma ofField?_toDocument (g : BlockGain) : ofField? g.toDocument = some g :=
  ofName?_name g

end BlockGain

/-! ### Optimizers -/

namespace Optimizer

/-- The hyper-parameters of an optimizer are of finite size. -/
def Fits : Optimizer Float → Prop
  | classic offset alpha gamma _ => offset.isFinite ∧ alpha.isFinite ∧ gamma.isFinite
  | scheduleFreeSgd lr beta => lr.isFinite ∧ beta.isFinite
  | scheduleFreeAdam lr beta1 beta2 eps =>
    lr.isFinite ∧ beta1.isFinite ∧ beta2.isFinite ∧ eps.isFinite

lemma splitKind?_obj (f : Family) (fields : Fields) :
    splitKind? (obj (("kind", f.toDocument) :: fields)) =
      some (f, obj (("kind", f.toDocument) :: fields)) := by
  simp [splitKind?, Family.toDocument, toString?]

lemma ofDocument?_toDocument {o : Optimizer Float} (h : o.Fits) :
    ofDocument? o.toDocument = some o := by
  cases o with
  | classic offset alpha gamma gain =>
    obtain ⟨hoffset, halpha, hgamma⟩ := h
    simp [ofDocument?, toDocument, splitKind?_obj, record?, Fields.required, Fields.defaulted,
      toFloat?_ofFloat hoffset, toFloat?_ofFloat halpha, toFloat?_ofFloat hgamma,
      BlockGain.ofField?_toDocument]
  | scheduleFreeSgd lr beta =>
    obtain ⟨hlr, hbeta⟩ := h
    simp [ofDocument?, toDocument, splitKind?_obj, record?, Fields.required,
      toFloat?_ofFloat hlr, toFloat?_ofFloat hbeta]
  | scheduleFreeAdam lr beta1 beta2 eps =>
    obtain ⟨hlr, hbeta1, hbeta2, heps⟩ := h
    simp [ofDocument?, toDocument, splitKind?_obj, record?, Fields.required,
      toFloat?_ofFloat hlr, toFloat?_ofFloat hbeta1, toFloat?_ofFloat hbeta2,
      toFloat?_ofFloat heps]

/-- What is left of a document for the fields is JSON as well. -/
lemma isJson_of_splitKind? {d rest : Document} {family : Family} (hd : d.IsJson)
    (h : splitKind? d = some (family, rest)) : rest.IsJson := by
  unfold splitKind? at h
  split at h
  · simp only [Option.bind_eq_bind, Option.bind_eq_some_iff, Option.pure_def, Option.some.injEq,
      Prod.mk.injEq] at h
    obtain ⟨-, -, -, -, -, rfl⟩ := h
    exact hd
  · obtain ⟨f, -, hrest⟩ := Option.map_eq_some_iff.mp h
    cases hrest
    cases hd with
    | arr hitems => exact .arr fun d hd => hitems d (List.mem_cons_of_mem _ hd)
  · cases h

lemma yields_fits : Yields ofDocument? Fits := by
  intro d o hd ho
  simp only [ofDocument?, Option.bind_eq_bind, Option.bind_eq_some_iff, Option.pure_def] at ho
  obtain ⟨⟨family, rest⟩, hrest, fields, hfields, ho⟩ := ho
  have hjson := Fields.isJson_of_record? (isJson_of_splitKind? hd hrest) hfields
  cases family with
  | classic =>
    simp only [Option.bind_eq_some_iff, Option.some.injEq] at ho
    obtain ⟨offset, hoffset, alpha, halpha, gamma, hgamma, gain, -, rfl⟩ := ho
    exact ⟨hjson.required yields_toFloat? hoffset, hjson.required yields_toFloat? halpha,
      hjson.required yields_toFloat? hgamma⟩
  | scheduleFreeSgd =>
    simp only [Option.bind_eq_some_iff, Option.some.injEq] at ho
    obtain ⟨lr, hlr, beta, hbeta, rfl⟩ := ho
    exact ⟨hjson.required yields_toFloat? hlr, hjson.required yields_toFloat? hbeta⟩
  | scheduleFreeAdam =>
    simp only [Option.bind_eq_some_iff, Option.some.injEq] at ho
    obtain ⟨lr, hlr, beta1, hbeta1, beta2, hbeta2, eps, heps, rfl⟩ := ho
    exact ⟨hjson.required yields_toFloat? hlr, hjson.required yields_toFloat? hbeta1,
      hjson.required yields_toFloat? hbeta2, hjson.required yields_toFloat? heps⟩

end Optimizer

/-! ### Moments -/

namespace PairMoments

/-- The sums of the moments are of finite size. -/
structure Fits (m : PairMoments Float) : Prop where
  reports : m.reports.isFinite
  pairs : m.pairs.isFinite
  signed : m.signed.isFinite
  squaredPerPair : m.squaredPerPair.isFinite
  initial : m.initial.isFinite

lemma ofDocument?_toDocument {m : PairMoments Float} (h : m.Fits) :
    ofDocument? m.toDocument = some m := by
  simp [ofDocument?, toDocument, record?, Fields.required, Fields.defaulted,
    toFloat?_ofFloat h.reports, toFloat?_ofFloat h.pairs, toFloat?_ofFloat h.signed,
    toFloat?_ofFloat h.squaredPerPair, toFloat?_ofFloat h.initial]

lemma fits_empty : (empty standardInitial).Fits := ⟨rfl, rfl, rfl, rfl, rfl⟩

lemma yields_fits : Yields ofDocument? Fits := by
  intro d m hd hm
  simp only [ofDocument?, Option.bind_eq_bind, Option.bind_eq_some_iff, Option.pure_def,
    Option.some.injEq] at hm
  obtain ⟨fields, hfields, reports, hreports, pairs, hpairs, signed, hsigned, squaredPerPair,
    hsquared, initial, hinitial, rfl⟩ := hm
  have hjson := Fields.isJson_of_record? hd hfields
  constructor
  · exact hjson.required yields_toFloat? hreports
  · exact hjson.required yields_toFloat? hpairs
  · exact hjson.required yields_toFloat? hsigned
  · exact hjson.required yields_toFloat? hsquared
  · exact hjson.defaulted yields_toFloat? rfl hinitial

end PairMoments

/-! ### Parameters and samples -/

namespace Parameter

/-- The values of a parameter are of finite size. -/
structure Fits (p : Parameter Float) : Prop where
  start : p.start.isFinite
  low : p.low.isFinite
  high : p.high.isFinite
  theta : p.theta.isFinite
  c : p.c.isFinite
  cEnd : p.cEnd.isFinite
  rEnd : p.rEnd.isFinite
  a : p.a.isFinite
  z : p.z.isFinite
  v : p.v.isFinite

lemma ofDocument?_toDocument {p : Parameter Float} (h : p.Fits) :
    ofDocument? p.toDocument = some p := by
  simp [ofDocument?, toDocument, record?, Fields.required, Fields.defaulted, toString?,
    toFloat?_ofFloat h.start, toFloat?_ofFloat h.low, toFloat?_ofFloat h.high,
    toFloat?_ofFloat h.theta, toFloat?_ofFloat h.c, toFloat?_ofFloat h.cEnd,
    toFloat?_ofFloat h.rEnd, toFloat?_ofFloat h.a, toFloat?_ofFloat h.z, toFloat?_ofFloat h.v]

lemma yields_fits : Yields ofDocument? Fits := by
  intro d p hd hp
  simp only [ofDocument?, Option.bind_eq_bind, Option.bind_eq_some_iff, Option.pure_def,
    Option.some.injEq] at hp
  obtain ⟨fields, hfields, name, -, start, hstart, low, hlow, high, hhigh, theta, htheta, c, hc,
    cEnd, hcEnd, rEnd, hrEnd, a, ha, z, hz, v, hv, rfl⟩ := hp
  have hjson := Fields.isJson_of_record? hd hfields
  constructor
  · exact hjson.required yields_toFloat? hstart
  · exact hjson.required yields_toFloat? hlow
  · exact hjson.required yields_toFloat? hhigh
  · exact hjson.required yields_toFloat? htheta
  · exact hjson.required yields_toFloat? hc
  · exact hjson.required yields_toFloat? hcEnd
  · exact hjson.required yields_toFloat? hrEnd
  · exact hjson.defaulted yields_toFloat? rfl ha
  · exact hjson.defaulted yields_toFloat? rfl hz
  · exact hjson.defaulted yields_toFloat? rfl hv

end Parameter

namespace Sample

/-- The values of a sample are of finite size. -/
structure Fits (s : Sample Float) : Prop where
  theta : s.theta.isFinite
  c : s.c.isFinite

lemma ofDocument?_toDocument {s : Sample Float} (h : s.Fits) :
    ofDocument? s.toDocument = some s := by
  simp [ofDocument?, toDocument, record?, Fields.required, toFloat?_ofFloat h.theta,
    toFloat?_ofFloat h.c]

lemma yields_fits : Yields ofDocument? Fits := by
  intro d s hd hs
  simp only [ofDocument?, Option.bind_eq_bind, Option.bind_eq_some_iff, Option.pure_def,
    Option.some.injEq] at hs
  obtain ⟨fields, hfields, theta, htheta, c, hc, rfl⟩ := hs
  have hjson := Fields.isJson_of_record? hd hfields
  exact ⟨hjson.required yields_toFloat? htheta, hjson.required yields_toFloat? hc⟩

end Sample

/-! ### States -/

namespace TuningState

/-- The counters of a state have 64 bits, and all its values are of finite size. -/
structure Fits (s : TuningState Float) : Prop where
  optimizer : s.optimizer.Fits
  iter : s.iter < 2 ^ 64
  plannedPairs : s.plannedPairs < 2 ^ 64
  mass : s.mass.isFinite
  moments : s.moments.Fits
  params : ∀ p ∈ s.params, p.Fits
  history : ∀ samples ∈ s.history, ∀ x ∈ samples, x.Fits

lemma ofDocument?_toDocument {s : TuningState Float} (h : s.Fits) :
    ofDocument? s.toDocument = some s := by
  have hparams := toList?_ofList fun p hp => Parameter.ofDocument?_toDocument (h.params p hp)
  have hsamples (samples : List (Sample Float)) (hmem : samples ∈ s.history) :
      (ofList Sample.toDocument samples).toList? Sample.ofDocument? = some samples :=
    toList?_ofList fun x hx => Sample.ofDocument?_toDocument (h.history samples hmem x hx)
  simp [ofDocument?, toDocument, record?, Fields.required, Fields.defaulted,
    Optimizer.ofDocument?_toDocument h.optimizer, toNat?_ofNat h.iter,
    toNat?_ofNat h.plannedPairs, toFloat?_ofFloat h.mass,
    PairMoments.ofDocument?_toDocument h.moments, hparams, toList?_ofList hsamples]

lemma yields_fits : Yields ofDocument? Fits := by
  intro d s hd hs
  simp only [ofDocument?, Option.bind_eq_bind, Option.bind_eq_some_iff, Option.pure_def,
    Option.some.injEq] at hs
  obtain ⟨fields, hfields, optimizer, hoptimizer, iter, hiter, pairs, hpairs, mass, hmass,
    moments, hmoments, params, hparams, history, hhistory, rfl⟩ := hs
  have hjson := Fields.isJson_of_record? hd hfields
  constructor
  · exact hjson.required Optimizer.yields_fits hoptimizer
  · exact hjson.required (yields_toNat? 64) hiter
  · exact hjson.required (yields_toNat? 64) hpairs
  · exact hjson.defaulted yields_toFloat? rfl hmass
  · exact hjson.defaulted PairMoments.yields_fits PairMoments.fits_empty hmoments
  · exact hjson.required Parameter.yields_fits.toList? hparams
  · exact hjson.defaulted Sample.yields_fits.toList?.toList? (by simp) hhistory

end TuningState

end PairedTuning
