import Mathlib
import PairedTuning.Wire.Exchange
import PairedTuning.Proofs.Document.Reading
import PairedTuning.Proofs.Wire.State

/-!
# Messages survive being written

Reports, responses and tasks are read back as they were written, also where a field without a value
is left out. As for states, the numbers have to fit, and those read from JSON do.
-/

namespace PairedTuning

open Document

/-! ### Reports -/

namespace Checksum

lemma ofDocument?_toDocument (c : UInt32) : ofDocument? (toDocument c) = some c := by
  rw [ofDocument?, toDocument, toNat?_ofNat c.toNat_lt, Option.map_some, UInt32.ofNat_toNat]

lemma toDocument_ne_null (c : UInt32) : toDocument c ≠ null := nofun

end Checksum

namespace Report

/-- The counts of a report have 64 bits. -/
structure Fits (r : Report) : Prop where
  wins : r.wins < 2 ^ 64
  losses : r.losses < 2 ^ 64
  draws : r.draws < 2 ^ 64
  games : r.games < 2 ^ 64

lemma ofDocument?_toDocument {r : Report} (h : r.Fits) : ofDocument? r.toDocument = some r := by
  have hsignature := toOption?_ofOption Checksum.toDocument_ne_null
    fun c (_ : c ∈ r.signature) => Checksum.ofDocument?_toDocument c
  simp [ofDocument?, toDocument, record?, Fields.required, Fields.defaulted,
    toNat?_ofNat h.wins, toNat?_ofNat h.losses, toNat?_ofNat h.draws, toNat?_ofNat h.games,
    hsignature]

lemma yields_fits : Yields ofDocument? Fits := by
  intro d r hd hr
  simp only [ofDocument?, Option.bind_eq_bind, Option.bind_eq_some_iff, Option.pure_def,
    Option.some.injEq] at hr
  obtain ⟨fields, hfields, wins, hwins, losses, hlosses, draws, hdraws, games, hgames, signature,
    -, rfl⟩ := hr
  have hjson := Fields.isJson_of_record? hd hfields
  constructor
  · exact hjson.required (yields_toNat? 64) hwins
  · exact hjson.required (yields_toNat? 64) hlosses
  · exact hjson.defaulted (yields_toNat? 64) (by norm_num) hdraws
  · exact hjson.required (yields_toNat? 64) hgames

end Report

/-! ### Responses -/

namespace WhiteParam

/-- The values of a parameter are of finite size, also the gain if there is one. -/
structure Fits (p : WhiteParam Float) : Prop where
  value : p.value.isFinite
  c : p.c.isFinite
  gain : ∀ x ∈ p.gain, x.isFinite

lemma ofDocument?_toDocument {p : WhiteParam Float} (h : p.Fits) :
    ofDocument? p.toDocument = some p := by
  have hgain : Fields.optional (present "gain" ofFloat p.gain) "gain" toFloat? = some p.gain :=
    Fields.optional_present (fun x hx => ofFloat_ne_null (h.gain x hx))
      fun x hx => toFloat?_ofFloat (h.gain x hx)
  simp [ofDocument?, toDocument, record?, Fields.required, toString?, toFloat?_ofFloat h.value,
    toFloat?_ofFloat h.c, Flip.ofDocument?_toDocument, hgain]

lemma yields_fits : Yields ofDocument? Fits := by
  intro d p hd hp
  simp only [ofDocument?, Option.bind_eq_bind, Option.bind_eq_some_iff, Option.pure_def,
    Option.some.injEq] at hp
  obtain ⟨fields, hfields, name, -, value, hvalue, c, hc, flip, -, gain, hgain, rfl⟩ := hp
  have hjson := Fields.isJson_of_record? hd hfields
  constructor
  · exact hjson.required yields_toFloat? hvalue
  · exact hjson.required yields_toFloat? hc
  · exact hjson.optional yields_toFloat? hgain

end WhiteParam

namespace BlackParam

/-- The value of a parameter is of finite size. -/
def Fits (p : BlackParam Float) : Prop := p.value.isFinite

lemma ofDocument?_toDocument {p : BlackParam Float} (h : p.Fits) :
    ofDocument? p.toDocument = some p := by
  simp [ofDocument?, toDocument, record?, Fields.required, toString?, toFloat?_ofFloat h]

lemma yields_fits : Yields ofDocument? Fits := by
  intro d p hd hp
  simp only [ofDocument?, Option.bind_eq_bind, Option.bind_eq_some_iff, Option.pure_def,
    Option.some.injEq] at hp
  obtain ⟨fields, hfields, name, -, value, hvalue, rfl⟩ := hp
  exact (Fields.isJson_of_record? hd hfields).required yields_toFloat? hvalue

end BlackParam

namespace Response

/-- The values of all parameters are of finite size. -/
structure Fits (r : Response Float) : Prop where
  white : ∀ p ∈ r.white, p.Fits
  black : ∀ p ∈ r.black, p.Fits

lemma ofDocument?_toDocument {r : Response Float} (h : r.Fits) :
    ofDocument? r.toDocument = some r := by
  have hwhite := toList?_ofList fun p hp => WhiteParam.ofDocument?_toDocument (h.white p hp)
  have hblack := toList?_ofList fun p hp => BlackParam.ofDocument?_toDocument (h.black p hp)
  have hinfo (rest : Fields) (hrest : lookup "info" rest = none) :
      Fields.optional (present "info" str r.info ++ rest) "info" toString? = some r.info :=
    Fields.optional_present_append (fun s _ => str_ne_null s) (fun _ _ => rfl) hrest
  have hsignature : Fields.optional (present "sig" Checksum.toDocument r.signature) "sig"
      Checksum.ofDocument? = some r.signature :=
    Fields.optional_present (fun c _ => Checksum.toDocument_ne_null c)
      fun c _ => Checksum.ofDocument?_toDocument c
  simp [ofDocument?, toDocument, record?, Fields.required, Fields.defaulted, toBool?, hinfo,
    hwhite, hblack, hsignature]

lemma yields_fits : Yields ofDocument? Fits := by
  intro d r hd hr
  simp only [ofDocument?, Option.bind_eq_bind, Option.bind_eq_some_iff, Option.pure_def,
    Option.some.injEq] at hr
  obtain ⟨fields, hfields, taskAlive, -, info, -, white, hwhite, black, hblack, signature, -,
    rfl⟩ := hr
  have hjson := Fields.isJson_of_record? hd hfields
  constructor
  · exact hjson.defaulted WhiteParam.yields_fits.toList? (by simp) hwhite
  · exact hjson.defaulted BlackParam.yields_fits.toList? (by simp) hblack

end Response

/-! ### Tasks -/

namespace Pending

/-- The counter of a perturbation has 64 bits. -/
def Fits (p : Pending) : Prop := p.iter < 2 ^ 64

lemma ofDocument?_toDocument {p : Pending} (h : p.Fits) : ofDocument? p.toDocument = some p := by
  have hpacked : (ofList (fun b : UInt8 => ofNat b.toNat) p.packed).toList?
      (fun b => (b.toNat? 8).map UInt8.ofNat) = some p.packed := by
    apply toList?_ofList
    intro b _
    rw [toNat?_ofNat b.toNat_lt, Option.map_some, UInt8.ofNat_toNat]
  simp [ofDocument?, toDocument, record?, Fields.required, toNat?_ofNat h, hpacked]

lemma toDocument_ne_null (p : Pending) : p.toDocument ≠ null := nofun

lemma yields_fits : Yields ofDocument? Fits := by
  intro d p hd hp
  simp only [ofDocument?, Option.bind_eq_bind, Option.bind_eq_some_iff, Option.pure_def,
    Option.some.injEq] at hp
  obtain ⟨fields, hfields, iter, hiter, packed, -, rfl⟩ := hp
  exact (Fields.isJson_of_record? hd hfields).required (yields_toNat? 64) hiter

end Pending

namespace Task

/-- The perturbation of a task fits if there is one. -/
def Fits (t : Task) : Prop := ∀ p ∈ t.pending, p.Fits

lemma ofDocument?_toDocument {t : Task} (h : t.Fits) : ofDocument? t.toDocument = some t := by
  have hworker (rest : Fields) (hrest : lookup "worker" rest = none) :
      Fields.optional (present "worker" str t.worker ++ rest) "worker" toString? = some t.worker :=
    Fields.optional_present_append (fun s _ => str_ne_null s) (fun _ _ => rfl) hrest
  have hpending : Fields.optional (present "spsa_params" Pending.toDocument t.pending)
      "spsa_params" Pending.ofDocument? = some t.pending :=
    Fields.optional_present (fun p _ => Pending.toDocument_ne_null p)
      fun p hp => Pending.ofDocument?_toDocument (h p hp)
  simp [ofDocument?, toDocument, record?, Fields.required, toBool?, hworker, hpending]

lemma yields_fits : Yields ofDocument? Fits := by
  intro d t hd ht
  simp only [ofDocument?, Option.bind_eq_bind, Option.bind_eq_some_iff, Option.pure_def,
    Option.some.injEq] at ht
  obtain ⟨fields, hfields, active, -, worker, -, pending, hpending, rfl⟩ := ht
  exact (Fields.isJson_of_record? hd hfields).optional Pending.yields_fits hpending

end Task

end PairedTuning
