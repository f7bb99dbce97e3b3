import Mathlib
import PairedTuning.Wire.Config
import PairedTuning.Proofs.Document.Reading

/-!
# Configurations survive being written

A configuration and log settings are read back as they were written. The built-in settings, which
stand in for whatever is not given, fit as well, so all that is read from JSON does. Neither fact
depends on how many items an array of a section may have. Log settings are written only if their
directory is a text.
-/

namespace PairedTuning

open Document

/-! ### Sections of whole numbers and words -/

lemma InstanceConfig.ofDocument?_toDocument (more : Bool) (c : InstanceConfig) :
    ofDocument? more c.toDocument = some c := by
  simp [ofDocument?, toDocument, record?, Fields.defaulted, toBool?]

namespace CacheConfig

/-- The numbers of the section have 64 bits. -/
structure Fits (c : CacheConfig) : Prop where
  ttlSecs : c.ttlSecs < 2 ^ 64
  maxCapacity : c.maxCapacity < 2 ^ 64

lemma ofDocument?_toDocument (more : Bool) {c : CacheConfig} (h : c.Fits) :
    ofDocument? more c.toDocument = some c := by
  simp [ofDocument?, toDocument, record?, Fields.defaulted, toNat?_ofNat h.ttlSecs,
    toNat?_ofNat h.maxCapacity]

lemma fits_standard : Config.standard.cache.Fits := by
  constructor <;> decide

lemma yields_fits (more : Bool) : Yields (ofDocument? more) Fits := by
  intro d c hd hc
  simp only [ofDocument?, Option.bind_eq_bind, Option.bind_eq_some_iff, Option.pure_def,
    Option.some.injEq] at hc
  obtain ⟨fields, hfields, ttlSecs, httl, maxCapacity, hmax, rfl⟩ := hc
  have hjson := Fields.isJson_of_record? hd hfields
  constructor
  · exact hjson.defaulted (yields_toNat? 64) fits_standard.ttlSecs httl
  · exact hjson.defaulted (yields_toNat? 64) fits_standard.maxCapacity hmax

end CacheConfig

namespace LockConfig

/-- The number of shards has 64 bits. -/
def Fits (c : LockConfig) : Prop := c.shards < 2 ^ 64

lemma ofDocument?_toDocument (more : Bool) {c : LockConfig} (h : c.Fits) :
    ofDocument? more c.toDocument = some c := by
  simp [ofDocument?, toDocument, record?, Fields.defaulted, toNat?_ofNat h]

lemma fits_standard : Config.standard.locks.Fits := by
  show 16 < 2 ^ 64
  decide

lemma yields_fits (more : Bool) : Yields (ofDocument? more) Fits := by
  intro d c hd hc
  simp only [ofDocument?, Option.bind_eq_bind, Option.bind_eq_some_iff, Option.pure_def,
    Option.some.injEq] at hc
  obtain ⟨fields, hfields, shards, hshards, rfl⟩ := hc
  exact (Fields.isJson_of_record? hd hfields).defaulted (yields_toNat? 64) fits_standard hshards

end LockConfig

lemma LoggingConfig.ofDocument?_toDocument (more : Bool) (c : LoggingConfig) :
    ofDocument? more c.toDocument = some c := by
  have hlogDir (rest : Fields) (hrest : lookup "log_dir" rest = none) :
      Fields.optional (present "log_dir" str c.logDir ++ rest) "log_dir" toString? =
        some c.logDir :=
    Fields.optional_present_append (fun s _ => str_ne_null s) (fun _ _ => rfl) hrest
  simp [ofDocument?, toDocument, record?, Fields.defaulted, toString?, hlogDir]

/-! ### Hyper-parameters -/

namespace HyperDefaults

/-- All values are of finite size. -/
def Fits (d : HyperDefaults Float) : Prop := ∀ p, (d.get p).isFinite

lemma fits_standard : (standard : HyperDefaults Float).Fits := by
  intro p
  cases p <;> decide +kernel

lemma Fits.set {d : HyperDefaults Float} (h : d.Fits) (p : HyperParameter) {x : Float}
    (hx : x.isFinite) : (d.set p x).Fits := by
  intro q
  rw [get_set]
  split_ifs
  · exact hx
  · exact h q

/-- Read one value into others. -/
def readInto (fields : Fields) (values : HyperDefaults Float) (p : HyperParameter) :
    Option (HyperDefaults Float) := do
  let x ← fields.defaulted p.name (standard.get p) toFloat?
  pure (values.set p x)

lemma ofDocument?_eq (more : Bool) (d : Document) :
    ofDocument? more d = (d.record? (HyperParameter.all.map (·.name)) more).bind
      fun fields => HyperParameter.all.foldlM (readInto fields) standard := rfl

/-- Every hyper-parameter is found under its own name. -/
lemma lookup_name (d : HyperDefaults Float) (p : HyperParameter) :
    lookup p.name (HyperParameter.all.map fun p => (p.name, ofFloat (d.get p))) =
      some (ofFloat (d.get p)) := by
  cases p <;> simp [HyperParameter.all, HyperParameter.name]

/-- Values that are set one after the other make up the whole. -/
lemma foldl_set_get (d values : HyperDefaults Float) :
    HyperParameter.all.foldl (fun values p => values.set p (d.get p)) values = d := by
  simp [HyperParameter.all, set, get]

lemma foldlM_readInto {d : HyperDefaults Float} (h : d.Fits) (ps : List HyperParameter)
    (values : HyperDefaults Float) :
    ps.foldlM (readInto (HyperParameter.all.map fun p => (p.name, ofFloat (d.get p)))) values =
      some (ps.foldl (fun values p => values.set p (d.get p)) values) := by
  induction ps generalizing values with
  | nil => rfl
  | cons p ps ih =>
    have hread : readInto (HyperParameter.all.map fun p => (p.name, ofFloat (d.get p))) values p =
        some (values.set p (d.get p)) := by
      simp [readInto, Fields.defaulted, lookup_name, toFloat?_ofFloat (h p)]
    rw [List.foldlM_cons, hread]
    exact ih (values.set p (d.get p))

lemma ofDocument?_toDocument (more : Bool) {d : HyperDefaults Float} (h : d.Fits) :
    ofDocument? more d.toDocument = some d := by
  rw [ofDocument?_eq, toDocument]
  show HyperParameter.all.foldlM _ standard = some d
  rw [foldlM_readInto h, foldl_set_get]

/-- Reading more values in keeps the values finite. -/
lemma fits_of_foldlM_readInto {fields : Fields} (hfields : fields.IsJson)
    {ps : List HyperParameter} {start values : HyperDefaults Float} (hstart : start.Fits)
    (h : ps.foldlM (readInto fields) start = some values) : values.Fits := by
  induction ps generalizing start with
  | nil =>
    cases h
    exact hstart
  | cons p ps ih =>
    rw [List.foldlM_cons] at h
    obtain ⟨next, hnext, h⟩ := Option.bind_eq_some_iff.mp h
    obtain ⟨x, hx, hset⟩ := Option.bind_eq_some_iff.mp hnext
    cases hset
    have hfinite := hfields.defaulted yields_toFloat? (fits_standard p) hx
    exact ih (hstart.set p hfinite) h

lemma yields_fits (more : Bool) : Yields (ofDocument? more) Fits := by
  intro d values hd hvalues
  rw [ofDocument?_eq] at hvalues
  obtain ⟨fields, hfields, hvalues⟩ := Option.bind_eq_some_iff.mp hvalues
  exact fits_of_foldlM_readInto (Fields.isJson_of_record? hd hfields) fits_standard hvalues

end HyperDefaults

/-! ### Configurations -/

namespace Config

/-- The numbers of every section fit. -/
structure Fits (c : Config) : Prop where
  cache : c.cache.Fits
  locks : c.locks.Fits
  hyper : c.hyper.Fits

lemma ofDocument?_toDocument (more : Bool) {c : Config} (h : c.Fits) :
    ofDocument? more c.toDocument = some c := by
  simp [ofDocument?, toDocument, record?, Fields.defaulted,
    InstanceConfig.ofDocument?_toDocument, CacheConfig.ofDocument?_toDocument more h.cache,
    LockConfig.ofDocument?_toDocument more h.locks,
    HyperDefaults.ofDocument?_toDocument more h.hyper, LoggingConfig.ofDocument?_toDocument]

lemma fits_standard : standard.Fits :=
  ⟨CacheConfig.fits_standard, LockConfig.fits_standard, HyperDefaults.fits_standard⟩

lemma yields_fits (more : Bool) : Yields (ofDocument? more) Fits := by
  intro d c hd hc
  simp only [ofDocument?, Option.bind_eq_bind, Option.bind_eq_some_iff, Option.pure_def,
    Option.some.injEq] at hc
  obtain ⟨fields, hfields, role, -, cache, hcache, locks, hlocks, hyper, hhyper, logging, -,
    rfl⟩ := hc
  have hjson := Fields.isJson_of_record? hd hfields
  constructor
  · exact hjson.defaulted (CacheConfig.yields_fits more) fits_standard.cache hcache
  · exact hjson.defaulted (LockConfig.yields_fits more) fits_standard.locks hlocks
  · exact hjson.defaulted (HyperDefaults.yields_fits more) fits_standard.hyper hhyper

end Config

/-! ### Log settings -/

lemma LogFormat.ofName?_name (f : LogFormat) : ofName? f.name = some f := by
  cases f <;> rfl

lemma Rotation.ofName?_name (r : Rotation) : ofName? r.name = some r := by
  cases r <;> rfl

namespace LogSettings

/-- The directory, if there is one, is a text. -/
def Fits (s : LogSettings) : Prop := ∀ path ∈ s.directory, path.text?.isSome

lemma exists_writeDirectory? {directory : Option DirectoryPath}
    (h : ∀ path ∈ directory, path.text?.isSome) :
    ∃ d, writeDirectory? directory = some d ∧ toOption? readDirectory? d = some directory := by
  cases directory with
  | none => exact ⟨null, rfl, rfl⟩
  | some path =>
    obtain ⟨text, htext⟩ := Option.isSome_iff_exists.mp (h path rfl)
    refine ⟨str text, by rw [writeDirectory?, htext, Option.map_some], ?_⟩
    rw [← DirectoryPath.ofText_of_text? htext]
    rfl

lemma write?_eq_toDocument {s : LogSettings} (h : s.Fits) : s.write? = some s.toDocument := by
  obtain ⟨d, hwrite, -⟩ := exists_writeDirectory? h
  simp [toDocument, write?, hwrite]

lemma ofDocument?_toDocument {s : LogSettings} (h : s.Fits) :
    ofDocument? s.toDocument = some s := by
  obtain ⟨d, hwrite, hread⟩ := exists_writeDirectory? h
  simp [ofDocument?, toDocument, write?, hwrite, fields?, record?, Fields.defaulted, toString?,
    toBool?, word?, LogFormat.ofName?_name, Rotation.ofName?_name, hread]

/-- Settings whose directory is no text have no document. -/
lemma write?_eq_none_iff {s : LogSettings} : s.write? = none ↔ ¬ s.Fits := by
  constructor
  · intro hnone hfits
    cases hnone.symm.trans (write?_eq_toDocument hfits)
  · intro hfits
    simp only [Fits, not_forall, Bool.not_eq_true, Option.isSome_eq_false_iff,
      Option.isNone_iff_eq_none] at hfits
    obtain ⟨path, hpath, htext⟩ := hfits
    rw [write?, Option.mem_def.mp hpath, writeDirectory?, htext]
    rfl

lemma isJson_of_fields? {d : Document} {fields : Fields} (hd : d.IsJson)
    (h : fields? d = some fields) : fields.IsJson := by
  unfold fields? at h
  split at h
  · split_ifs at h
    exact Fields.isJson_of_record? hd h
  · exact Fields.isJson_of_record? hd h

lemma yields_fits : Yields ofDocument? Fits := by
  intro d s hd hs
  simp only [ofDocument?, Option.bind_eq_bind, Option.bind_eq_some_iff, Option.pure_def,
    Option.some.injEq] at hs
  obtain ⟨fields, hfields, level, -, format, -, directory, hdirectory, stdout, -, rotation, -,
    rfl⟩ := hs
  have htext : Yields readDirectory? fun path => path.text?.isSome := by
    intro d path _ hpath
    obtain ⟨text, -, rfl⟩ := Option.map_eq_some_iff.mp hpath
    simp
  exact (isJson_of_fields? hd hfields).optional htext hdirectory

end LogSettings

end PairedTuning
