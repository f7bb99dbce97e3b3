import Mathlib
import PairedTuning.Wire.Config
import PairedTuning.Proofs.Document.Overlay
import PairedTuning.Proofs.Wire.Config

/-!
# Fields of a configuration

A configuration is made up of its fields, each of which belongs to a section and has a key there.
When a configuration is read from a document whose sections are objects, every field is read by
itself, from what stands at its place; a field with nothing at its place is the built-in one. An
object is never the value of a field.
-/

namespace PairedTuning

open Document

lemma HyperParameter.ofName?_name (p : HyperParameter) : ofName? p.name = some p := by
  cases p <;> decide

lemma HyperParameter.name_injective : Function.Injective name := by
  intro p q h
  have hnames := congrArg ofName? h
  rw [ofName?_name, ofName?_name] at hnames
  exact Option.some.inj hnames

/-- The fields of a configuration, by the type of their values. -/
inductive ConfigField : Type → Type
  | primary : ConfigField Bool
  | ttlSecs : ConfigField Nat
  | maxCapacity : ConfigField Nat
  | shards : ConfigField Nat
  | hyper (p : HyperParameter) : ConfigField Float
  | level : ConfigField String
  | format : ConfigField String
  | logDir : ConfigField (Option String)
  | rotation : ConfigField String

/-- The names of the sections. -/
def Config.sections : List String := ["instance", "cache", "locks", "optimizer", "logging"]

namespace ConfigField

variable {β : Type}

/-- The name of the section that a field belongs to. -/
def sectionName : ConfigField β → String
  | primary => "instance"
  | ttlSecs => "cache"
  | maxCapacity => "cache"
  | shards => "locks"
  | hyper _ => "optimizer"
  | level => "logging"
  | format => "logging"
  | logDir => "logging"
  | rotation => "logging"

/-- The key of a field in its section. -/
def key : ConfigField β → String
  | primary => "primary"
  | ttlSecs => "ttl_secs"
  | maxCapacity => "max_capacity"
  | shards => "shards"
  | hyper p => p.name
  | level => "level"
  | format => "format"
  | logDir => "log_dir"
  | rotation => "rotation"

/-- The value that a configuration has for a field. -/
def get : ConfigField β → Config → β
  | primary, c => c.role.primary
  | ttlSecs, c => c.cache.ttlSecs
  | maxCapacity, c => c.cache.maxCapacity
  | shards, c => c.locks.shards
  | hyper p, c => c.hyper.get p
  | level, c => c.logging.level
  | format, c => c.logging.format
  | logDir, c => c.logging.logDir
  | rotation, c => c.logging.rotation

/-- Read the value of a field. -/
def decode : ConfigField β → Document → Option β
  | primary => toBool?
  | ttlSecs => toNat? 64
  | maxCapacity => toNat? 64
  | shards => toNat? 64
  | hyper _ => toFloat?
  | level => toString?
  | format => toString?
  | logDir => toOption? toString?
  | rotation => toString?

lemma sectionName_mem (f : ConfigField β) : f.sectionName ∈ Config.sections := by
  cases f <;> simp [sectionName, Config.sections]

lemma decode_obj (f : ConfigField β) (fields : Fields) : f.decode (obj fields) = none := by
  cases f <;> rfl

/-- No two fields have the same place. -/
lemma heq_of_place {γ : Type} {f : ConfigField β} {g : ConfigField γ}
    (hsection : f.sectionName = g.sectionName) (hkey : f.key = g.key) : HEq f g := by
  cases f with
  | hyper p =>
    cases g with
    | hyper q =>
      obtain rfl : p = q := HyperParameter.name_injective hkey
      rfl
    | _ => simp [sectionName] at hsection
  | _ => cases g <;> simp_all [sectionName, key]

/-- A configuration has for a field what is read from `d?`; without a document, the built-in
value. -/
def Reads (f : ConfigField β) (d? : Option Document) (c : Config) : Prop :=
  match d? with
  | none => f.get c = f.get .standard
  | some d => f.decode d = some (f.get c)

lemma reads_iff {f : ConfigField β} {fields : Fields} {c : Config} :
    f.Reads (lookup f.key fields) c ↔
      fields.defaulted f.key (f.get .standard) f.decode = some (f.get c) := by
  rw [Fields.defaulted]
  cases lookup f.key fields with
  | none => exact eq_comm.trans (Option.some_inj (a := f.get .standard) (b := f.get c)).symm
  | some d => rfl

end ConfigField

/-- Configurations with the same values for all fields are the same. -/
lemma Config.eq_of_fields {c c' : Config}
    (h : ∀ (β : Type) (f : ConfigField β), f.get c = f.get c') : c = c' := by
  obtain ⟨⟨primary⟩, ⟨ttlSecs, maxCapacity⟩, ⟨shards⟩, hyper,
    ⟨level, format, logDir, rotation⟩⟩ := c
  obtain ⟨⟨primary'⟩, ⟨ttlSecs', maxCapacity'⟩, ⟨shards'⟩, hyper',
    ⟨level', format', logDir', rotation'⟩⟩ := c'
  have hhyper : hyper = hyper' := by
    have hget (p : HyperParameter) : hyper.get p = hyper'.get p := h _ (.hyper p)
    cases hyper
    cases hyper'
    simp only [HyperDefaults.mk.injEq]
    exact ⟨hget .lr, hget .beta, hget .beta2, hget .eps, hget .initialMoment, hget .offsetFraction,
      hget .alpha, hget .gamma⟩
  obtain rfl : primary = primary' := h _ .primary
  obtain rfl : ttlSecs = ttlSecs' := h _ .ttlSecs
  obtain rfl : maxCapacity = maxCapacity' := h _ .maxCapacity
  obtain rfl : shards = shards' := h _ .shards
  obtain rfl : level = level' := h _ .level
  obtain rfl : format = format' := h _ .format
  obtain rfl : logDir = logDir' := h _ .logDir
  obtain rfl : rotation = rotation' := h _ .rotation
  rw [hhyper]

/-! ### Reading by section -/

section

variable {more : Bool} {fields : Fields}

lemma InstanceConfig.defaulted_of_ofDocument? {c : InstanceConfig}
    (h : ofDocument? more (obj fields) = some c) :
    fields.defaulted "primary" Config.standard.role.primary toBool? = some c.primary := by
  simp only [ofDocument?, record?, Option.bind_eq_bind, Option.bind_some, Option.pure_def,
    Option.bind_eq_some_iff, Option.some.injEq] at h
  obtain ⟨primary, hprimary, rfl⟩ := h
  exact hprimary

lemma CacheConfig.defaulted_of_ofDocument? {c : CacheConfig}
    (h : ofDocument? more (obj fields) = some c) :
    fields.defaulted "ttl_secs" Config.standard.cache.ttlSecs (toNat? 64) = some c.ttlSecs ∧
      fields.defaulted "max_capacity" Config.standard.cache.maxCapacity (toNat? 64) =
        some c.maxCapacity := by
  simp only [ofDocument?, record?, Option.bind_eq_bind, Option.bind_some, Option.pure_def,
    Option.bind_eq_some_iff, Option.some.injEq] at h
  obtain ⟨ttlSecs, httl, maxCapacity, hmax, rfl⟩ := h
  exact ⟨httl, hmax⟩

lemma LockConfig.defaulted_of_ofDocument? {c : LockConfig}
    (h : ofDocument? more (obj fields) = some c) :
    fields.defaulted "shards" Config.standard.locks.shards (toNat? 64) = some c.shards := by
  simp only [ofDocument?, record?, Option.bind_eq_bind, Option.bind_some, Option.pure_def,
    Option.bind_eq_some_iff, Option.some.injEq] at h
  obtain ⟨shards, hshards, rfl⟩ := h
  exact hshards

lemma LoggingConfig.defaulted_of_ofDocument? {c : LoggingConfig}
    (h : ofDocument? more (obj fields) = some c) :
    fields.defaulted "level" Config.standard.logging.level toString? = some c.level ∧
      fields.defaulted "format" Config.standard.logging.format toString? = some c.format ∧
      fields.optional "log_dir" toString? = some c.logDir ∧
      fields.defaulted "rotation" Config.standard.logging.rotation toString? =
        some c.rotation := by
  simp only [ofDocument?, record?, Option.bind_eq_bind, Option.bind_some, Option.pure_def,
    Option.bind_eq_some_iff, Option.some.injEq] at h
  obtain ⟨level, hlevel, format, hformat, logDir, hlogDir, rotation, hrotation, rfl⟩ := h
  exact ⟨hlevel, hformat, hlogDir, hrotation⟩

namespace HyperDefaults

/-- What is read for a hyper-parameter is what was set last, however many others are set. -/
lemma get_of_foldlM {ps : List HyperParameter} {start values : HyperDefaults Float}
    (h : ps.foldlM (readInto fields) start = some values) (p : HyperParameter) :
    (p ∈ ps → fields.defaulted p.name (standard.get p) toFloat? = some (values.get p)) ∧
      (p ∉ ps → values.get p = start.get p) := by
  induction ps generalizing start with
  | nil =>
    cases h
    exact ⟨nofun, fun _ => rfl⟩
  | cons q ps ih =>
    rw [List.foldlM_cons] at h
    obtain ⟨next, hnext, h⟩ := Option.bind_eq_some_iff.mp h
    obtain ⟨x, hx, hset⟩ := Option.bind_eq_some_iff.mp hnext
    cases hset
    obtain ⟨hmem, hother⟩ := ih h
    constructor
    · intro hp
      by_cases hps : p ∈ ps
      · exact hmem hps
      · obtain rfl : p = q := by simpa [hps] using hp
        rw [hx, hother hps, get_set, if_pos rfl]
    · intro hp
      rw [List.mem_cons, not_or] at hp
      rw [hother hp.2, get_set, if_neg (Ne.symm hp.1)]

lemma defaulted_of_ofDocument? {d : HyperDefaults Float}
    (h : ofDocument? more (obj fields) = some d) (p : HyperParameter) :
    fields.defaulted p.name (standard.get p) toFloat? = some (d.get p) :=
  (get_of_foldlM h p).1 p.mem_all

end HyperDefaults

end

/-! ### Reading by field -/

/-- The document is an object, and so is each of its sections that is given. -/
structure Document.Sectioned (d : Document) : Prop where
  isObject : d.IsObject
  sections : ∀ name ∈ Config.sections, ∀ inner, d.field? name = some inner → inner.IsObject

lemma Document.sectioned_obj {fields : Fields} (hkeys : (keys fields).Nodup)
    (hsections : ∀ f ∈ fields, f.1 ∈ Config.sections → f.2.IsObject) : (obj fields).Sectioned := by
  refine ⟨⟨fields, rfl, hkeys⟩, ?_⟩
  intro name hname inner hinner
  exact hsections _ (mem_of_lookup hinner) hname

/-- What a document has at the place of a field. -/
def Document.setting? {β : Type} (d : Document) (f : ConfigField β) : Option Document :=
  (d.field? f.sectionName).bind (field? f.key)

namespace ConfigField

variable {β γ : Type} {fields : Fields} {c : Config}

/-- A field is read from its section as the section reads it; without a section, it is the built-in
one. -/
lemma reads_of_section (f : ConfigField β) {default x : γ} {decode : Document → Option γ}
    (hd : (obj fields).Sectioned)
    (h : fields.defaulted f.sectionName default decode = some x)
    (hdefault : default = x → f.get .standard = f.get c)
    (hinner : ∀ inner : Fields, decode (obj inner) = some x →
      inner.defaulted f.key (f.get .standard) f.decode = some (f.get c)) :
    f.Reads ((obj fields).setting? f) c := by
  rw [Fields.defaulted] at h
  rw [setting?, field?]
  cases hlookup : lookup f.sectionName fields with
  | none =>
    rw [hlookup] at h
    exact (hdefault (Option.some.inj h)).symm
  | some d =>
    rw [hlookup] at h
    obtain ⟨inner, rfl, -⟩ := hd.sections _ f.sectionName_mem _ hlookup
    exact reads_iff.mpr (hinner inner h)

end ConfigField

/-- A configuration that is read from a document has for every field what is read from its place. -/
lemma Config.reads_of_ofDocument? {more : Bool} {d : Document} {c : Config} (hd : d.Sectioned)
    (h : ofDocument? more d = some c) {β : Type} (f : ConfigField β) :
    f.Reads (d.setting? f) c := by
  obtain ⟨fields, rfl, -⟩ := hd.isObject
  simp only [ofDocument?, record?, Option.bind_eq_bind, Option.bind_some, Option.pure_def,
    Option.bind_eq_some_iff, Option.some.injEq] at h
  obtain ⟨role, hrole, cache, hcache, locks, hlocks, hyper, hhyper, logging, hlogging, rfl⟩ := h
  cases f with
  | primary =>
    exact ConfigField.reads_of_section _ hd hrole (congrArg InstanceConfig.primary) fun _ h =>
      InstanceConfig.defaulted_of_ofDocument? h
  | ttlSecs =>
    exact ConfigField.reads_of_section _ hd hcache (congrArg CacheConfig.ttlSecs) fun _ h =>
      (CacheConfig.defaulted_of_ofDocument? h).1
  | maxCapacity =>
    exact ConfigField.reads_of_section _ hd hcache (congrArg CacheConfig.maxCapacity) fun _ h =>
      (CacheConfig.defaulted_of_ofDocument? h).2
  | shards =>
    exact ConfigField.reads_of_section _ hd hlocks (congrArg LockConfig.shards) fun _ h =>
      LockConfig.defaulted_of_ofDocument? h
  | hyper p =>
    exact ConfigField.reads_of_section _ hd hhyper (congrArg (HyperDefaults.get · p)) fun _ h =>
      HyperDefaults.defaulted_of_ofDocument? h p
  | level =>
    exact ConfigField.reads_of_section _ hd hlogging (congrArg LoggingConfig.level) fun _ h =>
      (LoggingConfig.defaulted_of_ofDocument? h).1
  | format =>
    exact ConfigField.reads_of_section _ hd hlogging (congrArg LoggingConfig.format) fun _ h =>
      (LoggingConfig.defaulted_of_ofDocument? h).2.1
  | logDir =>
    exact ConfigField.reads_of_section _ hd hlogging (congrArg LoggingConfig.logDir) fun _ h =>
      (LoggingConfig.defaulted_of_ofDocument? h).2.2.1
  | rotation =>
    exact ConfigField.reads_of_section _ hd hlogging (congrArg LoggingConfig.rotation) fun _ h =>
      (LoggingConfig.defaulted_of_ofDocument? h).2.2.2

end PairedTuning
