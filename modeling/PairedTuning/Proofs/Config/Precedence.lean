import Mathlib
import PairedTuning.Proofs.Config.Layers

/-!
# Which source a field is taken from

Though a configuration is laid together as a whole, and read when that is complete, every field has
a source of its own: the environment, the local file or the project file, whichever is the first of
them to set it. A field that none of them sets has its built-in value.
-/

namespace PairedTuning

open Document

/-- All that a configuration is loaded from. -/
structure Config.Sources where
  file : ConfigFile
  localFile : ConfigFile
  environment : List (String × String)

namespace ConfigField

variable {β : Type} {f : ConfigField β} {c : Config} {d? shown? : Option Document}

lemma Reads.of_shows (h : f.Reads shown? c) (hshows : Shows shown? d?) : f.Reads d? c := by
  rcases hshows with rfl | ⟨fields, rfl⟩
  · exact h
  · rw [Reads, decode_obj] at h
    cases h

lemma Reads.unique {c' : Config} (h : f.Reads d? c) (h' : f.Reads d? c') : f.get c = f.get c' := by
  cases d? with
  | none => exact Eq.trans h (Eq.symm h')
  | some d => exact Option.some.inj (Eq.trans (Eq.symm h) h')

end ConfigField

namespace Config

lemma sectioned_standard : standard.toDocument.Sectioned := by
  refine ⟨⟨_, rfl, by decide⟩, ?_⟩
  intro name hname inner hinner
  simp only [sections, List.mem_cons, List.not_mem_nil, or_false] at hname
  rcases hname with rfl | rfl | rfl | rfl | rfl <;> cases hinner <;> exact ⟨_, rfl, by decide⟩

/-- What the built-in layer sets a field to is the built-in value. -/
lemma reads_of_or_standard {β : Type} {f : ConfigField β} {d? : Option Document} {c : Config}
    (h : f.Reads (d?.or (standard.toDocument.setting? f)) c) : f.Reads d? c := by
  cases d? with
  | some d => exact h
  | none =>
    rw [Option.none_or] at h
    have hstandard := reads_of_ofDocument? sectioned_standard
      (ofDocument?_toDocument true fits_standard) f
    cases hsetting : standard.toDocument.setting? f with
    | none =>
      rw [hsetting] at h
      exact h
    | some d =>
      rw [hsetting] at h hstandard
      exact Option.some.inj (h.symm.trans hstandard)

lemma ofLayers_eq_ok {layers : Document} {c : Config} (h : ofLayers layers = .ok c) :
    ofDocument? true layers = some c := by
  unfold ofLayers at h
  cases hread : ofDocument? true layers with
  | none =>
    rw [hread] at h
    cases h
  | some c' =>
    simp only [hread] at h
    split at h
    · cases h
    · cases h
      rfl

namespace Sources

variable {β : Type}

def load (read : String → Option Document) (s : Sources) : Except LoadError Config :=
  loadWith read s.file s.localFile s.environment

/-- Whatever is given for a section is an object, and no variable stands for a whole section. -/
structure Plain (s : Sources) : Prop where
  file : s.file.Plain
  localFile : s.localFile.Plain
  environment : Environment.Plain s.environment

/-- What a field is set to by the uppermost source that sets it: the environment, the local file or
the project file. -/
def setting? (read : String → Option Document) (s : Sources) (f : ConfigField β) :
    Option Document :=
  (Environment.setting? read s.environment f).or ((s.localFile.setting? f).or (s.file.setting? f))

/-- A field has the value that the uppermost source sets it to, or else its built-in value. -/
lemma reads_of_load {read : String → Option Document} {s : Sources} {c : Config}
    (hplain : s.Plain) (h : s.load read = .ok c) (f : ConfigField β) :
    f.Reads (s.setting? read f) c := by
  simp only [load, loadWith, bind_eq_ok_iff] at h
  obtain ⟨top, htop, layer, hlayer, layers, hlayers, hread⟩ := h
  have hfile := ConfigFile.lays_withFile hlayer sectioned_standard hplain.file
  have hlocal := ConfigFile.lays_withFile hlayers hfile.sectioned hplain.localFile
  have htop := Environment.lays_layer htop hplain.environment hlocal.sectioned
  have hshows := htop.shows β f _ (hlocal.shows β f _ (hfile.shows β f _ (.inl rfl)))
  have hreads := reads_of_ofDocument? htop.sectioned (ofLayers_eq_ok hread) f
  apply reads_of_or_standard
  simp only [setting?, Option.or_assoc]
  exact hreads.of_shows hshows

end Sources

/-- Variables that stand for nothing make up a layer without fields. -/
lemma layer_eq_of_path?_none (read : String → Option Document)
    {environment : List (String × String)} (h : ∀ v ∈ environment, Environment.path? v.1 = none) :
    Environment.layer read environment = .ok (obj []) := by
  rw [Environment.layer_eq]
  induction environment with
  | nil => rfl
  | cons v environment ih =>
    obtain ⟨hv, henvironment⟩ := List.forall_mem_cons.mp h
    have hlay : Environment.lay read (obj []) v = .ok (obj []) := by
      simp only [Environment.lay, hv]
      rfl
    rw [List.foldlM_cons, hlay]
    exact ih henvironment

/-- Without a local file and without variables, the project file alone decides. -/
lemma loadWith_eq_loadFile (read : String → Option Document) {file : ConfigFile}
    {environment : List (String × String)} (h : ∀ v ∈ environment, Environment.path? v.1 = none) :
    loadWith read file .missing environment = loadFile file := by
  obtain ⟨fields, hstandard⟩ : ∃ fields, standard.toDocument = obj fields := ⟨_, rfl⟩
  rw [loadWith, loadFile, layer_eq_of_path?_none read h, hstandard]
  cases file with
  | missing =>
    show ofLayers ((obj fields).overlay (obj [])) = ofLayers (obj fields)
    rw [overlay_obj_nil]
  | unreadable => rfl
  | holding fields' =>
    show ofLayers (((obj fields).overlay (obj fields')).overlay (obj [])) =
      ofLayers ((obj fields).overlay (obj fields'))
    rw [overlay, overlay_obj_nil]

/-- Precedence goes field by field. A configuration is its fields, each with a place of its own. In
a configuration that is loaded, a field has the value that the uppermost source sets it to, and its
built-in value if no source sets it. So whatever else is changed in the sources, a field that is set
to the same keeps its value. The variable of a field is known by its name, case apart. Without a
local file and without variables, loading is loading the project file. None of this depends on what
the texts of the variables are read as. -/
theorem load_takes_uppermost (read : String → Option Document) :
    ((∀ c c' : Config, (∀ (β : Type) (f : ConfigField β), f.get c = f.get c') → c = c') ∧
      ∀ (β γ : Type) (f : ConfigField β) (g : ConfigField γ),
        f.sectionName = g.sectionName → f.key = g.key → HEq f g) ∧
    (∀ (s : Sources) (c : Config), s.Plain → s.load read = .ok c →
      ∀ (β : Type) (f : ConfigField β), f.Reads (s.setting? read f) c) ∧
    (∀ (s s' : Sources) (c c' : Config), s.Plain → s'.Plain →
      s.load read = .ok c → s'.load read = .ok c' →
      ∀ (β : Type) (f : ConfigField β),
        s.setting? read f = s'.setting? read f → f.get c = f.get c') ∧
    (∀ (β : Type) (f : ConfigField β) (name : String),
      name.toLower = Environment.variableName f →
        Environment.path? name = some [f.sectionName, f.key]) ∧
    ∀ (file : ConfigFile) (environment : List (String × String)),
      (∀ v ∈ environment, Environment.path? v.1 = none) →
        loadWith read file .missing environment = loadFile file := by
  refine ⟨⟨fun _ _ => eq_of_fields, fun _ _ _ _ => ConfigField.heq_of_place⟩, ?_, ?_, ?_, ?_⟩
  · intro s c hplain hload β f
    exact Sources.reads_of_load hplain hload f
  · intro s s' c c' hplain hplain' hload hload' β f hsetting
    have hreads := Sources.reads_of_load hplain hload f
    have hreads' := Sources.reads_of_load hplain' hload' f
    rw [← hsetting] at hreads'
    exact hreads.unique hreads'
  · intro β f name hname
    exact Environment.path?_eq_of_toLower hname
  · intro file environment hnone
    exact loadWith_eq_loadFile read hnone

/-! ### Two files and two variables -/

namespace Sources

/-- Sources of which some set the same field, and one has a key that belongs to no field. -/
def small (rotation : String) : Sources where
  file := .holding
    [("cache", obj [("ttl_secs", .int 30)]),
      ("logging", obj [("level", .str "info"), ("format", .str "pretty")])]
  localFile := .holding
    [("logging", obj [("level", .str "debug"), ("rotation", .str rotation)]), ("comment", .null)]
  environment := [("SPSA_CACHE__TTL_SECS", "120"), ("spsa_instance__primary", "false")]

/-- The layers of these sources, one over the other. -/
def layered (rotation : String) : Document :=
  obj
    [("instance", obj [("primary", bool false)]),
      ("cache", obj [("ttl_secs", .int 120), ("max_capacity", .int 1000)]),
      ("locks", obj [("shards", .int 16)]),
      ("optimizer", standard.hyper.toDocument),
      ("logging",
        obj [("level", .str "debug"), ("format", .str "pretty"), ("rotation", .str rotation)]),
      ("comment", .null)]

/-- What is read from the layers. -/
def made (rotation : String) : Config where
  role := ⟨false⟩
  cache := ⟨120, 1000⟩
  locks := ⟨16⟩
  hyper := standard.hyper
  logging := ⟨"debug", "pretty", none, rotation⟩

lemma plain_small (rotation : String) : (small rotation).Plain where
  file := by
    rintro fields ⟨⟩
    apply sectioned_obj
    · decide
    · simp only [List.forall_mem_cons, List.not_mem_nil, false_imp_iff, implies_true, and_true]
      exact ⟨fun _ => ⟨_, rfl, by decide⟩, fun _ => ⟨_, rfl, by decide⟩⟩
  localFile := by
    rintro fields ⟨⟩
    apply sectioned_obj
    · simp [keys]
    · simp only [List.forall_mem_cons, List.not_mem_nil, false_imp_iff, implies_true, and_true]
      exact ⟨fun _ => ⟨_, rfl, by simp [keys]⟩, fun hcomment => absurd hcomment (by decide)⟩
  environment := by
    simp only [Environment.Plain, small, List.forall_mem_cons, List.not_mem_nil, false_imp_iff,
      implies_true, and_true]
    decide +kernel

lemma load_small_eq (rotation : String) :
    (small rotation).load EnvText.read? = ofLayers (layered rotation) := by
  have htop : Environment.layer EnvText.read? (small rotation).environment = .ok (obj
      [("cache", obj [("ttl_secs", .int 120)]), ("instance", obj [("primary", bool false)])]) := rfl
  rw [load, loadWith, htop]
  simp [bind, Except.bind, withFile, small, layered, Config.toDocument, standard,
    InstanceConfig.toDocument, CacheConfig.toDocument, LockConfig.toDocument,
    LoggingConfig.toDocument, present, ofNat, overlay, overlayFields, lookup, put]

lemma ofDocument?_layered (rotation : String) :
    ofDocument? true (layered rotation) = some (made rotation) := by
  have hhyper := HyperDefaults.ofDocument?_toDocument true fits_standard.hyper
  simp [layered, made, ofDocument?, record?, Fields.defaulted, Fields.optional,
    InstanceConfig.ofDocument?, CacheConfig.ofDocument?, LockConfig.ofDocument?,
    LoggingConfig.ofDocument?, toBool?, toNat?, toString?, hhyper]

lemma load_small {rotation : String} (h : (made rotation).check = .ok ()) :
    (small rotation).load EnvText.read? = .ok (made rotation) := by
  rw [load_small_eq, ofLayers, ofDocument?_layered]
  simp only [h]

end Sources

/-- The environment decides on one field, the local file on another, and the project file on a
third; a fourth is not set. Another rotation does not change the format. -/
theorem load_takes_uppermost_small :
    (Sources.small "never").load EnvText.read? = .ok (Sources.made "never") ∧
      ConfigField.ttlSecs.get (Sources.made "never") = 120 ∧
      ConfigField.level.get (Sources.made "never") = "debug" ∧
      ConfigField.format.get (Sources.made "never") = "pretty" ∧
      ConfigField.maxCapacity.get (Sources.made "never") = 1000 ∧
      ConfigField.format.get (Sources.made "hourly") =
        ConfigField.format.get (Sources.made "never") ∧
      Environment.path? "Spsa_Cache__Ttl_Secs" = some ["cache", "ttl_secs"] ∧
      Config.load (Sources.small "never").file .missing [("HOME", "spsa")] =
        loadFile (Sources.small "never").file := by
  obtain ⟨-, hvalue, hframe, hname, halone⟩ := load_takes_uppermost EnvText.read?
  have hplain := Sources.plain_small "never"
  have hload : (Sources.small "never").load EnvText.read? = .ok (Sources.made "never") :=
    Sources.load_small rfl
  have hhourly : (Sources.small "hourly").load EnvText.read? = .ok (Sources.made "hourly") :=
    Sources.load_small rfl
  have hfields {β : Type} := hvalue _ _ hplain hload β
  refine ⟨hload, ?_, ?_, ?_, ?_, ?_, ?_, ?_⟩
  · exact (Option.some.inj (hfields .ttlSecs)).symm
  · exact (Option.some.inj (hfields .level)).symm
  · exact (Option.some.inj (hfields .format)).symm
  · exact hfields .maxCapacity
  · exact hframe _ _ _ _ (Sources.plain_small "hourly") hplain hhourly hload _ .format rfl
  · exact hname _ .ttlSecs _ (by decide +kernel)
  · exact halone _ _ (by decide +kernel)

end Config

end PairedTuning
