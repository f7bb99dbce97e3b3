import Mathlib
import PairedTuning.Config.Load
import PairedTuning.Proofs.Config.Fields
import PairedTuning.Proofs.Except

/-!
# Layers of a configuration

A configuration is laid together as a document, and overlays act on every place of a document by
itself. What they show at the place of a field is what the uppermost layer has there, or an object,
which is the value of no field. So every layer, be it a file, a variable or the whole environment,
comes with two facts, which make up `Lays`: the document stays one whose sections are objects, and
what the layer sets a field to is uppermost at the place of that field.
-/

namespace PairedTuning

open Document

/-! ### One place of an overlay -/

namespace Document

/-- At a place that shows `shown?`, the uppermost document that has anything has `d?`. They are the
same, unless objects have been laid over each other there. -/
def Shows (shown? d? : Option Document) : Prop :=
  shown? = d? ∨ ∃ fields, shown? = some (obj fields)

variable {lower? upper? l? u? : Option Document}

lemma overlay?_none (upper? : Option Document) : overlay? none upper? = upper? := by
  cases upper? <;> rfl

lemma Shows.overlay? (hlower : Shows lower? l?) (hupper : Shows upper? u?) :
    Shows (overlay? lower? upper?) (u?.or l?) := by
  cases upper? with
  | none =>
    obtain rfl : none = u? := by simpa [Shows] using hupper
    exact hlower
  | some upper =>
    -- An object laid over anything is an object; anything else is shown as it is.
    have hcases : overlay? lower? (some upper) = some upper ∨
        ∃ fields, overlay? lower? (some upper) = some (obj fields) := by
      cases lower? with
      | none => exact .inl rfl
      | some lower => simpa [Document.overlay?] using overlay_eq_or_exists_obj lower upper
    rcases hcases with hsame | hobj
    · rw [hsame]
      rcases hupper with rfl | hobj
      · exact .inl rfl
      · exact .inr hobj
    · exact .inr hobj

lemma Sectioned.overlay {lower upper : Document} (hlower : lower.Sectioned)
    (hupper : upper.Sectioned) : (lower.overlay upper).Sectioned := by
  refine ⟨hlower.isObject.overlay hupper.isObject, ?_⟩
  intro name hname inner hinner
  rw [field?_overlay hlower.isObject hupper.isObject] at hinner
  cases hu : upper.field? name with
  | none =>
    rw [hu] at hinner
    exact hlower.sections name hname inner hinner
  | some u =>
    have hobject := hupper.sections name hname u hu
    cases hl : lower.field? name with
    | none =>
      rw [hu, hl] at hinner
      cases hinner
      exact hobject
    | some l =>
      rw [hu, hl] at hinner
      cases hinner
      exact (hlower.sections name hname l hl).overlay hobject

lemma setting?_overlay {lower upper : Document} (hlower : lower.Sectioned)
    (hupper : upper.Sectioned) {β : Type} (f : ConfigField β) :
    (lower.overlay upper).setting? f = overlay? (lower.setting? f) (upper.setting? f) := by
  rw [setting?, setting?, setting?, field?_overlay hlower.isObject hupper.isObject]
  cases hu : upper.field? f.sectionName with
  | none => rfl
  | some u =>
    cases hl : lower.field? f.sectionName with
    | none => exact (overlay?_none _).symm
    | some l =>
      have hl := hlower.sections _ f.sectionName_mem l hl
      have hu := hupper.sections _ f.sectionName_mem u hu
      exact field?_overlay hl hu f.key

/-- `d'` is `d` with a layer over it that sets every field to what `setting` says. -/
structure Lays (setting : ∀ β : Type, ConfigField β → Option Document) (d d' : Document) :
    Prop where
  sectioned : d'.Sectioned
  shows : ∀ (β : Type) (f : ConfigField β) (s? : Option Document),
    Shows (d.setting? f) s? → Shows (d'.setting? f) ((setting β f).or s?)

namespace Lays

variable {setting : ∀ β : Type, ConfigField β → Option Document} {d upper : Document}

/-- A layer that sets nothing leaves everything as it is. -/
lemma refl (hd : d.Sectioned) (hsetting : ∀ (β : Type) (f : ConfigField β), setting β f = none) :
    Lays setting d d := by
  refine ⟨hd, ?_⟩
  intro β f s? hs
  rw [hsetting, Option.none_or]
  exact hs

lemma overlay (hd : d.Sectioned) (hupper : upper.Sectioned)
    (hshows : ∀ (β : Type) (f : ConfigField β), Shows (upper.setting? f) (setting β f)) :
    Lays setting d (d.overlay upper) := by
  refine ⟨hd.overlay hupper, ?_⟩
  intro β f s? hs
  rw [setting?_overlay hd hupper]
  exact hs.overlay? (hshows β f)

end Lays

end Document

/-! ### Environment -/

namespace Environment

variable {β : Type} {read : String → Option Document}

/-- No variable stands for a whole section. -/
def Plain (environment : List (String × String)) : Prop :=
  ∀ v ∈ environment, ∀ name ∈ Config.sections, path? v.1 ≠ some [name]

/-- What a variable sets a field to. -/
def value? (read : String → Option Document) (f : ConfigField β) (v : String × String) :
    Option Document :=
  if path? v.1 = some [f.sectionName, f.key] then read v.2 else none

/-- What an environment sets a field to. Where several variables stand for it, the last one
counts. -/
def setting? (read : String → Option Document) (environment : List (String × String))
    (f : ConfigField β) : Option Document :=
  environment.reverse.findSome? (value? read f)

lemma setting?_cons (v : String × String) (environment : List (String × String))
    (f : ConfigField β) :
    setting? read (v :: environment) f = (setting? read environment f).or (value? read f v) := by
  rw [setting?, List.reverse_cons, List.findSome?_append]
  simp [setting?]

/-- Lay one variable over a layer. -/
def lay (read : String → Option Document) (d : Document) (v : String × String) :
    Except LoadError Document :=
  match path? v.1 with
  | none => pure d
  | some path =>
    match read v.2 with
    | some value => pure (d.overlay (nest path value))
    | none => throw .splitCharacter

lemma layer_eq (environment : List (String × String)) :
    layer read environment = environment.foldlM (lay read) (.obj []) := rfl

lemma levels_ne_nil (cs : List Char) : levels cs ≠ [] := by
  induction cs using levels.induct <;> simp_all [levels]

lemma path?_ne_nil (name : String) : path? name ≠ some [] := by
  intro h
  simp only [path?] at h
  split_ifs at h
  rw [Option.some.injEq, List.map_eq_nil_iff] at h
  exact levels_ne_nil _ h

/-- The document of a variable that does not stand for a section. -/
lemma sectioned_nest {path : List String} (value : Document) (hnil : path ≠ [])
    (hplain : ∀ name ∈ Config.sections, path ≠ [name]) : (nest path value).Sectioned := by
  match path with
  | [] => exact absurd rfl hnil
  | [first] =>
    refine ⟨isObject_singleton _ _, ?_⟩
    intro name hname inner hinner
    have hne : first ≠ name := fun h => hplain name hname (by rw [h])
    rw [nest, List.foldr_cons, field?, lookup_cons_ne hne] at hinner
    cases hinner
  | first :: second :: rest =>
    refine ⟨isObject_singleton _ _, ?_⟩
    intro name hname inner hinner
    by_cases hfirst : first = name
    · subst hfirst
      rw [nest, List.foldr_cons, field?, lookup_cons_self] at hinner
      cases hinner
      exact isObject_singleton _ _
    · rw [nest, List.foldr_cons, field?, lookup_cons_ne hfirst] at hinner
      cases hinner

lemma setting?_nest (first second : String) (rest : List String) (value : Document)
    (f : ConfigField β) :
    (nest (first :: second :: rest) value).setting? f =
      if first = f.sectionName ∧ second = f.key then some (nest rest value) else none := by
  simp only [nest, List.foldr_cons, Document.setting?, field?]
  by_cases hfirst : first = f.sectionName
  · by_cases hsecond : second = f.key
    · simp [hfirst, hsecond, field?]
    · simp [hfirst, hsecond, field?]
  · simp [hfirst]

/-- At the place of a field stands the value, if the path leads there. A path that leads on leaves
an object there. -/
lemma shows_nest {path : List String} (value : Document) (hnil : path ≠ [])
    (hplain : ∀ name ∈ Config.sections, path ≠ [name]) (f : ConfigField β) :
    Shows ((nest path value).setting? f)
      (if path = [f.sectionName, f.key] then some value else none) := by
  match path with
  | [] => exact absurd rfl hnil
  | [first] =>
    have hne : first ≠ f.sectionName := fun h => hplain _ f.sectionName_mem (by rw [h])
    left
    simp [nest, Document.setting?, field?, hne]
  | first :: second :: rest =>
    rw [setting?_nest]
    by_cases hplace : first = f.sectionName ∧ second = f.key
    · rw [if_pos hplace]
      cases rest with
      | nil =>
        left
        rw [if_pos (by rw [hplace.1, hplace.2])]
        rfl
      | cons third rest => exact .inr ⟨_, rfl⟩
    · left
      rw [if_neg hplace, if_neg]
      intro h
      injection h with hfirst h
      injection h with hsecond h
      exact hplace ⟨hfirst, hsecond⟩

/-- A variable is uppermost at the place it stands for, and nowhere else. -/
lemma lays_lay {d d' : Document} {v : String × String} (h : lay read d v = .ok d')
    (hd : d.Sectioned) (hplain : ∀ name ∈ Config.sections, path? v.1 ≠ some [name]) :
    Lays (fun _ f => value? read f v) d d' := by
  cases hpath : path? v.1 with
  | none =>
    simp only [lay, hpath, pure_eq_ok_iff] at h
    subst h
    apply Lays.refl hd
    intro β f
    rw [value?, hpath, if_neg nofun]
  | some path =>
    simp only [lay, hpath] at h
    cases hvalue : read v.2 with
    | none =>
      rw [hvalue] at h
      cases h
    | some value =>
      simp only [hvalue, pure_eq_ok_iff] at h
      subst h
      have hnil : path ≠ [] := fun hnil => path?_ne_nil v.1 (by rw [hpath, hnil])
      have hsection : ∀ name ∈ Config.sections, path ≠ [name] := fun name hname heq =>
        hplain name hname (by rw [hpath, heq])
      apply Lays.overlay hd (sectioned_nest value hnil hsection)
      intro β f
      simp only [value?, hpath, hvalue, Option.some.injEq]
      exact shows_nest value hnil hsection f

/-- Variables are laid one over the other, so the last one that stands for a field is uppermost. -/
lemma lays_foldlM {environment : List (String × String)} {d d' : Document}
    (h : environment.foldlM (lay read) d = .ok d') (hd : d.Sectioned)
    (hplain : Plain environment) : Lays (fun _ f => setting? read environment f) d d' := by
  induction environment generalizing d with
  | nil =>
    obtain rfl := pure_eq_ok_iff.mp h
    exact Lays.refl hd fun _ _ => rfl
  | cons v environment ih =>
    rw [List.foldlM_cons, bind_eq_ok_iff] at h
    obtain ⟨next, hnext, h⟩ := h
    obtain ⟨hv, hplain⟩ := List.forall_mem_cons.mp hplain
    have hfirst := lays_lay hnext hd hv
    have hrest := ih h hfirst.sectioned hplain
    refine ⟨hrest.sectioned, ?_⟩
    intro β f s? hs
    rw [setting?_cons, Option.or_assoc]
    exact hrest.shows β f _ (hfirst.shows β f s? hs)

/-- The environment makes up a layer that sets every field to what the environment sets it to. -/
lemma lays_layer {environment : List (String × String)} {top d : Document}
    (h : layer read environment = .ok top) (hplain : Plain environment) (hd : d.Sectioned) :
    Lays (fun _ f => setting? read environment f) d (d.overlay top) := by
  rw [layer_eq] at h
  have hempty : (obj []).Sectioned := ⟨⟨[], rfl, List.nodup_nil⟩, fun _ _ _ => nofun⟩
  have htop := lays_foldlM h hempty hplain
  apply Lays.overlay hd htop.sectioned
  intro β f
  simpa using htop.shows β f none (.inl rfl)

/-! #### Names of variables -/

lemma trim_eq_self {cs : List Char} (h : ∀ c ∈ cs, Text.isBlank c = false) : Text.trim cs = cs := by
  have hdrop {l : List Char} (hl : ∀ c ∈ l, Text.isBlank c = false) :
      l.dropWhile Text.isBlank = l := by
    cases l with
    | nil => rfl
    | cons c l => simp [hl c List.mem_cons_self]
  have hreverse : ∀ c ∈ cs.reverse, Text.isBlank c = false := by simpa using h
  rw [Text.trim, hdrop h, hdrop hreverse, List.reverse_reverse]

/-- A capital letter is no blank. -/
lemma isBlank_of_toLower {c : Char} (h : Text.isBlank c.toLower = false) :
    Text.isBlank c = false := by
  rw [Char.toLower] at h
  split_ifs at h with hupper
  · have hleast : 65 ≤ c.toNat := hupper.1
    have hgreatest : c.toNat ≤ 90 := hupper.2
    simp only [Text.isBlank, Bool.or_eq_false_iff, Bool.and_eq_false_iff,
      decide_eq_false_iff_not, beq_eq_false_iff_ne]
    omega
  · exact h

/-- The name of the variable for a field, in lower case. -/
def variableName (f : ConfigField β) : String := "spsa_" ++ f.sectionName ++ "__" ++ f.key

lemma toList_variableName (f : ConfigField β) :
    (variableName f).toList =
      "spsa_".toList ++ f.sectionName.toList ++ "__".toList ++ f.key.toList := by
  simp only [variableName, String.toList_append]

/-- A variable name has no blanks, starts with the mark, and goes on with the two levels of its
field. -/
lemma variableName_parts (f : ConfigField β) :
    (variableName f).toList.any Text.isBlank = false ∧
      variableMark.isPrefixOf (variableName f).toList ∧
      levels (Text.trim ((variableName f).toList.drop variableMark.length)) =
        [f.sectionName.toList, f.key.toList] ∧
      [f.sectionName.toList, f.key.toList].contains [] = false := by
  rw [toList_variableName]
  cases f with
  | hyper p => cases p <;> decide
  | _ => decide

/-- A variable stands for a field if its name, case apart, is the name of the variable for it. -/
lemma path?_eq_of_toLower {f : ConfigField β} {name : String}
    (h : name.toLower = variableName f) : path? name = some [f.sectionName, f.key] := by
  obtain ⟨hblank, hmark, hlevels, hcontains⟩ := variableName_parts f
  have hlower : name.toList.map Char.toLower = (variableName f).toList := by
    rw [← h, String.toLower, String.toList_map]
  have htrim : Text.trim name.toList = name.toList := by
    apply trim_eq_self
    intro c hc
    apply isBlank_of_toLower
    have hmem := List.mem_map_of_mem (f := Char.toLower) hc
    rw [hlower] at hmem
    simpa using List.any_eq_false.mp hblank _ hmem
  simp only [path?, htrim, hlower, hlevels, hcontains, if_pos hmark]
  simp

end Environment

/-! ### Files -/

namespace ConfigFile

variable {β : Type}

/-- The sections of the file, if there is one, are objects. -/
def Plain (file : ConfigFile) : Prop := ∀ fields, file = holding fields → (obj fields).Sectioned

/-- What a file sets a field to. -/
def setting? (file : ConfigFile) (f : ConfigField β) : Option Document :=
  match file with
  | holding fields => (obj fields).setting? f
  | _ => none

/-- A file is uppermost at the places that it sets. -/
lemma lays_withFile {file : ConfigFile} {layer d : Document}
    (h : Config.withFile layer file = .ok d) (hlayer : layer.Sectioned) (hplain : file.Plain) :
    Lays (fun _ f => file.setting? f) layer d := by
  cases file with
  | missing =>
    cases h
    exact Lays.refl hlayer fun _ _ => rfl
  | unreadable => cases h
  | holding fields =>
    cases h
    exact Lays.overlay hlayer (hplain fields rfl) fun _ _ => .inl rfl

end ConfigFile

end PairedTuning
