import Mathlib
import PairedTuning.Document.Overlay
import PairedTuning.Proofs.Document.Reading

/-!
# Laws of overlays

What stands under a key once one object is laid over another: what the upper one has there, laid
over what the lower one has. Below objects nothing is kept of what is covered, so at a given place
an overlay shows the upper document there, unless that is an object itself.
-/

namespace PairedTuning

namespace Document

/-! ### Fields of an object -/

lemma lookup_put (key k : String) (d : Document) (fields : Fields) :
    lookup key (put k d fields) = if k = key then some d else lookup key fields := by
  induction fields with
  | nil => simp [put, lookup]
  | cons f fields ih =>
    obtain ⟨k', old⟩ := f
    rw [put]
    by_cases hk : k' = k
    · subst hk
      simp only [if_true, lookup]
      split_ifs <;> rfl
    · simp only [hk, if_false, lookup, ih]
      by_cases hkey : k' = key
      · subst hkey
        simp [Ne.symm hk]
      · simp [hkey]

/-- The keys of fields, in order. -/
def keys (fields : Fields) : List String := fields.map (·.1)

lemma lookup_eq_none_iff {key : String} {fields : Fields} :
    lookup key fields = none ↔ key ∉ keys fields := by
  induction fields with
  | nil => simp [keys]
  | cons f fields ih =>
    obtain ⟨k, d⟩ := f
    by_cases hk : k = key
    · simp [keys, hk]
    · rw [lookup_cons_ne hk, ih]
      simp [keys, Ne.symm hk]

lemma mem_keys_put {key k : String} {d : Document} {fields : Fields} :
    key ∈ keys (put k d fields) ↔ k = key ∨ key ∈ keys fields := by
  have hput : key ∉ keys (put k d fields) ↔ ¬ (k = key ∨ key ∈ keys fields) := by
    rw [← lookup_eq_none_iff, lookup_put, not_or, ← lookup_eq_none_iff]
    split_ifs with hk <;> simp [hk]
  exact not_iff_not.mp hput

lemma nodup_keys_put {fields : Fields} (h : (keys fields).Nodup) (key : String) (d : Document) :
    (keys (put key d fields)).Nodup := by
  induction fields with
  | nil => simp [put, keys]
  | cons f fields ih =>
    obtain ⟨k, old⟩ := f
    obtain ⟨hk, hfields⟩ := List.nodup_cons.mp h
    rw [put]
    split_ifs with hkey
    · exact h
    · refine List.nodup_cons.mpr ⟨?_, ih hfields⟩
      intro hmem
      rcases mem_keys_put.mp hmem with hkeq | hmem
      · exact hkey hkeq.symm
      · exact hk hmem

/-- A document is an object in which no key occurs twice. -/
def IsObject (d : Document) : Prop := ∃ fields, d = obj fields ∧ (keys fields).Nodup

lemma isObject_singleton (key : String) (d : Document) : IsObject (obj [(key, d)]) :=
  ⟨_, rfl, List.nodup_singleton key⟩

/-! ### Overlays -/

/-- What a place shows that has `lower?`, once `upper?` is laid over it. -/
def overlay? (lower? : Option Document) : Option Document → Option Document
  | none => lower?
  | some upper => some (match lower? with | none => upper | some lower => overlay lower upper)

lemma lookup_overlayFields {lower upper : Fields} (h : (keys upper).Nodup) (key : String) :
    lookup key (overlayFields lower upper) = overlay? (lookup key lower) (lookup key upper) := by
  induction upper generalizing lower with
  | nil => simp [overlayFields, overlay?]
  | cons f upper ih =>
    obtain ⟨k, d⟩ := f
    obtain ⟨hk, hupper⟩ := List.nodup_cons.mp h
    rw [overlayFields, ih hupper, lookup_put]
    by_cases hkey : k = key
    · subst hkey
      rw [lookup_eq_none_iff.mpr hk, lookup_cons_self]
      simp only [if_true, overlay?]
      cases lookup k lower <;> rfl
    · rw [if_neg hkey, lookup_cons_ne hkey]

lemma nodup_keys_overlayFields {lower : Fields} (h : (keys lower).Nodup) (upper : Fields) :
    (keys (overlayFields lower upper)).Nodup := by
  induction upper generalizing lower with
  | nil =>
    rw [overlayFields]
    exact h
  | cons f upper ih =>
    obtain ⟨k, d⟩ := f
    rw [overlayFields]
    exact ih (nodup_keys_put h _ _)

/-- An overlay of objects has at each key the overlay of what they have there. -/
lemma field?_overlay {lower upper : Document} (hlower : lower.IsObject) (hupper : upper.IsObject)
    (key : String) :
    (lower.overlay upper).field? key = overlay? (lower.field? key) (upper.field? key) := by
  obtain ⟨lowerFields, rfl, -⟩ := hlower
  obtain ⟨upperFields, rfl, hnodup⟩ := hupper
  rw [overlay]
  exact lookup_overlayFields hnodup key

lemma IsObject.overlay {lower upper : Document} (hlower : lower.IsObject)
    (hupper : upper.IsObject) : (lower.overlay upper).IsObject := by
  obtain ⟨lowerFields, rfl, hnodup⟩ := hlower
  obtain ⟨upperFields, rfl, -⟩ := hupper
  rw [Document.overlay]
  exact ⟨_, rfl, nodup_keys_overlayFields hnodup upperFields⟩

/-- What is not an object replaces whatever it is laid over. -/
lemma overlay_eq_or_exists_obj (lower upper : Document) :
    lower.overlay upper = upper ∨ ∃ fields, lower.overlay upper = obj fields := by
  cases upper with
  | obj upper =>
    right
    rw [overlay.eq_def]
    cases lower <;> exact ⟨_, rfl⟩
  | _ =>
    left
    rw [overlay.eq_def]

/-- An object without fields changes nothing. -/
lemma overlay_obj_nil (fields : Fields) : (obj fields).overlay (obj []) = obj fields := by
  rw [overlay, overlayFields]

end Document

end PairedTuning
