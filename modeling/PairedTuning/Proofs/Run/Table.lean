import Mathlib
import PairedTuning.Run.Table

/-!
# Tables without repeated identifiers

As long as no identifier has two entries, a table is determined by the entries it has, and sweeping
entries out does nothing else to a look-up.
-/

namespace PairedTuning.RunTable

variable {β : Type}

/-- No identifier has two entries. -/
def Unique (t : RunTable β) : Prop := (t.entries.map (·.1)).Nodup

lemma unique_empty : (empty : RunTable β).Unique := List.nodup_nil

lemma Unique.filter {t : RunTable β} (h : t.Unique) (keep : RunId → β → Bool) :
    (t.filter keep).Unique :=
  h.sublist (List.filter_sublist.map _)

lemma Unique.erase {t : RunTable β} (h : t.Unique) (id : RunId) : (t.erase id).Unique :=
  h.filter _

private lemma mem_map_put (id k : RunId) (x : β) (entries : List (RunId × β)) :
    k ∈ (put id x entries).map (·.1) ↔ k = id ∨ k ∈ entries.map (·.1) := by
  induction entries with
  | nil => simp [put]
  | cons entry rest ih =>
    obtain ⟨k', y⟩ := entry
    by_cases hk : k' = id
    · subst hk
      simp [put]
    · simp only [put, hk, if_false, List.map_cons, List.mem_cons, ih]
      exact or_left_comm

/-- Whatever is in a table after an insertion is for the inserted identifier or for an old one. -/
lemma mem_map_insert (t : RunTable β) (id k : RunId) (x : β) :
    k ∈ (t.insert id x).entries.map (·.1) ↔ k = id ∨ k ∈ t.entries.map (·.1) :=
  mem_map_put id k x t.entries

lemma Unique.insert {t : RunTable β} (h : t.Unique) (id : RunId) (x : β) :
    (t.insert id x).Unique := by
  obtain ⟨entries⟩ := t
  simp only [Unique, RunTable.insert] at h ⊢
  induction entries with
  | nil => simp [put]
  | cons entry rest ih =>
    obtain ⟨k, y⟩ := entry
    obtain ⟨hk, hrest⟩ := List.nodup_cons.mp h
    by_cases hid : k = id
    · simpa [put, hid] using h
    · rw [put, if_neg hid, List.map_cons, List.nodup_cons, mem_map_put, not_or]
      exact ⟨⟨hid, hk⟩, ih hrest⟩

lemma Unique.get?_eq_some_iff {t : RunTable β} (h : t.Unique) {id : RunId} {x : β} :
    t.get? id = some x ↔ (id, x) ∈ t.entries := by
  obtain ⟨entries⟩ := t
  simp only [Unique, get?] at h ⊢
  induction entries with
  | nil => simp [find]
  | cons entry rest ih =>
    obtain ⟨k, y⟩ := entry
    obtain ⟨hk, hrest⟩ := List.nodup_cons.mp h
    by_cases hid : k = id
    · subst hid
      have hnot : (k, x) ∉ rest := fun hmem => hk (List.mem_map.mpr ⟨_, hmem, rfl⟩)
      simp [find, hnot, eq_comm]
    · simp [find, hid, Ne.symm hid, ih hrest]

lemma Unique.get?_filter {t : RunTable β} (h : t.Unique) (keep : RunId → β → Bool) (id : RunId) :
    (t.filter keep).get? id = (t.get? id).filter (keep id) := by
  ext x
  rw [(h.filter keep).get?_eq_some_iff, Option.filter_eq_some_iff, h.get?_eq_some_iff]
  simp [RunTable.filter]

end PairedTuning.RunTable
