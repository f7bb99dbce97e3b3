import Mathlib
import PairedTuning.Proofs.Coordinator.Effect
import PairedTuning.Store.Cache

/-!
# Repositories that keep their runs apart

The view of a run is the part of a repository that belongs to it. A repository is separated if it
answers for a run from its view alone, and leaves the views of all other runs as they are. The plain
store is separated by its entries; a cache adds to each view the copy of the run.
-/

namespace PairedTuning

variable {σ α V : Type}

/-- The valid states of a repository keep their runs apart. -/
structure Repository.Separated (repo : Repository σ α) (Valid : σ → Prop) (view : RunId → σ → V) :
    Prop where
  get_valid {s : σ} (hs : Valid s) (id : RunId) : Valid (repo.get s id).2
  /-- A run is found under its own identifier only. -/
  get_filed {s : σ} (hs : Valid s) {id : RunId} {r : Run α}
    (hget : (repo.get s id).1 = .ok (some r)) : r.id = id
  get_own {s s' : σ} {id : RunId} (hview : view id s = view id s') :
    (repo.get s id).1 = (repo.get s' id).1 ∧ view id (repo.get s id).2 = view id (repo.get s' id).2
  get_other (s : σ) {id other : RunId} (hne : other ≠ id) :
    view other (repo.get s id).2 = view other s
  buffer_valid {s : σ} (hs : Valid s) (r : Run α) : Valid (repo.buffer s r).2
  buffer_own {s s' : σ} {r : Run α} (hview : view r.id s = view r.id s') :
    (repo.buffer s r).1 = (repo.buffer s' r).1 ∧
      view r.id (repo.buffer s r).2 = view r.id (repo.buffer s' r).2
  buffer_other (s : σ) {r : Run α} {other : RunId} (hne : other ≠ r.id) :
    view other (repo.buffer s r).2 = view other s

/-! ### Plain stores -/

namespace Store

/-- What belongs to a run is the run as it is stored. -/
def view (id : RunId) (s : Store α) : Option (Run α) := s.runs.get? id

lemma separated : (repository : Repository (Store α) α).Separated Filed view := by
  constructor
  case get_valid =>
    intro s hs id
    exact hs
  case get_filed =>
    intro s hs id r hget
    exact hs id r (Except.ok.inj hget)
  case get_own =>
    intro s s' id hview
    exact ⟨congrArg Except.ok hview, hview⟩
  case get_other =>
    intros
    rfl
  case buffer_valid =>
    intro s hs r
    show (s.buffer r).2.Filed
    rcases hget : s.runs.get? r.id with _ | r₀
    · rw [buffer_of_missing hget]
      exact hs
    · rw [buffer_eq hget]
      exact hs.write r
  case buffer_own =>
    intro s s' r hview
    show (s.buffer r).1 = (s'.buffer r).1 ∧ view r.id (s.buffer r).2 = view r.id (s'.buffer r).2
    rcases hget : s.runs.get? r.id with _ | r₀
    · rw [buffer_of_missing hget, buffer_of_missing (hview.symm.trans hget)]
      exact ⟨rfl, hview⟩
    · rw [buffer_eq hget, buffer_eq (hview.symm.trans hget)]
      refine ⟨rfl, ?_⟩
      rw [view, view, get?_write_self, get?_write_self]
  case buffer_other =>
    intro s r other hne
    show view other (s.buffer r).2 = view other s
    rcases hget : s.runs.get? r.id with _ | r₀
    · rw [buffer_of_missing hget]
    · rw [buffer_eq hget]
      exact s.get?_write_ne hne

end Store

/-! ### Caches -/

namespace Cached

/-- Every copy is filed under the identifier of its run. -/
def CopiesFiled (s : Cached σ α) : Prop := ∀ id r, s.copies.get? id = some r → r.id = id

/-- What belongs to a run behind a cache, and its copy. -/
def view (inner : RunId → σ → V) (id : RunId) (s : Cached σ α) : V × Option (Run α) :=
  (inner id s.inner, s.copies.get? id)

lemma copiesFiled_keep {s : Cached σ α} (hs : s.CopiesFiled) (r : Run α) :
    (s.keep r.id r).CopiesFiled := by
  intro id r' hcopy
  rw [keep, RunTable.get?_insert] at hcopy
  split_ifs at hcopy with hid
  · cases hcopy
    exact hid.symm
  · exact hs id r' hcopy

lemma copiesFiled_invalidate {s : Cached σ α} (hs : s.CopiesFiled) (lost : RunId) :
    (s.invalidate lost).CopiesFiled := by
  intro id r hcopy
  rw [invalidate, RunTable.get?_erase] at hcopy
  split_ifs at hcopy
  exact hs id r hcopy

section View

variable {inner : RunId → σ → V} {id other : RunId} {r : Run α} {s : Cached σ α}

lemma view_keep_self : view inner id (s.keep id r) = (inner id s.inner, some r) := by
  simp [view, keep]

lemma view_keep_ne (hne : other ≠ id) : view inner other (s.keep id r) = view inner other s := by
  simp [view, keep, hne]

lemma view_invalidate_self : view inner id (s.invalidate id) = (inner id s.inner, none) := by
  simp [view, invalidate]

lemma view_invalidate_ne (hne : other ≠ id) :
    view inner other (s.invalidate id) = view inner other s := by
  simp [view, invalidate, hne]

end View

/-! #### Reading and writing -/

variable {repo : Repository σ α} {s : Cached σ α} {id : RunId} {r : Run α}

/-- A read that finds a copy changes nothing. -/
lemma get_of_hit (hcopy : s.copies.get? id = some r) : s.get repo id = (.ok (some r), s) := by
  simp only [get, hcopy]

lemma get_of_found (hcopy : s.copies.get? id = none)
    (hget : (repo.get s.inner id).1 = .ok (some r)) :
    s.get repo id = (.ok (some r), { s with inner := (repo.get s.inner id).2 }.keep id r) := by
  simp only [get, hcopy, hget]

lemma get_of_not_found (hcopy : s.copies.get? id = none)
    (hget : ∀ r, (repo.get s.inner id).1 ≠ .ok (some r)) :
    s.get repo id = ((repo.get s.inner id).1, { s with inner := (repo.get s.inner id).2 }) := by
  simp only [get, hcopy]

/-- A read finds a copy, or a run behind the cache, or nothing. -/
lemma get_cases (repo : Repository σ α) (s : Cached σ α) (id : RunId) :
    (∃ r, s.copies.get? id = some r) ∨
      s.copies.get? id = none ∧ ((∃ r, (repo.get s.inner id).1 = .ok (some r)) ∨
        ∀ r, (repo.get s.inner id).1 ≠ .ok (some r)) := by
  rcases hcopy : s.copies.get? id with _ | r
  · by_cases hfound : ∃ r, (repo.get s.inner id).1 = .ok (some r)
    · exact .inr ⟨rfl, .inl hfound⟩
    · exact .inr ⟨rfl, .inr (not_exists.mp hfound)⟩
  · exact .inl ⟨r, rfl⟩

lemma buffer_of_ok (hbuffer : (repo.buffer s.inner r).1 = .ok ()) :
    s.buffer repo r = (.ok (), { s with inner := (repo.buffer s.inner r).2 }.keep r.id r) := by
  simp only [buffer, hbuffer]

lemma buffer_of_error {e : StoreError} (hbuffer : (repo.buffer s.inner r).1 = .error e) :
    s.buffer repo r =
      (.error e, { s with inner := (repo.buffer s.inner r).2 }.invalidate r.id) := by
  simp only [buffer, hbuffer]

/-! #### Separation -/

section Separation

variable {Valid : σ → Prop} {inner : RunId → σ → V} (h : repo.Separated Valid inner)

include h

lemma get_valid (hs : Valid s.inner) (hcopies : s.CopiesFiled) (id : RunId) :
    Valid (s.get repo id).2.inner ∧ (s.get repo id).2.CopiesFiled := by
  obtain ⟨r, hcopy⟩ | ⟨hcopy, ⟨r, hget⟩ | hmissing⟩ := get_cases repo s id
  · rw [get_of_hit hcopy]
    exact ⟨hs, hcopies⟩
  · obtain rfl := h.get_filed hs hget
    rw [get_of_found hcopy hget]
    exact ⟨h.get_valid hs r.id, copiesFiled_keep hcopies r⟩
  · rw [get_of_not_found hcopy hmissing]
    exact ⟨h.get_valid hs id, hcopies⟩

lemma get_filed (hs : Valid s.inner) (hcopies : s.CopiesFiled)
    (hget : (s.get repo id).1 = .ok (some r)) : r.id = id := by
  obtain ⟨r', hcopy⟩ | ⟨hcopy, ⟨r', hfound⟩ | hmissing⟩ := get_cases repo s id
  · rw [get_of_hit hcopy] at hget
    cases hget
    exact hcopies id r hcopy
  · rw [get_of_found hcopy hfound] at hget
    cases hget
    exact h.get_filed hs hfound
  · rw [get_of_not_found hcopy hmissing] at hget
    exact absurd hget (hmissing r)

lemma get_own {s' : Cached σ α} (hview : view inner id s = view inner id s') :
    (s.get repo id).1 = (s'.get repo id).1 ∧
      view inner id (s.get repo id).2 = view inner id (s'.get repo id).2 := by
  obtain ⟨hinner, hcopies⟩ := Prod.mk.inj hview
  obtain ⟨hanswer, hafter⟩ := h.get_own hinner
  obtain ⟨r, hcopy⟩ | ⟨hcopy, ⟨r, hget⟩ | hmissing⟩ := get_cases repo s id
  · rw [get_of_hit hcopy, get_of_hit (hcopies ▸ hcopy)]
    exact ⟨rfl, hview⟩
  · rw [get_of_found hcopy hget, get_of_found (hcopies ▸ hcopy) (hanswer ▸ hget), view_keep_self,
      view_keep_self]
    exact ⟨rfl, congrArg (·, some r) hafter⟩
  · rw [get_of_not_found hcopy hmissing,
      get_of_not_found (hcopies ▸ hcopy) (hanswer ▸ hmissing)]
    exact ⟨hanswer, congrArg₂ Prod.mk hafter hcopies⟩

lemma get_other (s : Cached σ α) {other : RunId} (hne : other ≠ id) :
    view inner other (s.get repo id).2 = view inner other s := by
  have hother : view inner other { s with inner := (repo.get s.inner id).2 } =
      view inner other s := congrArg (·, s.copies.get? other) (h.get_other s.inner hne)
  obtain ⟨r, hcopy⟩ | ⟨hcopy, ⟨r, hget⟩ | hmissing⟩ := get_cases repo s id
  · rw [get_of_hit hcopy]
  · rw [get_of_found hcopy hget, view_keep_ne hne, hother]
  · rw [get_of_not_found hcopy hmissing, hother]

lemma buffer_valid (hs : Valid s.inner) (hcopies : s.CopiesFiled) (r : Run α) :
    Valid (s.buffer repo r).2.inner ∧ (s.buffer repo r).2.CopiesFiled := by
  rcases hbuffer : (repo.buffer s.inner r).1 with e | _
  · rw [buffer_of_error hbuffer]
    exact ⟨h.buffer_valid hs r, copiesFiled_invalidate hcopies r.id⟩
  · rw [buffer_of_ok hbuffer]
    exact ⟨h.buffer_valid hs r, copiesFiled_keep hcopies r⟩

lemma buffer_own {s' : Cached σ α} (hview : view inner r.id s = view inner r.id s') :
    (s.buffer repo r).1 = (s'.buffer repo r).1 ∧
      view inner r.id (s.buffer repo r).2 = view inner r.id (s'.buffer repo r).2 := by
  obtain ⟨hinner, -⟩ := Prod.mk.inj hview
  obtain ⟨hanswer, hafter⟩ := h.buffer_own hinner
  rcases hbuffer : (repo.buffer s.inner r).1 with e | _
  · rw [buffer_of_error hbuffer, buffer_of_error (hanswer ▸ hbuffer), view_invalidate_self,
      view_invalidate_self]
    exact ⟨rfl, congrArg (·, none) hafter⟩
  · rw [buffer_of_ok hbuffer, buffer_of_ok (hanswer ▸ hbuffer), view_keep_self, view_keep_self]
    exact ⟨rfl, congrArg (·, some r) hafter⟩

lemma buffer_other (s : Cached σ α) {other : RunId} (hne : other ≠ r.id) :
    view inner other (s.buffer repo r).2 = view inner other s := by
  have hother : view inner other { s with inner := (repo.buffer s.inner r).2 } =
      view inner other s := congrArg (·, s.copies.get? other) (h.buffer_other s.inner hne)
  rcases hbuffer : (repo.buffer s.inner r).1 with e | _
  · rw [buffer_of_error hbuffer, view_invalidate_ne hne, hother]
  · rw [buffer_of_ok hbuffer, view_keep_ne hne, hother]

/-- A cache in front of a repository that keeps its runs apart does so, too. -/
lemma separated :
    (repository repo).Separated (fun s => Valid s.inner ∧ s.CopiesFiled) (view inner) where
  get_valid hs id := get_valid h hs.1 hs.2 id
  get_filed hs _ _ hget := get_filed h hs.1 hs.2 hget
  get_own hview := get_own h hview
  get_other s _ _ hne := get_other h s hne
  buffer_valid hs r := buffer_valid h hs.1 hs.2 r
  buffer_own hview := buffer_own h hview
  buffer_other s _ _ hne := buffer_other h s hne

end Separation

end Cached

end PairedTuning
