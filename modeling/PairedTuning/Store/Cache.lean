import PairedTuning.Store.Basic

/-!
# Cached repositories

A cache keeps a copy of every run that was read or written through it. A write goes to the
repository first, and only then replaces the copy; a write that fails throws the copy away. Runs
that are changed behind the cache have to be invalidated.
-/

namespace PairedTuning

/-- A repository with copies of some of its runs. -/
structure Cached (σ α : Type) where
  inner : σ
  copies : RunTable (Run α)

namespace Cached

variable {σ α : Type}

def ofInner (inner : σ) : Cached σ α := ⟨inner, .empty⟩

/-- Forget the copy of a run. -/
def invalidate (s : Cached σ α) (id : RunId) : Cached σ α :=
  { s with copies := s.copies.erase id }

def invalidateAll (s : Cached σ α) : Cached σ α := { s with copies := .empty }

/-- Keep a copy of a run. -/
def keep (s : Cached σ α) (id : RunId) (r : Run α) : Cached σ α :=
  { s with copies := s.copies.insert id r }

/-- Read a run, from its copy if there is one. Of a run that is not there, no copy is kept. -/
def get (inner : Repository σ α) (s : Cached σ α) (id : RunId) :
    Except StoreError (Option (Run α)) × Cached σ α :=
  match s.copies.get? id with
  | some r => (.ok (some r), s)
  | none =>
    let (answer, rest) := inner.get s.inner id
    let s := { s with inner := rest }
    match answer with
    | .ok (some r) => (answer, s.keep id r)
    | _ => (answer, s)

/-- Write a run through to the repository. -/
def buffer (inner : Repository σ α) (s : Cached σ α) (r : Run α) :
    Except StoreError Unit × Cached σ α :=
  let (answer, rest) := inner.buffer s.inner r
  let s := { s with inner := rest }
  match answer with
  | .ok () => (answer, s.keep r.id r)
  | .error _ => (answer, s.invalidate r.id)

def repository (inner : Repository σ α) : Repository (Cached σ α) α where
  get := get inner
  buffer := buffer inner

end Cached

end PairedTuning
