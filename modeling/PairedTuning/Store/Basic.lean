import PairedTuning.Run
import PairedTuning.Run.Table

/-!
# Stores

A repository is where the coordinator reads runs from and writes them back to. The plain one is a
table in memory that replaces a run at once; it refuses to write a run that it does not have, so a
removed run does not come back.
-/

namespace PairedTuning

/-- Why a repository cannot answer. -/
inductive StoreError where
  | runNotFound (id : RunId)
  deriving DecidableEq, Repr

def StoreError.message : StoreError → String
  | runNotFound id => "Run not found: " ++ id.text

/-- Reading and writing runs, over a state `σ`. -/
structure Repository (σ α : Type) where
  get : σ → RunId → Except StoreError (Option (Run α)) × σ
  /-- Write a run back in the place of the stored one. -/
  buffer : σ → Run α → Except StoreError Unit × σ

/-- Runs in memory. -/
structure Store (α : Type) where
  runs : RunTable (Run α)
  /-- The number of runs written back so far. -/
  buffered : Nat

namespace Store

variable {α : Type}

def empty : Store α := ⟨.empty, 0⟩

def insert (s : Store α) (r : Run α) : Store α := { s with runs := s.runs.insert r.id r }

def remove (s : Store α) (id : RunId) : Store α := { s with runs := s.runs.erase id }

def modify (s : Store α) (id : RunId) (f : Run α → Run α) : Store α :=
  { s with runs := s.runs.modify id f }

/-- Write back a run that the store has. -/
def buffer (s : Store α) (r : Run α) : Except StoreError Unit × Store α :=
  match s.runs.get? r.id with
  | none => (.error (.runNotFound r.id), s)
  | some _ => (.ok (), { runs := s.runs.insert r.id r, buffered := s.buffered + 1 })

/-- The store as a repository. -/
def repository : Repository (Store α) α where
  get s id := (.ok (s.runs.get? id), s)
  buffer := buffer

end Store

/-- A repository that may be out of order, for reading, for writing or for both. -/
structure Outage (σ : Type) where
  inner : σ
  reads : Bool
  writes : Bool

namespace Outage

variable {σ α : Type}

/-- The repository behind an outage: what is out of order fails, the rest works. -/
def repository (inner : Repository σ α) : Repository (Outage σ) α where
  get s id :=
    if s.reads then (.error (.runNotFound id), s)
    else
      let (answer, rest) := inner.get s.inner id
      (answer, { s with inner := rest })
  buffer s r :=
    if s.writes then (.error (.runNotFound r.id), s)
    else
      let (answer, rest) := inner.buffer s.inner r
      (answer, { s with inner := rest })

end Outage

end PairedTuning
