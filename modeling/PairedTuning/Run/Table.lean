import PairedTuning.Run.Id

/-!
# Tables by run

A finite map from run identifiers, kept as a list of entries. `insert` puts a new value in the place
of the old one, so no identifier gets a second entry.
-/

namespace PairedTuning

/-- A finite map from run identifiers. -/
structure RunTable (β : Type) where
  entries : List (RunId × β)

namespace RunTable

variable {β : Type}

def empty : RunTable β := ⟨[]⟩

/-- The value of the first entry for an identifier in a list of entries. -/
def find (id : RunId) : List (RunId × β) → Option β
  | [] => none
  | (k, x) :: rest => if k = id then some x else find id rest

/-- A list of entries with the value for an identifier replaced, or added at the end. -/
def put (id : RunId) (x : β) : List (RunId × β) → List (RunId × β)
  | [] => [(id, x)]
  | (k, y) :: rest => if k = id then (k, x) :: rest else (k, y) :: put id x rest

def get? (t : RunTable β) (id : RunId) : Option β := find id t.entries

def insert (t : RunTable β) (id : RunId) (x : β) : RunTable β := ⟨put id x t.entries⟩

/-- Keep the entries that satisfy a test. -/
def filter (t : RunTable β) (keep : RunId → β → Bool) : RunTable β :=
  ⟨t.entries.filter fun (k, x) => keep k x⟩

/-- Take the entries for an identifier away. -/
def erase (t : RunTable β) (id : RunId) : RunTable β := t.filter fun k _ => k ≠ id

/-- Change the value for an identifier, if there is one. -/
def modify (t : RunTable β) (id : RunId) (f : β → β) : RunTable β :=
  match t.get? id with
  | some x => t.insert id (f x)
  | none => t

def size (t : RunTable β) : Nat := t.entries.length

@[simp] theorem get?_empty (id : RunId) : (empty : RunTable β).get? id = none := rfl

private theorem find_put (id other : RunId) (x : β) (entries : List (RunId × β)) :
    find other (put id x entries) = if other = id then some x else find other entries := by
  induction entries with
  | nil => simp [put, find, eq_comm]
  | cons entry rest ih =>
    obtain ⟨k, y⟩ := entry
    by_cases hk : k = id
    · subst hk
      by_cases ho : k = other
      · subst ho; simp [put, find]
      · simp [put, find, ho, Ne.symm ho]
    · by_cases ho : k = other
      · subst ho; simp [put, find, hk]
      · simp [put, find, hk, ho, ih]

@[simp] theorem get?_insert (t : RunTable β) (id other : RunId) (x : β) :
    (t.insert id x).get? other = if other = id then some x else t.get? other :=
  find_put id other x t.entries

@[simp] theorem get?_erase (t : RunTable β) (id other : RunId) :
    (t.erase id).get? other = if other = id then none else t.get? other := by
  obtain ⟨entries⟩ := t
  show find other (entries.filter fun (k, _) => decide (k ≠ id)) = _
  induction entries with
  | nil => simp [find, get?]
  | cons entry rest ih =>
    obtain ⟨k, y⟩ := entry
    simp only [get?] at ih ⊢
    by_cases hk : k = id
    · subst hk
      by_cases ho : other = k
      · subst ho; simpa [find] using ih
      · simpa [find, ho, Ne.symm ho] using ih
    · by_cases ho : k = other
      · subst ho; simp [find, hk]
      · simpa [find, hk, ho] using ih

end RunTable

end PairedTuning
