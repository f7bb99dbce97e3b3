import Mathlib
import PairedTuning.Lock.Table
import PairedTuning.Proofs.Run.Table

/-!
# Entries of the table of locks

What the operations that write to the shards do to the lock that is found for a run. A sweep and a
clean-up take entries away, but never one whose lock is in use. Different runs never get the same
lock, because a lock is made for one run and its number is not given away again.
-/

namespace PairedTuning.RunLocks

variable {M : Type} {t : RunLocks M}

/-- The entries name locks that have been made, no run twice and no lock for two runs. -/
structure SoundEntries (t : RunLocks M) : Prop where
  shards : t.shards ≠ []
  unique : ∀ shard ∈ t.shards, shard.Unique
  injective : ∀ {run other lock},
    t.lockOf? run = some lock → t.lockOf? other = some lock → run = other
  made : ∀ {run lock}, t.lockOf? run = some lock → lock < t.mutexes.length

/-- What happens to acquisitions and mutexes is no concern of the entries. -/
lemma SoundEntries.congr {t' : RunLocks M} (h : t.SoundEntries) (hhash : t'.hash = t.hash)
    (hshards : t'.shards = t.shards) (hmutexes : t'.mutexes.length = t.mutexes.length) :
    t'.SoundEntries := by
  have hentry (run : RunId) : t'.lockOf? run = t.lockOf? run := by
    simp only [lockOf?, shardOf, hhash, hshards]
  refine ⟨hshards ▸ h.shards, hshards ▸ h.unique, ?_, ?_⟩
  · intro run other lock hrun hother
    rw [hentry] at hrun hother
    exact h.injective hrun hother
  · intro run lock hrun
    rw [hentry] at hrun
    rw [hmutexes]
    exact h.made hrun

lemma soundEntries_ofHash (hash : RunId → Nat) (shards : Nat) :
    (ofHash hash shards : RunLocks M).SoundEntries := by
  have hempty (run : RunId) : (ofHash hash shards : RunLocks M).lockOf? run = none := by
    rw [lockOf?, Option.bind_eq_none_iff]
    intro shard hshard
    rw [List.eq_of_mem_replicate (List.mem_of_getElem? hshard), RunTable.get?_empty]
  have hpos : ceilPowerOfTwo (max 1 shards) ≠ 0 := by
    obtain ⟨k, hk⟩ := exists_ceilPowerOfTwo_eq (max 1 shards)
    rw [hk, Nat.shiftLeft_eq, Nat.one_mul]
    exact (Nat.two_pow_pos k).ne'
  refine ⟨?_, ?_, ?_, ?_⟩
  · simpa [ofHash] using hpos
  · intro shard hshard
    rw [List.eq_of_mem_replicate hshard]
    exact RunTable.unique_empty
  · intro run other lock hrun
    simp [hempty] at hrun
  · intro run lock hrun
    simp [hempty] at hrun

lemma lockOf?_modifyShard (t : RunLocks M) (run other : RunId) (f : RunTable Nat → RunTable Nat) :
    (t.modifyShard run f).lockOf? other =
      if t.shardOf other = t.shardOf run then
        (t.shards[t.shardOf other]?).bind fun shard => (f shard).get? other
      else t.lockOf? other := by
  have hshard : (t.modifyShard run f).shardOf other = t.shardOf other := by
    simp [shardOf, modifyShard]
  rw [lockOf?, hshard]
  simp only [modifyShard, List.getElem?_modify, eq_comm (a := t.shardOf run)]
  split
  · cases t.shards[t.shardOf other]? <;> rfl
  · simp [lockOf?]

lemma unique_modifyShard (h : ∀ shard ∈ t.shards, shard.Unique) (run : RunId)
    {f : RunTable Nat → RunTable Nat} (hf : ∀ shard, shard.Unique → (f shard).Unique) :
    ∀ shard ∈ (t.modifyShard run f).shards, shard.Unique := by
  intro shard hshard
  obtain ⟨i, hi⟩ := List.mem_iff_getElem?.mp hshard
  rw [modifyShard, List.getElem?_modify] at hi
  obtain ⟨shard', hshard', rfl⟩ := Option.map_eq_some_iff.mp hi
  have hunique := h shard' (List.mem_of_getElem? hshard')
  split
  · exact hf shard' hunique
  · exact hunique

/-! ### Cleaning up -/

lemma lockOf?_modifyShard_erase (t : RunLocks M) (run other : RunId) :
    (t.modifyShard run (·.erase run)).lockOf? other =
      if other = run then none else t.lockOf? other := by
  rw [lockOf?_modifyShard]
  by_cases hother : other = run
  · simp [hother]
  · simp only [RunTable.get?_erase, hother, if_false]
    exact ite_self _

/-- Only the entry of the run itself may go, and only if nobody uses its lock. -/
lemma lockOf?_tidy (t : RunLocks M) (run other : RunId) :
    (t.tidy run).lockOf? other =
      if other = run then (t.lockOf? run).filter t.inUse else t.lockOf? other := by
  rw [tidy]
  rcases hentry : t.lockOf? run with _ | lock
  · by_cases hother : other = run
    · simp [hother, hentry]
    · simp [hother]
  · by_cases huse : t.inUse lock
    · by_cases hother : other = run
      · simp [hother, huse, hentry, Option.filter_some]
      · simp [hother, huse]
    · simp [huse, lockOf?_modifyShard_erase, Option.filter_some]

lemma lockOf?_of_tidy {run other : RunId} {lock : Nat}
    (h : (t.tidy run).lockOf? other = some lock) : t.lockOf? other = some lock := by
  rw [lockOf?_tidy] at h
  split at h
  · rename_i hother
    rw [hother]
    exact (Option.filter_eq_some_iff.mp h).1
  · exact h

lemma lockOf?_tidy_of_inUse {other : RunId} {lock : Nat} (h : t.lockOf? other = some lock)
    (huse : t.inUse lock) (run : RunId) : (t.tidy run).lockOf? other = some lock := by
  rw [lockOf?_tidy]
  split
  · rename_i hother
    rw [← hother, h, Option.filter_some, if_pos huse]
  · exact h

/-- Nothing but the shards changes. -/
lemma tidy_fields (t : RunLocks M) (run : RunId) :
    (t.tidy run).acquisitions = t.acquisitions ∧ (t.tidy run).mutexes = t.mutexes ∧
      (t.tidy run).nextTicket = t.nextTicket := by
  rw [tidy]
  split
  · split <;> exact ⟨rfl, rfl, rfl⟩
  · exact ⟨rfl, rfl, rfl⟩

@[simp] lemma acquisitions_tidy (t : RunLocks M) (run : RunId) :
    (t.tidy run).acquisitions = t.acquisitions := (t.tidy_fields run).1

@[simp] lemma mutexes_tidy (t : RunLocks M) (run : RunId) :
    (t.tidy run).mutexes = t.mutexes := (t.tidy_fields run).2.1

@[simp] lemma nextTicket_tidy (t : RunLocks M) (run : RunId) :
    (t.tidy run).nextTicket = t.nextTicket := (t.tidy_fields run).2.2

lemma SoundEntries.tidy (h : t.SoundEntries) (run : RunId) : (t.tidy run).SoundEntries := by
  have hshards : (t.tidy run).shards ≠ [] ∧ ∀ shard ∈ (t.tidy run).shards, shard.Unique := by
    rw [RunLocks.tidy]
    split
    · split
      · exact ⟨h.shards, h.unique⟩
      · exact ⟨by simpa [modifyShard] using h.shards,
          unique_modifyShard h.unique run fun _ hshard => hshard.erase run⟩
    · exact ⟨h.shards, h.unique⟩
  refine ⟨hshards.1, hshards.2, ?_, ?_⟩
  · intro other other' lock hother hother'
    exact h.injective (lockOf?_of_tidy hother) (lockOf?_of_tidy hother')
  · intro other lock hother
    rw [mutexes_tidy]
    exact h.made (lockOf?_of_tidy hother)

/-! ### New locks -/

variable [Mutex M]

/-- A new lock is the run's own. In its shard, the other runs keep the locks that are in use. -/
lemma SoundEntries.lockOf?_makeLock (h : t.SoundEntries) (run other : RunId) :
    (t.makeLock run).lockOf? other =
      if other = run then some t.mutexes.length
      else if t.shardOf other = t.shardOf run then (t.lockOf? other).filter t.inUse
      else t.lockOf? other := by
  have hentry : (t.makeLock run).lockOf? other = (t.modifyShard run fun shard =>
      (shard.filter fun _ lock => t.inUse lock).insert run t.mutexes.length).lockOf? other := rfl
  have hlt : t.shardOf other < t.shards.length := Nat.mod_lt _ (List.length_pos_iff.mpr h.shards)
  have hshard : t.shards[t.shardOf other]? = some t.shards[t.shardOf other] :=
    List.getElem?_eq_getElem hlt
  rw [hentry, lockOf?_modifyShard, hshard, Option.bind_some, RunTable.get?_insert,
    (h.unique _ (List.getElem_mem hlt)).get?_filter, lockOf?, hshard, Option.bind_some]
  by_cases hother : other = run
  · simp [hother]
  · simp [hother]

lemma SoundEntries.lockOf?_of_makeLock (h : t.SoundEntries) {run other : RunId} {lock : Nat}
    (hne : other ≠ run) (hentry : (t.makeLock run).lockOf? other = some lock) :
    t.lockOf? other = some lock := by
  rw [h.lockOf?_makeLock, if_neg hne] at hentry
  split at hentry
  · exact (Option.filter_eq_some_iff.mp hentry).1
  · exact hentry

lemma SoundEntries.lockOf?_makeLock_of_inUse (h : t.SoundEntries) {run other : RunId} {lock : Nat}
    (hne : other ≠ run) (hentry : t.lockOf? other = some lock) (huse : t.inUse lock) :
    (t.makeLock run).lockOf? other = some lock := by
  rw [h.lockOf?_makeLock, if_neg hne]
  split
  · rw [hentry, Option.filter_some, if_pos huse]
  · exact hentry

lemma SoundEntries.makeLock (h : t.SoundEntries) (run : RunId) : (t.makeLock run).SoundEntries := by
  have hself : (t.makeLock run).lockOf? run = some t.mutexes.length := by simp [h.lockOf?_makeLock]
  have hlength : (t.makeLock run).mutexes.length = t.mutexes.length + 1 := by
    simp [RunLocks.makeLock]
  have hmade {other : RunId} {lock : Nat} (hne : other ≠ run)
      (hentry : (t.makeLock run).lockOf? other = some lock) : lock < t.mutexes.length :=
    h.made (h.lockOf?_of_makeLock hne hentry)
  refine ⟨by simpa [RunLocks.makeLock, modifyShard] using h.shards, ?_, ?_, ?_⟩
  · exact unique_modifyShard h.unique run fun _ hshard => (hshard.filter _).insert _ _
  · intro other other' lock hother hother'
    by_cases hrun : other = run <;> by_cases hrun' : other' = run
    · rw [hrun, hrun']
    · subst hrun
      obtain rfl := Option.some_injective _ (hself.symm.trans hother)
      exact absurd (hmade hrun' hother') (lt_irrefl _)
    · subst hrun'
      obtain rfl := Option.some_injective _ (hself.symm.trans hother')
      exact absurd (hmade hrun hother) (lt_irrefl _)
    · exact h.injective (h.lockOf?_of_makeLock hrun hother) (h.lockOf?_of_makeLock hrun' hother')
  · intro other lock hother
    rw [hlength]
    by_cases hrun : other = run
    · subst hrun
      obtain rfl := Option.some_injective _ (hself.symm.trans hother)
      exact Nat.lt_succ_self _
    · exact (hmade hrun hother).trans (Nat.lt_succ_self _)

end PairedTuning.RunLocks
