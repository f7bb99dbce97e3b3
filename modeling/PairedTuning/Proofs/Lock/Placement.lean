import Mathlib
import PairedTuning.Proofs.Lock.Agreement

/-!
# Where the entries are

Every entry of the table of locks is in the shard of its run, so no run has entries in two shards.
Together with the shards' own uniqueness this says that the entries of all shards, taken together,
are what the look-up finds, each of them once.
-/

namespace PairedTuning.RunLocks

variable {M : Type} {t : RunLocks M}

/-- The entries of all shards. -/
def entries (t : RunLocks M) : List (RunId × Nat) := t.shards.flatMap (·.entries)

/-- Every entry is in the shard of its run. -/
def Placed (t : RunLocks M) : Prop :=
  ∀ i shard, t.shards[i]? = some shard → ∀ run ∈ shard.entries.map (·.1), t.shardOf run = i

/-! ### What keeps entries in their shards -/

lemma placed_ofHash (hash : RunId → Nat) (shards : Nat) :
    (ofHash hash shards : RunLocks M).Placed := by
  intro i shard hshard run hrun
  rw [List.eq_of_mem_replicate (List.mem_of_getElem? hshard)] at hrun
  cases hrun

namespace Placed

lemma congr {t' : RunLocks M} (h : t.Placed) (hhash : t'.hash = t.hash)
    (hshards : t'.shards = t.shards) : t'.Placed := by
  intro i shard hshard run hrun
  rw [shardOf, hhash, hshards]
  exact h i shard (hshards ▸ hshard) run hrun

/-- A change to the shard of a run may bring in that run and no other. -/
lemma modifyShard (h : t.Placed) (run : RunId) {f : RunTable Nat → RunTable Nat}
    (hf : ∀ shard, ∀ k ∈ (f shard).entries.map (·.1), k = run ∨ k ∈ shard.entries.map (·.1)) :
    (t.modifyShard run f).Placed := by
  intro i shard hshard k hk
  have hsame : (t.modifyShard run f).shardOf k = t.shardOf k := by
    simp [shardOf, RunLocks.modifyShard]
  rw [RunLocks.modifyShard, List.getElem?_modify] at hshard
  obtain ⟨old, hold, rfl⟩ := Option.map_eq_some_iff.mp hshard
  rw [hsame]
  split at hk
  · rename_i hi
    rcases hf old k hk with rfl | hmem
    · exact hi
    · exact h i old hold k hmem
  · exact h i old hold k hk

lemma tidy (h : t.Placed) (run : RunId) : (t.tidy run).Placed := by
  rw [RunLocks.tidy]
  split
  · split
    · exact h
    · refine h.modifyShard run fun shard k hk => .inr ?_
      exact (List.filter_sublist.map _).subset hk
  · exact h

variable [Mutex M]

lemma makeLock (h : t.Placed) (run : RunId) : (t.makeLock run).Placed := by
  have hchanged : (t.modifyShard run fun shard => (shard.filter fun _ lock =>
      t.inUse lock).insert run t.mutexes.length).Placed := by
    refine h.modifyShard run fun shard k hk => ?_
    rcases (RunTable.mem_map_insert _ run k _).mp hk with hk | hk
    · exact .inl hk
    · exact .inr ((List.filter_sublist.map _).subset hk)
  exact hchanged.congr rfl rfl

lemma lockFor (h : t.Placed) (run : RunId) : (t.lockFor run).2.Placed := by
  rw [RunLocks.lockFor]
  split
  · split
    · exact h
    · exact h.makeLock run
  · exact h.makeLock run

lemma settle (h : t.Placed) (ticket lock : Nat) : (t.settle ticket lock).Placed := by
  rw [RunLocks.settle]
  split
  · exact h.congr rfl rfl
  · exact h

lemma step (h : t.Placed) (e : LockEvent) : (t.step e).Placed := by
  cases e with
  | create run => exact h.congr rfl rfl
  | poll ticket =>
    rw [RunLocks.step, RunLocks.poll]
    split
    · exact h
    · rename_i a _
      split
      · exact h.settle ticket _
      · have hjoined : ((t.lockFor a.run).2.join ticket (t.lockFor a.run).1).Placed :=
          (h.lockFor a.run).congr rfl rfl
        exact hjoined.settle ticket _
  | drop ticket =>
    rw [RunLocks.step, RunLocks.drop]
    split
    · exact h
    · rename_i a _
      have hremoved : (t.remove a).Placed := h.congr rfl rfl
      split
      · exact hremoved.tidy a.run
      · exact hremoved

end Placed

lemma placed_after [Mutex M] (hash : RunId → Nat) (shards : Nat) (events : List LockEvent) :
    ((ofHash hash shards : RunLocks M).after events).Placed := by
  induction events using List.reverseRecOn with
  | nil => exact placed_ofHash hash shards
  | append_singleton events e ih =>
    rw [after_append_singleton]
    exact ih.step e

/-! ### All entries together -/

namespace SoundEntries

/-- The entry of a run is in its shard. -/
lemma lockOf?_of_mem (h : t.SoundEntries) (hplaced : t.Placed) {i : Nat} {shard : RunTable Nat}
    (hshard : t.shards[i]? = some shard) {run : RunId} {lock : Nat}
    (hmem : (run, lock) ∈ shard.entries) : t.shardOf run = i ∧ t.lockOf? run = some lock := by
  have hi := hplaced i shard hshard run (List.mem_map_of_mem hmem)
  refine ⟨hi, ?_⟩
  rw [lockOf?, hi, hshard, Option.bind_some]
  exact (h.unique shard (List.mem_of_getElem? hshard)).get?_eq_some_iff.mpr hmem

lemma mem_entries_iff (h : t.SoundEntries) (hplaced : t.Placed) {run : RunId} {lock : Nat} :
    (run, lock) ∈ t.entries ↔ t.lockOf? run = some lock := by
  rw [entries, List.mem_flatMap]
  constructor
  · rintro ⟨shard, hshard, hmem⟩
    obtain ⟨i, hi⟩ := List.mem_iff_getElem?.mp hshard
    exact (h.lockOf?_of_mem hplaced hi hmem).2
  · intro hentry
    obtain ⟨shard, hshard, hget⟩ := Option.bind_eq_some_iff.mp hentry
    have hmem := List.mem_of_getElem? hshard
    exact ⟨shard, hmem, (h.unique shard hmem).get?_eq_some_iff.mp hget⟩

/-- No run has two entries, be it in one shard or in two. -/
lemma nodup_entries (h : t.SoundEntries) (hplaced : t.Placed) : (t.entries.map (·.1)).Nodup := by
  rw [entries, List.map_flatMap, List.nodup_flatMap]
  refine ⟨h.unique, List.pairwise_iff_getElem.mpr fun i j hi hj hlt run hrun hrun' => ?_⟩
  have hshard := hplaced i _ (List.getElem?_eq_getElem hi) run hrun
  have hshard' := hplaced j _ (List.getElem?_eq_getElem hj) run hrun'
  exact hlt.ne (hshard.symm.trans hshard')

/-- The entry that is found for a run is the only one that it has. -/
lemma filter_entries (h : t.SoundEntries) (hplaced : t.Placed) {run : RunId} {lock : Nat}
    (hentry : t.lockOf? run = some lock) : t.entries.filter (·.1 = run) = [(run, lock)] := by
  have hmem := (h.mem_entries_iff hplaced).mpr hentry
  have hnodup := h.nodup_entries hplaced
  refine List.perm_singleton.mp ((List.perm_ext_iff_of_nodup ?_ (List.nodup_singleton _)).mpr ?_)
  · exact (List.Nodup.of_map _ hnodup).filter _
  · rintro ⟨run', lock'⟩
    rw [List.mem_filter, List.mem_singleton, h.mem_entries_iff hplaced]
    constructor
    · rintro ⟨hentry', hrun⟩
      obtain rfl : run' = run := of_decide_eq_true hrun
      rw [Option.some_injective _ (hentry'.symm.trans hentry)]
    · intro heq
      cases heq
      exact ⟨hentry, decide_eq_true rfl⟩

end SoundEntries

end PairedTuning.RunLocks
