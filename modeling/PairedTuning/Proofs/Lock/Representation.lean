import Mathlib
import PairedTuning.Proofs.Lock.Placement

/-!
# What the table of locks represents

A run is live while some acquisition of it has been polled and not been dropped. The table has one
entry for each live run, which leads to the lock that all its acquisitions use, and no event takes
that entry away as long as the run lives. Entries of other runs may be left over; they are not
counted, and the next first use in their shard sweeps them out.

The number of shards and the hash decide on nothing but where the entries are.
-/

namespace PairedTuning.RunLocks

variable {M : Type} {queue : M → List Nat} {t : RunLocks M} {s : Arrivals} {run : RunId}

/-! ### Live runs -/

/-- Some acquisition of the run has been polled and not been dropped. -/
def Live (t : RunLocks M) (run : RunId) : Prop :=
  ∃ a ∈ t.acquisitions, a.run = run ∧ a.lock.isSome

/-- A lock represents a run: it is in the only entry of the run, which is in the shard of the run,
and all acquisitions of the run use it. -/
structure Represents (t : RunLocks M) (lock : Nat) (run : RunId) : Prop where
  only : t.entries.filter (·.1 = run) = [(run, lock)]
  found : t.lockOf? run = some lock
  used : ∀ a ∈ t.acquisitions, a.run = run → a.lock.isSome → a.lock = some lock

lemma exists_of_inUse {lock : Nat} (huse : t.inUse lock) :
    ∃ a ∈ t.acquisitions, a.lock = some lock := by
  obtain ⟨a, ha, hlock⟩ := List.any_eq_true.mp huse
  exact ⟨a, ha, by simpa using hlock⟩

namespace Follows

/-- A live run has a lock in use, which is the one that is found for it. -/
lemma exists_lock_of_live (h : Follows queue t s) (hlive : t.Live run) :
    ∃ lock, t.lockOf? run = some lock ∧ t.inUse lock := by
  obtain ⟨a, ha, rfl, hpolled⟩ := hlive
  obtain ⟨lock, hlock⟩ := Option.isSome_iff_exists.mp hpolled
  exact ⟨lock, h.lock a ha lock hlock, inUse_of_mem ha hlock⟩

/-- Only the locks of live runs are in use. -/
lemma live_of_inUse (h : Follows queue t s) {lock : Nat} (hentry : t.lockOf? run = some lock)
    (huse : t.inUse lock) : t.Live run := by
  obtain ⟨a, ha, hlock⟩ := exists_of_inUse huse
  have hrun := h.entries.injective (h.lock a ha lock hlock) hentry
  exact ⟨a, ha, hrun, by simp [hlock]⟩

/-- A run is live if somebody is in its queue. -/
lemma live_iff (h : Follows queue t s) (hs : s.Sound) : t.Live run ↔ s.queue run ≠ [] := by
  constructor
  · rintro ⟨a, ha, rfl, hpolled⟩
    exact List.ne_nil_of_mem (Arrivals.mem_queue.mpr ((h.polled a ha).mp hpolled))
  · intro hqueue
    obtain ⟨ticket, hticket⟩ := List.exists_mem_of_ne_nil _ hqueue
    have hline := Arrivals.mem_queue.mp hticket
    obtain ⟨a, ha, rfl, rfl⟩ := h.exists_acquisition (hs.created _ hline)
    exact ⟨a, ha, rfl, (h.polled a ha).mpr hline⟩

lemma exists_represents (h : Follows queue t s) (hplaced : t.Placed) (hlive : t.Live run) :
    ∃ lock, t.Represents lock run := by
  obtain ⟨lock, hentry, -⟩ := h.exists_lock_of_live hlive
  refine ⟨lock, h.entries.filter_entries hplaced hentry, hentry, ?_⟩
  rintro a ha rfl hpolled
  obtain ⟨other, hother⟩ := Option.isSome_iff_exists.mp hpolled
  rw [hother, ← h.lock a ha other hother, hentry]

/-! ### Counting -/

lemma liveLocks_eq (h : Follows queue t s) (hplaced : t.Placed) :
    t.liveLocks = {run | t.Live run}.ncard := by
  let live := (t.entries.filter fun entry => t.inUse entry.2).map (·.1)
  have hnodup : live.Nodup :=
    (h.entries.nodup_entries hplaced).sublist (List.filter_sublist.map _)
  have hmem (run : RunId) : run ∈ live ↔ t.Live run := by
    constructor
    · intro hrun
      obtain ⟨⟨run', lock⟩, hentry, rfl⟩ := List.mem_map.mp hrun
      obtain ⟨hentry, huse⟩ := List.mem_filter.mp hentry
      exact h.live_of_inUse ((h.entries.mem_entries_iff hplaced).mp hentry) huse
    · intro hlive
      obtain ⟨lock, hentry, huse⟩ := h.exists_lock_of_live hlive
      have hmem := (h.entries.mem_entries_iff hplaced).mpr hentry
      exact List.mem_map.mpr ⟨_, List.mem_filter.mpr ⟨hmem, huse⟩, rfl⟩
  have hset : {run | t.Live run} = ↑live.toFinset := by
    ext run
    simp [hmem]
  calc
    t.liveLocks = live.length := by
      rw [List.length_map, ← List.countP_eq_length_filter]
      rfl
    _ = live.toFinset.card := (List.toFinset_card_of_nodup hnodup).symm
    _ = {run | t.Live run}.ncard := by rw [hset, Set.ncard_coe_finset]

/-! ### Finding a lock -/

variable [Mutex M]

/-- An acquisition of a live run finds the lock that the others use. -/
lemma lockFor_of_mem (h : Follows queue t s) {a : Acquisition} (ha : a ∈ t.acquisitions)
    {lock : Nat} (hlock : a.lock = some lock) : t.lockFor a.run = (lock, t) := by
  simp only [RunLocks.lockFor, h.lock a ha lock hlock, inUse_of_mem ha hlock, if_true]

/-- An acquisition of a run that is not live makes a new lock. -/
lemma lockFor_of_not_live (h : Follows queue t s) (hlive : ¬ t.Live run) :
    t.lockFor run = (t.mutexes.length, t.makeLock run) := by
  rw [RunLocks.lockFor]
  split
  · rename_i lock hentry
    rw [if_neg fun huse => hlive (h.live_of_inUse hentry huse)]
  · rfl

end Follows

/-! ### Entries of live runs stay -/

section Kept

variable [Mutex M]

lemma lockOf?_settle (t : RunLocks M) (ticket lock : Nat) (run : RunId) :
    (t.settle ticket lock).lockOf? run = t.lockOf? run := by
  rw [settle]
  split <;> rfl

/-- A poll leaves every entry in use as it is. -/
lemma lockOf?_poll_of_inUse (h : t.SoundEntries) {lock : Nat} (hentry : t.lockOf? run = some lock)
    (huse : t.inUse lock) (ticket : Nat) : (t.poll ticket).lockOf? run = some lock := by
  rw [poll]
  split
  · exact hentry
  · rename_i a _
    split
    · exact (lockOf?_settle t ticket _ run).trans hentry
    · refine (lockOf?_settle _ ticket _ run).trans ?_
      show (t.lockFor a.run).2.lockOf? run = some lock
      by_cases hrun : run = a.run
      · subst hrun
        simp only [lockFor, hentry, huse, if_true]
      · have hmade := h.lockOf?_makeLock_of_inUse hrun hentry huse
        rw [lockFor]
        split
        · split
          · exact hentry
          · exact hmade
        · exact hmade

/-- A drop leaves every entry as it is whose lock is in use after it. -/
lemma lockOf?_drop_of_inUse {lock ticket : Nat} (hentry : t.lockOf? run = some lock)
    (huse : (t.drop ticket).inUse lock) : (t.drop ticket).lockOf? run = some lock := by
  rcases hfind : t.find? ticket with _ | a
  · simp only [drop, hfind]
    exact hentry
  · have hremoved : (t.remove a).lockOf? run = some lock := hentry
    simp only [drop, hfind] at huse ⊢
    split
    · rename_i hholds
      rw [if_pos hholds, inUse, acquisitions_tidy] at huse
      exact lockOf?_tidy_of_inUse hremoved huse a.run
    · exact hremoved

lemma mem_of_mem_drop {a : Acquisition} {ticket : Nat} (ha : a ∈ (t.drop ticket).acquisitions) :
    a ∈ t.acquisitions := by
  rw [drop] at ha
  split at ha
  · exact ha
  · split at ha
    · rw [acquisitions_tidy] at ha
      exact List.mem_of_mem_filter ha
    · exact List.mem_of_mem_filter ha

/-- No event takes away or replaces the entry of a run that goes on being live. -/
lemma Follows.lockOf?_step (h : Follows queue t s) {e : LockEvent} (hlive : t.Live run)
    (hlive' : (t.step e).Live run) : (t.step e).lockOf? run = t.lockOf? run := by
  cases e with
  | create other => rfl
  | poll ticket =>
    obtain ⟨lock, hentry, huse⟩ := h.exists_lock_of_live hlive
    exact (lockOf?_poll_of_inUse h.entries hentry huse ticket).trans hentry.symm
  | drop ticket =>
    obtain ⟨a, ha, rfl, hpolled⟩ := hlive'
    obtain ⟨lock, hlock⟩ := Option.isSome_iff_exists.mp hpolled
    have hentry := h.lock a (mem_of_mem_drop ha) lock hlock
    exact (lockOf?_drop_of_inUse hentry (inUse_of_mem ha hlock)).trans hentry.symm

/-! ### First uses sweep -/

/-- A new lock leaves no entry in its shard but those of live runs. -/
lemma Follows.eq_or_live_of_mem_makeLock (h : Follows queue t s) (hplaced : t.Placed)
    {shard : RunTable Nat} (hshard : (t.makeLock run).shards[t.shardOf run]? = some shard)
    {other : RunId} {lock : Nat} (hmem : (other, lock) ∈ shard.entries) :
    other = run ∨ t.Live other := by
  have hshardOf : (t.makeLock run).shardOf other = t.shardOf other := by
    simp [shardOf, RunLocks.makeLock, modifyShard]
  obtain ⟨hsame, hentry⟩ :=
    (h.entries.makeLock run).lockOf?_of_mem (hplaced.makeLock run) hshard hmem
  rw [hshardOf] at hsame
  rw [h.entries.lockOf?_makeLock, if_pos hsame] at hentry
  split_ifs at hentry with hrun
  · exact .inl hrun
  · obtain ⟨hold, huse⟩ := Option.filter_eq_some_iff.mp hentry
    exact .inr (h.live_of_inUse hold huse)

lemma shards_settle (t : RunLocks M) (ticket lock : Nat) :
    (t.settle ticket lock).shards = t.shards := by
  rw [settle]
  split <;> rfl

/-- After the first use of a run, all entries in its shard are those of live runs. -/
lemma Follows.live_of_mem_poll (h : Follows queue t s) (hfair : Mutex.Fair queue) (hs : s.Sound)
    (hplaced : t.Placed) {a : Acquisition} (ha : a ∈ t.acquisitions) (hlock : a.lock = none)
    (hfirst : ¬ t.Live a.run) {shard : RunTable Nat}
    (hshard : (t.poll a.ticket).shards[t.shardOf a.run]? = some shard)
    {entry : RunId × Nat} (hmem : entry ∈ shard.entries) : (t.poll a.ticket).Live entry.1 := by
  have hshards : (t.poll a.ticket).shards = (t.makeLock a.run).shards := by
    simp only [RunLocks.poll, h.find?_eq_some hs ha, hlock, h.lockFor_of_not_live hfirst,
      shards_settle]
    rfl
  have hqueue := hs.queue_step_poll (h.mem_created ha) entry.1
  rw [((h.poll hfair hs a.ticket).live_iff (hs.step _)), hqueue]
  rcases h.eq_or_live_of_mem_makeLock hplaced (hshards ▸ hshard) hmem with hrun | hlive
  · have hnew : a.ticket ∉ s.queue a.run := by
      simp [Arrivals.mem_queue, ← h.polled a ha, hlock]
    rw [if_pos ⟨hnew, hrun⟩]
    simp
  · have hqueue := (h.live_iff hs).mp hlive
    split
    · simp
    · exact hqueue

end Kept

/-! ### Shards do not matter -/

/-- Two tables agree if they differ in their entries at most. -/
structure Agrees (t t' : RunLocks M) : Prop where
  acquisitions : t'.acquisitions = t.acquisitions
  mutexes : t'.mutexes = t.mutexes
  nextTicket : t'.nextTicket = t.nextTicket

namespace Agrees

variable {t' : RunLocks M} (hagrees : t.Agrees t')

include hagrees

lemma find?_eq (ticket : Nat) : t'.find? ticket = t.find? ticket := by
  rw [find?, find?, hagrees.acquisitions]

lemma live_iff (run : RunId) : t'.Live run ↔ t.Live run := by
  rw [Live, Live, hagrees.acquisitions]

lemma update (ticket : Nat) (f : Acquisition → Acquisition) :
    (t.update ticket f).Agrees (t'.update ticket f) :=
  ⟨congrArg (List.map _) hagrees.acquisitions, hagrees.mutexes, hagrees.nextTicket⟩

lemma tidy (run : RunId) : (t.tidy run).Agrees (t'.tidy run) := by
  constructor
  · simpa using hagrees.acquisitions
  · simpa using hagrees.mutexes
  · simpa using hagrees.nextTicket

variable [Mutex M]

lemma owner?_eq (lock : Nat) : t'.owner? lock = t.owner? lock := by
  rw [owner?, owner?, hagrees.mutexes]

lemma settle (ticket lock : Nat) : (t.settle ticket lock).Agrees (t'.settle ticket lock) := by
  rw [RunLocks.settle, RunLocks.settle, hagrees.owner?_eq]
  split
  · exact hagrees.update ticket _
  · exact hagrees

lemma join (ticket lock : Nat) : (t.join ticket lock).Agrees (t'.join ticket lock) := by
  constructor
  · exact congrArg (List.map _) hagrees.acquisitions
  · exact congrArg (List.modify · lock _) hagrees.mutexes
  · exact hagrees.nextTicket

lemma makeLock (run : RunId) : (t.makeLock run).Agrees (t'.makeLock run) :=
  ⟨hagrees.acquisitions, congrArg (· ++ [Mutex.free]) hagrees.mutexes, hagrees.nextTicket⟩

lemma remove (a : Acquisition) : (t.remove a).Agrees (t'.remove a) := by
  constructor
  · exact congrArg (List.filter _) hagrees.acquisitions
  · simp only [RunLocks.remove, hagrees.mutexes]
  · exact hagrees.nextTicket

/-- The lock that is found for a run depends on the acquisitions alone. -/
lemma lockFor (h : Follows queue t s) (h' : Follows queue t' s) (run : RunId) :
    (t'.lockFor run).1 = (t.lockFor run).1 ∧ (t.lockFor run).2.Agrees (t'.lockFor run).2 := by
  by_cases hlive : t.Live run
  · obtain ⟨a, ha, rfl, hpolled⟩ := hlive
    obtain ⟨lock, hlock⟩ := Option.isSome_iff_exists.mp hpolled
    have ha' : a ∈ t'.acquisitions := hagrees.acquisitions ▸ ha
    rw [h.lockFor_of_mem ha hlock, h'.lockFor_of_mem ha' hlock]
    exact ⟨rfl, hagrees⟩
  · have hlive' : ¬ t'.Live run := (hagrees.live_iff run).not.mpr hlive
    rw [h.lockFor_of_not_live hlive, h'.lockFor_of_not_live hlive']
    exact ⟨congrArg List.length hagrees.mutexes, hagrees.makeLock run⟩

lemma poll (h : Follows queue t s) (h' : Follows queue t' s) (ticket : Nat) :
    (t.poll ticket).Agrees (t'.poll ticket) := by
  rw [RunLocks.poll, RunLocks.poll, hagrees.find?_eq]
  split
  · exact hagrees
  · rename_i a _
    split
    · exact hagrees.settle ticket _
    · obtain ⟨hlock, hmade⟩ := hagrees.lockFor h h' a.run
      simp only [hlock]
      exact (hmade.join ticket _).settle ticket _

lemma drop (ticket : Nat) : (t.drop ticket).Agrees (t'.drop ticket) := by
  rw [RunLocks.drop, RunLocks.drop, hagrees.find?_eq]
  split
  · exact hagrees
  · rename_i a _
    split
    · exact (hagrees.remove a).tidy a.run
    · exact hagrees.remove a

lemma step (h : Follows queue t s) (h' : Follows queue t' s) (e : LockEvent) :
    (t.step e).Agrees (t'.step e) := by
  cases e with
  | create run =>
    constructor
    · simp only [RunLocks.step, RunLocks.create, hagrees.acquisitions, hagrees.nextTicket]
    · exact hagrees.mutexes
    · exact congrArg (· + 1) hagrees.nextTicket
  | poll ticket => exact hagrees.poll h h' ticket
  | drop ticket => exact hagrees.drop ticket

end Agrees

variable [Mutex M]

lemma agrees_after (hfair : Mutex.Fair queue) (hash hash' : RunId → Nat) (shards shards' : Nat)
    (events : List LockEvent) :
    ((ofHash hash shards : RunLocks M).after events).Agrees
      ((ofHash hash' shards').after events) := by
  induction events using List.reverseRecOn with
  | nil => exact ⟨rfl, rfl, rfl⟩
  | append_singleton events e ih =>
    rw [after_append_singleton, after_append_singleton]
    have h := follows_after hfair hash shards events
    have h' := follows_after hfair hash' shards' events
    exact ih.step h h' e

/-! ### All sequences of events -/

/-- The table represents the runs that have somebody in their queues. -/
structure RepresentsLive (t : RunLocks M) (s : Arrivals) : Prop where
  live : ∀ run, t.Live run ↔ s.queue run ≠ []
  represented : ∀ run, t.Live run → ∃ lock, t.Represents lock run
  /-- No event takes away or replaces the entry of a run that goes on being live. -/
  kept : ∀ e run, t.Live run → (t.step e).Live run → (t.step e).lockOf? run = t.lockOf? run
  count : t.liveLocks = {run | t.Live run}.ncard
  nobody : t.acquisitions = [] → t.liveLocks = 0
  /-- The first use of a run leaves no entry in its shard but those of live runs. -/
  swept : ∀ a ∈ t.acquisitions, a.lock = none → ¬ t.Live a.run → ∀ shard,
    (t.poll a.ticket).shards[t.shardOf a.run]? = some shard →
    ∀ entry ∈ shard.entries, (t.poll a.ticket).Live entry.1

lemma Follows.representsLive (h : Follows queue t s) (hfair : Mutex.Fair queue) (hs : s.Sound)
    (hplaced : t.Placed) : t.RepresentsLive s where
  live _ := h.live_iff hs
  represented _ hlive := h.exists_represents hplaced hlive
  kept _ _ hlive hlive' := h.lockOf?_step hlive hlive'
  count := h.liveLocks_eq hplaced
  nobody hnobody := by
    rw [h.liveLocks_eq hplaced]
    simp [Live, hnobody]
  swept _ ha hlock hfirst _ hshard _ hmem :=
    h.live_of_mem_poll hfair hs hplaced ha hlock hfirst hshard hmem

/-- The table of locks represents the live runs after any events, with any number of shards and
however the runs are spread over them. Neither has an effect on who holds, who waits, who owns a
lock and how many locks are live. -/
theorem locks_represent_live_runs (hfair : Mutex.Fair queue) (hash : RunId → Nat) (shards : Nat)
    (events : List LockEvent) :
    let t := (ofHash hash shards : RunLocks M).after events
    t.RepresentsLive (.after events) ∧
      ∀ (hash' : RunId → Nat) (shards' : Nat),
        let t' := (ofHash hash' shards' : RunLocks M).after events
        t'.holders = t.holders ∧ t'.waiters = t.waiters ∧
          (∀ lock, t'.owner? lock = t.owner? lock) ∧ t'.liveLocks = t.liveLocks := by
  intro t
  have hs : (Arrivals.after events).Sound := Arrivals.sound_after events
  have hrepresents (hash : RunId → Nat) (shards : Nat) :
      ((ofHash hash shards : RunLocks M).after events).RepresentsLive (.after events) :=
    (follows_after hfair hash shards events).representsLive hfair hs
      (placed_after hash shards events)
  refine ⟨hrepresents hash shards, fun hash' shards' => ?_⟩
  intro t'
  have hagrees : t.Agrees t' := agrees_after hfair hash hash' shards shards' events
  refine ⟨?_, ?_, hagrees.owner?_eq, ?_⟩
  · rw [holders, holders, hagrees.acquisitions]
  · rw [waiters, waiters, hagrees.acquisitions]
  · rw [(hrepresents hash shards).count, (hrepresents hash' shards').count]
    exact congrArg Set.ncard (Set.ext hagrees.live_iff)

/-- The first run is handed on to an acquisition that is then given up, which leaves its entry
behind. The first use of the second run, in the same shard, sweeps it out. -/
theorem locks_represent_live_runs_small :
    let events : List LockEvent :=
      [.create ⟨1⟩, .create ⟨1⟩, .create ⟨2⟩, .poll 0, .poll 1, .drop 0, .drop 1]
    let t := (ofHash RunId.value 1 : RunLocks FairMutex).after events
    Mutex.Fair FairMutex.queue ∧ t.RepresentsLive (.after events) ∧ t.entries = [(⟨1⟩, 0)] ∧
      t.liveLocks = 0 ∧ (t.poll 2).entries = [(⟨2⟩, 1)] ∧ (t.poll 2).liveLocks = 1 := by
  intro events t
  obtain ⟨hrepresents, -⟩ := locks_represent_live_runs FairMutex.fair RunId.value 1 events
  exact ⟨FairMutex.fair, hrepresents, by decide +kernel, by decide +kernel, by decide +kernel,
    by decide +kernel⟩

end PairedTuning.RunLocks
