import Mathlib
import PairedTuning.Proofs.Lock.Agreement

/-!
# Runs are served in the order of first polls

`serves_in_order` is what the locks are for. Of the acquisitions of a run that have been polled and
not been dropped, the first one owns the lock of the run, and all others wait. This holds after any
events, with any number of shards and however the runs are spread over them.
-/

namespace PairedTuning.RunLocks

variable {M : Type} [Mutex M] {queue : M → List Nat} {t : RunLocks M} {s : Arrivals}

/-- An acquisition owns its lock: it has noticed that it does, or it will with its next poll. -/
def Owns (t : RunLocks M) (a : Acquisition) : Prop :=
  ∃ lock, a.lock = some lock ∧ t.owner? lock = some a.ticket

/-- A run is served in the order of a queue: its acquisitions that have been polled are in the queue
and all use the lock in the table, and the first of them owns it. -/
structure Serves (t : RunLocks M) (run : RunId) (queue : List Nat) : Prop where
  nodup : queue.Nodup
  polled : ∀ ticket, ticket ∈ queue ↔
    ∃ a ∈ t.acquisitions, a.ticket = ticket ∧ a.run = run ∧ a.lock.isSome
  lock : ∀ a ∈ t.acquisitions, a.run = run → ∀ lock, a.lock = some lock → t.lockOf? run = some lock
  owner : ∀ lock, t.lockOf? run = some lock → t.owner? lock = queue.head?
  owns : ∀ a ∈ t.acquisitions, a.run = run → (t.Owns a ↔ queue.head? = some a.ticket)
  holds : ∀ a ∈ t.acquisitions, a.run = run → a.holds → t.Owns a
  exclusive : ∀ a ∈ t.acquisitions, ∀ b ∈ t.acquisitions, a.run = run → b.run = run →
    t.Owns a → t.Owns b → a = b

namespace Follows

lemma owns_iff (h : Follows queue t s) (hfair : Mutex.Fair queue) {a : Acquisition}
    (ha : a ∈ t.acquisitions) : t.Owns a ↔ (s.queue a.run).head? = some a.ticket := by
  constructor
  · rintro ⟨lock, hlock, howner⟩
    rwa [← h.owner?_eq hfair (h.lock a ha lock hlock)]
  · intro hhead
    have hline := Arrivals.mem_queue.mp (List.mem_of_mem_head? (Option.mem_def.mpr hhead))
    obtain ⟨lock, hlock⟩ := Option.isSome_iff_exists.mp ((h.polled a ha).mpr hline)
    exact ⟨lock, hlock, by rwa [h.owner?_eq hfair (h.lock a ha lock hlock)]⟩

lemma serves (h : Follows queue t s) (hfair : Mutex.Fair queue) (hs : s.Sound) (run : RunId) :
    t.Serves run (s.queue run) where
  nodup := hs.nodup_queue run
  polled ticket := by
    rw [Arrivals.mem_queue]
    constructor
    · intro hline
      obtain ⟨a, ha, rfl, rfl⟩ := h.exists_acquisition (hs.created _ hline)
      exact ⟨a, ha, rfl, rfl, (h.polled a ha).mpr hline⟩
    · rintro ⟨a, ha, rfl, rfl, hlock⟩
      exact (h.polled a ha).mp hlock
  lock a ha hrun := hrun ▸ h.lock a ha
  owner lock hentry := h.owner?_eq hfair hentry
  owns a ha hrun := hrun ▸ h.owns_iff hfair ha
  holds a ha _ hholds := (h.owns_iff hfair ha).mpr (h.holds a ha hholds)
  exclusive a ha b hb hrun hrun' hown hown' := by
    rw [h.owns_iff hfair ha, hrun] at hown
    rw [h.owns_iff hfair hb, hrun', hown] at hown'
    exact h.eq_of_ticket hs ha hb (Option.some_injective _ hown')

/-- Nobody is stranded: the first in a queue holds the lock as soon as it is polled. -/
lemma exists_holds_poll (h : Follows queue t s) (hfair : Mutex.Fair queue) (hs : s.Sound)
    {run : RunId} {ticket : Nat} (hhead : (s.queue run).head? = some ticket) :
    ∃ a ∈ (t.poll ticket).acquisitions, a.ticket = ticket ∧ a.run = run ∧ a.holds := by
  have hline := Arrivals.mem_queue.mp (List.mem_of_mem_head? (Option.mem_def.mpr hhead))
  obtain ⟨a, ha, rfl, rfl⟩ := h.exists_acquisition (hs.created _ hline)
  obtain ⟨lock, hlock, howner⟩ := (h.owns_iff hfair ha).mpr hhead
  simp only [RunLocks.poll, h.find?_eq_some hs ha, hlock, RunLocks.settle, howner, if_true]
  refine ⟨{ a with holds := true }, ?_, rfl, rfl, rfl⟩
  exact List.mem_map.mpr ⟨a, ha, if_pos rfl⟩

end Follows

/-- Whatever the events were, a run is served in the order of first polls. What may happen next
keeps that: the first in the queue holds the lock once it is polled, a first poll adds an
acquisition to the end, one that is dropped leaves its place to those behind it, wherever it was,
and nothing that happens to other runs matters. -/
theorem serves_in_order (hfair : Mutex.Fair queue) (hash : RunId → Nat) (shards : Nat)
    (events : List LockEvent) (run : RunId) :
    let t := (ofHash hash shards : RunLocks M).after events
    let s := Arrivals.after events
    t.Serves run (s.queue run) ∧
      (∀ ticket, (s.queue run).head? = some ticket →
        ∃ a ∈ (t.poll ticket).acquisitions, a.ticket = ticket ∧ a.run = run ∧ a.holds) ∧
      (∀ a ∈ t.acquisitions, a.run = run → a.lock = none →
        (t.poll a.ticket).Serves run (s.queue run ++ [a.ticket])) ∧
      (∀ ticket, (t.drop ticket).Serves run ((s.queue run).erase ticket)) ∧
      ∀ e, s.target? e ≠ some run → (t.step e).Serves run (s.queue run) := by
  intro t s
  have hs : s.Sound := Arrivals.sound_after events
  have h : Follows queue t s := follows_after hfair hash shards events
  have hnext (e : LockEvent) : (t.step e).Serves run ((s.step e).queue run) :=
    (h.step hfair hs e).serves hfair (hs.step e) run
  refine ⟨h.serves hfair hs run, fun _ hhead => h.exists_holds_poll hfair hs hhead, ?_, ?_, ?_⟩
  · rintro a ha rfl hlock
    have hnew : a.ticket ∉ s.queue a.run := by
      simp [Arrivals.mem_queue, ← h.polled a ha, hlock]
    have hqueue := hs.queue_step_poll (h.mem_created ha) a.run
    rw [if_pos ⟨hnew, rfl⟩] at hqueue
    exact hqueue ▸ hnext (.poll a.ticket)
  · intro ticket
    exact hs.queue_step_drop ticket run ▸ hnext (.drop ticket)
  · intro e hother
    exact hs.queue_step_of_ne hother ▸ hnext e

/-- One shard for two runs. Of the three acquisitions of the first run, the second gives up and the
first lets go, so the third owns the lock without having been polled again. -/
theorem serves_in_order_small :
    let events : List LockEvent := [.create ⟨1⟩, .create ⟨1⟩, .create ⟨1⟩, .create ⟨2⟩,
      .poll 0, .poll 1, .poll 3, .poll 2, .drop 1, .drop 0]
    let t := (ofHash RunId.value 1 : RunLocks FairMutex).after events
    Mutex.Fair FairMutex.queue ∧ (Arrivals.after events).queue ⟨1⟩ = [2] ∧ t.Serves ⟨1⟩ [2] ∧
      ∃ a ∈ (t.poll 2).acquisitions, a.ticket = 2 ∧ a.run = ⟨1⟩ ∧ a.holds := by
  intro events t
  have hqueue : (Arrivals.after events).queue ⟨1⟩ = [2] := by decide
  obtain ⟨hserves, hpoll, -⟩ := serves_in_order FairMutex.fair RunId.value 1 events ⟨1⟩
  rw [hqueue] at hserves hpoll
  exact ⟨FairMutex.fair, hqueue, hserves, hpoll 2 rfl⟩

end PairedTuning.RunLocks
