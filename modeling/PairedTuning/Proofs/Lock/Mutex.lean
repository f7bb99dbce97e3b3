import Mathlib
import PairedTuning.Lock.Mutex

/-!
# First come, first served

All that the table of locks relies on: a mutex keeps the tickets that have arrived in a queue. The
first of them owns it, so one that leaves makes room for the next, whether it was the owner or not.
-/

namespace PairedTuning

/-- The mutex keeps its tickets in a queue. -/
structure Mutex.Fair {M : Type} [Mutex M] (queue : M → List Nat) : Prop where
  free : queue Mutex.free = []
  arrive : ∀ m ticket, queue (Mutex.arrive m ticket) = queue m ++ [ticket]
  leave : ∀ m ticket, queue (Mutex.leave m ticket) = (queue m).erase ticket
  owner? : ∀ m, Mutex.owner? m = (queue m).head?

namespace FairMutex

/-- The owner and behind it all that wait. -/
def queue (m : FairMutex) : List Nat := m.owner.toList ++ m.waiting

lemma queue_arrive (m : FairMutex) (ticket : Nat) :
    (m.arrive ticket).queue = m.queue ++ [ticket] := by
  obtain ⟨_ | owner, waiting, hidle⟩ := m
  · simp [queue, arrive, hidle rfl]
  · simp [queue, arrive]

lemma queue_leave (m : FairMutex) (ticket : Nat) :
    (m.leave ticket).queue = m.queue.erase ticket := by
  obtain ⟨_ | owner, waiting, hidle⟩ := m
  · simp [queue, leave, hidle rfl]
  · by_cases howner : owner = ticket
    · subst howner
      cases waiting <;> simp [queue, leave]
    · simp [queue, leave, howner]

lemma owner_eq_head? (m : FairMutex) : m.owner = m.queue.head? := by
  obtain ⟨_ | owner, waiting, hidle⟩ := m
  · simp [queue, hidle rfl]
  · simp [queue]

lemma fair : Mutex.Fair queue := ⟨rfl, queue_arrive, queue_leave, owner_eq_head?⟩

end FairMutex

end PairedTuning
