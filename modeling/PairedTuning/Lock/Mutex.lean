/-!
# Mutexes

A mutex as its users see it: tickets arrive and leave, and at any time at most one of them owns it.
`FairMutex` is the mutex in use: first come, first served. Whoever arrives at a free mutex owns it
at once, all others wait in a line. An owner that leaves hands the mutex to the first in line, who
then owns it without having to ask again; one that waits may give up its place.
-/

namespace PairedTuning

/-- A mutex, between tickets. -/
class Mutex (M : Type) where
  /-- A mutex without tickets. -/
  free : M
  /-- A ticket asks for the mutex. -/
  arrive : M → Nat → M
  /-- A ticket lets the mutex go, or no longer waits for it. -/
  leave : M → Nat → M
  /-- The ticket that owns the mutex. -/
  owner? : M → Option Nat

/-- A mutex that serves tickets in the order in which they arrive. -/
structure FairMutex where
  owner : Option Nat
  waiting : List Nat
  /-- Nobody waits for a free mutex. -/
  idle : owner = none → waiting = []
  deriving DecidableEq, Repr

namespace FairMutex

def free : FairMutex := ⟨none, [], fun _ => rfl⟩

def arrive (m : FairMutex) (ticket : Nat) : FairMutex :=
  match m.owner with
  | none => ⟨some ticket, [], nofun⟩
  | some owner => ⟨some owner, m.waiting ++ [ticket], nofun⟩

def leave (m : FairMutex) (ticket : Nat) : FairMutex :=
  if m.owner = some ticket then
    ⟨m.waiting.head?, m.waiting.tail, fun h => by rw [List.head?_eq_none_iff.mp h, List.tail_nil]⟩
  else
    ⟨m.owner, m.waiting.erase ticket, fun h => by rw [m.idle h, List.erase_nil]⟩

instance : Mutex FairMutex := ⟨free, arrive, leave, owner⟩

end FairMutex

end PairedTuning
