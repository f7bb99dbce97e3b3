import PairedTuning.Lock.Mutex
import PairedTuning.Run.Table

/-!
# Run locks

Whoever changes a run holds its lock. An acquisition is created, then polled until it holds the
lock, and dropped in the end, at whatever stage it is. The locks are spread over shards; which shard
a run belongs to depends on nothing but the run.

A lock comes into being with the first poll of an acquisition and is forgotten when nobody uses it
any more: the shard's entry of a run is erased when a holder lets go and leaves no user, and entries
whose users all gave up waiting are swept out when a new lock is made in that shard. An entry does
not keep its lock in being, so one that is left over leads nowhere.

Who owns a lock is the business of its mutex. An acquisition arrives there with its first poll and
leaves when it is dropped, so a lock that is let go passes on at once, and an acquisition that gives
up its place delays nobody.
-/

namespace PairedTuning

/-- One attempt to hold the lock of a run. -/
structure Acquisition where
  ticket : Nat
  run : RunId
  /-- The lock it uses, from its first poll on. -/
  lock : Option Nat
  /-- Whether it has been polled while it owned the lock. -/
  holds : Bool
  deriving DecidableEq, Repr

/-- The locks of all runs. A lock is a number, under which its mutex is found. -/
structure RunLocks (M : Type) where
  /-- What decides on the shard of a run. -/
  hash : RunId → Nat
  /-- For every shard, the locks of its runs. -/
  shards : List (RunTable Nat)
  /-- The mutexes of all locks that were ever made. -/
  mutexes : List M
  /-- Every acquisition that has not been dropped, by creation. -/
  acquisitions : List Acquisition
  nextTicket : Nat

/-- The least power of two that is not below a number. -/
def ceilPowerOfTwo (n : Nat) : Nat := if n ≤ 1 then 1 else 2 <<< (n - 1).log2

theorem exists_ceilPowerOfTwo_eq (n : Nat) : ∃ k, ceilPowerOfTwo n = 1 <<< k := by
  unfold ceilPowerOfTwo
  split
  · exact ⟨0, rfl⟩
  · refine ⟨(n - 1).log2 + 1, ?_⟩
    rw [Nat.shiftLeft_eq, Nat.shiftLeft_eq, Nat.pow_succ, Nat.one_mul, Nat.mul_comm]

inductive LockEvent where
  | create (run : RunId)
  | poll (ticket : Nat)
  | drop (ticket : Nat)
  deriving DecidableEq, Repr

namespace RunLocks

variable {M : Type}

/-- A table without locks, over at least `shards` shards: the next power of two. -/
def ofHash (hash : RunId → Nat) (shards : Nat) : RunLocks M :=
  { hash
    shards := List.replicate (ceilPowerOfTwo (max 1 shards)) .empty
    mutexes := []
    acquisitions := []
    nextTicket := 0 }

/-- The shard that a run belongs to. -/
def shardOf (t : RunLocks M) (run : RunId) : Nat := t.hash run % t.shards.length

/-- The lock that a shard has for a run, used or not. -/
def lockOf? (t : RunLocks M) (run : RunId) : Option Nat :=
  (t.shards[t.shardOf run]?).bind (·.get? run)

/-- Whether somebody uses a lock. -/
def inUse (t : RunLocks M) (lock : Nat) : Bool := t.acquisitions.any (·.lock == some lock)

def find? (t : RunLocks M) (ticket : Nat) : Option Acquisition :=
  t.acquisitions.find? (·.ticket == ticket)

/-- Change the shard of a run. -/
def modifyShard (t : RunLocks M) (run : RunId) (f : RunTable Nat → RunTable Nat) : RunLocks M :=
  { t with shards := t.shards.modify (t.shardOf run) f }

/-- Change the mutex of a lock. -/
def modifyMutex (t : RunLocks M) (lock : Nat) (f : M → M) : RunLocks M :=
  { t with mutexes := t.mutexes.modify lock f }

/-- Change an acquisition. -/
def update (t : RunLocks M) (ticket : Nat) (f : Acquisition → Acquisition) : RunLocks M :=
  { t with
    acquisitions := t.acquisitions.map fun a => if a.ticket = ticket then f a else a }

/-- Create an acquisition for a run. Nothing else happens before its first poll. -/
def create (t : RunLocks M) (run : RunId) : RunLocks M :=
  { t with
    acquisitions := t.acquisitions ++ [⟨t.nextTicket, run, none, false⟩]
    nextTicket := t.nextTicket + 1 }

/-- Erase the entry of a run whose lock nobody uses. -/
def tidy (t : RunLocks M) (run : RunId) : RunLocks M :=
  match t.lockOf? run with
  | some lock => if t.inUse lock then t else t.modifyShard run (·.erase run)
  | none => t

variable [Mutex M]

/-- The ticket that owns a lock. -/
def owner? (t : RunLocks M) (lock : Nat) : Option Nat := (t.mutexes[lock]?).bind Mutex.owner?

/-- Make a new lock for a run. The entries of the shard whose locks nobody uses are swept out. -/
def makeLock (t : RunLocks M) (run : RunId) : RunLocks M :=
  let lock := t.mutexes.length
  { t.modifyShard run fun shard => (shard.filter fun _ lock => t.inUse lock).insert run lock with
    mutexes := t.mutexes ++ [Mutex.free] }

/-- The lock to use for a run: the one in the table if somebody uses it, else a new one. -/
def lockFor (t : RunLocks M) (run : RunId) : Nat × RunLocks M :=
  match t.lockOf? run with
  | some lock => if t.inUse lock then (lock, t) else (t.mutexes.length, t.makeLock run)
  | none => (t.mutexes.length, t.makeLock run)

/-- Let a ticket notice that it owns its lock. -/
def settle (t : RunLocks M) (ticket lock : Nat) : RunLocks M :=
  if t.owner? lock = some ticket then t.update ticket fun a => { a with holds := true } else t

/-- Let a ticket ask for a lock. -/
def join (t : RunLocks M) (ticket lock : Nat) : RunLocks M :=
  (t.modifyMutex lock (Mutex.arrive · ticket)).update ticket fun a => { a with lock := some lock }

/-- Take an acquisition out of the table, and away from its mutex. -/
def remove (t : RunLocks M) (a : Acquisition) : RunLocks M :=
  { t with
    mutexes :=
      match a.lock with
      | some lock => t.mutexes.modify lock (Mutex.leave · a.ticket)
      | none => t.mutexes
    acquisitions := t.acquisitions.filter (·.ticket != a.ticket) }

/-- Poll an acquisition. The first poll finds the lock of the run and asks for it. -/
def poll (t : RunLocks M) (ticket : Nat) : RunLocks M :=
  match t.find? ticket with
  | none => t
  | some a =>
    match a.lock with
    | some lock => t.settle ticket lock
    | none =>
      let (lock, t) := t.lockFor a.run
      (t.join ticket lock).settle ticket lock

/-- Drop an acquisition. One that holds the lock lets it go first and tidies up behind itself; one
that waits just gives up its place. -/
def drop (t : RunLocks M) (ticket : Nat) : RunLocks M :=
  match t.find? ticket with
  | none => t
  | some a => if a.holds then (t.remove a).tidy a.run else t.remove a

def step (t : RunLocks M) : LockEvent → RunLocks M
  | .create run => t.create run
  | .poll ticket => t.poll ticket
  | .drop ticket => t.drop ticket

/-- Poll every acquisition that does not hold its lock, in the order of creation. -/
def pollAll (t : RunLocks M) : RunLocks M :=
  ((t.acquisitions.filter fun a => !a.holds).map (·.ticket)).foldl poll t

/-- The acquisitions that hold their locks. -/
def holders (t : RunLocks M) : List Acquisition := t.acquisitions.filter (·.holds)

/-- The acquisitions that do not hold their locks yet. -/
def waiters (t : RunLocks M) : List Acquisition := t.acquisitions.filter fun a => !a.holds

/-- The number of entries whose locks are in use. -/
def liveLocks (t : RunLocks M) : Nat :=
  (t.shards.flatMap (·.entries)).countP fun (_, lock) => t.inUse lock

end RunLocks

/-- The locks in use: fair ones, spread by the number of a run. -/
abbrev LockTable : Type := RunLocks FairMutex

def LockTable.ofShards (shards : Nat) : LockTable := .ofHash RunId.value shards

end PairedTuning
