import PairedTuning.Lock.Table
import PairedTuning.Store.Basic

/-!
# The coordinator

Workers request perturbations and report results; anyone may ask for the state of a run. Only the
primary instance issues and accepts. Each call reads the run, computes, and writes the run back, all
under the lock of the run; a call that is rejected writes nothing.
-/

namespace PairedTuning

/-- A call to the coordinator. -/
inductive Call where
  /-- A request of a task for a perturbation, with the flips it draws. -/
  | request (primary : Bool) (run : RunId) (task : Nat) (draw : Nat → Flip)
  | report (primary : Bool) (run : RunId) (task : Nat) (report : Report)
  | state (run : RunId)

namespace Call

/-- The run that a call is about. -/
def run : Call → RunId
  | request _ run _ _ => run
  | report _ run _ _ => run
  | state run => run

/-- Whether the call takes the lock of its run. What a replica turns away takes none. -/
def takesLock : Call → Bool
  | request primary .. => primary
  | report primary .. => primary
  | state _ => true

end Call

inductive Answer (α : Type) where
  | request (answer : IssueAnswer α)
  | report (outcome : Outcome)
  | state (answer : Except StoreError (Option (TuningState α)))

namespace Coordinator

variable {σ α : Type} [Scalar α]

/-- Issue a perturbation to a task. -/
def request (repo : Repository σ α) (s : σ) (primary : Bool) (run : RunId) (task : Nat)
    (draw : Nat → Flip) : IssueAnswer α × σ :=
  if !primary then (.refused .notPrimary, s)
  else
    match repo.get s run with
    | (.error _, s) => (.refused .runUnavailable, s)
    | (.ok none, s) => (.refused .runNotFound, s)
    | (.ok (some r), s) =>
      match r.issue task draw with
      | .error reason => (.refused reason, s)
      | .ok (r, perturbation, signature) =>
        match repo.buffer s r with
        | (.error _, s) => (.refused .runUnavailable, s)
        | (.ok (), s) => (.issued perturbation signature, s)

/-- Fold the report of a task. -/
def report (repo : Repository σ α) (s : σ) (primary : Bool) (run : RunId) (task : Nat)
    (report : Report) : Outcome × σ :=
  if !primary then (.notPrimary, s)
  else
    match repo.get s run with
    | (.error _, s) => (.storageFailure, s)
    | (.ok none, s) => (.runNotFound, s)
    | (.ok (some r), s) =>
      match r.consume task report with
      | .error outcome => (outcome, s)
      | .ok (r, outcome) =>
        match repo.buffer s r with
        | (.error _, s) => (.storageFailure, s)
        | (.ok (), s) => (outcome, s)

/-- The tuning state of a run. A replica answers as well. -/
def state (repo : Repository σ α) (s : σ) (run : RunId) :
    Except StoreError (Option (TuningState α)) × σ :=
  let (answer, s) := repo.get s run
  (answer.map fun r? => r?.map (·.state), s)

def call (repo : Repository σ α) (s : σ) : Call → Answer α × σ
  | .request primary run task draw =>
    let (answer, s) := request repo s primary run task draw
    (.request answer, s)
  | .report primary run task r =>
    let (outcome, s) := report repo s primary run task r
    (.report outcome, s)
  | .state run =>
    let (answer, s) := state repo s run
    (.state answer, s)

end Coordinator

/-- A repository together with the locks of its runs. -/
structure Session (σ : Type) where
  store : σ
  locks : LockTable

/-- Answer a call under the lock of its run. -/
def Session.call {σ α : Type} [Scalar α] (repo : Repository σ α) (s : Session σ) (c : Call) :
    Answer α × Session σ :=
  if c.takesLock then
    let ticket := s.locks.nextTicket
    let locks := (s.locks.create c.run).poll ticket
    let (answer, store) := Coordinator.call repo s.store c
    (answer, ⟨store, locks.drop ticket⟩)
  else
    let (answer, store) := Coordinator.call repo s.store c
    (answer, { s with store })

end PairedTuning
