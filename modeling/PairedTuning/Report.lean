import PairedTuning.Perturbation

/-!
# Reports and answers

What a worker sends for a batch of game pairs, what it is sent for its requests, and what became of
a report.
-/

namespace PairedTuning

/-- The result of a batch of game pairs. -/
structure Report where
  wins : Nat
  losses : Nat
  draws : Nat
  /-- The number of games played, two for each pair. -/
  games : Nat
  /-- The checksum of the flips that were played. -/
  signature : Option UInt32
  deriving DecidableEq, Repr

namespace Report

/-- The number of complete pairs in the batch. -/
def pairs (r : Report) : Nat := r.games / 2

def signedResult {α : Type} [Scalar α] (r : Report) : α :=
  Scalar.ofNat r.wins - Scalar.ofNat r.losses

end Report

/-- The answer to a request as it is sent. -/
structure Response (α : Type) where
  taskAlive : Bool
  /-- Why the task is gone. -/
  info : Option String
  white : List (WhiteParam α)
  black : List (BlackParam α)
  signature : Option UInt32

/-- Why a request gets no perturbation. -/
inductive Refusal where
  | notPrimary
  | runNotFound
  /-- The store could not be read or written. -/
  | runUnavailable
  | runFinished
  | taskNotActive
  | taskNotFound
  /-- Some parameter's bounds hold no value. -/
  | crossedBounds
  deriving DecidableEq, Repr

/-- The reason as it is told to a worker. -/
def Refusal.info : Refusal → String
  | notPrimary => "not the primary instance"
  | runNotFound => "run not found"
  | runUnavailable => "run unavailable"
  | runFinished => "run finished"
  | taskNotActive => "task not active"
  | taskNotFound => "task not found"
  | crossedBounds => "crossed bounds"

/-- The answer to a request. -/
inductive IssueAnswer (α : Type) where
  | issued (perturbation : Perturbation α) (signature : UInt32)
  | refused (reason : Refusal)

/-- The form in which an answer is sent. -/
def IssueAnswer.toResponse {α : Type} : IssueAnswer α → Response α
  | issued p signature => ⟨true, none, p.white, p.black, some signature⟩
  | refused reason => ⟨false, some reason.info, [], [], none⟩

/-- What became of a report. Only `applied` has moved the parameters. -/
inductive Outcome where
  /-- The report was folded in; the counter after it. -/
  | applied (iteration : Nat)
  | noPendingPerturbation
  | signatureMismatch (expected received : UInt32)
  /-- The batch has no complete pair. -/
  | emptyBatch
  | runNotFound
  | taskNotFound
  | runFinished
  | notPrimary
  | storageFailure
  /-- Some parameter's bounds hold no value. -/
  | crossedBounds
  deriving DecidableEq, Repr

namespace Outcome

def name : Outcome → String
  | applied _ => "applied"
  | noPendingPerturbation => "no_pending_perturbation"
  | signatureMismatch _ _ => "signature_mismatch"
  | emptyBatch => "empty_batch"
  | runNotFound => "run_not_found"
  | taskNotFound => "task_not_found"
  | runFinished => "run_finished"
  | notPrimary => "not_primary"
  | storageFailure => "storage_failure"
  | crossedBounds => "crossed_bounds"

def isApplied : Outcome → Bool
  | applied _ => true
  | _ => false

end Outcome

end PairedTuning
