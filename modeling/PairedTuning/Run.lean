import PairedTuning.Checksum
import PairedTuning.Flip.Packing
import PairedTuning.History
import PairedTuning.Report
import PairedTuning.Run.Id
import PairedTuning.Update.Report

/-!
# Runs

A run has tasks, each played by one worker, and a tuning state that all of them share. A task has at
most one pending perturbation: `issue` replaces it, `consume` takes it away before anything else
about a report is checked. So a report counts once, however often it is sent.
-/

namespace PairedTuning

/-- A perturbation that waits for its report: when it was issued, and its flips. -/
structure Pending where
  iter : Nat
  packed : List UInt8
  deriving DecidableEq, Repr

/-- The part of a run that one worker plays. -/
structure Task where
  active : Bool
  worker : Option String
  pending : Option Pending
  deriving DecidableEq, Repr

structure Run (α : Type) where
  id : RunId
  /-- The number of games planned. -/
  games : Nat
  finished : Bool
  deleted : Bool
  tasks : List Task
  state : TuningState α
  /-- Whether a report has been applied since the run was created. -/
  touched : Bool

namespace Run

variable {α : Type}

/-- A new run without tasks. -/
def create (id : RunId) (games : Nat) (state : TuningState α) : Run α :=
  { id, games, finished := false, deleted := false, tasks := [], state, touched := false }

/-- Whether perturbations are issued and reports accepted. -/
def isAlive (r : Run α) : Bool := !r.finished && !r.deleted

/-- Add a task for a worker. Its number is the number of tasks before it. -/
def addTask (r : Run α) (worker : String) : Run α :=
  { r with tasks := r.tasks ++ [⟨true, some worker, none⟩] }

def modifyTask (r : Run α) (task : Nat) (f : Task → Task) : Run α :=
  { r with tasks := r.tasks.modify task f }

def setPending (r : Run α) (task : Nat) (pending : Option Pending) : Run α :=
  r.modifyTask task fun t => { t with pending }

/-- End a run: no task stays active and none keeps a perturbation. -/
def finish (r : Run α) : Run α :=
  { r with
    finished := true
    tasks := r.tasks.map fun t => { t with active := false, pending := none } }

variable [Scalar α]

/-- Issue a perturbation to a task, with `draw i` the flip of parameter `i`. It replaces the pending
one and does not advance the counter. -/
def issue (r : Run α) (task : Nat) (draw : Nat → Flip) :
    Except Refusal (Run α × Perturbation α × UInt32) :=
  if !r.isAlive then .error .runFinished
  else
    match r.tasks[task]? with
    | none => .error .taskNotFound
    | some t =>
      if !t.active then .error .taskNotActive
      else
        match r.state.perturb? r.state.iter draw with
        | none => .error .crossedBounds
        | some p =>
          let packed := Flip.pack p.flips
          .ok (r.setPending task (some ⟨r.state.iter, packed⟩), p, Checksum.ofBytes packed)

/-- Verify a report against the perturbation that was issued, and fold it in. -/
def fold (r : Run α) (issued : Pending) (report : Report) : Run α × Outcome :=
  let expected := Checksum.ofBytes issued.packed
  let received := report.signature.getD 0
  if expected ≠ received then (r, .signatureMismatch expected received)
  else if report.pairs = 0 then (r, .emptyBatch)
  else
    let nudges := r.state.contexts issued.iter (Flip.unpack issued.packed r.state.params.length)
    match r.state.fold? nudges issued.iter report.pairs report.signedResult with
    | none => (r, .crossedBounds)
    | some (state, display) =>
      let (state, _) := state.record r.games nudges display
      ({ r with state, touched := true }, .applied state.iter)

/-- Take the pending perturbation of a task and answer its report. The run that is returned has to
be stored whatever the outcome, since the perturbation is gone; an error leaves nothing to store. -/
def consume (r : Run α) (task : Nat) (report : Report) : Except Outcome (Run α × Outcome) :=
  if !r.isAlive then .error .runFinished
  else
    match r.tasks[task]? with
    | none => .error .taskNotFound
    | some t =>
      match t.pending with
      | none => .error .noPendingPerturbation
      | some issued =>
        match (r.setPending task none).fold issued report with
        | (_, .crossedBounds) => .error .crossedBounds
        | answer => .ok answer

end Run

end PairedTuning
