import Mathlib
import PairedTuning.Proofs.Coordinator.Trace

/-!
# A run is the fold of its applied reports

A `Ledger` follows a run by the calls and their answers alone: it notes the moves that each task was
sent last with the counter of that moment, and folds a report that is applied for exactly these.
However the calls of the tasks are mixed, the tuning state in the store is that of the ledger. The
counter in it is exact as long as it does not pass its bound.

The moves are not stored with the run. They can be rebuilt because no report changes what they
depend on, and this is what `Ledger.Follows` carries from step to step.
-/

namespace PairedTuning

variable {α : Type} [Scalar α]

/-! ### Ledgers -/

/-- The tuning state of a run as its calls and their answers tell it. -/
structure Ledger (α : Type) where
  state : TuningState α
  /-- For each task, the counter at its latest perturbation and the moves that it was sent. -/
  latest : Nat → Option (Nat × List (Nudge α))

namespace Ledger

/-- The ledger of a run before any call. -/
def start (state : TuningState α) : Ledger α := ⟨state, fun _ => none⟩

/-- Enter a call about the run `id`. There is no entry for an applied report of a task that has
never been issued a perturbation. -/
def enter (id : RunId) (games : Nat) (l : Ledger α) (e : Entry (Store α) α) : Option (Ledger α) :=
  match e.call, e.answer with
  | .request _ run task _, .request (.issued p _) =>
    if run = id then
      some { l with latest := Function.update l.latest task (some (l.state.iter, p.nudges)) }
    else some l
  | .report _ run task report, .report (.applied _) =>
    if run = id then
      (l.latest task).map fun (issued, nudges) =>
        { l with state := l.state.apply games nudges issued report.pairs report.signedResult }
    else some l
  | _, _ => some l

/-- Enter all calls of a trace. -/
def replay (id : RunId) (games : Nat) (l : Ledger α) (H : List (Entry (Store α) α)) :
    Option (Ledger α) :=
  H.foldlM (enter id games) l

end Ledger

/-! ### The invariant -/

namespace Ledger

/-- The ledger and the run agree: every pending perturbation of the run stands for the moves that
its task was sent last. -/
structure Follows (l : Ledger α) (r : Run α) : Prop where
  state : r.state = l.state
  pending : ∀ task issued, r.pending? task = some issued →
    l.latest task = some (issued.iter,
      r.state.contexts issued.iter (Flip.unpack issued.packed r.state.params.length))

lemma enter_of_not_touches {id : RunId} {games : Nat} {l : Ledger α} {e : Entry (Store α) α}
    (h : ∀ task, e.touches id task = false) : l.enter id games e = some l := by
  obtain ⟨before, call, answer⟩ := e
  cases call with
  | request primary run task draw =>
    cases answer with
    | request answer =>
      cases answer with
      | issued p signature =>
        have hrun : run ≠ id := by
          rintro rfl
          simpa [Entry.touches, Entry.issues] using h task
        simp [enter, hrun]
      | refused => rfl
    | report => rfl
    | state => rfl
  | report primary run task report =>
    cases answer with
    | report outcome =>
      cases outcome with
      | applied k =>
        have hrun : run ≠ id := by
          rintro rfl
          simpa [Entry.touches, Entry.consumes, Outcome.consumes] using h task
        simp [enter, hrun]
      | _ => rfl
    | request => rfl
    | state => rfl
  | state run => rfl

namespace Follows

variable {id : RunId} {l : Ledger α} {r r' : Run α} {e : Entry (Store α) α}

lemma setPending_none (h : l.Follows r) (task : Nat) : l.Follows (r.setPending task none) where
  state := h.state
  pending other issued hpending := by
    obtain ⟨-, hnone⟩ | ⟨-, hslot⟩ := Run.pending?_of_setPending hpending
    · cases hnone
    · exact h.pending other issued hslot

lemma issued (h : l.Follows r) {task : Nat} {draw : Nat → Flip} {p : Perturbation α}
    {signature : UInt32} (hissue : r.issue task draw = .ok (r', p, signature)) :
    Follows { l with latest := Function.update l.latest task (some (l.state.iter, p.nudges)) }
      r' := by
  obtain ⟨-, -, -, rfl, -, rfl⟩ := Run.issue_eq_ok_iff.mp hissue
  refine ⟨h.state, fun other issued hpending => ?_⟩
  obtain ⟨rfl, hissued⟩ | ⟨hother, hslot⟩ := Run.pending?_of_setPending hpending
  · cases hissued
    simp [h.state, ← TuningState.contexts_unpack_pack]
  · simpa [Function.update_of_ne hother] using h.pending other issued hslot

/-- What the task was sent last can be rebuilt, so the run folds its report for just these moves.
The other tasks are not affected, since a report changes nothing that their moves depend on. -/
lemma applied (h : l.Follows r) {task : Nat} {issued : Pending}
    (hslot : r.pending? task = some issued) (report : Report) :
    ∃ nudges, l.latest task = some (issued.iter, nudges) ∧
      Follows { l with
          state := l.state.apply r.games nudges issued.iter report.pairs report.signedResult }
        (r.applyReport task issued report) := by
  refine ⟨_, h.pending task issued hslot, by rw [← h.state]; rfl, fun other issued' hpending => ?_⟩
  have hsetup := TuningState.sameSetup_apply r.state r.games
    (r.state.contexts issued.iter (Flip.unpack issued.packed r.state.params.length)) issued.iter
    report.pairs (report.signedResult (α := α))
  have hother := (h.setPending_none task).pending other issued' hpending
  rw [Run.applyReport, hsetup.contexts_eq, hsetup.length_eq]
  exact hother

/-- The ledger keeps following the run, whatever the next call. -/
lemma step (h : l.Follows r) (hstep : RunStep id r e r') :
    ∃ l', l.enter id r.games e = some l' ∧ l'.Follows r' := by
  cases hstep with
  | idle hidle => exact ⟨l, enter_of_not_touches hidle, h⟩
  | issued hissue => exact ⟨_, by simp [enter], h.issued hissue⟩
  | @consumed _ task report _ _ _ hconsumed =>
    cases hconsumed with
    | mismatch => exact ⟨l, rfl, h.setPending_none task⟩
    | empty => exact ⟨l, rfl, h.setPending_none task⟩
    | applied hslot =>
      obtain ⟨nudges, hlatest, hfollows⟩ := h.applied hslot report
      exact ⟨_, by simp [enter, hlatest], hfollows⟩

end Follows

end Ledger

/-! ### Whole runs -/

/-- What the calls of a trace have made of a run. -/
structure Replayed (id : RunId) (r : Run α) (H : List (Entry (Store α) α)) (r' : Run α) : Prop where
  /-- The tuning state is the fold of the applied reports, each with the moves and the counter of
  the latest perturbation that its task was issued. -/
  state : ∃ l, (Ledger.start r.state).replay id r.games H = some l ∧ l.state = r'.state
  /-- The counter shows what it showed at the start with the pairs of the applied reports added:
  exactly that number if it is below the bound of counters. -/
  iter : Scalar.Counts α (r.state.iter + appliedPairs id H) r'.state.iter
  /-- Every applied report is answered with the counter up to and including its own pairs. -/
  iteration : ∀ pre e post primary task report k, H = pre ++ e :: post →
    e.call = .report primary id task report → e.answer = .report (.applied k) →
    Scalar.Counts α (r.state.iter + appliedPairs id (pre ++ [e])) k

/-- What every step of a run keeps: a ledger follows it, and counts its pairs. -/
structure Accounted (id : RunId) (r : Run α) (H : List (Entry (Store α) α)) (r' : Run α) :
    Prop where
  games : r'.games = r.games
  ledger : ∃ l, (Ledger.start r.state).replay id r.games H = some l ∧ l.Follows r'
  iter : Scalar.Counts α (r.state.iter + appliedPairs id H) r'.state.iter

namespace Accounted

variable {id : RunId} {r : Run α}

lemma start (hslots : ∀ t ∈ r.tasks, t.pending = none) : Accounted id r [] r where
  games := rfl
  ledger := by
    refine ⟨Ledger.start r.state, rfl, rfl, fun task issued hpending => ?_⟩
    cases (Run.pending?_eq_none hslots task).symm.trans hpending
  iter := .refl _

lemma step {H : List (Entry (Store α) α)} {e : Entry (Store α) α} {r₁ r₂ : Run α}
    (h : Accounted id r H r₁) (hstep : RunStep id r₁ e r₂) : Accounted id r (H ++ [e]) r₂ where
  games := hstep.games_eq.trans h.games
  ledger := by
    obtain ⟨l, hreplay, hfollows⟩ := h.ledger
    obtain ⟨l', henter, hfollows'⟩ := hfollows.step hstep
    rw [h.games] at henter
    refine ⟨l', ?_, hfollows'⟩
    rw [Ledger.replay] at hreplay ⊢
    simp [List.foldlM_append, hreplay, henter]
  iter := hstep.counts h.iter

end Accounted

namespace Coordinator

/-- However its calls are mixed with others, the tuning state of a run that starts without pending
perturbations is the fold of its applied reports. -/
theorem run_eq_replay {s : Store α} (hs : s.Filed) {id : RunId} {r : Run α}
    (hget : s.runs.get? id = some r) (hslots : ∀ t ∈ r.tasks, t.pending = none)
    (calls : List Call) :
    ∃ r', (after Store.repository s calls).runs.get? id = some r' ∧
      Replayed id r (trace Store.repository s calls) r' := by
  obtain ⟨r', hget', haccounted⟩ := exists_run_after (Accounted id r)
    (fun h _ hstep => h.step hstep) hs hget (.start hslots) calls
  obtain ⟨l, hreplay, hfollows⟩ := haccounted.ledger
  refine ⟨r', hget', ⟨l, hreplay, hfollows.state.symm⟩, haccounted.iter, ?_⟩
  intro pre e post primary task report k htrace hcall hanswer
  obtain ⟨r₁, r₂, h₁, -, hstep, -⟩ := exists_runStep_of_trace (Accounted id r)
    (fun h _ hstep => h.step hstep) hs hget (.start hslots) htrace
  rw [hstep.applied_eq hcall hanswer, appliedPairs_append_singleton, ← Nat.add_assoc]
  exact h₁.iter.add _

theorem run_eq_replay_twoBatches :
    Store.small.Filed ∧ Store.small.runs.get? ⟨1⟩ = some Run.small ∧
      (∀ t ∈ Run.small.tasks, t.pending = none) ∧
      ∃ r', (after Store.repository Store.small twoBatches).runs.get? ⟨1⟩ = some r' ∧
        Replayed ⟨1⟩ Run.small (trace Store.repository Store.small twoBatches) r' :=
  ⟨Store.filed_small, Store.get?_small, Run.pending_small,
    run_eq_replay Store.filed_small Store.get?_small Run.pending_small twoBatches⟩

end Coordinator

end PairedTuning
