import Mathlib
import PairedTuning.Run
import PairedTuning.Proofs.Perturbation

/-!
# Issuing and consuming perturbations

What a run looks like after it has issued a perturbation, and after it has consumed one. `Consumed`
has one case for each outcome that uses a perturbation up; every other outcome is an error, and then
there is no new run at all.
-/

namespace PairedTuning

variable {α : Type}

/-- Whether a report with this outcome has used up the perturbation of its task. -/
def Outcome.consumes : Outcome → Bool
  | applied _ => true
  | noPendingPerturbation => false
  | signatureMismatch _ _ => true
  | emptyBatch => true
  | runNotFound => false
  | taskNotFound => false
  | runFinished => false
  | notPrimary => false
  | storageFailure => false
  | crossedBounds => false

namespace Run

/-! ### Slots -/

/-- The pending perturbation of a task. -/
def pending? (r : Run α) (task : Nat) : Option Pending := r.tasks[task]?.bind (·.pending)

@[simp] lemma setPending_state (r : Run α) (task : Nat) (pending : Option Pending) :
    (r.setPending task pending).state = r.state := rfl

@[simp] lemma length_tasks_setPending (r : Run α) (task : Nat) (pending : Option Pending) :
    (r.setPending task pending).tasks.length = r.tasks.length := by
  simp [setPending, modifyTask]

lemma pending?_eq_some_iff {r : Run α} {task : Nat} {issued : Pending} :
    r.pending? task = some issued ↔ ∃ t, r.tasks[task]? = some t ∧ t.pending = some issued := by
  simp [pending?, Option.bind_eq_some_iff]

lemma lt_length_of_pending? {r : Run α} {task : Nat} {issued : Pending}
    (h : r.pending? task = some issued) : task < r.tasks.length := by
  obtain ⟨t, ht, _⟩ := pending?_eq_some_iff.mp h
  exact (List.getElem?_eq_some_iff.mp ht).1

lemma pending?_eq_none {r : Run α} (h : ∀ t ∈ r.tasks, t.pending = none) (task : Nat) :
    r.pending? task = none := by
  cases ht : r.tasks[task]? with
  | none => simp [pending?, ht]
  | some t => simp [pending?, ht, h t (List.mem_of_getElem? ht)]

lemma pending?_setPending_self {r : Run α} {task : Nat} (h : task < r.tasks.length)
    (pending : Option Pending) : (r.setPending task pending).pending? task = pending := by
  simp [pending?, setPending, modifyTask, h]

lemma pending?_setPending_ne (r : Run α) {task other : Nat} (h : other ≠ task)
    (pending : Option Pending) : (r.setPending task pending).pending? other = r.pending? other := by
  simp [pending?, setPending, modifyTask, Ne.symm h]

/-- What is pending once a slot was set was put there, or was pending in another slot before. -/
lemma pending?_of_setPending {r : Run α} {task other : Nat} {pending : Option Pending}
    {issued : Pending} (h : (r.setPending task pending).pending? other = some issued) :
    other = task ∧ pending = some issued ∨ other ≠ task ∧ r.pending? other = some issued := by
  by_cases hother : other = task
  · subst hother
    have hlt : other < r.tasks.length := by simpa using lt_length_of_pending? h
    exact .inl ⟨rfl, (pending?_setPending_self hlt pending).symm.trans h⟩
  · exact .inr ⟨hother, (pending?_setPending_ne r hother pending).symm.trans h⟩

variable [Scalar α]

/-! ### Issuing -/

/-- A perturbation is issued to an active task of a live run whose bounds all make sense; the run
keeps its counter and its flips. -/
lemma issue_eq_ok_iff {r r' : Run α} {task : Nat} {draw : Nat → Flip} {p : Perturbation α}
    {signature : UInt32} :
    r.issue task draw = .ok (r', p, signature) ↔
      r.isAlive ∧ (∃ t, r.tasks[task]? = some t ∧ t.active) ∧ r.state.hasRanges ∧
        p = r.state.perturb r.state.iter draw ∧ signature = Checksum.ofBytes (Flip.pack p.flips) ∧
        r' = r.setPending task (some ⟨r.state.iter, Flip.pack p.flips⟩) := by
  unfold issue
  cases halive : r.isAlive with
  | false => simp
  | true =>
    cases ht : r.tasks[task]? with
    | none => simp
    | some t =>
      cases hactive : t.active with
      | false => simp [hactive]
      | true =>
        cases hranges : r.state.hasRanges with
        | false => simp [hactive, TuningState.perturb?, hranges]
        | true =>
          simp only [Bool.not_true, Bool.false_eq_true, if_false, hactive, TuningState.perturb?,
            hranges, if_true, Except.ok.injEq, Prod.mk.injEq, Option.some.injEq, exists_eq_left',
            true_and]
          constructor
          · rintro ⟨rfl, rfl, rfl⟩
            exact ⟨rfl, rfl, rfl⟩
          · rintro ⟨rfl, rfl, rfl⟩
            exact ⟨rfl, rfl, rfl⟩

/-! ### Consuming -/

/-- The run after a report for the perturbation that a task was issued has been folded in. -/
def applyReport (r : Run α) (task : Nat) (issued : Pending) (report : Report) : Run α :=
  { r.setPending task none with
    state := r.state.apply r.games
      (r.state.contexts issued.iter (Flip.unpack issued.packed r.state.params.length))
      issued.iter report.pairs report.signedResult
    touched := true }

/-- How a run answers a report and takes the perturbation of the task away. -/
inductive Consumed (r : Run α) (task : Nat) (report : Report) : Run α → Outcome → Prop where
  | mismatch {issued : Pending} (hslot : r.pending? task = some issued)
      (hsig : Checksum.ofBytes issued.packed ≠ report.signature.getD 0) :
      Consumed r task report (r.setPending task none)
        (.signatureMismatch (Checksum.ofBytes issued.packed) (report.signature.getD 0))
  | empty {issued : Pending} (hslot : r.pending? task = some issued)
      (hsig : Checksum.ofBytes issued.packed = report.signature.getD 0)
      (hpairs : report.pairs = 0) :
      Consumed r task report (r.setPending task none) .emptyBatch
  | applied {issued : Pending} (hslot : r.pending? task = some issued)
      (hsig : Checksum.ofBytes issued.packed = report.signature.getD 0)
      (hpairs : report.pairs ≠ 0) :
      Consumed r task report (r.applyReport task issued report)
        (.applied (Scalar.count α (r.state.iter + report.pairs)))

lemma fold_of_mismatch {r : Run α} {issued : Pending} {report : Report}
    (hsig : Checksum.ofBytes issued.packed ≠ report.signature.getD 0) :
    r.fold issued report = (r, .signatureMismatch (Checksum.ofBytes issued.packed)
      (report.signature.getD 0)) := by
  simp [fold, hsig]

lemma fold_of_empty {r : Run α} {issued : Pending} {report : Report}
    (hsig : Checksum.ofBytes issued.packed = report.signature.getD 0) (hpairs : report.pairs = 0) :
    r.fold issued report = (r, .emptyBatch) := by
  simp [fold, hsig, hpairs]

/-- A report with pairs is folded in, unless that meets bounds that hold no value. -/
lemma fold_of_pairs {r : Run α} {issued : Pending} {report : Report}
    (hsig : Checksum.ofBytes issued.packed = report.signature.getD 0) (hpairs : report.pairs ≠ 0) :
    r.fold issued report = (r, .crossedBounds) ∨
      r.fold issued report =
        ({ r with
            state := r.state.apply r.games
              (r.state.contexts issued.iter (Flip.unpack issued.packed r.state.params.length))
              issued.iter report.pairs report.signedResult
            touched := true },
          .applied (Scalar.count α (r.state.iter + report.pairs))) := by
  simp only [fold, hsig, ne_eq, not_true_eq_false, if_false, hpairs, TuningState.fold?]
  split_ifs with hcan
  · right
    rw [← TuningState.apply_iter_of_ne_zero _ _ _ _ hpairs]
    rfl
  · left
    rfl

/-- An answered report has found a live run, and is one of the cases of `Consumed`. -/
lemma Consumed.of_consume {r r' : Run α} {task : Nat} {report : Report} {outcome : Outcome}
    (h : r.consume task report = .ok (r', outcome)) :
    r.isAlive ∧ Consumed r task report r' outcome := by
  unfold consume at h
  cases halive : r.isAlive with
  | false => simp [halive] at h
  | true =>
    cases ht : r.tasks[task]? with
    | none => simp [halive, ht] at h
    | some t =>
      cases hp : t.pending with
      | none => simp [halive, ht, hp] at h
      | some issued =>
        have hslot : r.pending? task = some issued := pending?_eq_some_iff.mpr ⟨t, ht, hp⟩
        simp only [halive, ht, hp, Bool.not_true, Bool.false_eq_true, if_false] at h
        refine ⟨rfl, ?_⟩
        by_cases hsig : Checksum.ofBytes issued.packed = report.signature.getD 0
        · by_cases hpairs : report.pairs = 0
          · rw [fold_of_empty hsig hpairs] at h
            cases h
            exact .empty hslot hsig hpairs
          · rcases fold_of_pairs (r := r.setPending task none) hsig hpairs with hfold | hfold
            · rw [hfold] at h
              cases h
            · rw [hfold] at h
              cases h
              exact .applied hslot hsig hpairs
        · rw [fold_of_mismatch hsig] at h
          cases h
          exact .mismatch hslot hsig

/-- A report that is refused has used nothing up. -/
lemma consumes_of_consume_error {r : Run α} {task : Nat} {report : Report} {outcome : Outcome}
    (h : r.consume task report = .error outcome) : outcome.consumes = false := by
  unfold consume at h
  split at h
  · cases h; rfl
  · split at h
    · cases h; rfl
    · split at h
      · cases h; rfl
      · split at h
        · cases h; rfl
        · cases h

lemma consume_of_pending?_none {r : Run α} {task : Nat} {report : Report} (halive : r.isAlive)
    (htask : task < r.tasks.length) (hslot : r.pending? task = none) :
    r.consume task report = .error .noPendingPerturbation := by
  have ht : r.tasks[task]? = some r.tasks[task] := List.getElem?_eq_getElem htask
  have hp : r.tasks[task].pending = none := by simpa [pending?, ht] using hslot
  simp [consume, halive, ht, hp]

namespace Consumed

variable {r r' : Run α} {task : Nat} {report : Report} {outcome : Outcome}

lemma consumes (h : Consumed r task report r' outcome) : outcome.consumes := by
  cases h <;> rfl

lemma exists_pending (h : Consumed r task report r' outcome) :
    ∃ issued, r.pending? task = some issued := by
  cases h with
  | mismatch hslot => exact ⟨_, hslot⟩
  | empty hslot => exact ⟨_, hslot⟩
  | applied hslot => exact ⟨_, hslot⟩

/-- Whatever the outcome, the tasks are those before with the slot emptied. -/
lemma tasks_eq (h : Consumed r task report r' outcome) :
    r'.tasks = (r.setPending task none).tasks := by
  cases h <;> rfl

end Consumed

end Run

end PairedTuning
