import Mathlib
import PairedTuning.Proofs.Coordinator.Trace

/-!
# Rounds

In a round a task is issued a perturbation and reports it under its signature. As long as the run is
alive, the task active and no parameter's bounds are crossed, both calls succeed. The run is then
ready for the next round of any task, so runs of any length can be written down call by call.
-/

namespace PairedTuning

variable {α : Type} [Scalar α]

namespace Run

/-- A live run with an active task, whose bounds admit every report. -/
structure Playing (task : Nat) (r : Run α) : Prop where
  alive : r.isAlive
  active : ∃ t, r.tasks[task]? = some t ∧ t.active
  hasRange : ∀ p ∈ r.state.params, p.hasRange

/-- The perturbation that a task is issued with given flips, as the run keeps it. -/
def pendingOf (r : Run α) (draw : Nat → Flip) : Pending :=
  ⟨r.state.iter, Flip.pack (r.state.perturb r.state.iter draw).flips⟩

/-- A run of one parameter keeps one flip. -/
lemma pendingOf_eq {r : Run α} (h : r.state.params.length = 1) (f : Flip) :
    r.pendingOf (fun _ => f) = ⟨r.state.iter, Flip.pack [f]⟩ := by
  obtain ⟨p, hp⟩ := List.length_eq_one_iff.mp h
  rw [pendingOf, TuningState.flips_perturb, hp]
  rfl

/-- The run after a round of a task. -/
def round (r : Run α) (task : Nat) (draw : Nat → Flip) (report : Report) : Run α :=
  (r.setPending task (some (r.pendingOf draw))).applyReport task (r.pendingOf draw) report

variable {r : Run α} {task : Nat}

namespace Playing

lemma lt_length (h : r.Playing task) : task < r.tasks.length := by
  obtain ⟨t, ht, -⟩ := h.active
  exact (List.getElem?_eq_some_iff.mp ht).1

lemma setPending (h : r.Playing task) (other : Nat) (pending : Option Pending) :
    (r.setPending other pending).Playing task where
  alive := h.alive
  active := by
    obtain ⟨t, ht, hactive⟩ := h.active
    by_cases hother : other = task
    · exact ⟨{ t with pending }, by simp [Run.setPending, modifyTask, ht, hother], hactive⟩
    · exact ⟨t, by simp [Run.setPending, modifyTask, ht, hother], hactive⟩
  hasRange := h.hasRange

lemma applyReport (h : r.Playing task) (other : Nat) (issued : Pending) (report : Report) :
    (r.applyReport other issued report).Playing task where
  alive := h.alive
  active := (h.setPending other none).active
  hasRange := (TuningState.sameSetup_apply ..).hasRange h.hasRange

lemma round (h : r.Playing task) (other : Nat) (draw : Nat → Flip) (report : Report) :
    (r.round other draw report).Playing task :=
  (h.setPending other _).applyReport other _ report

lemma issue_eq (h : r.Playing task) (draw : Nat → Flip) :
    r.issue task draw = .ok (r.setPending task (some (r.pendingOf draw)),
      r.state.perturb r.state.iter draw, Checksum.ofBytes (r.pendingOf draw).packed) :=
  issue_eq_ok_iff.mpr ⟨h.alive, h.active, List.all_eq_true.mpr h.hasRange, rfl, rfl, rfl⟩

/-- A report with pairs is applied if it carries the signature of what is pending. -/
lemma consume_eq (h : r.Playing task) {issued : Pending} {report : Report}
    (hslot : r.pending? task = some issued)
    (hsig : report.signature = some (Checksum.ofBytes issued.packed)) (hpairs : report.pairs ≠ 0) :
    r.consume task report = .ok (r.applyReport task issued report,
      .applied (Scalar.count α (r.state.iter + report.pairs))) := by
  obtain ⟨t, ht, hpending⟩ := pending?_eq_some_iff.mp hslot
  have hsig' : Checksum.ofBytes issued.packed = report.signature.getD 0 := by
    rw [hsig, Option.getD_some]
  have hanswer : (r.setPending task none).fold issued report = (r.applyReport task issued report,
      .applied (Scalar.count α (r.state.iter + report.pairs))) := by
    rcases fold_of_pairs (r := r.setPending task none) hsig' hpairs with hcrossed | hfold
    · have hcan := TuningState.canFold_of_hasRange h.hasRange
      simp [fold, hsig', hpairs, TuningState.fold?, hcan] at hcrossed
    · exact hfold
  simp only [consume, h.alive, ht, hpending, hanswer]
  rfl

end Playing

/-! ### What a round leaves -/

lemma round_state (r : Run α) (task : Nat) (draw : Nat → Flip) (report : Report) :
    (r.round task draw report).state = r.state.apply r.games
      (r.state.contexts r.state.iter (Flip.unpack (r.pendingOf draw).packed r.state.params.length))
      r.state.iter report.pairs report.signedResult := rfl

lemma length_params_round (r : Run α) (task : Nat) (draw : Nat → Flip) (report : Report) :
    (r.round task draw report).state.params.length = r.state.params.length :=
  (TuningState.sameSetup_apply ..).length_eq

lemma round_iter (r : Run α) (task : Nat) (draw : Nat → Flip) {report : Report}
    (hpairs : report.pairs ≠ 0) :
    (r.round task draw report).state.iter = Scalar.count α (r.state.iter + report.pairs) :=
  TuningState.apply_iter_of_ne_zero _ _ _ _ hpairs _

/-- The slots of the other tasks are left alone. -/
lemma pending?_round_ne (r : Run α) {task other : Nat} (hother : other ≠ task) (draw : Nat → Flip)
    (report : Report) : (r.round task draw report).pending? other = r.pending? other :=
  (pending?_setPending_ne _ hother none).trans (pending?_setPending_ne r hother _)

end Run

namespace Coordinator

variable {s : Store α} {id : RunId} {r r' : Run α} {task : Nat}

lemma call_request_of_issue (hs : s.Filed) (hget : s.runs.get? id = some r) {draw : Nat → Flip}
    {p : Perturbation α} {signature : UInt32}
    (hissue : r.issue task draw = .ok (r', p, signature)) :
    call Store.repository s (.request true id task draw) =
      (.request (.issued p signature), s.write r') := by
  have hid : r'.id = id := (Run.id_of_issue hissue).trans (hs id r hget)
  have hbuffer := Store.buffer_eq (r := r') (hid ▸ hget)
  simp only [call, request, Store.repository, hget, hissue, hbuffer]
  rfl

lemma call_report_of_consume (hs : s.Filed) (hget : s.runs.get? id = some r) {report : Report}
    {outcome : Outcome} (hconsume : r.consume task report = .ok (r', outcome)) :
    call Store.repository s (.report true id task report) = (.report outcome, s.write r') := by
  have hid : r'.id = id := (Run.Consumed.of_consume hconsume).2.id_eq.trans (hs id r hget)
  have hbuffer := Store.buffer_eq (r := r') (hid ▸ hget)
  simp only [call, Coordinator.report, Store.repository, hget, hconsume, hbuffer]
  rfl

/-- A request of a task that can play is answered, and fills its slot. -/
lemma get?_after_request (hs : s.Filed) (hget : s.runs.get? id = some r) (h : r.Playing task)
    (draw : Nat → Flip) :
    (after Store.repository s [.request true id task draw]).runs.get? id =
      some (r.setPending task (some (r.pendingOf draw))) := by
  have hid : r.id = id := hs id r hget
  rw [after_cons, after_nil, call_request_of_issue hs hget (h.issue_eq draw)]
  exact hid ▸ s.get?_write_self (r.setPending task _)

/-- A task that can play and reports its perturbation has its report applied. -/
lemma get?_after_round (hs : s.Filed) (hget : s.runs.get? id = some r) (h : r.Playing task)
    (draw : Nat → Flip) (report : Report)
    (hsig : report.signature = some (Checksum.ofBytes (r.pendingOf draw).packed))
    (hpairs : report.pairs ≠ 0) :
    (after Store.repository s
      [.request true id task draw, .report true id task report]).runs.get? id =
        some (r.round task draw report) := by
  have hget₁ := get?_after_request hs hget h draw
  have hfiled := filed_after hs [.request true id task draw]
  have hconsume := (h.setPending task (some (r.pendingOf draw))).consume_eq
    (Run.pending?_setPending_self h.lt_length _) hsig hpairs
  have hid : r.id = id := hs id r hget
  rw [after_cons, after_nil] at hget₁ hfiled
  rw [after_cons, after_cons, after_nil, call_report_of_consume hfiled hget₁ hconsume]
  exact hid ▸ Store.get?_write_self _ (r.round task draw report)

end Coordinator

end PairedTuning
