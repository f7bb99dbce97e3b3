import Mathlib
import PairedTuning.Coordinator
import PairedTuning.Proofs.Run.Exchange

/-!
# The effect of one call

Over runs in memory a call has one of five effects, and `CallEffect` names each with all that it
needs to happen. Only two of them write to the store: a perturbation that is issued, and a
perturbation that is consumed.
-/

namespace PairedTuning

variable {α : Type}

/-! ### Stores -/

namespace Store

/-- Every run is filed under its own identifier. -/
def Filed (s : Store α) : Prop := ∀ id r, s.runs.get? id = some r → r.id = id

/-- The store with a run written back. -/
def write (s : Store α) (r : Run α) : Store α :=
  { runs := s.runs.insert r.id r, buffered := s.buffered + 1 }

lemma filed_empty : (empty : Store α).Filed := by
  intro id r h
  simp [empty] at h

lemma Filed.insert {s : Store α} (hs : s.Filed) (r : Run α) : (s.insert r).Filed := by
  intro id r' h
  rw [Store.insert, RunTable.get?_insert] at h
  split_ifs at h with hid
  · cases h
    exact hid.symm
  · exact hs id r' h

lemma Filed.remove {s : Store α} (hs : s.Filed) (id : RunId) : (s.remove id).Filed := by
  intro other r h
  rw [Store.remove, RunTable.get?_erase] at h
  split_ifs at h
  exact hs other r h

lemma Filed.write {s : Store α} (hs : s.Filed) (r : Run α) : (s.write r).Filed :=
  hs.insert r

lemma get?_write_self (s : Store α) (r : Run α) : (s.write r).runs.get? r.id = some r := by
  simp [write]

lemma get?_write_ne (s : Store α) {r : Run α} {id : RunId} (h : id ≠ r.id) :
    (s.write r).runs.get? id = s.runs.get? id := by
  simp [write, h]

/-- Only a run that the store has is written back. -/
lemma buffer_eq {s : Store α} {r r' : Run α} (h : s.runs.get? r.id = some r') :
    s.buffer r = (.ok (), s.write r) := by
  simp [buffer, h, write]

lemma buffer_of_missing {s : Store α} {r : Run α} (h : s.runs.get? r.id = none) :
    s.buffer r = (.error (.runNotFound r.id), s) := by
  simp [buffer, h]

end Store

variable [Scalar α]

/-! ### Calls -/

/-- What a call that is answered in this way has done to the store. -/
inductive CallEffect (s : Store α) : Call → Answer α → Store α → Prop where
  | refused {primary : Bool} {run : RunId} {task : Nat} {draw : Nat → Flip} {reason : Refusal} :
      CallEffect s (.request primary run task draw) (.request (.refused reason)) s
  | issued {run : RunId} {task : Nat} {draw : Nat → Flip} {r r' : Run α} {p : Perturbation α}
      {signature : UInt32} (hget : s.runs.get? run = some r)
      (hissue : r.issue task draw = .ok (r', p, signature)) :
      CallEffect s (.request true run task draw) (.request (.issued p signature)) (s.write r')
  | rejected {primary : Bool} {run : RunId} {task : Nat} {report : Report} {outcome : Outcome}
      (hrejected : outcome.consumes = false) :
      CallEffect s (.report primary run task report) (.report outcome) s
  | consumed {run : RunId} {task : Nat} {report : Report} {r r' : Run α} {outcome : Outcome}
      (hget : s.runs.get? run = some r) (halive : r.isAlive)
      (hconsumed : r.Consumed task report r' outcome) :
      CallEffect s (.report true run task report) (.report outcome) (s.write r')
  | state {run : RunId} :
      CallEffect s (.state run) (.state (.ok ((s.runs.get? run).map (·.state)))) s

lemma Run.id_of_issue {r r' : Run α} {task : Nat} {draw : Nat → Flip} {p : Perturbation α}
    {signature : UInt32} (h : r.issue task draw = .ok (r', p, signature)) : r'.id = r.id := by
  obtain ⟨-, -, -, -, -, rfl⟩ := Run.issue_eq_ok_iff.mp h
  rfl

lemma Run.Consumed.id_eq {r r' : Run α} {task : Nat} {report : Report} {outcome : Outcome}
    (h : r.Consumed task report r' outcome) : r'.id = r.id := by
  cases h <;> rfl

namespace CallEffect

lemma of_request {s : Store α} (hs : s.Filed) (primary : Bool) (run : RunId) (task : Nat)
    (draw : Nat → Flip) :
    CallEffect s (.request primary run task draw)
      (.request (Coordinator.request Store.repository s primary run task draw).1)
      (Coordinator.request Store.repository s primary run task draw).2 := by
  unfold Coordinator.request
  cases primary with
  | false => exact .refused
  | true =>
    simp only [Bool.not_true, Bool.false_eq_true, if_false, Store.repository]
    cases hget : s.runs.get? run with
    | none => exact .refused
    | some r =>
      cases hissue : r.issue task draw with
      | error reason =>
        simp only [hissue]
        exact .refused
      | ok issued =>
        obtain ⟨r', p, signature⟩ := issued
        have hid : r'.id = run := (Run.id_of_issue hissue).trans (hs run r hget)
        rw [← hid] at hget
        simp only [hissue, Store.buffer_eq hget]
        rw [hid] at hget
        exact .issued hget hissue

lemma of_report {s : Store α} (hs : s.Filed) (primary : Bool) (run : RunId) (task : Nat)
    (report : Report) :
    CallEffect s (.report primary run task report)
      (.report (Coordinator.report Store.repository s primary run task report).1)
      (Coordinator.report Store.repository s primary run task report).2 := by
  unfold Coordinator.report
  cases primary with
  | false => exact .rejected rfl
  | true =>
    simp only [Bool.not_true, Bool.false_eq_true, if_false, Store.repository]
    cases hget : s.runs.get? run with
    | none => exact .rejected rfl
    | some r =>
      cases hconsume : r.consume task report with
      | error outcome =>
        simp only [hconsume]
        exact .rejected (Run.consumes_of_consume_error hconsume)
      | ok consumed =>
        obtain ⟨r', outcome⟩ := consumed
        obtain ⟨halive, hconsumed⟩ := Run.Consumed.of_consume hconsume
        have hid : r'.id = run := hconsumed.id_eq.trans (hs run r hget)
        rw [← hid] at hget
        simp only [hconsume, Store.buffer_eq hget]
        rw [hid] at hget
        exact .consumed hget halive hconsumed

/-- Every call has one of the effects. -/
lemma of_call {s : Store α} (hs : s.Filed) (c : Call) :
    CallEffect s c (Coordinator.call Store.repository s c).1
      (Coordinator.call Store.repository s c).2 := by
  cases c with
  | request primary run task draw => exact of_request hs primary run task draw
  | report primary run task report => exact of_report hs primary run task report
  | state run => exact .state

lemma filed {s s' : Store α} {c : Call} {a : Answer α} (h : CallEffect s c a s') (hs : s.Filed) :
    s'.Filed := by
  cases h with
  | refused => exact hs
  | issued => exact hs.write _
  | rejected => exact hs
  | consumed => exact hs.write _
  | state => exact hs

end CallEffect

end PairedTuning
