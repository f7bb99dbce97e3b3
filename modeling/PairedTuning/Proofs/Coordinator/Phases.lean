import Mathlib
import PairedTuning.Proofs.Coordinator.Trace

/-!
# The phases of a call

A call that takes the lock of its run reads the run, decides what to answer, and may write the run
back. `Call.decide` is the middle part: it sees nothing of the store but what was read. So a call
depends on the run that it is about and on no other, writes no other, and calls on different runs
may change places.
-/

namespace PairedTuning

variable {α : Type}

/-! ### Decisions -/

/-- What a call does once it has read its run. -/
inductive Decision (α : Type) where
  /-- It answers and writes nothing. -/
  | answer (a : Answer α)
  /-- It writes a run back, and answers as that succeeds or fails. -/
  | write (r : Run α) (success failure : Answer α)

/-- The answer to a call that has tried to write its run back. -/
def Answer.ofWrite (success failure : Answer α) : Except StoreError Unit → Answer α
  | .ok () => success
  | .error _ => failure

variable [Scalar α]

/-- What a call that takes the lock makes of what it has read. -/
def Call.decide : Call → Except StoreError (Option (Run α)) → Decision α
  | .request .., .error _ => .answer (.request (.refused .runUnavailable))
  | .request .., .ok none => .answer (.request (.refused .runNotFound))
  | .request _ _ task draw, .ok (some r) =>
    match r.issue task draw with
    | .error reason => .answer (.request (.refused reason))
    | .ok (r, perturbation, signature) =>
      .write r (.request (.issued perturbation signature)) (.request (.refused .runUnavailable))
  | .report .., .error _ => .answer (.report .storageFailure)
  | .report .., .ok none => .answer (.report .runNotFound)
  | .report _ _ task results, .ok (some r) =>
    match r.consume task results with
    | .error outcome => .answer (.report outcome)
    | .ok (r, outcome) => .write r (.report outcome) (.report .storageFailure)
  | .state _, read => .answer (.state (read.map fun r? => r?.map (·.state)))

namespace Coordinator

/-- A call that takes the lock is a read, a decision, and at most one write. -/
lemma call_eq_phases {σ : Type} (repo : Repository σ α) (s : σ) {c : Call} (hlock : c.takesLock) :
    call repo s c =
      match c.decide (repo.get s c.run).1 with
      | .answer a => (a, (repo.get s c.run).2)
      | .write r success failure =>
        (.ofWrite success failure (repo.buffer (repo.get s c.run).2 r).1,
          (repo.buffer (repo.get s c.run).2 r).2) := by
  cases c with
  | request primary run task draw =>
    obtain rfl : primary = true := hlock
    simp only [call, request, Call.run, Bool.not_true, Bool.false_eq_true, if_false]
    rcases repo.get s run with ⟨_ | _ | r, s'⟩
    · rfl
    · rfl
    · rcases hissue : r.issue task draw with reason | ⟨r', p, signature⟩
      · simp [Call.decide, hissue]
      · simp only [Call.decide, hissue]
        rcases repo.buffer s' r' with ⟨_ | _, s''⟩ <;> rfl
  | report primary run task report =>
    obtain rfl : primary = true := hlock
    simp only [call, Coordinator.report, Call.run, Bool.not_true, Bool.false_eq_true, if_false]
    rcases repo.get s run with ⟨_ | _ | r, s'⟩
    · rfl
    · rfl
    · rcases hconsume : r.consume task report with outcome | ⟨r', outcome⟩
      · simp [Call.decide, hconsume]
      · simp only [Call.decide, hconsume]
        rcases repo.buffer s' r' with ⟨_ | _, s''⟩ <;> rfl
  | state run => rfl

/-- What a replica turns away neither reads nor writes. -/
lemma call_of_not_takesLock {c : Call} (hlock : c.takesLock = false) :
    ∃ a, ∀ {σ : Type} (repo : Repository σ α) (s : σ), call repo s c = (a, s) := by
  cases c with
  | request primary run task draw =>
    obtain rfl : primary = false := hlock
    exact ⟨.request (.refused .notPrimary), fun _ _ => rfl⟩
  | report primary run task report =>
    obtain rfl : primary = false := hlock
    exact ⟨.report .notPrimary, fun _ _ => rfl⟩
  | state run => cases hlock

end Coordinator

/-- A run that is written back was read, and then a perturbation of it was issued or consumed. -/
lemma Call.decide_write_cases {c : Call} {read : Except StoreError (Option (Run α))} {r' : Run α}
    {success failure : Answer α} (h : c.decide read = .write r' success failure) :
    ∃ r, read = .ok (some r) ∧
      ((∃ primary run task draw p signature, c = .request primary run task draw ∧
          r.issue task draw = .ok (r', p, signature) ∧
          success = .request (.issued p signature) ∧
          failure = .request (.refused .runUnavailable)) ∨
        ∃ primary run task results outcome, c = .report primary run task results ∧
          r.consume task results = .ok (r', outcome) ∧ success = .report outcome ∧
          failure = .report .storageFailure) := by
  cases c with
  | request primary run task draw =>
    rcases read with _ | _ | r
    · cases h
    · cases h
    · rcases hissue : r.issue task draw with reason | ⟨r₁, p, signature⟩
      · simp [decide, hissue] at h
      · simp only [decide, hissue, Decision.write.injEq] at h
        obtain ⟨rfl, rfl, rfl⟩ := h
        exact ⟨r, rfl, .inl ⟨primary, run, task, draw, p, signature, rfl, hissue, rfl, rfl⟩⟩
  | report primary run task results =>
    rcases read with _ | _ | r
    · cases h
    · cases h
    · rcases hconsume : r.consume task results with outcome | ⟨r₁, outcome⟩
      · simp [decide, hconsume] at h
      · simp only [decide, hconsume, Decision.write.injEq] at h
        obtain ⟨rfl, rfl, rfl⟩ := h
        exact ⟨r, rfl, .inr ⟨primary, run, task, results, outcome, rfl, hconsume, rfl, rfl⟩⟩
  | state run => cases h

/-- Only a run that was read is written back, under its own identifier. -/
lemma Call.id_of_decide_write {c : Call} {read : Except StoreError (Option (Run α))} {r' : Run α}
    {success failure : Answer α} (h : c.decide read = .write r' success failure) :
    ∃ r, read = .ok (some r) ∧ r'.id = r.id := by
  obtain ⟨r, hread, ⟨-, -, task, draw, p, signature, -, hissue, -⟩ |
    ⟨-, -, task, results, outcome, -, hconsume, -⟩⟩ := decide_write_cases h
  · exact ⟨r, hread, Run.id_of_issue hissue⟩
  · exact ⟨r, hread, (Run.Consumed.of_consume hconsume).2.id_eq⟩

/-! ### Calls to a store -/

/-- A run that takes the place of a stored one does not care which other run did so before. -/
lemma RunTable.insert_comm {β : Type} {t : RunTable β} {id other : RunId} (hne : id ≠ other)
    {x y z : β} (hget : t.get? id = some z) :
    (t.insert id x).insert other y = (t.insert other y).insert id x := by
  obtain ⟨entries⟩ := t
  simp only [insert, get?, mk.injEq] at hget ⊢
  induction entries with
  | nil => cases hget
  | cons entry rest ih =>
    obtain ⟨k, w⟩ := entry
    by_cases hk : k = id
    · subst hk
      simp [put, hne]
    · by_cases hk' : k = other
      · subst hk'
        simp [put, hk]
      · simp only [find, hk, if_false] at hget
        simp [put, hk, hk', ih hget]

namespace Store

variable {s : Store α}

omit [Scalar α] in
lemma write_comm {r r' z : Run α} (hne : r.id ≠ r'.id) (hget : s.runs.get? r.id = some z) :
    (s.write r).write r' = (s.write r').write r := by
  simp only [write, RunTable.insert_comm hne hget]

/-- What a call has read of a store. -/
def read (s : Store α) (c : Call) : Except StoreError (Option (Run α)) := .ok (s.runs.get? c.run)

omit [Scalar α] in
lemma read_write_ne {r : Run α} {c : Call} (hne : r.id ≠ c.run) :
    (s.write r).read c = s.read c := by
  rw [read, read, get?_write_ne s hne.symm]

end Store

namespace Coordinator

variable {s : Store α} {c c' : Call}

/-- A call that only answers leaves the store as it is. -/
lemma call_of_decide_answer (hlock : c.takesLock) {a : Answer α}
    (hdecide : c.decide (s.read c) = .answer a) : call Store.repository s c = (a, s) := by
  rw [call_eq_phases Store.repository s hlock]
  rw [Store.read] at hdecide
  simp only [Store.repository, hdecide]

/-- A call that writes finds the run that it has read still in the store, so it succeeds. -/
lemma call_of_decide_write (hs : s.Filed) (hlock : c.takesLock) {r : Run α}
    {success failure : Answer α} (hdecide : c.decide (s.read c) = .write r success failure) :
    r.id = c.run ∧ (∃ r₀, s.runs.get? r.id = some r₀) ∧
      call Store.repository s c = (success, s.write r) := by
  obtain ⟨r₀, hread, hid⟩ := Call.id_of_decide_write hdecide
  have hget : s.runs.get? c.run = some r₀ := Except.ok.inj hread
  replace hid : r.id = c.run := hid.trans (hs c.run r₀ hget)
  rw [← hid] at hget
  refine ⟨hid, ⟨r₀, hget⟩, ?_⟩
  rw [call_eq_phases Store.repository s hlock]
  rw [Store.read] at hdecide
  simp only [Store.repository, hdecide, Store.buffer_eq hget, Answer.ofWrite]

lemma filed_call (hs : s.Filed) (c : Call) : (call Store.repository s c).2.Filed :=
  (CallEffect.of_call hs c).filed hs

/-! ### Calls on different runs -/

/-- The answer to a call depends on its own run and nothing else. -/
lemma call_answer_congr {s' : Store α} (hs : s.Filed) (hs' : s'.Filed) (hlock : c.takesLock)
    (hread : s'.read c = s.read c) :
    (call Store.repository s' c).1 = (call Store.repository s c).1 := by
  rcases hdecide : c.decide (s.read c) with a | ⟨r, success, failure⟩
  · rw [call_of_decide_answer hlock hdecide, call_of_decide_answer hlock (hread ▸ hdecide)]
  · obtain ⟨-, -, hcall⟩ := call_of_decide_write hs hlock hdecide
    obtain ⟨-, -, hcall'⟩ := call_of_decide_write hs' hlock (hread ▸ hdecide)
    rw [hcall, hcall']

lemma read_call_ne (hs : s.Filed) (hlock : c.takesLock) (hne : c.run ≠ c'.run) :
    (call Store.repository s c).2.read c' = s.read c' := by
  rcases hdecide : c.decide (s.read c) with a | ⟨r, success, failure⟩
  · rw [call_of_decide_answer hlock hdecide]
  · obtain ⟨hid, -, hcall⟩ := call_of_decide_write hs hlock hdecide
    rw [hcall]
    exact Store.read_write_ne (hid.trans_ne hne)

/-- Calls on different runs may change places. -/
lemma call_comm (hs : s.Filed) (hlock : c.takesLock) (hlock' : c'.takesLock)
    (hne : c.run ≠ c'.run) :
    (call Store.repository (call Store.repository s c).2 c').2 =
      (call Store.repository (call Store.repository s c').2 c).2 := by
  have hread := read_call_ne hs hlock hne
  have hread' := read_call_ne hs hlock' hne.symm
  rcases hdecide : c.decide (s.read c) with a | ⟨r, success, failure⟩
  · rw [call_of_decide_answer hlock hdecide, call_of_decide_answer hlock (hread' ▸ hdecide)]
  · rcases hdecide' : c'.decide (s.read c') with a | ⟨r', success', failure'⟩
    · rw [call_of_decide_answer hlock' hdecide', call_of_decide_answer hlock' (hread ▸ hdecide')]
    · obtain ⟨hid, ⟨r₀, hget⟩, hcall⟩ := call_of_decide_write hs hlock hdecide
      obtain ⟨hid', -, hcall'⟩ := call_of_decide_write hs hlock' hdecide'
      obtain ⟨-, -, hafter⟩ := call_of_decide_write (filed_call hs c') hlock (hread' ▸ hdecide)
      obtain ⟨-, -, hafter'⟩ := call_of_decide_write (filed_call hs c) hlock' (hread ▸ hdecide')
      rw [hafter, hafter', hcall, hcall']
      exact Store.write_comm (by rwa [hid, hid']) hget

end Coordinator

end PairedTuning
