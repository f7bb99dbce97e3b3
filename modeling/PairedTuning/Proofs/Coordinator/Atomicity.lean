import Mathlib
import PairedTuning.Proofs.Coordinator.Trace

/-!
# Rejected calls change nothing

`Confined` says for every answer what the call may have changed. A call that is turned away leaves
the whole store as it was. A report that uses a perturbation up without being folded in empties one
slot, a request fills one, and only a report that is applied reaches the tuning state of its run.

So nothing changes a run that has ended, and a replica changes no run at all.
-/

namespace PairedTuning

variable {α : Type}

/-- The stores differ in a single run that was written back once. -/
structure Store.Rewrites (s s' : Store α) (run : RunId) (r r' : Run α) : Prop where
  before : s.runs.get? run = some r
  after : s'.runs.get? run = some r'
  others : ∀ id, id ≠ run → s'.runs.get? id = s.runs.get? id
  buffered : s'.buffered = s.buffered + 1

lemma Store.rewrites_write {s : Store α} {run : RunId} {r r' : Run α}
    (hget : s.runs.get? run = some r) (hid : r'.id = run) : s.Rewrites (s.write r') run r r' := by
  subst hid
  exact ⟨hget, s.get?_write_self r', fun _ h => s.get?_write_ne h, rfl⟩

/-- What a call may have changed by its answer. Every answer that is not listed has left the store
as it was. -/
def Confined (s s' : Store α) : Call → Answer α → Prop
  | .request _ run task _, .request (.issued _ _) =>
    ∃ r pending, s.Rewrites s' run r (r.setPending task (some pending))
  | .report _ run task _, .report (.signatureMismatch _ _)
  | .report _ run task _, .report .emptyBatch =>
    ∃ r issued, r.pending? task = some issued ∧ s.Rewrites s' run r (r.setPending task none)
  | .report _ run task _, .report (.applied _) =>
    ∃ r issued state, r.pending? task = some issued ∧
      s.Rewrites s' run r { r.setPending task none with state, touched := true }
  | _, _ => s' = s

/-- Whether a replica may have been called. It answers what is asked about states, too. -/
def Call.onReplica : Call → Bool
  | request primary .. => !primary
  | report primary .. => !primary
  | state _ => true

variable [Scalar α]

namespace CallEffect

lemma confined {s s' : Store α} {c : Call} {a : Answer α} (h : CallEffect s c a s')
    (hs : s.Filed) : Confined s s' c a := by
  cases h with
  | refused => rfl
  | @issued run _ _ r r' _ _ hget hissue =>
    have hid : r'.id = run := (Run.id_of_issue hissue).trans (hs run r hget)
    obtain ⟨-, -, -, -, -, rfl⟩ := Run.issue_eq_ok_iff.mp hissue
    exact ⟨r, _, Store.rewrites_write hget hid⟩
  | @rejected _ _ _ _ outcome hrejected =>
    cases outcome <;> first | rfl | cases hrejected
  | @consumed run _ _ r r' _ hget _ hconsumed =>
    have hwrite := Store.rewrites_write hget (hconsumed.id_eq.trans (hs run r hget))
    cases hconsumed with
    | mismatch hslot => exact ⟨r, _, hslot, hwrite⟩
    | empty hslot => exact ⟨r, _, hslot, hwrite⟩
    | applied hslot => exact ⟨r, _, _, hslot, hwrite⟩
  | state => rfl

lemma eq_of_onReplica {s s' : Store α} {c : Call} {a : Answer α} (h : CallEffect s c a s')
    (hc : c.onReplica) : s' = s := by
  cases h with
  | issued => cases hc
  | consumed => cases hc
  | _ => rfl

end CallEffect

lemma RunStep.eq_of_not_alive {id : RunId} {r r' : Run α} {e : Entry (Store α) α}
    (h : RunStep id r e r') (hended : r.isAlive = false) : r' = r := by
  cases h with
  | idle => rfl
  | issued hissue =>
    obtain ⟨halive, -⟩ := Run.issue_eq_ok_iff.mp hissue
    simp [hended] at halive
  | consumed halive => simp [hended] at halive

namespace Coordinator

lemma get?_after_of_not_alive {s : Store α} (hs : s.Filed) {id : RunId} {r : Run α}
    (hget : s.runs.get? id = some r) (hended : r.isAlive = false) (calls : List Call) :
    (after Store.repository s calls).runs.get? id = some r := by
  obtain ⟨r', hget', rfl⟩ := exists_run_after (fun _ r' => r' = r)
    (fun hr _ hstep => by subst hr; exact hstep.eq_of_not_alive hended) hs hget rfl calls
  exact hget'

lemma after_of_onReplica {s : Store α} (hs : s.Filed) {calls : List Call}
    (hcalls : ∀ c ∈ calls, c.onReplica) : after Store.repository s calls = s := by
  induction calls with
  | nil => rfl
  | cons c calls ih =>
    have hc := (CallEffect.of_call hs c).eq_of_onReplica (hcalls c List.mem_cons_self)
    rw [after_cons, hc]
    exact ih fun c' hc' => hcalls c' (List.mem_cons_of_mem c hc')

/-- The calls to a store change what their answers allow. -/
structure Atomic (s : Store α) : Prop where
  /-- A call changes what its answer allows and nothing else. -/
  confined : ∀ c, Confined s (call Store.repository s c).2 c (call Store.repository s c).1
  /-- No sequence of calls changes a run that is finished or deleted. -/
  ended : ∀ calls id r, s.runs.get? id = some r → r.finished ∨ r.deleted →
    (after Store.repository s calls).runs.get? id = some r
  /-- No sequence of calls to a replica changes the store. -/
  replica : ∀ calls, (∀ c ∈ calls, c.onReplica) → after Store.repository s calls = s

theorem calls_are_atomic {s : Store α} (hs : s.Filed) : Atomic s where
  confined c := (CallEffect.of_call hs c).confined hs
  ended calls id r hget hended := by
    refine get?_after_of_not_alive hs hget ?_ calls
    rcases hended with h | h <;> simp [Run.isAlive, h]
  replica _ hcalls := after_of_onReplica hs hcalls

theorem calls_are_atomic_small : Store.small.Filed ∧ Atomic Store.small :=
  ⟨Store.filed_small, calls_are_atomic Store.filed_small⟩

end Coordinator

end PairedTuning
