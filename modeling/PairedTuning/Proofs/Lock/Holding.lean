import Mathlib
import PairedTuning.Proofs.Lock.Agreement

/-!
# Holding a lock

Once an acquisition holds the lock of its run, nothing takes it away but its own drop, and no other
acquisition holds the same lock.
-/

namespace PairedTuning.RunLocks

variable {M : Type} {t : RunLocks M} {run : RunId} {ticket other : Nat}

/-- The acquisition of a ticket holds the lock of a run. -/
def HeldBy (t : RunLocks M) (run : RunId) (ticket : Nat) : Prop :=
  ∃ a ∈ t.acquisitions, a.ticket = ticket ∧ a.run = run ∧ a.holds

/-- Whether the acquisition of a ticket holds its lock. -/
def grants (t : RunLocks M) (ticket : Nat) : Bool :=
  t.acquisitions.any fun a => a.ticket == ticket && a.holds

namespace HeldBy

lemma create (h : t.HeldBy run ticket) (r : RunId) : (t.create r).HeldBy run ticket := by
  obtain ⟨a, ha, hfields⟩ := h
  exact ⟨a, List.mem_append_left _ ha, hfields⟩

/-- A change that keeps tickets and runs and ends no holding. -/
lemma update (h : t.HeldBy run ticket) (other : Nat) {f : Acquisition → Acquisition}
    (hf : ∀ a, (f a).ticket = a.ticket ∧ (f a).run = a.run ∧ (a.holds → (f a).holds)) :
    (t.update other f).HeldBy run ticket := by
  obtain ⟨a, ha, rfl, rfl, hholds⟩ := h
  refine ⟨_, List.mem_map_of_mem ha, ?_⟩
  split
  · exact ⟨(hf a).1, (hf a).2.1, (hf a).2.2 hholds⟩
  · exact ⟨rfl, rfl, hholds⟩

variable [Mutex M]

lemma settle (h : t.HeldBy run ticket) (other lock : Nat) :
    (t.settle other lock).HeldBy run ticket := by
  rw [RunLocks.settle]
  split
  · exact h.update other fun a => ⟨rfl, rfl, fun _ => rfl⟩
  · exact h

lemma lockFor (h : t.HeldBy run ticket) (r : RunId) : (t.lockFor r).2.HeldBy run ticket := by
  rw [RunLocks.lockFor]
  split
  · split
    · exact h
    · exact h
  · exact h

lemma poll (h : t.HeldBy run ticket) (other : Nat) : (t.poll other).HeldBy run ticket := by
  rw [RunLocks.poll]
  split
  · exact h
  · rename_i a _
    split
    · exact h.settle other _
    · have hfound : (t.lockFor a.run).2.HeldBy run ticket := h.lockFor a.run
      have hjoined : ((t.lockFor a.run).2.join other (t.lockFor a.run).1).HeldBy run ticket :=
        hfound.update other fun b => ⟨rfl, rfl, id⟩
      exact hjoined.settle other _

lemma drop (h : t.HeldBy run ticket) (hne : ticket ≠ other) : (t.drop other).HeldBy run ticket := by
  rw [RunLocks.drop]
  split
  · exact h
  · rename_i a hfind
    obtain rfl : a.ticket = other := by simpa using List.find?_some hfind
    have hremoved : (t.remove a).HeldBy run ticket := by
      obtain ⟨b, hb, rfl, hfields⟩ := h
      exact ⟨b, List.mem_filter.mpr ⟨hb, by simpa using hne⟩, rfl, hfields⟩
    split
    · obtain ⟨b, hb, hfields⟩ := hremoved
      exact ⟨b, by rwa [acquisitions_tidy], hfields⟩
    · exact hremoved

end HeldBy

namespace Follows

variable {queue : M → List Nat} {s : Arrivals}

/-- No two acquisitions hold the lock of a run. -/
lemma eq_of_heldBy (h : Follows queue t s) (hheld : t.HeldBy run ticket)
    (hheld' : t.HeldBy run other) : ticket = other := by
  obtain ⟨a, ha, rfl, rfl, hholds⟩ := hheld
  obtain ⟨b, hb, rfl, hrun, hholds'⟩ := hheld'
  have hhead := h.holds a ha hholds
  have hhead' := h.holds b hb hholds'
  rw [hrun, hhead] at hhead'
  exact Option.some_injective _ hhead'

lemma heldBy_of_grants (h : Follows queue t s) (hs : s.Sound) (hcreated : (ticket, run) ∈ s.created)
    (hgrants : t.grants ticket) : t.HeldBy run ticket := by
  obtain ⟨a, ha, hfields⟩ := List.any_eq_true.mp hgrants
  rw [Bool.and_eq_true, beq_iff_eq] at hfields
  obtain ⟨rfl, hholds⟩ := hfields
  exact ⟨a, ha, rfl, hs.run_eq (h.mem_created ha) hcreated, hholds⟩

end Follows

end PairedTuning.RunLocks
