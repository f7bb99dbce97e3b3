import Mathlib
import PairedTuning.Proofs.Checksum.Burst
import PairedTuning.Proofs.Coordinator.Trace

/-!
# The signature pins the flips

The flips of up to 32 parameters pack into four bytes, and a checksum tells such byte strings apart.
A report is only applied with the checksum of what is pending, and what is pending is always the
packed form of one flip for each parameter. So on a run with so few parameters no report is applied
that was signed for other flips.
-/

namespace PairedTuning

/-! ### Flips -/

lemma Flip.ofBytes_pack_ne {v w : List Flip} (hlength : v.length = w.length)
    (hfew : v.length ≤ 32) (hne : v ≠ w) :
    Checksum.ofBytes (pack v) ≠ Checksum.ofBytes (pack w) := by
  refine (Checksum.Burst.of_short ?_ ?_ fun h => hne (pack_injective hlength h)).ofBytes_ne
  · rw [length_pack, length_pack, hlength]
  · rw [length_pack]
    omega

variable {α : Type}

/-! ### Pending perturbations -/

/-- What is pending is the packed form of a flip for each parameter. -/
def Run.Packed (r : Run α) : Prop :=
  ∀ task issued, r.pending? task = some issued →
    ∃ flips : List Flip, flips.length = r.state.params.length ∧ issued.packed = Flip.pack flips

namespace Run.Packed

variable {r r' : Run α}

lemma start (hslots : ∀ t ∈ r.tasks, t.pending = none) : r.Packed := by
  intro task issued hpending
  cases (pending?_eq_none hslots task).symm.trans hpending

lemma setPending (h : r.Packed) {task : Nat} {pending : Option Pending}
    (hpending : ∀ issued, pending = some issued → ∃ flips : List Flip,
      flips.length = r.state.params.length ∧ issued.packed = Flip.pack flips) :
    (r.setPending task pending).Packed := by
  intro other issued hother
  obtain ⟨-, hset⟩ | ⟨-, hslot⟩ := pending?_of_setPending hother
  · exact hpending issued hset
  · exact h other issued hslot

variable [Scalar α]

lemma step {id : RunId} {e : Entry (Store α) α} (h : r.Packed) (hstep : RunStep id r e r') :
    r'.Packed ∧ r'.state.params.length = r.state.params.length := by
  cases hstep with
  | idle => exact ⟨h, rfl⟩
  | issued hissue =>
    obtain ⟨-, -, -, rfl, -, rfl⟩ := issue_eq_ok_iff.mp hissue
    refine ⟨h.setPending fun issued hissued => ?_, rfl⟩
    cases hissued
    exact ⟨_, by simp [TuningState.flips_perturb], rfl⟩
  | @consumed _ task report _ _ _ hconsumed =>
    have hnone : (r.setPending task none).Packed := h.setPending nofun
    cases hconsumed with
    | mismatch => exact ⟨hnone, rfl⟩
    | empty => exact ⟨hnone, rfl⟩
    | @applied issued =>
      have hlength : (r.applyReport task issued report).state.params.length =
          r.state.params.length := (TuningState.sameSetup_apply ..).length_eq
      refine ⟨fun other pending hother => ?_, hlength⟩
      obtain ⟨flips, hflips, hpacked⟩ := hnone other pending hother
      exact ⟨flips, hflips.trans hlength.symm, hpacked⟩

end Run.Packed

/-! ### Reports -/

namespace Coordinator

variable {σ : Type} [Scalar α]

/-- A report is applied only with the checksum of what is pending. -/
lemma exists_pending_of_applied {repo : Repository σ α} {s : σ} {primary : Bool} {id : RunId}
    {task : Nat} {sent : Report} {n : Nat}
    (h : (report repo s primary id task sent).1 = .applied n) :
    ∃ r issued, (repo.get s id).1 = .ok (some r) ∧ r.pending? task = some issued ∧
      Checksum.ofBytes issued.packed = sent.signature.getD 0 := by
  unfold report at h
  cases primary with
  | false => cases h
  | true =>
    simp only [Bool.not_true, Bool.false_eq_true, if_false] at h
    rcases hread : repo.get s id with ⟨_ | _ | r, s'⟩
    · simp [hread] at h
    · simp [hread] at h
    · rcases hconsume : r.consume task sent with outcome | ⟨r', outcome⟩
      · simp only [hread, hconsume] at h
        exact absurd (Run.consumes_of_consume_error hconsume) (by simp [h, Outcome.consumes])
      · simp only [hread, hconsume] at h
        rcases hbuffer : repo.buffer s' r' with ⟨_ | _, s''⟩
        · simp [hbuffer] at h
        · obtain rfl : outcome = .applied n := by simpa [hbuffer] using h
          cases (Run.Consumed.of_consume hconsume).2 with
          | applied hslot hsig => exact ⟨r, _, rfl, hslot, hsig⟩

variable (α) in
/-- Byte strings of one length have different checksums if they differ, and only within four
consecutive bytes. So the checksum sees every single bit of packed flips, and tells the flips of up
to 32 parameters apart. On a run with so few, whatever the repository, no report is applied that
carries the signature of other flips than the pending ones; and what is pending on a run that starts
without pending perturbations is always the packed form of a flip for each parameter. -/
theorem signature_pins_flips :
    (∀ p q, Checksum.Burst p q → Checksum.ofBytes p ≠ Checksum.ofBytes q) ∧
    (∀ (flips : List Flip) (bit : Nat), bit < 8 * (Flip.pack flips).length →
      Checksum.ofBytes (Checksum.flipBit (Flip.pack flips) bit) ≠
        Checksum.ofBytes (Flip.pack flips)) ∧
    (∀ v w : List Flip, v.length = w.length → v.length ≤ 32 → v ≠ w →
      Checksum.ofBytes (Flip.pack v) ≠ Checksum.ofBytes (Flip.pack w)) ∧
    (∀ (σ : Type) (repo : Repository σ α) (s : σ) (id : RunId) (r : Run α),
      (repo.get s id).1 = .ok (some r) → r.state.params.length ≤ 32 →
      ∀ (task issued : Nat) (v w : List Flip) (sent : Report),
        r.pending? task = some ⟨issued, Flip.pack v⟩ → v.length = r.state.params.length →
        w.length = r.state.params.length → w ≠ v →
        sent.signature = some (Checksum.ofBytes (Flip.pack w)) →
        ∀ primary n, (report repo s primary id task sent).1 ≠ .applied n) ∧
    (∀ s : Store α, s.Filed → ∀ id r, s.runs.get? id = some r →
      (∀ t ∈ r.tasks, t.pending = none) → ∀ calls, ∃ r',
        (after Store.repository s calls).runs.get? id = some r' ∧ r'.Packed ∧
          r'.state.params.length = r.state.params.length) := by
  refine ⟨fun p q h => h.ofBytes_ne, fun flips bit h => (Checksum.burst_flipBit h).ofBytes_ne,
    fun v w hlength hfew hne => Flip.ofBytes_pack_ne hlength hfew hne, ?_, ?_⟩
  · intro σ repo s id r hget hfew task issued v w sent hslot hv hw hne hsig primary n happlied
    obtain ⟨r', pending, hget', hslot', hsig'⟩ := exists_pending_of_applied happlied
    obtain rfl : r = r' := by simpa using hget.symm.trans hget'
    obtain rfl := Option.some_injective _ (hslot.symm.trans hslot')
    rw [hsig, Option.getD_some] at hsig'
    exact Flip.ofBytes_pack_ne (hw.trans hv.symm) (hw ▸ hfew) hne hsig'.symm
  · intro s hs id r hget hslots calls
    exact exists_run_after
      (fun _ r' => r'.Packed ∧ r'.state.params.length = r.state.params.length)
      (fun h _ hstep => ⟨(h.1.step hstep).1, (h.1.step hstep).2.trans h.2⟩) hs hget
      ⟨.start hslots, rfl⟩ calls

/-- The first worker of the small run has been asked to play with plus. -/
def askedRun : Run Float := Run.small.setPending 0 (some ⟨0, Flip.pack [.plus]⟩)

theorem signature_pins_flips_small :
    let sent : Report := ⟨4, 1, 1, 6, some (Checksum.ofBytes (Flip.pack [.minus]))⟩
    let s := Store.small.insert askedRun
    Checksum.Burst [1, 2, 3] [1, 4, 3] ∧
      Checksum.ofBytes [1, 2, 3] ≠ Checksum.ofBytes [1, 4, 3] ∧
      3 < 8 * (Flip.pack [.plus]).length ∧
      Checksum.ofBytes (Checksum.flipBit (Flip.pack [.plus]) 3) ≠
        Checksum.ofBytes (Flip.pack [.plus]) ∧
      [Flip.plus].length = [Flip.minus].length ∧ [Flip.plus].length ≤ 32 ∧
      Checksum.ofBytes (Flip.pack [.plus]) ≠ Checksum.ofBytes (Flip.pack [.minus]) ∧
      (Store.repository.get s ⟨1⟩).1 = .ok (some askedRun) ∧
      askedRun.state.params.length ≤ 32 ∧
      askedRun.pending? 0 = some ⟨0, Flip.pack [.plus]⟩ ∧
      (∀ n, (report Store.repository s true ⟨1⟩ 0 sent).1 ≠ .applied n) ∧
      Store.small.Filed ∧ Store.small.runs.get? ⟨1⟩ = some Run.small ∧
      (∀ t ∈ Run.small.tasks, t.pending = none) ∧
      ∃ r, (after Store.repository Store.small twoBatches).runs.get? ⟨1⟩ = some r ∧ r.Packed := by
  intro sent s
  obtain ⟨hburst, hbit, hflips, hreport, hpacked⟩ := signature_pins_flips Float
  have hget : (Store.repository.get s ⟨1⟩).1 = .ok (some askedRun) := rfl
  have hdiffer : Checksum.Burst [1, 2, 3] [1, 4, 3] := .of_short rfl (by decide) (by decide)
  obtain ⟨r, hr, hrpacked, -⟩ := hpacked Store.small Store.filed_small ⟨1⟩ Run.small
    Store.get?_small Run.pending_small twoBatches
  exact ⟨hdiffer, hburst _ _ hdiffer, by decide, hbit _ 3 (by decide), rfl, by decide,
    hflips _ _ rfl (by decide) (by decide), hget, by decide, rfl,
    hreport (Store Float) _ s ⟨1⟩ askedRun hget (by decide) 0 0 [.plus] [.minus] sent rfl rfl rfl
      (by decide) rfl true,
    Store.filed_small, Store.get?_small, Run.pending_small, r, hr, hrpacked⟩

end Coordinator

end PairedTuning
