import Mathlib
import PairedTuning.Proofs.Perturbation
import PairedTuning.Proofs.Update.Setup

/-!
# Blocks

A report that moves every parameter is a block. Folding it acts on each parameter by itself:
`updateAt` is the update of one, and the lemmas on `foldBlock` say that every parameter and every
value shown comes from there, whatever the family. A run is a list of blocks, folded one by one.
-/

namespace PairedTuning

variable {α : Type}

/-- A report for a perturbation of all parameters. -/
structure Block (α : Type) where
  /-- The counter at which the perturbation was issued. -/
  issued : Nat
  /-- The flip of each parameter. -/
  draw : Nat → Flip
  pairs : Nat
  signed : α

/-- A parameter takes over the update at its index, if there is one. -/
lemma getElem?_storeUpdates (ps : List (Parameter α)) (us : List (ParamUpdate α)) (i : Nat) :
    (storeUpdates ps us)[i]? = ps[i]?.map fun p => (us[i]?.map p.store).getD p := by
  induction ps generalizing us i with
  | nil => cases us <;> rfl
  | cons p ps ih =>
    cases us with
    | nil => simp [storeUpdates]
    | cons u us =>
      cases i with
      | zero => rfl
      | succ i => exact ih us i

lemma storeUpdates_zipWith {f : Parameter α → Nudge α → ParamUpdate α} {ps : List (Parameter α)}
    {ns : List (Nudge α)} (h : ps.length = ns.length) :
    storeUpdates ps (ps.zipWith f ns) = ps.zipWith (fun p n => p.store (f p n)) ns := by
  induction ps generalizing ns with
  | nil => rfl
  | cons p ps ih =>
    cases ns with
    | nil => cases h
    | cons n ns =>
      simp only [List.zipWith_cons_cons, storeUpdates]
      rw [ih (by simpa using h)]

variable [Scalar α]

namespace TuningState

/-! ### One parameter -/

/-- The update of a parameter by a block of `n` pairs with sum `s`. -/
def updateOf (state : TuningState α) (issued n : Nat) (s : α) (p : Parameter α)
    (nudge : Nudge α) : ParamUpdate α :=
  match state.optimizer with
  | .classic _ _ _ gain => p.classicStep nudge (state.blockGain gain p nudge issued n) s
  | .scheduleFreeSgd lr beta => p.sgdStep nudge n s lr beta (Mass.advance state.mass n lr)
  | .scheduleFreeAdam lr beta1 beta2 eps =>
    p.adamStep nudge n s ⟨lr, beta1, beta2, eps⟩ (Mass.advance state.mass n lr)
      state.moments.estimate (Scalar.count α (state.iter + n))

/-- The mass after a block of `n` pairs. -/
def massAfter (state : TuningState α) (n : Nat) : α :=
  match state.optimizer with
  | .classic .. => state.mass
  | .scheduleFreeSgd lr _ => (Mass.advance state.mass n lr).after
  | .scheduleFreeAdam lr .. => (Mass.advance state.mass n lr).after

lemma updates_eq (state : TuningState α) (nudges : List (Nudge α)) (issued n : Nat) (s : α) :
    state.updates nudges issued n s =
      (state.params.zipWith (state.updateOf issued n s) nudges, state.massAfter n) := by
  obtain ⟨optimizer, _⟩ := state
  cases optimizer <;> rfl

/-- A report moves a parameter by the move at its index, if there is one. -/
lemma getElem?_fold (state : TuningState α) (nudges : List (Nudge α)) (issued : Nat) {n : Nat}
    (hn : n ≠ 0) (s : α) {i : Nat} {p : Parameter α} (hp : state.params[i]? = some p) :
    (state.fold nudges issued n s).1.params[i]? =
        some ((nudges[i]?.map fun nudge => p.store (state.updateOf issued n s p nudge)).getD p) ∧
      (state.fold nudges issued n s).2[i]? =
        nudges[i]?.map fun nudge => (state.updateOf issued n s p nudge).display := by
  have hupdate : (state.params.zipWith (state.updateOf issued n s) nudges)[i]? =
      nudges[i]?.map (state.updateOf issued n s p) := by
    rw [List.getElem?_zipWith, hp]
    cases nudges[i]? <;> rfl
  simp only [fold, if_neg hn, updates_eq, getElem?_storeUpdates, List.getElem?_map, hupdate, hp]
  cases nudges[i]? <;> exact ⟨rfl, rfl⟩

/-! ### All parameters -/

/-- Fold a block. -/
def foldBlock (state : TuningState α) (b : Block α) : TuningState α × List α :=
  state.fold (state.contexts b.issued (state.params.mapIdx fun i _ => b.draw i)) b.issued b.pairs
    b.signed

/-- Fold blocks one after the other. -/
def foldBlocks (state : TuningState α) (blocks : List (Block α)) : TuningState α :=
  blocks.foldl (fun t b => (t.foldBlock b).1) state

/-- The update of the parameter at an index by a block. -/
def updateAt (state : TuningState α) (b : Block α) (i : Nat) (p : Parameter α) : ParamUpdate α :=
  state.updateOf b.issued b.pairs b.signed p (p.nudge state.optimizer b.issued (b.draw i))

lemma foldBlock_of_pairs (state : TuningState α) {b : Block α} (hb : b.pairs ≠ 0) :
    state.foldBlock b =
      ({ state with
          iter := Scalar.count α (state.iter + b.pairs)
          mass := state.massAfter b.pairs
          params := state.params.mapIdx fun i p => p.store (state.updateAt b i p)
          moments := state.moments.add b.pairs b.signed },
        state.params.mapIdx fun i p => (state.updateAt b i p).display) := by
  have hzip {β : Type} (f : Parameter α → Nudge α → β) (g : Nat → Parameter α → Nudge α) :
      state.params.zipWith f (state.params.mapIdx g) =
        state.params.mapIdx fun i p => f p (g i p) := by
    apply List.ext_getElem
    · simp
    · intro i _ _
      simp
  have hmap (us : Nat → Parameter α → ParamUpdate α) :
      (state.params.mapIdx us).map (·.display) =
        state.params.mapIdx fun i p => (us i p).display := by
    apply List.ext_getElem
    · simp
    · intro i _ _
      simp
  simp only [foldBlock, fold, hb, if_false, contexts_mapIdx, updates_eq]
  rw [storeUpdates_zipWith (by simp), hzip, hzip, hmap]
  rfl

/-- A block acts on every parameter by itself. -/
lemma getElem?_foldBlock (state : TuningState α) {b : Block α} (hb : b.pairs ≠ 0) {i : Nat}
    {p : Parameter α} (hp : state.params[i]? = some p) :
    (state.foldBlock b).1.params[i]? = some (p.store (state.updateAt b i p)) ∧
      (state.foldBlock b).2[i]? = some (state.updateAt b i p).display := by
  simp [foldBlock_of_pairs state hb, hp]

lemma foldBlock_moments (state : TuningState α) {b : Block α} (hb : b.pairs ≠ 0) :
    (state.foldBlock b).1.moments = state.moments.add b.pairs b.signed := by
  rw [foldBlock_of_pairs state hb]

@[simp] lemma foldBlock_iter (state : TuningState ℝ) (b : Block ℝ) :
    (state.foldBlock b).1.iter = state.iter + b.pairs :=
  fold_iter ..

lemma sameSetup_foldBlock (state : TuningState α) (b : Block α) :
    SameSetup state (state.foldBlock b).1 :=
  sameSetup_fold ..

@[simp] lemma foldBlocks_nil (state : TuningState α) : state.foldBlocks [] = state := rfl

@[simp] lemma foldBlocks_cons (state : TuningState α) (b : Block α) (blocks : List (Block α)) :
    state.foldBlocks (b :: blocks) = (state.foldBlock b).1.foldBlocks blocks := rfl

@[simp] lemma foldBlocks_append_singleton (state : TuningState α) (blocks : List (Block α))
    (b : Block α) :
    state.foldBlocks (blocks ++ [b]) = ((state.foldBlocks blocks).foldBlock b).1 := by
  simp [foldBlocks]

lemma sameSetup_foldBlocks (state : TuningState α) (blocks : List (Block α)) :
    SameSetup state (state.foldBlocks blocks) := by
  induction blocks generalizing state with
  | nil => exact .refl state
  | cons b blocks ih => exact (sameSetup_foldBlock state b).trans (ih _)

end TuningState

/-- Two pairs of the small run, in which the side that plays with plus wins a game. -/
def Block.small : Block ℝ := ⟨0, fun _ => .plus, 2, 1⟩

end PairedTuning
