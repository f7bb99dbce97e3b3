import Mathlib
import PairedTuning.Proofs.Moments.Summary
import PairedTuning.Proofs.Update.Invariant

/-!
# Reports in any order

Workers finish in any order, and the counter and the values have moved on when a report lands. In a
classic run, and in one of SGD without averaging, what a report adds to a parameter does not depend
on that: the size of the perturbation and its gain follow from the counter at which it was issued,
and from what no report changes. So two reports may change places.

Clamps are the only obstacle. SGD without averaging clamps what it exports, and the fast iterate
keeps the whole sum, so every order leads to the same state. The classic rule goes on from the
clamped value, and the order is free as long as no clamp changes a value.
-/

namespace PairedTuning

namespace TuningState

variable {t u : TuningState ℝ} {p q : Parameter ℝ}

/-! ### Moves -/

/-- How far a block moves the parameter at an index, clamps aside: `theta` in a classic run, the
fast iterate in a run of SGD. -/
noncomputable def moveAt (t : TuningState ℝ) (b : Block ℝ) (i : Nat) (p : Parameter ℝ) : ℝ :=
  match t.optimizer with
  | .classic _ _ _ gain =>
    t.blockGain gain p (p.nudge t.optimizer b.issued (b.draw i)) b.issued b.pairs * b.signed *
      (b.draw i).factor
  | .scheduleFreeSgd lr _ => lr * p.c * b.signed * (b.draw i).factor
  | .scheduleFreeAdam .. => 0

lemma moveAt_initial (t : TuningState ℝ) (b : Block ℝ) (i : Nat) (p : Parameter ℝ) :
    t.moveAt b i p.initial = t.moveAt b i p := by
  have hschedule : Schedule.ofParameter? t.optimizer p.initial =
      Schedule.ofParameter? t.optimizer p := by
    cases t.optimizer <;> rfl
  unfold moveAt
  split
  · simp only [blockGain, Parameter.nudge_initial, hschedule]
  · rfl
  · rfl

/-- A move depends on nothing that a report changes. -/
lemma moveAt_congr (hoptimizer : u.optimizer = t.optimizer) (hp : q.initial = p.initial)
    (b : Block ℝ) (i : Nat) : u.moveAt b i q = t.moveAt b i p := by
  rw [← moveAt_initial, hp, moveAt_initial]
  unfold moveAt blockGain
  rw [hoptimizer]

/-! ### Blocks that shift every parameter -/

/-- The state after a block that shifts every parameter by its move. -/
noncomputable def shiftBy (shift : Parameter ℝ → ℝ → Parameter ℝ) (t : TuningState ℝ)
    (b : Block ℝ) : TuningState ℝ :=
  { t with
    iter := t.iter + b.pairs
    mass := t.massAfter b.pairs
    params := t.params.mapIdx fun i p => shift p (t.moveAt b i p)
    moments := t.moments.add b.pairs b.signed }

/-- Shifts that commute on one parameter, and keep what no report changes, commute on states. -/
lemma shiftBy_comm {shift : Parameter ℝ → ℝ → Parameter ℝ}
    (hcomm : ∀ p x y, shift (shift p x) y = shift (shift p y) x)
    (hinit : ∀ p x, (shift p x).initial = p.initial) (t : TuningState ℝ) (a b : Block ℝ) :
    (t.shiftBy shift a).shiftBy shift b = (t.shiftBy shift b).shiftBy shift a := by
  have hmove (a b : Block ℝ) (i : Nat) (p : Parameter ℝ) (x : ℝ) :
      (t.shiftBy shift a).moveAt b i (shift p x) = t.moveAt b i p :=
    moveAt_congr rfl (hinit p x) b i
  have hmass (a b : Block ℝ) : (t.shiftBy shift a).massAfter b.pairs =
      t.mass + t.optimizer.rate * a.pairs + t.optimizer.rate * b.pairs := by
    rw [massAfter_eq, shiftBy, massAfter_eq]
  unfold shiftBy at hmove hmass ⊢
  simp only [mk.injEq, List.mapIdx_mapIdx, Function.comp_def, hmove, hmass, hcomm, and_true,
    true_and]
  exact ⟨Nat.add_right_comm .., add_right_comm ..,
    t.moments.feed_right_comm (.block a.pairs a.signed) (.block b.pairs b.signed)⟩

lemma foldl_shiftBy_perm {shift : Parameter ℝ → ℝ → Parameter ℝ}
    (hcomm : ∀ p x y, shift (shift p x) y = shift (shift p y) x)
    (hinit : ∀ p x, (shift p x).initial = p.initial) {blocks blocks' : List (Block ℝ)}
    (hperm : blocks.Perm blocks') (t : TuningState ℝ) :
    blocks'.foldl (shiftBy shift) t = blocks.foldl (shiftBy shift) t :=
  (hperm.foldl_eq' (fun a _ b _ t => shiftBy_comm hcomm hinit t a b) t).symm

/-- A block whose updates are shifts shifts the state. -/
lemma foldBlock_eq_shiftBy {shift : Parameter ℝ → ℝ → Parameter ℝ} {b : Block ℝ} (hb : b.pairs ≠ 0)
    (hshift : ∀ i p, t.params[i]? = some p →
      p.store (t.updateAt b i p) = shift p (t.moveAt b i p)) :
    (t.foldBlock b).1 = t.shiftBy shift b := by
  have hparams : (t.params.mapIdx fun i p => p.store (t.updateAt b i p)) =
      t.params.mapIdx fun i p => shift p (t.moveAt b i p) := by
    apply List.ext_getElem?
    intro i
    rw [List.getElem?_mapIdx, List.getElem?_mapIdx]
    exact Option.map_congr fun p hp => hshift i p hp
  rw [foldBlock_of_pairs t hb, hparams, Scalar.count_real]
  rfl

end TuningState

/-! ### Classic runs -/

/-- The classic rule without its clamp. -/
def Parameter.shiftTheta (p : Parameter ℝ) (x : ℝ) : Parameter ℝ := { p with theta := p.theta + x }

lemma Parameter.shiftTheta_comm (p : Parameter ℝ) (x y : ℝ) :
    (p.shiftTheta x).shiftTheta y = (p.shiftTheta y).shiftTheta x := by
  simp only [shiftTheta, add_right_comm]

namespace TuningState

variable {t : TuningState ℝ}

/-- No clamp changes a value while a classic run folds blocks one after the other. -/
def Unclamped : TuningState ℝ → List (Block ℝ) → Prop
  | _, [] => True
  | t, b :: blocks =>
    (∀ (i : Nat) (p : Parameter ℝ), t.params[i]? = some p →
      p.clamp (p.theta + t.moveAt b i p) = p.theta + t.moveAt b i p) ∧
    Unclamped (t.foldBlock b).1 blocks

lemma store_updateAt_classic (hfamily : t.optimizer.family = .classic) (b : Block ℝ) (i : Nat)
    (p : Parameter ℝ) :
    p.store (t.updateAt b i p) = { p with theta := p.clamp (p.theta + t.moveAt b i p) } := by
  unfold updateAt updateOf moveAt
  cases hoptimizer : t.optimizer with
  | classic offset alpha gamma gain =>
    simp only [Parameter.store, Parameter.classicStep, Parameter.nudge_flip]
  | scheduleFreeSgd lr beta => simp [hoptimizer, Optimizer.family] at hfamily
  | scheduleFreeAdam lr beta1 beta2 eps => simp [hoptimizer, Optimizer.family] at hfamily

/-- A block of a classic run whose clamps change no value shifts the state. -/
lemma foldBlock_of_unclamped (hfamily : t.optimizer.family = .classic) {b : Block ℝ}
    (hb : b.pairs ≠ 0) (hclamp : ∀ (i : Nat) (p : Parameter ℝ), t.params[i]? = some p →
      p.clamp (p.theta + t.moveAt b i p) = p.theta + t.moveAt b i p) :
    (t.foldBlock b).1 = t.shiftBy Parameter.shiftTheta b := by
  refine foldBlock_eq_shiftBy hb fun i p hp => ?_
  rw [store_updateAt_classic hfamily, hclamp i p hp, Parameter.shiftTheta]

/-- In a run with one parameter there is one clamp to look at. -/
lemma unclamped_cons_of_single (hfamily : t.optimizer.family = .classic) {p : Parameter ℝ}
    (hparams : t.params = [p]) {b : Block ℝ} {blocks : List (Block ℝ)} (hb : b.pairs ≠ 0)
    (hmem : (p.shiftTheta (t.moveAt b 0 p)).theta ∈ Set.Icc p.low p.high)
    (hrest : ∀ u : TuningState ℝ, u.optimizer = t.optimizer →
      u.params = [p.shiftTheta (t.moveAt b 0 p)] → u.Unclamped blocks) :
    t.Unclamped (b :: blocks) := by
  have hclamp : ∀ (i : Nat) (q : Parameter ℝ), t.params[i]? = some q →
      q.clamp (q.theta + t.moveAt b i q) = q.theta + t.moveAt b i q := by
    intro i q hq
    rw [hparams] at hq
    cases i with
    | zero =>
      obtain rfl := Option.some.inj hq
      exact Scalar.clamp_of_mem hmem
    | succ i => cases hq
  refine ⟨hclamp, hrest _ (sameSetup_foldBlock t b).optimizer ?_⟩
  rw [foldBlock_of_unclamped hfamily hb hclamp, shiftBy, hparams, List.mapIdx_cons, List.mapIdx_nil]

lemma foldBlocks_of_unclamped (hfamily : t.optimizer.family = .classic) {blocks : List (Block ℝ)}
    (hpairs : ∀ b ∈ blocks, b.pairs ≠ 0) (hunclamped : t.Unclamped blocks) :
    t.foldBlocks blocks = blocks.foldl (shiftBy Parameter.shiftTheta) t := by
  induction blocks generalizing t with
  | nil => rfl
  | cons b blocks ih =>
    obtain ⟨hb, hblocks⟩ := List.forall_mem_cons.mp hpairs
    obtain ⟨hclamp, hrest⟩ := hunclamped
    have hoptimizer := (sameSetup_foldBlock t b).optimizer
    rw [foldBlocks_cons, ih (hoptimizer ▸ hfamily) hblocks hrest, List.foldl_cons,
      foldBlock_of_unclamped hfamily hb hclamp]

end TuningState

/-! ### SGD without averaging -/

/-- The rule of SGD without averaging. -/
noncomputable def Parameter.shiftIterate (p : Parameter ℝ) (x : ℝ) : Parameter ℝ :=
  { p with theta := p.clamp (p.z + x), z := p.z + x }

lemma Parameter.shiftIterate_comm (p : Parameter ℝ) (x y : ℝ) :
    (p.shiftIterate x).shiftIterate y = (p.shiftIterate y).shiftIterate x := by
  simp only [shiftIterate, clamp, add_right_comm]

namespace TuningState

variable {t : TuningState ℝ} {lr : ℝ}

lemma store_updateAt_sgd (hoptimizer : t.optimizer = .scheduleFreeSgd lr 0) (b : Block ℝ) (i : Nat)
    (p : Parameter ℝ) : p.store (t.updateAt b i p) = p.shiftIterate (t.moveAt b i p) := by
  simp [updateAt, updateOf, moveAt, hoptimizer, Parameter.sgdStep, Parameter.store,
    Parameter.shiftIterate, Parameter.nudge, Schedule.ofParameter?]

lemma foldBlocks_of_sgd (hoptimizer : t.optimizer = .scheduleFreeSgd lr 0)
    {blocks : List (Block ℝ)} (hpairs : ∀ b ∈ blocks, b.pairs ≠ 0) :
    t.foldBlocks blocks = blocks.foldl (shiftBy Parameter.shiftIterate) t := by
  induction blocks generalizing t with
  | nil => rfl
  | cons b blocks ih =>
    obtain ⟨hb, hblocks⟩ := List.forall_mem_cons.mp hpairs
    rw [foldBlocks_cons, ih ((sameSetup_foldBlock t b).optimizer.trans hoptimizer) hblocks,
      List.foldl_cons, foldBlock_eq_shiftBy hb fun i p _ => store_updateAt_sgd hoptimizer b i p]

/-! ### Any order -/

/-- Reports lead to the same state in every order: in a classic run if no clamp changes a value on
either way, and in a run of SGD without averaging always. -/
theorem foldBlocks_perm {blocks blocks' : List (Block ℝ)} (hperm : blocks.Perm blocks')
    (hpairs : ∀ b ∈ blocks, b.pairs ≠ 0) :
    (t.optimizer.family = .classic → t.Unclamped blocks → t.Unclamped blocks' →
      t.foldBlocks blocks' = t.foldBlocks blocks) ∧
    (∀ lr, t.optimizer = .scheduleFreeSgd lr 0 → t.foldBlocks blocks' = t.foldBlocks blocks) := by
  have hpairs' : ∀ b ∈ blocks', b.pairs ≠ 0 := fun b hb => hpairs b (hperm.mem_iff.mpr hb)
  constructor
  · intro hfamily hunclamped hunclamped'
    rw [foldBlocks_of_unclamped hfamily hpairs hunclamped,
      foldBlocks_of_unclamped hfamily hpairs' hunclamped']
    exact foldl_shiftBy_perm Parameter.shiftTheta_comm (fun _ _ => rfl) hperm t
  · intro lr hoptimizer
    rw [foldBlocks_of_sgd hoptimizer hpairs, foldBlocks_of_sgd hoptimizer hpairs']
    exact foldl_shiftBy_perm Parameter.shiftIterate_comm (fun _ _ => rfl) hperm t

/-- The parameter of a classic run at a constant gain of one. -/
def smallClassic (theta : ℝ) : Parameter ℝ :=
  { Parameter.small with a := Parameter.small.c, theta }

/-- Three pairs of the small run, in which the side that plays with minus wins a game. -/
def lostBlock : Block ℝ := ⟨1, fun _ => .minus, 3, 1⟩

lemma unclamped_cons_small {theta x : ℝ} (hoptimizer : t.optimizer = .classic 0 0 0 .blockStart)
    (hparams : t.params = [smallClassic theta]) {b : Block ℝ} {blocks : List (Block ℝ)}
    (hb : b.pairs ≠ 0) (hx : theta + b.signed * (b.draw 0).factor = x) (hmem : x ∈ Set.Icc 0 10)
    (hrest : ∀ t : TuningState ℝ, t.optimizer = .classic 0 0 0 .blockStart →
      t.params = [smallClassic x] → t.Unclamped blocks) : t.Unclamped (b :: blocks) := by
  have hfamily : t.optimizer.family = .classic := by rw [hoptimizer]; rfl
  have hmove : (smallClassic theta).shiftTheta (t.moveAt b 0 (smallClassic theta)) =
      smallClassic x := by
    rw [← hx, moveAt, hoptimizer]
    simp [blockGain, Parameter.nudge, Schedule.ofParameter?, Schedule.gain, Schedule.size,
      Schedule.numerator, smallClassic, Parameter.small, Scalar.pow, Parameter.shiftTheta]
  refine unclamped_cons_of_single hfamily hparams hb ?_ fun u hu hnext => ?_
  · rw [hmove]
    exact hmem
  · exact hrest u (hu.trans hoptimizer) (hnext.trans (by rw [hmove]))

theorem foldBlocks_perm_small :
    let classic := { small (.classic 0 0 0 .blockStart) with params := [smallClassic 5] }
    let sgd := small (.scheduleFreeSgd 1 0)
    [Block.small, lostBlock].Perm [lostBlock, .small] ∧
      (∀ b ∈ [Block.small, lostBlock], b.pairs ≠ 0) ∧
      classic.optimizer.family = .classic ∧ classic.Unclamped [.small, lostBlock] ∧
      classic.Unclamped [lostBlock, .small] ∧
      classic.foldBlocks [lostBlock, .small] = classic.foldBlocks [.small, lostBlock] ∧
      sgd.optimizer = .scheduleFreeSgd 1 0 ∧
      sgd.foldBlocks [lostBlock, .small] = sgd.foldBlocks [.small, lostBlock] := by
  intro classic sgd
  have hperm : [Block.small, lostBlock].Perm [lostBlock, .small] := .swap ..
  have hpairs : ∀ b ∈ [Block.small, lostBlock], b.pairs ≠ 0 := by
    simp [Block.small, lostBlock]
  have hup (theta : ℝ) : theta + Block.small.signed * (Block.small.draw 0).factor = theta + 1 := by
    simp [Block.small, Flip.factor]
  have hdown (theta : ℝ) : theta + lostBlock.signed * (lostBlock.draw 0).factor = theta - 1 := by
    simp [lostBlock, Flip.factor, sub_eq_add_neg]
  have hunclamped : classic.Unclamped [.small, lostBlock] :=
    unclamped_cons_small rfl rfl (by decide) (hup 5) (by norm_num) fun t h h' =>
      unclamped_cons_small h h' (by decide) (hdown _) (by norm_num) fun _ _ _ => trivial
  have hunclamped' : classic.Unclamped [lostBlock, .small] :=
    unclamped_cons_small rfl rfl (by decide) (hdown 5) (by norm_num) fun t h h' =>
      unclamped_cons_small h h' (by decide) (hup _) (by norm_num) fun _ _ _ => trivial
  exact ⟨hperm, hpairs, rfl, hunclamped, hunclamped',
    (foldBlocks_perm hperm hpairs).1 rfl hunclamped hunclamped', rfl,
    (foldBlocks_perm hperm hpairs).2 1 rfl⟩

end TuningState

end PairedTuning
