import Mathlib
import PairedTuning.Proofs.Definition.Build
import PairedTuning.Proofs.Scalar.Real
import PairedTuning.Proofs.Update.Blocks

/-!
# Schedule-free SGD, pair by pair

Schedule-free SGD is a rule for single game pairs: each adds its weight to the mass, moves the fast
iterate, and then the average towards it. A report has the sum of many pairs, and the program folds
it in a single step. `sgd_eq_unit_steps` says that nothing is lost by that: after every report of a
run the program is where it would be if it had taken one step for each pair, every pair of a report
with their mean result.

Two sums carry the proof. Inside a block, mass times average is a sum over the iterates that the
single step skips (`mass_mul_x_iterate_step`). From block to block, the average is not stored, but
`theta` and `z` determine it as long as no clamp has moved a value (`Follows`).
-/

namespace PairedTuning

/-- One parameter of a run that takes a step for every game pair. -/
@[ext]
structure UnitIterate where
  mass : ℝ
  /-- The fast iterate. -/
  z : ℝ
  /-- The average of the fast iterates. -/
  x : ℝ

namespace UnitIterate

/-- Where a parameter starts. -/
def start (p : Parameter ℝ) : UnitIterate := ⟨0, p.start, p.start⟩

/-- The step for one pair, which moves the fast iterate by `delta`. -/
noncomputable def step (lr delta : ℝ) (u : UnitIterate) : UnitIterate :=
  let mass := u.mass + lr
  let z := u.z + delta
  { mass, z, x := (1 - lr / mass) * u.x + lr / mass * z }

/-- The steps for the pairs of a block, for the parameter at an index, perturbed by `c`. -/
noncomputable def steps (lr c : ℝ) (i : Nat) (b : Block ℝ) : UnitIterate → UnitIterate :=
  (step lr (lr * c * (b.signed / b.pairs) * (b.draw i).factor))^[b.pairs]

/-- The parameter at an index after the steps for all pairs of some blocks. -/
noncomputable def after (lr : ℝ) (p : Parameter ℝ) (i : Nat) (blocks : List (Block ℝ)) :
    UnitIterate :=
  blocks.foldl (fun u b => u.steps lr p.c i b) (start p)

/-- The blend of the fast iterate and the average. -/
def theta (beta : ℝ) (u : UnitIterate) : ℝ := (1 - beta) * u.z + beta * u.x

/-- The average and the blend are within the bounds of a parameter. -/
structure InBounds (p : Parameter ℝ) (beta : ℝ) (u : UnitIterate) : Prop where
  x : u.x ∈ Set.Icc p.low p.high
  theta : u.theta beta ∈ Set.Icc p.low p.high

@[simp] lemma after_append_singleton (lr : ℝ) (p : Parameter ℝ) (i : Nat)
    (blocks : List (Block ℝ)) (b : Block ℝ) :
    after lr p i (blocks ++ [b]) = (after lr p i blocks).steps lr p.c i b := by
  simp [after]

/-! ### The steps of a block -/

variable {lr : ℝ} (delta : ℝ) (u : UnitIterate) (k : Nat)

lemma mass_iterate_step : ((step lr delta)^[k] u).mass = u.mass + lr * k := by
  induction k with
  | zero => simp
  | succ k ih =>
    rw [Function.iterate_succ_apply']
    simp only [step, ih]
    push_cast
    ring

lemma z_iterate_step : ((step lr delta)^[k] u).z = u.z + k * delta := by
  induction k with
  | zero => simp
  | succ k ih =>
    rw [Function.iterate_succ_apply']
    simp only [step, ih]
    push_cast
    ring

lemma mass_mul_x_step (hpos : u.mass + lr ≠ 0) :
    (u.mass + lr) * (step lr delta u).x = u.mass * u.x + lr * (u.z + delta) := by
  simp only [step]
  field_simp
  ring

/-- Mass times average is the weighted sum of all fast iterates so far. A step adds `lr` times the
next iterate to it, and the iterates of a block rise by `delta` each. -/
lemma mass_mul_x_iterate_step (hlr : 0 < lr) (hmass : 0 ≤ u.mass) :
    (u.mass + lr * k) * ((step lr delta)^[k] u).x =
      u.mass * u.x + lr * k * u.z + lr * (k * delta) * ((k + 1) / 2) := by
  induction k with
  | zero => simp
  | succ k ih =>
    have hpos : ((step lr delta)^[k] u).mass + lr ≠ 0 := by
      rw [mass_iterate_step]
      positivity
    have hstep := mass_mul_x_step delta _ hpos
    rw [mass_iterate_step, z_iterate_step] at hstep
    rw [Function.iterate_succ_apply']
    push_cast
    linear_combination hstep + ih

variable {u} {b : Block ℝ} (c : ℝ) (i : Nat)

lemma pairs_mul_slope (hb : b.pairs ≠ 0) : b.pairs * (lr * c * (b.signed / b.pairs) *
    (b.draw i).factor) = lr * c * b.signed * (b.draw i).factor := by
  have hpairs : (b.pairs : ℝ) ≠ 0 := Nat.cast_ne_zero.mpr hb
  field_simp

@[simp] lemma mass_steps : (u.steps lr c i b).mass = u.mass + lr * b.pairs :=
  mass_iterate_step _ _ _

lemma z_steps (hb : b.pairs ≠ 0) :
    (u.steps lr c i b).z = u.z + lr * c * b.signed * (b.draw i).factor := by
  rw [steps, z_iterate_step, pairs_mul_slope c i hb]

lemma x_steps (hlr : 0 < lr) (hmass : 0 ≤ u.mass) (hb : b.pairs ≠ 0) :
    (u.steps lr c i b).x =
      (u.mass * u.x + lr * b.pairs * u.z +
        lr * (lr * c * b.signed * (b.draw i).factor) * ((b.pairs + 1) / 2)) /
      (u.mass + lr * b.pairs) := by
  have hpos : u.mass + lr * b.pairs ≠ 0 := by positivity
  rw [eq_div_iff hpos, mul_comm, steps, mass_mul_x_iterate_step _ _ _ hlr hmass,
    pairs_mul_slope c i hb]

end UnitIterate

/-! ### One report -/

/-- The parameter of a folded run is where unit steps have it: the fast iterate is theirs, and
`theta` is their blend, clamped to the bounds. -/
structure Parameter.Follows (beta : ℝ) (u : UnitIterate) (p : Parameter ℝ) : Prop where
  z : p.z = u.z
  theta : p.theta = p.clamp (u.theta beta)
  /-- A clamp would lose the average, so it must have changed nothing. -/
  bounds : beta ≠ 0 → u.InBounds p beta

namespace Parameter.Follows

variable {lr beta : ℝ} {u : UnitIterate} {p : Parameter ℝ}

lemma average_eq (h : p.Follows beta u) (hbeta : beta ≠ 0) : p.average beta = u.x := by
  have hquot : (p.theta - (1 - beta) * p.z) / beta = u.x := by
    rw [h.theta, Parameter.clamp, Scalar.clamp_of_mem (h.bounds hbeta).theta, h.z,
      UnitIterate.theta]
    field_simp
    ring
  rw [average, Scalar.one_real, hquot]
  exact Scalar.clamp_of_mem (h.bounds hbeta).x

/-- A report moves the parameter as the steps for its pairs do. The value that it shows is their
average, or without averaging the clamped iterate. -/
lemma sgdStep (h : p.Follows beta u) (hlr : 0 < lr) (hmass : 0 ≤ u.mass) {b : Block ℝ}
    (hb : b.pairs ≠ 0) (i : Nat)
    (hnext : beta ≠ 0 → (u.steps lr p.c i b).InBounds p beta) :
    let update := p.sgdStep ⟨p.c, b.draw i, none⟩ b.pairs b.signed lr beta
      (Mass.advance u.mass b.pairs lr)
    (p.store update).Follows beta (u.steps lr p.c i b) ∧ update.display =
      if beta = 0 then p.clamp (u.steps lr p.c i b).z else (u.steps lr p.c i b).x := by
  have hz : (u.steps lr p.c i b).z = u.z + lr * p.c * b.signed * (b.draw i).factor :=
    UnitIterate.z_steps p.c i hb
  have hx := UnitIterate.x_steps p.c i hlr hmass hb
  by_cases hbeta : beta = 0
  · subst hbeta
    refine ⟨⟨?_, ?_, fun h => absurd rfl h⟩, ?_⟩
    · simp [Parameter.sgdStep, Parameter.store, hz, h.z]
    · simp [Parameter.sgdStep, Parameter.store, hz, h.z, UnitIterate.theta, Parameter.clamp]
    · simp [Parameter.sgdStep, hz, h.z]
  · have hclamp := Scalar.clamp_of_mem (hnext hbeta).x
    rw [hx] at hclamp
    refine ⟨⟨?_, ?_, fun h => ⟨(hnext h).x, (hnext h).theta⟩⟩, ?_⟩
    · simp [Parameter.sgdStep, Parameter.store, hbeta, hz, h.z]
    · simp [Parameter.sgdStep, Parameter.store, Parameter.clamp, Parameter.blend, hbeta,
        h.average_eq hbeta, Mass.advance, hclamp, UnitIterate.theta, hz, hx, h.z]
    · simp [Parameter.sgdStep, hbeta, hx, h.z, h.average_eq hbeta, Mass.advance, Parameter.clamp,
        hclamp]

end Parameter.Follows

/-! ### Whole runs -/

namespace TuningState

/-- The run has the parameter at an index where the unit steps have it. -/
structure FollowsAt (lr beta : ℝ) (i : Nat) (start : Parameter ℝ) (u : UnitIterate)
    (t : TuningState ℝ) : Prop where
  optimizer : t.optimizer = .scheduleFreeSgd lr beta
  mass : t.mass = u.mass
  mass_nonneg : 0 ≤ u.mass
  param : ∃ p, t.params[i]? = some p ∧ p.initial = start.initial ∧ p.Follows beta u

variable {lr beta : ℝ} {i : Nat} {start : Parameter ℝ} {u : UnitIterate} {t : TuningState ℝ}

lemma FollowsAt.foldBlock (h : FollowsAt lr beta i start u t) (hlr : 0 < lr) {b : Block ℝ}
    (hb : b.pairs ≠ 0) (hnext : beta ≠ 0 → (u.steps lr start.c i b).InBounds start beta) :
    FollowsAt lr beta i start (u.steps lr start.c i b) (t.foldBlock b).1 ∧
      (t.foldBlock b).2[i]? = some (if beta = 0 then start.clamp (u.steps lr start.c i b).z
        else (u.steps lr start.c i b).x) := by
  obtain ⟨p, hp, hinit, hfollows⟩ := h.param
  have hc := Parameter.c_eq_of_initial hinit
  have hnext' : beta ≠ 0 → (u.steps lr p.c i b).InBounds p beta := by
    intro hbeta
    obtain ⟨hx, htheta⟩ := hnext hbeta
    rw [← Parameter.low_eq_of_initial hinit, ← Parameter.high_eq_of_initial hinit, ← hc]
      at hx htheta
    exact ⟨hx, htheta⟩
  obtain ⟨hstep, hdisplay⟩ := hfollows.sgdStep hlr h.mass_nonneg hb i hnext'
  have hupdate : t.updateAt b i p = p.sgdStep ⟨p.c, b.draw i, none⟩ b.pairs b.signed lr beta
      (Mass.advance u.mass b.pairs lr) := by
    simp only [updateAt, updateOf, Parameter.nudge, Schedule.ofParameter?, h.optimizer, h.mass]
  rw [foldBlock_of_pairs t hb, ← hc]
  constructor
  · refine ⟨h.optimizer, ?_, ?_, p.store (t.updateAt b i p), ?_, hinit, ?_⟩
    · simp [massAfter, h.optimizer, Mass.advance, h.mass]
    · have := h.mass_nonneg
      rw [UnitIterate.mass_steps]
      positivity
    · simp [hp]
    · rw [hupdate]
      exact hstep
  · simp only [List.getElem?_mapIdx, hp, Option.map_some, hupdate, hdisplay,
      Parameter.clamp_eq_of_initial hinit]

lemma FollowsAt.foldBlocks (hstart : FollowsAt lr beta i start (.start start) t) (hlr : 0 < lr)
    {blocks : List (Block ℝ)} (hpairs : ∀ b ∈ blocks, b.pairs ≠ 0)
    (hbounds : beta ≠ 0 → ∀ done b, done ++ [b] <+: blocks →
      (UnitIterate.after lr start i (done ++ [b])).InBounds start beta) :
    FollowsAt lr beta i start (.after lr start i blocks) (t.foldBlocks blocks) := by
  induction blocks using List.reverseRecOn with
  | nil => exact hstart
  | append_singleton blocks b ih =>
    have hblocks := ih (fun b' hb' => hpairs b' (List.mem_append_left _ hb'))
      fun hbeta done b' hdone => hbounds hbeta done b' (hdone.trans (List.prefix_append _ _))
    have hnext (hbeta : beta ≠ 0) := hbounds hbeta blocks b (List.prefix_refl _)
    rw [UnitIterate.after_append_singleton] at hnext ⊢
    rw [foldBlocks_append_singleton]
    exact (hblocks.foldBlock hlr (hpairs b (by simp)) hnext).1

lemma FollowsAt.exists_param (h : FollowsAt lr beta i start u t) :
    ∃ p, t.params[i]? = some p ∧ p.z = u.z ∧ p.theta = start.clamp (u.theta beta) := by
  obtain ⟨p, hp, hinit, hfollows⟩ := h.param
  refine ⟨p, hp, hfollows.z, ?_⟩
  rw [hfollows.theta, Parameter.clamp_eq_of_initial hinit]

/-- A run that was built starts where the unit steps do. -/
lemma followsAt_of_built {read : String → Option ℝ} {defaults : HyperDefaults ℝ} {d : Definition ℝ}
    (h : d.Built read defaults t) (hfamily : d.family = .scheduleFreeSgd)
    (hp : t.params[i]? = some start) :
    FollowsAt defaults.lr defaults.beta i start (.start start) t := by
  have hinit := h.initial_eq (List.mem_of_getElem? hp)
  have hmem := h.start_mem (List.mem_of_getElem? hp)
  have hz : start.z = start.start := congrArg (·.z) hinit.symm
  have htheta : start.theta = start.start := congrArg (·.theta) hinit.symm
  have hblend : (UnitIterate.start start).theta defaults.beta = start.start := by
    simp only [UnitIterate.theta, UnitIterate.start]
    ring
  refine ⟨?_, ?_, le_rfl, start, hp, rfl, hz, ?_, fun _ => ⟨hmem, ?_⟩⟩
  · rw [h.optimizer, hfamily]
    rfl
  · rw [h.mass, Scalar.zero_real]
    rfl
  · rw [htheta, hblend]
    exact (Scalar.clamp_of_mem hmem).symm
  · rw [hblend]
    exact hmem

/-- What a report has left of the parameter at an index, and what it has shown of it. -/
structure Leaves (i : Nat) (u : UnitIterate) (theta shown : ℝ)
    (folded : TuningState ℝ × List ℝ) : Prop where
  mass : folded.1.mass = u.mass
  param : ∃ p, folded.1.params[i]? = some p ∧ p.z = u.z ∧ p.theta = theta
  display : folded.2[i]? = some shown

/-- After every report of a run of schedule-free SGD, every parameter is where it would be after one
step for each game pair. With averaging this asks that the average and the blend have been within
the bounds after every report; without it, the bounds hold the exported values alone. -/
theorem sgd_eq_unit_steps {read : String → Option ℝ} {defaults : HyperDefaults ℝ}
    {d : Definition ℝ} {state : TuningState ℝ} (hbuild : d.build read defaults = .ok state)
    (hfamily : d.family = .scheduleFreeSgd) {blocks : List (Block ℝ)}
    (hpairs : ∀ b ∈ blocks, b.pairs ≠ 0) :
    (0 < defaults.beta →
      (∀ done b, done ++ [b] <+: blocks → ∀ i p, state.params[i]? = some p →
        (UnitIterate.after defaults.lr p i (done ++ [b])).InBounds p defaults.beta) →
      ∀ done b, done ++ [b] <+: blocks → ∀ i p, state.params[i]? = some p →
        let u := UnitIterate.after defaults.lr p i (done ++ [b])
        Leaves i u (u.theta defaults.beta) u.x ((state.foldBlocks done).foldBlock b)) ∧
    (defaults.beta = 0 →
      ∀ done b, done ++ [b] <+: blocks → ∀ i p, state.params[i]? = some p →
        let u := UnitIterate.after defaults.lr p i (done ++ [b])
        Leaves i u (p.clamp u.z) (p.clamp u.z) ((state.foldBlocks done).foldBlock b)) := by
  have hbuilt := Definition.built_of_build hbuild
  have hlr : 0 < defaults.lr := by
    simpa [HyperParameter.requirement, Requirement.admits, HyperDefaults.get] using
      hbuilt.admitted .lr (by simp [hfamily, Family.hyperParameters])
  -- With or without averaging, the run follows the unit steps up to a report and over it.
  have hreport {done : List (Block ℝ)} {b : Block ℝ} (hdone : done ++ [b] <+: blocks) {i : Nat}
      {p : Parameter ℝ} (hp : state.params[i]? = some p)
      (hbounds : defaults.beta ≠ 0 → ∀ done b, done ++ [b] <+: blocks →
        (UnitIterate.after defaults.lr p i (done ++ [b])).InBounds p defaults.beta) := by
    have hpairs' : ∀ b' ∈ done ++ [b], b'.pairs ≠ 0 := fun b' hb' => hpairs b' (hdone.subset hb')
    have hfollows := (followsAt_of_built hbuilt hfamily hp).foldBlocks hlr
      (fun b' hb' => hpairs' b' (List.mem_append_left _ hb'))
      fun hbeta done' b' hdone' =>
        hbounds hbeta done' b' (hdone'.trans ((List.prefix_append _ _).trans hdone))
    exact hfollows.foldBlock hlr (hpairs' b (by simp)) fun hbeta => by
      simpa using hbounds hbeta done b hdone
  constructor
  · intro hbeta hbounds done b hdone i p hp
    obtain ⟨hfollows, hdisplay⟩ :=
      hreport hdone hp fun _ done b hdone => hbounds done b hdone i p hp
    obtain ⟨p', hp', hz, htheta⟩ := hfollows.exists_param
    rw [← UnitIterate.after_append_singleton] at hfollows hdisplay hz htheta
    rw [if_neg hbeta.ne'] at hdisplay
    refine ⟨hfollows.mass, ⟨p', hp', hz, ?_⟩, hdisplay⟩
    rw [htheta]
    exact Scalar.clamp_of_mem (hbounds done b hdone i p hp).theta
  · intro hbeta done b hdone i p hp
    obtain ⟨hfollows, hdisplay⟩ := hreport hdone hp fun h => absurd hbeta h
    obtain ⟨p', hp', hz, htheta⟩ := hfollows.exists_param
    rw [← UnitIterate.after_append_singleton] at hfollows hdisplay hz htheta
    rw [if_pos hbeta] at hdisplay
    refine ⟨hfollows.mass, ⟨p', hp', hz, ?_⟩, hdisplay⟩
    rw [htheta, UnitIterate.theta, hbeta]
    simp

end TuningState

lemma UnitIterate.after_small :
    after HyperDefaults.standard.lr .small 0 [.small] = ⟨2, 7, 13 / 2⟩ := by
  have hlr : (HyperDefaults.standard.lr : ℝ) = 1 := Scalar.one_real
  have hpairs : Block.small.pairs ≠ 0 := by decide
  have hsteps : after HyperDefaults.standard.lr .small 0 [.small] =
      (start .small).steps 1 Parameter.small.c 0 .small := by
    rw [hlr]
    rfl
  rw [hsteps]
  ext
  · rw [mass_steps]
    simp [start, Block.small]
  · rw [z_steps _ _ hpairs]
    simp [start, Block.small, Parameter.small, Flip.factor]
    norm_num
  · rw [x_steps _ _ one_pos le_rfl hpairs]
    simp [start, Block.small, Parameter.small, Flip.factor]
    norm_num

theorem TuningState.sgd_eq_unit_steps_small :
    let state := small (HyperDefaults.standard.optimizer .scheduleFreeSgd .blockMean 10)
    let u : UnitIterate := ⟨2, 7, 13 / 2⟩
    (Definition.small .scheduleFreeSgd).build readNat .standard = .ok state ∧
      (∀ b ∈ [Block.small], b.pairs ≠ 0) ∧ u.InBounds .small HyperDefaults.standard.beta ∧
      Leaves 0 u (131 / 20) (13 / 2) (state.foldBlock .small) := by
  have hbuild : (Definition.small .scheduleFreeSgd).build readNat .standard =
      .ok (small (HyperDefaults.standard.optimizer .scheduleFreeSgd .blockMean 10)) :=
    Definition.build_small rfl
  have hpairs : ∀ b ∈ [Block.small], b.pairs ≠ 0 := by simp [Block.small]
  have hbeta : (HyperDefaults.standard.beta : ℝ) = 9 / 10 := by
    norm_num [HyperDefaults.standard]
  have htheta : (⟨2, 7, 13 / 2⟩ : UnitIterate).theta HyperDefaults.standard.beta = 131 / 20 := by
    rw [hbeta]
    norm_num [UnitIterate.theta]
  have hbounds : (⟨2, 7, 13 / 2⟩ : UnitIterate).InBounds .small HyperDefaults.standard.beta := by
    refine ⟨?_, ?_⟩
    · simp [Parameter.small]
      norm_num
    · rw [htheta]
      simp [Parameter.small]
      norm_num
  have hafter : ∀ done b, done ++ [b] <+: [Block.small] → ∀ i p,
      (small (HyperDefaults.standard.optimizer .scheduleFreeSgd .blockMean 10)).params[i]? =
        some p →
      (UnitIterate.after HyperDefaults.standard.lr p i (done ++ [b])).InBounds p
        HyperDefaults.standard.beta := by
    rintro done b ⟨rest, hrest⟩ i p hp
    obtain ⟨rfl, rfl⟩ : i = 0 ∧ Parameter.small = p := by
      simpa [small, List.getElem?_singleton] using hp
    cases done with
    | nil =>
      obtain ⟨rfl, rfl⟩ : b = Block.small ∧ rest = [] := by simpa using hrest
      rw [List.nil_append, UnitIterate.after_small]
      exact hbounds
    | cons => simp at hrest
  refine ⟨hbuild, hpairs, hbounds, ?_⟩
  have hleaves := (sgd_eq_unit_steps hbuild rfl hpairs).1 (by rw [hbeta]; norm_num) hafter [] .small
    List.prefix_rfl 0 .small rfl
  simpa only [List.nil_append, UnitIterate.after_small, htheta, foldBlocks_nil] using hleaves

end PairedTuning
