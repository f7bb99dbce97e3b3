import Mathlib
import PairedTuning.Proofs.Moments.Estimate

/-!
# Summaries in any order

The running sums are fed by blocks, and by the sums of other groups of reports. Either one adds four
amounts that do not depend on what was added before, or is ignored as a whole: a block without
pairs, a group without reports. So the sums are the same in every order, and reports that were
summed up in groups of their own count for as much as if each of them had come by itself.
-/

namespace PairedTuning

/-- What the running sums are fed with. -/
inductive Contribution (α : Type) where
  /-- A number of pairs and the sum of their outcomes. -/
  | block (pairs : Nat) (signed : α)
  /-- The sums of another group of reports. -/
  | group (sums : PairMoments α)

namespace PairMoments

section

variable {α : Type} [Scalar α]

/-- Feed the sums with one contribution. -/
def feed (m : PairMoments α) : Contribution α → PairMoments α
  | .block pairs signed => m.add pairs signed
  | .group sums => m.merge sums

/-- Feed the sums with contributions, one after the other. -/
def collect (m : PairMoments α) (cs : List (Contribution α)) : PairMoments α := cs.foldl feed m

@[simp] lemma collect_nil (m : PairMoments α) : m.collect [] = m := rfl

@[simp] lemma collect_cons (m : PairMoments α) (c : Contribution α) (cs : List (Contribution α)) :
    m.collect (c :: cs) = (m.feed c).collect cs := rfl

lemma collect_append (m : PairMoments α) (cs ds : List (Contribution α)) :
    m.collect (cs ++ ds) = (m.collect cs).collect ds :=
  List.foldl_append

end

/-! ### Amounts -/

/-- The sums with other sums on top, whatever these are. -/
def plus (m d : PairMoments ℝ) : PairMoments ℝ :=
  ⟨m.reports + d.reports, m.pairs + d.pairs, m.signed + d.signed,
    m.squaredPerPair + d.squaredPerPair, m.initial⟩

lemma plus_right_comm (m d e : PairMoments ℝ) : (m.plus d).plus e = (m.plus e).plus d := by
  simp only [plus, add_right_comm]

lemma plus_assoc (m d e : PairMoments ℝ) : m.plus (d.plus e) = (m.plus d).plus e := by
  simp only [plus, add_assoc]

@[simp] lemma plus_empty (m : PairMoments ℝ) (initial : ℝ) : m.plus (empty initial) = m := by
  simp [plus, empty]

lemma merge_of_pos (m : PairMoments ℝ) {other : PairMoments ℝ} (h : 0 < other.reports) :
    m.merge other = m.plus other := by
  rw [merge, Scalar.zero_real, if_neg h.not_ge, plus]

/-- A group without reports is ignored. -/
lemma merge_of_le (m : PairMoments ℝ) {other : PairMoments ℝ} (h : other.reports ≤ 0) :
    m.merge other = m := by
  rw [merge, Scalar.zero_real, if_pos h]

end PairMoments

/-- The amounts that a contribution adds. -/
noncomputable def Contribution.amounts : Contribution ℝ → PairMoments ℝ
  | block pairs signed =>
    if pairs = 0 then .empty 0 else ⟨1, pairs, signed, signed * signed / pairs, 0⟩
  | group sums => if sums.reports ≤ 0 then .empty 0 else sums

namespace PairMoments

lemma feed_eq_plus (m : PairMoments ℝ) (c : Contribution ℝ) : m.feed c = m.plus c.amounts := by
  cases c with
  | block pairs signed =>
    by_cases hpairs : pairs = 0
    · simp [feed, add, Contribution.amounts, hpairs]
    · simp [feed, add_of_ne_zero m hpairs, Contribution.amounts, plus, hpairs]
  | group sums =>
    by_cases hreports : sums.reports ≤ 0
    · simp [feed, merge_of_le m hreports, Contribution.amounts, hreports]
    · simp [feed, merge_of_pos m (not_le.mp hreports), Contribution.amounts, hreports]

/-- What adds up for amounts is summed up over contributions. -/
lemma collect_eq_add_sum {f : PairMoments ℝ → ℝ} (hf : ∀ m d, f (m.plus d) = f m + f d)
    (m : PairMoments ℝ) (cs : List (Contribution ℝ)) :
    f (m.collect cs) = f m + (cs.map fun c => f c.amounts).sum := by
  induction cs generalizing m with
  | nil => simp
  | cons c cs ih => rw [collect_cons, ih, feed_eq_plus, hf, List.map_cons, List.sum_cons, add_assoc]

lemma collect_eq_sum {f : PairMoments ℝ → ℝ} (hf : ∀ m d, f (m.plus d) = f m + f d)
    (initial : ℝ) (cs : List (Contribution ℝ)) :
    f ((empty initial).collect cs) = (cs.map fun c => f c.amounts).sum := by
  have hempty : f (empty initial) = 0 := by
    have h := hf (empty initial) (empty initial)
    rwa [plus_empty, left_eq_add] at h
  rw [collect_eq_add_sum hf, hempty, zero_add]

/-- Contributions that each have a report and a pair leave sums that have both. -/
lemma collect_pos {cs : List (Contribution ℝ)} (hne : cs ≠ [])
    (h : ∀ c ∈ cs, 0 < c.amounts.reports ∧ 0 < c.amounts.pairs) (initial : ℝ) :
    0 < ((empty initial).collect cs).reports ∧ 0 < ((empty initial).collect cs).pairs := by
  rw [collect_eq_sum (f := PairMoments.reports) fun _ _ => rfl,
    collect_eq_sum (f := PairMoments.pairs) fun _ _ => rfl]
  exact ⟨List.sum_pos _ (List.forall_mem_map.mpr fun c hc => (h c hc).1) (by simpa using hne),
    List.sum_pos _ (List.forall_mem_map.mpr fun c hc => (h c hc).2) (by simpa using hne)⟩

/-- Two contributions may change places. -/
lemma feed_right_comm (m : PairMoments ℝ) (c d : Contribution ℝ) :
    (m.feed c).feed d = (m.feed d).feed c := by
  rw [feed_eq_plus, feed_eq_plus, plus_right_comm, ← feed_eq_plus, ← feed_eq_plus]

lemma collect_perm {cs ds : List (Contribution ℝ)} (h : cs.Perm ds) (m : PairMoments ℝ) :
    m.collect cs = m.collect ds :=
  h.foldl_eq' (fun c _ d _ m => feed_right_comm m c d) m

/-! ### Groups -/

/-- The sums are those of some reports, or of none. -/
def Counted (m : PairMoments ℝ) : Prop := m = empty m.initial ∨ 0 < m.reports

lemma Counted.reports_nonneg {m : PairMoments ℝ} (h : m.Counted) : 0 ≤ m.reports := by
  rcases h with hempty | hpos
  · rw [hempty]
    simp [empty]
  · exact hpos.le

lemma Counted.feed {m : PairMoments ℝ} (h : m.Counted) (c : Contribution ℝ) :
    (m.feed c).Counted := by
  have hreports := h.reports_nonneg
  cases c with
  | block pairs signed =>
    by_cases hpairs : pairs = 0
    · simpa [PairMoments.feed, add, hpairs] using h
    · refine .inr ?_
      rw [PairMoments.feed, add_of_ne_zero m hpairs]
      positivity
  | group sums =>
    rcases le_or_gt sums.reports 0 with hnone | hsome
    · rwa [PairMoments.feed, merge_of_le m hnone]
    · refine .inr ?_
      rw [PairMoments.feed, merge_of_pos m hsome]
      exact add_pos_of_nonneg_of_pos hreports hsome

lemma Counted.merge_eq {x : PairMoments ℝ} (h : x.Counted) (m : PairMoments ℝ) :
    m.merge x = m.plus x := by
  rcases h with hempty | hpos
  · rw [hempty, plus_empty]
    exact merge_of_le m (by simp [empty])
  · exact merge_of_pos m hpos

/-- Sums that went on being fed in a group of their own can be merged before that. -/
lemma merge_collect {x : PairMoments ℝ} (h : x.Counted) (m : PairMoments ℝ)
    (cs : List (Contribution ℝ)) : m.merge (x.collect cs) = (m.merge x).collect cs := by
  induction cs generalizing x with
  | nil => rfl
  | cons c cs ih =>
    have hfeed : m.merge (x.feed c) = (m.merge x).feed c := by
      rw [(h.feed c).merge_eq, h.merge_eq, feed_eq_plus, feed_eq_plus, plus_assoc]
    rw [collect_cons, collect_cons, ih (h.feed c), hfeed]

@[simp] lemma merge_empty (m : PairMoments ℝ) (initial : ℝ) : m.merge (empty initial) = m :=
  merge_of_le m (by simp [empty])

/-! ### Any order -/

/-- The running sums are a summary of what they were fed with, and of nothing else. The order does
not matter, and neither does whether a part was summed up in a group of its own before: the sums,
and so all that is estimated from them, are the same. Blocks without pairs and empty groups leave
the sums as they are. -/
theorem collect_order_free :
    (∀ (m : PairMoments ℝ) (cs ds : List (Contribution ℝ)), cs.Perm ds →
      m.collect cs = m.collect ds ∧ (m.collect cs).mean? = (m.collect ds).mean? ∧
        (m.collect cs).variance? = (m.collect ds).variance? ∧
        (m.collect cs).estimate = (m.collect ds).estimate) ∧
    (∀ (initial initial' : ℝ) (as bs cs : List (Contribution ℝ)), cs.Perm (as ++ bs) →
      ((empty initial).collect as).merge ((empty initial').collect bs) =
        (empty initial).collect cs) ∧
    (∀ (m : PairMoments ℝ) (s : ℝ), m.add 0 s = m) ∧
    (∀ (m : PairMoments ℝ) (initial : ℝ), m.merge (empty initial) = m) := by
  refine ⟨?_, ?_, ?_, merge_empty⟩
  · intro m cs ds hperm
    rw [collect_perm hperm]
    exact ⟨rfl, rfl, rfl, rfl⟩
  · intro initial initial' as bs cs hperm
    have hcounted : (empty initial' : PairMoments ℝ).Counted := .inl rfl
    rw [merge_collect hcounted, merge_empty, collect_perm hperm, collect_append]
  · intro m s
    exact if_pos rfl

/-- Three blocks, one of them without pairs, summed up in two groups and in another order. -/
theorem collect_order_free_small :
    let won : Contribution ℝ := .block 2 3
    let lost : Contribution ℝ := .block 4 (-5)
    let idle : Contribution ℝ := .block 0 7
    [lost, won, idle].Perm ([won, idle] ++ [lost]) ∧
      (empty 1).collect [lost, won, idle] = (empty 1).collect ([won, idle] ++ [lost]) ∧
      ((empty 1).collect [won, idle]).merge ((empty 2).collect [lost]) =
        (empty 1).collect [lost, won, idle] ∧
      (empty 1).collect [lost, won, idle] = ⟨2, 6, -2, 43 / 4, 1⟩ := by
  intro won lost idle
  have hperm : ([lost] ++ [won, idle]).Perm ([won, idle] ++ [lost]) := List.perm_append_comm
  obtain ⟨horder, hgroups, -, -⟩ := collect_order_free
  refine ⟨hperm, (horder (empty 1) _ _ hperm).1, hgroups 1 2 _ _ _ hperm, ?_⟩
  simp only [collect_cons, collect_nil, feed_eq_plus, Contribution.amounts, plus, empty, won, lost,
    idle, Scalar.zero_real]
  norm_num

end PairMoments

end PairedTuning
