import PairedTuning.Scalar

/-!
# Moments of a game pair

The outcome of one game pair is a number from -2 to 2. Workers report only block summaries: the
number `n` of pairs and the sum `s` of their outcomes. Four running sums over those summaries are
enough to estimate the second moment of a single pair without bias, since

  `E[s² / n] = variance + mean² · E[n]`.

The sums do not depend on the order of the reports, and the sums of two groups of reports add up.
-/

namespace PairedTuning

/-- A distribution of the outcome of one game pair: the probabilities of the five outcomes. -/
structure Pentanomial (α : Type) where
  minusTwo : α
  minusOne : α
  zero : α
  plusOne : α
  plusTwo : α

namespace Pentanomial

variable {α : Type} [Scalar α]

/-- The five probabilities, by rising outcome. -/
def toList (p : Pentanomial α) : List α :=
  [p.minusTwo, p.minusOne, p.zero, p.plusOne, p.plusTwo]

def outcomes : List α := [-2, -1, 0, 1, 2]

def mean (p : Pentanomial α) : α :=
  Scalar.sum (p.toList.zipWith (fun probability x => probability * x) outcomes)

def secondMoment (p : Pentanomial α) : α :=
  Scalar.sum (p.toList.zipWith (fun probability x => probability * x * x) outcomes)

def variance (p : Pentanomial α) : α :=
  p.secondMoment - p.mean * p.mean

end Pentanomial

/-- What is believed about a pair before a run starts: a distribution, and the weight it has. -/
structure MomentPrior (α : Type) where
  distribution : Pentanomial α
  /-- The number of reports that the prior counts for. -/
  reports : α
  /-- The mean number of pairs of such a report. -/
  pairsPerReport : α

/-- The running sums over all reports. -/
structure PairMoments (α : Type) where
  /-- The number of reports. -/
  reports : α
  /-- The sum of `n`. -/
  pairs : α
  /-- The sum of `s`. -/
  signed : α
  /-- The sum of `s² / n`. -/
  squaredPerPair : α
  /-- The second moment that is assumed before the first report. -/
  initial : α

namespace PairMoments

variable {α : Type} [Scalar α]

/-- The least second moment ever estimated. -/
def leastEstimate : α := 1e-12

/-- The greatest second moment ever estimated: no outcome exceeds two. -/
def greatestEstimate : α := 4

/-- No report yet. -/
def empty (initial : α) : PairMoments α := ⟨0, 0, 0, 0, initial⟩

/-- Add one block of `n` pairs with sum `s`. A block without pairs says nothing. -/
def add (m : PairMoments α) (n : Nat) (s : α) : PairMoments α :=
  if n = 0 then m
  else
    { m with
      reports := m.reports + 1
      pairs := m.pairs + Scalar.ofNat n
      signed := m.signed + s
      squaredPerPair := m.squaredPerPair + s * s / Scalar.larger (Scalar.ofNat n) 1 }

/-- Add the sums of another group of reports, if it has any. The assumed second moment stays. -/
def merge (m other : PairMoments α) : PairMoments α :=
  if other.reports ≤ 0 then m
  else
    { m with
      reports := m.reports + other.reports
      pairs := m.pairs + other.pairs
      signed := m.signed + other.signed
      squaredPerPair := m.squaredPerPair + other.squaredPerPair }

/-- The sums that make the estimator answer with the moments of a prior's distribution. A prior
without weight gives no reports. -/
def ofPrior (p : MomentPrior α) : PairMoments α :=
  let μ := p.distribution.mean
  let none := empty p.distribution.secondMoment
  if p.reports ≤ 0 ∨ p.pairsPerReport ≤ 0 then none
  else
    { none with
      reports := p.reports
      pairs := p.reports * p.pairsPerReport
      signed := p.reports * p.pairsPerReport * μ
      squaredPerPair := p.reports * (p.distribution.variance + p.pairsPerReport * μ * μ) }

/-- The mean outcome of a pair, once there is a pair. -/
def mean? (m : PairMoments α) : Option α :=
  if 0 < m.pairs then some (m.signed / m.pairs) else none

/-- The variance of the outcome of a pair, once there is a report. -/
def variance? (m : PairMoments α) : Option α :=
  if m.reports ≤ 0 then none
  else m.mean?.map fun μ =>
    Scalar.larger (m.squaredPerPair / m.reports - μ * μ * (m.pairs / m.reports)) 0

/-- The estimated second moment of the outcome of a pair. -/
def estimate (m : PairMoments α) : α :=
  if m.reports ≤ 0 then m.initial
  else
    let μ := m.mean?.getD 0
    Scalar.clamp leastEstimate greatestEstimate (μ * μ + m.variance?.getD 0)

end PairMoments

end PairedTuning
