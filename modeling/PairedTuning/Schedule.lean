import PairedTuning.State

/-!
# The classic schedule

In a classic run the size of a perturbation and the gain of a step decay with the index `k` of the
game pair, counted from one:

  `c k = c / k ^ gamma` and `a k = a / (offset + k) ^ alpha`.

A report stands for a whole block of pairs. The mean gain over a block is a plain sum while the
block is short; the rest of a long block is integrated, so that the work does not grow with the
block.
-/

namespace PairedTuning

/-- The decaying schedule of one parameter. -/
structure Schedule (α : Type) where
  a : α
  c : α
  offset : α
  alpha : α
  gamma : α

namespace Schedule

variable {α : Type} [Scalar α]

/-- The schedule of a parameter. Only classic runs have one. -/
def ofParameter? : Optimizer α → Parameter α → Option (Schedule α)
  | .classic offset alpha gamma _, p => some ⟨p.a, p.c, offset, alpha, gamma⟩
  | _, _ => none

/-- The size of the perturbation at pair `k`. -/
def size (s : Schedule α) (k : α) : α :=
  s.c / Scalar.pow k s.gamma

/-- The numerator of the gain at pair `k`. -/
def numerator (s : Schedule α) (k : α) : α :=
  s.a / Scalar.pow (s.offset + k) s.alpha

/-- The gain at pair `k` that is sent along with a perturbation: the numerator over the squared
size. -/
def gain (s : Schedule α) (k : α) : α :=
  let size := s.size k
  s.numerator k / (size * size)

/-- The gain of one step at pair `k`: the numerator over the size. A perturbation of size zero
moves nothing. -/
def stepGain (s : Schedule α) (k : α) : α :=
  let size := s.size k
  if size == 0 then 0 else s.numerator k / size

/-- The number of pairs of a block whose gains are summed one by one. -/
def exactPairs : Nat := 4096

/-- The number of intervals of Simpson's rule, an even number. -/
def tailIntervals : Nat := 1024

/-- The step gain as a function of `u = log k`, times the derivative of `k`. -/
def logGain (s : Schedule α) (u : α) : α :=
  let k := Scalar.exp u
  s.stepGain k * k

/-- The integral of the step gain from `lo` to `hi`, by Simpson's rule in `log k`, in which the
integrand is smooth at every scale. -/
def integral (s : Schedule α) (lo hi : α) : α :=
  if hi ≤ lo then 0
  else
    let first := Scalar.log lo
    let last := Scalar.log hi
    let h := (last - first) / Scalar.ofNat tailIntervals
    let inner := Scalar.sum <| (List.range (tailIntervals - 1)).map fun j =>
      let i := j + 1
      let weight : α := if i % 2 = 1 then 4 else 2
      weight * s.logGain (first + Scalar.ofNat i * h)
    (s.logGain first + s.logGain last + inner) * h / 3

/-- The mean step gain over the `n` pairs from `k` on: the first `exactPairs` gains one by one, the
others as an integral with half of both ends added. -/
def meanStepGain (s : Schedule α) (k : α) (n : Nat) : α :=
  if n = 0 then 0
  else
    let exact := min n exactPairs
    let head := Scalar.sum <| (List.range exact).map fun j => s.stepGain (k + Scalar.ofNat j)
    let total :=
      if exact < n then
        let lo := k + Scalar.ofNat exact
        let hi := k + Scalar.ofNat (n - 1)
        head + (s.integral lo hi + 0.5 * (s.stepGain lo + s.stepGain hi))
      else head
    total / Scalar.ofNat n

end Schedule

end PairedTuning
