/-!
# Scalars

The update rules, the schedules and the estimator are written once, over any type that has the
operations of `Scalar`. They run on `Float`; the same definitions read over the real numbers give
the exact arithmetic that their laws are about. How far a counter goes belongs to the arithmetic as
well: beside floats counters have 64 bits, in exact arithmetic they have no bound.

Every formula keeps one fixed order of operations, since on floats the order shows in the result.
-/

namespace PairedTuning

/-- The arithmetic that tuning needs. On floats `==` identifies the two zeros and separates a NaN
from everything, itself included. -/
class Scalar (α : Type) extends Add α, Sub α, Mul α, Div α, Neg α, LT α, LE α, BEq α,
    OfScientific α where
  decLt : DecidableRel (fun x y : α => x < y)
  decLe : DecidableRel (fun x y : α => x ≤ y)
  /-- The scalar nearest to a natural number. -/
  ofNat : Nat → α
  pow : α → α → α
  exp : α → α
  log : α → α
  sqrt : α → α
  abs : α → α
  /-- Whether the value is a number of finite size. -/
  isFinite : α → Bool
  /-- The number at which counters start again from zero; zero if they have no bound. -/
  counterModulus : Nat

namespace Scalar

instance (priority := 10) {α : Type} [Scalar α] (n : Nat) : OfNat α n := ⟨ofNat n⟩

instance (priority := low) {α : Type} [Scalar α] : DecidableLT α := decLt

instance (priority := low) {α : Type} [Scalar α] : DecidableLE α := decLe

instance : Scalar Float where
  decLt := fun x y => inferInstanceAs (Decidable (x < y))
  decLe := fun x y => inferInstanceAs (Decidable (x ≤ y))
  ofNat := Float.ofNat
  pow := Float.pow
  exp := Float.exp
  log := Float.log
  sqrt := Float.sqrt
  abs := Float.abs
  isFinite := Float.isFinite
  counterModulus := 1 <<< 64

variable {α : Type} [Scalar α]

/-- The nearest value in `[lo, hi]`, where `lo ≤ hi`. -/
def clamp (lo hi x : α) : α :=
  if x < lo then lo else if hi < x then hi else x

/-- The larger of two values; of equal ones the second, and of a NaN and another value the other. -/
def larger (x y : α) : α :=
  if y < x then x else if y ≤ y then y else x

/-- The sum from left to right. It starts from minus zero, which leaves every first term as it
is. -/
def sum (xs : List α) : α :=
  xs.foldl (· + ·) (-0)

/-- A counter that has been advanced to `n`. -/
def count (α : Type) [Scalar α] (n : Nat) : Nat := n % counterModulus α

end Scalar

end PairedTuning
