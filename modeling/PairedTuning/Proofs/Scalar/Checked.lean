import Mathlib
import PairedTuning.Proofs.Scalar.Real

/-!
# Arithmetic without division by zero

The real numbers once more as scalars, but a division by zero has no value here, nor has anything
that is computed from it. A comparison with the missing value is answered by a guess. So whatever
comes out as a number under both guesses was computed without dividing by zero, on the way that the
comparisons of numbers decide.
-/

namespace PairedTuning

/-- A real number, or the missing value of a division by zero. -/
inductive Checked (guess : Bool) where
  | of (x : ℝ)
  | missing

namespace Checked

variable {guess : Bool}

def map (f : ℝ → ℝ) : Checked guess → Checked guess
  | of x => of (f x)
  | missing => missing

def map₂ (f : ℝ → ℝ → ℝ) : Checked guess → Checked guess → Checked guess
  | of x, of y => of (f x y)
  | _, _ => missing

noncomputable def div : Checked guess → Checked guess → Checked guess
  | of x, of y => if y = 0 then missing else of (x / y)
  | _, _ => missing

/-- Compare two numbers, or guess. -/
def Compares (r : ℝ → ℝ → Prop) : Checked guess → Checked guess → Prop
  | of x, of y => r x y
  | _, _ => guess

noncomputable instance : Scalar (Checked guess) where
  add := map₂ (· + ·)
  sub := map₂ (· - ·)
  mul := map₂ (· * ·)
  div := div
  neg := map (- ·)
  lt := Compares (· < ·)
  le := Compares (· ≤ ·)
  beq x y :=
    match x, y with
    | of x, of y => x == y
    | _, _ => guess
  ofScientific m s e := of (OfScientific.ofScientific m s e)
  decLt _ _ := Classical.propDecidable _
  decLe _ _ := Classical.propDecidable _
  ofNat n := of n
  pow := map₂ (· ^ ·)
  exp := map Real.exp
  log := map Real.log
  sqrt := map Real.sqrt
  abs := map (|·|)
  isFinite
    | of _ => true
    | missing => false
  counterModulus := 0

/-! ### Numbers are computed with as ever -/

section

variable (x y : ℝ)

@[simp] lemma add_of : (of x + of y : Checked guess) = of (x + y) := rfl

@[simp] lemma sub_of : (of x - of y : Checked guess) = of (x - y) := rfl

@[simp] lemma mul_of : (of x * of y : Checked guess) = of (x * y) := rfl

@[simp] lemma neg_of : (-of x : Checked guess) = of (-x) := rfl

@[simp] lemma lt_of : (of x : Checked guess) < of y ↔ x < y := Iff.rfl

@[simp] lemma le_of : (of x : Checked guess) ≤ of y ↔ x ≤ y := Iff.rfl

@[simp] lemma beq_of : ((of x : Checked guess) == of y) = (x == y) := rfl

@[simp] lemma pow_of : (Scalar.pow (of x) (of y) : Checked guess) = of (Scalar.pow x y) := rfl

@[simp] lemma exp_of : (Scalar.exp (of x) : Checked guess) = of (Scalar.exp x) := rfl

@[simp] lemma log_of : (Scalar.log (of x) : Checked guess) = of (Scalar.log x) := rfl

@[simp] lemma sqrt_of : (Scalar.sqrt (of x) : Checked guess) = of (Scalar.sqrt x) := rfl

@[simp] lemma abs_of : (Scalar.abs (of x) : Checked guess) = of (Scalar.abs x) := rfl

@[simp] lemma ofNat_of (n : Nat) : (Scalar.ofNat n : Checked guess) = of (Scalar.ofNat n) := rfl

@[simp] lemma numeral_of (n : Nat) :
    @OfNat.ofNat (Checked guess) n (Scalar.instOfNat n) =
      of (@OfNat.ofNat ℝ n (Scalar.instOfNat n)) := rfl

@[simp] lemma scientific_of (m : Nat) (s : Bool) (e : Nat) :
    (OfScientific.ofScientific m s e : Checked guess) = of (OfScientific.ofScientific m s e) := rfl

@[simp] lemma count_checked (n : Nat) : Scalar.count (Checked guess) n = n := Nat.mod_zero n

variable {x y}

@[simp] lemma div_of (h : y ≠ 0) : (of x / of y : Checked guess) = of (x / y) :=
  if_neg h

end

/-! ### Composed operations -/

@[simp] lemma ite_of (p : Prop) [Decidable p] (x y : ℝ) :
    (if p then of x else of y : Checked guess) = of (if p then x else y) :=
  (apply_ite of p x y).symm

@[simp] lemma clamp_of (lo hi x : ℝ) :
    (Scalar.clamp (of lo) (of hi) (of x) : Checked guess) = of (Scalar.clamp lo hi x) := by
  simp only [Scalar.clamp, lt_of]
  split_ifs <;> rfl

@[simp] lemma larger_of (x y : ℝ) :
    (Scalar.larger (of x) (of y) : Checked guess) = of (Scalar.larger x y) := by
  simp only [Scalar.larger, lt_of, le_of]
  split_ifs <;> rfl

/-- A division that is carried out only where its divisor is not zero. -/
lemma ite_div_of {p : Prop} [Decidable p] {y : ℝ} (h : p → y ≠ 0) (x z : ℝ) :
    (if p then of x / of y else of z : Checked guess) = of (if p then x / y else z) := by
  split_ifs with hp
  · exact div_of (h hp)
  · rfl

@[simp] lemma sum_of {ι : Type} (f : ι → ℝ) (is : List ι) :
    (Scalar.sum (is.map fun i => of (f i)) : Checked guess) = of (Scalar.sum (is.map f)) := by
  suffices h : ∀ total : ℝ, (is.map fun i => of (f i)).foldl (· + ·) (of total : Checked guess) =
      of ((is.map f).foldl (· + ·) total) from h (-Scalar.ofNat 0)
  induction is with
  | nil => exact fun _ => rfl
  | cons i is ih => exact fun total => ih (total + f i)

end Checked

end PairedTuning
