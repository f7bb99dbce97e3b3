import Mathlib
import PairedTuning.Proofs.Scalar.Real

/-!
# Counters

Additions to a counter that starts again from zero at its bound. What such a counter shows differs
from the exact count by a multiple of the bound, and not at all as long as the count fits. In exact
arithmetic every count fits.
-/

namespace PairedTuning

namespace Scalar

variable {α : Type} [Scalar α]

/-- The number is below the bound of counters, if they have one: `2 ^ 64` beside floats, and none in
exact arithmetic. -/
def FitsCounter (α : Type) [Scalar α] (n : Nat) : Prop :=
  counterModulus α = 0 ∨ n < counterModulus α

lemma count_float (n : Nat) : count Float n = n % 2 ^ 64 := by
  have hmodulus : counterModulus Float = 2 ^ 64 := rfl
  rw [count, hmodulus]

lemma FitsCounter.mono {m n : Nat} (h : FitsCounter α n) (hmn : m ≤ n) : FitsCounter α m :=
  h.imp id hmn.trans_lt

lemma FitsCounter.count_eq {n : Nat} (h : FitsCounter α n) : count α n = n := by
  rcases h with hzero | hlt
  · rw [count, hzero, Nat.mod_zero]
  · exact Nat.mod_eq_of_lt hlt

/-- What a counter shows for a count. -/
structure Counts (α : Type) [Scalar α] (n shown : Nat) : Prop where
  modEq : shown ≡ n [MOD counterModulus α]
  eq_of_fits : FitsCounter α n → shown = n

namespace Counts

variable {m n shown : Nat}

lemma refl (n : Nat) : Counts α n n := ⟨rfl, fun _ => rfl⟩

lemma add (h : Counts α m shown) (n : Nat) : Counts α (m + n) (count α (shown + n)) where
  modEq := (Nat.mod_modEq _ _).trans (h.modEq.add_right n)
  eq_of_fits hfits := by
    rw [h.eq_of_fits (hfits.mono (Nat.le_add_right m n)), hfits.count_eq]

end Counts

end Scalar

end PairedTuning
