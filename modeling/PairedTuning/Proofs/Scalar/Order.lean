import Mathlib
import PairedTuning.Scalar

/-!
# The order of finite floats

A NaN compares with nothing, so a float that is not below another need not be at least as large.
Among floats of finite size it is: there the order is linear.
-/

namespace PairedTuning.Scalar

open Float.Model

/-- Two numbers of finite size compare, and the other way round they compare the other way. -/
lemma exists_compare {u v : UnpackedFloat} (hu : u.isFinite) (hv : v.isFinite) :
    ∃ o, u.compare v = some o ∧ v.compare u = some o.swap := by
  cases u with
  | notANumber => cases hu
  | infinity s => cases hu
  | zero s =>
    cases v with
    | notANumber => cases hv
    | infinity s' => cases hv
    | zero s' => exact ⟨.eq, rfl, rfl⟩
    | finite s' m' e' hm' =>
      cases s' with
      | positive => exact ⟨.lt, rfl, rfl⟩
      | negative => exact ⟨.gt, rfl, rfl⟩
  | finite s m e hm =>
    have hswap (e e' : Int) (m m' : Nat) :
        (compare e' e).then (compare m' m) = ((compare e e').then (compare m m')).swap := by
      rw [Ordering.swap_then, ← Int.compare_swap, ← Nat.compare_swap]
    cases v with
    | notANumber => cases hv
    | infinity s' => cases hv
    | zero s' =>
      cases s with
      | positive => exact ⟨.gt, rfl, rfl⟩
      | negative => exact ⟨.lt, rfl, rfl⟩
    | finite s' m' e' hm' =>
      cases s with
      | positive =>
        cases s' with
        | positive => exact ⟨_, rfl, congrArg some (hswap e e' m m')⟩
        | negative => exact ⟨.gt, rfl, rfl⟩
      | negative =>
        cases s' with
        | positive => exact ⟨.lt, rfl, rfl⟩
        | negative => exact ⟨_, rfl, congrArg (fun o : Ordering => some o.swap) (hswap e e' m m')⟩

lemma not_le_iff_lt {x y : Float} (hx : x.isFinite) (hy : y.isFinite) : ¬ y ≤ x ↔ x < y := by
  obtain ⟨o, hxy, hyx⟩ :=
    @exists_compare x.toModel.unpack y.toModel.unpack hx hy
  have hlt : x < y ↔ o = .lt := by
    show decide ((x.toModel.unpack.compare y.toModel.unpack == some .lt) = true) = true ↔ _
    rw [hxy]
    cases o <;> decide
  have hle : y ≤ x ↔ o.swap.isLE := by
    show decide ((y.toModel.unpack.compare x.toModel.unpack).any (·.isLE) = true) = true ↔ _
    rw [hyx]
    simp
  rw [hlt, hle]
  cases o <;> decide

end PairedTuning.Scalar
