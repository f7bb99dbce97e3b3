import Mathlib

/-!
# Whole numbers as floats

A whole number of 64 bits is far below the greatest float, so the float nearest to it is of finite
size. What is followed through the conversion is a bound on the exponent: rounding raises it by
little more than twice the length of the significand, and up to `greatestExponent` nothing
overflows.
-/

namespace PairedTuning.WholeFloat

open Float.Model Float.Model.UnpackedFloat

/-! ### Bounded exponents -/

/-- Zero, or a number of finite size whose exponent is within a bound. -/
def Within (bound : Int) : UnpackedFloat → Prop
  | .zero _ => True
  | .finite _ _ exponent _ => exponent ≤ bound
  | _ => False

/-- The greatest exponent of a float whose significand is a whole number of full length. -/
def greatestExponent : Int := 971

/-- The exponent of the smallest floats. -/
def leastExponent : Int := -1074

namespace Within

variable {bound : Int} {f : UnpackedFloat}

lemma neg (h : Within bound f) : Within bound f.neg := by
  cases f <;> exact h

lemma isFinite (h : Within bound f) : f.isFinite := by
  cases f with
  | zero s => rfl
  | finite s m e hm => rfl
  | infinity s => cases h
  | notANumber => cases h

end Within

/-! ### Packing -/

/-- An exponent is read back as it was packed, the least one apart. -/
lemma within_unpack_packComponents {bound : Int} (s : Sign) {exponent : Nat}
    (hexponent : exponent < 2047) (hbound : (exponent : Int) - 1075 ≤ bound)
    (hleast : leastExponent ≤ bound) (mantissa : BitVec 52) :
    Within bound (UnpackedFloat.unpack Format.binary64
      (packComponents Format.binary64 s (BitVec.ofNat 11 exponent) mantissa)) := by
  have hvalue : (BitVec.ofNat 11 exponent).toNat = exponent := by
    rw [BitVec.toNat_ofNat, Nat.mod_eq_of_lt (by omega)]
  have hne : BitVec.ofNat 11 exponent ≠ -1#11 := by
    intro heq
    have hnat := congrArg BitVec.toNat heq
    rw [hvalue, show (-1#11).toNat = 2047 from rfl] at hnat
    omega
  have hbias : ((Format.binary64.exponentBias : Int) + Format.binary64.mantissaBitsWithoutImplicit)
      = 1075 := rfl
  simp only [UnpackedFloat.unpack, unpackExponent_packComponents, unpackMantissa_packComponents,
    hne, if_false, hvalue, hbias]
  split_ifs with hzero hmantissa
  · trivial
  · rw [leastExponent] at hleast
    have hexponent : exponent = 0 := by
      rw [← hvalue, hzero]
      rfl
    show (exponent : Int) - 1075 + 1 ≤ bound
    omega
  · exact hbound

/-- A packed number that does not overflow is read back with its exponent, or with the least one. -/
lemma within_unpack_pack {bound : Int} {f : UnpackedFloat} (h : Within bound f)
    (hleast : leastExponent ≤ bound) (hgreatest : bound ≤ greatestExponent) :
    Within bound (Float.Model.pack f).unpack := by
  rw [leastExponent] at hleast
  rw [greatestExponent] at hgreatest
  show Within bound (UnpackedFloat.unpack Format.binary64 (UnpackedFloat.pack Format.binary64 f))
  cases f with
  | zero s => exact @within_unpack_packComponents bound s 0 (by omega) (by omega) hleast 0
  | finite s m e hm =>
    replace h : e ≤ bound := h
    have hbias : (e + Format.binary64.exponentBias + Format.binary64.mantissaBitsWithoutImplicit)
        = e + 1075 := by
      rw [add_assoc]
      rfl
    simp only [UnpackedFloat.pack, hbias]
    split_ifs with hoverflow
    · omega
    · exact within_unpack_packComponents s (by omega) (by omega) hleast _
    · exact @within_unpack_packComponents bound s 0 (by omega) (by omega) hleast _
  | infinity s => cases h
  | notANumber => cases h

lemma mantissa_unpack_lt {x : Float.Model} {s : Sign} {m : Nat} {e : Int} {hm : 0 < m}
    (h : x.unpack = .finite s m e hm) : m < 2 ^ 53 := by
  simp only [Float.Model.unpack, UnpackedFloat.unpack] at h
  split_ifs at h with hexponent hmantissa hzero hmantissa
  · cases h
    exact (BitVec.isLt _).trans (by decide)
  · cases h
    exact BitVec.isLt _

/-! ### Rounding -/

/-- Bits that are dropped make a significand no greater. -/
lemma mantissa_shiftRight_le (m : ExtendedMantissa) (n : Nat) :
    (m >>> n).mantissa ≤ m.mantissa := by
  induction n with
  | zero => exact le_rfl
  | succ n ih => exact (Nat.div_le_self _ _).trans ih

lemma roundedMantissa_le (m : ExtendedMantissa) : m.roundedMantissa ≤ m.mantissa + 1 := by
  obtain ⟨mantissa, roundBit, stickyBit⟩ := m
  cases roundBit <;> cases stickyBit <;>
    simp [ExtendedMantissa.roundedMantissa, ExtendedMantissa.accuracy, Accuracy.roundToNearestEven]
  omega

lemma mantissa_ofMantissaAndAccuracy (m : Nat) (a : Accuracy) :
    (ExtendedMantissa.ofMantissaAndAccuracy m a).mantissa = m := by
  cases a with
  | exact => rfl
  | inexact o => cases o <;> rfl

lemma log2_le_of_lt {m length : Nat} (h : m < 2 ^ length) : m.log2 ≤ length := by
  rcases eq_or_ne m 0 with rfl | hm
  · exact Nat.zero_le _
  · exact ((Nat.log2_lt hm).mpr h).le

lemma shiftToTargetExponent_bounds {m length : Nat} (hm : m < 2 ^ length) (e : Int) (a : Accuracy) :
    (shiftToTargetExponent Format.binary64 m e a).1.mantissa ≤ m ∧
      (shiftToTargetExponent Format.binary64 m e a).2 ≤ max (e + length) leastExponent := by
  constructor
  · have hshift := mantissa_shiftRight_le (ExtendedMantissa.ofMantissaAndAccuracy m a)
      (Format.binary64.targetExponent (totalExponent m e) - e).toNat
    rwa [mantissa_ofMantissaAndAccuracy] at hshift
  · have hlog := log2_le_of_lt hm
    have htarget : Format.binary64.targetExponent (totalExponent m e) =
        max (m.log2 + 1 + e - 53) leastExponent := rfl
    simp only [shiftToTargetExponent, shiftToExponent, htarget]
    omega

/-- The significand is shortened, rounded, and shortened again if it has become too long. -/
lemma within_roundWithAccuracy {m length : Nat} {e bound : Int} (hm : m < 2 ^ length)
    (he : e + 2 * length + 1 ≤ bound) (hbound : leastExponent + length + 1 ≤ bound) (s : Sign)
    (a : Accuracy) : Within bound (roundWithAccuracy Format.binary64 s m e a) := by
  obtain ⟨hmantissa, hexponent⟩ := shiftToTargetExponent_bounds hm e a
  set first := shiftToTargetExponent Format.binary64 m e a with hfirst
  have hrounded : first.1.roundedMantissa < 2 ^ (length + 1) := by
    have hle := roundedMantissa_le first.1
    rw [pow_succ]
    omega
  obtain ⟨-, hagain⟩ := shiftToTargetExponent_bounds hrounded first.2 .exact
  simp only [roundWithAccuracy, ← hfirst]
  split
  · trivial
  · show _ ≤ bound
    push_cast at hagain
    omega

/-! ### Conversion -/

lemma within_round {n : Nat} (h : n < 2 ^ 64) (s : Sign) :
    Within 240 (UnpackedFloat.round Format.binary64 s n 0) := by
  have htarget : Format.binary64.targetExponent (totalExponent n 0) =
      max ((n.log2 : Int) + 1 + 0 - 53) leastExponent := rfl
  simp only [UnpackedFloat.round, decreaseExponent, htarget]
  set shift := (0 - max ((n.log2 : Int) + 1 + 0 - 53) leastExponent).toNat with hshift
  have hle : shift ≤ 52 := by omega
  have hlt : n <<< shift < 2 ^ 116 := by
    rw [Nat.shiftLeft_eq]
    calc n * 2 ^ shift < 2 ^ 64 * 2 ^ shift := Nat.mul_lt_mul_of_pos_right h (by positivity)
      _ ≤ 2 ^ 64 * 2 ^ 52 := Nat.mul_le_mul_left _ (Nat.pow_le_pow_right (by decide) hle)
      _ = 2 ^ 116 := by norm_num
  refine within_roundWithAccuracy hlt ?_ (by decide) s .exact
  push_cast
  omega

lemma within_ofNat {n : Nat} (h : n < 2 ^ 64) :
    Within 240 (UnpackedFloat.ofNat Format.binary64 n) := by
  simp only [UnpackedFloat.ofNat, UnpackedFloat.ofInt, UnpackedFloat.normalize]
  rcases Nat.eq_zero_or_pos n with rfl | hpos
  · trivial
  · rw [show compare (n : Int) 0 = .gt from Int.compare_eq_gt.mpr (by omega)]
    exact within_round h .positive

lemma within_mul {length m m' : Nat} {e e' bound : Int} {hm : 0 < m} {hm' : 0 < m'}
    (hlt : m * m' < 2 ^ length) (he : e + e' + 2 * length + 1 ≤ bound)
    (hbound : leastExponent + length + 1 ≤ bound) (s s' : Sign) :
    Within bound (UnpackedFloat.mul Format.binary64 (.finite s m e hm) (.finite s' m' e' hm')) :=
  within_roundWithAccuracy hlt he hbound (s * s') .exact

/-- Small numbers are converted as they are, and then multiplied by one. -/
lemma within_mul_one {x : Float.Model} (h : Within 240 x.unpack) :
    Within greatestExponent (x * Float.Model.ofBits 0x3FF0000000000000).unpack := by
  have hone : (Float.Model.ofBits 0x3FF0000000000000).unpack =
      .finite .positive (2 ^ 52) (-52) (by decide) := rfl
  show Within _ (Float.Model.pack (UnpackedFloat.mul _ x.unpack _)).unpack
  refine within_unpack_pack ?_ (by decide) le_rfl
  rw [hone]
  cases hx : x.unpack with
  | zero s => trivial
  | finite s m e hm =>
    have hmantissa := mantissa_unpack_lt hx
    have hlt : m * 2 ^ 52 < 2 ^ 105 := by omega
    rw [hx] at h
    replace h : e ≤ 240 := h
    refine within_mul hlt ?_ (by decide) s .positive
    rw [greatestExponent]
    omega
  | infinity s =>
    rw [hx] at h
    cases h
  | notANumber =>
    rw [hx] at h
    cases h

lemma within_floatOfNat {n : Nat} (h : n < 2 ^ 64) :
    Within greatestExponent (Float.ofNat n).toModel.unpack := by
  show Within _ (Float.ofScientific n false 0).toModel.unpack
  rw [Float.ofScientific]
  split
  · have hsmall : Within 240 (Float.Model.ofUInt64 n.toUInt64).unpack := by
      refine within_unpack_pack ?_ (by decide) (by decide)
      exact within_ofNat (UInt64.toNat_lt n.toUInt64)
    exact within_mul_one hsmall
  · rename_i hbig
    have hpos : n ≠ 0 := by
      rintro rfl
      simp at hbig
    have hmoderate : ¬ Int.ofNat 0 < -((2 ^ 11 : Int) + n.log2) := by
      simp
    refine within_unpack_pack ?_ (by decide) le_rfl
    simp only [Bool.false_eq_true, if_false, UnpackedFloat.ofScientific, hpos, dite_false]
    rw [if_neg (by decide), if_neg hmoderate, if_pos (by decide)]
    refine @within_mul 117 _ _ _ _ _ _ _ ?_ (by decide) (by decide) _ _
    rw [Nat.shiftLeft_eq, show Format.binary64.mantissaBits = 53 from rfl]
    simp
    omega

/-- A whole number of 64 bits becomes a float of finite size. -/
theorem isFinite_ofInt {i : Int} (hleast : -2 ^ 63 ≤ i) (hgreatest : i < 2 ^ 64) :
    (Float.ofInt i).isFinite := by
  cases i with
  | ofNat n => exact (within_floatOfNat (n := n) (by simpa using hgreatest)).isFinite
  | negSucc n =>
    have hn : n.succ < 2 ^ 64 := by omega
    have hneg := (within_floatOfNat hn).neg
    exact (within_unpack_pack hneg (by decide) le_rfl).isFinite

end PairedTuning.WholeFloat
