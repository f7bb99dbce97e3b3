import Mathlib
import PairedTuning.Flip.Packing

/-!
# Packed flips read back

Bit `i` of the packed form is the `i`-th flip, and the bits after the last flip are clear. So
`unpack` gives back what `pack` was given once it is told how many flips there are; and since a byte
string is known by its bits, packing again what was unpacked gives back the bytes, up to the bits
that were cut off or filled up.
-/

namespace PairedTuning.Flip

/-- After `k` shifts the first of `k` bits has moved up to position `k - 1`. -/
lemma testBit_foldl_range (bits : Nat → Bool) {k m : Nat} (hk : k ≤ 8) :
    ((List.range k).foldl
        (fun (byte : UInt8) i => byte <<< 1 ||| if bits i then 1 else 0) 0).toNat.testBit m =
      (decide (m < k) && bits (k - 1 - m)) := by
  induction k generalizing m with
  | zero => simp
  | succ k ih =>
    rw [List.range_succ, List.foldl_append, List.foldl_cons, List.foldl_nil, UInt8.toNat_or,
      Nat.testBit_or, UInt8.toNat_shiftLeft, Nat.testBit_mod_two_pow]
    have hlow : (if bits k then (1 : UInt8) else 0).toNat.testBit m =
        (decide (m = 0) && bits k) := by
      cases bits k <;> cases m <;> simp [Nat.testBit_succ]
    rw [hlow]
    cases m with
    | zero => simp
    | succ m =>
      have hone : (1 : UInt8).toNat % 8 = 1 := rfl
      rw [hone, Nat.testBit_shiftLeft, Nat.add_sub_cancel, ih (by omega)]
      by_cases hm : m < k
      · have hbyte : m + 1 < 8 := by omega
        have hsub : k - 1 - m = k - (m + 1) := by omega
        simp [hm, hbyte, hsub]
      · simp [hm]

lemma testBit_byteOfBits (bits : List Bool) {j : Nat} (hj : j < 8) :
    (byteOfBits bits).toNat.testBit (7 - j) = bits.getD j false := by
  rw [byteOfBits, testBit_foldl_range _ (le_refl 8)]
  have hsub : 8 - 1 - (7 - j) = j := by omega
  have hlt : 7 - j < 8 := by omega
  simp [hsub, hlt]

/-- The bits of the packed form are those of the flips, and clear from there on. -/
lemma bitAt_pack (flips : List Flip) (i : Nat) :
    bitAt (pack flips) i = (flips.map toBit).getD i false := by
  have hbit : i % 8 < 8 := Nat.mod_lt i (by decide)
  have hi : 8 * (i / 8) + i % 8 = i := Nat.div_add_mod i 8
  by_cases hbyte : i / 8 < (flips.length + 7) / 8
  · have hget : (pack flips).getD (i / 8) 0 =
        byteOfBits ((flips.drop (8 * (i / 8))).map toBit) := by
      simp [pack, List.getD_eq_getElem?_getD, hbyte]
    rw [bitAt, hget, testBit_byteOfBits _ hbit]
    simp [List.getD_eq_getElem?_getD, hi]
  · have hpacked : (pack flips)[i / 8]? = none := by
      apply List.getElem?_eq_none
      rw [length_pack]
      exact not_lt.mp hbyte
    have hflips : flips[i]? = none := by
      apply List.getElem?_eq_none
      omega
    simp [bitAt, List.getD_eq_getElem?_getD, hpacked, hflips]

lemma unpack_pack (flips : List Flip) : unpack (pack flips) flips.length = flips := by
  apply List.ext_getElem
  · simp
  · intro i _ hi
    simp [unpack, bitAt_pack, List.getD_eq_getElem?_getD, hi]

lemma pack_injective {v w : List Flip} (hlength : v.length = w.length)
    (h : pack v = pack w) : v = w := by
  rw [← unpack_pack v, ← unpack_pack w, h, hlength]

/-! ### Byte strings by their bits -/

/-- Past the end every bit is clear. -/
lemma bitAt_of_le {bytes : List UInt8} {i : Nat} (hi : 8 * bytes.length ≤ i) :
    bitAt bytes i = false := by
  have hnone : bytes[i / 8]? = none := List.getElem?_eq_none (by omega)
  simp [bitAt, List.getD_eq_getElem?_getD, hnone]

/-- A byte is known by its bits. -/
lemma byte_ext {b b' : UInt8} (h : ∀ j < 8, b.toNat.testBit (7 - j) = b'.toNat.testBit (7 - j)) :
    b = b' := by
  apply UInt8.toNat_inj.mp
  apply Nat.eq_of_testBit_eq
  intro j
  rcases lt_or_ge j 8 with hj | hj
  · have hsub : 7 - (7 - j) = j := by omega
    rw [← hsub]
    exact h (7 - j) (by omega)
  · have hhigh (b : UInt8) : b.toNat.testBit j = false :=
      Nat.testBit_lt_two_pow (b.toNat_lt.trans_le (Nat.pow_le_pow_right (by decide) hj))
    rw [hhigh b, hhigh b']

/-- Byte strings of one length are known by their bits. -/
lemma bytes_ext {p q : List UInt8} (hlength : p.length = q.length)
    (h : ∀ i < 8 * p.length, bitAt p i = bitAt q i) : p = q := by
  apply List.ext_getElem hlength
  intro k hp hq
  apply byte_ext
  intro j hj
  have hbit := h (8 * k + j) (by omega)
  have hbyte : (8 * k + j) / 8 = k := by omega
  have hmod : (8 * k + j) % 8 = j := by omega
  simpa [bitAt, hbyte, hmod, List.getD_eq_getElem?_getD, hp, hq] using hbit

/-! ### What was unpacked is packed again -/

/-- A flip that was unpacked is `plus` exactly if the bytes have its bit, and it is set. -/
lemma getElem?_unpack_eq_plus {bytes : List UInt8} {count i : Nat} :
    (unpack bytes count)[i]? = some plus ↔
      i < count ∧ ∃ hi : i < 8 * bytes.length, (bytes[i / 8]).toNat.testBit (7 - i % 8) := by
  have hplus (b : Bool) : ofBit b = plus ↔ b = true := by
    cases b <;> simp [ofBit]
  have hentry : (unpack bytes count)[i]? = some plus ↔ i < count ∧ bitAt bytes i = true := by
    rcases lt_or_ge i count with hi | hi
    · simp [unpack, hi, hplus]
    · simp [unpack, hi.not_gt]
  rw [hentry]
  apply and_congr_right
  intro _
  rcases lt_or_ge i (8 * bytes.length) with hi | hi
  · have hbyte : i / 8 < bytes.length := by omega
    simp [bitAt, List.getD_eq_getElem?_getD, hi, hbyte]
  · simp [bitAt_of_le hi, hi.not_gt]

lemma bitAt_pack_unpack (bytes : List UInt8) (count i : Nat) :
    bitAt (pack (unpack bytes count)) i =
      (decide (i < min count (8 * bytes.length)) && bitAt bytes i) := by
  rw [bitAt_pack]
  rcases lt_or_ge i count with hi | hi
  · rcases lt_or_ge i (8 * bytes.length) with hi' | hi'
    · simp [unpack, List.getD_eq_getElem?_getD, hi, hi']
    · simp [unpack, List.getD_eq_getElem?_getD, hi, bitAt_of_le hi']
  · simp [unpack, List.getD_eq_getElem?_getD, hi.not_gt]

/-- Packing again what was unpacked gives the one byte string of the right length with the bits that
were unpacked, and no others. -/
lemma eq_pack_unpack_iff {bytes packed : List UInt8} {count : Nat} :
    packed = pack (unpack bytes count) ↔ packed.length = count ⌈/⌉ 8 ∧
      ∀ i < 8 * packed.length,
        bitAt packed i = (decide (i < min count (8 * bytes.length)) && bitAt bytes i) := by
  constructor
  · rintro rfl
    constructor
    · simp [Nat.ceilDiv_eq_add_pred_div]
    · intro i _
      exact bitAt_pack_unpack bytes count i
  · rintro ⟨hlength, hbits⟩
    apply bytes_ext
    · simp [hlength, Nat.ceilDiv_eq_add_pred_div]
    · intro i hi
      rw [hbits i hi, bitAt_pack_unpack]

/-- Whole bytes come back as they were. -/
lemma pack_unpack (bytes : List UInt8) : pack (unpack bytes (8 * bytes.length)) = bytes := by
  apply Eq.symm
  rw [eq_pack_unpack_iff]
  constructor
  · rw [Nat.ceilDiv_eq_add_pred_div]
    omega
  · intro i hi
    simp [hi]

/-- Packing and unpacking are inverse in both directions. Flips pack into one byte for each started
group of eight and are read back. Of any byte string, any number of flips can be unpacked: `plus`
where the bytes have a set bit, the most significant bit of each byte first, and `minus` elsewhere.
Packed again they give the byte string that agrees with the old one as far as bits were unpacked,
and is clear from there on; in particular, all bits of a byte string give it back. -/
theorem pack_inverse_unpack :
    (∀ flips : List Flip, (pack flips).length = flips.length ⌈/⌉ 8 ∧
      unpack (pack flips) flips.length = flips) ∧
    (∀ (bytes : List UInt8) (count : Nat), (unpack bytes count).length = count ∧
      ∀ i, (unpack bytes count)[i]? = some plus ↔
        i < count ∧ ∃ hi : i < 8 * bytes.length, (bytes[i / 8]).toNat.testBit (7 - i % 8)) ∧
    (∀ (bytes packed : List UInt8) (count : Nat), packed = pack (unpack bytes count) ↔
      packed.length = count ⌈/⌉ 8 ∧ ∀ i < 8 * packed.length,
        bitAt packed i = (decide (i < min count (8 * bytes.length)) && bitAt bytes i)) ∧
    (∀ bytes : List UInt8, pack (unpack bytes (8 * bytes.length)) = bytes) ∧
    (∀ v w : List Flip, v.length = w.length → pack v = pack w → v = w) := by
  refine ⟨?_, ?_, ?_, pack_unpack, fun _ _ => pack_injective⟩
  · intro flips
    constructor
    · simp [Nat.ceilDiv_eq_add_pred_div]
    · exact unpack_pack flips
  · intro bytes count
    constructor
    · exact length_unpack bytes count
    · intro i
      exact getElem?_unpack_eq_plus
  · intro bytes packed count
    exact eq_pack_unpack_iff

/-- Eleven bits of two bytes, and of one byte only. -/
theorem pack_inverse_unpack_small :
    [0xB5, 0xE0] = pack (unpack [0xB5, 0xFF] 11) ∧ 10 < 8 * [0xB5, 0xE0].length ∧
      bitAt [0xB5, 0xE0] 10 = true ∧ 11 < 8 * [0xB5, 0xE0].length ∧
      bitAt [0xB5, 0xE0] 11 = false ∧ [0xB5, 0x00] = pack (unpack [0xB5] 11) ∧
      [plus, minus].length = [minus, plus].length ∧ pack [plus, minus] ≠ pack [minus, plus] := by
  obtain ⟨-, -, hpack, -, hinjective⟩ := pack_inverse_unpack
  have hcut : [0xB5, 0xE0] = pack (unpack [0xB5, 0xFF] 11) :=
    (hpack [0xB5, 0xFF] [0xB5, 0xE0] 11).mpr ⟨rfl, by decide⟩
  have hfilled : [0xB5, 0x00] = pack (unpack [0xB5] 11) :=
    (hpack [0xB5] [0xB5, 0x00] 11).mpr ⟨rfl, by decide⟩
  have hbits := ((hpack [0xB5, 0xFF] [0xB5, 0xE0] 11).mp hcut).2
  refine ⟨hcut, by decide, (hbits 10 (by decide)).trans (by decide), by decide,
    (hbits 11 (by decide)).trans (by decide), hfilled, rfl, fun h => ?_⟩
  cases hinjective [plus, minus] [minus, plus] rfl h

end PairedTuning.Flip
