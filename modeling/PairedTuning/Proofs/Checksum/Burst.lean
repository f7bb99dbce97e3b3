import Mathlib
import PairedTuning.Checksum

/-!
# Bursts

The register is shifted by a linear map that loses nothing: the generator has its highest bit set,
so a set bit that falls out at the low end can be told from the high end. Hence two byte strings of
one length lead to the same register from the first difference on only if the differences cancel.

Within four bytes they cannot. A byte enters at the low end and the register has room for four, so
four bytes can as well enter as one word (`foldl_feed`) before the shifts of all of them.
-/

namespace PairedTuning.Checksum

/-! ### One shift -/

lemma shift_eq (x : UInt32) :
    shift x = x >>> 1 ^^^ if x.toNat.testBit 0 then generator else 0 := by
  have hlow : x &&& 1 = 0 ↔ x.toNat.testBit 0 = false := by
    have hand : (x &&& 1).toNat = x.toNat % 2 := Nat.and_one_is_mod x.toNat
    rw [← UInt32.toNat_inj, hand]
    simp
  unfold shift
  cases h : x.toNat.testBit 0 with
  | false => simp [hlow.mpr h]
  | true => simp [hlow, h]

lemma shift_xor (a b : UInt32) : shift (a ^^^ b) = shift a ^^^ shift b := by
  have hcancel : a >>> 1 ^^^ generator ^^^ (b >>> 1 ^^^ generator) = a >>> 1 ^^^ b >>> 1 := by
    calc a >>> 1 ^^^ generator ^^^ (b >>> 1 ^^^ generator)
        = a >>> 1 ^^^ b >>> 1 ^^^ (generator ^^^ generator) := by ac_rfl
      _ = a >>> 1 ^^^ b >>> 1 := by rw [UInt32.xor_self, UInt32.xor_zero]
  simp only [shift_eq, UInt32.toNat_xor, Nat.testBit_xor, UInt32.shiftRight_xor]
  cases a.toNat.testBit 0 <;> cases b.toNat.testBit 0
  · simp
  · simp [UInt32.xor_assoc]
  · simp only [Bool.true_xor, Bool.not_false, if_true, Bool.false_eq_true, if_false,
      UInt32.xor_zero]
    ac_rfl
  · simp [hcancel]

/-- The bit that falls out comes back as the highest bit. -/
lemma testBit_shift (x : UInt32) : (shift x).toNat.testBit 31 = x.toNat.testBit 0 := by
  have hhigh : x.toNat.testBit 32 = false := Nat.testBit_lt_two_pow x.toNat_lt
  have hgenerator : generator.toNat.testBit 31 = true := by decide
  rw [shift_eq, UInt32.toNat_xor, Nat.testBit_xor, UInt32.toNat_shiftRight]
  cases x.toNat.testBit 0 <;> simp [hhigh, hgenerator]

lemma toNat_shift_of_even {x : UInt32} (h : x.toNat % 2 = 0) : (shift x).toNat = x.toNat / 2 := by
  have hlow : x.toNat.testBit 0 = false := by simpa using h
  rw [shift_eq, hlow]
  simp [Nat.shiftRight_eq_div_pow]

lemma shift_injective : Function.Injective shift := by
  intro a b hab
  have hzero : shift (a ^^^ b) = 0 := by rw [shift_xor, hab, UInt32.xor_self]
  have hlow : (a ^^^ b).toNat.testBit 0 = false := by rw [← testBit_shift, hzero]; rfl
  have heven : (a ^^^ b).toNat % 2 = 0 := by simpa using hlow
  have hhalf : (a ^^^ b).toNat / 2 = 0 := by rw [← toNat_shift_of_even heven, hzero]; rfl
  rw [← UInt32.xor_eq_zero_iff, ← UInt32.toNat_inj]
  exact (by omega : (a ^^^ b).toNat = 0)

/-! ### Eight shifts -/

/-- Shift a byte out of the register. -/
def advance : UInt32 → UInt32 := shift^[8]

lemma feed_eq (register : UInt32) (byte : UInt8) :
    feed register byte = advance (register ^^^ byte.toUInt32) := rfl

lemma advance_xor (a b : UInt32) : advance (a ^^^ b) = advance a ^^^ advance b := by
  have h (n : Nat) : shift^[n] (a ^^^ b) = shift^[n] a ^^^ shift^[n] b := by
    induction n with
    | zero => rfl
    | succ n ih => simp only [Function.iterate_succ_apply', ih, shift_xor]
  exact h 8

lemma advance_injective : Function.Injective advance := shift_injective.iterate 8

/-- As long as clear bits fall out, a shift halves the register. -/
lemma toNat_iterate_shift {n : Nat} {x : UInt32} (h : 2 ^ n ∣ x.toNat) :
    (shift^[n] x).toNat = x.toNat / 2 ^ n := by
  induction n generalizing x with
  | zero => simp
  | succ n ih =>
    obtain ⟨k, hk⟩ := h
    have hk' : x.toNat = 2 * (2 ^ n * k) := by rw [hk, pow_succ', mul_assoc]
    have hhalf : (shift x).toNat = 2 ^ n * k := by
      rw [toNat_shift_of_even (by omega), hk', Nat.mul_div_cancel_left _ two_pos]
    rw [Function.iterate_succ_apply, ih ⟨k, hhalf⟩, hhalf, hk,
      Nat.mul_div_cancel_left _ (by positivity), Nat.mul_div_cancel_left _ (by positivity)]

lemma toNat_shiftLeft {x : UInt32} (h : x.toNat < 2 ^ 24) : (x <<< 8).toNat = 2 ^ 8 * x.toNat := by
  have hmod : (8 : UInt32).toNat % 32 = 8 := rfl
  rw [UInt32.toNat_shiftLeft, hmod, Nat.shiftLeft_eq, mul_comm]
  exact Nat.mod_eq_of_lt (by omega)

/-- What is three bytes long may be entered a byte higher, and one byte later. -/
lemma advance_shiftLeft {x : UInt32} (h : x.toNat < 2 ^ 24) : advance (x <<< 8) = x := by
  have hx := toNat_shiftLeft h
  rw [← UInt32.toNat_inj, advance, toNat_iterate_shift ⟨_, hx⟩, hx]
  exact Nat.mul_div_cancel_left _ (by positivity)

/-! ### Words -/

/-- Up to four bytes as a word, the first one lowest. -/
def word : List UInt8 → UInt32
  | [] => 0
  | b :: bytes => b.toUInt32 ^^^ word bytes <<< 8

lemma word_lt {bytes : List UInt8} (h : bytes.length ≤ 4) :
    (word bytes).toNat < 2 ^ (8 * bytes.length) := by
  induction bytes with
  | nil => simp [word]
  | cons b bytes ih =>
    rw [List.length_cons] at h ⊢
    have hrest := ih (by omega)
    have hshort : (word bytes).toNat < 2 ^ 24 :=
      hrest.trans_le (Nat.pow_le_pow_right two_pos (by omega))
    have hpow : 2 ^ (8 * (bytes.length + 1)) = 2 ^ 8 * 2 ^ (8 * bytes.length) := by
      rw [← pow_add, mul_add, mul_one, Nat.add_comm]
    rw [word, UInt32.toNat_xor, toNat_shiftLeft hshort]
    refine Nat.xor_lt_two_pow ?_ (by rw [hpow]; omega)
    have hb : b.toUInt32.toNat < 2 ^ 8 := b.toNat_lt
    exact hb.trans_le (Nat.pow_le_pow_right two_pos (by omega))

lemma word_lt_of_short {bytes : List UInt8} (h : bytes.length ≤ 3) :
    (word bytes).toNat < 2 ^ 24 :=
  (word_lt (by omega)).trans_le (Nat.pow_le_pow_right two_pos (by omega))

lemma toUInt8_word {b : UInt8} {bytes : List UInt8} (h : bytes.length ≤ 3) :
    (word (b :: bytes)).toUInt8 = b := by
  have hrest : (word bytes <<< 8).toUInt8 = 0 := by
    rw [← UInt8.toNat_inj, UInt32.toNat_toUInt8, toNat_shiftLeft (word_lt_of_short h)]
    exact Nat.mul_mod_right ..
  rw [word, UInt32.toUInt8_xor, UInt8.toUInt8_toUInt32, hrest, UInt8.xor_zero]

lemma word_injective {v w : List UInt8} (hlength : v.length = w.length) (hshort : v.length ≤ 4)
    (h : word v = word w) : v = w := by
  induction v generalizing w with
  | nil => exact (List.length_eq_zero_iff.mp hlength.symm).symm
  | cons a v ih =>
    cases w with
    | nil => cases hlength
    | cons b w =>
      simp only [List.length_cons, Nat.add_right_cancel_iff] at hlength hshort
      have hv : v.length ≤ 3 := by omega
      have hw : w.length ≤ 3 := by omega
      obtain rfl : a = b := by rw [← toUInt8_word (b := a) hv, h, toUInt8_word hw]
      have hrest : word v <<< 8 = word w <<< 8 := (UInt32.xor_right_inj _).mp h
      have hword : word v = word w := by
        rw [← advance_shiftLeft (word_lt_of_short hv), hrest,
          advance_shiftLeft (word_lt_of_short hw)]
      rw [ih hlength (by omega) hword]

/-! ### Byte strings -/

/-- Up to four bytes may enter as one word, before the shifts of all of them. -/
lemma foldl_feed {bytes : List UInt8} (h : bytes.length ≤ 4) (register : UInt32) :
    bytes.foldl feed register = advance^[bytes.length] (register ^^^ word bytes) := by
  induction bytes generalizing register with
  | nil => simp [word]
  | cons b bytes ih =>
    rw [List.length_cons] at h
    -- The rest may as well enter before the byte is shifted out, if it enters a byte higher.
    have hword : advance (word bytes <<< 8) = word bytes :=
      advance_shiftLeft (word_lt_of_short (by omega))
    calc (b :: bytes).foldl feed register
        = advance^[bytes.length] (advance (register ^^^ b.toUInt32) ^^^ word bytes) := by
          rw [List.foldl_cons, ih (by omega), feed_eq]
      _ = advance^[bytes.length] (advance (register ^^^ b.toUInt32 ^^^ word bytes <<< 8)) := by
          rw [advance_xor (register ^^^ b.toUInt32), hword]
      _ = advance^[bytes.length + 1] (register ^^^ word (b :: bytes)) := by
          rw [Function.iterate_succ_apply, word, UInt32.xor_assoc]

/-- Up to four bytes can be told from the register after them. -/
lemma foldl_feed_injective {v w : List UInt8} (hlength : v.length = w.length)
    (hshort : v.length ≤ 4) {register : UInt32}
    (h : v.foldl feed register = w.foldl feed register) :
    v = w := by
  rw [foldl_feed hshort, foldl_feed (hlength ▸ hshort), ← hlength] at h
  exact word_injective hlength hshort
    ((UInt32.xor_right_inj register).mp (advance_injective.iterate v.length h))

/-- What follows never makes two registers equal. -/
lemma foldl_feed_register_injective (bytes : List UInt8) :
    Function.Injective fun register => bytes.foldl feed register := by
  induction bytes with
  | nil => exact fun _ _ h => h
  | cons b bytes ih =>
    intro r r' h
    -- The induction undoes the later bytes first, then the shifts and the byte itself.
    exact (UInt32.xor_left_inj b.toUInt32).mp (advance_injective (ih h))

/-- Two byte strings of one length that differ, and only within four consecutive bytes. -/
structure Burst (p q : List UInt8) : Prop where
  length_eq : p.length = q.length
  ne : p ≠ q
  within : ∃ k, ∀ i, p[i]? ≠ q[i]? → k ≤ i ∧ i < k + 4

/-- A burst has a common start, a common rest, and four bytes in between at most. -/
lemma Burst.exists_split {p q : List UInt8} (h : Burst p q) :
    ∃ start v w rest, p = start ++ v ++ rest ∧ q = start ++ w ++ rest ∧ v.length = w.length ∧
      v.length ≤ 4 ∧ v ≠ w := by
  obtain ⟨k, hk⟩ := h.within
  have hstart : p.take k = q.take k := by
    apply List.ext_getElem?
    intro i
    rw [List.getElem?_take, List.getElem?_take]
    split_ifs with hi
    · by_contra hne
      exact absurd (hk i hne).1 (by omega)
    · rfl
  have hrest : p.drop (k + 4) = q.drop (k + 4) := by
    apply List.ext_getElem?
    intro i
    rw [List.getElem?_drop, List.getElem?_drop]
    by_contra hne
    exact absurd (hk _ hne).2 (by omega)
  have hsplit (l : List UInt8) : l = l.take k ++ (l.drop k).take 4 ++ l.drop (k + 4) := by
    rw [List.append_assoc, ← List.drop_drop, List.take_append_drop, List.take_append_drop]
  refine ⟨p.take k, (p.drop k).take 4, (q.drop k).take 4, p.drop (k + 4), hsplit p, ?_, ?_, ?_, ?_⟩
  · rw [hstart, hrest]
    exact hsplit q
  · simp [h.length_eq]
  · simp
  · intro hmid
    exact h.ne (by rw [hsplit p, hsplit q, hstart, hmid, hrest])

/-- Whatever differs within four bytes is a burst. -/
lemma Burst.of_short {p q : List UInt8} (hlength : p.length = q.length) (hshort : p.length ≤ 4)
    (hne : p ≠ q) : Burst p q where
  length_eq := hlength
  ne := hne
  within := by
    refine ⟨0, fun i hi => ⟨Nat.zero_le i, ?_⟩⟩
    by_contra hlt
    rw [List.getElem?_eq_none (by omega), List.getElem?_eq_none (by omega)] at hi
    exact hi rfl

/-- A byte string with one bit flipped. The bits are counted from the lowest of the first byte. -/
def flipBit (bytes : List UInt8) (bit : Nat) : List UInt8 :=
  bytes.modify (bit / 8) (· ^^^ 1 <<< UInt8.ofNat (bit % 8))

lemma one_shiftLeft_ne_zero {j : Nat} (hj : j < 8) : (1 : UInt8) <<< UInt8.ofNat j ≠ 0 := by
  have h : ∀ j < 8, (1 : UInt8) <<< UInt8.ofNat j ≠ 0 := by decide
  exact h j hj

lemma burst_flipBit {bytes : List UInt8} {bit : Nat} (h : bit < 8 * bytes.length) :
    Burst (flipBit bytes bit) bytes where
  length_eq := by simp [flipBit]
  ne := by
    have hbyte : bit / 8 < bytes.length := by omega
    intro heq
    have hget : bytes[bit / 8] ^^^ 1 <<< UInt8.ofNat (bit % 8) = bytes[bit / 8] ^^^ 0 := by
      have hget := congrArg (·[bit / 8]?) heq
      simpa only [flipBit, List.getElem?_modify_eq, List.getElem?_eq_getElem hbyte,
        Option.map_eq_map, Option.map_some, Option.some.injEq, UInt8.xor_zero] using hget
    exact one_shiftLeft_ne_zero (Nat.mod_lt bit (by decide)) ((UInt8.xor_right_inj _).mp hget)
  within := by
    refine ⟨bit / 8, fun i hi => ?_⟩
    by_cases hbyte : bit / 8 = i
    · omega
    · simp [flipBit, hbyte] at hi

/-- A burst is seen by the checksum. -/
lemma Burst.ofBytes_ne {p q : List UInt8} (h : Burst p q) : ofBytes p ≠ ofBytes q := by
  obtain ⟨start, v, w, rest, rfl, rfl, hlength, hshort, hne⟩ := h.exists_split
  intro heq
  rw [ofBytes, ofBytes, UInt32.not_inj, List.foldl_append, List.foldl_append, List.foldl_append,
    List.foldl_append] at heq
  exact hne (foldl_feed_injective hlength hshort (foldl_feed_register_injective rest heq))

end PairedTuning.Checksum
