import PairedTuning.Flip

/-!
# Packed flips

The flips of a perturbation are kept one to a bit: the first flip is the most significant bit of
the first byte, a set bit is `plus`, and the bits after the last flip are clear.
-/

namespace PairedTuning.Flip

/-- The bit that stands for a flip. -/
def toBit : Flip → Bool
  | minus => false
  | plus => true

/-- The flip that a bit stands for. -/
def ofBit : Bool → Flip
  | false => minus
  | true => plus

@[simp] theorem ofBit_toBit (f : Flip) : ofBit f.toBit = f := by cases f <;> rfl

@[simp] theorem toBit_ofBit (b : Bool) : (ofBit b).toBit = b := by cases b <;> rfl

/-- The byte whose bits, from the most significant one on, are the first eight of `bits`; absent
bits are clear. -/
def byteOfBits (bits : List Bool) : UInt8 :=
  (List.range 8).foldl (fun byte i => byte <<< 1 ||| if bits.getD i false then 1 else 0) 0

/-- Bit `i` of a byte string, counted from the most significant bit of its first byte. Past the end
every bit is clear. -/
def bitAt (bytes : List UInt8) (i : Nat) : Bool :=
  (bytes.getD (i / 8) 0).toNat.testBit (7 - i % 8)

/-- The packed form of a list of flips: one byte for each started group of eight. -/
def pack (flips : List Flip) : List UInt8 :=
  (List.range ((flips.length + 7) / 8)).map fun i =>
    byteOfBits ((flips.drop (8 * i)).map toBit)

/-- The first `count` flips of a packed form. A bit that the bytes do not have reads as `minus`. -/
def unpack (bytes : List UInt8) (count : Nat) : List Flip :=
  (List.range count).map fun i => ofBit (bitAt bytes i)

@[simp] theorem length_pack (flips : List Flip) :
    (pack flips).length = (flips.length + 7) / 8 := by simp [pack]

@[simp] theorem length_unpack (bytes : List UInt8) (count : Nat) :
    (unpack bytes count).length = count := by simp [unpack]

end PairedTuning.Flip
