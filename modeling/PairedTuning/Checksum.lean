/-!
# Checksum

The cyclic redundancy check with the reflected generator polynomial of Ethernet and of gzip: the
register starts with all bits set, each byte enters at the low end and is followed by eight shifts,
and the answer is the complement of the register.
-/

namespace PairedTuning.Checksum

/-- The generator polynomial, least significant coefficient first. -/
def generator : UInt32 := 0xEDB88320

/-- Shift the register by one bit: the polynomial is subtracted if a set bit falls out. -/
def shift (register : UInt32) : UInt32 :=
  if register &&& 1 = 0 then register >>> 1 else register >>> 1 ^^^ generator

/-- Feed one byte to the register. -/
def feed (register : UInt32) (byte : UInt8) : UInt32 :=
  (shift ∘ shift ∘ shift ∘ shift ∘ shift ∘ shift ∘ shift ∘ shift) (register ^^^ byte.toUInt32)

/-- The checksum of a byte string. -/
def ofBytes (bytes : List UInt8) : UInt32 :=
  ~~~ bytes.foldl feed 0xFFFFFFFF

end PairedTuning.Checksum
