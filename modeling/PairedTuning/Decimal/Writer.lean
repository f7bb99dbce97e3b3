import PairedTuning.Decimal.Shortest

/-!
# Written floats

Floats are written with the shortest digits that read back, always positionally: no exponent
however large or small the number, no point without digits after it, and a sign for minus zero.
-/

namespace PairedTuning.Decimal

def zeros (n : Nat) : String := String.ofList (List.replicate n '0')

/-- A decimal without an exponent. -/
def positional (d : Positive) : String :=
  let digits := Nat.repr d.digits
  let places := (-d.exponent).toNat
  if places = 0 then digits ++ zeros d.exponent.toNat
  else if digits.length ≤ places then "0." ++ zeros (places - digits.length) ++ digits
  else
    let whole := digits.toList.take (digits.length - places)
    let fraction := digits.toList.drop (digits.length - places)
    String.ofList whole ++ "." ++ String.ofList fraction

def write (x : Float) : String :=
  if x.isNaN then "NaN"
  else
    let sign := if x.toBits.toNat < 1 <<< 63 then "" else "-"
    if x.isInf then sign ++ "inf"
    else
      let b := Binary.ofBits x.toBits
      sign ++ if b.significand = 0 then "0" else positional b.shortest

end PairedTuning.Decimal
