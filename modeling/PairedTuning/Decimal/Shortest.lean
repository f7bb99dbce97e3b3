/-!
# Shortest decimals

The shortest decimal of a finite float is the one with the fewest digits among all decimals that
the float is the nearest float to; of several, the one nearest to the float; of two equally near,
the greater.

A decimal with a fixed number of digits is a point of a grid, and if any point of the grid lies in
the interval of reals that round to the float, then so does one of the two neighbours of the float
on that grid. So it is enough to try those two, on finer and finer grids.
-/

namespace PairedTuning.Decimal

/-- A decimal number `digits · 10 ^ exponent`. -/
structure Positive where
  digits : Nat
  exponent : Int
  deriving DecidableEq, Repr

/-- A positive binary number `significand · 2 ^ exponent`. -/
structure Binary where
  significand : Nat
  exponent : Int

namespace Binary

/-- The exponent of the smallest floats. -/
def leastExponent : Int := -1074

/-- The least significand of a float that is not subnormal. -/
def leadingBit : Nat := 1 <<< 52

/-- The absolute value of a finite float with the given bits. -/
def ofBits (bits : UInt64) : Binary :=
  let field := bits.toNat / leadingBit % (1 <<< 11)
  let fraction := bits.toNat % leadingBit
  if field = 0 then ⟨fraction, leastExponent⟩
  else ⟨leadingBit + fraction, leastExponent + (field - 1 : Nat)⟩

/-- The number of decimal digits before the point; zero or less if the first digit that counts
comes after it. -/
def magnitude (b : Binary) : Int :=
  let scaled := b.significand * Nat.pow 2 b.exponent.toNat * Nat.pow 10 400
  (Nat.repr (scaled / Nat.pow 2 (-b.exponent).toNat)).length - 400

/-- The neighbours of a binary number on the grid of multiples of `10 ^ unit` that read back as
the number, the nearer one first; of equally near ones, the greater first. -/
def neighbours (b : Binary) (unit : Int) : List Nat :=
  let quarter := b.exponent - 2
  let scale := Nat.pow 2 quarter.toNat * Nat.pow 10 (-unit).toNat
  let step := Nat.pow 10 unit.toNat * Nat.pow 2 (-quarter).toNat
  let value := 4 * b.significand * scale
  let below := if b.significand = leadingBit ∧ leastExponent < b.exponent then 1 else 2
  let least := (4 * b.significand - below) * scale
  let greatest := (4 * b.significand + 2) * scale
  let readsBack (d : Nat) : Bool :=
    if b.significand % 2 = 0 then decide (least ≤ d * step ∧ d * step ≤ greatest)
    else decide (least < d * step ∧ d * step < greatest)
  let floor := value / step
  let nearer :=
    if (floor + 1) * step - value ≤ value - floor * step then [floor + 1, floor]
    else [floor, floor + 1]
  nearer.filter readsBack

/-- No float needs more digits than this. -/
def mostDigits : Nat := 17

/-- The shortest decimal of a positive float. -/
def shortest (b : Binary) : Positive :=
  let candidates := (List.range mostDigits).findSome? fun (more : Nat) =>
    let unit := b.magnitude - (more + 1 : Nat)
    (b.neighbours unit).head?.map fun d => (⟨d, unit⟩ : Positive)
  match candidates with
  | some ⟨10, unit⟩ => ⟨1, unit + 1⟩
  | some d => d
  | none => ⟨0, 0⟩

end Binary

end PairedTuning.Decimal
