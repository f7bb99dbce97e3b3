/-!
# Read floats

A number is an optional sign and then one of the words `inf`, `infinity` and `nan` in any case, or
digits with at most one point among them, at least one digit in all, and an optional exponent. It is
read as the nearest float, the even one of two.
-/

namespace PairedTuning.Decimal

/-- The number that a list of digits writes. -/
def natOfDigits (digits : List Char) : Nat :=
  digits.foldl (fun n c => 10 * n + (c.toNat - '0'.toNat)) 0

/-- The float nearest to `digits · 10 ^ exponent`. Far outside the range of floats the powers of
ten are not computed. -/
def nearest (digits : Nat) (exponent : Int) : Float :=
  let magnitude := (Nat.repr digits).length + exponent
  if digits = 0 ∨ magnitude < -400 then 0
  else if 400 < magnitude then 1 / 0
  else Float.ofScientific digits (exponent < 0) exponent.natAbs

/-- Take a sign off, and say whether it is a minus. -/
def splitSign : List Char → Bool × List Char
  | '-' :: rest => (true, rest)
  | '+' :: rest => (false, rest)
  | cs => (false, cs)

/-- The exponent at the end of a number; zero if there is none. -/
def exponent? : List Char → Option Int
  | [] => some 0
  | c :: rest =>
    let (negative, digits) := splitSign rest
    if (c = 'e' ∨ c = 'E') ∧ digits ≠ [] ∧ digits.all Char.isDigit then
      some (if negative then -natOfDigits digits else natOfDigits digits)
    else none

/-- The digits after a point, and the rest. -/
def splitFraction : List Char → List Char × List Char
  | '.' :: rest => (rest.takeWhile Char.isDigit, rest.dropWhile Char.isDigit)
  | cs => ([], cs)

/-- A number without sign, written with digits. -/
def unsigned? (cs : List Char) : Option Float :=
  let whole := cs.takeWhile Char.isDigit
  let (fraction, rest) := splitFraction (cs.dropWhile Char.isDigit)
  if whole = [] ∧ fraction = [] then none
  else (exponent? rest).map fun e => nearest (natOfDigits (whole ++ fraction)) (e - fraction.length)

/-- A value without sign, written as a word. -/
def word? (cs : List Char) : Option Float :=
  match String.ofList (cs.map Char.toLower) with
  | "inf" | "infinity" => some (1 / 0)
  | "nan" => some (0 / 0)
  | _ => none

/-- The float that a text writes. -/
def read? (s : String) : Option Float :=
  let (negative, cs) := splitSign s.toList
  (unsigned? cs <|> word? cs).map fun x => if negative then -x else x

end PairedTuning.Decimal
