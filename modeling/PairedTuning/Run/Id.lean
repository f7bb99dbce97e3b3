/-!
# Run identifiers

A run is known by a 128-bit number, written as 32 hexadecimal digits in groups of 8, 4, 4, 4 and 12.
-/

namespace PairedTuning

/-- The identifier of a run. -/
structure RunId where
  value : Nat
  deriving DecidableEq, Repr

namespace RunId

def text (id : RunId) : String :=
  let digits := Nat.toDigits 16 id.value
  let padded := List.replicate (32 - digits.length) '0' ++ digits
  let group (start count : Nat) := String.ofList ((padded.drop start).take count)
  "-".intercalate [group 0 8, group 8 4, group 12 4, group 16 4, group 20 12]

end RunId

end PairedTuning
