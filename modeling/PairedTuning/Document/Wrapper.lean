import PairedTuning.Document.Basic

/-!
# Wrappers

In a configuration file, an object may stand for a value of any kind: it wraps the value, which it
holds under a key of its own. Beside the value it may tell the value's origin, as a number. Wrappers
are removed when a file is read, at every depth, so that no reader of a configuration meets one.
-/

namespace PairedTuning.Document

/-- The key under which a wrapper holds its value. -/
def wrappedKey : String := "___figment_value_value"

/-- The key under which an object holds the number of its origin. -/
def originKey : String := "___figment_value_id"

/-- Whether the origin, if an object tells one, is a number of 64 bits. It is never wrapped. -/
def tellsOrigin (fields : List (String × Document)) : Bool :=
  (lookup originKey fields).all fun origin => (origin.toNat? 64).isSome

/-- What an object with the given fields stands for: the value that it wraps, if it wraps one, and
otherwise itself, without its origin. -/
def ofFields (fields : List (String × Document)) : Document :=
  (lookup wrappedKey fields).getD (obj (fields.filter fun (key, _) => key ≠ originKey))

mutual

/-- The document without its wrappers. -/
def unwrap? : Document → Option Document
  | arr items => (unwrapItems? items).map arr
  | obj fields => if tellsOrigin fields then (unwrapFields? fields).map ofFields else none
  | d => some d

/-- The items of an array, each without its wrappers. -/
def unwrapItems? : List Document → Option (List Document)
  | [] => some []
  | d :: rest => do
    let d ← unwrap? d
    let more ← unwrapItems? rest
    pure (d :: more)

/-- The fields of an object, each value without its wrappers. -/
def unwrapFields? : List (String × Document) → Option (List (String × Document))
  | [] => some []
  | (key, d) :: rest => do
    let d ← unwrap? d
    let more ← unwrapFields? rest
    pure ((key, d) :: more)

end

end PairedTuning.Document
