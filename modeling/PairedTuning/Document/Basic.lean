/-!
# Documents

A document is a value of the data format in which states, reports and configurations are exchanged:
the format of JSON, with whole numbers kept apart from others.
-/

namespace PairedTuning

/-- A value of the exchange format. -/
inductive Document where
  | null
  | bool (b : Bool)
  /-- A number without point and exponent. -/
  | int (i : Int)
  /-- Any other number. -/
  | float (x : Float)
  | str (s : String)
  | arr (items : List Document)
  /-- The fields of an object, in order. -/
  | obj (fields : List (String × Document))

namespace Document

/-- The value of the first pair with a given key. -/
def lookup (key : String) : List (String × Document) → Option Document
  | [] => none
  | (k, d) :: rest => if k = key then some d else lookup key rest

/-- Fields with the value for a key replaced, or added at the end. -/
def put (key : String) (d : Document) : List (String × Document) → List (String × Document)
  | [] => [(key, d)]
  | (k, old) :: rest => if k = key then (k, d) :: rest else (k, old) :: put key d rest

def field? (key : String) : Document → Option Document
  | obj fields => lookup key fields
  | _ => none

/-- The document for an optional value; null if there is none. -/
def ofOption {β : Type} (encode : β → Document) : Option β → Document
  | none => null
  | some x => encode x

/-- The document for a float. A value that is no finite number has no number to stand for it. -/
def ofFloat (x : Float) : Document :=
  if x.isFinite then float x else null

def ofNat (n : Nat) : Document := int n

/-- A list of values. -/
def ofList {β : Type} (encode : β → Document) (xs : List β) : Document :=
  arr (xs.map encode)

def toBool? : Document → Option Bool
  | bool b => some b
  | _ => none

def toString? : Document → Option String
  | str s => some s
  | _ => none

/-- A float. A whole number counts as one. -/
def toFloat? : Document → Option Float
  | float x => some x
  | int i => some (Float.ofInt i)
  | _ => none

/-- A whole number from `0` to `2 ^ bits - 1`. -/
def toNat? (bits : Nat) : Document → Option Nat
  | int i => if 0 ≤ i ∧ i.toNat < 1 <<< bits then some i.toNat else none
  | _ => none

/-- The items of a list, each read in the same way. -/
def toList? {β : Type} (decode : Document → Option β) : Document → Option (List β)
  | arr items => items.mapM decode
  | _ => none

/-- A value that may be null. -/
def toOption? {β : Type} (decode : Document → Option β) : Document → Option (Option β)
  | null => some none
  | d => (decode d).map some

end Document

end PairedTuning
