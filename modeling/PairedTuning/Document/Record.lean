import PairedTuning.Document.Basic

/-!
# Records

A record is a group of named fields. It is written as an object, and may be given as an array of its
fields in the order in which they are declared. Fields that a record does not have are ignored.
-/

namespace PairedTuning

/-- The fields given for a record. -/
abbrev Fields := List (String × Document)

namespace Document

/-- The fields given for a record that declares the given names. Whether an array may have more
items than there are names is for the caller to say. -/
def record? (names : List String) (more : Bool) : Document → Option Fields
  | obj fields => some fields
  | arr items =>
    if more ∨ items.length ≤ names.length then some (names.zip items) else none
  | _ => none

def isNull : Document → Bool
  | null => true
  | _ => false

/-- Whether a document is null or an object without fields. -/
def isVoid : Document → Bool
  | null => true
  | obj [] => true
  | _ => false

/-- A word of a fixed list, written as a text, or as an object with the word as its only key. What
stands under the key has to be a document that says nothing. -/
def word? (saysNothing : Document → Bool) : Document → Option String
  | str s => some s
  | obj [(s, d)] => if saysNothing d then some s else none
  | _ => none

end Document

namespace Fields

variable {β : Type}

/-- A field that has to be given. -/
def required (fields : Fields) (key : String) (decode : Document → Option β) : Option β :=
  (Document.lookup key fields).bind decode

/-- A field with a value to use when it is not given. -/
def defaulted (fields : Fields) (key : String) (default : β) (decode : Document → Option β) :
    Option β :=
  match Document.lookup key fields with
  | none => some default
  | some d => decode d

/-- A field that may be absent, or null. -/
def optional (fields : Fields) (key : String) (decode : Document → Option β) :
    Option (Option β) :=
  fields.defaulted key none (Document.toOption? decode)

end Fields

/-- The field for an optional value, left out if there is none. -/
def Document.present {β : Type} (key : String) (encode : β → Document) : Option β → Fields
  | none => []
  | some x => [(key, encode x)]

end PairedTuning
