/-!
# Lines and fields

A line ends at a line feed, together with a carriage return right before it. A text that ends with a
line feed has no further line after it. Fields are what stands between separators.
-/

namespace PairedTuning.Text

/-- The lines of a text. -/
def lines : List Char → List (List Char)
  | [] => []
  | '\n' :: rest => [] :: lines rest
  | '\r' :: '\n' :: rest => [] :: lines rest
  | c :: rest =>
    match lines rest with
    | [] => [[c]]
    | line :: more => (c :: line) :: more

/-- The fields of a text: one more than it has separators. -/
def fields (separator : Char) : List Char → List (List Char)
  | [] => [[]]
  | c :: rest =>
    match fields separator rest with
    | [] => [[c]]
    | field :: more => if c = separator then [] :: field :: more else (c :: field) :: more

end PairedTuning.Text
