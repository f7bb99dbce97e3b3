import PairedTuning.Document.Wrapper

/-!
# Configuration files

A configuration file is read as YAML. Of the JSON text of a document, which is YAML as well, YAML
reads the same document, but for what it does with the characters that JSON leaves as they are:

* some characters may not occur at all;
* three characters end a line, which JSON does not know of: a text that spans lines is folded, and a
  key has to stand on one line;
* a line of a text must not look like the mark of a new document;
* a key must not be long.

A file holds an object, the sections of the configuration. The values in it may be wrapped; the
object of the sections itself is not.
-/

namespace PairedTuning

/-- What is found in the place of a configuration file. -/
inductive ConfigFile where
  | missing
  /-- There is a file, but no object can be read from it. -/
  | unreadable
  /-- The file holds an object with the given fields. -/
  | holding (fields : List (String × Document))

namespace ConfigFile

/-- Whether a character may occur in a file. Those before the space are written as escapes. -/
def isAllowed (c : Char) : Bool :=
  let n := c.toNat
  n < 0x7F || n == 0x85 || (0xA0 ≤ n && n ≤ 0xFFFD) || 0x10000 ≤ n

/-- Whether a character ends a line of a file: the next line, the line separator and the paragraph
separator. The line ends of ASCII are written as escapes. -/
def isBreak (c : Char) : Bool := c = '\u0085' || c = '\u2028' || c = '\u2029'

/-- Whether a character belongs to the gap between two words. -/
def isGap (c : Char) : Bool := c = ' ' || isBreak c

/-- The end of a line as it is read: the next line counts as a line feed. -/
def lineEnd (c : Char) : Char := if c = '\u0085' then '\n' else c

/-- What is read for a gap. On one line it stays as it is. Else its spaces go, and so does a line
feed that comes first; alone, it turns into a space. -/
def foldGap (gap : List Char) : List Char :=
  match (gap.filter isBreak).map lineEnd with
  | [] => gap
  | ['\n'] => [' ']
  | '\n' :: more => more
  | ends => ends

/-- A text with its gaps folded. -/
def foldText (cs : List Char) : List Char :=
  (cs.splitBy fun a b => isGap a == isGap b).flatMap fun group =>
    if group.all isGap then foldGap group else group

/-- Whether a line starts with the mark for the start or the end of a document. -/
def startsWithMark : List Char → Bool
  | '-' :: '-' :: '-' :: c :: _ => isGap c
  | '.' :: '.' :: '.' :: c :: _ => isGap c
  | _ => false

/-- Whether a line after the first one starts with a mark. -/
def hasMark : List Char → Bool
  | [] => false
  | c :: rest => (isBreak c && startsWithMark rest) || hasMark rest

/-- What is read for a text. -/
def text? (s : String) : Option String :=
  let cs := s.toList
  if cs.all isAllowed && !hasMark cs then some (String.ofList (foldText cs)) else none

/-- The number of bytes that JSON uses for a character. -/
def writtenWidth (c : Char) : Nat :=
  if c = '"' ∨ c = '\\' ∨ c = '\x08' ∨ c = '\t' ∨ c = '\n' ∨ c = '\x0c' ∨ c = '\r' then 2
  else if c < ' ' then 6
  else c.utf8Size

/-- The greatest distance in bytes from the start of a key to the colon after it. -/
def keyReach : Nat := 1024

/-- Whether a text can be a key. Its two quotes count as well. -/
def isKey (s : String) : Bool :=
  let cs := s.toList
  cs.all (fun c => isAllowed c && !isBreak c) && (cs.map writtenWidth).foldl (· + ·) 2 ≤ keyReach

mutual

/-- What is read for a document. -/
def document? : Document → Option Document
  | .str s => (text? s).map .str
  | .arr items => (documents? items).map .arr
  | .obj fields => (fields? fields).map .obj
  | d => some d

/-- What is read for the items of an array. -/
def documents? : List Document → Option (List Document)
  | [] => some []
  | d :: rest => do
    let d ← document? d
    let more ← documents? rest
    pure (d :: more)

/-- What is read for the fields of an object. -/
def fields? : List (String × Document) → Option (List (String × Document))
  | [] => some []
  | (key, d) :: rest =>
    if isKey key then do
      let d ← document? d
      let more ← fields? rest
      pure ((key, d) :: more)
    else none

end

/-- The file that holds the JSON text of a document. -/
def ofJson (d : Document) : ConfigFile :=
  match document? d with
  | some (.obj fields) =>
    match Document.unwrapFields? fields with
    | some fields => holding fields
    | none => unreadable
  | _ => unreadable

end ConfigFile

end PairedTuning
