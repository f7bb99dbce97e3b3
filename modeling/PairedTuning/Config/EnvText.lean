import PairedTuning.Decimal.Reader
import PairedTuning.Document.Record
import PairedTuning.Text.Blank

/-!
# Values of environment variables

The text of a variable may be a structured value: `true` or `false`, a text in quotes, a single
character between apostrophes, an array `[a, b]`, an object `{key = a, other = b}`, or a bare word.
A bare word with a point that reads as a float is one; else it is a whole number if it reads as one
of 64 bits, and a text if not. A text that is not such a value from end to end stands for itself.

In a text in quotes the part before the first escape is counted in characters and cut in bytes: it
keeps only as many bytes as it has characters. Where this would split a character, the variable has
no value at all.
-/

namespace PairedTuning.EnvText

/-- Why a text cannot be taken apart. -/
inductive Fault where
  /-- It is not a value from end to end, so it stands for itself. -/
  | noValue
  /-- A character would be split. -/
  | splitCharacter
  deriving DecidableEq, Repr

/-- The white space that may surround a value. -/
def isSpace (c : Char) : Bool :=
  c = ' ' || c = '\t' || c = '\n' || c = '\x0c' || c = '\r'

/-- Leave out leading white space. -/
def skip (cs : List Char) : List Char := cs.dropWhile isSpace

/-- The characters that end a bare word. -/
def isSeparator (c : Char) : Bool :=
  c = ',' || c = '\x7b' || c = '\x7d' || c = '[' || c = ']'

/-- The characters of a bare key. -/
def isKeyChar (c : Char) : Bool := c.isAlphanum || c = '_' || c = '-'

/-! ### Bare words -/

/-- A whole number of 64 bits, with or without sign. -/
def integer? (cs : List Char) : Option Int :=
  let (negative, digits) := Decimal.splitSign cs
  if digits = [] ∨ !digits.all Char.isDigit then none
  else
    let n := Decimal.natOfDigits digits
    if negative then if n ≤ 1 <<< 63 then some (-n) else none
    else if n < 1 <<< 64 then some n
    else none

/-- The value of a bare word. -/
def bare (word : List Char) : Document :=
  let text := String.ofList word
  let float := if word.contains '.' then Decimal.read? text else none
  match float with
  | some x => .float x
  | none =>
    match integer? word with
    | some i => .int i
    | none => .str text

/-! ### Texts in quotes -/

/-- Whether a character may stand in quotes as it is. -/
def isPlain (c : Char) : Bool := c = '\t' || (' ' ≤ c && c != '\x7f')

/-- The value of a hexadecimal digit. -/
def hexDigit? (c : Char) : Option Nat :=
  if c.isDigit then some (c.toNat - '0'.toNat)
  else if 'a' ≤ c ∧ c ≤ 'f' then some (c.toNat - 'a'.toNat + 10)
  else if 'A' ≤ c ∧ c ≤ 'F' then some (c.toNat - 'A'.toNat + 10)
  else none

/-- The character with a hexadecimal number. -/
def hexChar? (digits : List Char) : Option Char := do
  let n ← digits.foldlM (fun n c => (hexDigit? c).map (16 * n + ·)) 0
  if n.isValidChar then some (Char.ofNat n) else none

/-- A text with its escapes replaced. An escape is a backslash with one of `b f n r t`, a quote or a
backslash, or with `u` and four or `U` and eight hexadecimal digits. -/
def replaceEscapes? : List Char → Option (List Char)
  | [] => some []
  | '\\' :: 'b' :: rest => (replaceEscapes? rest).map ('\x08' :: ·)
  | '\\' :: 'f' :: rest => (replaceEscapes? rest).map ('\x0c' :: ·)
  | '\\' :: 'n' :: rest => (replaceEscapes? rest).map ('\n' :: ·)
  | '\\' :: 'r' :: rest => (replaceEscapes? rest).map ('\r' :: ·)
  | '\\' :: 't' :: rest => (replaceEscapes? rest).map ('\t' :: ·)
  | '\\' :: '"' :: rest => (replaceEscapes? rest).map ('"' :: ·)
  | '\\' :: '\\' :: rest => (replaceEscapes? rest).map ('\\' :: ·)
  | '\\' :: 'u' :: a :: b :: c :: d :: rest => do
    let char ← hexChar? [a, b, c, d]
    (replaceEscapes? rest).map (char :: ·)
  | '\\' :: 'U' :: a :: b :: c :: d :: e :: f :: g :: h :: rest => do
    let char ← hexChar? [a, b, c, d, e, f, g, h]
    (replaceEscapes? rest).map (char :: ·)
  | c :: rest =>
    if c = '\\' ∨ !isPlain c then none else (replaceEscapes? rest).map (c :: ·)

/-- The characters that make up the first bytes of a text, if the last of those bytes ends a
character. -/
def takeBytes? : Nat → List Char → Option (List Char)
  | 0, _ => some []
  | _ + 1, [] => none
  | n + 1, c :: rest =>
    if c.utf8Size ≤ n + 1 then (takeBytes? (n + 1 - c.utf8Size) rest).map (c :: ·) else none

/-- The text that stands in quotes as `inner`. -/
def unescape (inner : List Char) : Except Fault (List Char) :=
  let before := inner.takeWhile (· != '\\')
  let after := inner.drop before.length
  if !before.all isPlain then .error .noValue
  else if after = [] then .ok before
  else
    match takeBytes? before.length before with
    | none => .error .splitCharacter
    | some kept =>
      match replaceEscapes? after with
      | none => .error .noValue
      | some text => .ok (kept ++ text)

/-- The text up to the quote that closes it, escapes and all, and what follows. -/
def untilQuote : List Char → Except Fault (List Char × List Char)
  | [] => .error .noValue
  | '"' :: rest => .ok ([], rest)
  | '\\' :: c :: rest => (untilQuote rest).map fun (cs, rest) => ('\\' :: c :: cs, rest)
  | c :: rest => (untilQuote rest).map fun (cs, rest) => (c :: cs, rest)

/-- A text whose opening quote has been read, and what follows it. -/
def quoted (cs : List Char) : Except Fault (String × List Char) := do
  let (inner, rest) ← untilQuote cs
  let text ← unescape inner
  pure (String.ofList text, rest)

/-! ### Values -/

/-- A key of an object with the sign of equality after it, and what follows. -/
def key (cs : List Char) : Except Fault (String × List Char) := do
  let (name, rest) ← match skip cs with
    | '"' :: rest => quoted rest
    | cs =>
      let name := cs.takeWhile isKeyChar
      if name = [] then .error .noValue
      else pure (String.ofList name, cs.drop name.length)
  match skip rest with
  | '=' :: rest => pure (name, rest)
  | _ => .error .noValue

mutual

/-- A value with the white space around it, and what follows. -/
def value : Nat → List Char → Except Fault (Document × List Char)
  | 0, _ => .error .noValue
  | fuel + 1, cs => do
    let (d, rest) ← match skip cs with
      | 't' :: 'r' :: 'u' :: 'e' :: rest => pure (.bool true, rest)
      | 'f' :: 'a' :: 'l' :: 's' :: 'e' :: rest => pure (.bool false, rest)
      | '\x7b' :: rest => (fields fuel [] rest).map fun (fs, rest) => (.obj fs, rest)
      | '[' :: rest => (items fuel rest).map fun (ds, rest) => (.arr ds, rest)
      | '"' :: rest => (quoted rest).map fun (s, rest) => (.str s, rest)
      | '\x27' :: c :: '\x27' :: rest => pure (.str (String.singleton c), rest)
      | '\x27' :: _ => .error .noValue
      | cs =>
        let word := cs.takeWhile fun c => !isSeparator c
        pure (bare (Text.trim word), cs.drop word.length)
    pure (d, skip rest)

/-- The items of an array whose opening bracket has been read, and what follows. A separator may
stand after the last item. -/
def items : Nat → List Char → Except Fault (List Document × List Char)
  | 0, _ => .error .noValue
  | _, ']' :: rest => .ok ([], rest)
  | fuel + 1, cs => do
    let (d, rest) ← value fuel cs
    match rest with
    | ',' :: rest => do
      let (ds, rest) ← items fuel rest
      pure (d :: ds, rest)
    | ']' :: rest => pure ([d], rest)
    | _ => .error .noValue

/-- The fields of an object after those already read, and what follows. Of two fields with one key,
the later counts. -/
def fields : Nat → Fields → List Char → Except Fault (Fields × List Char)
  | 0, _, _ => .error .noValue
  | _, done, '\x7d' :: rest => .ok (done, rest)
  | fuel + 1, done, cs => do
    let (name, rest) ← key cs
    let (d, rest) ← value fuel rest
    let done := Document.put name d done
    match rest with
    | ',' :: rest => fields fuel done rest
    | '\x7d' :: rest => pure (done, rest)
    | _ => .error .noValue

end

/-- The value of a text; none if a character would be split. -/
def read? (text : String) : Option Document :=
  let cs := text.toList
  match value (2 * cs.length + 2) cs with
  | .ok (d, []) => some d
  | .error .splitCharacter => none
  | _ => some (.str text)

end PairedTuning.EnvText
