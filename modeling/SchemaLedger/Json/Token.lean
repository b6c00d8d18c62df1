import SchemaLedger.Number.Read
import SchemaLedger.Text.CodeUnit
import SchemaLedger.Value.Basic

/-!
# JSON tokens

A JSON text is a row of brackets, commas, colons and scalars with blanks between them. Besides the
numbers of the standard the words `NaN`, `Infinity` and `-Infinity` are numbers. Splitting a text
into tokens never fails: what cannot be read is a token of its own, and so is an integer with too
many digits.
-/

namespace SchemaLedger.Json

/-- A part of a JSON text. -/
inductive Token where
  | openList
  | closeList
  | openMap
  | closeMap
  | comma
  | colon
  | scalar (s : Scalar)
  /-- An integer with more digits than are read. -/
  | hugeInteger
  /-- Something that is no JSON; it is the last token. -/
  | unreadable
  deriving DecidableEq, Repr

/-- The character that an escape with one letter stands for. -/
def shortEscape? : Char → Option Char
  | '"' => some '"'
  | '\\' => some '\\'
  | '/' => some '/'
  | 'b' => some '\x08'
  | 'f' => some '\x0c'
  | 'n' => some '\n'
  | 'r' => some '\r'
  | 't' => some '\t'
  | _ => none

/-- Reads a text up to its closing quote, behind the opening one. -/
def readText (units : List Nat) : List Char → Option (String × List Char)
  | [] => none
  | '"' :: rest => some (String.ofList (Text.joinPairs units.reverse), rest)
  | '\\' :: 'u' :: a :: b :: c :: d :: rest =>
    match Text.hexNumber? [a, b, c, d] with
    | some n => readText (n :: units) rest
    | none => none
  | '\\' :: e :: rest =>
    match shortEscape? e with
    | some c => readText (c.toNat :: units) rest
    | none => none
  | c :: rest => if c.toNat < 0x20 then none else readText (c.toNat :: units) rest

/-- The digits of a fraction, if there are any, and the rest. -/
def readFraction : List Char → Option (List Char) × List Char
  | '.' :: rest =>
    let digits := rest.takeWhile Char.isDigit
    if digits.isEmpty then (none, '.' :: rest) else (some digits, rest.dropWhile Char.isDigit)
  | cs => (none, cs)

/-- The exponent, if there is one, and the rest. -/
def readExponent (cs : List Char) : Option Int × List Char :=
  match cs with
  | c :: rest =>
    if c = 'e' ∨ c = 'E' then
      let (negative, signless) := Number.splitSign rest
      let digits := signless.takeWhile Char.isDigit
      if digits.isEmpty then (none, cs)
      else
        let n := Int.ofNat (Number.ofDigits 10 digits)
        (some (if negative then -n else n), signless.dropWhile Char.isDigit)
    else (none, cs)
  | [] => (none, cs)

/-- The digits before the point, without a leading zero, and the rest. -/
def readWhole : List Char → List Char × List Char
  | '0' :: rest => (['0'], rest)
  | cs => (cs.takeWhile Char.isDigit, cs.dropWhile Char.isDigit)

/-- Reads a number behind its sign. -/
def readNumber (negative : Bool) (cs : List Char) : Token × List Char :=
  let (whole, rest) := readWhole cs
  if whole.isEmpty then (.unreadable, [])
  else
    let (fraction, rest) := readFraction rest
    let (exponent, rest) := readExponent rest
    -- without a point and an exponent it is an integer
    if fraction.isNone && exponent.isNone then
      match Number.ofDecimalDigits? negative whole with
      | some n => (.scalar (.int n), rest)
      | none => (.hugeInteger, rest)
    else
      (.scalar (.float (Number.ofParts negative whole (fraction.getD []) (exponent.getD 0))), rest)

/-- The words and what they stand for. -/
def words : List (List Char × Scalar) :=
  [("null".toList, .null), ("true".toList, .bool true), ("false".toList, .bool false),
    ("NaN".toList, .float .nan), ("Infinity".toList, .float (.infinite false)),
    ("-Infinity".toList, .float (.infinite true))]

/-- Reads a word. -/
def readWord? (cs : List Char) : Option (Scalar × List Char) :=
  words.findSome? fun (word, s) =>
    if word.isPrefixOf cs then some (s, cs.drop word.length) else none

/-- Reads a scalar other than a text. -/
def readBare (cs : List Char) : Token × List Char :=
  match readWord? cs with
  | some (s, rest) => (.scalar s, rest)
  | none =>
    match cs with
    | '-' :: rest => readNumber true rest
    | cs => readNumber false cs

/-- Reads one token; the rest is empty behind what cannot be read. -/
def readToken : List Char → Token × List Char
  | '[' :: rest => (.openList, rest)
  | ']' :: rest => (.closeList, rest)
  | '\x7b' :: rest => (.openMap, rest)
  | '\x7d' :: rest => (.closeMap, rest)
  | ',' :: rest => (.comma, rest)
  | ':' :: rest => (.colon, rest)
  | '"' :: rest =>
    match readText [] rest with
    | some (s, rest) => (.scalar (.text s), rest)
    | none => (.unreadable, [])
  | cs => readBare cs

/-- The blanks between tokens. -/
def isBlank (c : Char) : Bool := c = ' ' || c = '\t' || c = '\n' || c = '\r'

/-- Splits characters into at most so many tokens. -/
def tokensUpTo : (limit : Nat) → List Char → List Token
  | 0, _ => []
  | limit + 1, cs =>
    match cs.dropWhile isBlank with
    | [] => []
    | cs =>
      let (token, rest) := readToken cs
      token :: tokensUpTo limit rest

/-- The tokens of a text; there are no more of them than characters. -/
def tokens (s : String) : List Token := tokensUpTo s.length s.toList

example : tokens "[1, -0.5e1]" =
    [.openList, .scalar (.int 1), .comma, .scalar (.float (Binary64.ofNat 5).neg), .closeList] := by
  decide +kernel
example : tokens "\"\\ud83d\\ude00\\n\"" = [.scalar (.text "😀\n")] ∧
    tokens "\"\\ud83d\"" = [.scalar (.text "\ufffd")] ∧ tokens "01" =
    [.scalar (.int 0), .scalar (.int 1)] ∧ tokens "\"\t\"" = [.unreadable] := by decide +kernel

end SchemaLedger.Json
