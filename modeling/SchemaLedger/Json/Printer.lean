import SchemaLedger.Number.Shortest
import SchemaLedger.Text.Quoted
import SchemaLedger.Value.Display

/-!
# JSON documents as text

A stored document is written on one line, with a blank behind every comma and colon. Numbers have no
exponent.
-/

namespace SchemaLedger.Json

/-- How one character stands inside a text. -/
def writtenChar (c : Char) : List Char :=
  if c = '"' ∨ c = '\\' then ['\\', c]
  else if c = '\n' then ['\\', 'n']
  else if c = '\r' then ['\\', 'r']
  else if c = '\t' then ['\\', 't']
  else if c.toNat = 8 then ['\\', 'b']
  else if c.toNat = 12 then ['\\', 'f']
  else if c.toNat < 32 then '\\' :: 'u' :: Text.hexDigits 4 c.toNat
  else [c]

/-- A text in quotes. -/
def writtenText (s : String) : String :=
  String.ofList ('"' :: s.toList.flatMap writtenChar ++ ['"'])

/-- A scalar. -/
def writtenScalar : Scalar → String
  | .null => "null"
  | .bool b => if b then "true" else "false"
  | .int n => toString n
  | .float x => x.plainText
  | .text s => writtenText s
  | s => writtenText s.display

mutual

/-- A document on one line. -/
def written : Value → String
  | .scalar s => writtenScalar s
  | .list xs => bracketed "[" "]" (writtenItems xs)
  | .map m => bracketed "\x7b" "\x7d" (writtenEntries m)
termination_by structural v => v

/-- The items of a list. -/
def writtenItems : List Value → List String
  | [] => []
  | x :: xs => written x :: writtenItems xs
termination_by structural xs => xs

/-- The entries of a mapping. -/
def writtenEntries : List (Scalar × Value) → List String
  | [] => []
  | e :: rest => writtenEntry e :: writtenEntries rest
termination_by structural xs => xs

/-- One entry of a mapping. -/
def writtenEntry : Scalar × Value → String
  | (k, v) => writtenText k.display ++ ": " ++ written v
termination_by structural e => e

end

/-- A document as text by itself: a text as it is, and nothing for null. -/
def textOf? : Value → Option String
  | .null => none
  | .text s => some s
  | v => some (written v)

example : written (.list [.bool true, .null, .text "\x01\"é"]) =
    "[true, null, \"\\u0001\\\"é\"]" := by decide +kernel

end SchemaLedger.Json
