import SchemaLedger.Text.Visible

/-!
# Texts in quotes, for display

A text inside a message is shown between quotes, with every character that would not show
written as an escape. Single quotes are used unless the text has a single quote and no double
one, so that the quote inside seldom needs an escape.
-/

namespace SchemaLedger.Text

/-- The hexadecimal digit for a value below sixteen. -/
def hexDigit (n : Nat) : Char := if n < 10 then Char.ofNat (48 + n) else Char.ofNat (87 + n)

/-- The last `width` hexadecimal digits of `n`, leading zeros kept. -/
def hexDigits : (width : Nat) → (n : Nat) → List Char
  | 0, _ => []
  | width + 1, n => hexDigits width (n / 16) ++ [hexDigit (n % 16)]

/-- The escape of a character without a visible form: the short escapes for tab, line feed and
carriage return, else the code point in two, four or eight digits, whichever is enough. -/
def hiddenEscape (c : Char) : List Char :=
  if c = '\t' then ['\\', 't']
  else if c = '\n' then ['\\', 'n']
  else if c = '\r' then ['\\', 'r']
  else if c.toNat < 0x100 then '\\' :: 'x' :: hexDigits 2 c.toNat
  else if c.toNat < 0x10000 then '\\' :: 'u' :: hexDigits 4 c.toNat
  else '\\' :: 'U' :: hexDigits 8 c.toNat

/-- How one character stands inside `quote` marks. -/
def quotedChar (quote c : Char) : List Char :=
  if c = quote ∨ c = '\\' then ['\\', c]
  else if isVisible c then [c]
  else hiddenEscape c

/-- The quote mark that shows a text best. -/
def quoteMark (cs : List Char) : Char :=
  if cs.contains '\'' && !cs.contains '"' then '"' else '\''

/-- A text as it is shown inside a message. -/
def quoted (s : String) : String :=
  let cs := s.toList
  let mark := quoteMark cs
  String.ofList (mark :: cs.flatMap (quotedChar mark) ++ [mark])

/-- How one byte stands inside `quote` marks: as a character if it is a visible one of ASCII. -/
def quotedByte (quote : Char) (b : UInt8) : List Char :=
  let c := Char.ofNat b.toNat
  if b < 128 then quotedChar quote c else hiddenEscape c

/-- Binary data as it is shown inside a message. -/
def quotedBytes (content : List UInt8) : String :=
  let mark := quoteMark (content.map fun b => Char.ofNat b.toNat)
  String.ofList ('b' :: mark :: content.flatMap (quotedByte mark) ++ [mark])

example : quoted "it's" = "\"it's\"" := by decide +kernel
example : quoted "it's \"both\"" = "'it\\'s \"both\"'" := by decide +kernel
example : quoted "a\n\x7f\u200b" = "'a\\n\\x7f\\u200b'" := by decide +kernel
example : quotedBytes [0x61, 0x27, 0x0A, 0xE9] = "b\"a'\\n\\xe9\"" := by decide +kernel

end SchemaLedger.Text
