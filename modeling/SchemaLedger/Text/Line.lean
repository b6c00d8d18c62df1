/-!
# Lines of a text

A line ends with a line feed, a carriage return or both, or with one of the other characters that
break a line: the vertical tab, the form feed, three separators, and the breaks of Unicode. The end
of the text ends the last line, unless nothing is in it.
-/

namespace SchemaLedger.Text

/-- Whether a line ends with a character. -/
def endsLine (c : Char) : Bool :=
  let n := c.toNat
  (10 ≤ n && n ≤ 13) || (28 ≤ n && n ≤ 30) || n == 0x85 || n == 0x2028 || n == 0x2029

/-- The lines of characters; `line` are those of the first line so far, the last one first. -/
def linesFrom (line : List Char) : List Char → List String
  | [] => if line.isEmpty then [] else [String.ofList line.reverse]
  | '\r' :: '\n' :: rest => String.ofList line.reverse :: linesFrom [] rest
  | c :: rest =>
    if endsLine c then String.ofList line.reverse :: linesFrom [] rest
    else linesFrom (c :: line) rest

/-- The lines of a text without their ends. -/
def lines (s : String) : List String := linesFrom [] s.toList

/-- The first line of a text. -/
def firstLine (s : String) : String := (lines s).head?.getD ""

example : lines "a\nb\r\n\nc" = ["a", "b", "", "c"] ∧ lines "" = [] ∧ lines "a\n" = ["a"] := by
  decide +kernel

end SchemaLedger.Text
