/-!
# Characters with their places

What a character means in a YAML text depends on where it stands: the indentation of a line is the
column of its first character, and a key has to end on the line on which it starts. So a text is
scanned as a list of characters that know their places. A character that cannot occur in a text
marks the end.
-/

namespace SchemaLedger.Yaml

/-- A character with its place. -/
structure Glyph where
  char : Char
  /-- How many characters stand before it. -/
  index : Nat
  line : Nat
  column : Nat
  deriving Repr

/-- What is left of a text. -/
abbrev Source := List Glyph

/-- The character that marks the end. -/
def endMark : Char := '\x00'

/-- Whether a character may stand in a text. -/
def isPrintable (c : Char) : Bool :=
  let n := c.toNat
  n == 9 || n == 10 || n == 13 || (0x20 ≤ n && n ≤ 0x7E) || n == 0x85 || (0xA0 ≤ n && n ≤ 0xFFFD) ||
    0x10000 ≤ n

/-- Whether a line ends with a character. -/
def isBreak (c : Char) : Bool := c = '\n' || c = '\u0085' || c = '\u2028' || c = '\u2029'

/-- Whether a line or the text ends here. -/
def isLineEnd (c : Char) : Bool := isBreak c || c = endMark

/-- Whether a word ends here. -/
def isGap (c : Char) : Bool := isLineEnd c || c = ' ' || c = '\t'

/-- Whether a character is a space or a tab. -/
def isSpace (c : Char) : Bool := c = ' ' || c = '\t'

/-- The characters with their places. The byte order mark takes no column. -/
def placed (index line column : Nat) : List Char → Source
  | [] => [⟨endMark, index, line, column⟩]
  | c :: rest =>
    ⟨c, index, line, column⟩ ::
      (if isBreak c then placed (index + 1) (line + 1) 0 rest
        else placed (index + 1) line (if c = '\ufeff' then column else column + 1) rest)

namespace Source

/-- The character at a distance. -/
def peek (gs : Source) (n : Nat) : Char := (gs[n]?.map (·.char)).getD endMark

/-- The column of the next character. -/
def column (gs : Source) : Nat := (gs.head?.map (·.column)).getD 0

/-- The line of the next character. -/
def line (gs : Source) : Nat := (gs.head?.map (·.line)).getD 0

/-- The place of the next character. -/
def index (gs : Source) : Nat := (gs.head?.map (·.index)).getD 0

/-- The longest run of characters with a property, and what follows. -/
def run (p : Char → Bool) : Source → List Char × Source
  | [] => ([], [])
  | g :: rest =>
    if p g.char then
      let (cs, after) := run p rest
      (g.char :: cs, after)
    else ([], g :: rest)

/-- What follows a run of characters with a property. -/
def after (p : Char → Bool) (gs : Source) : Source := (gs.run p).2

/-- A line break as it counts in a text: the breaks of Unicode stand for themselves, the others for
a line feed. -/
def breakChar (c : Char) : Char := if c = '\u2028' || c = '\u2029' then c else '\n'

/-- The line break at the front, if there is one, and what follows. -/
def takeBreak : Source → List Char × Source
  | [] => ([], [])
  | g :: rest => if isBreak g.char then ([breakChar g.char], rest) else ([], g :: rest)

/-- Whether a mark between documents stands here. -/
def isDocumentMark (gs : Source) (c : Char) : Bool :=
  gs.peek 0 = c && gs.peek 1 = c && gs.peek 2 = c && isGap (gs.peek 3)

/-- Whether a mark between documents of either kind stands here. -/
def isAnyDocumentMark (gs : Source) : Bool := gs.isDocumentMark '-' || gs.isDocumentMark '.'

/-- The rest of a line without content: spaces and a comment. -/
def afterComment (gs : Source) : Source :=
  let gs := gs.after (· = ' ')
  if gs.peek 0 = '#' then gs.after (!isLineEnd ·) else gs

end Source

end SchemaLedger.Yaml
