import SchemaLedger.Text.CodeUnit
import SchemaLedger.Yaml.Glyph

/-!
# The text of a scalar

A scalar is written in one of four styles: as a block, with its lines kept or folded, between
single or double quotes, or plain. Inside a scalar single line breaks become spaces, except in a
block whose lines are kept.
-/

namespace SchemaLedger.Yaml

/-- Why a text cannot be read. -/
inductive ReadError where
  /-- The text is no YAML, or uses a kind of document that is not known. -/
  | malformed
  /-- A number, date or character that does not exist. -/
  | impossible
  /-- A number that is too large to be worked with: that of a character has more than 31 bits, or
  the place of a group of sixty is beyond the largest floating-point number. -/
  | tooLarge
  /-- A word that is no truth value where one was announced. -/
  | notTruth
  /-- A text that is no time where one was announced. -/
  | notTime
  /-- A list or mapping where a time was announced. -/
  | timeInParts
  /-- A number without digits where one was announced. -/
  | noNumber
  /-- A scalar that is to be read from itself. -/
  | endless
  /-- Lists and mappings inside each other that go down too many levels. -/
  | tooDeep
  deriving DecidableEq, Repr

/-- What becomes of the line breaks at the end of a block. -/
inductive Chomping where
  /-- All are dropped. -/
  | strip
  /-- One is kept. -/
  | clip
  /-- All are kept. -/
  | keep
  deriving DecidableEq, Repr

/-- The text of a line break between two lines that are joined, followed by empty lines. -/
def foldedBreak (lineBreak emptyLines : List Char) : List Char :=
  if lineBreak ≠ ['\n'] then lineBreak ++ emptyLines
  else if emptyLines.isEmpty then [' ']
  else emptyLines

namespace Block

/-- A sign for what becomes of the line breaks at the end. -/
def chomping? (c : Char) : Option Chomping :=
  if c = '+' then some .keep else if c = '-' then some .strip else none

/-- A digit for the indentation. -/
def increment? (c : Char) : Option Nat := if c.isDigit then some (c.toNat - 48) else none

/-- The signs behind the indicator of a block, in either order: what becomes of the line breaks at
the end, and the indentation, which is not zero. -/
def header (gs : Source) : Except ReadError (Chomping × Option Nat × Source) :=
  let (chomping, increment, rest) : Chomping × Option Nat × Source :=
    match chomping? (gs.peek 0), increment? (gs.peek 0) with
    | some c, _ =>
      match increment? (gs.peek 1) with
      | some n => (c, some n, gs.drop 2)
      | none => (c, none, gs.drop 1)
    | none, some n =>
      match chomping? (gs.peek 1) with
      | some c => (c, some n, gs.drop 2)
      | none => (.clip, some n, gs.drop 1)
    | none, none => (.clip, none, gs)
  if increment = some 0 then .error .malformed
  else if isLineEnd (rest.peek 0) || rest.peek 0 = ' ' then .ok (chomping, increment, rest)
  else .error .malformed

/-- Empty lines at the start of a block, with the greatest indentation among them, which is that of
the block if it is not given. -/
def leadingLines (widest : Nat) : Source → List Char × Nat × Source
  | [] => ([], widest, [])
  | g :: rest =>
    if g.char = ' ' then leadingLines (max widest (g.column + 1)) rest
    else if isBreak g.char then
      let (breaks, widest, after) := leadingLines widest rest
      (Source.breakChar g.char :: breaks, widest, after)
    else ([], widest, g :: rest)

/-- Empty lines inside a block, and the indentation of the line after them. -/
def emptyLines (indent : Nat) : Source → List Char × Source
  | [] => ([], [])
  | g :: rest =>
    if g.char = ' ' && g.column < indent then emptyLines indent rest
    else if isBreak g.char then
      let (breaks, after) := emptyLines indent rest
      (Source.breakChar g.char :: breaks, after)
    else ([], g :: rest)

/-- Whether a line of the block starts here. -/
def startsLine (indent : Nat) (gs : Source) : Bool := gs.column = indent && gs.peek 0 ≠ endMark

/-- The lines of a block: their text, then the last line break and the empty lines behind it. -/
def lines (folded : Bool) (indent : Nat) : (limit : Nat) → (before : List Char) → Source →
    List Char × List Char × List Char × Source
  | 0, before, gs => ([], [], before, gs)
  | limit + 1, before, gs =>
    if startsLine indent gs then
      let (content, rest) := gs.run (!isLineEnd ·)
      let (lineBreak, rest) := rest.takeBreak
      let (empty, rest) := emptyLines indent rest
      if startsLine indent rest then
        -- a line that is indented more than the block is not joined with its neighbours
        let joined := folded && lineBreak = ['\n'] && !isSpace (gs.peek 0) && !isSpace (rest.peek 0)
        let separator :=
          if joined then (if empty.isEmpty then [' '] else []) else lineBreak
        let (text, last, trailing, rest) := lines folded indent limit empty rest
        (before ++ content ++ separator ++ text, last, trailing, rest)
      else (before ++ content, lineBreak, empty, rest)
    else ([], [], before, gs)

/-- The text of a block behind its indicator. `parent` is the indentation of what it is a part
of. -/
def text (folded : Bool) (parent : Int) (limit : Nat) (gs : Source) :
    Except ReadError (List Char × Source) := do
  let (chomping, increment, rest) ← header gs
  let rest := rest.afterComment
  if !isLineEnd (rest.peek 0) then .error .malformed
  else
    let rest := rest.takeBreak.2
    -- a block is indented more than what it is a part of
    let least := (max (parent + 1) 1).toNat
    let (indent, before, rest) := match increment with
      | none =>
        let (breaks, widest, rest) := leadingLines 0 rest
        (max least widest, breaks, rest)
      | some n =>
        let indent := least + n - 1
        let (breaks, rest) := emptyLines indent rest
        (indent, breaks, rest)
    let (content, last, trailing, rest) := lines folded indent limit before rest
    let ending := match chomping with
      | .strip => []
      | .clip => last
      | .keep => last ++ trailing
    return (content ++ ending, rest)

end Block

namespace QuotedText

/-- The empty lines behind a line break, and the indentation of the line after them. A mark between
documents must not stand at the start of a line. -/
def emptyLines (atStart : Bool) : Source → Except ReadError (List Char × Source)
  | [] => .ok ([], [])
  | g :: rest =>
    if atStart && Source.isAnyDocumentMark (g :: rest) then .error .malformed
    else if isSpace g.char then emptyLines false rest
    else if isBreak g.char then do
      let (breaks, after) ← emptyLines true rest
      return (Source.breakChar g.char :: breaks, after)
    else .ok ([], g :: rest)

/-- What a letter behind a backslash stands for. -/
def shortEscape? : Char → Option Nat
  | '0' => some 0x00
  | 'a' => some 0x07
  | 'b' => some 0x08
  | 't' | '\t' => some 0x09
  | 'n' => some 0x0A
  | 'v' => some 0x0B
  | 'f' => some 0x0C
  | 'r' => some 0x0D
  | 'e' => some 0x1B
  | ' ' => some 0x20
  | '"' => some 0x22
  | '\\' => some 0x5C
  | '/' => some 0x2F
  | 'N' => some 0x85
  | '_' => some 0xA0
  | 'L' => some 0x2028
  | 'P' => some 0x2029
  | _ => none

/-- How many hexadecimal digits follow a letter behind a backslash. -/
def escapeWidth? : Char → Option Nat
  | 'x' => some 2
  | 'u' => some 4
  | 'U' => some 8
  | _ => none

/-- Reads an escape behind its backslash. -/
def escape (gs : Source) : Except ReadError (List Nat × Source) :=
  let c := gs.peek 0
  match shortEscape? c, escapeWidth? c with
  | some n, _ => .ok ([n], gs.drop 1)
  | none, some width =>
    match Text.hexNumber? (((gs.drop 1).take width).map (·.char)) with
    | none => .error .malformed
    | some n =>
      if 0x7FFFFFFF < n then .error .tooLarge
      else if 0x10FFFF < n then .error .impossible
      else .ok ([n], gs.drop (width + 1))
  | none, none =>
    if isBreak c then do
      let (breaks, rest) ← emptyLines true (gs.drop 1)
      return (breaks.map Char.toNat, rest)
    else .error .malformed

/-- Reads spaces, or a line break with what is empty around it. -/
def spaces (gs : Source) : Except ReadError (List Nat × Source) :=
  let (blanks, rest) := gs.run isSpace
  let c := rest.peek 0
  if c = endMark then .error .malformed
  else if isBreak c then do
    let (lineBreak, rest) := rest.takeBreak
    let (empty, rest) ← emptyLines true rest
    return ((foldedBreak lineBreak empty).map Char.toNat, rest)
  else .ok (blanks.map Char.toNat, rest)

/-- Reads the text of a scalar up to its closing quote. -/
def units (double : Bool) : (limit : Nat) → Source → Except ReadError (List Nat × Source)
  | 0, _ => .error .malformed
  | limit + 1, gs => do
    let c := gs.peek 0
    if double && c = '"' then return ([], gs.drop 1)
    else if !double && c = '\'' && gs.peek 1 ≠ '\'' then return ([], gs.drop 1)
    else
      let (part, rest) ←
        if isGap c then spaces gs
        else if double && c = '\\' then escape (gs.drop 1)
        else if !double && c = '\'' then .ok (['\''.toNat], gs.drop 2)
        else .ok ([c.toNat], gs.drop 1)
      let (following, rest) ← units double limit rest
      return (part ++ following, rest)

/-- The text of a quoted scalar behind its opening quote. -/
def text (double : Bool) (limit : Nat) (gs : Source) : Except ReadError (List Char × Source) :=
  (units double limit gs).map fun (ns, rest) => (Text.joinPairs ns, rest)

end QuotedText

namespace Plain

/-- Whether a plain scalar stops here: at a gap, at a colon that ends a key, and inside brackets at
a character that has a meaning there. -/
def stops (flow : Bool) (gs : Source) : Bool :=
  let c := gs.peek 0
  isGap c ||
    (c = ':' && (isGap (gs.peek 1) || (flow && gs.peek 1 ∈ [',', '[', ']', '\x7b', '\x7d']))) ||
    (flow && c ∈ [',', '?', '[', ']', '\x7b', '\x7d'])

/-- The characters up to where a plain scalar stops. -/
def word (flow : Bool) : Source → List Char × Source
  | [] => ([], [])
  | g :: rest =>
    if stops flow (g :: rest) then ([], g :: rest)
    else
      let (cs, after) := word flow rest
      (g.char :: cs, after)

/-- The empty lines behind a line break, and the indentation of the line after them; nothing if a
mark between documents follows a line break. -/
def emptyLines (atStart : Bool) : Source → Option (List Char) × Source
  | [] => (some [], [])
  | g :: rest =>
    if atStart && Source.isAnyDocumentMark (g :: rest) then (none, g :: rest)
    else if g.char = ' ' then emptyLines false rest
    else if isBreak g.char then
      let (breaks, after) := emptyLines true rest
      (breaks.map (Source.breakChar g.char :: ·), after)
    else (some [], g :: rest)

/-- The spaces behind a word, or the line breaks, as they count in the text if another word follows;
and whether a line ended. -/
def spaces (gs : Source) : List Char × Bool × Source :=
  let (blanks, rest) := gs.run (· = ' ')
  if isBreak (rest.peek 0) then
    let (lineBreak, rest) := rest.takeBreak
    match emptyLines true rest with
    | (some empty, rest) => (foldedBreak lineBreak empty, true, rest)
    | (none, rest) => ([], true, rest)
  else (blanks, false, rest)

/-- The words of a plain scalar, and whether a line ended behind the last one. -/
def words (flow : Bool) (indent : Int) : (limit : Nat) → (before : List Char) → Source →
    List Char × Bool × Source
  | 0, _, gs => ([], false, gs)
  | limit + 1, before, gs =>
    let (cs, rest) := word flow gs
    let (blanks, ended, rest) := spaces rest
    let (following, ended, rest) :=
      if blanks.isEmpty || rest.peek 0 = '#' || (!flow && rest.column < indent) ||
          stops flow rest then
        ([], ended, rest)
      else words flow indent limit blanks rest
    (before ++ cs ++ following, ended, rest)

/-- The text of a plain scalar, and whether a line ended behind it. `parent` is the indentation of
what it is a part of. -/
def text (flow : Bool) (parent : Int) (limit : Nat) (gs : Source) : List Char × Bool × Source :=
  words flow (parent + 1) limit [] gs

end Plain

end SchemaLedger.Yaml
