import SchemaLedger.Number.Read
import SchemaLedger.Yaml.ScalarText

/-!
# YAML tokens

The tokens of a text come from one pass over its characters. Blocks are delimited by indentation, so
the start and the end of a block are tokens that no character stands for. Whether a node is a key
shows only at the colon behind it: the scanner remembers where a key could have started, and puts
the token for it in there afterwards.
-/

namespace SchemaLedger.Yaml

/-- A part of a YAML text. -/
inductive Token where
  /-- The version of the language. -/
  | versionDirective (major : Nat)
  /-- An abbreviation for the beginning of tags. -/
  | tagDirective (handle tagPrefix : String)
  | otherDirective
  | documentStart
  | documentEnd
  | blockSequenceStart
  | blockMappingStart
  | blockEnd
  | flowSequenceStart
  | flowSequenceEnd
  | flowMappingStart
  | flowMappingEnd
  | blockEntry
  | flowEntry
  | key
  | value
  | alias (name : String)
  | anchor (name : String)
  | tag (handle : Option String) (suffix : String)
  | scalar (text : String) (plain : Bool)
  | streamEnd
  /-- What follows cannot be read; it is the last token. -/
  | broken (e : ReadError)
  deriving DecidableEq, Repr

/-- Whether a character may stand in the name of an anchor or a handle. -/
def isWordChar (c : Char) : Bool := c.isAlphanum || c = '-' || c = '_'

/-- Whether a character may stand in a tag. -/
def isTagChar (c : Char) : Bool := c.isAlphanum || c ∈ "-;/?:@&=+$,_.!~*'()[]%".toList

namespace Token

/-- Reads the name of an anchor or alias. -/
def readName (gs : Source) : Except ReadError (String × Source) :=
  let (name, rest) := gs.run isWordChar
  if name.isEmpty || !(isGap (rest.peek 0) || rest.peek 0 ∈ "?:,]\x7d%@`".toList) then
    .error .malformed
  else .ok (String.ofList name, rest)

/-- The bytes of escapes in a row, each a percent sign with two hexadecimal digits. -/
def readBytes : (limit : Nat) → Source → Except ReadError (List UInt8 × Source)
  | 0, gs => .ok ([], gs)
  | limit + 1, gs =>
    if gs.peek 0 = '%' then
      match Text.hexNumber? (((gs.drop 1).take 2).map (·.char)) with
      | none => .error .malformed
      | some n => do
        let (bytes, rest) ← readBytes limit (gs.drop 3)
        return (n.toUInt8 :: bytes, rest)
    else .ok ([], gs)

/-- Reads a tag or a part of one, with its escapes. -/
def readTagChars : (limit : Nat) → Source → Except ReadError (List Char × Source)
  | 0, gs => .ok ([], gs)
  | limit + 1, gs =>
    if gs.peek 0 = '%' then do
      let (bytes, rest) ← readBytes limit gs
      match String.fromUTF8? ⟨bytes.toArray⟩ with
      | none => .error .malformed
      | some s =>
        let (following, rest) ← readTagChars limit rest
        return (s.toList ++ following, rest)
    else if isTagChar (gs.peek 0) then do
      let (following, rest) ← readTagChars limit (gs.drop 1)
      return (gs.peek 0 :: following, rest)
    else .ok ([], gs)

/-- Reads a tag or a part of one, which must not be empty. -/
def readTagText (limit : Nat) (gs : Source) : Except ReadError (String × Source) := do
  let (cs, rest) ← readTagChars limit gs
  if cs.isEmpty then .error .malformed else .ok (String.ofList cs, rest)

/-- Reads a handle: an exclamation mark, or a word between two. -/
def readHandle (gs : Source) : Except ReadError (String × Source) :=
  if gs.peek 0 ≠ '!' then .error .malformed
  else
    let (word, rest) := Source.run isWordChar (gs.drop 1)
    if rest.peek 0 = '!' then .ok (String.ofList ('!' :: word ++ ['!']), rest.drop 1)
    else if word.isEmpty && rest.peek 0 = ' ' then .ok ("!", rest)
    else .error .malformed

/-- Whether another exclamation mark follows before the end of the word. -/
def usesHandle (gs : Source) : Bool :=
  (Source.after (fun c => !(isLineEnd c || c = ' ' || c = '!')) (gs.drop 1)).peek 0 = '!'

/-- Reads a tag. -/
def readTag (limit : Nat) (gs : Source) : Except ReadError (Token × Source) := do
  let (t, rest) : Token × Source ←
    if gs.peek 1 = '<' then do
      let (suffix, rest) ← readTagText limit (gs.drop 2)
      if rest.peek 0 = '>' then .ok (tag none suffix, rest.drop 1) else .error .malformed
    else if isGap (gs.peek 1) then .ok (tag none "!", gs.drop 1)
    else do
      let (handle, rest) ← if usesHandle gs then readHandle gs else .ok ("!", gs.drop 1)
      let (suffix, rest) ← readTagText limit rest
      .ok (tag (some handle) suffix, rest)
  if isLineEnd (rest.peek 0) || rest.peek 0 = ' ' then .ok (t, rest) else .error .malformed

/-- Reads a number, which must not be too long. -/
def readNumber (gs : Source) : Except ReadError (Nat × Source) :=
  let (digits, rest) := gs.run Char.isDigit
  if digits.isEmpty then .error .malformed
  else
    match Number.ofDecimalDigits? false digits with
    | some n => .ok (n.toNat, rest)
    | none => .error .impossible

/-- Requires that a word ends here. -/
def wordEnd (gs : Source) : Except ReadError Source :=
  if isLineEnd (gs.peek 0) || gs.peek 0 = ' ' then .ok gs else .error .malformed

/-- Reads what follows the name of a directive. -/
def readArguments (limit : Nat) (name : String) (gs : Source) :
    Except ReadError (Token × Source) := do
  let arguments := gs.after (· = ' ')
  if name = "YAML" then do
    let (major, rest) ← readNumber arguments
    if rest.peek 0 ≠ '.' then .error .malformed
    else do
      let (_, rest) ← readNumber (rest.drop 1)
      return (versionDirective major, ← wordEnd rest)
  else if name = "TAG" then do
    let (handle, rest) ← readHandle arguments
    if rest.peek 0 ≠ ' ' then .error .malformed
    else do
      let (tagPrefix, rest) ← readTagText limit (rest.after (· = ' '))
      return (tagDirective handle tagPrefix, ← wordEnd rest)
  else return (otherDirective, gs.after (!isLineEnd ·))

/-- Reads a directive, up to the end of its line. -/
def readDirective (limit : Nat) (gs : Source) : Except ReadError (Token × Source) := do
  let (name, rest) := Source.run isWordChar (gs.drop 1)
  if name.isEmpty then .error .malformed
  else do
    let (t, rest) ← readArguments limit (String.ofList name) (← wordEnd rest)
    let rest := rest.afterComment
    if isLineEnd (rest.peek 0) then .ok (t, rest.takeBreak.2) else .error .malformed

end Token

/-- A place at which a key could have started. -/
structure PossibleKey where
  /-- How many tokens stand before it. -/
  number : Nat
  /-- Whether it can be nothing else than a key. -/
  required : Bool
  index : Nat
  line : Nat
  column : Nat
  deriving Repr

/-- The state of the scan. -/
structure Scanner where
  source : Source
  /-- How many brackets are open. -/
  flowLevel : Int := 0
  /-- The column of the innermost block. -/
  indent : Int := -1
  /-- The columns of the blocks around it. -/
  outer : List Int := []
  /-- Whether a key may start here. -/
  keyAllowed : Bool := true
  /-- The places at which a key could have started, by the number of open brackets. -/
  keys : List (Int × PossibleKey) := []
  /-- The tokens so far, the last one first. -/
  tokens : List Token := []
  /-- How many tokens there are so far. -/
  count : Nat := 0

namespace Scanner

/-- Whether the scan is inside brackets. -/
def inFlow (s : Scanner) : Bool := s.flowLevel ≠ 0

/-- The next character. -/
def char (s : Scanner) : Char := s.source.peek 0

/-- The column of the next character. -/
def column (s : Scanner) : Int := s.source.column

/-- Adds a token. -/
def push (s : Scanner) (t : Token) : Scanner :=
  { s with tokens := t :: s.tokens, count := s.count + 1 }

/-- Adds a token and goes on behind it. -/
def emit (s : Scanner) (t : Token) (rest : Source) : Scanner := { s.push t with source := rest }

/-- Adds a token behind the first so many tokens. -/
def pushAt (s : Scanner) (number : Nat) (t : Token) : Scanner :=
  let later := s.tokens.take (s.count - number)
  { s with tokens := later ++ t :: s.tokens.drop (s.count - number), count := s.count + 1 }

/-- Adds a token of some characters, behind which a key may or may not start. -/
def mark (s : Scanner) (t : Token) (width : Nat) (keyAllowed : Bool) : Scanner :=
  { s.emit t (s.source.drop width) with keyAllowed }

/-- The key that could have started among the brackets that are open now. -/
def possibleKey? (s : Scanner) : Option PossibleKey :=
  (s.keys.find? (·.1 = s.flowLevel)).map (·.2)

/-- Forgets that key. -/
def withoutKey (s : Scanner) : Scanner := { s with keys := s.keys.filter (·.1 ≠ s.flowLevel) }

/-- Gives up that key; it is an error if it had to be one. -/
def dropKey (s : Scanner) : Except ReadError Scanner :=
  match s.possibleKey? with
  | none => .ok s
  | some k => if k.required then .error .malformed else .ok s.withoutKey

/-- Whether a key can no longer end here: it has to be on one line and not too long. -/
def isStale (s : Scanner) (k : PossibleKey) : Bool :=
  k.line ≠ s.source.line || 1024 < s.source.index - k.index

/-- Gives up all keys that can no longer end here. -/
def dropStale (s : Scanner) : Except ReadError Scanner :=
  if s.keys.any fun (_, k) => s.isStale k && k.required then .error .malformed
  else .ok { s with keys := s.keys.filter fun (_, k) => !s.isStale k }

/-- Remembers that a key could start here. -/
def saveKey (s : Scanner) : Except ReadError Scanner :=
  if !s.keyAllowed then .ok s
  else do
    -- at the indentation of a block nothing but a key can start
    let required := !s.inFlow && s.indent = s.column
    let s ← s.dropKey
    return { s with
      keys := (s.flowLevel, ⟨s.count, required, s.source.index, s.source.line, s.source.column⟩) ::
        s.keys }

/-- Closes the blocks that are indented more than a column. -/
def unwind (s : Scanner) (column : Int) : Scanner :=
  if s.inFlow then s else closeBlocks s s.outer
where
  /-- Closes blocks as long as there are blocks around them. -/
  closeBlocks (s : Scanner) : List Int → Scanner
    | [] => s
    | around :: rest =>
      if column < s.indent then
        closeBlocks { s.push .blockEnd with indent := around, outer := rest } rest
      else s

/-- Opens a block at a column unless one is open there. The token goes behind the first so many
tokens. -/
def open? (s : Scanner) (column : Int) (number : Nat) (t : Token) : Scanner :=
  if s.inFlow || column ≤ s.indent then s
  else { s.pushAt number t with indent := column, outer := s.indent :: s.outer }

/-- Opens a block at the next character, where a key may start. -/
def openHere (s : Scanner) (t : Token) : Except ReadError Scanner :=
  if s.inFlow then .ok s
  else if !s.keyAllowed then .error .malformed
  else .ok (s.open? s.column s.count t)

/-- Skips spaces, comments and line ends; outside of brackets a key may start on a new line. -/
def skipGap (s : Scanner) : Scanner :=
  let (ended, rest) := skip false false s.source
  { s with source := rest, keyAllowed := s.keyAllowed || (ended && !s.inFlow) }
where
  /-- Goes on to the next character with a meaning; tells whether a line ended before. -/
  skip (inComment ended : Bool) : Source → Bool × Source
    | [] => (ended, [])
    | g :: rest =>
      if isBreak g.char then skip false true rest
      else if inComment && g.char ≠ endMark then skip true ended rest
      else if g.char = ' ' then skip false ended rest
      else if g.char = '#' then skip true ended rest
      else (ended, g :: rest)

/-- The end of the text. -/
def finish (s : Scanner) : Except ReadError Scanner := do
  return (← (s.unwind (-1)).dropKey).push .streamEnd

/-- What stands between documents. -/
def betweenDocuments (s : Scanner) : Except ReadError Scanner := do
  return { ← (s.unwind (-1)).dropKey with keyAllowed := false }

/-- An opening bracket. -/
def openBracket (s : Scanner) (t : Token) : Except ReadError Scanner := do
  let s ← s.saveKey
  return { s.mark t 1 true with flowLevel := s.flowLevel + 1 }

/-- A closing bracket. -/
def closeBracket (s : Scanner) (t : Token) : Except ReadError Scanner := do
  let s ← s.dropKey
  return { s.mark t 1 false with flowLevel := s.flowLevel - 1 }

/-- The dash of an entry. -/
def blockEntry (s : Scanner) : Except ReadError Scanner := do
  let s ← s.openHere .blockSequenceStart
  return (← s.dropKey).mark .blockEntry 1 true

/-- The question mark of a key. -/
def explicitKey (s : Scanner) : Except ReadError Scanner := do
  let s ← s.openHere .blockMappingStart
  return (← s.dropKey).mark .key 1 (!s.inFlow)

/-- The colon of a value, which makes what was remembered a key. -/
def keyValue (s : Scanner) : Except ReadError Scanner :=
  match s.possibleKey? with
  | some k =>
    -- the key comes first, so that the block that it opens ends up in front of it
    let s := s.withoutKey.pushAt k.number .key
    .ok ((s.open? k.column k.number .blockMappingStart).mark .value 1 false)
  | none => do
    let s ← s.openHere .blockMappingStart
    return (← s.dropKey).mark .value 1 (!s.inFlow)

/-- A node that may be a key, read from the source. -/
def node (s : Scanner) (read : Source → Except ReadError (Token × Source)) :
    Except ReadError Scanner := do
  let s ← s.saveKey
  let (t, rest) ← read s.source
  return { s.emit t rest with keyAllowed := false }

/-- An anchor or alias. -/
def named (t : String → Token) (gs : Source) : Except ReadError (Token × Source) :=
  (Token.readName (gs.drop 1)).map fun (name, rest) => (t name, rest)

/-- A scalar between quotes. -/
def quotedScalar (limit : Nat) (double : Bool) (gs : Source) :
    Except ReadError (Token × Source) :=
  (QuotedText.text double limit (gs.drop 1)).map fun (cs, rest) =>
    (.scalar (String.ofList cs) false, rest)

/-- A scalar in a block. -/
def blockScalar (limit : Nat) (s : Scanner) (folded : Bool) : Except ReadError Scanner := do
  let s ← s.dropKey
  let (cs, rest) ← Block.text folded s.indent limit (s.source.drop 1)
  return { s.emit (.scalar (String.ofList cs) false) rest with keyAllowed := true }

/-- A plain scalar; behind it a key may start if its last line ended. -/
def plainScalar (limit : Nat) (s : Scanner) : Except ReadError Scanner := do
  let s ← s.saveKey
  let (cs, ended, rest) := Plain.text s.inFlow s.indent limit s.source
  return { s.emit (.scalar (String.ofList cs) true) rest with keyAllowed := ended }

/-- Whether a plain scalar may start here. -/
def startsPlain (s : Scanner) : Bool :=
  let c := s.char
  !(isGap c || c ∈ "-?:,[]\x7b\x7d#&*!|>'\"%@`".toList) ||
    (!isGap (s.source.peek 1) && (c = '-' || (!s.inFlow && (c = '?' || c = ':'))))

/-- Whether an indicator stands by itself, as it always does inside brackets. -/
def standsAlone (s : Scanner) : Bool := s.inFlow || isGap (s.source.peek 1)

/-- Whether the next character is the first of its line. -/
def atLineStart (s : Scanner) : Bool := s.source.column = 0

/-- Reads the next token. -/
def fetch (limit : Nat) (s : Scanner) : Except ReadError Scanner := do
  let s ← s.skipGap.dropStale
  let s := s.unwind s.column
  let c := s.char
  -- the end, and what stands between documents
  if c = endMark then s.finish
  else if c = '%' && s.atLineStart then do
    let s ← s.betweenDocuments
    let (t, rest) ← Token.readDirective limit s.source
    return s.emit t rest
  else if s.atLineStart && s.source.isDocumentMark '-' then
    return (← s.betweenDocuments).mark .documentStart 3 false
  else if s.atLineStart && s.source.isDocumentMark '.' then
    return (← s.betweenDocuments).mark .documentEnd 3 false
  -- brackets and what separates their parts
  else if c = '[' then s.openBracket .flowSequenceStart
  else if c = '\x7b' then s.openBracket .flowMappingStart
  else if c = ']' then s.closeBracket .flowSequenceEnd
  else if c = '\x7d' then s.closeBracket .flowMappingEnd
  else if c = ',' then do
    return (← s.dropKey).mark .flowEntry 1 true
  -- signs of entries, keys and values
  else if c = '-' && isGap (s.source.peek 1) then s.blockEntry
  else if c = '?' && s.standsAlone then s.explicitKey
  else if c = ':' && s.standsAlone then s.keyValue
  -- nodes and their properties
  else if c = '*' then s.node (named .alias)
  else if c = '&' then s.node (named .anchor)
  else if c = '!' then s.node (Token.readTag limit)
  else if c = '|' && !s.inFlow then blockScalar limit s false
  else if c = '>' && !s.inFlow then blockScalar limit s true
  else if c = '\'' then s.node (quotedScalar limit false)
  else if c = '"' then s.node (quotedScalar limit true)
  else if s.startsPlain then plainScalar limit s
  else .error .malformed

/-- The tokens of a text that cannot be read further, the last one first. A token in front of which
the token for a key may still have to go does not count as read, nor does what follows it. -/
def breakOff (s : Scanner) (e : ReadError) : List Token :=
  let pending := s.keys.filter fun (_, k) => !s.isStale k
  let settled := (pending.map (·.2.number)).foldl min s.count
  .broken e :: s.tokens.drop (s.count - settled)

/-- Reads tokens up to the end of the text; no more than `left` of them, each of which takes up at
least one character. -/
def scan (limit : Nat) : (left : Nat) → Scanner → List Token
  | 0, s => s.tokens
  | left + 1, s =>
    match s.fetch limit with
    | .error e => s.breakOff e
    | .ok s => if s.tokens.head? = some .streamEnd then s.tokens else scan limit left s

end Scanner

/-- The lines of a text with one kind of line end: a carriage return, alone or before a line feed,
becomes a line feed. -/
def unifyLines : List Char → List Char
  | '\r' :: '\n' :: rest => '\n' :: unifyLines rest
  | '\r' :: rest => '\n' :: unifyLines rest
  | c :: rest => c :: unifyLines rest
  | [] => []

/-- The tokens of a text. A byte order mark in front is not a part of it. -/
def tokens (text : String) : List Token :=
  let cs := text.toList
  if cs.all isPrintable then
    let cs := unifyLines (match cs with
      | '\ufeff' :: rest => rest
      | cs => cs)
    let limit := cs.length + 2
    (Scanner.scan limit limit { source := placed 0 0 0 cs }).reverse
  else [.broken .malformed]

example : tokens "a: [b, 1]\n" =
    [.blockMappingStart, .key, .scalar "a" true, .value, .flowSequenceStart, .scalar "b" true,
      .flowEntry, .scalar "1" true, .flowSequenceEnd, .blockEnd, .streamEnd] := by decide +kernel

end SchemaLedger.Yaml
