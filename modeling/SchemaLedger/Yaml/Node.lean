import SchemaLedger.Yaml.Tag
import SchemaLedger.Yaml.Token

/-!
# YAML nodes

The tokens of a text make a graph of nodes, in which every node has a tag and a number. An alias
gives the number of the node that its anchor names, so a node can be a part of several others, and
even of itself. A part that is missing, such as the value of a key at the end of a line, is a scalar
without text.
-/

namespace SchemaLedger.Yaml

/-- The number of a node. -/
abbrev NodeId := Nat

/-- What a node consists of. -/
inductive Shape where
  | scalar (text : String)
  | sequence (items : List NodeId)
  | mapping (entries : List (NodeId × NodeId))
  deriving DecidableEq, Repr

/-- A node of a document. -/
structure Node where
  tag : Tag
  shape : Shape
  deriving DecidableEq, Repr

/-- The nodes of a document by their numbers, with the number of the outermost one. -/
structure Graph where
  nodes : Array Node
  root : NodeId
  deriving DecidableEq, Repr

/-- What is left of the tokens, with what was declared so far. -/
structure Parser where
  tokens : List Token
  /-- The nodes so far; the parts of some of them are still to come. -/
  nodes : Array Node := #[]
  /-- The anchors with the numbers of their nodes. -/
  anchors : List (String × NodeId) := []
  /-- The abbreviations for the beginning of tags. -/
  handles : List (String × String)
  /-- How many nodes with parts the next node is inside of. -/
  depth : Nat := 0

/-- A part of the parse. -/
abbrev Parse := StateT Parser (Except ReadError)

namespace Parse

/-- The text is no YAML. -/
def malformed : Parse α := throw .malformed

/-- The next token. -/
def peek : Parse Token := do
  match (← get).tokens with
  | [] => malformed
  | .broken e :: _ => throw e
  | t :: _ => return t

/-- Goes on behind the next token. -/
def advance : Parse Unit := modify fun p => { p with tokens := p.tokens.tail }

/-- Whether the next token is one of a list; it stays where it is. -/
def sees (ts : List Token) : Parse Bool := return (← peek) ∈ ts

/-- Goes on behind a token, which has to be there. -/
def expect (t : Token) : Parse Unit := do
  if (← peek) = t then advance else malformed

/-- Goes on behind a token if it is there, and tells whether it was. -/
def skip? (t : Token) : Parse Bool := do
  if (← peek) = t then
    advance
    return true
  else return false

/-- The node of an alias. -/
def aliased (name : String) : Parse NodeId := do
  match (← get).anchors.find? (·.1 = name) with
  | some (_, id) => return id
  | none => malformed

/-- Requires that an anchor is new. -/
def newAnchor (anchor : Option String) : Parse Unit := do
  if (← get).anchors.any (some ·.1 = anchor) then malformed

/-- Adds a node, which an anchor may name. -/
def add (anchor : Option String) (n : Node) : Parse NodeId := do
  let id := (← get).nodes.size
  modify fun p =>
    { p with
      nodes := p.nodes.push n
      anchors := (anchor.map (·, id)).toList ++ p.anchors }
  return id

/-- Adds the scalar that stands for a missing part. -/
def missing : Parse NodeId := add none ⟨.ofPlain "", .scalar ""⟩

/-- How many nodes with parts can be inside each other. -/
def maxDepth : Nat := 489

/-- Adds a node with parts. It has its number before they are read, so that an alias among them can
stand for it. -/
def addWithParts (anchor : Option String) (tag : Tag) (parts : Parse Shape) : Parse NodeId := do
  let id ← add anchor ⟨tag, .sequence []⟩
  let depth := (← get).depth
  if maxDepth ≤ depth then throw .tooDeep
  modify ({ · with depth := depth + 1 })
  let shape ← parts
  modify fun p => { p with depth, nodes := p.nodes.modify id ({ · with shape }) }
  return id

/-- The full name of a tag. -/
def fullName (handle : Option String) (suffix : String) : Parse String := do
  match handle with
  | none => return suffix
  | some h =>
    match (← get).handles.find? (·.1 = h) with
    | some (_, tagPrefix) => return tagPrefix ++ suffix
    | none => malformed

/-- The anchor in front of a node. -/
def anchor? : Parse (Option String) := do
  match ← peek with
  | .anchor name =>
    advance
    return some name
  | _ => return none

/-- The tag in front of a node, with its full name. -/
def tag? : Parse (Option String) := do
  match ← peek with
  | .tag handle suffix =>
    advance
    return some (← fullName handle suffix)
  | _ => return none

/-- The anchor and the tag in front of a node, in either order. -/
def properties : Parse (Option String × Option String) := do
  match ← anchor? with
  | some name => return (some name, ← tag?)
  | none =>
    let tag ← tag?
    if tag.isSome then return (← anchor?, tag) else return (none, none)

/-- The tag of a node that is no scalar. -/
def collectionTag (tag : Option String) (usual : Tag) : Tag :=
  match tag with
  | none | some "!" => usual
  | some name => .ofName name

/-- The tag of a scalar. -/
def scalarTag (tag : Option String) (text : String) (plain : Bool) : Tag :=
  match tag with
  | none => if plain then .ofPlain text else .text
  | some "!" => .ofPlain text
  | some name => .ofName name

mutual

/-- A node. Inside brackets a node is no block; the value of a key may be a list of entries that are
not indented. -/
def node (block unindented : Bool) : (limit : Nat) → Parse NodeId
  | 0 => malformed
  | limit + 1 => do
    -- an alias has no anchor and no tag of its own
    if let .alias name ← peek then
      advance
      aliased name
    else
      let (anchor, tag) ← properties
      newAnchor anchor
      let sequence := addWithParts anchor (collectionTag tag .sequence)
      let mapping := addWithParts anchor (collectionTag tag .mapping)
      match ← peek with
      | .scalar text plain =>
        advance
        add anchor ⟨scalarTag tag text plain, .scalar text⟩
      | .flowSequenceStart =>
        advance
        sequence (return .sequence (← flowItems true limit))
      | .flowMappingStart =>
        advance
        mapping (return .mapping (← flowEntries true limit))
      | .blockSequenceStart =>
        if !block then malformed
        else
          advance
          sequence (return .sequence (← blockItems limit))
      | .blockMappingStart =>
        if !block then malformed
        else
          advance
          mapping (return .mapping (← blockEntries limit))
      | t =>
        if t = .blockEntry && unindented then
          sequence (return .sequence (← unindentedItems limit))
        -- properties without content belong to a missing scalar
        else if anchor.isSome || tag.isSome then add anchor ⟨scalarTag tag "" true, .scalar ""⟩
        else malformed

/-- A node unless one of some tokens follows. -/
def nodeUnless (ends : List Token) (block unindented : Bool) : (limit : Nat) → Parse NodeId
  | 0 => malformed
  | limit + 1 => do
    if ← sees ends then missing else node block unindented limit

/-- The value of a key, unless one of some tokens follows. -/
def valueUnless (ends : List Token) (block unindented : Bool) : (limit : Nat) → Parse NodeId
  | 0 => malformed
  | limit + 1 => do
    if ← skip? .value then nodeUnless ends block unindented limit else missing

/-- The entries of an indented list, up to the end of its block. -/
def blockItems : (limit : Nat) → Parse (List NodeId)
  | 0 => malformed
  | limit + 1 => do
    if ← skip? .blockEntry then
      let item ← nodeUnless [.blockEntry, .blockEnd] true false limit
      return item :: (← blockItems limit)
    else
      expect .blockEnd
      return []

/-- The entries of a list that is not indented. -/
def unindentedItems : (limit : Nat) → Parse (List NodeId)
  | 0 => malformed
  | limit + 1 => do
    if ← skip? .blockEntry then
      let item ← nodeUnless [.blockEntry, .key, .value, .blockEnd] true false limit
      return item :: (← unindentedItems limit)
    else return []

/-- The entries of an indented mapping, up to the end of its block. -/
def blockEntries : (limit : Nat) → Parse (List (NodeId × NodeId))
  | 0 => malformed
  | limit + 1 => do
    if ← skip? .key then
      let k ← nodeUnless [.key, .value, .blockEnd] true true limit
      let v ← valueUnless [.key, .value, .blockEnd] true true limit
      return (k, v) :: (← blockEntries limit)
    else
      expect .blockEnd
      return []

/-- The items between brackets. A key with a value is a mapping with one entry. -/
def flowItems (first : Bool) : (limit : Nat) → Parse (List NodeId)
  | 0 => malformed
  | limit + 1 => do
    if ← skip? .flowSequenceEnd then return []
    else
      if !first then expect .flowEntry
      -- a comma may stand behind the last item
      if ← skip? .key then
        let k ← nodeUnless [.value, .flowEntry, .flowSequenceEnd] false false limit
        let v ← valueUnless [.flowEntry, .flowSequenceEnd] false false limit
        let item ← add none ⟨.mapping, .mapping [(k, v)]⟩
        return item :: (← flowItems false limit)
      else if ← skip? .flowSequenceEnd then return []
      else
        let item ← node false false limit
        return item :: (← flowItems false limit)

/-- The entries between braces. A node without a value is a key as well. -/
def flowEntries (first : Bool) : (limit : Nat) → Parse (List (NodeId × NodeId))
  | 0 => malformed
  | limit + 1 => do
    if ← skip? .flowMappingEnd then return []
    else
      if !first then expect .flowEntry
      if ← skip? .key then
        let k ← nodeUnless [.value, .flowEntry, .flowMappingEnd] false false limit
        let v ← valueUnless [.flowEntry, .flowMappingEnd] false false limit
        return (k, v) :: (← flowEntries false limit)
      else if ← skip? .flowMappingEnd then return []
      else
        let k ← node false false limit
        return (k, ← missing) :: (← flowEntries false limit)

end

/-- The abbreviations that need no declaration. -/
def usualHandles : List (String × String) := [("!", "!"), ("!!", Tag.standard)]

/-- Takes the directives in front of a document, none of them twice. -/
def directives : (limit : Nat) → (versioned : Bool) → (declared : List (String × String)) →
    Parse (List (String × String))
  | 0, _, _ => malformed
  | limit + 1, versioned, declared => do
    match ← peek with
    | .versionDirective major =>
      if versioned || major ≠ 1 then malformed
      else
        advance
        directives limit true declared
    | .tagDirective handle tagPrefix =>
      if declared.any (·.1 = handle) then malformed
      else
        advance
        directives limit versioned ((handle, tagPrefix) :: declared)
    | .otherDirective =>
      advance
      directives limit versioned declared
    | _ => return declared

/-- Takes the marks at the end of documents. -/
def skipEnds : (limit : Nat) → Parse Unit
  | 0 => malformed
  | limit + 1 => do
    if ← skip? .documentEnd then skipEnds limit

/-- The content of a document that was announced. -/
def announced (limit : Nat) : Parse NodeId := do
  let declared ← directives limit false []
  modify fun p => { p with handles := declared ++ usualHandles }
  expect .documentStart
  match ← peek with
  | .versionDirective _ | .tagDirective _ _ | .otherDirective | .documentStart | .documentEnd
  | .streamEnd => missing
  | _ => node true false limit

/-- The end of the text behind its document. What announces another document is still read before
that document is refused. -/
def ending (limit : Nat) : Parse Unit := do
  skipEnds limit
  if (← peek) ≠ .streamEnd then
    let _ ← directives limit false []
    malformed

/-- The one document of a text, if the text is not empty. -/
def document (limit : Nat) : Parse (Option NodeId) := do
  match ← peek with
  | .streamEnd => return none
  | t =>
    let content ← (match t with
      | .versionDirective _ | .tagDirective _ _ | .otherDirective | .documentStart =>
        announced limit
      | _ => node true false limit)
    ending limit
    return some content

end Parse

/-- The document that tokens make. Between two tokens the parse goes down three levels at most. -/
def Graph.ofTokens (tokens : List Token) : Except ReadError (Option Graph) :=
  ((Parse.document (4 * tokens.length + 8)).run { tokens, handles := Parse.usualHandles }).map
    fun (root, p) => root.map fun root => ⟨p.nodes, root⟩

end SchemaLedger.Yaml
