import SchemaLedger.Json.Token

/-!
# JSON documents

A document is read from its tokens one after another, with the open lists and mappings on a stack.
The first token that does not fit ends the reading. Of the entries of a mapping with one key the
last one counts, at the place of the first.
-/

namespace SchemaLedger.Json

/-- Why a text is no JSON document. -/
inductive ReadError where
  /-- A token does not fit, or the text ends too early. -/
  | malformed
  /-- An integer has too many digits. -/
  | hugeInteger
  /-- Lists and mappings inside each other go down too many levels. -/
  | tooDeep
  deriving DecidableEq, Repr

/-- A list or mapping that is not closed yet. -/
inductive Frame where
  /-- The items so far, the last one first. -/
  | list (items : List Value)
  /-- The entries so far, and the key of the next value. -/
  | map (entries : Mapping) (key : String)
  deriving Repr

/-- What was read so far, and what may come next. -/
inductive State where
  /-- A value is to come, or the end of the list if it is still empty. -/
  | value (first : Bool) (stack : List Frame)
  /-- A key is to come, or the end of the mapping if it is still empty. -/
  | key (first : Bool) (entries : Mapping) (stack : List Frame)
  /-- The colon behind a key is to come. -/
  | colon (entries : Mapping) (key : String) (stack : List Frame)
  /-- A value is complete; what comes next depends on what it is a part of. -/
  | complete (v : Value) (stack : List Frame)
  deriving Repr

/-- How many lists and mappings can be inside each other. -/
def maxDepth : Nat := 988

/-- The state in a list or mapping that was just opened. -/
def opened (stack : List Frame) (s : State) : Except ReadError State :=
  if maxDepth ≤ stack.length then .error .tooDeep else .ok s

/-- Takes a token that starts a value. -/
def startValue (stack : List Frame) : Token → Except ReadError State
  | .scalar s => .ok (.complete (.scalar s) stack)
  | .openList => opened stack (.value true (.list [] :: stack))
  | .openMap => opened stack (.key true [] stack)
  | .hugeInteger => .error .hugeInteger
  | _ => .error .malformed

/-- Takes the next token. -/
def State.feed : State → Token → Except ReadError State
  -- only an empty list may close where a value is to come
  | value true (.list _ :: stack), .closeList => .ok (.complete (.list []) stack)
  | value _ stack, token => startValue stack token
  | key true _ stack, .closeMap => .ok (.complete (.map []) stack)
  | key _ entries stack, .scalar (.text k) => .ok (.colon entries k stack)
  | colon entries k stack, .colon => .ok (.value false (.map entries k :: stack))
  | complete v (.list items :: stack), .comma => .ok (.value false (.list (v :: items) :: stack))
  | complete v (.list items :: stack), .closeList =>
    .ok (.complete (.list (v :: items).reverse) stack)
  | complete v (.map entries k :: stack), .comma => .ok (.key false (entries.put (.text k) v) stack)
  | complete v (.map entries k :: stack), .closeMap =>
    .ok (.complete (.map (entries.put (.text k) v)) stack)
  | _, _ => .error .malformed

/-- The document that a row of tokens makes. -/
def ofTokens (tokens : List Token) : Except ReadError Value :=
  match tokens.foldlM State.feed (.value false []) with
  | .error e => .error e
  | .ok (.complete v []) => .ok v
  | .ok _ => .error .malformed

/-- Reads a document from a text. -/
def read (s : String) : Except ReadError Value := ofTokens (tokens s)

example : (match read "\x7b\"a\": [1, \x7b\x7d], \"b\": null, \"a\": true\x7d" with
    | .ok v => decide (v = .map [(.text "a", .bool true), (.text "b", .null)])
    | .error _ => false) = true := by decide +kernel
example : (match read "[1,]", read "", read "[1] 2", read "\x7b\"a\"\x7d" with
    | .error .malformed, .error .malformed, .error .malformed, .error .malformed => true
    | _, _, _, _ => false) = true := by decide +kernel

end SchemaLedger.Json
