import SchemaLedger.Value.Basic
import SchemaLedger.Text.Blank

/-!
# Migration payloads

A payload is a document with an optional name, an optional label for its version schema, and a list
of operations, each a mapping with exactly one key. `Payload.validate` reads one from any document
and says in detail what is wrong with a document that is none. Where a text is expected, binary data
stands for the text that it encodes.
-/

namespace SchemaLedger

/-- A migration as its author wrote it. -/
structure Payload where
  name : Option String := none
  versionSchema : Option String := none
  operations : List Mapping := []
  deriving DecidableEq, Repr

namespace Payload

/-- What is wrong at one place of a document. -/
inductive Fault where
  /-- A text was expected. -/
  | notText
  /-- A text was expected, and binary data is there that encodes none. -/
  | notUnicode
  /-- A list was expected. -/
  | notList
  /-- A mapping was expected. -/
  | notMapping
  /-- The field is not one of a payload. -/
  | extraField
  /-- The name of a field is no text. -/
  | badKey
  /-- The document is no mapping. -/
  | notPayload
  /-- An operation does not have exactly one kind. -/
  | operationKinds (index : Nat)
  /-- The label is there but holds nothing but blanks. -/
  | blankLabel
  deriving DecidableEq, Repr

/-- One step of the way to a place in a document. -/
inductive Step where
  | field (name : String)
  | index (i : Nat)
  | key (k : Scalar)
  /-- The key itself, not the value under it. -/
  | keyItself
  deriving DecidableEq, Repr

/-- A fault with its place. -/
structure Detail where
  place : List Step
  fault : Fault
  deriving DecidableEq, Repr

/-- The sentence for a fault that is more than a wrong kind of value. -/
def Fault.message? : Fault → Option String
  | operationKinds index => some s!"operations[{index}] must have exactly one operation kind"
  | blankLabel => some "version_schema must not be blank"
  | _ => none

/-- The fields of a payload, in order. -/
def fieldNames : List String := ["name", "version_schema", "operations"]

/-- The text that a scalar stands for. -/
def textOf : Scalar → Except Fault String
  | .text s => .ok s
  | .bytes content =>
    match String.fromUTF8? ⟨content.toArray⟩ with
    | some s => .ok s
    | none => .error .notUnicode
  | _ => .error .notText

/-- An optional text field. -/
def readText (m : Mapping) (field : String) : Except (List Detail) (Option String) :=
  match Mapping.field? m field with
  | none | some .null => .ok none
  | some (.scalar v) =>
    match textOf v with
    | .ok s => .ok (some s)
    | .error f => .error [⟨[.field field], f⟩]
  | some _ => .error [⟨[.field field], .notText⟩]

/-- The faults of one operation. -/
def operationFaults (index : Nat) : Value → List Detail
  | .map m => m.filterMap fun e =>
    match textOf e.1 with
    | .ok _ => none
    | .error f => some ⟨[.field "operations", .index index, .key e.1, .keyItself], f⟩
  | _ => [⟨[.field "operations", .index index], .notMapping⟩]

/-- Whether a scalar is binary data. -/
def isBinary : Scalar → Bool
  | .bytes _ => true
  | _ => false

/-- A key as the text that it stands for. -/
def textKey (k : Scalar) : Scalar :=
  match textOf k with
  | .ok s => .text s
  | .error _ => k

/-- The entries of an operation under their texts. Two keys for one text make one entry. -/
def withTextKeys (m : Mapping) : Mapping :=
  if m.any (isBinary ·.1) then Mapping.ofEntries (m.map fun e => (textKey e.1, e.2)) else m

/-- The mapping that a document is, or an empty one. -/
def entriesOf : Value → Mapping
  | .map m => withTextKeys m
  | _ => []

/-- The operations; none if the field is missing. -/
def readOperations (m : Mapping) : Except (List Detail) (List Mapping) :=
  match Mapping.field? m "operations" with
  | none => .ok []
  | some (.list xs) =>
    match xs.zipIdx.flatMap fun (v, i) => operationFaults i v with
    | [] => .ok (xs.map entriesOf)
    | details => .error details
  | some _ => .error [⟨[.field "operations"], .notList⟩]

/-- The fault of a key. A key in binary data is passed over if the field that it spells is there by
its text. -/
def keyFault? (m : Mapping) (k : Scalar) : Option Detail :=
  match k with
  | .text s => if s ∈ fieldNames then none else some ⟨[.field s], .extraField⟩
  | k =>
    match textOf k with
    | .ok s =>
      if s ∈ fieldNames ∧ (m.field? s).isSome then none else some ⟨[.key k], .extraField⟩
    | .error _ => some ⟨[.key k], .badKey⟩

/-- The faults of the keys, in the order of the entries. -/
def keyFaults (m : Mapping) : List Detail := m.filterMap fun e => keyFault? m e.1

/-- The faults of a field that was read. -/
def faultsOf : Except (List Detail) α → List Detail
  | .ok _ => []
  | .error details => details

/-- The first operation that does not have exactly one kind. -/
def unclearOperation? (operations : List Mapping) : Option Nat :=
  operations.findIdx? fun m => m.length ≠ 1

/-- Reads the fields of a payload, or tells all of their faults: those of the fields in their order,
then those of the keys. -/
def readFields (m : Mapping) : Except (List Detail) Payload :=
  match readText m "name", readText m "version_schema", readOperations m, keyFaults m with
  | .ok name, .ok versionSchema, .ok operations, [] => .ok { name, versionSchema, operations }
  | name, versionSchema, operations, keys =>
    .error (faultsOf name ++ faultsOf versionSchema ++ faultsOf operations ++ keys)

/-- The fault of a payload whose fields are all right by themselves. -/
def contentFault? (p : Payload) : Option Fault :=
  match unclearOperation? p.operations with
  | some index => some (.operationKinds index)
  | none =>
    match p.versionSchema with
    | some label => if Text.allBlank label then some .blankLabel else none
    | none => none

/-- Reads a payload from a document. -/
def validate : Value → Except (List Detail) Payload
  | .map m =>
    match readFields m with
    | .error details => .error details
    | .ok p =>
      match contentFault? p with
      | some fault => .error [⟨[], fault⟩]
      | none => .ok p
  | _ => .error [⟨[], .notPayload⟩]

/-- The payload as the ledger stores it: without its name, and without a missing label. -/
def toLedger (p : Payload) : Mapping :=
  Mapping.ofFields ((p.versionSchema.elim [] fun label => [("version_schema", .text label)]) ++
    [("operations", .list (p.operations.map .map))])

end Payload

end SchemaLedger
