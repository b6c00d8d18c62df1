import SchemaLedger.Ledger.Error
import SchemaLedger.Value.Display

/-!
# Migration records

One record stands for one step in the history of a schema. Its payload may name the label of the
version schema that the step leads to, and for a step that was inferred from a statement it holds
that statement.
-/

namespace SchemaLedger

/-- The types that a migration can have. -/
def migrationTypes : List String := ["pgroll", "inferred", "baseline"]

/-- One step in the history of a schema. -/
structure Record where
  schema : String
  name : String
  migration : Mapping := []
  parent : Option String := none
  done : Bool := false
  resultingSchema : Value := .map []
  migrationType : String := "pgroll"
  createdAt : Option Moment := none
  updatedAt : Option Moment := none
  deriving DecidableEq, Repr

namespace Record

/-- The label of the version schema behind a step: the one that its payload declares, else its
name. -/
def label (r : Record) : String :=
  match r.migration.field? "version_schema" with
  | none | some .null => r.name
  | some v => v.display

/-- The first operation of a payload, if `operations` is something that has a first part. -/
def firstOperation (operations : Value) : Except Failure Value :=
  match operations with
  | .map m => match Mapping.get? m (.int 0) with
    | some v => .ok v
    | none => .error .missingKey
  | v => match v.parts? with
    | some (x :: _) => .ok x
    | _ => .error .notList

/-- The field of a mapping, or null if the document is no mapping or has no such field. -/
def fieldOrNull (v : Value) (name : String) : Value :=
  match v with
  | .map m => (Mapping.field? m name).getD .null
  | _ => .null

/-- The statement of an inferred step, or null if the payload holds none. -/
def statement (r : Record) : Except Failure Value :=
  let operations := (r.migration.field? "operations").getD .null
  if operations.isSomething then
    (firstOperation operations).map fun op => fieldOrNull (fieldOrNull op "sql") "up"
  else .ok .null

/-- The record with the times that it does not have yet: a record was last updated when it was
created, and was created now. -/
def stamped (r : Record) (now : Moment) : Record :=
  { r with
    createdAt := some (r.createdAt.getD now)
    updatedAt := some (r.updatedAt.getD (r.createdAt.getD now)) }

end Record

/-- The payload of an inferred step. -/
def inferredPayload (statement label : String) : Mapping :=
  [(.text "version_schema", .text label),
    (.text "operations",
      .list [.map [(.text "sql", .map [(.text "up", .text statement)])]])]

/-- The name of the physical namespace behind a version label. -/
def namespaceName (schema label : String) : String := schema ++ "_" ++ label

end SchemaLedger
