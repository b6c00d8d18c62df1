import SchemaLedger.Ledger.Error
import SchemaLedger.Text.Sorted

/-!
# The schema of a statement

A schema-altering statement from outside the tool is reported with the objects that it touched.
This module decides which schema its step belongs to.
-/

namespace SchemaLedger

/-- When the database reports a statement. -/
inductive Phase where
  /-- After a command. -/
  | commandEnd
  /-- When objects were dropped. -/
  | drop
  /-- At another time. -/
  | other
  deriving DecidableEq, Repr

/-- The phase that the database calls by a name. -/
def Phase.ofName (s : String) : Phase :=
  if s = "ddl_command_end" then .commandEnd else if s = "sql_drop" then .drop else .other

/-- An object that a statement touched. -/
structure DdlObject where
  objectType : String
  schemaName : Option String
  identity : String
  deriving DecidableEq, Repr

/-- A completed statement. The statements that were sent together share their time. -/
structure DdlEvent where
  phase : Phase
  tag : String
  statement : String
  timestamp : Moment
  objects : List DdlObject
  deriving DecidableEq, Repr

namespace DdlEvent

/-- The names of the schemas of the objects, each once and in order. -/
def schemaNames (e : DdlEvent) : List String :=
  Text.sortedDistinct (e.objects.filterMap (·.schemaName))

/-- The schema that a statement belongs to, if it can be told. What drops a table's parts is left to
the report after the command. A command that touches several schemas belongs to none of them. -/
def schema (e : DdlEvent) : Except LedgerError (Option String) :=
  match e.phase with
  | .drop =>
    if e.tag = "DROP SCHEMA" then
      .ok ((e.objects.find? (·.objectType = "schema")).map (·.identity))
    else if e.tag = "ALTER TABLE" then .ok none
    else .ok (e.objects.findSome? (·.schemaName))
  | .commandEnd =>
    -- this comes before the tag, so it holds for new schemas too
    if 1 < e.schemaNames.length then .error (.ambiguousSchema e.schemaNames)
    else if e.tag = "CREATE SCHEMA" then .ok (e.objects.head?.map (·.identity))
    else .ok e.schemaNames.head?
  | .other => .ok none

end DdlEvent

end SchemaLedger
