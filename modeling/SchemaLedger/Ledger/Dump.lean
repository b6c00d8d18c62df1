import SchemaLedger.Backfill.Statement
import SchemaLedger.Ledger.Database

/-!
# Dumps of a database

A dump is a document with the rows of the tables of the tool and with the namespaces that are
present. It stands in for the database where a command is tried out. What is missing in a dump has
its default, and a dump without a table of migrations is that of a database without tables.
-/

namespace SchemaLedger.Dump

/-- The field of a mapping. -/
def field? (v : Value) (name : String) : Option Value :=
  match v with
  | .map m => Mapping.field? m name
  | _ => none

/-- The text in a field. -/
def text? (v : Value) (name : String) : Option String :=
  match field? v name with
  | some (.text s) => some s
  | _ => none

/-- The text in a field, or the empty text. -/
def text (v : Value) (name : String) : String := (text? v name).getD ""

/-- Whether a field holds the truth value that is true. -/
def flag (v : Value) (name : String) : Bool := field? v name = some (.bool true)

/-- The time in a field. -/
def moment? (v : Value) (name : String) : Option Moment := (text? v name).bind Moment.read?

/-- The items of a list. -/
def itemsOf : Value → List Value
  | .list xs => xs
  | _ => []

/-- The items of the list in a field. -/
def items (v : Value) (name : String) : List Value := itemsOf ((field? v name).getD .null)

/-- The texts in the list in a field. -/
def texts (v : Value) (name : String) : List String :=
  (items v name).filterMap fun
    | .text s => some s
    | _ => none

/-- The entries of the mapping in a field. -/
def entries (v : Value) (name : String) : Mapping :=
  match field? v name with
  | some (.map m) => m
  | _ => []

/-- A record. -/
def record (v : Value) : Record :=
  { schema := text v "schema"
    name := text v "name"
    migration := entries v "migration"
    parent := text? v "parent"
    done := flag v "done"
    resultingSchema := (field? v "resulting_schema").getD (.map [])
    migrationType := (text? v "migration_type").getD "pgroll"
    createdAt := moment? v "created_at"
    updatedAt := moment? v "updated_at" }

/-- A recorded version of the tool, if it has its time. -/
def versionMark? (v : Value) : Option VersionMark :=
  (moment? v "initialized_at").map fun t => ⟨text v "version", t⟩

/-- The database of a dump. -/
def database (v : Value) : Database :=
  ⟨(field? v "migrations").map fun rows =>
    { migrations := (itemsOf rows).map record
      versions := (items v "versions").filterMap versionMark? }⟩

/-- The names of the namespaces that are present. -/
def namespaces (v : Value) : List String := texts v "namespaces"

/-- The pages of keys that the batches of a backfill touch. -/
def pages (v : Value) : List (List Backfill.Key) :=
  (items v "pages").map fun page => (itemsOf page).map itemsOf

end SchemaLedger.Dump
