import SchemaLedger.Sql.Quote
import SchemaLedger.SyncTrigger.Basic

/-!
# The statements of a backfill

A backfill marks the rows of a table in a column of its own and then touches them batch by batch,
in the order of the primary key. Every batch after the first starts behind the key with which the
batch before it ended, which is passed in parameters.
-/

namespace SchemaLedger.Backfill

open Sql (quoteIdent quoteTable)

/-- The table to fill, with the columns of its primary key. -/
structure Target where
  schema : String
  table : String
  primaryKey : List String
  deriving DecidableEq, Repr

/-- Values of the columns of the primary key. -/
abbrev Key := List Value

namespace Target

/-- The table as it stands in a statement. -/
def quoted (t : Target) : String := quoteTable t.schema t.table

/-- The statement that adds the column for the marks. -/
def addColumn (t : Target) (column : String) : String :=
  s!"ALTER TABLE {t.quoted} ADD COLUMN IF NOT EXISTS {quoteIdent column} boolean DEFAULT true"

/-- The statement that drops it. -/
def dropColumn (t : Target) (column : String) : String :=
  s!"ALTER TABLE {t.quoted} DROP COLUMN IF EXISTS {quoteIdent column}"

/-- One text for each column of the key, with a separator between them. -/
def overKey (t : Target) (separator : String) (f : String → String) : String :=
  separator.intercalate (t.primaryKey.map f)

/-- The name of the parameter for a column of the key. -/
def keyParameter (i : Nat) : String := "pk_" ++ toString i

/-- The condition that a row comes after the parameters. -/
def behindParameters (t : Target) : String :=
  let parameters := (List.range t.primaryKey.length).map fun i => ":" ++ keyParameter i
  " AND (" ++ t.overKey ", " quoteIdent ++ ") > (" ++ ", ".intercalate parameters ++ ")"

/-- The statement that touches the next batch, for a table with a primary key. -/
def batchText (t : Target) (column : String) (firstBatch : Bool) : String :=
  let keys := t.overKey ", " quoteIdent
  let flag := quoteIdent column
  let behind := if firstBatch then "" else t.behindParameters
  let joined := t.overKey " AND " fun c => s!"t.{quoteIdent c} = batch.{quoteIdent c}"
  let returned := t.overKey ", " fun c => s!"t.{quoteIdent c}"
  s!"WITH batch AS (SELECT {keys} FROM {t.quoted} WHERE {flag}{behind} " ++
    s!"ORDER BY {keys} LIMIT :batch_size FOR NO KEY UPDATE), " ++
    s!"updated AS (UPDATE {t.quoted} AS t SET {flag} = true FROM batch WHERE {joined} " ++
    s!"RETURNING {returned}) " ++
    s!"SELECT {keys} FROM updated ORDER BY {keys}"

/-- The statement that touches the next batch; a table without a primary key has none. -/
def batch? (t : Target) (column : String) (firstBatch : Bool) : Option String :=
  if t.primaryKey.isEmpty then none else some (t.batchText column firstBatch)

/-- The sentence about a table without a primary key. -/
def noPrimaryKey (t : Target) : String := s!"table {t.schema}.{t.table} has no primary key"

end Target

/-- The parameters of a batch: its size, and the key that it starts behind. -/
structure Parameters where
  batchSize : Nat
  after : Option Key
  deriving DecidableEq, Repr

/-- The parameters by name. -/
def Parameters.fields (p : Parameters) : List (String × Value) :=
  ("batch_size", .int p.batchSize) ::
    (p.after.getD []).zipIdx.map fun (v, i) => (Target.keyParameter i, v)

end SchemaLedger.Backfill
