import SchemaLedger.Ledger.Store
import SchemaLedger.Ledger.Table

/-!
# A ledger in a database

The ledger for real use asks and changes the table of migrations, and leaves the invariants to the
constraints of the table. When a write breaks one, the report of the database is translated to the
error of the ledger; the removal of inferred duplicates alone passes the report on as it is. All
operations fail when the tables were not installed.

Times are stored as instants and documents as JSON: a write answers with the times and documents
that it was given, a question with the same instants in UTC and with the documents as they are kept.
A document that cannot be written as JSON is refused before the statement is sent. What the columns
do not take for its length or range is not looked at here, nor is the null character, which no text
in a database has.
-/

namespace SchemaLedger

/-- A version of the tool, with the time at which it first installed the tables. -/
structure VersionMark where
  version : String
  initializedAt : Moment
  deriving DecidableEq, Repr

/-- The tables of the tool. -/
structure Tables where
  migrations : Table := []
  versions : List VersionMark := []
  deriving DecidableEq, Repr

/-- The database as far as the tool uses it; without tables before they were installed. -/
structure Database where
  tables : Option Tables := none
  deriving DecidableEq, Repr

namespace Database

/-- A database with tables but without migrations. -/
def installed : Database := ⟨some {}⟩

/-- The rows of the table of migrations; none if there is no table. -/
def rows (d : Database) : Table := (d.tables.map (·.migrations)).getD []

/-- The database with other rows. -/
def withRows (d : Database) (rows : Table) : Database :=
  ⟨d.tables.map ({ · with migrations := rows })⟩

/-- Asks the rows something. -/
def ask (f : Table → Except Failure α) : Action Database α :=
  .query fun d =>
    match d.tables with
    | none => .error .database
    | some t => f t.migrations

/-- The record of a row that was just written. -/
def written (row : Record) : Except Failure Record :=
  (readMapping row.resultingSchema).map fun v => { row with resultingSchema := v }

/-- A row as the database keeps it: times as instants, documents as JSON. -/
def stored (row : Record) : Record :=
  { row.asJson with
    createdAt := row.createdAt.map (·.toUtc)
    updatedAt := row.updatedAt.map (·.toUtc) }

/-- The record of a row that was read. -/
def read (row : Record) : Except Failure Record := written (stored row)

/-- The record of a row that may be missing. -/
def readOption : Option Record → Except Failure (Option Record)
  | none => .ok none
  | some row => (read row).map some

/-- The row of a key, or the error that there is none. -/
def findRow (schema name : String) : Action Database Record :=
  ask fun rows =>
    match Table.row? rows schema name with
    | some row => .ok row
    | none => .error (.ledger (.notFound schema (some name)))

/-- Changes the rows by a statement, given what to fail with if it breaks a constraint. -/
def change (refused : Constraint → Failure) (statement : Table → Except Constraint Table) :
    Action Database Unit := do
  let kept ← ask fun rows =>
    match statement rows with
    | .ok kept => .ok kept
    | .error c => .error (refused c)
  Attempt.modify (·.withRows kept)

/-- Goes on only if the documents of a statement can be written into it. -/
def requireStorable (storable : Bool) : Action Database Unit :=
  .lift (if storable then .ok () else .error .database)

/-- The error of the ledger for a broken constraint. -/
def translated (schema name : String) (c : Constraint) : Failure :=
  .ledger (.ofConstraint (some c.name) c.report schema (some name))

/-- Adds a record. -/
def insert (now : Moment) (record : Record) : Action Database Record := do
  let row := record.stamped now
  requireStorable row.storable
  change (translated record.schema record.name) (Table.insertRow · row)
  .lift (written row)

/-- The record of a name. -/
def get (schema name : String) : Action Database Record := do
  .lift (read (← findRow schema name))

/-- Completes a migration. -/
def markDone (now : Moment) (schema name : String) (resulting : Value) :
    Action Database Record := do
  let row ← findRow schema name
  if row.done then .fail (.ledger (.alreadyDone schema name))
  else do
    let finish := fun r : Record =>
      { r with done := true, resultingSchema := resulting, updatedAt := some now }
    requireStorable (Json.storable resulting)
    change (translated schema name) fun rows => .ok (Table.updateRow rows schema name finish)
    -- what is not written was read from the row before
    .lift (written (finish (stored row)))

/-- Removes a record. -/
def delete (schema name : String) : Action Database Unit := do
  let _ ← findRow schema name
  change (translated schema name)
    (Table.deleteRows · fun r => r.schema = schema && r.name = name)

/-- The migration in progress. -/
def active (schema : String) : Action Database (Option Record) :=
  ask fun rows => readOption ((Table.ofSchema rows schema).find? (!·.done))

/-- The tip of the history: the newest row without a child. -/
def latest (schema : String) : Action Database (Option Record) :=
  ask fun rows => readOption (Table.newest? (Table.childless (Table.ofSchema rows schema)))

/-- The parent of the tip. -/
def previous (schema : String) : Action Database (Option Record) := do
  match (← latest schema).bind (·.parent) with
  | none => return none
  | some name => return some (← get schema name)

/-- All records of a schema by time of creation, then by name. -/
def records (schema : String) : Action Database (List Record) :=
  ask fun rows => ((Table.ofSchema rows schema).mergeSort Table.createdBefore).mapM read

/-- The history from the root to the tip. -/
def history (schema : String) : Action Database (List Record) := do
  match ← latest schema with
  | none => return []
  | some tip => return (walkParents (byName (← records schema)) (some tip.name)).reverse

/-- The schemas that have records, in order. -/
def schemas : Action Database (List String) :=
  ask fun rows => .ok (Text.sortedDistinct (rows.map (·.schema)))

/-- The newest record that was not inferred. -/
def latestNonInferred (schema : String) : Action Database (Option Record) :=
  ask fun rows =>
    readOption (Table.newest? ((Table.ofSchema rows schema).filter (·.migrationType ≠ "inferred")))

/-- Whether a row is an inferred duplicate of a statement at a time. -/
def isDuplicate (schema : String) (createdAt : Moment) (statement : String) (r : Record) : Bool :=
  r.schema = schema && r.migrationType = "inferred" &&
    Table.createdInstant r = createdAt.instant && Table.statementText? r = some statement

/-- Removes the inferred records with a given time of creation and statement. -/
def deleteInferredDuplicates (schema : String) (createdAt : Moment) (statement : String) :
    Action Database Nat := do
  let doomed := isDuplicate schema createdAt statement
  -- the rows are counted before they are gone
  let count ← ask fun rows => .ok (rows.countP doomed)
  change .constraint (Table.deleteRows · doomed)
  return count

instance : LedgerStore Database where
  insert := insert
  get := get
  markDone := markDone
  delete := delete
  active := active
  latest := latest
  previous := previous
  history := history
  records := records
  schemas := schemas
  latestNonInferred := latestNonInferred
  deleteInferredDuplicates := deleteInferredDuplicates

end Database

end SchemaLedger
