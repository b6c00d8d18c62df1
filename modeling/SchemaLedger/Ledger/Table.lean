import SchemaLedger.Json.Printer
import SchemaLedger.Json.Stored
import SchemaLedger.Ledger.History

/-!
# The table of migrations

The rows of the table, in the order in which they were written, and the constraints that the
database enforces on them. A row stands here with what was written into it. Its documents are kept
as JSON, so what is asked about them is asked about their JSON form (`Record.asJson`).

A statement that breaks a constraint fails and changes nothing; if it breaks several, the first one
in the order of `Constraint.all` is reported. Uniqueness ignores missing parents, and a reference to
a parent is checked at the end of the statement, so a row may be its own parent.

The main statement: a row is refused exactly if it breaks some constraint (`broken?_eq_none`).
-/

namespace SchemaLedger

/-- The rows of the table, in the order in which they were written. -/
abbrev Table := List Record

/-- A row with its documents as the database keeps them. -/
def Record.asJson (r : Record) : Record :=
  { r with
    migration := Json.keptMapping r.migration
    resultingSchema := Json.kept r.resultingSchema }

/-- Whether the documents of a row can be stored. -/
def Record.storable (r : Record) : Bool :=
  Json.storable (.map r.migration) && Json.storable r.resultingSchema

namespace Constraint

/-- Whether adding `row` to `rows` breaks a constraint. -/
def brokenBy (rows : Table) (row : Record) : Constraint → Bool
  | migrationTypeCheck => !migrationTypes.contains row.migrationType
  | migrationsKey => rows.any fun r => r.schema = row.schema && r.name = row.name
  | onlyOneActive => !row.done && rows.any fun r => r.schema = row.schema && !r.done
  | onlyFirstWithoutParent =>
    row.parent.isNone && rows.any fun r => r.schema = row.schema && r.parent.isNone
  | historyIsLinear =>
    row.parent.isSome && rows.any fun r => r.schema = row.schema && r.parent = row.parent
  | parentReference =>
    match row.parent with
    | none => false
    | some p => !(row :: rows).any fun r => r.schema = row.schema && r.name = p

end Constraint

namespace Table

/-- The first constraint that adding `row` would break. -/
def broken? (rows : Table) (row : Record) : Option Constraint :=
  Constraint.all.find? (Constraint.brokenBy rows row)

theorem broken?_eq_none {rows : Table} {row : Record} :
    broken? rows row = none ↔ ∀ c : Constraint, c.brokenBy rows row = false := by
  constructor
  · intro h c
    have hc : c ∈ Constraint.all := by cases c <;> decide
    simpa using List.find?_eq_none.1 h c hc
  · intro h
    exact List.find?_eq_none.2 fun c _ => by simp [h c]

/-- Adds a row. -/
def insertRow (rows : Table) (row : Record) : Except Constraint Table :=
  match broken? rows row with
  | some c => .error c
  | none => .ok (rows ++ [row])

/-- Removes the rows that satisfy `p`, unless a row that stays has one of them as its parent. -/
def deleteRows (rows : Table) (p : Record → Bool) : Except Constraint Table :=
  let gone := rows.filter p
  let kept := rows.filter (!p ·)
  if kept.any fun r => gone.any fun g => g.schema = r.schema && some g.name = r.parent then
    .error .parentReference
  else .ok kept

/-- The row of a key. -/
def row? (rows : Table) (schema name : String) : Option Record :=
  rows.find? fun r => r.schema = schema && r.name = name

/-- Replaces the row of a key. -/
def updateRow (rows : Table) (schema name : String) (f : Record → Record) : Table :=
  rows.map fun r => if r.schema = schema ∧ r.name = name then f r else r

/-- The rows of a schema. -/
def ofSchema (rows : Table) (schema : String) : Table := rows.filter (·.schema = schema)

/-- The time at which a row was created, as an instant. -/
def createdInstant (r : Record) : Int := (r.createdAt.map (·.instant)).getD 0

/-- The row created last, the first of several. -/
def newest? : Table → Option Record
  | [] => none
  | r :: rest =>
    some (rest.foldl (fun best s => if createdInstant best < createdInstant s then s else best) r)

/-- The order of rows by time of creation, then by name. -/
def createdBefore (a b : Record) : Bool :=
  createdInstant a < createdInstant b ||
    (createdInstant a = createdInstant b && decide (a.name ≤ b.name))

/-- The rows without a child. -/
def childless (rows : Table) : Table := rows.filter fun r => !hasChild rows r

/-- One step into a stored document: a field of a mapping, or an item of a list by its number. -/
def descend (v : Value) (key : String) : Value :=
  match v with
  | .list xs => (key.toNat?.bind (xs[·]?)).getD .null
  | .map m => (Mapping.field? m key).getD .null
  | .scalar _ => .null

/-- The statement of a row as the database sees it: what `operations`, `0`, `sql`, `up` leads to in
the payload, as text. -/
def statementText? (r : Record) : Option String :=
  Json.textOf? (["operations", "0", "sql", "up"].foldl descend (.map r.asJson.migration))

end Table

end SchemaLedger
