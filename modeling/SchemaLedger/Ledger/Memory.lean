import SchemaLedger.Ledger.Store

/-!
# A ledger in memory

The ledger for dry runs keeps its records in the order in which they were added. It checks the
invariants of the history itself, one by one, before it writes.
-/

namespace SchemaLedger

/-- A ledger kept in memory. -/
structure MemoryLedger where
  records : List Record := []
  deriving DecidableEq, Repr

namespace MemoryLedger

/-- The ledger without records. -/
def empty : MemoryLedger := {}

/-- The records of a schema. -/
def ofSchema (l : MemoryLedger) (schema : String) : List Record :=
  l.records.filter (·.schema = schema)

/-- The record of a schema and a name. -/
def find? (l : MemoryLedger) (schema name : String) : Option Record :=
  l.records.find? fun r => r.schema = schema && r.name = name

/-- Changes the record of a schema and a name. -/
def update (l : MemoryLedger) (schema name : String) (f : Record → Record) : MemoryLedger :=
  ⟨l.records.map fun r => if r.schema = schema ∧ r.name = name then f r else r⟩

/-- Adds a record unless it would break an invariant. -/
def insert (now : Moment) (record : Record) : Action MemoryLedger Record := fun l =>
  match violationFor l.records record with
  | some v => (.error (.ledger (violationError v record)), l)
  | none => (.ok (record.stamped now), ⟨l.records ++ [record.stamped now]⟩)

/-- The record of a schema and a name, or the error that there is none. -/
def get (l : MemoryLedger) (schema name : String) : Except Failure Record :=
  match l.find? schema name with
  | some r => .ok r
  | none => .error (.ledger (.notFound schema (some name)))

/-- Completes a migration. The record counts as done before the resulting schema is looked at, and
stays so if that is no mapping. -/
def markDone (now : Moment) (schema name : String) (resulting : Value) :
    Action MemoryLedger Record := fun l =>
  match l.get schema name with
  | .error e => (.error e, l)
  | .ok r =>
    if r.done then (.error (.ledger (.alreadyDone schema name)), l)
    else match resulting.asMapping with
      | .error why => (.error (.notMapping why), l.update schema name ({ · with done := true }))
      | .ok m =>
        let finish := fun r : Record =>
          { r with done := true, resultingSchema := .map m, updatedAt := some now }
        (.ok (finish r), l.update schema name finish)

/-- Removes a record that is nobody's parent. -/
def delete (schema name : String) : Action MemoryLedger Unit := fun l =>
  match l.get schema name with
  | .error e => (.error e, l)
  | .ok _ =>
    if (l.ofSchema schema).any (·.parent = some name) then
      (.error (.ledger (.integrity .danglingParent schema (some name) none)), l)
    else (.ok (), ⟨l.records.filter fun r => !(r.schema = schema && r.name = name)⟩)

/-- The migration in progress. -/
def active (l : MemoryLedger) (schema : String) : Option Record :=
  (l.ofSchema schema).find? (!·.done)

/-- The tip of the history. -/
def latest (l : MemoryLedger) (schema : String) : Except Failure (Option Record) :=
  findTip (l.ofSchema schema)

/-- The parent of the tip. -/
def previous (l : MemoryLedger) (schema : String) : Except Failure (Option Record) :=
  match l.latest schema with
  | .error e => .error e
  | .ok tip =>
    match tip.bind (·.parent) with
    | none => .ok none
    | some name => (l.get schema name).map some

/-- The history from the root to the tip. -/
def history (l : MemoryLedger) (schema : String) : Except Failure (List Record) :=
  (l.latest schema).map fun tip =>
    (walkParents (l.ofSchema schema) (tip.map (·.name))).reverse

/-- The schemas that have records, in order. -/
def schemas (l : MemoryLedger) : List String := Text.sortedDistinct (l.records.map (·.schema))

/-- Whether one record was created after another; a missing time has no order. -/
def createdLater (a b : Record) : Except Failure Bool :=
  match (a.createdAt.bind fun s => b.createdAt.bind s.compare?) with
  | some order => .ok (order == .gt)
  | none => .error .noOrder

/-- The latest record that was not inferred, the first of several of one time. -/
def latestNonInferred (l : MemoryLedger) (schema : String) : Except Failure (Option Record) :=
  greatest? createdLater ((l.ofSchema schema).filter (·.migrationType ≠ "inferred"))

/-- Whether a record is an inferred one of the schema with the given time of creation. -/
def isInferredAt (schema : String) (createdAt : Moment) (r : Record) : Bool :=
  r.schema = schema && r.migrationType = "inferred" &&
    (r.createdAt.map (·.same createdAt)).getD false

/-- Whether a record holds a statement. -/
def holdsStatement (statement : String) (r : Record) : Bool :=
  match r.statement with
  | .ok v => v = .text statement
  | .error _ => false

/-- Removes the inferred records with a given time of creation and statement. If the payload of a
record of that time cannot be read, nothing is removed. -/
def deleteInferredDuplicates (schema : String) (createdAt : Moment) (statement : String) :
    Action MemoryLedger Nat := fun l =>
  let unreadable := (l.records.filter (isInferredAt schema createdAt)).findSome? fun r =>
    match r.statement with
    | .ok _ => none
    | .error e => some e
  match unreadable with
  | some e => (.error e, l)
  | none =>
    let isDuplicate := fun r => isInferredAt schema createdAt r && holdsStatement statement r
    (.ok (l.records.countP isDuplicate), ⟨l.records.filter (!isDuplicate ·)⟩)

instance : LedgerStore MemoryLedger where
  insert := insert
  get schema name := .query (·.get schema name)
  markDone := markDone
  delete := delete
  active schema := .query fun l => .ok (l.active schema)
  latest schema := .query (·.latest schema)
  previous schema := .query (·.previous schema)
  history schema := .query (·.history schema)
  records schema := .query fun l => .ok (l.ofSchema schema)
  schemas := .query fun l => .ok l.schemas
  latestNonInferred schema := .query (·.latestNonInferred schema)
  deleteInferredDuplicates := deleteInferredDuplicates

end MemoryLedger

end SchemaLedger
