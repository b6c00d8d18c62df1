import SchemaLedger.Ledger.Store
import SchemaLedger.Payload

/-!
# The life of a migration

The tool starts a migration, and completes it or rolls it back; it can also record the present
schema as a baseline. Each of these reads the ledger first and writes afterwards. The two halves
are functions of their own where another client may act between them.
-/

namespace SchemaLedger.Lifecycle

open LedgerStore (latest insert get markDone delete)

variable {σ : Type} [LedgerStore σ]

/-- The second half of a start: records a migration in progress under a parent that was read
before. -/
def startUnder (now : Moment) (schema name : String) (p : Payload) (parent : Option String) :
    Action σ Record :=
  insert now
    { schema
      name
      migration := p.toLedger
      parent
      createdAt := some now
      updatedAt := some now }

/-- Records a migration in progress at the tip of the history. -/
def start (now : Moment) (schema name : String) (p : Payload) : Action σ Record := do
  let tip ← latest schema
  startUnder now schema name p (tip.map (·.name))

/-- Completes a migration with a snapshot of its schema. -/
def complete (now : Moment) (snapshot : String → Except Failure Value) (schema name : String) :
    Action σ Record := do
  markDone now schema name (← .lift (snapshot schema))

/-- The first half of a rollback: makes sure that the migration was not completed. -/
def checkOpen (schema name : String) : Action σ Unit := do
  let r ← get schema name
  if r.done then .fail (.ledger (.alreadyDone schema name))

/-- Removes a migration in progress. -/
def rollback (schema name : String) : Action σ Unit := do
  checkOpen schema name
  delete schema name

/-- Records the present schema as a completed step. -/
def createBaseline (now : Moment) (snapshot : String → Except Failure Value)
    (schema name : String) : Action σ Record := do
  let tip ← latest schema
  let present ← .lift (snapshot schema)
  insert now
    { schema
      name
      migration := Mapping.ofFields [("operations", .list [])]
      parent := tip.map (·.name)
      done := true
      resultingSchema := present
      migrationType := "baseline"
      createdAt := some now
      updatedAt := some now }

/-- One of these operations with its arguments. -/
inductive Operation where
  | start (schema name : String) (p : Payload)
  | complete (schema name : String)
  | rollback (schema name : String)
  | createBaseline (schema name : String)
  deriving DecidableEq, Repr

/-- Runs an operation; the answer is the record that it wrote, if any. -/
def Operation.run (now : Moment) (snapshot : String → Except Failure Value) :
    Operation → Action σ (Option Record)
  | .start schema name p => return some (← Lifecycle.start now schema name p)
  | .complete schema name => return some (← Lifecycle.complete now snapshot schema name)
  | .rollback schema name => do
    Lifecycle.rollback schema name
    return none
  | .createBaseline schema name =>
    return some (← Lifecycle.createBaseline now snapshot schema name)

end SchemaLedger.Lifecycle
