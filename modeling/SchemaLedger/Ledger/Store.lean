import SchemaLedger.Action
import SchemaLedger.Ledger.History

/-!
# The operations of a ledger

A ledger can live in memory or in a table of a database. Both offer the operations of the class
below. A `Call` is one operation with its arguments, so that a sequence of operations is a list of
calls that can be run on either ledger.
-/

namespace SchemaLedger

/-- The operations on a ledger kept in a state of type `σ`. Writing operations are told the time. -/
class LedgerStore (σ : Type) where
  /-- Adds a record, with the times it lacks. -/
  insert : (now : Moment) → Record → Action σ Record
  /-- The record of a name. -/
  get : (schema name : String) → Action σ Record
  /-- Completes a migration with the schema that it led to. -/
  markDone : (now : Moment) → (schema name : String) → Value → Action σ Record
  /-- Removes a record. -/
  delete : (schema name : String) → Action σ Unit
  /-- The migration in progress. -/
  active : (schema : String) → Action σ (Option Record)
  /-- The tip of the history. -/
  latest : (schema : String) → Action σ (Option Record)
  /-- The parent of the tip. -/
  previous : (schema : String) → Action σ (Option Record)
  /-- The history from the root to the tip. -/
  history : (schema : String) → Action σ (List Record)
  /-- All records of a schema. -/
  records : (schema : String) → Action σ (List Record)
  /-- The schemas that have records, in order. -/
  schemas : Action σ (List String)
  /-- The latest record that was not inferred. -/
  latestNonInferred : (schema : String) → Action σ (Option Record)
  /-- Removes the inferred records with a given time of creation and statement; tells how many. -/
  deleteInferredDuplicates : (schema : String) → (createdAt : Moment) → (statement : String) →
    Action σ Nat

namespace LedgerStore

variable {σ : Type} [LedgerStore σ]

/-- Whether a migration is in progress. -/
def isActive (schema : String) : Action σ Bool := do
  return (← active schema).isSome

/-- The version labels of a schema, in order. -/
def versionLabels (schema : String) : Action σ (List String) := do
  return Text.sortedDistinct ((← records schema).map (·.label))

/-- The problems of a schema's records. -/
def problems (schema : String) : Action σ (List Problem) := do
  return checkHistory (← records schema)

/-- Adds a record as the child of the present tip. -/
def insertAtTip (now : Moment) (record : Record) : Action σ Record := do
  let tip ← latest record.schema
  insert now { record with parent := tip.map (·.name) }

end LedgerStore

/-- One operation of a ledger with its arguments. -/
inductive Call where
  | insert (record : Record)
  | insertAtTip (record : Record)
  | get (schema name : String)
  | markDone (schema name : String) (resulting : Value)
  | delete (schema name : String)
  | isActive (schema : String)
  | active (schema : String)
  | latest (schema : String)
  | previous (schema : String)
  | history (schema : String)
  | records (schema : String)
  | schemas
  | latestNonInferred (schema : String)
  | deleteInferredDuplicates (schema : String) (createdAt : Moment) (statement : String)
  | versionLabels (schema : String)
  | checkHistory (schema : String)
  deriving DecidableEq, Repr

/-- The answer to a call. -/
inductive Answer where
  | done
  | record (r : Record)
  | record? (r : Option Record)
  | records (rs : List Record)
  | names (ns : List String)
  | flag (b : Bool)
  | count (n : Nat)
  | problems (ps : List Problem)
  deriving DecidableEq, Repr

open LedgerStore in
/-- Runs a call. The answer to a question for the history is its names. -/
def Call.run {σ : Type} [LedgerStore σ] (now : Moment) : Call → Action σ Answer
  | insert r => return .record (← LedgerStore.insert now r)
  | insertAtTip r => return .record (← LedgerStore.insertAtTip now r)
  | get schema name => return .record (← LedgerStore.get schema name)
  | markDone schema name v => return .record (← LedgerStore.markDone now schema name v)
  | delete schema name => do LedgerStore.delete schema name; return .done
  | isActive schema => return .flag (← LedgerStore.isActive schema)
  | active schema => return .record? (← LedgerStore.active schema)
  | latest schema => return .record? (← LedgerStore.latest schema)
  | previous schema => return .record? (← LedgerStore.previous schema)
  | history schema => return .records (← LedgerStore.history schema)
  | records schema => return .records (← LedgerStore.records schema)
  | schemas => return .names (← LedgerStore.schemas)
  | latestNonInferred schema => return .record? (← LedgerStore.latestNonInferred schema)
  | deleteInferredDuplicates schema t s =>
    return .count (← LedgerStore.deleteInferredDuplicates schema t s)
  | versionLabels schema => return .names (← LedgerStore.versionLabels schema)
  | checkHistory schema => return .problems (← LedgerStore.problems schema)

end SchemaLedger
