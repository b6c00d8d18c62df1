import SchemaLedger.Ledger.Database
import SchemaLedger.Ledger.Memory
import SchemaLedger.Lifecycle

/-!
# Clients that share a ledger

Several clients work on one ledger at the same time. To start a migration, a client reads the tip
and then records the migration under it; to roll one back, it makes sure that the migration is not
done and then deletes it. Between the two halves other clients may do anything, so a client acts on
what it found, and not on what is there. Each half, and each completion, is one transaction.

A `Move` is one such half of some client. Nothing is assumed about the order in which clients move:
a list of moves is one way in which the operations of the clients interleave. A client may even come
back to what it found and try again.
-/

namespace SchemaLedger

/-- A ledger that clients share: what it holds, and its operations as transactions. -/
class SharedLedger (σ : Type) extends LedgerStore σ where
  /-- The records, in the order in which they were added. -/
  contents : σ → List Record
  /-- Whether the ledger can record a payload at all. -/
  accepts : Mapping → Bool
  /-- The operation as one transaction. -/
  transaction {α : Type} : Action σ α → Action σ α

/-- The ledger in memory has no transactions: what an operation did before it failed stays done. -/
instance : SharedLedger MemoryLedger where
  contents l := l.records
  accepts _ := true
  transaction x := x

instance : SharedLedger Database where
  contents := Database.rows
  accepts m := Json.storable (.map m)
  transaction := Attempt.atomically

/-- What a client found in the first half of an operation. -/
inductive Finding where
  | nothing
  /-- The tip of the schema has this name; without a name there was no tip. -/
  | tip (schema : String) (name : Option String)
  /-- The migration is there and not done. -/
  | inProgress (schema name : String)
  deriving DecidableEq, Repr

/-- A ledger together with what each of its clients found last. -/
structure Shared (σ : Type) where
  ledger : σ
  found : Nat → Finding := fun _ => .nothing

/-- What a client wants to start. -/
structure Start where
  client : Nat
  now : Moment
  name : String
  payload : Payload
  deriving DecidableEq, Repr

/-- Records the migration of a start under a tip that was read before. -/
def Start.under {σ : Type} [LedgerStore σ] (s : Start) (schema : String)
    (parent : Option String) : Action σ Record :=
  Lifecycle.startUnder s.now schema s.name s.payload parent

/-- One move of a client. -/
inductive Move where
  /-- The first half of a start: reads the tip. -/
  | look (client : Nat) (schema : String)
  /-- The second half of a start: records the migration under the tip that was read. -/
  | join (s : Start)
  /-- Completes a migration. -/
  | complete (now : Moment) (snapshot : String → Except Failure Value) (schema name : String)
  /-- The first half of a rollback: makes sure that the migration is not done. -/
  | check (client : Nat) (schema name : String)
  /-- The second half of a rollback: deletes the migration that was not done. -/
  | remove (client : Nat)

namespace Shared

variable {σ : Type}

/-- The same ledger after a client found something. -/
def finding (w : Shared σ) (client : Nat) (f : Finding) : Shared σ :=
  { w with found := fun k => if k = client then f else w.found k }

/-- Notes what a client found. -/
def remember (client : Nat) (f : Finding) : Action (Shared σ) Unit := .modify (·.finding client f)

/-- What a client found. -/
def lastFound (client : Nat) : Action (Shared σ) Finding := .query fun w => .ok (w.found client)

/-- An operation on the ledger, as one transaction. -/
def onLedger [SharedLedger σ] (x : Action σ α) : Action (Shared σ) α :=
  (SharedLedger.transaction x).within (·.ledger) ({ · with ledger := · })

/-- The first half of an operation: the client forgets what it found before, asks the ledger, and
remembers what follows from the answer. -/
def learn [SharedLedger σ] (client : Nat) (x : Action σ α) (f : α → Finding) :
    Action (Shared σ) Unit := do
  remember client .nothing
  let a ← onLedger x
  remember client (f a)

end Shared

open Shared (lastFound onLedger learn)

/-- What a move does. The answer is the record that a start has added, if it was one. A client that
has not found what the second half of an operation needs does nothing. -/
def Move.act {σ : Type} [SharedLedger σ] : Move → Action (Shared σ) (Option Record)
  | look client schema => do
    learn client (LedgerStore.latest schema) fun tip => .tip schema (tip.map (·.name))
    return none
  | join s => do
    match ← lastFound s.client with
    | .tip schema parent => return some (← onLedger (s.under schema parent))
    | _ => .fail .invalidRequest
  | complete now snapshot schema name => do
    let _ ← onLedger (Lifecycle.complete now snapshot schema name)
    return none
  | check client schema name => do
    learn client (Lifecycle.checkOpen schema name) fun _ => .inProgress schema name
    return none
  | remove client => do
    match ← lastFound client with
    | .inProgress schema name =>
      onLedger (LedgerStore.delete schema name)
      return none
    | _ => .fail .invalidRequest

end SchemaLedger
