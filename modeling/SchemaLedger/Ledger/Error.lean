import SchemaLedger.Value.Basic

/-!
# What can go wrong with a ledger

A ledger refuses a write for one of a few reasons, each the violation of an invariant of the
history. A database reports the same reasons as constraints that a statement broke, and this module
says which constraint guards which invariant.

Everything else that can stop an operation is a `Failure` as well: a database that is not there, a
snapshot that cannot be read, times without an order, documents of the wrong shape.
-/

namespace SchemaLedger

/-- The invariant that a write would break. -/
inductive Violation where
  /-- A schema has at most one migration in progress. -/
  | activeMigration
  /-- A schema has one initial migration. -/
  | duplicateRoot
  /-- No two migrations have the same parent. -/
  | nonLinearHistory
  /-- A parent is a migration of the same schema. -/
  | danglingParent
  /-- The names of a schema's migrations differ. -/
  | duplicateName
  /-- A migration is of a known type. -/
  | invalidType
  /-- Some constraint that guards no known invariant. -/
  | unknown
  /-- A code from elsewhere. -/
  | other (code : String)
  deriving DecidableEq, Repr

namespace Violation

/-- The code by which a violation is known. -/
def code : Violation → String
  | activeMigration => "active_migration"
  | duplicateRoot => "duplicate_root"
  | nonLinearHistory => "non_linear_history"
  | danglingParent => "dangling_parent"
  | duplicateName => "duplicate_name"
  | invalidType => "invalid_type"
  | unknown => "unknown"
  | other c => c

/-- The violations with a code of their own. -/
def known : List Violation :=
  [activeMigration, duplicateRoot, nonLinearHistory, danglingParent, duplicateName, invalidType,
    unknown]

/-- The violation with a given code. -/
def ofCode (c : String) : Violation := (known.find? (·.code = c)).getD (.other c)

theorem code_ofCode (c : String) : (ofCode c).code = c := by
  unfold ofCode
  cases h : known.find? (·.code = c) with
  | none => rfl
  | some v => simpa using List.find?_some h

/-- The sentence for a violation by the migration `name` of `schema`. -/
def describe (v : Violation) (schema : String) (name : Option String) : String :=
  let shown := name.getD "None"
  match v with
  | activeMigration => s!"a migration is already in progress for schema \"{schema}\""
  | duplicateRoot => s!"schema \"{schema}\" already has an initial migration"
  | nonLinearHistory => s!"migration \"{shown}\" would fork the history of schema \"{schema}\""
  | danglingParent => s!"parent of migration \"{shown}\" does not exist in schema \"{schema}\""
  | duplicateName => s!"migration \"{shown}\" already exists in schema \"{schema}\""
  | invalidType => s!"migration \"{shown}\" has an invalid migration type"
  | unknown | other _ =>
    s!"migration \"{shown}\" violates a ledger constraint for schema \"{schema}\""

end Violation

/-- The constraints on the table of migrations. -/
inductive Constraint where
  | migrationTypeCheck
  | migrationsKey
  | onlyOneActive
  | onlyFirstWithoutParent
  | historyIsLinear
  | parentReference
  deriving DecidableEq, Repr

namespace Constraint

/-- The name under which the database reports a constraint. -/
def name : Constraint → String
  | migrationTypeCheck => "migration_type_check"
  | migrationsKey => "migrations_pkey"
  | onlyOneActive => "only_one_active"
  | onlyFirstWithoutParent => "only_first_migration_without_parent"
  | historyIsLinear => "history_is_linear"
  | parentReference => "migrations_parent_fkey"

/-- The invariant that a constraint guards. -/
def guards : Constraint → Violation
  | migrationTypeCheck => .invalidType
  | migrationsKey => .duplicateName
  | onlyOneActive => .activeMigration
  | onlyFirstWithoutParent => .duplicateRoot
  | historyIsLinear => .nonLinearHistory
  | parentReference => .danglingParent

/-- All constraints, in the order in which the database checks them. -/
def all : List Constraint :=
  [migrationTypeCheck, migrationsKey, onlyOneActive, onlyFirstWithoutParent, historyIsLinear,
    parentReference]

/-- The constraint of a name. -/
def ofName? (s : String) : Option Constraint := all.find? (·.name = s)

theorem ofName?_name (c : Constraint) : ofName? c.name = some c := by
  cases c <;> decide

/-- What the database says when a statement breaks a constraint. -/
def report (c : Constraint) : String := s!"statement violates constraint \"{c.name}\""

end Constraint

/-- An error of the ledger. -/
inductive LedgerError where
  /-- A write broke an invariant; `detail` is what the database said, if it was asked. -/
  | integrity (violation : Violation) (schema : String) (name : Option String)
      (detail : Option String)
  /-- The schema has no such migration, or none at all. -/
  | notFound (schema : String) (name : Option String)
  /-- The migration was completed before. -/
  | alreadyDone (schema name : String)
  /-- A statement touched several schemas. -/
  | ambiguousSchema (schemas : List String)
  deriving DecidableEq, Repr

namespace LedgerError

/-- The sentence for an error. What the database said is added only if it is all there is to say. -/
def message : LedgerError → String
  | integrity v schema name detail =>
    match v, detail with
    | .unknown, some d =>
      if d = "" then v.describe schema name else v.describe schema name ++ ": " ++ d
    | _, _ => v.describe schema name
  | notFound schema none => s!"no migrations found for schema \"{schema}\""
  | notFound schema (some name) => s!"migration \"{name}\" not found in schema \"{schema}\""
  | alreadyDone schema name => s!"migration \"{name}\" in schema \"{schema}\" is already done"
  | ambiguousSchema schemas =>
    "statement touches more than one schema: " ++ ", ".intercalate schemas

/-- The error for a statement that broke the named constraint, with what the database said. -/
def ofConstraint (constraint : Option String) (said : String) (schema : String)
    (name : Option String) : LedgerError :=
  .integrity (((constraint.bind Constraint.ofName?).map Constraint.guards).getD .unknown) schema
    name (some (Text.trim said))

end LedgerError

/-- Whatever stops an operation. -/
inductive Failure where
  /-- The ledger refused. -/
  | ledger (e : LedgerError)
  /-- The database refused a statement because of a constraint. -/
  | constraint (c : Constraint)
  /-- The database refused a statement for another reason, or a value did not go into it. -/
  | database
  /-- A schema snapshot could not be read. -/
  | reader (said : String)
  /-- The supply of version labels ran out. -/
  | noLabelLeft
  /-- Two times have no order, since only one of them has an offset. -/
  | noOrder
  /-- A mapping lacks a key. -/
  | missingKey
  /-- A value that is no list was taken for one. -/
  | notList
  /-- A value cannot be read as a mapping. -/
  | notMapping (why : Value.NotMapping)
  /-- A negative number of steps back was asked for. -/
  | negativeDepth
  /-- The session was used in a way that it does not allow, without the database being asked. -/
  | invalidRequest
  /-- The user interrupted the program. -/
  | interrupted
  /-- Any other error. -/
  | unexpected
  deriving DecidableEq, Repr

/-- Whether it was the database that refused. -/
def Failure.fromDatabase : Failure → Bool
  | .constraint _ | .database => true
  | _ => false

/-- The sentence for a failure that tells more than its kind. -/
def Failure.message? : Failure → Option String
  | .ledger e => some e.message
  | .reader said => some said
  | .noLabelLeft => some "no label left"
  | .negativeDepth => some "depth must be >= 0"
  | _ => none

/-- A stored document as the mapping that it should be; what counts as nothing is an empty one. -/
def readMapping (v : Value) : Except Failure Value :=
  match v.orEmpty.asMapping with
  | .ok m => .ok (.map m)
  | .error why => .error (.notMapping why)

end SchemaLedger
