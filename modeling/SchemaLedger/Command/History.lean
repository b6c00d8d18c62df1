import SchemaLedger.Command.Report
import SchemaLedger.Environment
import SchemaLedger.Installation
import SchemaLedger.Version

/-!
# Commands that show and check histories

The one command shows the end of the history of a schema with what is active and present; the other
one tells for each schema what is wrong with its records, if anything is. Neither changes the
database.
-/

namespace SchemaLedger.Command

/-- The end of a list: the last so many elements. A limit of zero stands for all of them, and a
negative one for all but so many at the start. -/
def lastOf (limit : Int) (xs : List α) : List α :=
  if 0 < limit then xs.drop (xs.length - limit.toNat) else xs.drop limit.natAbs

/-- The line about a step. -/
def recordLine (r : Record) : String :=
  let status := if r.done then "done" else "active"
  s!"[migration] name={r.name} type={r.migrationType} status={status} " ++
    s!"version_schema={r.label} parent={shown r.parent}"

/-- The command that shows a history. -/
def statusSynopsis : Synopsis :=
  { name := "ledger-status.py"
    about := "Show the migration history of a schema"
    options := [{ name := "--schema", kind := .text }, { name := "--limit", kind := .integer }] }

/-- The lines about a schema: the end of its history, how long it is and what is active, and the
version schemas that are present. -/
def statusLines (schema : String) (limit : Int) (history : List Record) (active : Option Record)
    (latest previous : Option String) : List String :=
  let activeName := shown (active.map (·.name))
  (lastOf limit history).map recordLine ++
    [s!"[status] schema={schema} migrations={history.length} active={activeName}",
      s!"[status] latest_version={shown latest}",
      s!"[status] previous_version={shown previous}"]

/-- Collects the lines about a schema. -/
def readStatus (present : String → Bool) (schema : String) (limit : Int) :
    Action Database (List String) := do
  let history ← LedgerStore.history schema
  let active ← LedgerStore.active schema
  let latest ← latestVersion present schema
  let previous ← previousVersion present schema
  return statusLines schema limit history active latest previous

/-- Shows the history of a schema. -/
def ledgerStatus (env : Environment) (present : String → Bool) (args : List String)
    (d : Database) : Report :=
  match readArguments statusSynopsis.options args with
  | .error stop => .stopped statusSynopsis stop
  | .ok s =>
    if !d.isInitialized then
      .success [s!"[status] state schema {env.stateSchema} is not initialized"]
    else
      match s.textOr "--schema" "public", s.integerOr "--limit" 20 with
      | none, _ => .failed .database
      | some _, none => ⟨[], .failed .noNumber⟩
      | some schema, some limit =>
        match readStatus present schema limit d with
        | (.ok lines, _) => .success lines
        | (.error f, _) => .failed f

/-- The command that checks histories. -/
def checkSynopsis : Synopsis :=
  { name := "ledger-check.py"
    about := "Verify that every schema history is a single linear chain"
    options := [
      { name := "--schema", kind := .text
        about := "Schema to check (repeatable, default: all)" }] }

/-- The lines about the problems of a schema. -/
def problemLines (schema : String) (problems : List Problem) : List String :=
  if problems.isEmpty then [s!"[check] schema={schema} ok"]
  else problems.map fun p => s!"[check] schema={schema} problem={p.message}"

/-- Checks schemas one after another; the flag tells whether one before had problems. A schema that
was given without a name cannot be looked up. -/
def checkSchemas (d : Database) (failed : Bool) : List (Option String) → Report
  | [] => ⟨[], .status (if failed then 1 else 0)⟩
  | none :: _ => .failed .database
  | some schema :: rest =>
    match LedgerStore.problems schema d with
    | (.error f, _) => .failed f
    | (.ok problems, _) =>
      let report := checkSchemas d (failed || !problems.isEmpty) rest
      { report with lines := problemLines schema problems ++ report.lines }

/-- Checks the given schemas, or all of them if none is given. -/
def ledgerCheck (args : List String) (d : Database) : Report :=
  match readArguments checkSynopsis.options args with
  | .error stop => .stopped checkSynopsis stop
  | .ok s =>
    match s.texts "--schema" with
    | [] =>
      match LedgerStore.schemas d with
      | (.ok schemas, _) => checkSchemas d false (schemas.map some)
      | (.error f, _) => .failed f
    | schemas => checkSchemas d false schemas

example : lastOf 2 [1, 2, 3] = [2, 3] ∧ lastOf 5 [1, 2, 3] = [1, 2, 3] ∧
    lastOf 0 [1, 2, 3] = [1, 2, 3] ∧ lastOf (-1) [1, 2, 3] = [2, 3] := by decide

end SchemaLedger.Command
