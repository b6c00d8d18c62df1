import SchemaLedger.Command.Report
import SchemaLedger.Installation

/-!
# Commands that change the database

The one command installs the tables of the tool in one transaction and lists the versions that were
recorded; the other one fills in the rows of a table, batch by batch. Of options that were given
without a value, it misses a size at once, a name before the first batch, and a delay where it would
wait.
-/

namespace SchemaLedger.Command

/-- The command that installs the tables. -/
def initSynopsis : Synopsis :=
  { name := "init-state.py"
    about := "Create or upgrade the state schema"
    options := [
      { name := "--version", kind := .text
        about := "Tool version to record (default: PGROLL_VERSION)" },
      { name := "--no-capture", kind := .flag
        about := "Do not install DDL capture event triggers" },
      { name := "--verbose", kind := .flag }] }

/-- The line about a recorded version. -/
def versionLine (stateSchema : String) (v : VersionMark) : String :=
  s!"[state] schema={stateSchema} version={v.version} initialized_at={v.initializedAt.text}"

/-- Installs the tables; when that fails, the connection is as it was. -/
def initState (env : Environment) (now : Moment) (args : List String) (c : Connection) :
    Report × Connection :=
  match readArguments initSynopsis.options args with
  | .error stop => (.stopped initSynopsis stop, c)
  | .ok s =>
    let version := (s.texts "--version").getLast?.join
    let capture := if s.has "--no-capture" then some false else none
    match (Installation.init env now version capture).atomically c with
    | (.error f, c) => (.failed f.failure, c)
    | (.ok (), c) =>
      match c.database.versions with
      | .error f => (.failed f, c)
      | .ok versions => (.success (versions.map (versionLine env.stateSchema)), c)

/-- The command that fills in rows. -/
def backfillSynopsis : Synopsis :=
  { name := "run-backfill.py"
    about := "Backfill rows still flagged as needing backfill"
    options := [
      { name := "--schema", kind := .text },
      { name := "--table", kind := .text, required := true },
      { name := "--pk", kind := .text, required := true
        about := "Primary key column (repeatable)" },
      { name := "--batch-size", kind := .integer },
      { name := "--delay", kind := .number, about := "Seconds to wait between batches" }] }

/-- The lines about the progress of a sweep. -/
def progressLines (events : List Backfill.Event) : List String :=
  events.filterMap fun
    | .progress rows => some s!"[backfill] rows={rows}"
    | _ => none

/-- The line about a sweep that came to its end. -/
def doneLine (t : Backfill.Target) (totals : Backfill.Totals) : String :=
  s!"[backfill] done table={t.schema}.{t.table} rows={totals.rows} batches={totals.batches}"

/-- The table that a backfill is asked for, if all of its names are given. -/
def targetOf? (s : Settings) : Option Backfill.Target := do
  let schema ← s.textOr "--schema" "public"
  let table ← s.textOr "--table" ""
  let primaryKey ← (s.texts "--pk").mapM id
  return { schema, table, primaryKey }

/-- Reports on a sweep. -/
def reportSweep (t : Backfill.Target) (events : List Backfill.Event) :
    Except Backfill.RunError Backfill.Totals → Report
  | .ok totals => .success (progressLines events ++ [doneLine t totals])
  | .error (.noPrimaryKey t) => ⟨progressLines events, .failed (.noPrimaryKey t)⟩
  | .error (.failed f) => ⟨progressLines events, .failed (.failure f)⟩

/-- The size of a batch and the delay that an option sets. A delay without a value is any positive
one: the sweep comes to its end before it waits, or fails there. -/
def settingsOf (env : Environment) (s : Settings) : Except Fatal Backfill.Settings := do
  let size ← match s.last? "--batch-size" with
    | none => pure none
    | some (.integer n) => pure (some n)
    -- the delay is looked at before the size is used
    | some _ => pure (some 0)
  let delay := match s.last? "--delay" with
    | none => none
    | some (.number x) => some (.fraction x)
    | some _ => some (.whole 1)
  match Backfill.settings env size delay with
  | .ok cfg => return cfg
  | .error .batchSizeNotPositive =>
    throw (if s.last? "--batch-size" = some .nothing then .noNumber
      else .settings .batchSizeNotPositive)
  | .error e => throw (.settings e)

/-- Whether a sweep waits. -/
def isWait : Backfill.Event → Bool
  | .slept _ => true
  | _ => false

/-- What happens in a sweep whose delay was given without a value, up to the first wait. -/
def untilWait (events : List Backfill.Event) : List Backfill.Event := events.takeWhile (!isWait ·)

/-- Fills in the rows of a table; tells what happened as well. -/
def runBackfill (env : Environment) (source : Backfill.Source σ) (args : List String) (state : σ) :
    Report × List Backfill.Event :=
  match readArguments backfillSynopsis.options args with
  | .error stop => (.stopped backfillSynopsis stop, [])
  | .ok s =>
    match settingsOf env s, targetOf? s with
    | .error e, _ => (⟨[], .failed e⟩, [])
    | .ok _, none => (⟨[], .failed .noName⟩, [])
    | .ok cfg, some target =>
      let (events, result) := Backfill.run source target cfg state
      if s.last? "--delay" = some .nothing ∧ events.any isWait then
        (⟨progressLines (untilWait events), .failed .noNumber⟩, untilWait events)
      else (reportSweep target events result, events)

end SchemaLedger.Command
