import SchemaLedger.Command.History
import SchemaLedger.Command.Maintenance
import SchemaLedger.Json.Document
import SchemaLedger.Ledger.Dump
import Std.Time.DateTime.Timestamp

/-!
# The command line

The first argument names a file with a dump of the database, the second one the command, and the
others are the arguments of the command.
-/

open SchemaLedger

/-- The variables that the tool looks at. -/
def watchedVariables : List String :=
  ["DATABASE_URL", "PGROLL_STATE_SCHEMA", "PGROLL_VERSION", "PGROLL_CAPTURE_DDL",
    "PGROLL_BACKFILL_BATCH_SIZE", "PGROLL_BACKFILL_DELAY_S"]

/-- Reads the environment. -/
def readEnvironment : IO Environment :=
  watchedVariables.filterMapM fun name => do
    return (← IO.getEnv name).map fun value => (name, value)

/-- Reads the clock. -/
def readClock : IO Moment := do
  let nanos := (← Std.Time.Timestamp.now).toNanosecondsSinceUnixEpoch.val
  return .ofUnixMicros (nanos / 1000)

/-- Runs a command on a dump; nothing if there is no such command. -/
def runCommand (env : Environment) (now : Moment) (dump : Value) (args : List String) :
    String → Option Command.Report
  | "init-state" => some (Command.initState env now args { database := Dump.database dump }).1
  | "ledger-status" =>
    some (Command.ledgerStatus env (fun n => n ∈ Dump.namespaces dump) args (Dump.database dump))
  | "ledger-check" => some (Command.ledgerCheck args (Dump.database dump))
  | "run-backfill" =>
    let answers := Backfill.answersWith (Dump.pages dump) none
    some (Command.runBackfill env .prepared args answers).1
  | _ => none

/-- Prints what a command reports; the result is its status. -/
def printReport (r : Command.Report) : IO UInt32 := do
  for line in r.lines do
    IO.println line
  match r.exit with
  | .status code => return code.toUInt32
  | .failed e =>
    IO.eprintln (e.message?.getD "the command failed")
    return 1

def main (args : List String) : IO UInt32 := do
  match args with
  | file :: command :: args =>
    match Json.read (← IO.FS.readFile file) with
    | .error _ =>
      IO.eprintln "the dump is no JSON document"
      return 1
    | .ok dump =>
      match runCommand (← readEnvironment) (← readClock) dump args command with
      | some report => printReport report
      | none =>
        IO.eprintln "there is no such command"
        return 2
  | _ =>
    IO.eprintln "a dump and a command are needed"
    return 2
