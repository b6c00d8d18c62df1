import SchemaLedger.Session.Transaction
import SchemaLedger.SyncTrigger.Definition

/-!
# Installing a sync trigger

The function and the trigger are created in the schema of the table: the search path is set to it
while the two statements run, and put back afterwards. Nothing is asked of the session before both
statements could be generated.

The main statement: a configuration that is rejected leaves the session alone
(`install_of_defect`).
-/

namespace SchemaLedger.SyncTrigger

/-- Why a trigger was not installed. -/
inductive InstallError where
  /-- The configuration lacks something. -/
  | rejected (e : GenerationError)
  /-- The session failed. -/
  | fault (f : Fault)
  deriving DecidableEq, Repr

/-- The setting that says in which schemas names are looked up. -/
def searchPathSetting : String := "search_path"

section Transaction

variable {σ : Type} [Transaction σ]

/-- Pins the search path to a schema, and answers with the path before. -/
def pin (schema : String) : Attempt Fault σ (Option String) := do
  let previous ← Transaction.setting searchPathSetting
  Transaction.assign searchPathSetting (Sql.quoteIdent schema)
  return previous

/-- Executes the two statements. -/
def create (function trigger : String) : Attempt Fault σ Unit := do
  Transaction.execute function
  Transaction.execute trigger

/-- Executes the two statements in a schema. -/
def place (schema function trigger : String) : Attempt Fault σ Unit := do
  let previous ← pin schema
  Transaction.suppressing (create function trigger)
  Transaction.assign searchPathSetting (previous.getD "")

/-- Installs a trigger in an open transaction. -/
def installIn (c : Config) : Attempt InstallError σ Unit :=
  match c.functionText, c.triggerText with
  | .ok function, .ok trigger => (place c.schemaName function trigger).widen .fault
  | .error e, _ | _, .error e => .fail (.rejected e)

theorem installIn_of_defect {c : Config} {d : Defect} {s : σ} (h : c.defect? = some d) :
    installIn c s = (.error (.rejected (c.lacks d)), s) := by
  simp [installIn, Config.functionText, h]

end Transaction

/-- Installs a trigger in a session. -/
def install (c : Config) : Attempt InstallError Session Unit := installIn c

theorem install_of_defect {c : Config} {d : Defect} {s : Session} (h : c.defect? = some d) :
    install c s = (.error (.rejected (c.lacks d)), s) := installIn_of_defect h

end SchemaLedger.SyncTrigger
