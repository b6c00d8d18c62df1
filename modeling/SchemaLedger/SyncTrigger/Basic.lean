import SchemaLedger.Value.Display
import SchemaLedger.Text.Blank

/-!
# Sync triggers

While two version schemas of a table are in use, a trigger on the table keeps the column of the one
in step with the column of the other. A trigger carries values up, for writes made under any search
path but that of the latest version schema, or down, for writes made under that one.
-/

namespace SchemaLedger

namespace SyncTrigger

/-- The column that marks the rows still to be filled in. -/
def needsBackfillColumn : String := "_pgroll_needs_backfill"

/-- Which way a trigger carries values. -/
inductive Direction where
  | up
  | down
  /-- A direction that is not known. -/
  | unknown (said : Value)
  deriving DecidableEq, Repr

/-- Whether values are carried up. A text that reads like the direction counts, although it is not
known as one. -/
def Direction.isUp : Direction → Bool
  | up => true
  | down => false
  | unknown said => said = .text "up"

/-- The physical column behind a logical one. -/
structure Column where
  name : String
  type : String
  deriving DecidableEq, Repr

/-- Everything that is needed to generate one trigger. -/
structure Config where
  /-- The name of the trigger and of its function. -/
  name : String
  tableName : String
  direction : Direction := .up
  /-- The logical names that the expressions use, with the columns behind them; a name is listed
  once. -/
  columns : List (String × Column) := []
  schemaName : String := "public"
  /-- The column that the expressions are assigned to. -/
  physicalColumn : String := ""
  needsBackfillColumn : String := SyncTrigger.needsBackfillColumn
  /-- The full name of the newest version schema. -/
  latestSchema : String := ""
  /-- The expressions, in the order in which they are assigned. -/
  expressions : List String := []
  deriving DecidableEq, Repr

/-- Whether a write made under a search path is carried over. -/
def Config.firesFor (c : Config) (searchPath : String) : Bool :=
  if c.direction.isUp then searchPath != c.latestSchema else searchPath == c.latestSchema

/-- What a configuration lacks. -/
inductive Defect where
  | noName
  | noTable
  | unknownDirection (said : Value)
  | noPhysicalColumn
  | noLatestSchema
  | noBackfillColumn
  | noExpression
  | noStep
  deriving DecidableEq, Repr

/-- The error for a configuration that lacks something. -/
structure GenerationError where
  trigger : String
  defect : Defect
  deriving DecidableEq, Repr

/-- The sentence for an error. -/
def GenerationError.message (e : GenerationError) : String :=
  match e.defect with
  | .noName => "trigger name is required"
  | .noTable => about "table name is required"
  | .unknownDirection said => about ("unknown direction " ++ said.quoted)
  | .noPhysicalColumn => about "physical column is required"
  | .noLatestSchema => about "latest schema is required"
  | .noBackfillColumn => about "needs-backfill column is required"
  | .noExpression => about "at least one non-empty expression is required"
  | .noStep => about "at least one step is required"
where
  /-- The sentence with the name of the trigger in front. -/
  about (said : String) : String := "trigger " ++ e.trigger ++ ": " ++ said

namespace Config

/-- The error about this configuration. -/
def lacks (c : Config) (d : Defect) : GenerationError := ⟨c.name, d⟩

/-- The direction, if it is not a known one. -/
def unknownDirection? (c : Config) : Option Value :=
  match c.direction with
  | .unknown said => some said
  | _ => none

/-- Whether there are expressions, none of them blank. -/
def hasExpressions (c : Config) : Bool :=
  !c.expressions.isEmpty && c.expressions.all fun e => !Text.allBlank e

/-- The first thing that a configuration lacks to generate a trigger from it. -/
def triggerDefect? (c : Config) : Option Defect :=
  if c.name = "" then some .noName
  else if c.tableName = "" then some .noTable
  else none

/-- The first thing that a configuration lacks to generate a function from it. -/
def defect? (c : Config) : Option Defect :=
  match c.triggerDefect? with
  | some d => some d
  | none =>
    match c.unknownDirection? with
    | some said => some (.unknownDirection said)
    | none =>
      if c.physicalColumn = "" then some .noPhysicalColumn
      else if c.latestSchema = "" then some .noLatestSchema
      else if c.needsBackfillColumn = "" then some .noBackfillColumn
      else if !c.hasExpressions then some .noExpression
      else none

theorem triggerDefect?_of_defect? {c : Config} (h : c.defect? = none) :
    c.triggerDefect? = none := by
  unfold defect? at h
  split at h
  · simp at h
  · assumption

end Config

end SyncTrigger

end SchemaLedger
