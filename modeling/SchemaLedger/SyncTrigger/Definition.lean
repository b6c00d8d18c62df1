import SchemaLedger.Sql.Quote
import SchemaLedger.SyncTrigger.Basic

/-!
# The statements behind a sync trigger

A trigger consists of a function, which compares the search path and assigns the expressions, and
of the trigger itself, which calls the function before every write to the table. The function
declares one variable for each logical column, in the order of their names.

The main statement: a configuration from which a function can be generated also gives a trigger
(`triggerText_ok`).
-/

namespace SchemaLedger.SyncTrigger

open Sql (quoteIdent quoteLiteral quoteTable unlines)

namespace Config

/-- The columns in the order of their logical names. -/
def sortedColumns (c : Config) : List (String × Column) :=
  c.columns.mergeSort fun a b => decide (a.1 ≤ b.1)

/-- The declaration of the variable for a logical column. -/
def declaration (c : Config) (column : String × Column) : String :=
  let physical := quoteIdent column.2.name
  s!"      {quoteIdent column.1} {quoteTable c.schemaName c.tableName}.{physical}%TYPE := NEW.{physical};"

/-- The comparison under which the function assigns. -/
def operator (c : Config) : String := if c.direction.isUp then "!=" else "="

/-- The assignment of an expression. -/
def assignment (c : Config) (expression : String) : String :=
  s!"        NEW.{quoteIdent c.physicalColumn} = {expression};"

/-- The lines of the function. -/
def functionLines (c : Config) : List String :=
  [s!"CREATE OR REPLACE FUNCTION {quoteIdent c.name}()",
    "    RETURNS TRIGGER",
    "    LANGUAGE PLPGSQL",
    "    AS $$",
    "    DECLARE"] ++
  c.sortedColumns.map c.declaration ++
  ["      latest_schema text;",
    "      search_path text;",
    "    BEGIN",
    "      SELECT current_setting",
    "        INTO search_path",
    "        FROM current_setting('search_path');",
    "",
    s!"      IF search_path {c.operator} {quoteLiteral c.latestSchema} THEN"] ++
  c.expressions.map c.assignment ++
  [s!"        NEW.{quoteIdent c.needsBackfillColumn} = false;",
    "      END IF;",
    "",
    "      RETURN NEW;",
    "    END; $$",
    ""]

/-- The statement that creates the function. -/
def functionText (c : Config) : Except GenerationError String :=
  match c.defect? with
  | some d => .error (c.lacks d)
  | none => .ok (unlines c.functionLines)

/-- The lines of the trigger. -/
def triggerLines (c : Config) : List String :=
  [s!"CREATE OR REPLACE TRIGGER {quoteIdent c.name}",
    "    BEFORE UPDATE OR INSERT",
    s!"    ON {quoteIdent c.tableName}",
    "    FOR EACH ROW",
    s!"    EXECUTE PROCEDURE {quoteIdent c.name}();",
    ""]

/-- The statement that creates the trigger. -/
def triggerText (c : Config) : Except GenerationError String :=
  match c.triggerDefect? with
  | some d => .error (c.lacks d)
  | none => .ok (unlines c.triggerLines)

theorem functionText_ok {c : Config} {s : String} (h : c.functionText = .ok s) :
    c.defect? = none ∧ s = unlines c.functionLines := by
  unfold functionText at h
  split at h
  · simp at h
  · simp_all

theorem functionText_of_accepted {c : Config} (h : c.defect? = none) :
    c.functionText = .ok (unlines c.functionLines) := by
  rw [functionText, h]

theorem triggerText_ok {c : Config} (h : c.defect? = none) :
    c.triggerText = .ok (unlines c.triggerLines) := by
  simp [triggerText, triggerDefect?_of_defect? h]

end Config

end SchemaLedger.SyncTrigger
