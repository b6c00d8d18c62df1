import SchemaLedger.Ledger.Error
import SchemaLedger.SyncTrigger.Basic

/-!
# What a sync trigger does to a row

The effect of a trigger can be computed without a database: one step stands for one expression.
Every step sees the values that the logical columns had before any assignment, and the row as
assigned so far.

The main statements: a trigger that does not fire leaves the row alone (`projectRow_of_not_fires`),
and a row that it fires for has its mark cleared (`projectRow_mark`).
-/

namespace SchemaLedger.SyncTrigger

/-- A step computes a value from the values of the logical columns and the row as it is now. -/
abbrev Step : Type := (bindings row : Mapping) → Except Failure Value

/-- Why a row cannot be projected. -/
inductive ProjectionError where
  /-- There is no step. -/
  | rejected (e : GenerationError)
  /-- A step failed. -/
  | failed (f : Failure)
  deriving DecidableEq, Repr

/-- The values of the logical columns; a column that the row lacks is null. -/
def bindings (c : Config) (row : Mapping) : Mapping :=
  Mapping.ofFields (c.columns.map fun column =>
    (column.1, (Mapping.field? row column.2.name).getD .null))

/-- Assigns the values of the steps, one after another. -/
def assignSteps (c : Config) (bound : Mapping) : (row : Mapping) → List Step →
    Except Failure Mapping
  | row, [] => .ok row
  | row, step :: rest =>
    match step bound row with
    | .error e => .error e
    | .ok v => assignSteps c bound (Mapping.put row (.text c.physicalColumn) v) rest

/-- The row with its mark cleared. -/
def clearMark (c : Config) (row : Mapping) : Mapping :=
  Mapping.put row (.text c.needsBackfillColumn) (.bool false)

/-- The row after the trigger. -/
def projectRow (c : Config) (row : Mapping) (searchPath : String) (steps : List Step) :
    Except ProjectionError Mapping :=
  if steps.isEmpty then .error (.rejected (c.lacks .noStep))
  else if !c.firesFor searchPath then .ok row
  else
    match assignSteps c (bindings c row) row steps with
    | .error e => .error (.failed e)
    | .ok assigned => .ok (clearMark c assigned)

theorem projectRow_of_not_fires {c : Config} {row : Mapping} {searchPath : String}
    {steps : List Step} (hs : steps ≠ []) (h : c.firesFor searchPath = false) :
    projectRow c row searchPath steps = .ok row := by
  simp [projectRow, hs, h]

theorem projectRow_mark {c : Config} {row projected : Mapping} {searchPath : String}
    {steps : List Step} (h : c.firesFor searchPath = true)
    (hp : projectRow c row searchPath steps = .ok projected) :
    Mapping.field? projected c.needsBackfillColumn = some (.bool false) := by
  unfold projectRow at hp
  split at hp
  · simp at hp
  · simp only [h, Bool.not_true, Bool.false_eq_true, if_false] at hp
    split at hp
    · simp at hp
    · cases hp
      exact Mapping.get?_put_self _ _ _

/-- A small language for steps. -/
inductive Expr where
  /-- A value. -/
  | const (v : Value)
  /-- The value of a logical column before any assignment. -/
  | binding (name : String)
  /-- The value of a physical column as it is now. -/
  | new (column : String)
  /-- The values of all logical columns. -/
  | bindings
  /-- The texts of several expressions, one after another. -/
  | concat (parts : List Expr)
  deriving Repr

namespace Expr

/-- A value as a part of a text; null adds nothing. -/
def partText : Value → String
  | .null => ""
  | v => v.display

/-- The entry of a mapping that has to be there. -/
def fieldOf (m : Mapping) (name : String) : Except Failure Value :=
  match Mapping.field? m name with
  | some v => .ok v
  | none => .error .missingKey

mutual

/-- The value of an expression. -/
def eval : Expr → Step
  | const v, _, _ => .ok v
  | binding name, bound, _ => fieldOf bound name
  | new column, _, row => fieldOf row column
  | bindings, bound, _ => .ok (.map bound)
  | concat parts, bound, row => (evalText parts bound row).map .text
termination_by structural e => e

/-- The texts of the values of several expressions, one after another. -/
def evalText : List Expr → (bound row : Mapping) → Except Failure String
  | [], _, _ => .ok ""
  | e :: rest, bound, row =>
    match eval e bound row with
    | .error f => .error f
    | .ok v => (evalText rest bound row).map (partText v ++ ·)
termination_by structural es => es

end

end Expr

end SchemaLedger.SyncTrigger
