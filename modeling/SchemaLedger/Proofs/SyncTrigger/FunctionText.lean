import Mathlib.Data.List.Basic
import SchemaLedger.Proofs.Sql.Quoting
import SchemaLedger.SyncTrigger.Definition
import SchemaLedger.SyncTrigger.Projection

/-!
# What the function of a sync trigger says

The function decides for itself whether it assigns anything: it compares the search path with the
latest version schema. This file reads that decision back from the text of the function, as the
database does. The condition is the first place outside of quotes at which the search path is
compared. Before it stand names, and what is in their quotes may be anything, another condition too;
but a search passes by them (`Config.passes_linesBefore`). What the search path is compared with is
a literal, which may have been written in either form (`Sql.readLiteral?_literalChars`). So the
whole conditional statement is read back (`Config.ofText?_functionLines`).

Behind the condition stand the expressions as they were given, one assignment for each, and then the
mark is cleared. If the expressions mean what the steps of a projection compute, these assignments
are the projection (`Config.performAll_assignments`). So the function and the projection agree
(`function_agrees`).
-/

namespace SchemaLedger.SyncTrigger

open Sql

/-- An assignment to a column of the new row. -/
structure Assignment where
  column : String
  expression : String
  deriving DecidableEq, Repr

namespace Assignment

/-- The line for an assignment. -/
def line (a : Assignment) : String :=
  "        NEW." ++ quoteIdent a.column ++ " = " ++ a.expression ++ ";"

/-- The line with its end. -/
def text (a : Assignment) : String := a.line ++ "\n"

/-- What an assignment makes of a row, given the meaning of expressions and the variables. -/
def perform (meaning : String → Step) (bound row : Mapping) (a : Assignment) :
    Except Failure Mapping :=
  (meaning a.expression bound row).map (row.put (.text a.column))

/-- What assignments make of a row one after another; the first failure ends it. -/
def performAll (meaning : String → Step) (bound row : Mapping) (assignments : List Assignment) :
    Except Failure Mapping :=
  assignments.foldlM (perform meaning bound) row

end Assignment

/-- How two texts are compared. -/
inductive Comparison where
  | equal
  | different
  deriving DecidableEq, Repr

namespace Comparison

/-- Whether a comparison holds. -/
def holds : Comparison → (a b : String) → Bool
  | equal, a, b => a == b
  | different, a, b => a != b

/-- Reads an operator with the blank behind it. -/
def read? : List Char → Option (Comparison × List Char)
  | '=' :: ' ' :: rest => some (equal, rest)
  | '!' :: '=' :: ' ' :: rest => some (different, rest)
  | _ => none

end Comparison

/-- The conditional statement of a function. -/
structure Conditional where
  comparison : Comparison
  /-- What the search path is compared with. -/
  against : String
  /-- What is done if the comparison holds. -/
  statements : String
  deriving DecidableEq, Repr

/-- The characters of a line, with its end. -/
def lineChars (line : String) : List Char := line.toList ++ ['\n']

namespace Conditional

/-- Whether the statements are executed under a search path. -/
def holds (c : Conditional) (searchPath : String) : Bool := c.comparison.holds searchPath c.against

/-- The words before a comparison with the search path. -/
def opening : List Char := "IF search_path ".toList

/-- The word behind it, with the end of its line. -/
def consequence : List Char := lineChars " THEN"

/-- The lines at the end of a function, from the end of the conditional statement. -/
def closing : List Char :=
  ["      END IF;", "", "      RETURN NEW;", "    END; $$"].flatMap lineChars

/-- Reads the conditional statement of a function. Its statements may contain anything, so they
reach up to the lines at the very end. -/
def ofText? (text : String) : Option Conditional := do
  let condition ← behind? opening none text.toList
  let (comparison, literal) ← Comparison.read? condition
  let (against, rest) ← readLiteral? literal
  let body ← rest.dropPrefix? consequence
  let statements ← body.dropSuffix? closing
  return { comparison, against := .ofList against, statements := .ofList statements }

end Conditional

/-! ## The parts of the text -/

theorem toList_unlines_cons (line line' : String) (rest : List String) :
    (unlines (line :: line' :: rest)).toList =
      lineChars line ++ (unlines (line' :: rest)).toList := by
  simp only [unlines, String.toList_intercalate, List.map_cons, List.intercalate_cons_cons,
    lineChars]
  rfl

/-- Lines of which the last one is without an end. -/
theorem toList_unlines_concat (lines : List String) (last : String) :
    (unlines (lines ++ [last])).toList = lines.flatMap lineChars ++ last.toList := by
  induction lines with
  | nil => simp [unlines]
  | cons line rest ih =>
    rw [List.flatMap_cons, List.append_assoc, ← ih]
    cases rest <;> exact toList_unlines_cons ..

namespace Config

variable (c : Config)

/-- The lines before the condition. -/
def linesBefore : List String :=
  [s!"CREATE OR REPLACE FUNCTION {quoteIdent c.name}()",
    "    RETURNS TRIGGER",
    "    LANGUAGE PLPGSQL",
    "    AS $$",
    "    DECLARE"] ++
  c.sortedColumns.map c.declaration ++
  ["      latest_schema text;",
    "      search_path text;",
    "    BEGIN",
    "      SELECT current_setting",
    "        INTO search_path",
    "        FROM current_setting('search_path');",
    ""]

/-- The first of them, up to the line that opens the body. -/
def heading : List String :=
  [s!"CREATE OR REPLACE FUNCTION {quoteIdent c.name}()", "    RETURNS TRIGGER",
    "    LANGUAGE PLPGSQL"]

/-- The last of them, behind the declarations of the columns. -/
def preparation : List String :=
  ["      latest_schema text;", "      search_path text;", "    BEGIN",
    "      SELECT current_setting", "        INTO search_path",
    "        FROM current_setting('search_path');", ""]

theorem linesBefore_eq :
    c.linesBefore = c.heading ++ "    AS $$" :: "    DECLARE" ::
      (c.sortedColumns.map c.declaration ++ preparation) := rfl

theorem mem_sortedColumns {column : String × Column} :
    column ∈ c.sortedColumns ↔ column ∈ c.columns := (List.mergeSort_perm ..).mem_iff

/-- What is to be assigned, in order. -/
def assignments : List Assignment :=
  c.expressions.map (⟨c.physicalColumn, ·⟩) ++ [⟨c.needsBackfillColumn, "false"⟩]

/-- The line of the condition. -/
theorem condition_line :
    s!"      IF search_path {c.operator} {quoteLiteral c.latestSchema} THEN" =
      "      " ++ ("IF search_path " ++ (c.operator ++ (" " ++
        (quoteLiteral c.latestSchema ++ " THEN")))) := by
  have hopening : "      IF search_path " = "      " ++ "IF search_path " := rfl
  simp only [toString, hopening, String.append_assoc]

/-- The line that clears the mark. -/
theorem mark_line :
    s!"        NEW.{quoteIdent c.needsBackfillColumn} = false;" =
      Assignment.line ⟨c.needsBackfillColumn, "false"⟩ := by
  have hvalue : " = false;" = " = " ++ ("false" ++ ";") := rfl
  simp only [toString, hvalue, Assignment.line, String.append_assoc]

/-- The lines of a function around its condition. -/
theorem functionLines_eq :
    c.functionLines = c.linesBefore ++
      s!"      IF search_path {c.operator} {quoteLiteral c.latestSchema} THEN" ::
        (c.assignments.map Assignment.line ++
          ["      END IF;", "", "      RETURN NEW;", "    END; $$"]) ++ [""] := by
  have hassignments : c.expressions.map c.assignment =
      c.expressions.map (Assignment.line ⟨c.physicalColumn, ·⟩) := rfl
  rw [functionLines, hassignments, mark_line]
  simp [linesBefore, assignments]

/-- The text of a function has a condition, and the assignments behind it. -/
theorem toList_functionLines :
    (unlines c.functionLines).toList =
      c.linesBefore.flatMap lineChars ++ "      ".toList ++ (Conditional.opening ++
        (c.operator.toList ++ (' ' :: (literalChars c.latestSchema.toList ++
          (Conditional.consequence ++ (c.assignments.flatMap (lineChars ·.line) ++
            Conditional.closing)))))) := by
  rw [functionLines_eq, condition_line, toList_unlines_concat, List.flatMap_append,
    List.flatMap_cons, List.flatMap_append, List.flatMap_map, lineChars]
  simp only [String.toList_append, toList_quoteLiteral, List.append_assoc]
  rfl

/-- It begins with the declarations of the columns. -/
theorem exists_toList_functionLines :
    ∃ behind, (unlines c.functionLines).toList =
      c.heading.flatMap lineChars ++ (lineChars "    AS $$" ++ (lineChars "    DECLARE" ++
        (c.sortedColumns.flatMap (lineChars <| c.declaration ·) ++
          (preparation.flatMap lineChars ++ behind)))) := by
  have h := c.toList_functionLines
  rw [linesBefore_eq, List.flatMap_append, List.flatMap_cons, List.flatMap_cons,
    List.flatMap_append, List.flatMap_map] at h
  simp only [List.append_assoc] at h
  exact ⟨_, h⟩

/-! ## Reading it back -/

/-- A declaration up to its semicolon. -/
def declared (column : String × Column) : String :=
  let physical := quoteIdent column.2.name
  s!"      {quoteIdent column.1} {quoteTable c.schemaName c.tableName}.{physical}%TYPE := NEW.{physical}"

theorem declaration_eq (column : String × Column) :
    c.declaration column = c.declared column ++ ";" := rfl

theorem toList_declared (column : String × Column) :
    (c.declared column).toList = "      ".toList ++ (identChars column.1.toList ++ (" ".toList ++
      (identChars c.schemaName.toList ++ (".".toList ++ (identChars c.tableName.toList ++
        (".".toList ++ (identChars column.2.name.toList ++ ("%TYPE := NEW.".toList ++
          identChars column.2.name.toList)))))))) := by
  simp only [declared, quoteTable, toString, String.toList_append, toList_quoteIdent,
    List.append_assoc]

/-- Names may contain anything, but a search passes by a declaration if what it begins with is not
among the characters around them. -/
theorem passes_declared {w : Char} (hw : w ∉ "\" .%TYPE:=NEW".toList) (word : List Char)
    (column : String × Column) : Passes (w :: word) (c.declared column).toList := by
  have hquote : w ≠ '"' := by
    rintro rfl
    exact hw (by decide)
  have hwords : ∀ words : String, words.toList ⊆ " .%TYPE:=NEW".toList →
      Passes (w :: word) words.toList := fun words hsub =>
    .of_notMem (fun h => hw (List.mem_cons_of_mem _ (hsub h)))
      (fun h => absurd (hsub h) (by decide)) (fun h => absurd (hsub h) (by decide))
  have hname : ∀ name : String, Passes (w :: word) (identChars name.toList) := fun name =>
    passes_identChars hquote word name.toList
  have hpoint := hwords "." (by decide)
  have hphysical := hname column.2.name
  rw [toList_declared]
  exact (hwords "      " (by decide)).append <| (hname column.1).append <|
    (hwords " " (by decide)).append <| (hname c.schemaName).append <| hpoint.append <|
      (hname c.tableName).append <| hpoint.append <| hphysical.append <|
        (hwords "%TYPE := NEW." (by decide)).append hphysical

/-- Names may contain anything, but a search for the condition passes by a declaration. -/
theorem passes_declaration (column : String × Column) :
    Passes Conditional.opening (lineChars (c.declaration column)) := by
  rw [lineChars, declaration_eq, String.toList_append, List.append_assoc]
  exact .words (c.passes_declared (by decide) _ column) (by decide)

theorem toList_heading :
    c.heading.flatMap lineChars = "CREATE OR REPLACE FUNCTION ".toList ++
      (identChars c.name.toList ++ "()\n    RETURNS TRIGGER\n    LANGUAGE PLPGSQL\n".toList) := by
  have hrest : "()".toList ++ ('\n' :: (lineChars "    RETURNS TRIGGER" ++
      lineChars "    LANGUAGE PLPGSQL")) =
        "()\n    RETURNS TRIGGER\n    LANGUAGE PLPGSQL\n".toList := by decide
  rw [← hrest]
  simp only [heading, List.flatMap_cons, List.flatMap_nil, List.append_nil, toString, lineChars,
    String.toList_append, toList_quoteIdent, List.append_assoc, List.singleton_append]

/-- A search passes by the lines before the body, if it does so around the name of the function. -/
theorem passes_heading {w : Char} {word : List Char} (hw : w ≠ '"')
    (hcreate : avoids (w :: word) none "CREATE OR REPLACE FUNCTION ".toList = true)
    (hlines : avoids (w :: word) none
      "()\n    RETURNS TRIGGER\n    LANGUAGE PLPGSQL\n".toList = true) :
    Passes (w :: word) (c.heading.flatMap lineChars) := by
  rw [toList_heading]
  exact .append (.of_avoids hcreate) (.words (passes_identChars hw word c.name.toList) hlines)

/-- So a search for the condition passes by all that stands before it. -/
theorem passes_linesBefore :
    Passes Conditional.opening (c.linesBefore.flatMap lineChars ++ "      ".toList) := by
  have hheading : Passes Conditional.opening (c.heading.flatMap lineChars) :=
    c.passes_heading (by decide) (by decide) (by decide)
  have hcolumns : Passes Conditional.opening (c.sortedColumns.flatMap (lineChars <| c.declaration ·)) :=
    .flatMap fun column _ => c.passes_declaration column
  rw [linesBefore_eq, List.flatMap_append, List.flatMap_cons, List.flatMap_cons,
    List.flatMap_append, List.flatMap_map]
  exact .words (hheading.append <| .append (.of_avoids (by decide)) <|
    .append (.of_avoids (by decide)) <| hcolumns.append <| .of_avoids (by decide)) (by decide)

/-- The comparison that the operator stands for. -/
def comparison : Comparison := if c.direction.isUp then .different else .equal

/-- It holds where the trigger fires. -/
theorem holds_comparison (searchPath : String) :
    c.comparison.holds searchPath c.latestSchema = c.firesFor searchPath := by
  rw [comparison, firesFor]
  cases c.direction.isUp <;> rfl

theorem read?_operator (rest : List Char) :
    Comparison.read? (c.operator.toList ++ ' ' :: rest) = some (c.comparison, rest) := by
  rw [operator, comparison]
  cases c.direction.isUp <;> rfl

/-- What is read back from the text of a function. -/
theorem ofText?_functionLines :
    Conditional.ofText? (unlines c.functionLines) =
      some ⟨c.comparison, c.latestSchema, .ofList (c.assignments.flatMap (lineChars ·.line))⟩ := by
  let statements := c.assignments.flatMap (lineChars ·.line)
  let body := statements ++ Conditional.closing
  let condition := literalChars c.latestSchema.toList ++ (Conditional.consequence ++ body)
  have hcondition : behind? Conditional.opening none (unlines c.functionLines).toList =
      some (c.operator.toList ++ ' ' :: condition) := by
    rw [c.toList_functionLines, c.passes_linesBefore]
    exact behind?_word (by decide) _
  have hliteral : readLiteral? condition =
      some (c.latestSchema.toList, Conditional.consequence ++ body) :=
    readLiteral?_literalChars c.latestSchema.toList (by simp [Conditional.consequence, lineChars])
  have hbody : (Conditional.consequence ++ body).dropPrefix? Conditional.consequence = some body :=
    List.dropPrefix?_append_of_beq _ (beq_self_eq_true _)
  have hstatements : body.dropSuffix? Conditional.closing = some statements :=
    List.dropSuffix?_eq_some_iff.mpr ⟨_, rfl, beq_self_eq_true _⟩
  simp only [Conditional.ofText?, hcondition, c.read?_operator, hliteral, hbody, hstatements,
    String.ofList_toList, Option.bind_eq_bind, Option.bind_some]
  rfl

end Config

/-! ## What the assignments do -/

theorem Assignment.performAll_append (meaning : String → Step) (bound row : Mapping)
    (front back : List Assignment) :
    performAll meaning bound row (front ++ back) =
      (performAll meaning bound row front).bind (performAll meaning bound · back) :=
  List.foldlM_append

namespace Config

variable (c : Config) {meaning : String → Step}

/-- The assignments of the expressions are the steps of a projection. -/
theorem performAll_expressions (bound row : Mapping) (expressions : List String) :
    Assignment.performAll meaning bound row (expressions.map (⟨c.physicalColumn, ·⟩)) =
      assignSteps c bound row (expressions.map meaning) := by
  induction expressions generalizing row with
  | nil => rfl
  | cons expression rest ih =>
    rw [List.map_cons, List.map_cons, assignSteps, Assignment.performAll, List.foldlM_cons,
      Assignment.perform]
    cases meaning expression bound row with
    | error f => rfl
    | ok v => exact ih _

/-- All assignments together are a projection of the row. -/
theorem performAll_assignments
    (hfalse : ∀ bound row, meaning "false" bound row = .ok (.bool false)) (bound row : Mapping) :
    Assignment.performAll meaning bound row c.assignments =
      (assignSteps c bound row (c.expressions.map meaning)).map (clearMark c) := by
  have hmark : ∀ row, Assignment.performAll meaning bound row [⟨c.needsBackfillColumn, "false"⟩] =
      .ok (clearMark c row) := by
    intro row
    rw [Assignment.performAll, List.foldlM_cons, Assignment.perform, hfalse]
    rfl
  rw [assignments, Assignment.performAll_append, performAll_expressions]
  cases assignSteps c bound row (c.expressions.map meaning) with
  | error f => rfl
  | ok assigned => exact hmark assigned

/-- A configuration that is accepted has expressions. -/
theorem expressions_ne_nil (h : c.defect? = none) : c.expressions ≠ [] := by
  intro hnil
  have hlacks : c.hasExpressions = false := by rw [hasExpressions, hnil]; rfl
  rw [defect?, hlacks] at h
  split at h
  next => nomatch h
  next =>
    split at h
    next => nomatch h
    next =>
      rw [Bool.not_false, if_pos rfl] at h
      split_ifs at h

end Config

/-- **The function fires when the projection does, and assigns what it assigns.** From the text of a
function its conditional statement can be read back. The comparison holds for just those search
paths under which the trigger fires. The statements are one assignment for each expression, in
order, to the column that is filled, and then one that clears the mark. If the expressions mean what
the steps compute, the projection of a row is what the function makes of it. -/
theorem function_agrees {c : Config} {text : String} (h : c.functionText = .ok text) :
    let assignments : List Assignment :=
      c.expressions.map (⟨c.physicalColumn, ·⟩) ++ [⟨c.needsBackfillColumn, "false"⟩]
    ∃ conditional, Conditional.ofText? text = some conditional ∧
      (∀ searchPath, conditional.holds searchPath = c.firesFor searchPath) ∧
      conditional.statements = String.join (assignments.map Assignment.text) ∧
      ∀ meaning : String → Step, (∀ bound row, meaning "false" bound row = .ok (.bool false)) →
        ∀ row searchPath, projectRow c row searchPath (c.expressions.map meaning) =
          if conditional.holds searchPath then
            (Assignment.performAll meaning (bindings c row) row assignments).mapError .failed
          else .ok row := by
  intro assignments
  obtain ⟨haccepted, rfl⟩ := Config.functionText_ok h
  refine ⟨_, c.ofText?_functionLines, c.holds_comparison, ?_, fun meaning hfalse row p => ?_⟩
  · have htext : ∀ a : Assignment, lineChars a.line = a.text.toList := fun a =>
      (String.toList_append (s := a.line) (t := "\n")).symm
    rw [← String.toList_inj, String.toList_ofList, String.toList_join, List.flatMap_map]
    exact congrArg (c.assignments.flatMap ·) (funext htext)
  · have hsteps : c.expressions.map meaning ≠ [] := by
      simpa using c.expressions_ne_nil haccepted
    have hperform : Assignment.performAll meaning (bindings c row) row assignments = _ :=
      c.performAll_assignments hfalse (bindings c row) row
    rw [Conditional.holds, c.holds_comparison, hperform, projectRow,
      if_neg (by simpa using hsteps)]
    cases c.firesFor p with
    | false => rfl
    | true =>
      cases assignSteps c (bindings c row) row (c.expressions.map meaning) <;> rfl

/-- A column whose name reads like a condition, and a version schema whose name needs the literal
that starts with `E`. -/
theorem function_agrees_of_odd_names :
    let c : Config :=
      { name := "up", tableName := "reviews", physicalColumn := "re\"view"
        latestSchema := "it's\\2"
        columns := [("x\"\n      IF search_path = 'public' THEN\n", ⟨"stars", "int"⟩)]
        expressions := ["stars || ''", "upper(NEW.\"re\"\"view\")"] }
    ∃ text conditional, c.functionText = .ok text ∧ Conditional.ofText? text = some conditional ∧
      conditional.holds "it's\\2" = false ∧ conditional.holds "public" = true ∧
      conditional.statements =
        "        NEW.\"re\"\"view\" = stars || '';\n" ++
        "        NEW.\"re\"\"view\" = upper(NEW.\"re\"\"view\");\n" ++
        "        NEW.\"_pgroll_needs_backfill\" = false;\n" := by
  intro c
  have htext : c.functionText = .ok (unlines c.functionLines) := by
    rw [Config.functionText, show c.defect? = none by decide +kernel]
  obtain ⟨conditional, hread, hholds, hstatements, -⟩ := function_agrees htext
  refine ⟨_, conditional, htext, hread, ?_, ?_, hstatements.trans (by decide +kernel)⟩
  · exact (hholds _).trans (by decide)
  · exact (hholds _).trans (by decide)

end SchemaLedger.SyncTrigger
