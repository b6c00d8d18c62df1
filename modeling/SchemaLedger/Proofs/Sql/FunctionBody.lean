import SchemaLedger.Proofs.SyncTrigger.FunctionText
import SchemaLedger.Sql.Body
import SchemaLedger.Sql.StateSchema

/-!
# Names in the bodies of functions

The functions that this library creates are written in lines, and names and texts go into their
bodies, each of them quoted. Quotes keep a name from being read as anything else in the language of
the body, but not from closing the body: nothing is checked for marks, and nothing is written in
another way for them.

The line that opens a body is found, since a search passes by the name of the function and all else
that stands before; so the body goes up to the last mark exactly if none of its lines is marked
(`closesLast_iff_of_lines`, `closesLast_unlines_iff`). A line is marked exactly if a name in it is.
With the lines of each function this tells which names must not be marked
(`Config.closesLast_iff`, `closesLast_stateFunction_iff`, `closesLast_snapshotFunction`), and which
statements are meant at all is told by their first words (`mem_functions`). All of it together is
`bodies_close_last_iff`.
-/

namespace SchemaLedger

open Sql SyncTrigger

namespace Sql

/-! ## Bodies of lines -/

theorem marked_lineChars (line : String) : Marked (lineChars line) ↔ Marked line.toList :=
  marked_append_words (by decide)

/-- Behind the line that opens it, a body goes on up to the last mark exactly if none of its lines is
marked. -/
theorem closesLast_iff_of_lines {statement : String} {heading body : List String}
    {last behind : List Char}
    (hstatement : statement.toList = heading.flatMap lineChars ++
      (lineChars "    AS $$" ++ (body.flatMap lineChars ++ (last ++ (mark ++ behind)))))
    (hheading : Passes opening (heading.flatMap lineChars)) (hlast : '$' ∉ last)
    (hbehind : '$' ∉ behind) : ClosesLast statement ↔ ∀ line ∈ body, ¬ Marked line.toList := by
  have hopening : lineChars "    AS $$" = "    ".toList ++ (opening ++ ['\n']) := by decide
  have hpieces : statement.toList = heading.flatMap lineChars ++ "    ".toList ++
      (opening ++ ('\n' :: body.flatMap lineChars ++ last ++ (mark ++ behind))) := by
    rw [hstatement, hopening]
    simp only [List.append_assoc, List.cons_append, List.nil_append]
  have hfront : Passes opening (heading.flatMap lineChars ++ "    ".toList) :=
    .words hheading (by decide)
  have hend : ('\n' :: body.flatMap lineChars ++ last).getLast? ≠ some '$' := by
    rcases List.eq_nil_or_concat last with rfl | ⟨words, c, rfl⟩
    · rcases List.eq_nil_or_concat body with rfl | ⟨lines, line, rfl⟩ <;>
        simp [lineChars, List.getLast?_cons]
    · rw [List.concat_eq_append, ← List.append_assoc, List.getLast?_concat]
      exact fun h => hlast (by simp [Option.some.inj h])
  rw [closesLast_iff hpieces hfront hend (not_marked hbehind), marked_append_words hlast,
    marked_cons (by decide), marked_flatMap (by simp [lineChars])]
  simp only [marked_lineChars, not_exists, not_and]

/-- The same for a statement of which the last line closes the body. -/
theorem closesLast_unlines_iff {lines : List String} (k : Nat)
    (hopening : lines[k]? = some "    AS $$")
    (hclosing : (lines.drop (k + 1)).getLast? = some "$$" ∨
      (lines.drop (k + 1)).getLast? = some "$$;")
    (hheading : ∀ line ∈ lines.take k, Passes opening (lineChars line)) :
    ClosesLast (unlines lines) ↔
      ∀ line ∈ (lines.drop (k + 1)).dropLast, ¬ Marked line.toList := by
  obtain ⟨closing, behind, hlast, hmark, hbehind⟩ : ∃ closing behind,
      (lines.drop (k + 1)).getLast? = some closing ∧ closing.toList = mark ++ behind ∧
        '$' ∉ behind := by
    rcases hclosing with h | h
    · exact ⟨_, [], h, by decide, by decide⟩
    · exact ⟨_, [';'], h, by decide, by decide⟩
  have hlines : lines =
      (lines.take k ++ "    AS $$" :: (lines.drop (k + 1)).dropLast) ++ [closing] := by
    obtain ⟨hk, hline⟩ := List.getElem?_eq_some_iff.mp hopening
    rw [List.append_assoc, List.cons_append, List.dropLast_append_getLast? closing hlast, ← hline,
      List.getElem_cons_drop, List.take_append_drop]
  have htext : (unlines lines).toList = (lines.take k).flatMap lineChars ++
      (lineChars "    AS $$" ++
        ((lines.drop (k + 1)).dropLast.flatMap lineChars ++ ([] ++ (mark ++ behind)))) := by
    conv_lhs => rw [hlines, toList_unlines_concat, hmark]
    rw [List.flatMap_append, List.flatMap_cons, List.append_assoc, List.append_assoc,
      List.nil_append]
  exact closesLast_iff_of_lines htext (.flatMap hheading) List.not_mem_nil hbehind

/-! ## The functions of the state schema -/

/-- A search for a body passes by a line with a name in it. -/
theorem passes_naming (name : List Char) {front back : List Char}
    (hfront : avoids opening none front = true) (hback : avoids opening none back = true) :
    Passes opening (front ++ (identChars name ++ back)) :=
  .append (.of_avoids hfront) (.words (passes_identChars (by decide) _ name) hback)

set_option maxRecDepth 4000 in
/-- An expression for columns is not marked. -/
theorem not_marked_constraintColumns {relation keys : String} (hrelation : '$' ∉ relation.toList)
    (hkeys : '$' ∉ keys.toList) : ¬ Marked (constraintColumns relation keys).toList := by
  unfold constraintColumns
  simp (disch := first | assumption | apply notMem_toList_ofList; decide) only [toString,
    String.toList_append, List.append_assoc, marked_words_append, not_marked, not_false_eq_true]

/-- Nor is one for an action. -/
theorem not_marked_actionCase {column : String} (hcolumn : '$' ∉ column.toList) :
    ¬ Marked (actionCase column).toList := by
  unfold actionCase
  simp (disch := first | assumption | apply notMem_toList_ofList; decide) only [toString,
    String.toList_append, List.append_assoc, marked_words_append, not_marked, not_false_eq_true]

set_option maxRecDepth 4000 in
/-- So nothing is marked in the body of the function that describes a schema. -/
theorem closesLast_snapshotFunction (stateSchema : String) :
    ClosesLast (snapshotFunction stateSchema) := by
  refine (closesLast_unlines_iff 4 rfl (.inr rfl) ?_).mpr ?_
  · simp (disch := decide) only [List.take_succ_cons, List.take_zero,
      List.forall_mem_cons, lineChars, toString, String.toList_append, toList_quoteIdent,
      List.append_assoc, passes_naming, Passes.of_avoids, List.not_mem_nil, IsEmpty.forall_iff,
      implies_true, and_self]
  · simp (disch := apply notMem_toList_ofList; decide) only [List.drop_succ_cons,
      List.drop_zero, List.dropLast_cons_cons, List.dropLast_singleton, List.forall_mem_cons,
      toString, String.toList_append, List.append_assoc, marked_words_append, marked_append_words,
      not_marked_constraintColumns, not_marked_actionCase, not_marked, not_false_eq_true,
      List.not_mem_nil, IsEmpty.forall_iff, implies_true, and_self]

set_option maxRecDepth 4000 in
/-- In the bodies of the other functions nothing is marked but the state schema, which all of them
name. -/
theorem closesLast_stateFunction_iff (stateSchema : String) :
    ∀ statement ∈ captureFunction stateSchema :: createHelpers (quoteIdent stateSchema),
      (ClosesLast statement ↔ ¬ Marked stateSchema.toList) := by
  have hsetting : ¬ Marked suppressSetting.toList := by decide
  simp only [createHelpers, List.forall_mem_cons]
  refine ⟨(closesLast_unlines_iff 5 rfl (.inr rfl) ?_).trans ?_,
    (closesLast_unlines_iff 4 rfl (.inl rfl) ?_).trans ?_,
    (closesLast_unlines_iff 6 rfl (.inl rfl) ?_).trans ?_,
    (closesLast_unlines_iff 4 rfl (.inl rfl) ?_).trans ?_,
    (closesLast_unlines_iff 4 rfl (.inl rfl) ?_).trans ?_,
    (closesLast_unlines_iff 4 rfl (.inl rfl) ?_).trans ?_,
    (closesLast_unlines_iff 4 rfl (.inl rfl) ?_).trans ?_, List.forall_mem_nil _⟩
  -- before a body: a search passes by the words and names of each line
  any_goals
    simp (disch := decide) only [List.take_succ_cons, List.take_zero, List.forall_mem_cons,
      lineChars, toString, String.toList_append, toList_quoteIdent, List.append_assoc,
      passes_naming, Passes.of_avoids, List.not_mem_nil, IsEmpty.forall_iff, implies_true, and_self]
    done
  -- in a body: no mark is made by the words of a line, and what is left are the names
  all_goals
    simp (disch := apply notMem_toList_ofList; decide) only [List.drop_succ_cons,
      List.drop_zero, List.dropLast_cons_cons, List.dropLast_singleton, List.forall_mem_cons,
      toString, String.toList_append, toList_quoteIdent, toList_quoteLiteral, List.append_assoc,
      marked_words_append, marked_append_words, marked_identChars, marked_literalChars, hsetting,
      not_marked, not_false_eq_true, List.not_mem_nil, IsEmpty.forall_iff, implies_true, true_and,
      and_true, and_self]

/-- Whether a statement creates a function. -/
def CreatesFunction (statement : String) : Prop :=
  "CREATE OR REPLACE FUNCTION ".toList <+: statement.toList

instance (statement : String) : Decidable (CreatesFunction statement) :=
  inferInstanceAs (Decidable ("CREATE OR REPLACE FUNCTION ".toList <+: statement.toList))

theorem createsFunction_unlines (name signature line : String) (rest : List String) :
    CreatesFunction
      (unlines (("CREATE OR REPLACE FUNCTION " ++ name ++ signature) :: line :: rest)) := by
  rw [CreatesFunction, toList_unlines_cons, lineChars]
  simp only [String.toList_append, List.append_assoc]
  exact List.prefix_append ..

/-- The functions of the state schema are created. -/
theorem createsFunction_stateFunctions (stateSchema : String) :
    ∀ statement ∈ snapshotFunction stateSchema :: captureFunction stateSchema ::
      createHelpers (quoteIdent stateSchema), CreatesFunction statement := by
  simp only [createHelpers, List.forall_mem_cons]
  refine ⟨?_, ?_, ?_, ?_, ?_, ?_, ?_, ?_, List.forall_mem_nil _⟩
  all_goals exact createsFunction_unlines ..

theorem not_prefix_append {word words rest : List Char} (hword : ¬ word <+: words)
    (hwords : ¬ words <+: word) : ¬ word <+: words ++ rest := fun h =>
  (List.prefix_or_prefix_of_prefix h (List.prefix_append words rest)).elim hword hwords

/-- No other statement for a state schema creates a function. -/
theorem not_createsFunction (stateSchema : String) :
    ∀ statement ∈ createTables (quoteIdent stateSchema) ++ captureTriggers stateSchema ++
      dropCapture, ¬ CreatesFunction statement := by
  simp (disch := decide) only [createTables, captureTriggers, dropCapture, migrationsTable,
    versionsTable, List.forall_mem_append, List.forall_mem_cons, CreatesFunction, toString,
    String.toList_append, toList_unlines_cons, lineChars, List.append_assoc, not_prefix_append,
    not_false_eq_true, List.not_mem_nil, IsEmpty.forall_iff, implies_true, and_self]

/-- So what creates a function is one of them. -/
theorem mem_functions {stateSchema statement : String} {capture : Bool}
    (h : statement ∈ initStatements stateSchema capture) (hcreates : CreatesFunction statement) :
    statement = snapshotFunction stateSchema ∨
      statement ∈ captureFunction stateSchema :: createHelpers (quoteIdent stateSchema) := by
  have hother : ¬ statement ∈ createTables (quoteIdent stateSchema) ++ captureTriggers stateSchema ++
      dropCapture := fun hmem => not_createsFunction stateSchema statement hmem hcreates
  simp only [List.mem_append, not_or] at hother
  rw [initStatements, List.mem_append, List.mem_append, List.mem_append] at h
  rcases h with ((htables | hhelpers) | hsnapshot) | hcapture
  · exact absurd htables hother.1.1
  · exact .inr (.tail _ hhelpers)
  · exact .inl (List.mem_singleton.mp hsnapshot)
  · cases capture with
    | false => exact absurd hcapture hother.2
    | true =>
      rcases List.mem_cons.mp hcapture with rfl | htriggers
      · exact .inr (.head _)
      · exact absurd htriggers hother.1.2

end Sql

/-! ## The function of a sync trigger -/

namespace SyncTrigger.Config

variable (c : Config)

/-- The names and texts that are quoted in the body of a function. -/
def quotedInBody : List String :=
  c.columns.flatMap (fun column => [column.1, c.schemaName, c.tableName, column.2.name]) ++
    [c.latestSchema, c.physicalColumn, c.needsBackfillColumn]

/-! What is marked in a line are the names in it, or the expression. -/

theorem not_marked_declaration_iff (column : String × Column) :
    ¬ Marked (c.declaration column).toList ↔
      ∀ name ∈ [column.1, c.schemaName, c.tableName, column.2.name], ¬ Marked name.toList := by
  rw [declaration_eq, String.toList_append, toList_declared]
  simp (disch := apply notMem_toList_ofList; decide) only [marked_words_append,
    marked_append_words, marked_identChars, marked_identChars_append, or_self, not_or,
    List.forall_mem_cons, List.not_mem_nil, IsEmpty.forall_iff, implies_true, and_true]

theorem not_marked_condition_iff :
    ¬ Marked s!"      IF search_path {c.operator} {quoteLiteral c.latestSchema} THEN".toList ↔
      ¬ Marked c.latestSchema.toList := by
  have hoperator : '$' ∉ c.operator.toList := by
    rw [operator]
    cases c.direction.isUp <;> decide
  simp (disch := first | assumption | apply notMem_toList_ofList; decide) only [toString,
    String.toList_append, toList_quoteLiteral, List.append_assoc, marked_words_append,
    marked_append_words, marked_literalChars]

theorem not_marked_assignment_iff (a : Assignment) :
    ¬ Marked a.line.toList ↔ ¬ Marked a.column.toList ∧ ¬ Marked a.expression.toList := by
  rw [Assignment.line]
  simp (disch := apply notMem_toList_ofList; decide) only [String.toList_append,
    toList_quoteIdent, List.append_assoc, marked_words_append, marked_append_words,
    marked_identChars_append, not_or]

theorem not_marked_assignments_iff (h : c.defect? = none)
    (hexpressions : ∀ e ∈ c.expressions, ¬ Marked e.toList) :
    (∀ a ∈ c.assignments, ¬ Marked a.line.toList) ↔
      ¬ Marked c.physicalColumn.toList ∧ ¬ Marked c.needsBackfillColumn.toList := by
  have hfalse : ¬ Marked "false".toList := by decide
  obtain ⟨first, hfirst⟩ := List.exists_mem_of_ne_nil _ (c.expressions_ne_nil h)
  simp only [assignments, List.forall_mem_append, List.forall_mem_map, List.forall_mem_singleton,
    not_marked_assignment_iff]
  constructor
  · rintro ⟨hphysical, hmark, -⟩
    exact ⟨(hphysical first hfirst).1, hmark⟩
  · rintro ⟨hphysical, hmark⟩
    exact ⟨fun e he => ⟨hphysical, hexpressions e he⟩, hmark, hfalse⟩

/-- The function with the places at which its body is opened and closed. -/
theorem toList_functionLines_body :
    (unlines c.functionLines).toList = c.heading.flatMap lineChars ++ (lineChars "    AS $$" ++
      (("    DECLARE" :: (c.sortedColumns.map c.declaration ++ preparation ++
        s!"      IF search_path {c.operator} {quoteLiteral c.latestSchema} THEN" ::
          (c.assignments.map Assignment.line ++
            ["      END IF;", "", "      RETURN NEW;"]))).flatMap lineChars ++
      ("    END; ".toList ++ (mark ++ ['\n'])))) := by
  have hclosing : lineChars "    END; $$" = "    END; ".toList ++ (mark ++ ['\n']) := by decide
  rw [functionLines_eq, linesBefore_eq, toList_unlines_concat, ← hclosing]
  simp

/-- A body goes up to the last mark exactly if no name in it is marked. -/
theorem closesLast_iff (h : c.defect? = none)
    (hexpressions : ∀ e ∈ c.expressions, ¬ Marked e.toList) :
    ClosesLast (unlines c.functionLines) ↔ ∀ name ∈ c.quotedInBody, ¬ Marked name.toList := by
  have hheading : Passes Sql.opening (c.heading.flatMap lineChars) :=
    c.passes_heading (by decide) (by decide) (by decide)
  rw [closesLast_iff_of_lines c.toList_functionLines_body hheading (by decide) (by decide),
    quotedInBody]
  simp (disch := apply notMem_toList_ofList; decide) only [preparation,
    List.forall_mem_append, List.forall_mem_cons, List.forall_mem_map, List.forall_mem_flatMap,
    not_marked_declaration_iff, mem_sortedColumns, not_marked_condition_iff,
    c.not_marked_assignments_iff h hexpressions, not_marked, not_false_eq_true, List.not_mem_nil,
    IsEmpty.forall_iff, implies_true, true_and, and_true]

end SyncTrigger.Config

/-! ## All functions -/

/-- **A body goes up to the last mark exactly if no name in it is marked.** A configuration for which
a function is created, with expressions that are not marked, gives a function whose body is closed by
the last mark exactly if no name that is quoted in the body contains two dollar signs in a row. The
name of the function itself is not among them. Of the functions of a state schema, the one that
describes a schema always has such a body, and each other one has it exactly if the name of the state
schema is not marked. -/
theorem bodies_close_last_iff (c : Config) (stateSchema : String) (capture : Bool) :
    (∀ text, c.functionText = .ok text → (∀ e ∈ c.expressions, ¬ Marked e.toList) →
      (ClosesLast text ↔ ∀ name ∈ c.quotedInBody, ¬ Marked name.toList)) ∧
    ∀ statement ∈ initStatements stateSchema capture, CreatesFunction statement →
      (ClosesLast statement ↔
        statement = snapshotFunction stateSchema ∨ ¬ Marked stateSchema.toList) := by
  constructor
  · intro text htext hexpressions
    obtain ⟨haccepted, rfl⟩ := Config.functionText_ok htext
    exact c.closesLast_iff haccepted hexpressions
  · intro statement hmem hcreates
    have hdescribing := closesLast_snapshotFunction stateSchema
    rcases mem_functions hmem hcreates with rfl | hother
    · exact iff_of_true hdescribing (.inl rfl)
    · have hiff := closesLast_stateFunction_iff stateSchema statement hother
      rw [hiff]
      constructor
      · exact .inr
      · rintro (rfl | hunmarked)
        · exact hiff.mp hdescribing
        · exact hunmarked

/-- A column with two dollar signs in its name: the body ends in the middle of the declaration. -/
theorem body_closed_by_column :
    ¬ ∀ (c : Config) (text : String), c.functionText = .ok text →
      (∀ e ∈ c.expressions, ¬ Marked e.toList) → ClosesLast text := by
  intro h
  let c : Config :=
    { name := "up", tableName := "reviews", physicalColumn := "price", latestSchema := "public_2"
      columns := [("price", ⟨"price$$", "int"⟩)], expressions := ["price * 100"] }
  have haccepted : c.defect? = none := by decide +kernel
  have hexpressions : ∀ e ∈ c.expressions, ¬ Marked e.toList := by decide +kernel
  have hcloses := h c _ (Config.functionText_of_accepted haccepted) hexpressions
  have hnames := (c.closesLast_iff haccepted hexpressions).mp hcloses
  exact hnames "price$$" (by decide) (by decide)

/-- Dollar signs at the ends of names that stand side by side make no mark, and two in a row in the
name of a function are outside of its body. The function that describes a schema is safe even from
two in the name of the state schema. -/
theorem bodies_close_last_of_dollar_signs :
    let c : Config :=
      { name := "up$$", tableName := "$reviews$", schemaName := "$app$", physicalColumn := "$price$"
        latestSchema := "app_$2", columns := [("$price$", ⟨"$price$", "int"⟩)]
        expressions := ["price * 100"] }
    (∃ text, c.functionText = .ok text ∧ ClosesLast text) ∧
    (captureFunction "$roll$" ∈ initStatements "$roll$" true ∧
      ClosesLast (captureFunction "$roll$")) ∧
    (snapshotFunction "pg$$roll" ∈ initStatements "pg$$roll" false ∧
      ClosesLast (snapshotFunction "pg$$roll")) := by
  intro c
  obtain ⟨hconfig, hcaptured⟩ := bodies_close_last_iff c "$roll$" true
  obtain ⟨-, hdescribed⟩ := bodies_close_last_iff c "pg$$roll" false
  have htext : c.functionText = .ok (unlines c.functionLines) :=
    Config.functionText_of_accepted (by decide +kernel)
  have hcapture : captureFunction "$roll$" ∈ initStatements "$roll$" true := by
    simp [initStatements, installCapture]
  have hsnapshot : snapshotFunction "pg$$roll" ∈ initStatements "pg$$roll" false := by
    simp [initStatements]
  have hcreates := createsFunction_stateFunctions
  refine ⟨⟨_, htext, (hconfig _ htext ?_).mpr ?_⟩, ⟨hcapture, ?_⟩, hsnapshot, ?_⟩
  · decide +kernel
  · decide +kernel
  · exact (hcaptured _ hcapture (hcreates _ _ (.tail _ (.head _)))).mpr (.inr (by decide))
  · exact (hdescribed _ hsnapshot (hcreates _ _ (.head _))).mpr (.inl rfl)

end SchemaLedger
