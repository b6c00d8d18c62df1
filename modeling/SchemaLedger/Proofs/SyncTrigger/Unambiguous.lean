import Mathlib.Data.List.Nodup
import SchemaLedger.Proofs.SyncTrigger.FunctionText

/-!
# Configurations with the same function

Many names go into the text of a function, and any of them may contain quotes, ends of lines or what
else the text is made of. Still none of them can be read as another part. A quoted name is told from
what follows by its quotes (`Sql.identChars_append_inj`), so a declaration tells the names in it, and
the declarations of all columns are told from the lines behind them by their first letter
(`Config.declarations_inj`). The rest is told by the condition and the assignments
(`Config.conditional_inj`, `Config.assignments_inj`).

The other way round, no name is listed twice, so that there is one order of the columns by their
logical names (`Config.map_sortedColumns_eq`), and a declaration does not depend on the type of its
column (`Config.map_declaration_eq`). Hence two functions are the same exactly if the configurations
agree in all but the order and the types of the columns (`same_text_iff`).
-/

namespace SchemaLedger.SyncTrigger

open Sql

namespace Config

variable {c c' : Config}

/-- The logical name of a column with the name of the physical one behind it. -/
def source (column : String × Column) : String × String := (column.1, column.2.name)

/-- The names of all columns. -/
def sources (c : Config) : List (String × String) := c.columns.map source

/-! ## From the text to the configuration -/

theorem declaration_append_inj {column column' : String × Column} {rest rest' : List Char}
    (h : lineChars (c.declaration column) ++ rest = lineChars (c'.declaration column') ++ rest') :
    source column = source column' ∧ c.schemaName = c'.schemaName ∧
      c.tableName = c'.tableName ∧ rest = rest' := by
  simp only [lineChars, declaration_eq, String.toList_append, toList_declared,
    List.append_assoc] at h
  obtain ⟨hlogical, h⟩ := identChars_append_inj (by decide) (by decide) (List.append_cancel_left h)
  obtain ⟨hschema, h⟩ := identChars_append_inj (by decide) (by decide) h
  obtain ⟨htable, h⟩ := identChars_append_inj (by decide) (by decide) h
  obtain ⟨hphysical, h⟩ := identChars_append_inj (by decide) (by decide) h
  obtain ⟨-, h⟩ := identChars_append_inj (by decide) (by decide) h
  exact ⟨Prod.ext (String.toList_inj.mp hlogical) (String.toList_inj.mp hphysical),
    String.toList_inj.mp hschema, String.toList_inj.mp htable, List.append_cancel_left h⟩

/-- Behind the blanks of its line a declaration begins with a quote, and what follows the declarations
begins with a letter. -/
theorem declaration_append_ne {column : String × Column} {rest rest' : List Char} :
    lineChars (c.declaration column) ++ rest ≠ preparation.flatMap lineChars ++ rest' := by
  intro h
  have hname : ∀ more, (("      ".toList ++ (identChars column.1.toList ++ more)).drop 6).head? =
      some '"' := fun _ => rfl
  have hletter : ((preparation.flatMap lineChars ++ rest').drop 6).head? = some 'l' := rfl
  rw [← h, lineChars, declaration_eq, String.toList_append, toList_declared] at hletter
  simp only [List.append_assoc, hname] at hletter
  exact absurd hletter (by decide)

/-- The declarations of the columns tell their names, and if there are any, also the table. -/
theorem declarations_inj {columns columns' : List (String × Column)} {rest rest' : List Char}
    (h : columns.flatMap (lineChars <| c.declaration ·) ++ (preparation.flatMap lineChars ++ rest) =
      columns'.flatMap (lineChars <| c'.declaration ·) ++ (preparation.flatMap lineChars ++ rest')) :
    columns.map source = columns'.map source ∧
      (columns ≠ [] → c.schemaName = c'.schemaName ∧ c.tableName = c'.tableName) := by
  induction columns generalizing columns' with
  | nil =>
    cases columns' with
    | nil => exact ⟨rfl, nofun⟩
    | cons column' columns' =>
      rw [List.flatMap_cons, List.append_assoc] at h
      exact absurd h.symm declaration_append_ne
  | cons column columns ih =>
    cases columns' with
    | nil =>
      rw [List.flatMap_cons, List.append_assoc] at h
      exact absurd h declaration_append_ne
    | cons column' columns' =>
      rw [List.flatMap_cons, List.flatMap_cons, List.append_assoc, List.append_assoc] at h
      obtain ⟨hnames, hschema, htable, hrest⟩ := declaration_append_inj h
      rw [List.map_cons, List.map_cons, hnames, (ih hrest).1]
      exact ⟨rfl, fun _ => ⟨hschema, htable⟩⟩

/-- The assignments of the same expressions tell both of the columns that they fill. -/
theorem assignments_inj (hexpressions : c.expressions = c'.expressions) (hne : c.expressions ≠ [])
    (h : c.assignments.flatMap (lineChars ·.line) = c'.assignments.flatMap (lineChars ·.line)) :
    c.physicalColumn = c'.physicalColumn ∧ c.needsBackfillColumn = c'.needsBackfillColumn := by
  have hcolumn : ∀ {a a' : Assignment} {rest rest' : List Char},
      lineChars a.line ++ rest = lineChars a'.line ++ rest' → a.column = a'.column := by
    intro a a' rest rest' hlines
    simp only [lineChars, Assignment.line, String.toList_append, toList_quoteIdent,
      List.append_assoc] at hlines
    obtain ⟨hname, -⟩ := identChars_append_inj (by decide) (by decide)
      (List.append_cancel_left hlines)
    exact String.toList_inj.mp hname
  obtain ⟨e, es, he⟩ := List.exists_cons_of_ne_nil hne
  rw [assignments, assignments, ← hexpressions] at h
  have hphysical : c.physicalColumn = c'.physicalColumn := by
    rw [he] at h
    simp only [List.map_cons, List.cons_append, List.flatMap_cons] at h
    exact hcolumn h
  rw [hphysical, List.flatMap_append, List.flatMap_append] at h
  exact ⟨hphysical, hcolumn (List.append_cancel_left h)⟩

/-- An accepted direction is told by whether values are carried up. -/
theorem direction_eq (h : c.defect? = none) :
    c.direction = if c.direction.isUp then .up else .down := by
  have hknown : c.unknownDirection? = none := by
    rw [defect?, triggerDefect?_of_defect? h] at h
    cases hunknown : c.unknownDirection? with
    | none => rfl
    | some said => simp [hunknown] at h
  cases hdirection : c.direction with
  | up => rfl
  | down => rfl
  | unknown said => simp [unknownDirection?, hdirection] at hknown

/-- Texts that are equal agree in what stands before the condition. -/
theorem front_inj (h : unlines c.functionLines = unlines c'.functionLines)
    (hcolumns : c.columns ≠ []) :
    c.name = c'.name ∧ c.schemaName = c'.schemaName ∧ c.tableName = c'.tableName ∧
      c.sortedColumns.map source = c'.sortedColumns.map source := by
  obtain ⟨behind, hfront⟩ := c.exists_toList_functionLines
  obtain ⟨behind', hfront'⟩ := c'.exists_toList_functionLines
  rw [h, hfront', toList_heading, toList_heading] at hfront
  simp only [List.append_assoc] at hfront
  obtain ⟨hname, hbody⟩ := identChars_append_inj (by decide) (by decide)
    (List.append_cancel_left hfront)
  obtain ⟨hsources, htable⟩ := declarations_inj
    (List.append_cancel_left (List.append_cancel_left hbody.symm))
  have hsorted : c.sortedColumns ≠ [] := fun hnil =>
    hcolumns ((List.nil_perm.mp (hnil ▸ List.mergeSort_perm ..)))
  exact ⟨(String.toList_inj.mp hname).symm, (htable hsorted).1, (htable hsorted).2, hsources⟩

/-- And they agree in the condition and the statements behind it. -/
theorem conditional_inj (h : unlines c.functionLines = unlines c'.functionLines) :
    c.direction.isUp = c'.direction.isUp ∧ c.latestSchema = c'.latestSchema ∧
      c.assignments.flatMap (lineChars ·.line) = c'.assignments.flatMap (lineChars ·.line) := by
  have hread := congrArg Conditional.ofText? h
  rw [ofText?_functionLines, ofText?_functionLines] at hread
  obtain ⟨hcomparison, hlatest, hstatements⟩ := Conditional.mk.inj (Option.some.inj hread)
  refine ⟨?_, hlatest, ?_⟩
  · rw [comparison, comparison] at hcomparison
    cases hup : c.direction.isUp <;> cases hup' : c'.direction.isUp <;>
      simp [hup, hup'] at hcomparison ⊢
  · have hchars := congrArg String.toList hstatements
    rwa [String.toList_ofList, String.toList_ofList] at hchars

/-! ## From the configuration to the text -/

theorem sources_perm (c : Config) : (c.sortedColumns.map source).Perm c.sources :=
  (List.mergeSort_perm ..).map _

/-- The columns are in the order of their logical names. -/
theorem pairwise_sortedColumns (c : Config) : c.sortedColumns.Pairwise (·.1 ≤ ·.1) := by
  have h := @List.pairwise_mergeSort (String × Column) (fun a b => decide (a.1 ≤ b.1))
    (fun a b c hab hbc => decide_eq_true
      (String.le_trans (of_decide_eq_true hab) (of_decide_eq_true hbc)))
    (fun a b => by simp [String.le_total]) c.columns
  exact h.imp of_decide_eq_true

/-- Logical names of which none is listed twice come in one order only. -/
theorem map_sortedColumns_eq (hnodup : (c.columns.map (·.1)).Nodup)
    (h : c.sources.Perm c'.sources) : c.sortedColumns.map source = c'.sortedColumns.map source := by
  have hsorted : ∀ d : Config, (d.sortedColumns.map source).Pairwise (·.1 ≤ ·.1) := fun d =>
    List.pairwise_map.mpr d.pairwise_sortedColumns
  have hperm := c.sources_perm.trans (h.trans c'.sources_perm.symm)
  refine List.Perm.eq_of_pairwise ?_ (hsorted c) (hsorted c') hperm
  intro s s' hs hs' hle hge
  have hnames : (c.sources.map (·.1)).Nodup := by rwa [sources, List.map_map]
  exact List.inj_on_of_nodup_map hnames (c.sources_perm.mem_iff.mp hs)
    (c.sources_perm.mem_iff.mp (hperm.mem_iff.mpr hs')) (String.le_antisymm hle hge)

theorem nodup_sources (h : (c.columns.map (·.1)).Nodup) : c.sources.Nodup := by
  refine List.Nodup.of_map (·.1) ?_
  rwa [sources, List.map_map]

/-- A declaration does not depend on the type of the column. -/
theorem map_declaration_eq (hschema : c.schemaName = c'.schemaName)
    (htable : c.tableName = c'.tableName)
    (h : c.sortedColumns.map source = c'.sortedColumns.map source) :
    c.sortedColumns.map c.declaration = c'.sortedColumns.map c'.declaration := by
  have hdeclaration : ∀ d : Config, d.schemaName = c.schemaName → d.tableName = c.tableName →
      d.sortedColumns.map d.declaration =
        (d.sortedColumns.map source).map fun s => c.declaration (s.1, ⟨s.2, ""⟩) := by
    intro d hd hd'
    rw [List.map_map]
    refine List.map_congr_left fun column _ => ?_
    rw [declaration, hd, hd']
    rfl
  rw [hdeclaration c rfl rfl, hdeclaration c' hschema.symm htable.symm, h]

end Config

/-- **The text of a function is unambiguous.** Two accepted configurations with the same expressions,
in which no logical name is listed twice, have the same function exactly if they agree in the names,
the direction and the version schema, and in which physical column stands behind which logical name.
Neither the order in which the columns are given nor their types make a difference, and no name can be
chosen such that it is read as another part. If there are no columns, the table is not named. -/
theorem same_text_iff {c c' : Config} {text text' : String} (h : c.functionText = .ok text)
    (h' : c'.functionText = .ok text') (hnodup : (c.columns.map (·.1)).Nodup)
    (hnodup' : (c'.columns.map (·.1)).Nodup) (hcolumns : c.columns ≠ [])
    (hexpressions : c.expressions = c'.expressions) :
    text = text' ↔
      c.name = c'.name ∧ c.schemaName = c'.schemaName ∧ c.tableName = c'.tableName ∧
      c.direction = c'.direction ∧ c.physicalColumn = c'.physicalColumn ∧
      c.needsBackfillColumn = c'.needsBackfillColumn ∧ c.latestSchema = c'.latestSchema ∧
      ∀ s, s ∈ c.sources ↔ s ∈ c'.sources := by
  obtain ⟨haccepted, rfl⟩ := Config.functionText_ok h
  obtain ⟨haccepted', rfl⟩ := Config.functionText_ok h'
  constructor
  · intro htext
    obtain ⟨hname, hschema, htable, hsources⟩ := Config.front_inj htext hcolumns
    obtain ⟨hup, hlatest, hassignments⟩ := Config.conditional_inj htext
    obtain ⟨hphysical, hmark⟩ := Config.assignments_inj hexpressions
      (c.expressions_ne_nil haccepted) hassignments
    have hdirection : c.direction = c'.direction := by
      rw [Config.direction_eq haccepted, Config.direction_eq haccepted', hup]
    refine ⟨hname, hschema, htable, hdirection, hphysical, hmark, hlatest, fun s => ?_⟩
    rw [← c.sources_perm.mem_iff, hsources, c'.sources_perm.mem_iff]
  · rintro ⟨hname, hschema, htable, hdirection, hphysical, hmark, hlatest, hsources⟩
    have hperm : c.sources.Perm c'.sources :=
      (List.perm_ext_iff_of_nodup (Config.nodup_sources hnodup)
        (Config.nodup_sources hnodup')).mpr hsources
    have hdeclarations := Config.map_declaration_eq hschema htable
      (Config.map_sortedColumns_eq hnodup hperm)
    have hoperator : c.operator = c'.operator := by
      rw [Config.operator, Config.operator, hdirection]
    have hassignment : c.assignment = c'.assignment := by
      funext e
      rw [Config.assignment, Config.assignment, hphysical]
    rw [Config.functionLines, Config.functionLines, hname, hdeclarations, hoperator, hlatest,
      hexpressions, hassignment, hmark]

/-- Columns in another order and with other types give the same function. A quote that is moved from
the name of the table to that of the schema gives another one. -/
theorem same_text_iff_of_odd_names :
    let c : Config :=
      { name := "up\"()\n    AS $$", schemaName := "app", tableName := "new\".\"reviews"
        physicalColumn := "re\"view", latestSchema := "it's\\2"
        columns := [("a", ⟨"stars", "int"⟩), ("b\" int;\n      latest_schema", ⟨"text", "text"⟩)]
        expressions := ["a || ''"] }
    let permuted : Config :=
      { c with columns := [("b\" int;\n      latest_schema", ⟨"text", ""⟩), ("a", ⟨"stars", "x"⟩)] }
    let moved : Config := { c with schemaName := "app\".\"new", tableName := "reviews" }
    ∃ text text', c.functionText = .ok text ∧ permuted.functionText = .ok text ∧
      moved.functionText = .ok text' ∧ text ≠ text' := by
  intro c permuted moved
  have haccepted : c.defect? = none ∧ permuted.defect? = none ∧ moved.defect? = none := by
    decide +kernel
  have hc := Config.functionText_of_accepted haccepted.1
  have hpermuted := Config.functionText_of_accepted haccepted.2.1
  have hmoved := Config.functionText_of_accepted haccepted.2.2
  have hsame : unlines c.functionLines = unlines permuted.functionLines := by
    refine (same_text_iff hc hpermuted (by decide) (by decide) (by decide) rfl).mpr
      ⟨rfl, rfl, rfl, rfl, rfl, rfl, rfl, fun s => ?_⟩
    exact (List.Perm.swap _ _ []).mem_iff
  refine ⟨_, _, hc, hsame ▸ hpermuted, hmoved, fun heq => ?_⟩
  obtain ⟨-, hschema, -⟩ :=
    (same_text_iff hc hmoved (by decide) (by decide) (by decide) rfl).mp heq
  exact absurd hschema (by decide)

end SchemaLedger.SyncTrigger
