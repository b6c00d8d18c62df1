import Mathlib.Data.List.Nodup
import SchemaLedger.Proofs.SyncTrigger.FunctionText
import SchemaLedger.Proofs.SyncTrigger.Installation

/-!
# The variables of a function

A function declares a variable for each column that the expressions may use, and two of its own. The
database creates no function that declares a name twice. This file reads the declarations back from
the text of a function, as the database does: each of them begins with a name, in quotes or as a
word, and ends with a semicolon, and a word ends the section (`declarations?`). Names may read like
declarations or like that word, but in their quotes they are passed by
(`Config.declarations?_declaration`). So what is declared is told by the columns alone
(`Config.variables?_functionLines`).

The two names of its own may also be those of columns. Then a name is declared twice, and nothing
rejects such a configuration before the statement is executed (`variables_distinct_iff`).
-/

namespace SchemaLedger.SyncTrigger

open Sql

/-! ## Reading declarations -/

/-- The word at the beginning of a text. Without quotes, capital letters are read as small ones. -/
def firstWord (cs : List Char) : String :=
  .ofList ((cs.takeWhile fun c => c.isAlphanum || c = '_').map Char.toLower)

/-- The name at the beginning of a text, in quotes or as a word. -/
def firstName? (cs : List Char) : Option String :=
  match readIdent? cs with
  | some (name, _) => some (.ofList name)
  | none => if firstWord cs = "" then none else some (firstWord cs)

/-- Behind a word there is less. -/
theorem length_behind?_lt {word cs rest : List Char} {quote : Option Char} (hword : word ≠ [])
    (h : behind? word quote cs = some rest) : rest.length < cs.length := by
  induction cs generalizing quote with
  | nil => cases quote <;> nomatch h
  | cons c cs ih =>
    cases quote with
    | some q => exact Nat.lt_succ_of_lt (ih h)
    | none =>
      rw [behind?] at h
      split at h
      next =>
        obtain rfl := Option.some.inj h
        have := List.length_pos_of_ne_nil hword
        rw [List.length_drop, List.length_cons]
        omega
      next => exact Nat.lt_succ_of_lt (ih h)

/-- The names of the declarations in a text, up to the word that ends them. -/
def declarations? (cs : List Char) : Option (List String) :=
  let declaration := cs.dropWhile Char.isWhitespace
  if firstWord declaration = "begin" then some []
  else
    match firstName? declaration, _h : behind? [';'] none cs with
    | some name, some rest => (declarations? rest).map (name :: ·)
    | _, _ => none
termination_by cs.length
decreasing_by exact length_behind?_lt (by decide) _h

/-- The variables that a function declares. -/
def variables? (text : String) : Option (List String) :=
  (behind? "DECLARE".toList none text.toList).bind declarations?

/-- The word that ends the section. -/
theorem declarations?_of_begin {cs : List Char}
    (h : firstWord (cs.dropWhile Char.isWhitespace) = "begin") : declarations? cs = some [] := by
  rw [declarations?, if_pos h]

/-- A declaration with the blanks before it and the semicolon behind it. -/
theorem declarations?_cons {blanks declaration rest : List Char} {name : String}
    (hblanks : blanks.all Char.isWhitespace = true)
    (hbegin : (declaration ++ ';' :: rest).dropWhile Char.isWhitespace = declaration ++ ';' :: rest)
    (hpasses : Passes [';'] (blanks ++ declaration))
    (hword : firstWord (declaration ++ ';' :: rest) ≠ "begin")
    (hname : firstName? (declaration ++ ';' :: rest) = some name) :
    declarations? (blanks ++ (declaration ++ ';' :: rest)) =
      (declarations? rest).map (name :: ·) := by
  have hrest : behind? [';'] none (blanks ++ (declaration ++ ';' :: rest)) = some rest := by
    rw [← List.append_assoc, hpasses]
    exact behind?_word (by decide) rest
  rw [declarations?, List.dropWhile_append_of_pos (List.all_eq_true.mp hblanks),
    hbegin, if_neg hword]
  split
  next name' rest' hname' hrest' =>
    obtain rfl := Option.some.inj (hname'.symm.trans hname)
    obtain rfl := Option.some.inj (hrest'.symm.trans hrest)
    rfl
  next hnone => exact absurd hrest (hnone name rest hname)

/-! ## The declarations of a function -/

namespace Config

variable (c : Config)

/-- What is declared for a column is its logical name. -/
theorem declarations?_declaration (column : String × Column) (rest : List Char) :
    declarations? ('\n' :: ((c.declaration column).toList ++ rest)) =
      (declarations? rest).map (column.1 :: ·) := by
  have hpasses : Passes [';'] (['\n'] ++ (c.declared column).toList) :=
    .append (.of_avoids (by decide)) (c.passes_declared (by decide) _ column)
  obtain ⟨type, htype⟩ : ∃ type, (c.declared column).toList =
      "      ".toList ++ (identChars column.1.toList ++ ' ' :: type) := by
    rw [toList_declared, show " ".toList = [' '] by decide]
    exact ⟨_, rfl⟩
  have htext : '\n' :: ((c.declaration column).toList ++ rest) = ('\n' :: "      ".toList) ++
      (identChars column.1.toList ++ ' ' :: type ++ ';' :: rest) := by
    rw [declaration_eq, String.toList_append, htype]
    simp only [List.append_assoc, List.cons_append]
    rfl
  have hname : firstName? (identChars column.1.toList ++ ' ' :: type ++ ';' :: rest) =
      some column.1 := by
    rw [List.append_assoc, firstName?, readIdent?_identChars _ (by simp)]
    exact congrArg some String.ofList_toList
  have hword : firstWord (identChars column.1.toList ++ ' ' :: type ++ ';' :: rest) = "" := rfl
  rw [htext]
  refine declarations?_cons (by decide) rfl ?_ (ne_of_eq_of_ne hword (by decide)) hname
  rwa [htype, ← List.append_assoc] at hpasses

/-- For all columns, these are their logical names in order. -/
theorem declarations?_columns (columns : List (String × Column)) (rest : List Char) :
    declarations? ('\n' :: (columns.flatMap (lineChars <| c.declaration ·) ++ rest)) =
      (declarations? ('\n' :: rest)).map (columns.map (·.1) ++ ·) := by
  induction columns with
  | nil => simp
  | cons column columns ih =>
    rw [List.flatMap_cons, lineChars, List.append_assoc, List.append_assoc,
      declarations?_declaration, List.singleton_append, ih, Option.map_map]
    rfl

/-- Behind the columns two more variables are declared, and then the section ends. -/
theorem declarations?_preparation (rest : List Char) :
    declarations? ('\n' :: (preparation.flatMap lineChars ++ rest)) =
      some ["latest_schema", "search_path"] := by
  let lines := ["      latest_schema text;", "      search_path text;", "    BEGIN"]
  have hlines : '\n' :: lines.flatMap lineChars =
      "\n      ".toList ++ ("latest_schema text".toList ++ ';' ::
        ("\n      ".toList ++ ("search_path text".toList ++ ';' :: "\n    BEGIN\n".toList))) := by
    decide +kernel
  have hsplit : preparation = lines ++ preparation.drop 3 := rfl
  have hlatest : ∀ more, firstWord ("latest_schema text".toList ++ ';' :: more) = "latest_schema" :=
    fun _ => rfl
  have hpath : ∀ more, firstWord ("search_path text".toList ++ ';' :: more) = "search_path" :=
    fun _ => rfl
  have hend : ∀ more, declarations? ("\n    BEGIN\n".toList ++ more) = some [] :=
    fun _ => declarations?_of_begin rfl
  rw [hsplit, List.flatMap_append, List.append_assoc, ← List.cons_append, hlines]
  simp only [List.append_assoc, List.cons_append]
  rw [declarations?_cons (by decide) rfl (.of_avoids (by decide))
      (ne_of_eq_of_ne (hlatest _) (by decide)) (show firstName? _ = some "latest_schema" from rfl),
    declarations?_cons (by decide) rfl (.of_avoids (by decide))
      (ne_of_eq_of_ne (hpath _) (by decide)) (show firstName? _ = some "search_path" from rfl), hend]
  rfl

/-- What is declared in the text of a function. -/
theorem variables?_functionLines :
    variables? (unlines c.functionLines) =
      some (c.sortedColumns.map (·.1) ++ ["latest_schema", "search_path"]) := by
  obtain ⟨behind, htext⟩ := c.exists_toList_functionLines
  have hheading : Passes "DECLARE".toList
      (c.heading.flatMap lineChars ++ "    AS $$\n    ".toList) :=
    .words (c.passes_heading (by decide) (by decide) (by decide)) (by decide)
  have hdeclare : lineChars "    AS $$" ++ lineChars "    DECLARE" =
      "    AS $$\n    ".toList ++ ("DECLARE".toList ++ ['\n']) := by decide
  have hpieces : (unlines c.functionLines).toList =
      c.heading.flatMap lineChars ++ "    AS $$\n    ".toList ++ ("DECLARE".toList ++
        ('\n' :: (c.sortedColumns.flatMap (lineChars <| c.declaration ·) ++
          (preparation.flatMap lineChars ++ behind)))) := by
    rw [htext, ← List.append_assoc (lineChars "    AS $$"), hdeclare]
    simp only [List.append_assoc, List.cons_append, List.nil_append]
  rw [variables?, hpieces, hheading, behind?_word (by decide), Option.bind_some,
    declarations?_columns, declarations?_preparation]
  rfl

end Config

/-- **The variables are distinct exactly if no column is named like one of the last two.** From the
text of a function the names of its variables can be read back: the logical names of the columns in
their order, and then two that each function declares. They are distinct exactly if the logical names
are and none of them is one of the two. But a configuration is never rejected for its columns. If it
is accepted, so it is with any other columns, and what an installation then ends with is not that the
configuration lacks something. -/
theorem variables_distinct_iff {c : Config} {text : String} (h : c.functionText = .ok text) :
    (∃ names, variables? text = some names ∧
      names = c.sortedColumns.map (·.1) ++ ["latest_schema", "search_path"] ∧
      (names.Nodup ↔ (c.columns.map (·.1)).Nodup ∧
        ∀ name ∈ ["latest_schema", "search_path"], name ∉ c.columns.map (·.1))) ∧
    ∀ columns, (∃ text', { c with columns }.functionText = .ok text') ∧
      ∀ s e, (install { c with columns } s).1 ≠ .error (.rejected e) := by
  obtain ⟨haccepted, rfl⟩ := Config.functionText_ok h
  refine ⟨⟨_, c.variables?_functionLines, rfl, ?_⟩, fun columns => ?_⟩
  · have hnames : (c.sortedColumns.map (·.1)).Perm (c.columns.map (·.1)) :=
      (List.mergeSort_perm ..).map _
    have hlast : ["latest_schema", "search_path"].Nodup := by decide
    rw [(hnames.append_right _).nodup_iff, List.nodup_append', List.disjoint_comm]
    exact and_congr_right' (and_iff_right hlast)
  · let c' : Config := { c with columns }
    have htext : c'.functionText = .ok (unlines c'.functionLines) :=
      Config.functionText_of_accepted haccepted
    refine ⟨⟨_, htext⟩, fun s e => ?_⟩
    rw [install, installIn_of_accepted htext, Attempt.widen_apply]
    cases (place c'.schemaName _ _ s).1 with
    | error f => simp [Except.mapError]
    | ok _ => simp [Except.mapError]

/-- A column that is named like the search path: the function declares this name twice. -/
theorem search_path_declared_twice :
    ¬ ∀ (c : Config) (text : String), c.functionText = .ok text →
      ∃ names, variables? text = some names ∧ names.Nodup := by
  intro h
  let c : Config :=
    { name := "up", tableName := "settings", physicalColumn := "path", latestSchema := "public_2"
      columns := [("search_path", ⟨"path", "text"⟩)], expressions := ["lower(path)"] }
  have htext : c.functionText = .ok (unlines c.functionLines) :=
    Config.functionText_of_accepted (by decide +kernel)
  obtain ⟨names, hnames, hnodup⟩ := h c _ htext
  obtain rfl := Option.some.inj (hnames.symm.trans c.variables?_functionLines)
  rw [Config.sortedColumns] at hnodup
  simp [c] at hnodup

/-- A column that is named like the word that ends the declarations, and one whose name reads like a
declaration of its own. -/
theorem variables_distinct_of_odd_names :
    let c : Config :=
      { name := "up", tableName := "settings", physicalColumn := "path", latestSchema := "public_2"
        columns := [("BEGIN", ⟨"start", "int"⟩), ("x\" int; search_path", ⟨"path", "text"⟩)]
        expressions := ["lower(path)"] }
    ∃ text names, c.functionText = .ok text ∧ variables? text = some names ∧ names.Nodup ∧
      "BEGIN" ∈ names ∧ "x\" int; search_path" ∈ names := by
  intro c
  have htext : c.functionText = .ok (unlines c.functionLines) :=
    Config.functionText_of_accepted (by decide +kernel)
  obtain ⟨⟨names, hread, hnames, hdistinct⟩, -⟩ := variables_distinct_iff htext
  have hmem : ∀ column ∈ c.columns, column.1 ∈ names := fun column hcolumn =>
    hnames ▸ List.mem_append_left _ (List.mem_map_of_mem (c.mem_sortedColumns.mpr hcolumn))
  refine ⟨_, names, htext, hread, hdistinct.mpr (by decide), ?_⟩
  exact ⟨hmem _ (.head _), hmem _ (.tail _ (.head _))⟩

end SchemaLedger.SyncTrigger
