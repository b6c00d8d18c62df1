import SchemaLedger.Backfill.Sweep
import SchemaLedger.Proofs.Sql.Parameter

/-!
# The parameters of a sweep

A sweep hands each statement over with the parameters that it needs, and the parameters are found
again in the text. What a statement names and what is passed with it come from different places: the
names stand in the text for as many columns as the key has, and the values are those of the row that
the batch before ended with.

The names that are passed are told by `Parameters.names_none` and `Parameters.names_some`. In the text
of a statement these stand (`Target.mem_parameters_batchText`), once for each column of the key, and
others besides, since the text has the names of the schema, the table and the columns in it, and a
quoted name may have a colon. A run executes one statement for the first batch and others behind rows
that it was answered with (`statementsOf_run`), so what is named and what is passed differ by what
those names bring along, and by nothing else (`parameters_agree_iff`).
-/

namespace SchemaLedger.Backfill

open Sql

namespace Target

variable (t : Target)

theorem toList_keyParameter (i : Nat) :
    (keyParameter i).toList = ['p', 'k', '_'] ++ Nat.toDigits 10 i := by
  rw [keyParameter, String.toList_append]
  exact congrArg _ Nat.toList_repr

/-- The parameter for a column of the key is named in the text as it is. -/
theorem parameters_keyParameter (i : Nat) :
    parameters (":" ++ keyParameter i) = [keyParameter i] := by
  have hchars := toList_keyParameter i
  refine parameters_word (fun h => ?_) fun c hc => ?_
  · rw [h] at hchars
    nomatch hchars
  · have hfront : ['p', 'k', '_'].all Text.isWordChar = true := by decide
    rw [hchars, List.mem_append] at hc
    refine hc.elim (List.all_eq_true.mp hfront c) fun hdigit => ?_
    exact Text.isWordChar_of_isDigit (Nat.isDigit_of_mem_toDigits (by decide) (by decide) hdigit)

/-- The names that stand in each statement, quoted. -/
def names : List String := t.schema :: t.table :: t.primaryKey

variable {t}

theorem parameters_overKey {separator : String} {f : String → String}
    (hhead : separator.toList.head?.any separates = true)
    (hlast : separator.toList.getLast?.any separates = true) (hcolon : ':' ∉ separator.toList) :
    parameters (t.overKey separator f) = t.primaryKey.flatMap fun c => parameters (f c) := by
  rw [overKey, parameters_intercalate hhead hlast hcolon, List.flatMap_map]

/-- The condition names the parameters for the columns of the key. -/
theorem parameters_behindParameters :
    parameters t.behindParameters =
      t.primaryKey.flatMap parameters ++ (List.range t.primaryKey.length).map keyParameter := by
  unfold behindParameters
  rw [parameters_append_of_head (by decide)]
  simp (disch := first
    | (apply head?_ofList_any; decide)
    | (apply getLast?_ofList_any; decide)
    | (apply notMem_toList_ofList; decide)) only [String.append_assoc, parameters_overKey,
    parameters_words_append, parameters_append_words, parameters_quoteIdent, parameters_eq_nil,
    parameters_intercalate, List.flatMap_map, parameters_keyParameter, List.append_nil]
  rw [← List.map_eq_flatMap]

/-- In a statement there are the parameters of its names, the one for the size and, from the second
batch on, those for the key. -/
theorem mem_parameters_batchText {column : String} (hcolumn : parameters column = [])
    {firstBatch : Bool} {p : String} :
    p ∈ parameters (t.batchText column firstBatch) ↔
      p = "batch_size" ∨ (firstBatch = false ∧ ∃ i < t.primaryKey.length, keyParameter i = p) ∨
        ∃ name ∈ t.names, p ∈ parameters name := by
  have hlimit : ∀ rest, parameters (" LIMIT :batch_size FOR NO KEY UPDATE), " ++ rest) =
      "batch_size" :: parameters rest := by
    intro rest
    have hsize : parameters " LIMIT :batch_size FOR NO KEY UPDATE), " = ["batch_size"] := by
      decide
    rw [parameters_append_of_last (by decide), hsize, List.singleton_append]
  have hbehind : parameters (if firstBatch then "" else t.behindParameters) =
      if firstBatch then [] else t.primaryKey.flatMap parameters ++
        (List.range t.primaryKey.length).map keyParameter := by
    cases firstBatch
    · exact parameters_behindParameters
    · rfl
  have hnames : (∃ name ∈ t.names, p ∈ parameters name) ↔ p ∈ parameters t.schema ∨
      p ∈ parameters t.table ∨ ∃ c ∈ t.primaryKey, p ∈ parameters c := by simp [names]
  unfold batchText
  simp (disch := first
    | (apply head?_ofList_any; decide)
    | (apply getLast?_ofList_any; decide)
    | (apply notMem_toList_ofList; decide)) only [toString, quoted, quoteTable,
    String.append_assoc, parameters_overKey, parameters_words_append, parameters_append_words,
    parameters_quoteIdent, parameters_quoteIdent_append, hlimit, hbehind, hcolumn, List.nil_append]
  rw [hnames]
  cases firstBatch with
  | false =>
    simp only [Bool.false_eq_true, if_false, List.mem_append, List.mem_cons, List.mem_flatMap,
      List.mem_map, List.mem_range, or_self, true_and]
    grind
  | true =>
    simp only [if_true, List.mem_append, List.mem_cons, List.not_mem_nil, List.mem_flatMap, or_self,
      false_or, Bool.true_eq_false, false_and]
    grind

end Target

/-! ## What a run passes -/

/-- The names of the parameters that are passed. -/
def Parameters.names (p : Parameters) : List String := p.fields.map Prod.fst

/-- The names of the parameters from the second batch on. -/
def Target.laterNames (t : Target) : List String :=
  "batch_size" :: (List.range t.primaryKey.length).map Target.keyParameter

theorem Parameters.batchSize_mem_names (p : Parameters) : "batch_size" ∈ p.names := .head _

/-- For the first batch only its size is passed. -/
theorem Parameters.names_none (size : Nat) : (Parameters.mk size none).names = ["batch_size"] := rfl

/-- For a later one the values of a row are passed, too. -/
theorem Parameters.names_some (size : Nat) {row : Key} {t : Target}
    (h : row.length = t.primaryKey.length) :
    (Parameters.mk size (some row)).names = t.laterNames := by
  have hindices : row.zipIdx.map (Target.keyParameter ∘ Prod.snd) =
      (List.range row.length).map Target.keyParameter := by
    rw [← List.map_map, List.zipIdx_map_snd, List.range_eq_range']
  rw [Target.laterNames, ← h, ← hindices, names, fields, List.map_cons, List.map_map]
  rfl

/-- The statements that were executed, with their parameters. -/
def statementsOf (events : List Event) : List (String × Parameters) :=
  events.filterMap fun
    | .executed statement parameters => some (statement, parameters)
    | _ => none

/-- The statement for a batch. -/
def request (t : Target) (cfg : Settings) (after : Option Key) : String × Parameters :=
  (t.batchText SyncTrigger.needsBackfillColumn after.isNone, ⟨cfg.batchSize, after⟩)

theorem statementsOf_append (events more : List Event) :
    statementsOf (events ++ more) = statementsOf events ++ statementsOf more :=
  List.filterMap_append

theorem statementsOf_pause (cfg : Settings) : statementsOf (pause cfg) = [] := by
  unfold pause
  split <;> rfl

/-- A sweep executes the statement for the batch in which it starts, and then others behind rows that
it was answered with. -/
theorem statementsOf_sweepAfter (t : Target) (cfg : Settings) (after : Option Key)
    (totals : Totals) (answers : List (Except Failure Page)) :
    ∃ rows : List Key, (∀ row ∈ rows, ∃ page, .ok page ∈ answers ∧ row ∈ page) ∧
      statementsOf (sweepAfter .prepared t cfg after totals answers).events =
        request t cfg after :: rows.map (request t cfg ∘ some) := by
  fun_induction sweepAfter Source.prepared t cfg after totals answers with
  | case1 | case2 | case3 => exact ⟨[], nofun, rfl⟩
  | case4 after totals answers page answers' hfetch done hpage totals' reported hfull ih =>
    obtain ⟨rows, hrows, hstatements⟩ := ih
    cases answers with
    | nil => exact absurd (Except.ok.inj (Prod.mk.inj hfetch).1).symm hpage
    | cons answer rest =>
      obtain ⟨rfl, rfl⟩ := Prod.mk.inj hfetch
      refine ⟨page.getLast hpage :: rows, ?_, ?_⟩
      · refine List.forall_mem_cons.mpr ⟨⟨page, .head _, List.getLast_mem hpage⟩, fun row hrow => ?_⟩
        obtain ⟨page', hpage', hrow'⟩ := hrows row hrow
        exact ⟨page', .tail _ hpage', hrow'⟩
      · show statementsOf (reported ++ pause cfg ++ _) = _
        rw [statementsOf_append, statementsOf_append, statementsOf_pause, hstatements]
        rfl

theorem statementsOf_run (t : Target) (cfg : Settings) (answers : List (Except Failure Page))
    (hkey : t.primaryKey ≠ []) :
    ∃ rows : List Key, (∀ row ∈ rows, ∃ page, .ok page ∈ answers ∧ row ∈ page) ∧
      statementsOf (run .prepared t cfg answers).1 =
        request t cfg none :: rows.map (request t cfg ∘ some) := by
  rw [run, if_neg (by simpa using hkey)]
  exact statementsOf_sweepAfter t cfg none {} answers

/-- In the statement for a batch there are the parameters that are passed, and those of the names. -/
theorem mem_parameters_request {t : Target} (cfg : Settings) {after : Option Key}
    (hwidth : ∀ row ∈ after, row.length = t.primaryKey.length) (p : String) :
    p ∈ parameters (request t cfg after).1 ↔
      p ∈ (request t cfg after).2.names ∨ ∃ name ∈ t.names, p ∈ parameters name := by
  have hcolumn : parameters SyncTrigger.needsBackfillColumn = [] :=
    parameters_eq_nil (notMem_toList_ofList (by decide))
  rw [request, Target.mem_parameters_batchText hcolumn]
  cases after with
  | none => simp [Parameters.names_none]
  | some row =>
    rw [Parameters.names_some _ (hwidth row rfl)]
    simp [Target.laterNames, or_assoc]

section Run

variable {t : Target} (cfg : Settings) {answers : List (Except Failure Page)}

/-- The first batch is always executed. -/
theorem request_mem_statementsOf (hkey : t.primaryKey ≠ []) :
    request t cfg none ∈ statementsOf (run .prepared t cfg answers).1 := by
  obtain ⟨rows, -, hstatements⟩ := statementsOf_run t cfg answers hkey
  rw [hstatements]
  exact .head _

variable (hkey : t.primaryKey ≠ [])
  (hwidth : ∀ page, .ok page ∈ answers → ∀ row ∈ page, row.length = t.primaryKey.length)

include hkey hwidth

/-- What is executed behind the first batch is behind a row with a value for each column. -/
theorem exists_rows : ∃ rows : List Key, (∀ row ∈ rows, row.length = t.primaryKey.length) ∧
    statementsOf (run .prepared t cfg answers).1 =
      request t cfg none :: rows.map (request t cfg ∘ some) := by
  obtain ⟨rows, hrows, hstatements⟩ := statementsOf_run t cfg answers hkey
  refine ⟨rows, fun row hrow => ?_, hstatements⟩
  obtain ⟨page, hpage, hmem⟩ := hrows row hrow
  exact hwidth page hpage row hmem

/-- What is passed with the statements of a run. -/
theorem exists_names_statementsOf :
    ∃ later, (statementsOf (run .prepared t cfg answers).1).map (·.2.names) =
      ["batch_size"] :: List.replicate later t.laterNames := by
  obtain ⟨rows, hrows, hstatements⟩ := exists_rows cfg hkey hwidth
  refine ⟨rows.length, ?_⟩
  have hlater : rows.map ((·.2.names) ∘ request t cfg ∘ some) =
      List.replicate rows.length t.laterNames := by
    rw [List.eq_replicate_iff, List.length_map, List.forall_mem_map]
    exact ⟨rfl, fun row hrow => Parameters.names_some cfg.batchSize (hrows row hrow)⟩
  rw [hstatements, List.map_cons, List.map_map, hlater]
  rfl

/-- What the statements of a run name. -/
theorem mem_parameters_statementsOf :
    ∀ s ∈ statementsOf (run .prepared t cfg answers).1, ∀ p,
      p ∈ parameters s.1 ↔ p ∈ s.2.names ∨ ∃ name ∈ t.names, p ∈ parameters name := by
  obtain ⟨rows, hrows, hstatements⟩ := exists_rows cfg hkey hwidth
  rw [hstatements, List.forall_mem_cons, List.forall_mem_map]
  refine ⟨mem_parameters_request cfg nofun, fun row hrow => ?_⟩
  exact mem_parameters_request cfg fun row' hrow' => Option.some.inj hrow' ▸ hrows row hrow

end Run

/-- **The parameters agree exactly if no name brings one along.** In its first batch a run passes the
size, and in every other one the size and a value for each column of the key. The statements name
these parameters, and besides those that stand in the names of the schema, the table and the columns
of the key, although these are quoted. So what is named and what is passed agree in all statements
exactly if nothing but the size is named there. -/
theorem parameters_agree_iff (t : Target) (cfg : Settings) (answers : List (Except Failure Page))
    (hkey : t.primaryKey ≠ [])
    (hwidth : ∀ page, .ok page ∈ answers → ∀ row ∈ page, row.length = t.primaryKey.length) :
    let statements := statementsOf (run .prepared t cfg answers).1
    (∃ later, statements.map (·.2.names) = ["batch_size"] :: List.replicate later t.laterNames) ∧
    (∀ s ∈ statements, ∀ p,
      p ∈ parameters s.1 ↔ p ∈ s.2.names ∨ ∃ name ∈ t.names, p ∈ parameters name) ∧
    ((∀ s ∈ statements, ∀ p, p ∈ parameters s.1 ↔ p ∈ s.2.names) ↔
      ∀ name ∈ t.names, ∀ p ∈ parameters name, p = "batch_size") := by
  intro statements
  have hnamed := mem_parameters_statementsOf cfg hkey hwidth
  refine ⟨exists_names_statementsOf cfg hkey hwidth, hnamed, fun h name hname p hp => ?_,
    fun h s hs p => ?_⟩
  · -- nothing but the size is passed for the first batch
    have hfirst : request t cfg none ∈ statements := request_mem_statementsOf cfg hkey
    have hpassed := (h _ hfirst p).mp ((hnamed _ hfirst p).mpr (.inr ⟨name, hname, hp⟩))
    exact List.mem_singleton.mp hpassed
  · refine (hnamed s hs p).trans (or_iff_left_of_imp ?_)
    rintro ⟨name, hname, hp⟩
    rw [h name hname p hp]
    exact s.2.batchSize_mem_names

/-- Names with colons in them, each behind a word, another colon or a backslash. -/
theorem parameters_agree_of_colons :
    let t : Target := ⟨"tenant:a", "b::c", ["id", "\\:k"]⟩
    let cfg : Settings := ⟨1, .whole 0, by decide⟩
    let answers := [.ok [[.int 1, .int 2]], .ok [[.int 1, .int 3]]]
    let statements := statementsOf (run .prepared t cfg answers).1
    t.primaryKey ≠ [] ∧
      (∀ page, .ok page ∈ answers → ∀ row ∈ page, row.length = t.primaryKey.length) ∧
      ∀ s ∈ statements, ∀ p, p ∈ parameters s.1 ↔ p ∈ s.2.names := by
  intro t cfg answers statements
  have hkey : t.primaryKey ≠ [] := by decide
  have hwidth : ∀ page, .ok page ∈ answers → ∀ row ∈ page, row.length = t.primaryKey.length := by
    simp only [answers, List.mem_cons, Except.ok.injEq, List.not_mem_nil, or_false]
    rintro page (rfl | rfl) <;> simp [t]
  obtain ⟨-, -, hagree⟩ := parameters_agree_iff t cfg answers hkey hwidth
  exact ⟨hkey, hwidth, hagree.mpr (by decide)⟩

/-- A table with a name that reads like a parameter. No value is passed for it. -/
theorem parameter_without_value :
    ¬ ∀ (t : Target) (cfg : Settings) (answers : List (Except Failure Page)), t.primaryKey ≠ [] →
      (∀ page, .ok page ∈ answers → ∀ row ∈ page, row.length = t.primaryKey.length) →
      ∀ s ∈ statementsOf (run .prepared t cfg answers).1,
        ∀ p, p ∈ parameters s.1 ↔ p ∈ s.2.names := by
  intro h
  let t : Target := ⟨"public", ":x", ["id"]⟩
  let cfg : Settings := ⟨2, .whole 0, by decide⟩
  have hkey : t.primaryKey ≠ [] := by decide
  have hwidth : ∀ page : Page, Except.ok page ∈ ([] : List (Except Failure Page)) →
      ∀ row ∈ page, row.length = t.primaryKey.length := fun _ hpage => nomatch hpage
  have hnamed : "x" ∈ parameters (request t cfg none).1 :=
    (mem_parameters_request cfg (by simp) "x").mpr (.inr ⟨":x", by decide, by decide⟩)
  have hpassed := (h t cfg [] hkey hwidth _ (request_mem_statementsOf cfg hkey) "x").mp hnamed
  rw [request, Parameters.names_none] at hpassed
  exact absurd hpassed (by decide)

end SchemaLedger.Backfill
