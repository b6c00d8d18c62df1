import SchemaLedger.Proofs.Backfill.Coverage
import SchemaLedger.Proofs.SyncTrigger.Projection

/-!
# A sweep over a table with a sync trigger

The sweep touches rows only to have their triggers fire. With a sync trigger on the table, each row
that is touched comes out as its projection, with its mark cleared. So the sweep changes what it
selects from while it walks over it, and yet every marked row is projected exactly once and a second
run finds nothing to do (`run_fills_flagged`).

The trigger assigns to one column and clears the mark, and neither is a column of the key. So a
projection keeps the key of a row (`SyncTrigger.field?_projectRow_of_ne`), and a sweep asks no more
of what a touch does to a row.
-/

namespace SchemaLedger

namespace SyncTrigger

/-- The row with its mark set. -/
def setMark (c : Config) (row : Mapping) : Mapping :=
  Mapping.put row (.text c.needsBackfillColumn) (.bool true)

/-- Whether a row is marked, in the column that the trigger clears. -/
def marked (c : Config) (row : Mapping) : Bool :=
  Mapping.field? row c.needsBackfillColumn = some (.bool true)

end SyncTrigger

namespace Backfill

open SyncTrigger (projectRow setMark marked)

/-- A sync trigger on a table to fill. It fires in the session of the sweep, and its steps never
fail. -/
structure Filling where
  target : Target
  config : SyncTrigger.Config
  searchPath : String
  steps : List SyncTrigger.Step
  /-- The table has a primary key. -/
  key_ne_nil : target.primaryKey ≠ []
  fires : config.firesFor searchPath = true
  steps_ne_nil : steps ≠ []
  steps_ok : ∀ step ∈ steps, ∀ bound row, ∃ v, step bound row = .ok v
  /-- The column that is filled is no column of the key. -/
  column_not_key : config.physicalColumn ∉ target.primaryKey
  /-- Nor is the one of the marks. -/
  mark_not_key : config.needsBackfillColumn ∉ target.primaryKey

namespace Filling

variable (f : Filling)

/-- The values of a row in the columns of the key; a column that the row lacks is null. -/
def key (row : Mapping) : Key :=
  f.target.primaryKey.map fun column => (Mapping.field? row column).getD .null

/-- What the trigger makes of a row whose mark is set once more. -/
def fill (row : Mapping) : Mapping :=
  match projectRow f.config (setMark f.config row) f.searchPath f.steps with
  | .ok projected => projected
  | .error _ => row

theorem projectRow_setMark (row : Mapping) :
    projectRow f.config (setMark f.config row) f.searchPath f.steps = .ok (f.fill row) := by
  obtain ⟨projected, h⟩ := SyncTrigger.exists_projectRow f.fires f.steps_ne_nil f.steps_ok
    (setMark f.config row)
  rw [fill, h]

/-- A row that was filled has the key that it had. -/
theorem key_fill (row : Mapping) : f.key (f.fill row) = f.key row := by
  refine List.map_congr_left fun column hcolumn => ?_
  have hmark : f.config.needsBackfillColumn ≠ column := fun h => f.mark_not_key (h ▸ hcolumn)
  rw [SyncTrigger.field?_projectRow_of_ne (fun h => f.column_not_key (h ▸ hcolumn)) hmark
    (f.projectRow_setMark row), setMark, Mapping.field?_put_of_ne hmark]

/-- A row that was filled is not marked any more. -/
theorem marked_fill (row : Mapping) : marked f.config (f.fill row) = false := by
  rw [marked, SyncTrigger.projectRow_mark f.fires (f.projectRow_setMark row)]
  rfl

/-- The rows of the table, with what a touch makes of them. -/
def rowKind (order : KeyOrder) : RowKind Mapping where
  order
  key := f.key
  flagged := marked f.config
  touch _ := f.fill
  key_touch _ := f.key_fill

end Filling

/-- **A sweep fills every marked row exactly once.** The rows of a table with a sync trigger come in
any order and with any marks. A run over the table touches each of the marked rows once. In its
place stands its projection, and all other rows are as they were. No row is marked any more, and
another run, in batches of whatever size, answers that there were no rows and no batches and touches
nothing. -/
theorem run_fills_flagged (f : Filling) (order : KeyOrder) (cfg : Settings) (rows : List Mapping)
    (h : (f.rowKind order).Distinct rows) :
    let k := f.rowKind order
    let source := k.source cfg.batchSize
    let outcome := sweep source f.target cfg { rows }
    let filled := outcome.state.rows
    (∃ totals, run source f.target cfg { rows } = (outcome.events, .ok totals)) ∧
      outcome.state.touched.Perm ((rows.filter (marked f.config)).map f.key) ∧
      List.Forall₂ (fun row row' =>
        if marked f.config row then
          projectRow f.config (setMark f.config row) f.searchPath f.steps = .ok row'
        else row' = row) rows filled ∧
      (∀ row ∈ filled, marked f.config row = false) ∧
      ∀ cfg' : Settings,
        let source' := k.source cfg'.batchSize
        let again := sweep source' f.target cfg' outcome.state
        run source' f.target cfg' outcome.state = (again.events, .ok ⟨0, 0⟩) ∧
          again.state.touched = outcome.state.touched ∧ again.state.rows = filled := by
  intro k source outcome filled
  have hcovers := RowKind.Distinct.covers_sweepAfter f.target cfg none {} (s := { rows }) h
  obtain ⟨when, hrows⟩ := hcovers.rows
  have hfilled : filled = rows.map fun row => if marked f.config row then f.fill row else row := by
    rw [k.due_none] at hrows
    exact hrows
  have hmarked : ∀ row ∈ filled, marked f.config row = false := by
    rw [hfilled, List.forall_mem_map]
    intro row _
    by_cases hrow : marked f.config row = true
    · rw [if_pos hrow]
      exact f.marked_fill row
    · rw [if_neg hrow]
      exact Bool.not_eq_true _ ▸ hrow
  have hdistinct : k.Distinct filled := hcovers.distinct h
  refine ⟨⟨_, run_of_result f.key_ne_nil hcovers.result⟩, ?_, ?_, hmarked, fun cfg' => ?_⟩
  · rw [show outcome.state.touched = _ from hcovers.touched]
    exact (k.pending_none_perm rows).map k.key
  · rw [hfilled, List.forall₂_map_right_iff, List.forall₂_same]
    intro row _
    by_cases hrow : marked f.config row = true
    · rw [if_pos hrow, if_pos hrow]
      exact f.projectRow_setMark row
    · rw [if_neg hrow, if_neg hrow]
  · exact run_of_unflagged f.target cfg' f.key_ne_nil hdistinct hmarked

/-- A trigger that copies the stars of a review into its rating. -/
def Filling.ratings : Filling where
  target := ⟨"public", "reviews", ["id"]⟩
  config :=
    { name := "copy_stars", tableName := "reviews", physicalColumn := "rating"
      columns := [("stars", ⟨"stars", "int"⟩)], latestSchema := "public_v2" }
  searchPath := "public"
  steps := [fun bound _ => .ok ((Mapping.field? bound "stars").getD .null)]
  key_ne_nil := by decide
  fires := by decide
  steps_ne_nil := by simp
  steps_ok step hstep bound row := by
    rw [List.mem_singleton.mp hstep]
    exact ⟨_, rfl⟩
  column_not_key := by decide
  mark_not_key := by decide

/-- One review was rated when the column was added, the other one is left to the sweep. -/
theorem run_fills_flagged_of_ratings :
    let review (id stars rating : Int) (mark : Bool) : Mapping :=
      Mapping.ofFields [("id", .int id), ("stars", .int stars), ("rating", .int rating),
        (SyncTrigger.needsBackfillColumn, .bool mark)]
    let rank : Key → Int
      | [.int n] => n
      | _ => 0
    let k := Filling.ratings.rowKind (.ofRank rank)
    let cfg : Settings := ⟨10, .whole 0, by decide⟩
    let rows := [review 2 5 0 true, review 1 4 4 false]
    let outcome := sweep (k.source cfg.batchSize) Filling.ratings.target cfg { rows }
    k.Distinct rows ∧ outcome.state.rows = [review 2 5 5 false, review 1 4 4 false] := by
  intro review rank k cfg rows outcome
  have h : k.Distinct rows := by
    show List.Pairwise _ _
    decide
  obtain ⟨-, -, hfilled, -⟩ := run_fills_flagged Filling.ratings (.ofRank rank) cfg rows h
  obtain ⟨first, rest, hfirst, hrest, hrows⟩ := List.forall₂_cons_left_iff.mp hfilled
  obtain ⟨second, rest, hsecond, hnil, rfl⟩ := List.forall₂_cons_left_iff.mp hrest
  cases List.forall₂_nil_left_iff.mp hnil
  rw [if_pos (by decide)] at hfirst
  rw [if_neg (by decide)] at hsecond
  have hfirst' : Except.ok (review 2 5 5 false) = Except.ok first := hfirst
  refine ⟨h, hrows.trans ?_⟩
  rw [hsecond, Except.ok.inj hfirst']

end Backfill

end SchemaLedger
