import SchemaLedger.Proofs.Run
import SchemaLedger.SyncTrigger.Projection

/-!
# Several sync triggers on one table

A table with several columns in transition has several triggers: some that carry values up and some
that carry values down. Each of them reads the row as the ones before it left it, and their columns
may overlap, so among the triggers of one direction the order matters. Between the two directions it
does not (`firing_order_irrelevant`).

Two facts meet here. For a given search path the two directions exclude each other: the triggers up
fire exactly if those down do not (`Trigger.fires_of_up`, `Trigger.fires_of_down`). And a trigger
that does not fire leaves the row alone, so that the others never notice it (`fireAll_filter`). What
is left of any order of all triggers are those of one direction, in their own order.
-/

namespace SchemaLedger

open Attempt (Interleaves)

namespace SyncTrigger

/-- A trigger on a table, with the steps for its expressions. -/
structure Trigger where
  config : Config
  steps : List Step
  steps_ne_nil : steps ≠ []

namespace Trigger

variable (t : Trigger) {searchPath : String}

/-- Whether the trigger fires for a write made under a search path. -/
def fires (searchPath : String) : Bool := t.config.firesFor searchPath

/-- What the trigger makes of a row. -/
def project (searchPath : String) (row : Mapping) : Except ProjectionError Mapping :=
  projectRow t.config row searchPath t.steps

theorem fires_of_up (h : t.config.direction.isUp = true) :
    t.fires searchPath = (searchPath != t.config.latestSchema) := by
  rw [fires, Config.firesFor, if_pos h]

theorem fires_of_down (h : t.config.direction.isUp = false) :
    t.fires searchPath = (searchPath == t.config.latestSchema) := by
  rw [fires, Config.firesFor, if_neg (by simp [h])]

theorem project_of_not_fires (h : t.fires searchPath = false) (row : Mapping) :
    t.project searchPath row = .ok row := projectRow_of_not_fires t.steps_ne_nil h

/-- A trigger has steps, so it fails only with the failure of one of them. -/
theorem failed_of_project {row : Mapping} {e : ProjectionError}
    (h : t.project searchPath row = .error e) : ∃ f, e = .failed f := by
  rw [project, projectRow, if_neg (by simpa using t.steps_ne_nil)] at h
  split at h
  next => cases h
  next =>
    split at h
    next f _ => exact ⟨f, (Except.error.inj h).symm⟩
    next => cases h

end Trigger

/-- What triggers make of a row when they are called one after another; the first failure ends
it. -/
def fireAll (searchPath : String) (triggers : List Trigger) (row : Mapping) :
    Except ProjectionError Mapping :=
  triggers.foldlM (fun row t => t.project searchPath row) row

section FireAll

variable {searchPath : String}

/-- Only the triggers that fire matter. -/
theorem fireAll_filter (triggers : List Trigger) (row : Mapping) :
    fireAll searchPath (triggers.filter (·.fires searchPath)) row =
      fireAll searchPath triggers row := by
  have hproject : (fun row t => if t.fires searchPath then t.project searchPath row else pure row) =
      fun row (t : Trigger) => t.project searchPath row := by
    funext row t
    cases hfires : t.fires searchPath with
    | true => rfl
    | false => exact (t.project_of_not_fires hfires row).symm
  rw [fireAll, List.foldlM_filter, hproject, fireAll]

theorem failed_of_fireAll {triggers : List Trigger} {row : Mapping} {e : ProjectionError}
    (h : fireAll searchPath triggers row = .error e) : ∃ f, e = .failed f := by
  induction triggers generalizing row with
  | nil => nomatch h
  | cons t rest ih =>
    rw [fireAll, List.foldlM_cons] at h
    cases hproject : t.project searchPath row with
    | error e' =>
      rw [hproject] at h
      obtain rfl : e' = e := Except.error.inj h
      exact t.failed_of_project hproject
    | ok projected =>
      rw [hproject] at h
      exact ih h

end FireAll

/-- **The order between triggers up and triggers down does not matter.** Triggers in both
directions, all for the same latest version schema, are called in any order that keeps the order
within each direction. Then a row comes out as if only the triggers down had been called for a write
under the latest version schema, and only the triggers up for any other; and if that fails, it is
with the failure of the same step. -/
theorem firing_order_irrelevant {latest : String} {ups downs order : List Trigger}
    (hups : ∀ t ∈ ups, t.config.direction.isUp = true)
    (hdowns : ∀ t ∈ downs, t.config.direction.isUp = false)
    (hlatest : ∀ t ∈ ups ++ downs, t.config.latestSchema = latest)
    (horder : Interleaves ups downs order) (searchPath : String) (row : Mapping) :
    fireAll searchPath order row =
        fireAll searchPath (if searchPath = latest then downs else ups) row ∧
      ∀ e, fireAll searchPath order row = .error e → ∃ f, e = .failed f := by
  obtain ⟨hlatestUp, hlatestDown⟩ := List.forall_mem_append.mp hlatest
  have hup : ∀ t ∈ ups, t.fires searchPath = (searchPath != latest) := fun t ht => by
    rw [t.fires_of_up (hups t ht), hlatestUp t ht]
  have hdown : ∀ t ∈ downs, t.fires searchPath = (searchPath == latest) := fun t ht => by
    rw [t.fires_of_down (hdowns t ht), hlatestDown t ht]
  refine ⟨?_, fun e => failed_of_fireAll⟩
  rw [← fireAll_filter]
  split
  next h =>
    rw [horder.symm.filter_eq_left (fun t ht => (hdown t ht).trans (beq_iff_eq.mpr h))
      fun t ht => (hup t ht).trans (bne_eq_false_iff_eq.mpr h)]
  next h =>
    rw [horder.filter_eq_left (fun t ht => (hup t ht).trans (bne_iff_ne.mpr h))
      fun t ht => (hdown t ht).trans (beq_eq_false_iff_ne.mpr h)]

/-- Two triggers up, the second of which reads what the first has filled in, and between them one
down that would overwrite what the first reads. -/
theorem firing_order_irrelevant_of_overlap :
    let copy (direction : Direction) (source target : String) : Trigger :=
      { config :=
          { name := target, tableName := "reviews", direction, physicalColumn := target
            latestSchema := "public_v2" }
        steps := [(Expr.new source).eval]
        steps_ne_nil := List.cons_ne_nil _ _ }
    let first := copy .up "review" "new_review"
    let second := copy .up "new_review" "summary"
    let back := copy .down "new_review" "review"
    let row := Mapping.ofFields
      [("review", .text "good"), ("new_review", .null), ("summary", .null)]
    (∀ t ∈ [first, second], t.config.direction.isUp = true) ∧
    (∀ t ∈ [back], t.config.direction.isUp = false) ∧
    (∀ t ∈ [first, second] ++ [back], t.config.latestSchema = "public_v2") ∧
    Interleaves [first, second] [back] [first, back, second] ∧
    fireAll "public_v1" [first, back, second] row = .ok (Mapping.ofFields
      [("review", .text "good"), ("new_review", .text "good"), ("summary", .text "good"),
        (needsBackfillColumn, .bool false)]) ∧
    fireAll "public_v1" [first, back, second] row = fireAll "public_v1" [first, second] row ∧
    fireAll "public_v2" [first, back, second] row = fireAll "public_v2" [back] row := by
  intro copy first second back row
  have hups : ∀ t ∈ [first, second], t.config.direction.isUp = true := by decide
  have hdowns : ∀ t ∈ [back], t.config.direction.isUp = false := by decide
  have hlatest : ∀ t ∈ [first, second] ++ [back], t.config.latestSchema = "public_v2" := by
    decide
  have horder : Interleaves [first, second] [back] [first, back, second] :=
    .left first (.right back (.left second .nil))
  refine ⟨hups, hdowns, hlatest, horder, by decide +kernel, ?_, ?_⟩
  · exact (firing_order_irrelevant hups hdowns hlatest horder "public_v1" row).1
  · exact (firing_order_irrelevant hups hdowns hlatest horder "public_v2" row).1

end SyncTrigger

end SchemaLedger
