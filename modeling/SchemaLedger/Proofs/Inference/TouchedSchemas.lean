import Mathlib.Data.Finset.Card
import SchemaLedger.Proofs.Inference.Attribution

/-!
# The schemas that a statement touches

A statement touches the schemas that its objects are in (`DdlEvent.Touches`). After a command this
is all that its attribution looks at, unless the command made a schema. If several schemas are
touched, the statement belongs to none of them, and the error has their names, each once and in
order; this comes first, so it holds for a new schema too.

So it does not matter in which order the objects are reported, how often each one comes and which
objects without a schema come with them, neither to the attribution (`attributed_by_touched`) nor
to what is recorded (`Recorder.onEvent_eq_of_touches`).
-/

namespace SchemaLedger

namespace DdlEvent

/-- One of the objects is in the schema. -/
def Touches (e : DdlEvent) (schema : String) : Prop := ∃ o ∈ e.objects, o.schemaName = some schema

instance (e : DdlEvent) (schema : String) : Decidable (e.Touches schema) :=
  inferInstanceAs (Decidable (∃ o ∈ e.objects, _))

variable {e e' : DdlEvent}

theorem mem_schemaNames_iff_touches {schema : String} :
    schema ∈ e.schemaNames ↔ e.Touches schema := mem_schemaNames

theorem schemaNames_congr (h : ∀ schema, e.Touches schema ↔ e'.Touches schema) :
    e.schemaNames = e'.schemaNames :=
  Text.sortedDistinct_congr fun schema => by
    rw [List.mem_filterMap, List.mem_filterMap]
    exact h schema

/-- There is more than one name exactly if two schemas are touched, since no name comes twice. -/
theorem one_lt_length_schemaNames_iff :
    1 < e.schemaNames.length ↔ ∃ s t, s ≠ t ∧ e.Touches s ∧ e.Touches t := by
  have hnodup : e.schemaNames.Nodup := Text.nodup_sortedDistinct _
  rw [← List.toFinset_card_of_nodup hnodup, Finset.one_lt_card]
  simp only [List.mem_toFinset, mem_schemaNames_iff_touches]
  constructor
  · intro ⟨s, hs, t, ht, hne⟩
    exact ⟨s, t, hne, hs, ht⟩
  · intro ⟨s, t, hne, hs, ht⟩
    exact ⟨s, hs, t, ht, hne⟩

/-- After a command, nothing but too many schemas stands in the way. -/
theorem schema_eq_error_iff (he : e.phase = .commandEnd) {error : LedgerError} :
    e.schema = .error error ↔
      1 < e.schemaNames.length ∧ error = .ambiguousSchema e.schemaNames := by
  rw [DdlEvent.schema, he]
  dsimp only
  split
  next hseveral => simp [hseveral, eq_comm]
  next hone => split <;> simp [hone]

/-- Commands that made no schema are attributed alike if they touch the same schemas. -/
theorem schema_congr (he : e.phase = .commandEnd) (he' : e'.phase = .commandEnd)
    (htag : e.tag ≠ "CREATE SCHEMA") (htag' : e'.tag ≠ "CREATE SCHEMA")
    (h : ∀ schema, e.Touches schema ↔ e'.Touches schema) : e.schema = e'.schema := by
  unfold DdlEvent.schema
  simp only [he, he', if_neg htag, if_neg htag', schemaNames_congr h]

end DdlEvent

/-- **Attribution goes by the schemas that are touched.** After a command, a statement is ambiguous
exactly if its objects are in two schemas at least. There is no other error, and this one has the
names of all these schemas, each once and by their code points. If they made no schema, two
statements whose objects are in the same schemas have the same schema or none or the same error. -/
theorem attributed_by_touched {e : DdlEvent} (he : e.phase = .commandEnd) :
    ((∃ names, e.schema = .error (.ambiguousSchema names)) ↔
      ∃ s t, s ≠ t ∧ e.Touches s ∧ e.Touches t) ∧
    (∀ error, e.schema = .error error → ∃ names, error = .ambiguousSchema names ∧
      names.Pairwise (fun s t => Text.codePoints s < Text.codePoints t) ∧
      ∀ schema, schema ∈ names ↔ e.Touches schema) ∧
    (e.tag ≠ "CREATE SCHEMA" → ∀ e' : DdlEvent, e'.phase = .commandEnd →
      e'.tag ≠ "CREATE SCHEMA" → (∀ schema, e.Touches schema ↔ e'.Touches schema) →
      e.schema = e'.schema) := by
  refine ⟨?_, fun error herror => ?_, fun htag e' he' htag' h => ?_⟩
  · simp only [DdlEvent.schema_eq_error_iff he, LedgerError.ambiguousSchema.injEq,
      exists_and_left, exists_eq, and_true]
    exact DdlEvent.one_lt_length_schemaNames_iff
  · obtain ⟨-, rfl⟩ := (DdlEvent.schema_eq_error_iff he).mp herror
    have hsorted := Text.pairwise_sortedDistinct (e.objects.filterMap (·.schemaName))
    exact ⟨e.schemaNames, rfl, hsorted.imp Text.lt_iff_codePoints_lt.mp,
      fun schema => DdlEvent.mem_schemaNames_iff_touches⟩
  · exact DdlEvent.schema_congr he he' htag htag' h

/-- Two tables are reported in one order, and then in the other one with a table twice and an
extension. -/
theorem attributed_by_touched_of_reordered :
    let table (schema : String) : DdlObject := ⟨"table", some schema, schema ++ ".t"⟩
    let event (objects : List DdlObject) : DdlEvent :=
      { phase := .commandEnd, tag := "CREATE TABLE", statement := "", timestamp := ⟨0, some 0⟩
        objects }
    let e := event [table "public", table "billing"]
    let e' := event [table "billing", ⟨"extension", none, "x"⟩, table "public", table "billing"]
    e.phase = .commandEnd ∧ e'.phase = .commandEnd ∧ e.tag ≠ "CREATE SCHEMA" ∧
      (∀ schema, e.Touches schema ↔ e'.Touches schema) ∧
      (∃ names, e.schema = .error (.ambiguousSchema names)) ∧ e.schema = e'.schema := by
  intro table event e e'
  have h : ∀ schema, e.Touches schema ↔ e'.Touches schema := by
    intro schema
    simp [DdlEvent.Touches, e, e', event, table, or_comm]
  obtain ⟨hambiguous, -, hsame⟩ := attributed_by_touched (e := e) rfl
  refine ⟨rfl, rfl, by decide, h, hambiguous.mpr ⟨"public", "billing", ?_⟩, ?_⟩
  · decide
  · exact hsame (by decide) e' rfl (by decide) h

namespace Recorder

variable {σ : Type} [LedgerStore σ]

/-- **What is recorded goes by the schemas that are touched.** A report of a command that made no
schema may list its objects in any order. -/
theorem onEvent_eq_of_touches (s : Surroundings) {e : DdlEvent} (he : e.phase = .commandEnd)
    (htag : e.tag ≠ "CREATE SCHEMA") {objects : List DdlObject}
    (h : ∀ schema, e.Touches schema ↔ { e with objects }.Touches schema) :
    (onEvent s { e with objects } : Action (Desk σ) (Option Record)) = onEvent s e := by
  have hschema : e.schema = { e with objects }.schema :=
    DdlEvent.schema_congr he he htag htag h
  unfold onEvent unlessIgnored
  rw [hschema]
  rfl

end Recorder

end SchemaLedger
