import SchemaLedger.Proofs.Inference.Report
import SchemaLedger.Proofs.Ledger.Isolation

/-!
# Which schema a step is filed under

The objects of a statement tell schemas: an object in a schema tells that one, and an object that is
a schema tells itself (`DdlObject.Tells`). A statement should belong to a schema that one of its
objects tells. The attribution comes to a schema by four ways (`DdlEvent.schema_cases`), and three of
them keep to this. After a new schema was created, the first object is taken for it, whatever it is;
there are reports for which this goes wrong (`DdlEvent.Misleading`).

A step is recorded for the schema that its statement was attributed to, in memory and in a database
(`Recorder.ensures_attributed`). So a step is filed under a schema that no object of its statement
tells exactly for those reports (`attribution_sound_iff`), and along a run every record goes back to
a call for its schema or to a report with an object that tells it, if none of the reports is
misleading (`Deed.told_of_mem_after`).
-/

namespace SchemaLedger

open Attempt

/-- An object tells the schema that it is in, and a schema tells itself. -/
def DdlObject.Tells (o : DdlObject) (schema : String) : Prop :=
  o.schemaName = some schema ∨ o.objectType = "schema" ∧ o.identity = schema

instance (o : DdlObject) (schema : String) : Decidable (o.Tells schema) :=
  inferInstanceAs (Decidable (_ ∨ _))

namespace DdlEvent

/-- One of the objects tells the schema. -/
def Concerns (e : DdlEvent) (schema : String) : Prop := ∃ o ∈ e.objects, o.Tells schema

instance (e : DdlEvent) (schema : String) : Decidable (e.Concerns schema) :=
  inferInstanceAs (Decidable (∃ o ∈ e.objects, _))

/-- A new schema is reported behind an object with an identity that no object tells. -/
structure Misleading (e : DdlEvent) : Prop where
  phase : e.phase = .commandEnd
  tag : e.tag = "CREATE SCHEMA"
  unambiguous : e.schemaNames.length ≤ 1
  first : ∃ o, e.objects.head? = some o ∧ ¬ e.Concerns o.identity

variable {e : DdlEvent} {schema : String}

theorem mem_schemaNames :
    schema ∈ e.schemaNames ↔ ∃ o ∈ e.objects, o.schemaName = some schema := by
  rw [schemaNames, Text.mem_sortedDistinct, List.mem_filterMap]

/-- The ways to the schema of a statement. By all but one the schema is told by an object. -/
theorem schema_cases (h : e.schema = .ok (some schema)) :
    e.Concerns schema ∨
      e.phase = .commandEnd ∧ e.tag = "CREATE SCHEMA" ∧ e.schemaNames.length ≤ 1 ∧
        ∃ o, e.objects.head? = some o ∧ o.identity = schema := by
  unfold DdlEvent.schema at h
  split at h
  next =>
    split at h
    next =>
      obtain ⟨o, hfound, hidentity⟩ := Option.map_eq_some_iff.mp (Except.ok.inj h)
      have htype : o.objectType = "schema" := by simpa using List.find?_some hfound
      exact .inl ⟨o, List.mem_of_find?_eq_some hfound, .inr ⟨htype, hidentity⟩⟩
    next =>
      split at h
      next => nomatch h
      next =>
        obtain ⟨o, ho, hschema⟩ := List.exists_of_findSome?_eq_some (Except.ok.inj h)
        exact .inl ⟨o, ho, .inl hschema⟩
  next hphase =>
    split at h
    next => nomatch h
    next hone =>
      split at h
      next htag =>
        obtain ⟨o, hfirst, hidentity⟩ := Option.map_eq_some_iff.mp (Except.ok.inj h)
        exact .inr ⟨hphase, htag, Nat.le_of_not_lt hone, o, hfirst, hidentity⟩
      next =>
        obtain ⟨o, ho, hschema⟩ := mem_schemaNames.mp (List.mem_of_head? (Except.ok.inj h))
        exact .inl ⟨o, ho, .inl hschema⟩
  next => nomatch h

/-- A misleading report is attributed to what its first object is called. -/
theorem Misleading.exists_schema (h : e.Misleading) :
    ∃ schema, e.schema = .ok (some schema) ∧ ¬ e.Concerns schema := by
  obtain ⟨hphase, htag, hone, o, hfirst, hother⟩ := h
  refine ⟨o.identity, ?_, hother⟩
  rw [DdlEvent.schema, hphase]
  dsimp only
  rw [if_neg (Nat.not_lt.mpr hone), if_pos htag, hfirst]
  rfl

theorem concerns_iff (h : e.schema = .ok (some schema)) : e.Concerns schema ↔ ¬ e.Misleading := by
  refine ⟨fun hconcerns hmisleading => ?_, fun hsound => ?_⟩
  · obtain ⟨other, hother, hnot⟩ := hmisleading.exists_schema
    obtain rfl : other = schema := by simpa [h] using hother.symm
    exact hnot hconcerns
  · obtain hconcerns | ⟨hphase, htag, hone, o, hfirst, rfl⟩ := schema_cases h
    · exact hconcerns
    · by_contra hother
      exact hsound ⟨hphase, htag, hone, o, hfirst, hother⟩

end DdlEvent

/-! ## The schema of a step -/

namespace Recorder

/-- A record that joins a ledger is answered under its schema. -/
def AnswersSchema (σ : Type) [LedgerStore σ] : Prop :=
  ∀ now record, Ensures (fun _ => True) (LedgerStore.insert now record)
    fun r (_ : σ) => r.schema = record.schema

theorem answersSchema_memoryLedger : AnswersSchema MemoryLedger := by
  rintro now record l r l' - h
  obtain ⟨-, rfl, -⟩ := MemoryLedger.insert_eq_ok h
  rfl

theorem answersSchema_database : AnswersSchema Database := by
  rintro now record ⟨_ | t⟩ r d - h
  · have hinsert : Database.insert now record ⟨none⟩ = (.ok r, d) := h
    rw [Database.insert_without_tables] at hinsert
    nomatch hinsert
  · obtain ⟨-, -, hwritten, -⟩ := Database.insert_eq_ok h
    obtain ⟨v, -, rfl⟩ := Database.written_eq_ok hwritten
    rfl

variable {σ : Type} [LedgerStore σ]

/-- The step that is answered has the schema that it was recorded for. -/
theorem ensures_schema_record (h : AnswersSchema σ) (s : Surroundings) (e : DdlEvent)
    (schema : String) :
    Ensures (fun _ => True) (record s e schema) fun r (_ : Desk σ) => r.schema = schema := by
  refine ensures_bind_of_forall fun n => ensures_bind_of_forall fun label => ?_
  exact ensures_bind_of_forall fun snapshot => ensures_onLedger (h s.now _)

/-- A report that is answered with a step was attributed to the schema of the step. -/
theorem ensures_attributed (h : AnswersSchema σ) (s : Surroundings) (e : DdlEvent) :
    Ensures (fun _ => True) (onEvent s e) fun answer (_ : Desk σ) =>
      ∀ r, answer = some r → e.schema = .ok (some r.schema) := by
  rintro d answer d' - hevent r rfl
  obtain ⟨-, schema, hschema, d₁, -, hrecord⟩ := unlessIgnored_eq_some.mp hevent
  rw [hschema, ensures_schema_record h s e schema d₁ r d' trivial hrecord]

/-- So it is filed under a schema that an object tells, unless the report is misleading. -/
theorem concerns_iff_of_recorded (h : AnswersSchema σ) {s : Surroundings} {e : DdlEvent}
    {d : Desk σ} {r : Record} (hr : (onEvent s e d).1 = .ok (some r)) :
    e.Concerns r.schema ↔ ¬ e.Misleading :=
  e.concerns_iff (ensures_attributed h s e d _ _ trivial (Prod.ext hr rfl) r rfl)

end Recorder

open Recorder

/-- **Attribution is sound but for misleading reports.** Whatever schema a statement is attributed
to, one of its objects tells it, exactly if the report of the statement is not misleading; and so it
is with the schemas under which a ledger in memory and one in a database file its step. -/
theorem attribution_sound_iff (e : DdlEvent) :
    ((∀ schema, e.schema = .ok (some schema) → e.Concerns schema) ↔ ¬ e.Misleading) ∧
    ∀ s r,
      (∀ d : Desk MemoryLedger, (onEvent s e d).1 = .ok (some r) →
        (e.Concerns r.schema ↔ ¬ e.Misleading)) ∧
      ∀ d : Desk Database, (onEvent s e d).1 = .ok (some r) →
        (e.Concerns r.schema ↔ ¬ e.Misleading) := by
  refine ⟨⟨fun h hmisleading => ?_, fun hsound schema h => (e.concerns_iff h).mpr hsound⟩,
    fun s r => ⟨fun d => ?_, fun d => ?_⟩⟩
  · obtain ⟨schema, hschema, hother⟩ := hmisleading.exists_schema
    exact hother (h schema hschema)
  · exact concerns_iff_of_recorded answersSchema_memoryLedger
  · exact concerns_iff_of_recorded answersSchema_database

/-- A new schema is reported behind a table in it. What is returned is how the table is called. -/
theorem attributed_to_table :
    ¬ ∀ (e : DdlEvent) (schema : String), e.schema = .ok (some schema) → e.Concerns schema := by
  intro h
  let e : DdlEvent :=
    { phase := .commandEnd, tag := "CREATE SCHEMA", statement := "", timestamp := ⟨0, some 0⟩
      objects := [⟨"table", some "billing", "billing.t"⟩, ⟨"schema", none, "billing"⟩] }
  exact absurd (h e "billing.t" (by decide +kernel)) (by decide +kernel)

/-! ## Along a run -/

namespace Deed

/-- A deed adds records of its schema only. -/
theorem mem_of_mem_act {deed : Deed} {l : MemoryLedger} {r : Record}
    (hr : r ∈ (deed.act l).2.records) : r ∈ l.records ∨ deed.schema? = some r.schema := by
  by_cases h : deed.schema? = some r.schema
  · exact .inr h
  · have hown : (deed.act l).2.ofSchema r.schema = l.ofSchema r.schema :=
      MemoryLedger.only_eq_only.mp (only_act_of_ne h l)
    have hmem : r ∈ (deed.act l).2.ofSchema r.schema :=
      List.mem_filter.mpr ⟨hr, decide_eq_true rfl⟩
    rw [hown] at hmem
    exact .inl (List.mem_filter.mp hmem).1

/-- Every record that a run leaves was there before, or goes back to a deed about its schema. -/
theorem mem_of_mem_after {deeds : List Deed} {l : MemoryLedger} {r : Record}
    (hr : r ∈ (after (deeds.map act) l).records) :
    r ∈ l.records ∨ ∃ deed ∈ deeds, deed.schema? = some r.schema := by
  induction deeds generalizing l with
  | nil => exact .inl hr
  | cons deed rest ih =>
    obtain hmem | ⟨deed', hdeed', hschema⟩ := ih hr
    · exact (mem_of_mem_act hmem).imp_right fun hschema => ⟨deed, List.mem_cons_self, hschema⟩
    · exact .inr ⟨deed', List.mem_cons_of_mem _ hdeed', hschema⟩

/-- **Steps are filed where their statements tell.** If no report of a run is misleading, every
record that the run leaves was there before, or there was a call for its schema, or a report with an
object that tells its schema. -/
theorem told_of_mem_after {deeds : List Deed} {l : MemoryLedger} {r : Record}
    (hsound : ∀ s labels e, report s labels e ∈ deeds → ¬ e.Misleading)
    (hr : r ∈ (after (deeds.map act) l).records) :
    r ∈ l.records ∨ (∃ now c, call now c ∈ deeds ∧ c.schema? = some r.schema) ∨
      ∃ s labels e, report s labels e ∈ deeds ∧ e.Concerns r.schema := by
  refine (mem_of_mem_after hr).imp_right ?_
  rintro ⟨_ | ⟨s, labels, e⟩, hdeed, hschema⟩
  next now c => exact .inl ⟨now, c, hdeed, hschema⟩
  · have hconcerns := (e.concerns_iff (schema?_report.mp hschema)).mpr (hsound s labels e hdeed)
    exact .inr ⟨s, labels, e, hdeed, hconcerns⟩

end Deed

end SchemaLedger
