import SchemaLedger.Inference.Recorder
import SchemaLedger.Proofs.Ledger.Duplicates

/-!
# The schemas of a ledger in memory do not meet

All records of a ledger in memory are in one list, and the steps of different schemas may have the
same names and parents. This file shows that nothing passes from one schema to another all the same.

What is done about a schema is confined to it (`Confined`): it does the same on the ledger that
holds the records of this schema and no others, and it leaves the others as they are, in their
order. Both are shown of single questions and changes, and carried along the steps that operations
are made of, up to those of the recorder, which turns to the ledger six times for one report.

Since two ledgers with the same records of a schema are the same once the others are gone, an answer
about the schema cannot tell them apart (`schemas_isolated`). Along a whole run, what is done about
other schemas can be left out (`answersAbout_eq`).
-/

namespace SchemaLedger

open Attempt

/-! ## Operations on a part of the state -/

namespace Attempt

variable {ε σ δ α β : Type} {own : σ → σ} {rest : σ → δ}

/-- An operation is confined to a part of the state: it does the same where only its own part is
there, and it leaves the rest alone. -/
structure Confined (own : σ → σ) (rest : σ → δ) (x : Attempt ε σ α) : Prop where
  own : ∀ s, x (own s) = ((x s).1, own (x s).2)
  rest : ∀ s, rest (x s).2 = rest s

theorem confined_pure (a : α) : Confined own rest (pure a : Attempt ε σ α) :=
  ⟨fun _ => rfl, fun _ => rfl⟩

theorem confined_lift (x : Except ε α) : Confined own rest (lift x : Attempt ε σ α) :=
  ⟨fun _ => rfl, fun _ => rfl⟩

theorem confined_fail (e : ε) : Confined own rest (fail e : Attempt ε σ α) :=
  ⟨fun _ => rfl, fun _ => rfl⟩

/-- A question is confined to what is enough to answer it. -/
theorem confined_query {f : σ → Except ε α} (h : ∀ s, f (own s) = f s) :
    Confined own rest (query f) :=
  ⟨fun s => congrArg (·, own s) (h s), fun _ => rfl⟩

/-- A change is confined to what it can be made on alone. -/
theorem confined_modify {f : σ → σ} (hown : ∀ s, f (own s) = own (f s))
    (hrest : ∀ s, rest (f s) = rest s) :
    Confined own rest (Attempt.modify f : Attempt ε σ Unit) :=
  ⟨fun s => Prod.ext rfl (hown s), hrest⟩

/-- Steps are confined to the same part if each of them is. -/
theorem confined_bind {x : Attempt ε σ α} {f : α → Attempt ε σ β} (hx : Confined own rest x)
    (hf : ∀ a, Confined own rest (f a)) : Confined own rest (x >>= f) := by
  constructor <;> intro s
  · -- the first step answers the same on both states, so both go on alike or end here
    rw [bind_apply, bind_apply, hx.own s]
    rcases x s with ⟨_ | a, t⟩
    · rfl
    · exact (hf a).own t
  · rw [bind_apply, ← hx.rest s]
    rcases x s with ⟨_ | a, t⟩
    · rfl
    · exact (hf a).rest t

end Attempt

/-- The schema that a call is about; only the question for the schemas is about none. -/
def Call.schema? : Call → Option String
  | .insert r | .insertAtTip r => some r.schema
  | .get schema _ | .markDone schema _ _ | .delete schema _ | .isActive schema | .active schema
  | .latest schema | .previous schema | .history schema | .records schema
  | .latestNonInferred schema | .deleteInferredDuplicates schema _ _ | .versionLabels schema
  | .checkHistory schema => some schema
  | .schemas => none

namespace MemoryLedger

variable {l : MemoryLedger} {schema other : String}

/-! ## The records of one schema -/

/-- The ledger without the records of other schemas. -/
def only (schema : String) (l : MemoryLedger) : MemoryLedger := ⟨l.ofSchema schema⟩

/-- The records of all other schemas. -/
def others (schema : String) (l : MemoryLedger) : List Record :=
  l.records.filter (·.schema ≠ schema)

theorem ofSchema_only (schema : String) (l : MemoryLedger) :
    (l.only schema).ofSchema schema = l.ofSchema schema := by
  rw [only, ofSchema, ofSchema, List.filter_filter]
  simp only [Bool.and_self]

theorem only_eq_only {l' : MemoryLedger} :
    l'.only schema = l.only schema ↔ l'.ofSchema schema = l.ofSchema schema := by
  rw [only, only, mk.injEq]

/-- The records of another schema are among those of all others. -/
theorem ofSchema_others (hne : other ≠ schema) (l : MemoryLedger) :
    l.ofSchema other = (l.others schema).filter (·.schema = other) := by
  rw [others, ofSchema, List.filter_filter]
  refine List.filter_congr fun r _ => ?_
  by_cases hr : r.schema = other
  · simp [hr, hne]
  · simp [hr]

/-- A record is found among those of its schema. -/
theorem row?_only (schema name : String) (l : MemoryLedger) :
    Table.row? (l.only schema).records schema name = Table.row? l.records schema name := by
  rw [only, ofSchema, Table.row?, Table.row?, List.find?_filter]
  congr 1
  funext r
  by_cases hr : r.schema = schema <;> simp [hr]

theorem get_only (schema name : String) (l : MemoryLedger) :
    (l.only schema).get schema name = l.get schema name := by
  rw [get_eq, get_eq, row?_only]

/-- What holds of records of the schema only can be looked for among them. -/
theorem filter_only {p : Record → Bool} (hp : ∀ r, p r = true → r.schema = schema)
    (l : MemoryLedger) : (l.only schema).records.filter p = l.records.filter p := by
  rw [only, ofSchema, List.filter_filter]
  refine List.filter_congr fun r _ => ?_
  cases hr : p r with
  | false => rfl
  | true => simp [hp r hr]

/-- The checks of a new record look at its own schema only. -/
theorem violationFor_only (record : Record) (l : MemoryLedger) :
    violationFor (l.only record.schema).records record = violationFor l.records record := by
  have hsame : (l.only record.schema).records.filter (·.schema = record.schema) =
      l.records.filter (·.schema = record.schema) := ofSchema_only record.schema l
  rw [violationFor, violationFor, hsame]

/-! ## Changes to the records of one schema -/

/-- What is confined to the records of a schema. -/
abbrev ConfinedTo (schema : String) (x : Action MemoryLedger α) : Prop :=
  Confined (only schema) (others schema) x

theorem confined_append {r : Record} (hr : r.schema = schema) :
    ConfinedTo schema (Attempt.modify fun l => ⟨l.records ++ [r]⟩) := by
  refine confined_modify (fun l => ?_) fun l => ?_
  · have hjoined : Table.ofSchema (l.records ++ [r]) schema =
        Table.ofSchema l.records schema ++ [r] := Table.ofSchema_concat hr
    exact congrArg mk hjoined.symm
  · simp [others, hr]

theorem confined_update {f : Record → Record} (hf : KeepsPlace f) (schema name : String) :
    ConfinedTo schema (Attempt.modify fun l => l.update schema name f) := by
  have hkey := hf.onKey schema name
  refine confined_modify (fun l => ?_) fun l => ?_
  · exact congrArg mk (hkey.filter_schema l.records schema).symm
  · rw [others, others, update, List.filter_map, Function.comp_def]
    simp only [hkey.schema]
    refine (List.map_congr_left fun r hr => ?_).trans (List.map_id _)
    have hr : r.schema ≠ schema := of_decide_eq_true (List.mem_filter.mp hr).2
    exact if_neg fun hkey => hr hkey.1

theorem confined_remove {gone : Record → Bool} (hgone : ∀ r, gone r = true → r.schema = schema) :
    ConfinedTo schema (Attempt.modify fun l => ⟨l.records.filter (!gone ·)⟩) := by
  refine confined_modify (fun l => ?_) fun l => ?_
  · exact congrArg mk (filter_schema_comm l.records (!gone ·) schema).symm
  · rw [others, others, List.filter_filter]
    refine List.filter_congr fun r _ => ?_
    cases hr : gone r with
    | false => simp
    | true => simp [hgone r hr]

/-! ## What is done about a schema

Each operation asks first and makes one change at the end. -/

theorem insert_eq (now : Moment) (record : Record) :
    insert now record = (do
      query fun l => match violationFor l.records record with
        | some v => .error (.ledger (violationError v record))
        | none => .ok ()
      Attempt.modify fun l => ⟨l.records ++ [record.stamped now]⟩
      return record.stamped now) := by
  funext l
  rw [insert, bind_apply, query_apply]
  cases violationFor l.records record <;> rfl

theorem markDone_eq (now : Moment) (schema name : String) (resulting : Value) :
    markDone now schema name resulting = (do
      let r ← LedgerStore.get schema name
      if r.done then .fail (.ledger (.alreadyDone schema name))
      else match resulting.asMapping with
        | .error why => do
          Attempt.modify fun l => l.update schema name ({ · with done := true })
          .fail (.notMapping why)
        | .ok m => do
          let finish := fun r : Record =>
            { r with done := true, resultingSchema := .map m, updatedAt := some now }
          Attempt.modify fun l => l.update schema name finish
          return finish r) := by
  funext l
  have hget : LedgerStore.get schema name l = (l.get schema name, l) := rfl
  rw [markDone, bind_apply, hget]
  cases l.get schema name with
  | error e => rfl
  | ok r =>
    dsimp only
    cases r.done with
    | true => rfl
    | false => cases resulting.asMapping <;> rfl

theorem delete_eq (schema name : String) :
    delete schema name = (do
      let _ ← LedgerStore.get schema name
      if ← query fun l => .ok ((l.ofSchema schema).any (·.parent = some name)) then
        .fail (.ledger (.integrity .danglingParent schema (some name) none))
      else
        Attempt.modify fun l => ⟨l.records.filter fun r => !(r.schema = schema && r.name = name)⟩)
    := by
  funext l
  have hget : LedgerStore.get schema name l = (l.get schema name, l) := rfl
  rw [delete, bind_apply, hget]
  cases l.get schema name with
  | error e => rfl
  | ok r =>
    dsimp only
    rw [bind_apply, query_apply]
    cases (l.ofSchema schema).any (·.parent = some name) <;> rfl

theorem confined_get (schema name : String) : ConfinedTo schema (LedgerStore.get schema name) :=
  confined_query (get_only schema name)

theorem confined_insert (now : Moment) {record : Record} (hrecord : record.schema = schema) :
    ConfinedTo schema (insert now record) := by
  subst hrecord
  rw [insert_eq]
  refine confined_bind (confined_query fun l => ?_) fun _ =>
    confined_bind (confined_append rfl) fun _ => confined_pure _
  rw [violationFor_only]

theorem confined_markDone (now : Moment) (schema name : String) (resulting : Value) :
    ConfinedTo schema (markDone now schema name resulting) := by
  rw [markDone_eq]
  refine confined_bind (confined_get schema name) fun r => ?_
  split
  · exact confined_fail _
  · split
    next why _ =>
      have hdone : KeepsPlace fun r => { r with done := true } := keepsPlace_complete id id
      exact confined_bind (confined_update hdone ..) fun _ => confined_fail _
    next m _ =>
      have hfinish : KeepsPlace fun r =>
          { r with done := true, resultingSchema := .map m, updatedAt := some now } :=
        keepsPlace_complete (fun _ => .map m) fun _ => some now
      exact confined_bind (confined_update hfinish ..) fun _ => confined_pure _

theorem confined_delete (schema name : String) : ConfinedTo schema (delete schema name) := by
  rw [delete_eq]
  refine confined_bind (confined_get schema name) fun _ =>
    confined_bind (confined_query fun l => by rw [ofSchema_only]) fun hasChild => ?_
  split
  · exact confined_fail _
  · exact confined_remove fun r hr => of_decide_eq_true (Bool.and_eq_true_iff.mp hr).1

theorem deleteInferredDuplicates_eq (schema : String) (createdAt : Moment) (statement : String) :
    deleteInferredDuplicates schema createdAt statement = (do
      let count ← query fun l => (deleteInferredDuplicates schema createdAt statement l).1
      Attempt.modify fun l => ⟨l.records.filter (!isDuplicate schema createdAt statement ·)⟩
      return count) := by
  funext l
  rw [bind_apply, query_apply]
  rcases deleteInferredDuplicates_cases l schema createdAt statement with hok | ⟨e, herror⟩
  · rw [hok]
    rfl
  · rw [herror]

theorem confined_deleteInferredDuplicates (schema : String) (createdAt : Moment)
    (statement : String) :
    ConfinedTo schema (deleteInferredDuplicates schema createdAt statement) := by
  have hinferred : ∀ r, isInferredAt schema createdAt r = true → r.schema = schema := by
    intro r hr
    exact of_decide_eq_true (Bool.and_eq_true_iff.mp (Bool.and_eq_true_iff.mp hr).1).1
  have hduplicate : ∀ r, isDuplicate schema createdAt statement r = true → r.schema = schema :=
    fun r hr => hinferred r (Bool.and_eq_true_iff.mp hr).1
  rw [deleteInferredDuplicates_eq]
  refine confined_bind (confined_query fun l => ?_) fun _ =>
    confined_bind (confined_remove hduplicate) fun _ => confined_pure _
  have hcount : (l.only schema).records.countP (isDuplicate schema createdAt statement) =
      l.records.countP (isDuplicate schema createdAt statement) := by
    rw [List.countP_eq_length_filter, filter_only hduplicate, List.countP_eq_length_filter]
  unfold deleteInferredDuplicates
  dsimp only
  rw [filter_only hinferred]
  split
  · rfl
  · exact congrArg Except.ok hcount

theorem latest_only (schema : String) (l : MemoryLedger) :
    (l.only schema).latest schema = l.latest schema := by
  rw [latest, latest, ofSchema_only]

theorem confined_active (schema : String) :
    ConfinedTo schema (LedgerStore.active schema) :=
  confined_query fun l => by rw [active, active, ofSchema_only]

theorem confined_latest (schema : String) : ConfinedTo schema (LedgerStore.latest schema) :=
  confined_query (latest_only schema)

theorem confined_previous (schema : String) : ConfinedTo schema (LedgerStore.previous schema) := by
  refine confined_query fun l => ?_
  simp only [previous, latest_only, get_only]

theorem confined_history (schema : String) : ConfinedTo schema (LedgerStore.history schema) :=
  confined_query fun l => by rw [history, history, latest_only, ofSchema_only]

theorem confined_records (schema : String) : ConfinedTo schema (LedgerStore.records schema) :=
  confined_query fun l => by rw [ofSchema_only]

theorem confined_latestNonInferred (schema : String) :
    ConfinedTo schema (LedgerStore.latestNonInferred schema) :=
  confined_query fun l => by rw [latestNonInferred, latestNonInferred, ofSchema_only]

theorem confined_isActive (schema : String) :
    ConfinedTo schema (LedgerStore.isActive schema) :=
  confined_bind (confined_active schema) fun _ => confined_pure _

theorem confined_versionLabels (schema : String) :
    ConfinedTo schema (LedgerStore.versionLabels schema) :=
  confined_bind (confined_records schema) fun _ => confined_pure _

/-- A call is confined to the schema that it is about. -/
theorem confined_call {c : Call} {schema : String} (h : c.schema? = some schema) (now : Moment) :
    ConfinedTo schema (c.run now) := by
  cases c <;> cases h
  case insert r => exact confined_bind (confined_insert now rfl) fun _ => confined_pure _
  case insertAtTip r =>
    refine confined_bind ?_ fun _ => confined_pure _
    exact confined_bind (confined_latest _) fun _ => confined_insert now rfl
  case markDone name v => exact confined_bind (confined_markDone ..) fun _ => confined_pure _
  case delete name => exact confined_bind (confined_delete ..) fun _ => confined_pure _
  case deleteInferredDuplicates t s =>
    exact confined_bind (confined_deleteInferredDuplicates ..) fun _ => confined_pure _
  case get name => exact confined_bind (confined_query (get_only _ name)) fun _ => confined_pure _
  case isActive => exact confined_bind (confined_isActive _) fun _ => confined_pure _
  case active => exact confined_bind (confined_active _) fun _ => confined_pure _
  case latest => exact confined_bind (confined_latest _) fun _ => confined_pure _
  case previous => exact confined_bind (confined_previous _) fun _ => confined_pure _
  case history => exact confined_bind (confined_history _) fun _ => confined_pure _
  case records => exact confined_bind (confined_records _) fun _ => confined_pure _
  case latestNonInferred =>
    exact confined_bind (confined_latestNonInferred _) fun _ => confined_pure _
  case versionLabels => exact confined_bind (confined_versionLabels _) fun _ => confined_pure _
  case checkHistory =>
    exact confined_bind (confined_bind (confined_records _) fun _ => confined_pure _) fun _ =>
      confined_pure _

end MemoryLedger

/-! ## The steps of the recorder -/

namespace Recorder

section Desk

variable {σ δ α : Type} {own : σ → σ} {rest : σ → δ}

/-- What is confined to a part of the ledger. The labels that are left and the requests that were
made are looked at and changed freely. -/
abbrev ConfinedOnDesk (own : σ → σ) (rest : σ → δ) (x : Action (Desk σ) α) : Prop :=
  Confined (fun d => { d with ledger := own d.ledger }) (fun d => rest d.ledger) x

theorem confined_onLedger {x : Action σ α} (hx : Confined own rest x) :
    ConfinedOnDesk own rest (onLedger x) := by
  constructor <;> intro d
  · simp only [onLedger, within, hx.own d.ledger]
  · exact hx.rest d.ledger

theorem confined_note (r : Request) : ConfinedOnDesk own rest (note r) :=
  ⟨fun _ => rfl, fun _ => rfl⟩

theorem confined_readClock (s : Surroundings) : ConfinedOnDesk own rest (readClock s) :=
  confined_bind (confined_note _) fun _ => confined_pure _

theorem confined_readSnapshot (s : Surroundings) (schema : String) :
    ConfinedOnDesk own rest (readSnapshot s schema) :=
  confined_bind (confined_note _) fun _ => confined_lift _

theorem confined_drawLabel (taken : List String) : ConfinedOnDesk own rest (drawLabel taken) :=
  ⟨fun _ => rfl, fun _ => rfl⟩

end Desk

open MemoryLedger

/-- What is confined to the records of a schema. -/
abbrev ConfinedTo (schema : String) (x : Action (Desk MemoryLedger) α) : Prop :=
  ConfinedOnDesk (only schema) (others schema) x

theorem confined_freshLabel (schema : String) : ConfinedTo schema (freshLabel schema) :=
  confined_bind (confined_onLedger (confined_versionLabels schema)) fun taken =>
    confined_drawLabel taken

theorem confined_nameStep (s : Surroundings) (e : DdlEvent) (schema : String) :
    ConfinedTo schema (nameStep s e schema) := by
  refine confined_bind (confined_onLedger (confined_deleteInferredDuplicates ..)) fun _ => ?_
  refine confined_bind (confined_onLedger (confined_latest schema)) fun latest => ?_
  refine confined_bind (confined_readClock s) fun now => ?_
  refine confined_bind (confined_onLedger (confined_latestNonInferred schema)) fun base => ?_
  exact confined_pure _

/-- Each step of a record is confined to the schema of the record. -/
theorem confined_record (s : Surroundings) (e : DdlEvent) (schema : String) :
    ConfinedTo schema (record s e schema) := by
  refine confined_bind (confined_nameStep s e schema) fun n => ?_
  refine confined_bind (confined_freshLabel schema) fun label => ?_
  refine confined_bind (confined_readSnapshot s schema) fun snapshot => ?_
  exact confined_onLedger (confined_insert s.now rfl)

/-- A report is confined to the schema that its statement belongs to. -/
theorem confined_onEvent (s : Surroundings) {e : DdlEvent} {schema : String}
    (h : e.schema = .ok (some schema)) : ConfinedTo schema (onEvent s e) := by
  unfold onEvent unlessIgnored
  split
  · exact confined_pure _
  · rw [h]
    refine confined_bind (confined_onLedger (confined_isActive schema)) fun active => ?_
    split
    · exact confined_pure _
    · exact confined_bind (confined_record s e schema) fun _ => confined_pure _

/-- A statement that belongs to no one schema is not recorded. -/
theorem onEvent_of_no_schema (s : Surroundings) {e : DdlEvent}
    (h : e.schema.toOption.join = none) (d : Desk MemoryLedger) :
    onEvent s e d = (.ok none, d) := by
  unfold onEvent unlessIgnored
  split
  · rfl
  · match hschema : e.schema with
    | .error _ | .ok none => rfl
    | .ok (some schema) =>
      rw [hschema] at h
      nomatch h

end Recorder

/-! ## What comes to a ledger -/

/-- What is done to a ledger: a call, or a statement from outside that the recorder is told of. The
clock, the snapshots and the supply of labels may be different each time. -/
inductive Deed where
  | call (now : Moment) (c : Call)
  | report (s : Surroundings) (labels : List String) (e : DdlEvent)

namespace Deed

open MemoryLedger

/-- The schema that a deed is about, if there is one. -/
def schema? : Deed → Option String
  | call _ c => c.schema?
  | report _ _ e => e.schema.toOption.join

theorem schema?_report {s : Surroundings} {labels : List String} {e : DdlEvent} {schema : String} :
    (report s labels e).schema? = some schema ↔ e.schema = .ok (some schema) := by
  rw [schema?]
  rcases e.schema with _ | _ | other <;> simp [Except.toOption]

/-- What a deed does to a ledger in memory. -/
def act : Deed → Action MemoryLedger Answer
  | call now c => c.run now
  | report s labels e => fun l =>
    let (answer, desk) := Recorder.onEvent s e { ledger := l, labels }
    (answer.map .record?, desk.ledger)

/-- A deed is confined to the schema that it is about. -/
theorem confined_act {deed : Deed} {schema : String} (h : deed.schema? = some schema) :
    ConfinedTo schema deed.act := by
  cases deed with
  | call now c => exact confined_call h now
  | report s labels e =>
    have hconfined := Recorder.confined_onEvent s (schema?_report.mp h)
    refine ⟨fun l => ?_, fun l => hconfined.rest { ledger := l, labels }⟩
    have hown := hconfined.own { ledger := l, labels }
    dsimp only [act] at hown ⊢
    rw [hown]

/-- A deed that is about no schema changes nothing. -/
theorem act_of_no_schema {deed : Deed} (h : deed.schema? = none) (l : MemoryLedger) :
    (deed.act l).2 = l := by
  cases deed with
  | call now c => cases c <;> first | rfl | nomatch h
  | report s labels e =>
    exact congrArg (·.2.ledger) (Recorder.onEvent_of_no_schema s h { ledger := l, labels })

/-- A deed that is about another schema, or about none, leaves the records of a schema alone. -/
theorem only_act_of_ne {deed : Deed} {schema : String} (h : deed.schema? ≠ some schema)
    (l : MemoryLedger) : (deed.act l).2.only schema = l.only schema := by
  cases hdeed : deed.schema? with
  | none => rw [act_of_no_schema hdeed]
  | some other =>
    have hne : schema ≠ other := fun heq => h (by rw [hdeed, heq])
    rw [only, only, ofSchema_others hne, ofSchema_others hne, (confined_act hdeed).rest]

/-- **Schemas are isolated.** What is done about a schema changes the answer to no call about
another one. And what it answers and what it leaves of its schema depend on the records of this
schema only: two ledgers may differ in all others. -/
theorem schemas_isolated {deed : Deed} {schema : String} (h : deed.schema? = some schema)
    (l : MemoryLedger) :
    (∀ (now : Moment) (c : Call) (other : String), c.schema? = some other → other ≠ schema →
      (c.run now (deed.act l).2).1 = (c.run now l).1) ∧
    ∀ l' : MemoryLedger, l'.ofSchema schema = l.ofSchema schema →
      (deed.act l').1 = (deed.act l).1 ∧
        (deed.act l').2.ofSchema schema = (deed.act l).2.ofSchema schema := by
  constructor
  · intro now c other hother hne
    -- the call is answered from the records of `other`, and the deed leaves these as they are
    have hc := (confined_call hother now).own
    have hsame : (deed.act l).2.only other = l.only other :=
      only_act_of_ne (by rw [h]; simpa using hne.symm) l
    calc (c.run now (deed.act l).2).1
        = (c.run now ((deed.act l).2.only other)).1 := by rw [hc]
      _ = (c.run now (l.only other)).1 := by rw [hsame]
      _ = (c.run now l).1 := by rw [hc]
  · intro l' hl'
    have hown := (confined_act h).own
    have hsame : ((deed.act l').1, (deed.act l').2.only schema) =
        ((deed.act l).1, (deed.act l).2.only schema) := by
      rw [← hown, ← hown, only_eq_only.mpr hl']
    obtain ⟨hanswer, hleft⟩ := Prod.mk.inj hsame
    exact ⟨hanswer, only_eq_only.mp hleft⟩

/-- A statement that touches `public` is recorded, whichever steps of `billing` have the names of
those of `public` and whichever of them is in progress. -/
theorem schemas_isolated_of_same_names :
    let base : Record :=
      { schema := "public", name := "01_create", done := true, createdAt := some ⟨0, some 0⟩ }
    let opened : Record :=
      { base with schema := "billing", name := "02_add", parent := some "01_create", done := false }
    let l : MemoryLedger := ⟨[{ base with schema := "billing" }, base, opened]⟩
    let l' : MemoryLedger := ⟨[{ opened with name := "01_create", parent := none }, base]⟩
    let deed : Deed := .report ⟨false, ⟨6, some 0⟩, fun _ => .ok (.map [])⟩ ["01_create", "sql_1"]
      { phase := .commandEnd, tag := "CREATE TABLE", statement := "create table a (id int)"
        timestamp := ⟨5, some 0⟩, objects := [⟨"table", some "public", "public.a"⟩] }
    deed.schema? = some "public" ∧ ((deed.act l).2.ofSchema "public").length = 2 ∧
      ((Call.active "billing").run ⟨7, some 0⟩ (deed.act l).2).1 =
        ((Call.active "billing").run ⟨7, some 0⟩ l).1 ∧
      (deed.act l').1 = (deed.act l).1 ∧
      (deed.act l').2.ofSchema "public" = (deed.act l).2.ofSchema "public" := by
  intro base opened l l' deed
  have h : deed.schema? = some "public" := by decide +kernel
  obtain ⟨hothers, hsame⟩ := schemas_isolated h l
  exact ⟨h, by decide +kernel, hothers _ _ "billing" rfl (by decide), hsame l' (by decide)⟩

/-- The answers to those deeds of a run that are about a schema. -/
def answersAbout (schema : String) : List Deed → MemoryLedger → List (Except Failure Answer)
  | [], _ => []
  | deed :: rest, l =>
    let later := answersAbout schema rest (deed.act l).2
    if deed.schema? = some schema then (deed.act l).1 :: later else later

/-- What is done about other schemas can be left out of a run, and their records out of the ledger:
nothing of them shows in the answers about a schema. -/
theorem answersAbout_eq (schema : String) (deeds : List Deed) (l : MemoryLedger) :
    answersAbout schema deeds l =
      (trace ((deeds.filter (·.schema? = some schema)).map act) (l.only schema)).map (·.1) := by
  induction deeds generalizing l with
  | nil => rfl
  | cons deed rest ih =>
    rw [answersAbout, List.filter_cons]
    by_cases h : deed.schema? = some schema
    · rw [if_pos h, if_pos (decide_eq_true h), List.map_cons, trace, List.map_cons,
        (confined_act h).own, ih]
    · rw [if_neg h, if_neg (by simpa using h), ih, only_act_of_ne h]

end Deed

end SchemaLedger
