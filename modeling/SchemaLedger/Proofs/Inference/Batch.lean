import SchemaLedger.Proofs.Inference.FreshLabel
import SchemaLedger.Proofs.Inference.Report
import SchemaLedger.Proofs.Ledger.Duplicates
import SchemaLedger.Proofs.Ledger.Greatest

/-!
# Statements that were sent together

Statements that were sent together are reported one by one, with one time and with the text of all
of them. The recorder makes a step of each report, and takes back the step of the report before it.
So what stays of a batch is the step of its last report, on top of the history as it was
(`batch_recorded_once`).

Between two reports the ledger is the one before the batch with at most a step of the batch more
(`Between`), and the removal of duplicates takes just that step
(`Between.deleteInferredDuplicates`). So every report finds the same tip, the same labels in use and
the same step to take its name from, and its own step joins where the one before it stood
(`record_recorded`).
-/

namespace SchemaLedger

open Attempt

/-! ## Questions that have an answer -/

theorem statement_of_inferredPayload {r : Record} {statement label : String}
    (h : r.migration = inferredPayload statement label) : r.statement = .ok (.text statement) := by
  rw [Record.statement, h]
  rfl

theorem label_of_inferredPayload {r : Record} {statement label : String}
    (h : r.migration = inferredPayload statement label) : r.label = label := by
  rw [Record.label, h]
  rfl

namespace MemoryLedger

variable {l : MemoryLedger} {schema statement : String} {t : Moment}

/-- The latest step that was not inferred is found if the offsets of all times are known. -/
theorem exists_latestNonInferred
    (h : ∀ r ∈ l.ofSchema schema, ∃ t, r.createdAt = some t ∧ t.offset.isSome = true) :
    ∃ base, l.latestNonInferred schema = .ok base := by
  refine greatest?_ok fun r hr s hs => ?_
  obtain ⟨u, hu, huknown⟩ := h r (List.mem_filter.mp hr).1
  obtain ⟨v, hv, hvknown⟩ := h s (List.mem_filter.mp hs).1
  obtain ⟨order, horder⟩ := Moment.exists_compare? huknown hvknown
  rw [createdLater, hu, hv, Option.bind_some, Option.bind_some, horder]
  exact ⟨_, rfl⟩

theorem isInferredAt_iff {r : Record} : isInferredAt schema t r = true ↔
    r.schema = schema ∧ r.migrationType = "inferred" ∧
      ∃ u, r.createdAt = some u ∧ u.same t = true := by
  rw [isInferredAt, Bool.and_eq_true, Bool.and_eq_true, decide_eq_true_iff, decide_eq_true_iff,
    and_assoc]
  cases r.createdAt <;> simp

theorem holdsStatement_iff {r : Record} :
    holdsStatement statement r = true ↔ r.statement = .ok (.text statement) := by
  rw [holdsStatement]
  cases r.statement <;> simp

theorem isDuplicate_iff {r : Record} : isDuplicate schema t statement r = true ↔
    isInferredAt schema t r = true ∧ r.statement = .ok (.text statement) := by
  rw [isDuplicate, Bool.and_eq_true, holdsStatement_iff]

/-- The removal of duplicates goes through if the statements of all steps of the time can be
read. -/
theorem deleteInferredDuplicates_ok (statement : String)
    (h : ∀ r ∈ l.records, isInferredAt schema t r = true → ∃ v, r.statement = .ok v) :
    deleteInferredDuplicates schema t statement l =
      (.ok (l.records.countP (isDuplicate schema t statement)),
        ⟨l.records.filter (!isDuplicate schema t statement ·)⟩) := by
  rcases deleteInferredDuplicates_cases l schema t statement with hok | ⟨e, herror⟩
  · exact hok
  · unfold deleteInferredDuplicates at herror
    dsimp only at herror
    split at herror
    next e' hunreadable =>
      obtain ⟨r, hr, hstatement⟩ := List.exists_of_findSome?_eq_some hunreadable
      obtain ⟨hr, hat⟩ := List.mem_filter.mp hr
      obtain ⟨v, hv⟩ := h r hr hat
      rw [hv] at hstatement
      nomatch hstatement
    next => nomatch herror

end MemoryLedger

namespace Recorder

/-- A history on top of which a batch can be recorded that was sent at `t`. -/
structure Recordable (l : MemoryLedger) (schema : String) (t : Moment) (statement : String) :
    Prop where
  /-- The records of the schema are one chain. -/
  arranged : ∃ chain, Arranges chain (l.ofSchema schema)
  /-- No migration is in progress. -/
  settled : Settled (l.ofSchema schema)
  /-- The offsets of all times are known. -/
  aware : ∀ r ∈ l.ofSchema schema, ∃ u, r.createdAt = some u ∧ u.offset.isSome = true
  /-- The steps that were inferred hold a statement and a label. -/
  payloads : ∀ r ∈ l.ofSchema schema, r.migrationType = "inferred" →
    ∃ stated label, r.migration = inferredPayload stated label
  /-- None of them has both the time and the statement of the batch. -/
  unrecorded : ∀ r ∈ l.ofSchema schema, r.migrationType = "inferred" →
    (∃ u, r.createdAt = some u ∧ u.same t = true) → r.statement ≠ .ok (.text statement)

/-- A report of a batch that can be recorded. -/
structure Reported (l : MemoryLedger) (schema : String) (t : Moment) (statement : String)
    (s : Surroundings) (e : DdlEvent) : Prop where
  unsuppressed : s.suppressed = false
  attributed : e.schema = .ok (some schema)
  timestamp : e.timestamp = t
  text : e.statement = statement
  /-- The snapshot of the schema can be read. -/
  readable : ∃ v, s.snapshot schema = .ok v
  /-- No record of the schema has the name of the step. -/
  unused : ∀ base, l.latestNonInferred schema = .ok base →
    ∀ r ∈ l.ofSchema schema, r.name ≠ nextName base s.now

/-- The labels that are in use in a schema. -/
def takenLabels (l : MemoryLedger) (schema : String) : List String :=
  (l.ofSchema schema).map (·.label)

/-- A step that was inferred from a batch, on top of a history. -/
structure IsStep (old : List Record) (schema : String) (t : Moment) (statement : String)
    (r : Record) : Prop where
  schema : r.schema = schema
  name : ∀ s ∈ old, s.name ≠ r.name
  parent : r.parent = tipName old
  done : r.done = true
  migrationType : r.migrationType = "inferred"
  statement : r.statement = .ok (.text statement)
  createdAt : r.createdAt = some t
  label : ∀ s ∈ old, s.label ≠ r.label

/-- Between two reports of a batch the ledger has at most steps of the batch more. -/
def Between (l : MemoryLedger) (old : List Record) (schema : String) (t : Moment)
    (statement : String) (now : MemoryLedger) : Prop :=
  ∃ left, now.records = l.records ++ left ∧ ∀ r ∈ left, IsStep old schema t statement r

variable {l now : MemoryLedger} {schema statement : String} {t : Moment} {old : List Record}

/-! ## What a report finds -/

/-- A step has the time of its batch. -/
theorem IsStep.isInferredAt {r : Record} (h : IsStep old schema t statement r) :
    MemoryLedger.isInferredAt schema t r = true :=
  MemoryLedger.isInferredAt_iff.mpr ⟨h.schema, h.migrationType, t, h.createdAt, t.same_self⟩

/-- Whatever has the time of the batch has a statement. -/
theorem Between.readable (h : Recordable l schema t statement)
    (hnow : Between l old schema t statement now) :
    ∀ r ∈ now.records, MemoryLedger.isInferredAt schema t r = true → ∃ v, r.statement = .ok v := by
  obtain ⟨left, hrecords, hleft⟩ := hnow
  intro r hr hat
  rw [hrecords, List.mem_append] at hr
  rcases hr with hr | hr
  · obtain ⟨hschema, htype, -⟩ := MemoryLedger.isInferredAt_iff.mp hat
    have hr : r ∈ l.ofSchema schema := List.mem_filter.mpr ⟨hr, decide_eq_true hschema⟩
    obtain ⟨stated, label, hpayload⟩ := h.payloads r hr htype
    exact ⟨_, statement_of_inferredPayload hpayload⟩
  · exact ⟨_, (hleft r hr).statement⟩

/-- The removal of duplicates leaves the ledger as it was before the batch. -/
theorem Between.deleteInferredDuplicates (h : Recordable l schema t statement)
    (hnow : Between l old schema t statement now) :
    ∃ n, LedgerStore.deleteInferredDuplicates schema t statement now = (.ok n, l) := by
  have hok := MemoryLedger.deleteInferredDuplicates_ok statement (hnow.readable h)
  obtain ⟨left, hrecords, hleft⟩ := hnow
  have hkept : now.records.filter (!MemoryLedger.isDuplicate schema t statement ·) = l.records := by
    rw [hrecords, List.filter_append, List.filter_eq_self.mpr, List.filter_eq_nil_iff.mpr,
      List.append_nil]
    · intro r hr
      rw [MemoryLedger.isDuplicate_iff.mpr ⟨(hleft r hr).isInferredAt, (hleft r hr).statement⟩]
      exact Bool.false_ne_true
    · intro r hr
      rw [Bool.not_eq_true', ← Bool.not_eq_true, MemoryLedger.isDuplicate_iff]
      rintro ⟨hat, hstatement⟩
      obtain ⟨hschema, htype, htime⟩ := MemoryLedger.isInferredAt_iff.mp hat
      have hr : r ∈ l.ofSchema schema := List.mem_filter.mpr ⟨hr, decide_eq_true hschema⟩
      exact h.unrecorded r hr htype htime hstatement
  rw [hkept] at hok
  exact ⟨_, hok⟩

/-- No migration is in progress, since a step is done right away. -/
theorem Between.isActive (h : Recordable l schema t statement)
    (hnow : Between l old schema t statement now) :
    LedgerStore.isActive schema now = (.ok false, now) := by
  obtain ⟨left, hrecords, hleft⟩ := hnow
  have hnone : now.active schema = none := by
    refine List.find?_eq_none.mpr fun r hr => ?_
    rw [MemoryLedger.ofSchema, hrecords, List.filter_append, List.mem_append] at hr
    have hdone : r.done = true :=
      hr.elim (h.settled r) fun hr => (hleft r (List.mem_filter.mp hr).1).done
    rw [hdone]
    exact Bool.false_ne_true
  show (Except.ok (now.active schema).isSome, now) = _
  rw [hnone]
  rfl

/-! ## The step of a report -/

/-- The record that a report adds. -/
def stepRecord (schema : String) (t : Moment) (statement : String) (parent : Option String)
    (name label : String) (snapshot : Value) : Record :=
  { schema, name, parent
    migration := inferredPayload statement label
    done := true
    resultingSchema := snapshot
    migrationType := "inferred"
    createdAt := some t
    updatedAt := some t }

/-- A step joins under the tip if its name and its label are new ones. -/
theorem insert_stepRecord (h : Arranges old (l.ofSchema schema)) (now t : Moment)
    (statement : String) {name label : String} {snapshot : Value}
    (hname : ∀ r ∈ l.ofSchema schema, r.name ≠ name) :
    LedgerStore.insert now (stepRecord schema t statement (tipName old) name label snapshot) l =
      (.ok (stepRecord schema t statement (tipName old) name label snapshot),
        ⟨l.records ++ [stepRecord schema t statement (tipName old) name label snapshot]⟩) := by
  have hfits : violationFor l.records
      (stepRecord schema t statement (tipName old) name label snapshot) = none := by
    refine violationFor_eq_none.mpr ⟨by simp [stepRecord, migrationTypes], hname, .inl rfl, ?_⟩
    exact h.freePlace_iff.mpr rfl
  show MemoryLedger.insert now _ l = _
  rw [MemoryLedger.insert, hfits]
  rfl

/-- The place and the name of a step are asked of the ledger when the duplicates are gone. -/
theorem nameStep_ok {base : Option Record} (hold : Arranges old (l.ofSchema schema))
    (hbase : l.latestNonInferred schema = .ok base) {e : DdlEvent} {d : Desk MemoryLedger} {n : Nat}
    (hremoved : LedgerStore.deleteInferredDuplicates schema e.timestamp e.statement d.ledger =
      (.ok n, l)) (s : Surroundings) :
    nameStep s e schema d =
      (.ok { parent := tipName old, base, now := s.now },
        ⟨l, d.labels, d.requests ++ [.time]⟩) := by
  have hlatest : LedgerStore.latest schema l = (.ok old.getLast?, l) :=
    congrArg (·, l) (MemoryLedger.latest_eq hold)
  have hclock : readClock s (⟨l, d.labels, d.requests⟩ : Desk MemoryLedger) =
      (.ok s.now, ⟨l, d.labels, d.requests ++ [.time]⟩) := rfl
  have hask : onLedger (LedgerStore.latestNonInferred schema)
      ⟨l, d.labels, d.requests ++ [.time]⟩ = (.ok base, ⟨l, d.labels, d.requests ++ [.time]⟩) :=
    onLedger_ok (congrArg (·, l) hbase)
  rw [nameStep, bind_ok (onLedger_ok hremoved), bind_ok (onLedger_ok hlatest), bind_ok hclock,
    bind_ok hask]
  rfl

/-- As long as there is a label that is not in use, one is drawn, and one fewer is left. -/
theorem freshLabel_ok {labels : List String}
    (h : 0 < labels.countP (· ∉ takenLabels l schema)) (requests : List Request) :
    ∃ label left more,
      freshLabel schema ⟨l, labels, requests⟩ = (.ok label, ⟨l, left, more⟩) ∧
      label ∉ takenLabels l schema ∧
      labels.countP (· ∉ takenLabels l schema) ≤
        left.countP (· ∉ takenLabels l schema) + 1 := by
  have hsome : ∃ x ∈ labels, ¬ x ∈ takenLabels l schema := by
    simpa using List.countP_pos_iff.mp h
  obtain ⟨passed, label, left, rfl, hpassed, hfree⟩ := exists_first_without hsome
  have hrecords : LedgerStore.records schema l = (.ok (l.ofSchema schema), l) := rfl
  have hdrawn := freshLabel_first hrecords (fun x hx => List.mem_map.mp (hpassed x hx))
    (mt List.mem_map.mpr hfree) left requests
  refine ⟨label, left, _, hdrawn, hfree, ?_⟩
  have hnone : passed.countP (· ∉ takenLabels l schema) = 0 :=
    List.countP_eq_zero.mpr (by simpa using hpassed)
  rw [List.countP_append, hnone, Nat.zero_add, List.countP_cons_of_pos (by simpa using hfree)]

/-- **A report is recorded.** Whatever its batch left so far is gone, and its own step stands on top
of the history. -/
theorem record_recorded (h : Recordable l schema t statement)
    (hold : Arranges old (l.ofSchema schema)) {s : Surroundings} {e : DdlEvent}
    (he : Reported l schema t statement s e) {d : Desk MemoryLedger}
    (hd : Between l old schema t statement d.ledger)
    (hlabels : 0 < d.labels.countP (· ∉ takenLabels l schema)) :
    ∃ r left requests, record s e schema d = (.ok r, ⟨⟨l.records ++ [r]⟩, left, requests⟩) ∧
      IsStep old schema t statement r ∧ s.snapshot schema = .ok r.resultingSchema ∧
      d.labels.countP (· ∉ takenLabels l schema) ≤
        left.countP (· ∉ takenLabels l schema) + 1 := by
  obtain ⟨n, hremoved⟩ := hd.deleteInferredDuplicates h
  obtain ⟨base, hbase⟩ := MemoryLedger.exists_latestNonInferred h.aware
  obtain ⟨v, hv⟩ := he.readable
  obtain ⟨label, left, labelled, hlabel, hfree, hle⟩ :=
    freshLabel_ok hlabels (d.requests ++ [.time])
  let r := stepRecord schema t statement (tipName old) (nextName base s.now) label v
  have hinsert : LedgerStore.insert s.now r l = (.ok r, ⟨l.records ++ [r]⟩) :=
    insert_stepRecord hold s.now t statement (he.unused base hbase)
  have hsnapshot : readSnapshot s schema (⟨l, left, labelled⟩ : Desk MemoryLedger) =
      (.ok v, ⟨l, left, labelled ++ [.snapshot schema]⟩) := by
    rw [← hv]
    rfl
  refine ⟨r, left, labelled ++ [.snapshot schema], ?_, ?_, hv, hle⟩
  · rw [← he.timestamp, ← he.text] at hremoved
    rw [record, bind_ok (nameStep_ok hold hbase hremoved s), recordNamed, he.timestamp, he.text,
      bind_ok hlabel, bind_ok hsnapshot]
    exact onLedger_ok hinsert
  · have hpayload : r.migration = inferredPayload statement label := rfl
    refine ⟨rfl, fun u hu => ?_, rfl, rfl, rfl, statement_of_inferredPayload hpayload, rfl,
      fun u hu => ?_⟩
    · exact he.unused base hbase u (hold.mem_iff.mp hu)
    · rw [label_of_inferredPayload hpayload]
      rintro rfl
      exact hfree (List.mem_map_of_mem (hold.mem_iff.mp hu))

theorem onEvent_recorded (h : Recordable l schema t statement)
    (hold : Arranges old (l.ofSchema schema)) {s : Surroundings} {e : DdlEvent}
    (he : Reported l schema t statement s e) {d : Desk MemoryLedger}
    (hd : Between l old schema t statement d.ledger)
    (hlabels : 0 < d.labels.countP (· ∉ takenLabels l schema)) :
    ∃ r left requests, onEvent s e d = (.ok (some r), ⟨⟨l.records ++ [r]⟩, left, requests⟩) ∧
      IsStep old schema t statement r ∧ s.snapshot schema = .ok r.resultingSchema ∧
      d.labels.countP (· ∉ takenLabels l schema) ≤
        left.countP (· ∉ takenLabels l schema) + 1 := by
  obtain ⟨r, left, requests, hrecord, hrest⟩ := record_recorded h hold he hd hlabels
  refine ⟨r, left, requests, unlessIgnored_eq_some.mpr ?_, hrest⟩
  exact ⟨he.unsuppressed, schema, he.attributed, d, onLedger_ok (hd.isActive h), hrecord⟩

/-! ## A whole batch -/

/-- The reports of a batch, one after another. -/
def reports (events : List (Surroundings × DdlEvent)) :
    List (Action (Desk MemoryLedger) (Option Record)) :=
  events.map fun e => onEvent e.1 e.2

/-- The reports of a batch leave one step. -/
structure LeavesStep (l : MemoryLedger) (old : List Record) (schema : String) (t : Moment)
    (statement : String) (events : List (Surroundings × DdlEvent)) (d : Desk MemoryLedger)
    (r : Record) : Prop where
  /-- The step is the one record that is new. -/
  ledger : (after (reports events) d).ledger = ⟨l.records ++ [r]⟩
  step : IsStep old schema t statement r
  /-- Every report was answered with a step, and the last one with the step that is left. -/
  answers : ∀ m ∈ trace (reports events) d, ∃ recorded, m.1 = .ok (some recorded)
  last : (trace (reports events) d).getLast?.map (·.1) = some (.ok (some r))
  /-- It has the snapshot that was read for the last report. -/
  snapshot : (events.getLast?.map fun e => e.1.snapshot schema) = some (.ok r.resultingSchema)

/-- The induction is on the reports; each of them finds at most the step of the one before it. -/
theorem exists_leavesStep (h : Recordable l schema t statement)
    (hold : Arranges old (l.ofSchema schema)) {events : List (Surroundings × DdlEvent)}
    (hevents : ∀ e ∈ events, Reported l schema t statement e.1 e.2) (hne : events ≠ [])
    {d : Desk MemoryLedger} (hd : Between l old schema t statement d.ledger)
    (hlabels : events.length ≤ d.labels.countP (· ∉ takenLabels l schema)) :
    ∃ r, LeavesStep l old schema t statement events d r := by
  induction events generalizing d with
  | nil => exact absurd rfl hne
  | cons e rest ih =>
    obtain ⟨he, hrest⟩ := List.forall_mem_cons.mp hevents
    rw [List.length_cons] at hlabels
    obtain ⟨r, left, requests, hreport, hstep, hsnapshot, hle⟩ :=
      onEvent_recorded h hold he hd (by omega)
    cases rest with
    | nil =>
      refine ⟨r, ?_, hstep, ?_, ?_, ?_⟩
      · rw [reports, List.map_singleton, after, hreport]
        rfl
      · rw [reports, List.map_singleton, trace, hreport]
        exact List.forall_mem_singleton.mpr ⟨r, rfl⟩
      · rw [reports, List.map_singleton, trace, hreport]
        rfl
      · rw [List.getLast?_singleton, Option.map_some, hsnapshot]
    | cons e' rest =>
      let d' : Desk MemoryLedger := ⟨⟨l.records ++ [r]⟩, left, requests⟩
      have hd' : Between l old schema t statement d'.ledger :=
        ⟨[r], rfl, List.forall_mem_singleton.mpr hstep⟩
      have hlabels' : (e' :: rest).length ≤ d'.labels.countP (· ∉ takenLabels l schema) := by
        show _ ≤ left.countP _
        omega
      obtain ⟨r', hr'⟩ := ih hrest (List.cons_ne_nil _ _) hd' hlabels'
      refine ⟨r', ?_, hr'.step, ?_, ?_, ?_⟩
      · rw [reports, List.map_cons, after, hreport]
        exact hr'.ledger
      · rw [reports, List.map_cons, trace, hreport]
        exact List.forall_mem_cons.mpr ⟨⟨r, rfl⟩, hr'.answers⟩
      · rw [reports, List.map_cons, trace, hreport]
        exact (congrArg _ List.getLast?_cons_cons).trans hr'.last
      · exact (congrArg _ List.getLast?_cons_cons).trans hr'.snapshot

/-- **A batch is recorded exactly once.** Take a ledger in which the records of a schema are one
chain without a migration in progress, and any reports of one statement at one time that no step of
the schema has yet. If the snapshots can be read, the names of the steps are new and there are
labels enough that are not in use, then each report is answered with a step, and what is left is the
step of the last one. It stands at the end of the history, which is otherwise as it was, and so are
the records of all other schemas. -/
theorem batch_recorded_once {l : MemoryLedger} {schema : String} {t : Moment} {statement : String}
    {events : List (Surroundings × DdlEvent)} {labels : List String}
    (h : Recordable l schema t statement)
    (hevents : ∀ e ∈ events, Reported l schema t statement e.1 e.2) (hne : events ≠ [])
    (hlabels : events.length ≤ labels.countP (· ∉ takenLabels l schema)) :
    let d : Desk MemoryLedger := { ledger := l, labels }
    let l' := (after (reports events) d).ledger
    ∃ old r, LedgerStore.history schema l = (.ok old, l) ∧
      LeavesStep l old schema t statement events d r ∧
      LedgerStore.history schema l' = (.ok (old ++ [r]), l') ∧
      ∀ other ≠ schema, l'.ofSchema other = l.ofSchema other := by
  intro d l'
  obtain ⟨old, hold⟩ := h.arranged
  have hd : Between l old schema t statement d.ledger :=
    ⟨[], (List.append_nil _).symm, List.forall_mem_nil _⟩
  obtain ⟨r, hr⟩ := exists_leavesStep h hold hevents hne hd hlabels
  have hl' : l' = ⟨l.records ++ [r]⟩ := hr.ledger
  have hschema : l'.ofSchema schema = l.ofSchema schema ++ [r] := by
    rw [hl']
    exact Table.ofSchema_concat hr.step.schema
  have hnew : Arranges (old ++ [r]) (l'.ofSchema schema) := by
    rw [hschema]
    exact hold.concat (fun u hu => hr.step.name u (hold.mem_iff.mpr hu)) hr.step.parent
  refine ⟨old, r, congrArg (·, l) (MemoryLedger.history_eq hold), hr,
    congrArg (·, l') (MemoryLedger.history_eq hnew), fun other hother => ?_⟩
  rw [hl']
  exact Table.ofSchema_concat_of_ne (hr.step.schema.trans_ne hother.symm)

/-- Two reports of two statements that were sent together, on top of a migration. -/
theorem batch_recorded_once_of_two :
    let base : Record :=
      { schema := "public", name := "01_create", done := true, createdAt := some ⟨0, some 0⟩ }
    let l : MemoryLedger := ⟨[base, { base with schema := "billing" }]⟩
    let t : Moment := ⟨5, some 0⟩
    let batch := "create table a (id int); create table b (id int);"
    let report (table : String) : DdlEvent :=
      { phase := .commandEnd, tag := "CREATE TABLE", statement := batch, timestamp := t
        objects := [⟨"table", some "public", table⟩] }
    let surroundings (now : Int) : Surroundings := ⟨false, ⟨now, some 0⟩, fun _ => .ok (.map [])⟩
    let events := [(surroundings 6, report "public.a"), (surroundings 7, report "public.b")]
    let labels := ["01_create", "sql_1", "sql_2"]
    let l' := (after (reports events) { ledger := l, labels }).ledger
    Recordable l "public" t batch ∧
      (∀ e ∈ events, Reported l "public" t batch e.1 e.2) ∧ events ≠ [] ∧
      events.length ≤ labels.countP (· ∉ takenLabels l "public") ∧
      l'.ofSchema "billing" = l.ofSchema "billing" ∧
      ∃ r, LedgerStore.history "public" l' = (.ok [base, r], l') := by
  intro base l t batch report surroundings events labels l'
  have hpublic : l.ofSchema "public" = [base] := by decide
  have hbase : l.latestNonInferred "public" = .ok (some base) := by decide
  have hchain : Arranges [base] (l.ofSchema "public") := by
    rw [hpublic]
    exact ⟨.refl _, by decide, rfl, trivial⟩
  have hpurpose : ¬ base.migrationType = "inferred" := by decide
  have h : Recordable l "public" t batch := by
    refine ⟨⟨[base], hchain⟩, ?_, ?_, ?_, ?_⟩
    all_goals rw [hpublic]
    · exact List.forall_mem_singleton.mpr rfl
    · exact List.forall_mem_singleton.mpr ⟨_, rfl, rfl⟩
    · exact List.forall_mem_singleton.mpr fun h => absurd h hpurpose
    · exact List.forall_mem_singleton.mpr fun h => absurd h hpurpose
  have hnames : ∀ now, base.name ≠ nextName (some base) now → ∀ found,
      l.latestNonInferred "public" = .ok found →
        ∀ r ∈ l.ofSchema "public", r.name ≠ nextName found now := by
    intro now hname found hfound
    rw [hbase] at hfound
    cases hfound
    rw [hpublic]
    exact List.forall_mem_singleton.mpr hname
  have hevents : ∀ e ∈ events, Reported l "public" t batch e.1 e.2 := by
    rw [List.forall_mem_cons, List.forall_mem_singleton]
    exact ⟨⟨rfl, by decide +kernel, rfl, rfl, ⟨_, rfl⟩, hnames _ (by decide)⟩,
      ⟨rfl, by decide +kernel, rfl, rfl, ⟨_, rfl⟩, hnames _ (by decide)⟩⟩
  have hlabels : events.length ≤ labels.countP (· ∉ takenLabels l "public") := by decide
  obtain ⟨old, r, hold, -, hnew, hother⟩ := batch_recorded_once h hevents (by simp [events]) hlabels
  have hhistory : LedgerStore.history "public" l = (.ok [base], l) :=
    congrArg (·, l) (MemoryLedger.history_eq hchain)
  rw [hhistory] at hold
  cases hold
  exact ⟨h, hevents, by simp [events], hlabels, hother "billing" (by decide), r, hnew⟩

end Recorder

end SchemaLedger
