import SchemaLedger.Proofs.Ledger.Failure
import SchemaLedger.Proofs.Ledger.TableHistory

/-!
# What becomes of a report

A report is ignored if changes are suppressed, if its statement belongs to no one schema, or if a
migration of its schema is in progress (`Ignored`). That is found out before anything is changed and
before the clock, the labels and the snapshots are turned to, so a report that is ignored leaves no
trace. Any other report is recorded or fails, and a step that it is answered with is in the ledger
(`ignored_reports`).

To record a step the recorder removes the duplicates first, since it reads the tip when they are
gone, and adds the step last. In between it only asks (`ledger_of_record_eq_error`), but any of its
questions may fail, and a ledger in memory has no transaction that would bring the duplicates back.
So what a failed report leaves are the records without the duplicates, if their removal went through
(`failed_report`).
-/

namespace SchemaLedger

open Attempt

/-- A statement is not attributed only if it touches several schemas. -/
theorem DdlEvent.exists_of_schema_eq_error {e : DdlEvent} {f : LedgerError}
    (h : e.schema = .error f) : ∃ schemas, f = .ambiguousSchema schemas := by
  unfold schema at h
  split at h
  next =>
    split at h
    · nomatch h
    · split at h <;> nomatch h
  next =>
    split at h
    next => exact ⟨_, (Except.error.inj h).symm⟩
    next => split at h <;> nomatch h
  next => nomatch h

namespace MemoryLedger

theorem isSome_active_iff {l : MemoryLedger} {schema : String} :
    (l.active schema).isSome = true ↔ ∃ r ∈ l.records, r.schema = schema ∧ r.done = false := by
  simp [active, ofSchema]

/-- A record that joins passes the checks, and it is answered with the times that it lacked. -/
theorem insert_eq_ok {now : Moment} {record r : Record} {l l' : MemoryLedger}
    (h : insert now record l = (.ok r, l')) :
    violationFor l.records record = none ∧ r = record.stamped now ∧ l' = ⟨l.records ++ [r]⟩ := by
  unfold insert at h
  split at h
  next => nomatch h
  next hpasses =>
    obtain ⟨hr, rfl⟩ := Prod.mk.inj h
    obtain rfl := Except.ok.inj hr
    exact ⟨hpasses, rfl, rfl⟩

/-- A record that has joined is found under its key, since no other record had its name. -/
theorem ensures_get_insert (now : Moment) (record : Record) :
    Ensures (fun _ => True) (insert now record) fun r l =>
      LedgerStore.get r.schema r.name l = (.ok r, l) := by
  rintro l r l' - h
  obtain ⟨hpasses, rfl, rfl⟩ := insert_eq_ok h
  have hnew := (violationFor_eq_none.mp hpasses).2.1
  have hrow := Table.row?_concat (r := record.stamped now) hnew
  exact congrArg (·, _) ((get_eq ..).trans (by rw [hrow]))

/-- A removal leaves the ledger as it was if it fails or finds no duplicates. -/
theorem deleteInferredDuplicates_still_iff (l : MemoryLedger) (schema : String) (t : Moment)
    (statement : String) :
    (deleteInferredDuplicates schema t statement l).2 = l ↔
      (∃ f, (deleteInferredDuplicates schema t statement l).1 = .error f) ∨
        ∀ r ∈ l.records, isDuplicate schema t statement r = false := by
  rcases deleteInferredDuplicates_cases l schema t statement with hok | ⟨f, herror⟩
  · rw [hok]
    cases l with
    | mk records => simp
  · rw [herror]
    exact iff_of_true rfl (.inl ⟨f, rfl⟩)

end MemoryLedger

namespace Recorder

/-! ## Reports that are ignored -/

section Store

variable {σ α : Type} [LedgerStore σ] {s : Surroundings} {e : DdlEvent} {d d' : Desk σ}

/-- Something comes of a report exactly if changes are not suppressed, the statement belongs to one
schema, and the ledger says that no migration of that schema is in progress. -/
theorem unlessIgnored_eq_some {act : String → Action (Desk σ) α} {a : α} :
    unlessIgnored s e act d = (.ok (some a), d') ↔
      s.suppressed = false ∧ ∃ schema, e.schema = .ok (some schema) ∧
        ∃ d₁, onLedger (LedgerStore.isActive schema) d = (.ok false, d₁) ∧
          act schema d₁ = (.ok a, d') := by
  rw [unlessIgnored]
  cases s.suppressed with
  | true => exact ⟨nofun, nofun⟩
  | false =>
    rw [if_neg Bool.false_ne_true]
    rcases e.schema with f | _ | schema
    · exact ⟨nofun, nofun⟩
    · exact ⟨nofun, nofun⟩
    constructor
    · intro h
      obtain ⟨active, d₁, hactive, h⟩ := bind_eq_ok.mp h
      cases active with
      | true => nomatch h
      | false =>
        obtain ⟨a', d₂, hact, hpure⟩ := bind_eq_ok.mp h
        obtain ⟨hanswer, rfl⟩ := Prod.mk.inj hpure
        obtain rfl : a' = a := Option.some.inj (Except.ok.inj hanswer)
        exact ⟨rfl, schema, rfl, d₁, hactive, hact⟩
    · rintro ⟨-, _, hschema, d₁, hactive, hact⟩
      obtain rfl := Option.some.inj (Except.ok.inj hschema)
      show (onLedger (LedgerStore.isActive schema) >>= _) d = _
      rw [bind_ok hactive, if_neg Bool.false_ne_true, bind_ok hact]
      rfl

end Store

open MemoryLedger

variable {s : Surroundings} {e : DdlEvent} {d d' : Desk MemoryLedger} {schema : String}

/-- Why a report is ignored. -/
inductive Ignored (s : Surroundings) (e : DdlEvent) (l : MemoryLedger) : Prop where
  | suppressed (h : s.suppressed = true)
  | ambiguous {schemas : List String} (h : e.schema = .error (.ambiguousSchema schemas))
  | unattributed (h : e.schema = .ok none)
  | inProgress {schema : String} {r : Record} (h : e.schema = .ok (some schema))
      (hr : r ∈ l.records) (hschema : r.schema = schema) (hopen : r.done = false)

/-- A statement that belongs to a schema is recorded unless a migration of it is in progress. -/
theorem onEvent_of_schema (hs : s.suppressed = false) (he : e.schema = .ok (some schema)) :
    onEvent s e d = if (d.ledger.active schema).isSome then (.ok none, d)
      else (record s e schema >>= fun r => pure (some r)) d := by
  have hactive : onLedger (LedgerStore.isActive schema) d =
      (.ok (d.ledger.active schema).isSome, d) := rfl
  rw [onEvent, unlessIgnored, if_neg (by simp [hs]), he]
  show (onLedger (LedgerStore.isActive schema) >>= _) d = _
  rw [bind_ok hactive]
  split <;> rfl

theorem onEvent_of_suppressed (hs : s.suppressed = true) : onEvent s e d = (.ok none, d) := by
  rw [onEvent, unlessIgnored, if_pos hs]
  rfl

theorem onEvent_of_ignored (h : Ignored s e d.ledger) : onEvent s e d = (.ok none, d) := by
  cases h with
  | suppressed hs => exact onEvent_of_suppressed hs
  | ambiguous he => exact onEvent_of_no_schema s (by rw [he]; rfl) d
  | unattributed he => exact onEvent_of_no_schema s (by rw [he]; rfl) d
  | inProgress he hr hschema hopen =>
    cases hs : s.suppressed with
    | true => exact onEvent_of_suppressed hs
    | false => rw [onEvent_of_schema hs he, if_pos (isSome_active_iff.mpr ⟨_, hr, hschema, hopen⟩)]

theorem onEvent_of_not_ignored (h : ¬ Ignored s e d.ledger) :
    ∃ schema, e.schema = .ok (some schema) ∧
      onEvent s e d = (record s e schema >>= fun r => pure (some r)) d := by
  have hs : s.suppressed = false := by simpa using fun hs => h (.suppressed hs)
  match he : e.schema with
  | .error f =>
    obtain ⟨schemas, rfl⟩ := DdlEvent.exists_of_schema_eq_error he
    exact absurd (.ambiguous he) h
  | .ok none => exact absurd (.unattributed he) h
  | .ok (some schema) =>
    refine ⟨schema, rfl, ?_⟩
    rw [onEvent_of_schema hs he, if_neg]
    rw [isSome_active_iff]
    rintro ⟨r, hr, hschema, hopen⟩
    exact h (.inProgress he hr hschema hopen)

/-! ## What recording a step leaves -/

/-- The step that is answered is the one that joined. -/
theorem ensures_get_record (s : Surroundings) (e : DdlEvent) (schema : String) :
    Ensures (fun _ => True) (record s e schema) fun r (d : Desk MemoryLedger) =>
      LedgerStore.get r.schema r.name d.ledger = (.ok r, d.ledger) := by
  refine ensures_bind_of_forall fun n => ensures_bind_of_forall fun label => ?_
  exact ensures_bind_of_forall fun snapshot => ensures_onLedger (ensures_get_insert s.now _)

theorem atomicOn_onLedger {σ α : Type} {x : Action σ α} (hx : AtomicOn id x) :
    AtomicOn Desk.ledger (onLedger x) := by
  intro d f d' h
  obtain ⟨hanswer, rfl⟩ := Prod.mk.inj h
  exact hx d.ledger f (x d.ledger).2 (Prod.ext hanswer rfl)

/-- After the removal the ledger is only asked until the step joins, so if recording fails, what the
removal left is left. -/
theorem ledger_of_record_eq_error {f : Failure} (h : record s e schema d = (.error f, d')) :
    d'.ledger = (deleteInferredDuplicates schema e.timestamp e.statement d.ledger).2 := by
  have hledger : d'.ledger = (onLedger
      (LedgerStore.deleteInferredDuplicates schema e.timestamp e.statement) d).2.ledger := by
    rw [record, nameStep, bind_bind] at h
    refine eq_of_bind_eq_error (fun _ => ?_) h
    refine atomicOn_bind (fun t => ?_) fun n => ?_
    · refine keeps_bind (keeps_onLedger (P := (· = t)) (keeps_query _)) fun latest => ?_
      refine keeps_bind (keeps_readClock (P := (· = t)) s) fun now => ?_
      exact keeps_bind (keeps_onLedger (P := (· = t)) (keeps_query _)) fun base => keeps_pure _
    refine atomicOn_bind (fun t => keeps_freshLabel (P := (· = t)) (keeps_query _)) fun label => ?_
    refine atomicOn_bind (fun t => keeps_readSnapshot (P := (· = t)) s schema) fun snapshot => ?_
    exact atomicOn_onLedger (atomic_insert s.now _)
  exact hledger

/-- **A report that is ignored leaves no trace.** A report is answered with nothing exactly if it is
to be ignored. Then the ledger is as before, and so are the labels that are left and the requests
that were made. A step that a report is answered with is the one that the ledger then has under its
name. -/
theorem ignored_reports (s : Surroundings) (e : DdlEvent) (d : Desk MemoryLedger) :
    ((onEvent s e d).1 = .ok none ↔ Ignored s e d.ledger) ∧
    ((onEvent s e d).1 = .ok none → (onEvent s e d).2 = d) ∧
    ∀ r, (onEvent s e d).1 = .ok (some r) →
      LedgerStore.get r.schema r.name (onEvent s e d).2.ledger =
        (.ok r, (onEvent s e d).2.ledger) := by
  by_cases h : Ignored s e d.ledger
  · rw [onEvent_of_ignored h]
    exact ⟨iff_of_true rfl h, fun _ => rfl, fun r hr => nomatch hr⟩
  · obtain ⟨schema, -, hrun⟩ := onEvent_of_not_ignored h
    rw [hrun, bind_pure_apply]
    cases hanswer : (record s e schema d).1 with
    | error f =>
      exact ⟨iff_of_false (by simp [Except.map]) h, by simp [Except.map], by simp [Except.map]⟩
    | ok r =>
      refine ⟨iff_of_false (by simp [Except.map]) h, by simp [Except.map], fun r' hr' => ?_⟩
      obtain rfl : r = r' := by simpa [Except.map] using hr'
      exact ensures_get_record s e schema d r _ trivial (Prod.ext hanswer rfl)

/-! ## Reports that fail -/

/-- **A report that fails costs the duplicates at most.** Its statement was attributed to a schema.
The records are as before, or the duplicates of the statement are gone and the others are as before;
and they are as before exactly if the removal of the duplicates failed or there were none. -/
theorem failed_report {s : Surroundings} {e : DdlEvent} {d d' : Desk MemoryLedger} {f : Failure}
    (h : onEvent s e d = (.error f, d')) :
    ∃ schema, e.schema = .ok (some schema) ∧
      let gone := isDuplicate schema e.timestamp e.statement
      (d'.ledger = d.ledger ∨ d'.ledger = ⟨d.ledger.records.filter (!gone ·)⟩) ∧
      (d'.ledger = d.ledger ↔
        (∃ g, (deleteInferredDuplicates schema e.timestamp e.statement d.ledger).1 = .error g) ∨
          ∀ r ∈ d.ledger.records, gone r = false) := by
  by_cases hignored : Ignored s e d.ledger
  · rw [onEvent_of_ignored hignored] at h
    nomatch h
  obtain ⟨schema, he, hrun⟩ := onEvent_of_not_ignored hignored
  rw [hrun, bind_pure_eq_error] at h
  refine ⟨schema, he, ?_⟩
  -- wherever the recording failed, the ledger is the one that the removal left
  rw [ledger_of_record_eq_error h]
  refine ⟨?_, deleteInferredDuplicates_still_iff ..⟩
  rcases deleteInferredDuplicates_cases d.ledger schema e.timestamp e.statement with hok | ⟨g, hg⟩
  · exact .inr (by rw [hok])
  · exact .inl (by rw [hg])

theorem failed_report_of_repeated_statement :
    let s : Surroundings := ⟨false, ⟨6, some 0⟩, fun _ => .ok (.map [])⟩
    let e : DdlEvent :=
      { phase := .commandEnd, tag := "CREATE TABLE", statement := "create table t ()"
        timestamp := ⟨5, some 0⟩, objects := [⟨"table", some "public", "public.t"⟩] }
    let base : Record :=
      { schema := "public", name := "a", done := true, createdAt := some ⟨0, some 0⟩ }
    let step : Record :=
      { schema := "public", name := "b", parent := some "a", done := true
        migrationType := "inferred", migration := inferredPayload "create table t ()" "sql_1"
        createdAt := some ⟨5, some 0⟩ }
    let d : Desk MemoryLedger := { ledger := ⟨[base, step]⟩, labels := [] }
    let d' : Desk MemoryLedger :=
      { ledger := ⟨[base]⟩, labels := [], requests := [.time, .label] }
    onEvent s e d = (.error .noLabelLeft, d') ∧
    ∃ schema, e.schema = .ok (some schema) ∧
      let gone := isDuplicate schema e.timestamp e.statement
      (d'.ledger = d.ledger ∨ d'.ledger = ⟨d.ledger.records.filter (!gone ·)⟩) ∧
      (d'.ledger = d.ledger ↔
        (∃ g, (deleteInferredDuplicates schema e.timestamp e.statement d.ledger).1 = .error g) ∨
          ∀ r ∈ d.ledger.records, gone r = false) := by
  intro s e base step d d'
  have h : onEvent s e d = (.error .noLabelLeft, d') := by decide +kernel
  exact ⟨h, failed_report h⟩

/-- A statement is reported twice. The second time no label is left, and the step of the first time
is gone by then. -/
theorem step_lost_by_failed_report :
    ¬ ∀ (deeds : List Deed) (s : Surroundings) (labels : List String) (e : DdlEvent) (f : Failure),
      let d : Desk MemoryLedger :=
        { ledger := after (deeds.map Deed.act) MemoryLedger.empty, labels }
      (onEvent s e d).1 = .error f → (onEvent s e d).2.ledger = d.ledger := by
  intro h
  let s : Surroundings := ⟨false, ⟨6, some 0⟩, fun _ => .ok (.map [])⟩
  let e : DdlEvent :=
    { phase := .commandEnd, tag := "CREATE TABLE", statement := "create table t ()"
      timestamp := ⟨5, some 0⟩, objects := [⟨"table", some "public", "public.t"⟩] }
  have hstill := h [.report s ["sql_1"] e] s [] e .noLabelLeft (by decide +kernel)
  exact absurd hstill (by decide +kernel)

end Recorder

end SchemaLedger
