import SchemaLedger.Proofs.Ledger.Effects
import SchemaLedger.Proofs.Ledger.Isolation

/-!
# Failed calls on a ledger in memory

A ledger in memory has no transactions, so what a failed call leaves behind depends on the order of
its steps. An insertion, a deletion and a removal of duplicates ask first and make one change at the
end, which cannot fail. So do all other calls but one: where these fail, they have changed nothing
(`atomic_call`).

The one is a completion. It closes the record first and then looks at the resulting schema, and if
that is no mapping it breaks off in between (`BreaksOff`). Its record counts as done from then on,
without the schema that the migration led to, and no second completion is let through. That is all
that a failed call ever changes (`changed_by_failure_iff`).
-/

namespace SchemaLedger.MemoryLedger

open Attempt

/-! ## Calls that ask before they change anything -/

theorem atomic_insert (now : Moment) (record : Record) : AtomicOn id (insert now record) := by
  rw [insert_eq]
  exact atomicOn_bind (fun _ => keeps_query _) fun _ => (atomicOn_modify _).answer _

theorem atomic_delete (schema name : String) : AtomicOn id (delete schema name) := by
  rw [delete_eq]
  refine atomicOn_bind (fun _ => keeps_query _) fun _ => ?_
  refine atomicOn_bind (fun _ => keeps_query _) fun hasChild => ?_
  split
  · exact atomicOn_of_keeps fun _ => keeps_lift _
  · exact atomicOn_modify _

theorem atomic_deleteInferredDuplicates (schema : String) (createdAt : Moment)
    (statement : String) : AtomicOn id (deleteInferredDuplicates schema createdAt statement) := by
  rw [deleteInferredDuplicates_eq]
  exact atomicOn_bind (fun _ => keeps_query _) fun _ => (atomicOn_modify _).answer _

/-- With a mapping for its resulting schema, a completion has nothing left that could fail when it
closes the record. -/
theorem atomic_markDone (now : Moment) (schema name : String) {v : Value} {m : Mapping}
    (hv : v.asMapping = .ok m) : AtomicOn id (markDone now schema name v) := by
  rw [markDone_eq, hv]
  refine atomicOn_bind (fun _ => keeps_query _) fun r => ?_
  split
  · exact atomicOn_of_keeps fun _ => keeps_lift _
  · exact (atomicOn_modify _).answer _

/-- A call that fails has changed nothing, unless it was to complete a migration with something that
is no mapping. -/
theorem atomic_call {c : Call} (hc : ∀ schema name v why, c = .markDone schema name v →
    v.asMapping ≠ .error why) (now : Moment) : AtomicOn id (c.run (σ := MemoryLedger) now) := by
  cases c with
  | insert r => exact (atomic_insert now r).answer _
  | insertAtTip r =>
    have hinsert : AtomicOn id (LedgerStore.insertAtTip (σ := MemoryLedger) now r) :=
      atomicOn_bind (fun _ => keeps_query _) fun _ => atomic_insert now _
    exact hinsert.answer _
  | markDone schema name v =>
    cases hv : v.asMapping with
    | error why => exact absurd hv (hc schema name v why rfl)
    | ok m => exact (atomic_markDone now schema name hv).answer _
  | delete schema name => exact (atomic_delete schema name).answer _
  | deleteInferredDuplicates schema createdAt statement =>
    exact (atomic_deleteInferredDuplicates schema createdAt statement).answer _
  | get | active | latest | previous | history | records | schemas | latestNonInferred =>
    exact atomicOn_of_keeps fun _ => keeps_bind (keeps_query _) fun _ => keeps_pure _
  | isActive | versionLabels | checkHistory =>
    exact atomicOn_of_keeps fun _ =>
      keeps_bind (keeps_bind (keeps_query _) fun _ => keeps_pure _) fun _ => keeps_pure _

/-! ## Completions that break off -/

/-- A call is to complete a migration in progress with something that is no mapping. -/
structure BreaksOff (l : MemoryLedger) (c : Call) (r : Record) (why : Value.NotMapping) : Prop where
  mem : r ∈ l.records
  inProgress : r.done = false
  call : ∃ v, c = .markDone r.schema r.name v ∧ v.asMapping = .error why

section Completion

variable {l : MemoryLedger} {c : Call} {r : Record} {why : Value.NotMapping}

theorem run_markDone (l : MemoryLedger) (now : Moment) (schema name : String) (v : Value) :
    (Call.markDone schema name v).run now l =
      ((markDone now schema name v l).1.map .record, (markDone now schema name v l).2) :=
  bind_pure_apply _ _ _

/-- A failed call that has changed the ledger is a completion that broke off. -/
theorem exists_breaksOff {now : Moment} {e : Failure} (hfails : (c.run now l).1 = .error e)
    (hchanges : (c.run now l).2 ≠ l) : ∃ r why, BreaksOff l c r why := by
  have hcall : ∃ schema name v why, c = .markDone schema name v ∧ v.asMapping = .error why := by
    -- any other call would have left the ledger alone
    by_contra hnone
    push Not at hnone
    exact hchanges (atomic_call hnone now l e _ (Prod.ext hfails rfl))
  obtain ⟨schema, name, v, why, rfl, hv⟩ := hcall
  rw [run_markDone, markDone_apply] at hchanges
  split at hchanges
  next => exact absurd rfl hchanges
  next r hr =>
    obtain ⟨rfl, rfl⟩ := Table.key_of_row? hr
    split at hchanges
    next => exact absurd rfl hchanges
    next hopen => exact ⟨r, why, List.mem_of_find?_eq_some hr, by simpa using hopen, v, rfl, hv⟩

namespace BreaksOff

variable (h : BreaksOff l c r why) (hforkless : Forkless l.records) (now : Moment)
include h hforkless

/-- It fails, and the record is closed. -/
theorem run_eq :
    c.run now l = (.error (.notMapping why),
      ⟨Table.updateRow l.records r.schema r.name Record.closed⟩) := by
  obtain ⟨v, rfl, hv⟩ := h.call
  rw [run_markDone, markDone_apply, hforkless.row?_of_mem h.mem, hv]
  simp only [h.inProgress]
  rfl

theorem row?_closed :
    Table.row? (c.run now l).2.records r.schema r.name = some r.closed := by
  rw [h.run_eq hforkless, Table.row?_updateRow keepsPlace_closed, hforkless.row?_of_mem h.mem,
    Option.map_some]

/-- The record was in progress before and is not afterwards. -/
theorem changes : (c.run now l).2 ≠ l := by
  intro hsame
  have hclosed := h.row?_closed hforkless now
  rw [hsame, hforkless.row?_of_mem h.mem, Option.some.injEq] at hclosed
  have hdone : r.done = true := congrArg Record.done hclosed
  rw [h.inProgress] at hdone
  nomatch hdone

/-- The completion cannot be made up for. -/
theorem run_again (later : Moment) (v : Value) :
    (Call.markDone r.schema r.name v).run later (c.run now l).2 =
      (.error (.ledger (.alreadyDone r.schema r.name)), (c.run now l).2) := by
  rw [run_markDone, markDone_apply, h.row?_closed hforkless]
  rfl

end BreaksOff

end Completion

/-- **A failed call changes nothing, unless it is a completion that breaks off.** After any calls on
an empty ledger, make one more. It fails and leaves another ledger exactly if it is to complete a
migration in progress with something that is no mapping. Then it says so, the record of the
migration is closed and all others are as before; and whatever one tries to complete the migration
with afterwards, it is done already. -/
theorem changed_by_failure_iff (calls : List (Moment × Call)) (now : Moment) (c : Call) :
    let l := after (Call.runs calls) empty
    ((∃ e, (c.run now l).1 = .error e) ∧ (c.run now l).2 ≠ l ↔ ∃ r why, BreaksOff l c r why) ∧
      ∀ r why, BreaksOff l c r why →
        c.run now l = (.error (.notMapping why),
          ⟨l.records.map fun s => if s = r then { r with done := true } else s⟩) ∧
        ∀ later v, (Call.markDone r.schema r.name v).run later (c.run now l).2 =
          (.error (.ledger (.alreadyDone r.schema r.name)), (c.run now l).2) := by
  intro l
  have hforkless : Forkless l.records := forkless_after calls
  refine ⟨⟨?_, ?_⟩, ?_⟩
  · rintro ⟨⟨e, hfails⟩, hchanges⟩
    exact exists_breaksOff hfails hchanges
  · rintro ⟨r, why, h⟩
    refine ⟨⟨.notMapping why, ?_⟩, h.changes hforkless now⟩
    rw [h.run_eq hforkless]
  · intro r why h
    refine ⟨?_, h.run_again hforkless now⟩
    rw [h.run_eq hforkless, hforkless.updateRow_eq h.mem]
    rfl

/-- The completion of a migration with `null` fails, and the migration is in progress no more. -/
theorem progress_lost_by_failure :
    ¬ ∀ (calls : List (Moment × Call)) (now : Moment) (c : Call) (e : Failure),
      (c.run now (after (Call.runs calls) empty)).1 = .error e →
        (c.run now (after (Call.runs calls) empty)).2 = after (Call.runs calls) empty := by
  intro h
  have hstill := h [(⟨0, some 0⟩, .insert { schema := "public", name := "a" })] ⟨1, some 0⟩
    (.markDone "public" "a" .null) (.notMapping .noEntries) (by decide)
  exact absurd hstill (by decide)

end SchemaLedger.MemoryLedger
