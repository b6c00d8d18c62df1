import SchemaLedger.Proofs.Ledger.Effects
import SchemaLedger.Proofs.Ledger.Greatest
import SchemaLedger.Proofs.Ledger.TableHistory
import SchemaLedger.Proofs.Ledger.Tip

/-!
# Room under the tip

Whoever extends a history asks for its tip and hands in a record with the tip as its parent. In a
chain this is the one place where a record can join. But a ledger in memory need not hold chains:
after a removal of duplicates parents may be missing, there may be several records without a child,
and where others are put in the place of those that went, records may go round in circles.

There is room all the same. What survives of a history is that it has no forks (`Forkless`). The tip
is some record without a child, whichever, so it is there and nobody's parent. And if there is no
tip, there is no root either: records without forks that have a root have one without a child
(`Unforked.exists_childless`). So the place that the tip gives is free in either case
(`Unforked.freePlace_of_findTip`), and a record that is put there can fail on its name only, or on a
migration in progress (`joins_under_tip`).

That the tip can be told at all takes times that can be compared. They can if each has an offset,
which holds if the clock gives one and so do the records that are handed in (`Timed`).
-/

namespace SchemaLedger

open Attempt

/-! ## The place that the tip gives -/

/-- The tip gives a place for a record, and so does its absence. -/
theorem Unforked.freePlace_of_findTip {records : List Record} (h : Unforked records)
    {tip : Option Record} (htip : findTip records = .ok tip) :
    FreePlace records (tip.map (·.name)) := by
  rcases mem_of_greatest? htip with ⟨htips, rfl⟩ | ⟨r, hr, rfl⟩
  · refine ⟨nofun, fun root hroot hparent => ?_⟩
    -- where there is a root, there is a tip
    obtain ⟨r, hr, hchild⟩ := h.exists_childless hroot hparent
    have hmem : r ∈ tips records := mem_tips.mpr ⟨hr, hchild⟩
    rw [htips] at hmem
    nomatch hmem
  · obtain ⟨hmem, hchild⟩ := mem_tips.mp hr
    exact ⟨fun p hp => ⟨r, hmem, Option.some.inj hp⟩, hchild⟩

/-- A record of a known type that is put at a free place breaks at most these two invariants. -/
theorem violationFor_of_freePlace {existing same : List Record} {record : Record}
    (hsame : existing.filter (·.schema = record.schema) = same)
    (htype : record.migrationType ∈ migrationTypes) (hplace : FreePlace same record.parent) :
    violationFor existing record =
      if ∃ s ∈ same, s.name = record.name then some .duplicateName
      else if record.done = false ∧ ∃ s ∈ same, s.done = false then some .activeMigration
      else none := by
  split
  next hname =>
    unfold violationFor
    dsimp only
    rw [hsame, if_neg (not_not.mpr htype), if_pos (by simpa using hname)]
  next hname =>
    split
    next hactive =>
      unfold violationFor
      dsimp only
      rw [hsame, if_neg (not_not.mpr htype), if_neg (by simpa using hname),
        if_pos (by simpa using hactive)]
    next hactive =>
      subst hsame
      push Not at hname hactive
      refine violationFor_eq_none.mpr ⟨htype, hname, ?_, hplace⟩
      by_cases hdone : record.done = true
      · exact .inl hdone
      · exact .inr (by simpa using hactive (by simpa using hdone))

/-! ## Times that can be compared -/

/-- The records were created at times with an offset. -/
def Timed (records : List Record) : Prop :=
  ∀ r ∈ records, ∃ t, r.createdAt = some t ∧ t.offset.isSome = true

theorem Timed.exists_findTip {records : List Record} (h : Timed records) :
    ∃ tip, findTip records = .ok tip := by
  refine SchemaLedger.exists_findTip fun r hr t ht => ?_
  obtain ⟨s, hs, hknown⟩ := h r (mem_tips.mp hr).1
  rw [Option.mem_def.mp ht, Option.some.injEq] at hs
  exact hs ▸ hknown

/-- Whether the record that a call hands in, if it does, has no time of creation or one with an
offset. -/
def Call.timed : Call → Bool
  | .insert r | .insertAtTip r => r.createdAt.all (·.offset.isSome)
  | _ => true

theorem Record.exists_createdAt_stamped {r : Record} {now : Moment}
    (hnow : now.offset.isSome = true) (hr : r.createdAt.all (·.offset.isSome) = true) :
    ∃ t, (r.stamped now).createdAt = some t ∧ t.offset.isSome = true := by
  refine ⟨r.createdAt.getD now, rfl, ?_⟩
  cases hcreated : r.createdAt with
  | none => exact hnow
  | some t =>
    rw [hcreated] at hr
    exact hr

namespace MemoryLedger

theorem Effect.timed {now : Moment} {c : Call} {l l' : MemoryLedger}
    {answer : Except Failure Answer} (heffect : Effect now c l answer l')
    (hnow : now.offset.isSome = true) (hc : c.timed = true) (h : Timed l.records) :
    Timed l'.records := by
  cases heffect with
  | still => exact h
  | @joined _ q r hcall hr _ =>
    have hcreated : r.createdAt.all (·.offset.isSome) = true := by
      rw [hr]
      rcases hcall with rfl | rfl
      · exact hc
      · exact hc
    exact List.forall_mem_append.mpr
      ⟨h, List.forall_mem_singleton.mpr (Record.exists_createdAt_stamped hnow hcreated)⟩
  | removed => exact fun r hr => h r (List.mem_filter.mp hr).1
  | completed => exact Table.forall_mem_updateRow h h
  | closed => exact Table.forall_mem_updateRow h h

theorem timed_after {calls : List (Moment × Call)}
    (hcalls : ∀ c ∈ calls, c.1.offset.isSome = true ∧ c.2.timed = true) :
    Timed (after (Call.runs calls) empty).records := by
  refine keeps_after (P := fun l : MemoryLedger => Timed l.records) (fun x hx => ?_)
    (List.forall_mem_nil _)
  obtain ⟨c, hc, rfl⟩ := List.mem_map.mp hx
  intro l h
  exact (effect_call c.2 c.1 l).timed (hcalls c hc).1 (hcalls c hc).2 h

/-! ## Joining under the tip -/

/-- **There is always room under the tip.** After any calls, made at times with an offset, the tip
of a schema can be told. A record of a known type whose parent is the tip, or that has none if there
is no tip, joins, unless its name is taken, or it is not done and neither is a record of the
schema. -/
theorem joins_under_tip {calls : List (Moment × Call)}
    (hcalls : ∀ c ∈ calls, c.1.offset.isSome = true ∧ c.2.timed = true) (schema : String) :
    let l := after (Call.runs calls) MemoryLedger.empty
    ∃ tip, LedgerStore.latest schema l = (.ok tip, l) ∧
      ∀ (now : Moment) (record : Record), record.schema = schema →
        record.migrationType ∈ migrationTypes → record.parent = tip.map (·.name) →
        LedgerStore.insert now record l =
          if ∃ s ∈ l.ofSchema schema, s.name = record.name then
            (.error (.ledger (violationError .duplicateName record)), l)
          else if record.done = false ∧ ∃ s ∈ l.ofSchema schema, s.done = false then
            (.error (.ledger (violationError .activeMigration record)), l)
          else (.ok (record.stamped now), ⟨l.records ++ [record.stamped now]⟩) := by
  intro l
  have htimed : Timed (l.ofSchema schema) := fun r hr =>
    timed_after hcalls r (List.mem_filter.mp hr).1
  obtain ⟨tip, htip⟩ := htimed.exists_findTip
  have hplace := (forkless_after calls schema).freePlace_of_findTip htip
  refine ⟨tip, congrArg (·, l) htip, ?_⟩
  rintro now record rfl htype hparent
  rw [← hparent] at hplace
  have hsame : l.records.filter (·.schema = record.schema) = l.ofSchema record.schema := rfl
  show insert now record l = _
  rw [insert, violationFor_of_freePlace hsame htype hplace]
  by_cases hname : ∃ s ∈ l.ofSchema record.schema, s.name = record.name
  · rw [if_pos hname, if_pos hname]
  · rw [if_neg hname, if_neg hname]
    by_cases hactive : record.done = false ∧ ∃ s ∈ l.ofSchema record.schema, s.done = false
    · rw [if_pos hactive, if_pos hactive]
    · rw [if_neg hactive, if_neg hactive]

theorem joins_beside_circle :
    let calls : List (Moment × Call) :=
      [(⟨0, some 0⟩, .insert
          { schema := "public", name := "a", done := true, migrationType := "inferred",
            migration := inferredPayload "create table t ()" "sql_1",
            createdAt := some ⟨5, some 0⟩ }),
        (⟨1, some 0⟩, .insert
          { schema := "public", name := "b", parent := some "a", done := true }),
        (⟨2, some 0⟩, .deleteInferredDuplicates "public" ⟨5, some 0⟩ "create table t ()"),
        (⟨3, some 0⟩, .insert
          { schema := "public", name := "a", parent := some "b", done := true })]
    let l := after (Call.runs calls) MemoryLedger.empty
    let record : Record := { schema := "public", name := "c" }
    (∀ c ∈ calls, c.1.offset.isSome = true ∧ c.2.timed = true) ∧
    l.records.map (fun r => (r.name, r.parent)) = [("b", some "a"), ("a", some "b")] ∧
    LedgerStore.latest "public" l = (.ok none, l) ∧
    LedgerStore.insert ⟨4, some 0⟩ record l =
      (.ok (record.stamped ⟨4, some 0⟩), ⟨l.records ++ [record.stamped ⟨4, some 0⟩]⟩) := by
  intro calls l record
  have hcalls : ∀ c ∈ calls, c.1.offset.isSome = true ∧ c.2.timed = true := by decide
  obtain ⟨tip, htip, hjoins⟩ := joins_under_tip hcalls "public"
  have hnone : LedgerStore.latest "public" l = (.ok none, l) := by decide
  obtain rfl : tip = none := Except.ok.inj (congrArg Prod.fst (htip.symm.trans hnone))
  refine ⟨hcalls, by decide, hnone, ?_⟩
  rw [hjoins ⟨4, some 0⟩ record rfl (by decide) rfl, if_neg (by decide), if_neg (by decide)]

end MemoryLedger

end SchemaLedger
