import SchemaLedger.Proofs.Ledger.Duplicates
import SchemaLedger.Proofs.Ledger.Unforked

/-!
# What a call does to a ledger in memory

There are sixteen calls, and the records of a ledger change in four ways only: one joins that passed
the checks, some go, one is completed, or one is closed whose completion was broken off (`Effect`).
`effect_call` says so of every call, and what is kept by these changes is kept by any run of calls.

Histories are not kept, since records may be taken out of their middle. But no name comes to stand
for two records of a schema, and no parent gets a second child (`Forkless`): what joins is checked
for both, what goes leaves fewer records, and a completion touches neither names nor parents.

So a schema and a name stand for one record, and a record can be compared with itself after a call.
It is the same, unless the call completes just this record, which was not done before
(`records_stay`).
-/

namespace SchemaLedger

open Attempt

/-- The record completed at `now`. -/
def Record.completed (r : Record) (now : Moment) (resulting : Mapping) : Record :=
  { r with done := true, resultingSchema := .map resulting, updatedAt := some now }

/-- The record closed without a resulting schema. -/
def Record.closed (r : Record) : Record := { r with done := true }

theorem keepsPlace_completed (now : Moment) (resulting : Mapping) :
    KeepsPlace (·.completed now resulting) :=
  keepsPlace_complete (fun _ => .map resulting) fun _ => some now

theorem keepsPlace_closed : KeepsPlace Record.closed := keepsPlace_complete id id

/-! ## Names and parents that differ -/

/-- In no schema do two records have the same name, and in none the same parent or both none. -/
def Forkless (records : List Record) : Prop :=
  ∀ schema, Unforked (records.filter (·.schema = schema))

namespace Forkless

variable {records : List Record}

theorem nil : Forkless [] := fun _ => .nil

/-- A schema and a name stand for one record. -/
theorem eq_of_key_eq (h : Forkless records) {r s : Record} (hr : r ∈ records) (hs : s ∈ records)
    (hschema : r.schema = s.schema) (hname : r.name = s.name) : r = s := by
  refine (h s.schema).eq_of_name_eq ?_ ?_ hname
  · exact List.mem_filter.mpr ⟨hr, decide_eq_true hschema⟩
  · exact List.mem_filter.mpr ⟨hs, decide_eq_true rfl⟩

theorem eq_of_row? (h : Forkless records) {schema name : String} {r s : Record}
    (hr : Table.row? records schema name = some r) (hs : s ∈ records) (hschema : s.schema = schema)
    (hname : s.name = name) : r = s := by
  have hkey := Table.key_of_row? hr
  exact h.eq_of_key_eq (List.mem_of_find?_eq_some hr) hs (by rw [hkey.1, hschema])
    (by rw [hkey.2, hname])

theorem row?_of_mem (h : Forkless records) {r : Record} (hr : r ∈ records) :
    Table.row? records r.schema r.name = some r := by
  cases hrow : Table.row? records r.schema r.name with
  | none => exact absurd (by simp) (List.find?_eq_none.mp hrow r hr)
  | some s => rw [h.eq_of_row? hrow hr rfl rfl]

/-- A change under the key of a record changes this record only. -/
theorem updateRow_eq (h : Forkless records) {r : Record} (hr : r ∈ records)
    (f : Record → Record) :
    Table.updateRow records r.schema r.name f = records.map fun s => if s = r then f r else s := by
  refine List.map_congr_left fun s hs => ?_
  by_cases hsr : s = r
  · subst hsr
    rw [if_pos ⟨rfl, rfl⟩, if_pos rfl]
  · rw [if_neg hsr, if_neg fun hkey => hsr (h.eq_of_key_eq hs hr hkey.1 hkey.2)]

/-- A record that passes the checks has a name and a parent of its own. -/
theorem append (h : Forkless records) {r : Record} (hr : violationFor records r = none) :
    Forkless (records ++ [r]) := by
  obtain ⟨-, hname, -, hplace⟩ := violationFor_eq_none.mp hr
  intro schema
  rw [List.filter_append]
  by_cases hschema : r.schema = schema
  · subst hschema
    simpa using (h r.schema).concat hname hplace.unused
  · simpa [hschema] using h schema

theorem map (h : Forkless records) {f : Record → Record} (hf : KeepsPlace f) :
    Forkless (records.map f) := by
  intro schema
  rw [hf.filter_schema]
  exact (h schema).map hf.name hf.parent

theorem filter (h : Forkless records) (keep : Record → Bool) : Forkless (records.filter keep) := by
  intro schema
  rw [filter_schema_comm]
  exact (h schema).filter keep

/-- A record that is changed under its key is changed itself, or not at all. -/
theorem eq_or_of_mem_updateRow (h : Forkless records) {f : Record → Record} (hf : KeepsPlace f)
    {schema name : String} {r r' : Record} (hr : r ∈ records)
    (hr' : r' ∈ Table.updateRow records schema name f) (hschema : r'.schema = r.schema)
    (hname : r'.name = r.name) : r' = r ∨ r.schema = schema ∧ r.name = name ∧ r' = f r := by
  -- `r'` comes from a record with its own key, which can only be `r`
  obtain ⟨q, hq, rfl⟩ := List.mem_map.mp hr'
  have hplace := hf.onKey schema name
  have hqr : q = r :=
    h.eq_of_key_eq hq hr (by rw [← hschema, hplace.schema]) (by rw [← hname, hplace.name])
  subst hqr
  by_cases hkey : q.schema = schema ∧ q.name = name
  · rw [if_pos hkey]
    exact .inr ⟨hkey.1, hkey.2, rfl⟩
  · rw [if_neg hkey]
    exact .inl rfl

end Forkless

namespace MemoryLedger

/-! ## The four changes -/

/-- What a call may answer on a ledger, and the ledger that it then leaves. -/
inductive Effect (now : Moment) (c : Call) (l : MemoryLedger) :
    Except Failure Answer → MemoryLedger → Prop where
  /-- The call asks, or is refused. -/
  | still (answer : Except Failure Answer) : Effect now c l answer l
  /-- A record joins with the times that it lacked. -/
  | joined (answer : Except Failure Answer) {q r : Record}
      (hcall : c = .insert q ∨ c = .insertAtTip q) (hr : r = { q with parent := r.parent })
      (hpasses : violationFor l.records r = none) :
      Effect now c l answer ⟨l.records ++ [r.stamped now]⟩
  /-- Some records go. -/
  | removed (answer : Except Failure Answer) (gone : Record → Bool) :
      Effect now c l answer ⟨l.records.filter (!gone ·)⟩
  /-- An open record is completed. -/
  | completed {schema name : String} {v : Value} {r : Record} {m : Mapping}
      (hcall : c = .markDone schema name v) (hr : Table.row? l.records schema name = some r)
      (hopen : r.done = false) (hv : v.asMapping = .ok m) :
      Effect now c l (.ok (.record (r.completed now m)))
        ⟨Table.updateRow l.records schema name (·.completed now m)⟩
  /-- An open record is closed, since its resulting schema is no mapping. -/
  | closed {schema name : String} {v : Value} {r : Record} {why : Value.NotMapping}
      (hcall : c = .markDone schema name v) (hr : Table.row? l.records schema name = some r)
      (hopen : r.done = false) (hv : v.asMapping = .error why) :
      Effect now c l (.error (.notMapping why))
        ⟨Table.updateRow l.records schema name Record.closed⟩

section Calls

variable {now : Moment} {c : Call} {l : MemoryLedger}

theorem effect_of_keeps (h : Keeps (· = l) (c.run now)) :
    Effect now c l (c.run now l).1 (c.run now l).2 := by
  have hstill : (c.run now l).2 = l := h l rfl
  rw [hstill]
  exact .still _

theorem effect_insert {q r : Record} (hcall : c = .insert q ∨ c = .insertAtTip q)
    (hr : r = { q with parent := r.parent }) (l : MemoryLedger) (f : Record → Answer) :
    Effect now c l ((insert now r l).1.map f) (insert now r l).2 := by
  unfold insert
  split
  next => exact .still _
  next hpasses => exact .joined _ hcall hr hpasses

theorem effect_markDone (l : MemoryLedger) (now : Moment) (schema name : String) (v : Value) :
    Effect now (.markDone schema name v) l ((markDone now schema name v l).1.map .record)
      (markDone now schema name v l).2 := by
  rw [markDone_apply]
  split
  next => exact .still _
  next r hr =>
    split
    next => exact .still _
    next hopen =>
      have hopen : r.done = false := by simpa using hopen
      split
      next why hv => exact .closed rfl hr hopen hv
      next m hv => exact .completed rfl hr hopen hv

theorem effect_delete (l : MemoryLedger) (schema name : String) (answer : Except Failure Answer) :
    Effect now c l answer (delete schema name l).2 := by
  rw [delete_apply]
  split
  next => exact .still _
  next =>
    split
    next => exact .still _
    next => exact .removed _ fun r => r.schema = schema && r.name = name

theorem effect_deleteInferredDuplicates (l : MemoryLedger) (schema : String) (createdAt : Moment)
    (statement : String) (answer : Except Failure Answer) :
    Effect now c l answer (deleteInferredDuplicates schema createdAt statement l).2 := by
  rcases deleteInferredDuplicates_cases l schema createdAt statement with hok | ⟨e, herror⟩
  · rw [hok]
    exact .removed _ _
  · rw [herror]
    exact .still _

theorem effect_answer {α : Type} {x : Action MemoryLedger α} {f : α → Answer}
    (h : Effect now c l ((x l).1.map f) (x l).2) :
    Effect now c l ((x >>= fun a => pure (f a)) l).1 ((x >>= fun a => pure (f a)) l).2 := by
  rw [bind_pure_apply]
  exact h

theorem effect_call (c : Call) (now : Moment) (l : MemoryLedger) :
    Effect now c l (c.run now l).1 (c.run now l).2 := by
  cases c with
  | insert r => exact effect_answer (effect_insert (.inl rfl) rfl l .record)
  | insertAtTip r =>
    -- the tip only gives the parent; what joins is checked like any other record
    have hlatest : (LedgerStore.latest r.schema : Action MemoryLedger _) l =
        (l.latest r.schema, l) := rfl
    refine effect_answer (x := LedgerStore.insertAtTip now r) ?_
    rw [LedgerStore.insertAtTip, bind_apply, hlatest]
    cases l.latest r.schema with
    | error e => exact .still _
    | ok tip => exact effect_insert (.inr rfl) rfl l .record
  | markDone schema name v => exact effect_answer (effect_markDone l now schema name v)
  | delete schema name => exact effect_answer (effect_delete l schema name _)
  | deleteInferredDuplicates schema createdAt statement =>
    exact effect_answer (effect_deleteInferredDuplicates l schema createdAt statement _)
  | get | active | latest | previous | history | records | schemas | latestNonInferred =>
    exact effect_of_keeps (keeps_bind (keeps_query _) fun _ => keeps_pure _)
  | isActive | versionLabels | checkHistory =>
    exact effect_of_keeps
      (keeps_bind (keeps_bind (keeps_query _) fun _ => keeps_pure _) fun _ => keeps_pure _)

end Calls

/-! ## What calls keep -/

theorem Effect.forkless {now : Moment} {c : Call} {l l' : MemoryLedger}
    {answer : Except Failure Answer} (heffect : Effect now c l answer l') (h : Forkless l.records) :
    Forkless l'.records := by
  cases heffect with
  | still => exact h
  | joined _ _ _ hpasses => exact h.append (by rw [violationFor_stamped, hpasses])
  | removed => exact h.filter _
  | completed => exact h.map ((keepsPlace_completed _ _).onKey _ _)
  | closed => exact h.map (keepsPlace_closed.onKey _ _)

/-- Whatever is called on an empty ledger, names and parents stay different. -/
theorem forkless_after (calls : List (Moment × Call)) :
    Forkless (after (Call.runs calls) empty).records := by
  refine keeps_after (P := fun l : MemoryLedger => Forkless l.records) (fun x hx => ?_) .nil
  obtain ⟨c, -, rfl⟩ := List.mem_map.mp hx
  intro l h
  exact (effect_call c.2 c.1 l).forkless h

/-! ## Records before and after a call -/

/-- A record of the ledger after a call that has the key of one before it is the same, or the call
was the completion of just this record. -/
theorem Effect.eq_or_markDone {now : Moment} {c : Call} {l l' : MemoryLedger}
    {answer : Except Failure Answer} (heffect : Effect now c l answer l') (h : Forkless l.records)
    {r r' : Record} (hr : r ∈ l.records) (hr' : r' ∈ l'.records) (hschema : r'.schema = r.schema)
    (hname : r'.name = r.name) :
    r' = r ∨ r.done = false ∧ ∃ v, c = .markDone r.schema r.name v ∧
      match v.asMapping with
      | .ok m => answer = .ok (.record r') ∧ r' = r.completed now m
      | .error why => answer = .error (.notMapping why) ∧ r' = r.closed := by
  cases heffect with
  | still => exact .inl (h.eq_of_key_eq hr' hr hschema hname)
  | removed => exact .inl (h.eq_of_key_eq (List.mem_filter.mp hr').1 hr hschema hname)
  | joined _ _ _ hpasses =>
    rcases List.mem_append.mp hr' with hr' | hr'
    · exact .inl (h.eq_of_key_eq hr' hr hschema hname)
    · -- a new record with the name of `r` would not have passed the checks
      rw [List.mem_singleton.mp hr'] at hschema hname
      have hnew := (violationFor_eq_none.mp hpasses).2.1 r
        (List.mem_filter.mpr ⟨hr, decide_eq_true hschema.symm⟩)
      exact absurd hname.symm hnew
  | completed hcall hrow hopen hv =>
    rcases h.eq_or_of_mem_updateRow (keepsPlace_completed _ _) hr hr' hschema hname with
      hsame | ⟨rfl, rfl, hchanged⟩
    · exact .inl hsame
    · have hfound := h.eq_of_row? hrow hr rfl rfl
      subst hfound
      refine .inr ⟨hopen, _, hcall, ?_⟩
      rw [hv, hchanged]
      exact ⟨rfl, rfl⟩
  | closed hcall hrow hopen hv =>
    rcases h.eq_or_of_mem_updateRow keepsPlace_closed hr hr' hschema hname with
      hsame | ⟨rfl, rfl, hchanged⟩
    · exact .inl hsame
    · have hfound := h.eq_of_row? hrow hr rfl rfl
      subst hfound
      refine .inr ⟨hopen, _, hcall, ?_⟩
      rw [hv]
      exact ⟨rfl, hchanged⟩

/-- **A record changes once at most, by its completion.** After any calls on an empty ledger, make
one more, and compare a record that is there before and after it. It is the same, unless it was not
done and the call was to complete it. Then, if the resulting schema was a mapping, the call answered
with the completed record, and the record has been changed into that. If it was none, the call
failed, and the record is done without it. In either case all but its state, its resulting schema
and the time of the change is as before. -/
theorem records_stay (calls : List (Moment × Call)) (now : Moment) (c : Call) :
    let l := after (Call.runs calls) MemoryLedger.empty
    ∀ r ∈ l.records, ∀ r' ∈ (c.run now l).2.records, r'.schema = r.schema → r'.name = r.name →
      (r'.migration = r.migration ∧ r'.parent = r.parent ∧
        r'.migrationType = r.migrationType ∧ r'.createdAt = r.createdAt) ∧
      (r.done = true → r' = r) ∧
      (r' ≠ r → ∃ v, c = .markDone r.schema r.name v ∧
        match v.asMapping with
        | .ok m => (c.run now l).1 = .ok (.record r') ∧
          r' = { r with done := true, resultingSchema := .map m, updatedAt := some now }
        | .error why => (c.run now l).1 = .error (.notMapping why) ∧
          r' = { r with done := true }) := by
  intro l r hr r' hr' hschema hname
  rcases (effect_call c now l).eq_or_markDone (forkless_after calls) hr hr' hschema hname with
    rfl | ⟨hopen, v, hcall, hchange⟩
  · exact ⟨⟨rfl, rfl, rfl, rfl⟩, fun _ => rfl, fun hne => absurd rfl hne⟩
  · refine ⟨?_, fun hdone => ?_, fun _ => ⟨v, hcall, hchange⟩⟩
    · split at hchange
      next =>
        rw [hchange.2]
        exact ⟨rfl, rfl, rfl, rfl⟩
      next =>
        rw [hchange.2]
        exact ⟨rfl, rfl, rfl, rfl⟩
    · rw [hopen] at hdone
      nomatch hdone

theorem records_stay_but_completed :
    let calls : List (Moment × Call) :=
      [(⟨0, some 0⟩, .insert { schema := "public", name := "a" }),
        (⟨1, some 0⟩, .insert { schema := "audit", name := "a", done := true })]
    let l := after (Call.runs calls) MemoryLedger.empty
    let c : Call := .markDone "public" "a" (.map [])
    let r : Record :=
      { schema := "public", name := "a", createdAt := some ⟨0, some 0⟩,
        updatedAt := some ⟨0, some 0⟩ }
    let r' : Record := { r with done := true, updatedAt := some ⟨2, some 0⟩ }
    r ∈ l.records ∧ r' ∈ (c.run ⟨2, some 0⟩ l).2.records ∧ r' ≠ r ∧
      ∃ v, c = .markDone r.schema r.name v ∧
        match v.asMapping with
        | .ok m => (c.run ⟨2, some 0⟩ l).1 = .ok (.record r') ∧
          r' = { r with done := true, resultingSchema := .map m, updatedAt := some ⟨2, some 0⟩ }
        | .error why => (c.run ⟨2, some 0⟩ l).1 = .error (.notMapping why) ∧
          r' = { r with done := true } := by
  intro calls l c r r'
  have hr : r ∈ l.records := by decide
  have hr' : r' ∈ (c.run ⟨2, some 0⟩ l).2.records := by decide
  have hne : r' ≠ r := by decide
  exact ⟨hr, hr', hne, (records_stay calls ⟨2, some 0⟩ c r hr r' hr' rfl rfl).2.2 hne⟩

end MemoryLedger

end SchemaLedger
