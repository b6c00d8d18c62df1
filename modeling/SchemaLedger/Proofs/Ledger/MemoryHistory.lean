import SchemaLedger.Ledger.Memory
import SchemaLedger.Proofs.Ledger.Intact
import SchemaLedger.Proofs.Run

/-!
# The histories of a ledger in memory

The ledger in memory checks each write by itself and never looks at a history as a whole. This file
shows that the histories come out whole nevertheless: whatever is called on an empty ledger, in any
order and with any arguments, and whether or not the calls succeed, the records of every schema are
one chain with at most one migration in progress (`memory_histories`).

On such a ledger the questions about a history are answered from the chain: the history is the chain
itself, the tip its last record, and so on (`memory_answers`).

The removal of inferred duplicates is left out, since it takes no care of children.
-/

namespace SchemaLedger

open Attempt

/-- Whether a call removes inferred duplicates. -/
def Call.removesDuplicates : Call → Bool
  | .deleteInferredDuplicates .. => true
  | _ => false

/-- Calls, each with the time that the clock shows to it, as operations of a ledger. -/
def Call.runs {σ : Type} [LedgerStore σ] (calls : List (Moment × Call)) : List (Action σ Answer) :=
  calls.map fun c => c.2.run c.1

namespace MemoryLedger

/-! ## Single records

They are found and changed like the rows of a table. -/

theorem get_eq (l : MemoryLedger) (schema name : String) :
    l.get schema name =
      match Table.row? l.records schema name with
      | none => .error (.ledger (.notFound schema (some name)))
      | some r => .ok r := by
  have hfind : l.find? schema name = Table.row? l.records schema name := rfl
  rw [get, hfind]
  cases Table.row? l.records schema name <;> rfl

theorem markDone_apply (l : MemoryLedger) (now : Moment) (schema name : String)
    (resulting : Value) :
    markDone now schema name resulting l =
      match Table.row? l.records schema name with
      | none => (.error (.ledger (.notFound schema (some name))), l)
      | some r =>
        if r.done then (.error (.ledger (.alreadyDone schema name)), l)
        else match resulting.asMapping with
          | .error why =>
            (.error (.notMapping why),
              ⟨Table.updateRow l.records schema name ({ · with done := true })⟩)
          | .ok m =>
            let finish := fun r : Record =>
              { r with done := true, resultingSchema := .map m, updatedAt := some now }
            (.ok (finish r), ⟨Table.updateRow l.records schema name finish⟩) := by
  rw [markDone, get_eq]
  cases Table.row? l.records schema name <;> rfl

theorem delete_apply (l : MemoryLedger) (schema name : String) :
    delete schema name l =
      match Table.row? l.records schema name with
      | none => (.error (.ledger (.notFound schema (some name))), l)
      | some _ =>
        if (Table.ofSchema l.records schema).any (·.parent = some name) then
          (.error (.ledger (.integrity .danglingParent schema (some name) none)), l)
        else (.ok (), ⟨l.records.filter fun r => !(r.schema = schema && r.name = name)⟩) := by
  rw [delete, get_eq]
  cases Table.row? l.records schema name <;> rfl

/-! ## Writing keeps the ledger intact -/

/-- What is said of the records of a ledger. -/
abbrev Whole (l : MemoryLedger) : Prop := Intact l.records

/-- A record that gets its times keeps its place, and passes the checks if it did before. -/
theorem violationFor_stamped (existing : List Record) (record : Record) (now : Moment) :
    violationFor existing (record.stamped now) = violationFor existing record := rfl

theorem keeps_insert (now : Moment) (record : Record) : Keeps Whole (insert now record) := by
  intro l h
  unfold insert
  split
  next => exact h
  next hv => exact h.append (by rw [violationFor_stamped, hv])

theorem keeps_markDone (now : Moment) (schema name : String) (resulting : Value) :
    Keeps Whole (markDone now schema name resulting) := by
  intro l h
  rw [markDone_apply]
  split
  next => exact h
  next =>
    split
    next => exact h
    next =>
      -- the record is done even if its resulting schema is refused
      split
      next => exact h.map ((keepsPlace_complete id id).onKey schema name)
      next m _ =>
        exact h.map ((keepsPlace_complete (fun _ => .map m) (fun _ => some now)).onKey schema name)

/-- What is deleted is nobody's parent, so the rest of the chain stays together. -/
theorem keeps_delete (schema name : String) : Keeps Whole (delete schema name) := by
  intro l h
  rw [delete_apply]
  split
  next => exact h
  next =>
    split
    next => exact h
    next hchild =>
      exact h.filter fun r hr _ g _ hg => parent_ne_of_childless hchild hr (by simpa using hg)

/-- Every call but the removal of duplicates keeps a ledger intact. -/
theorem keeps_call {c : Call} (hc : c.removesDuplicates = false) (now : Moment) :
    Keeps Whole (c.run now) := by
  cases c with
  | insert r => exact keeps_bind (keeps_insert now r) fun _ => keeps_pure _
  | insertAtTip r =>
    refine keeps_bind ?_ fun _ => keeps_pure _
    exact keeps_bind (keeps_query _) fun _ => keeps_insert now _
  | markDone schema name v =>
    exact keeps_bind (keeps_markDone now schema name v) fun _ => keeps_pure _
  | delete schema name => exact keeps_bind (keeps_delete schema name) fun _ => keeps_pure _
  | deleteInferredDuplicates => nomatch hc
  | get | active | latest | previous | history | records | schemas | latestNonInferred =>
    exact keeps_bind (keeps_query _) fun _ => keeps_pure _
  | isActive | versionLabels | checkHistory =>
    exact keeps_bind (keeps_bind (keeps_query _) fun _ => keeps_pure _) fun _ => keeps_pure _

/-- Such calls lead from the empty ledger to intact ones only. -/
theorem whole_after {calls : List (Moment × Call)}
    (hcalls : ∀ c ∈ calls, c.2.removesDuplicates = false) :
    Whole (after (Call.runs calls) MemoryLedger.empty) := by
  refine keeps_after (fun x hx => ?_) Intact.nil
  obtain ⟨c, hc, rfl⟩ := List.mem_map.mp hx
  exact keeps_call (hcalls c hc) c.1

/-- **The histories of a ledger in memory are whole.** After any calls, the records of a schema are
one chain of known types with at most one migration in progress; so no two of them have the same
parent or lack one, every parent is there, and nobody is its own ancestor. -/
theorem memory_histories {calls : List (Moment × Call)}
    (hcalls : ∀ c ∈ calls, c.2.removesDuplicates = false) (schema : String) :
    let records := (after (Call.runs calls) MemoryLedger.empty).ofSchema schema
    IsHistory records ∧ (records.map (·.parent)).Nodup ∧
      (∀ r ∈ records, ∀ p, r.parent = some p → ∃ s ∈ records, s.name = p) ∧
      ∀ r, ¬ Relation.TransGen (IsParent records) r r := by
  intro records
  have h : IsHistory records := whole_after hcalls schema
  obtain ⟨chain, hchain⟩ := h.arranged
  exact ⟨h, hchain.nodup_parents, fun r hr p hp => hchain.exists_parent hr hp, hchain.acyclic⟩

theorem memory_histories_of_refused_fork :
    let calls : List (Moment × Call) :=
      [(⟨0, some 0⟩, .insert { schema := "public", name := "a", done := true }),
        (⟨1, some 0⟩, .insert { schema := "public", name := "b", parent := some "a" }),
        (⟨2, some 0⟩, .insert
          { schema := "public", name := "c", parent := some "a", done := true }),
        (⟨3, some 0⟩, .markDone "public" "b" .null),
        (⟨4, some 0⟩, .delete "public" "a")]
    let records := (after (Call.runs calls) MemoryLedger.empty).ofSchema "public"
    (∀ c ∈ calls, c.2.removesDuplicates = false) ∧ records.map (·.name) = ["a", "b"] ∧
      IsHistory records ∧ (records.map (·.parent)).Nodup ∧
      (∀ r ∈ records, ∀ p, r.parent = some p → ∃ s ∈ records, s.name = p) ∧
      ∀ r, ¬ Relation.TransGen (IsParent records) r r := by
  intro calls records
  have hcalls : ∀ c ∈ calls, c.2.removesDuplicates = false := by decide
  exact ⟨hcalls, by decide, memory_histories hcalls "public"⟩

/-! ## Questions about a history -/

section Questions

variable {l : MemoryLedger} {schema : String} {chain : List Record}

theorem latest_eq (h : Arranges chain (l.ofSchema schema)) :
    l.latest schema = .ok chain.getLast? := h.findTip_eq

/-- The record before the tip is found by the name that the tip has for its parent. -/
theorem previous_eq (h : Arranges chain (l.ofSchema schema)) :
    l.previous schema = .ok chain.dropLast.getLast? := by
  unfold previous
  rw [latest_eq h]
  rcases List.eq_nil_or_concat' chain with rfl | ⟨front, tip, rfl⟩
  · rfl
  have hparent : tip.parent = tipName front := (linked_concat.mp h.linked).2
  rcases List.eq_nil_or_concat' front with rfl | ⟨rest, r, rfl⟩
  · simp [hparent]
  · have hr : r ∈ l.ofSchema schema := h.mem_iff.mp (by simp)
    have hfind : l.find? schema r.name = some r := (find?_key ..).trans (h.named?_of_mem hr)
    rw [tipName_concat] at hparent
    simp [hparent, get, hfind, Except.map]

/-- The history is the chain: the walk from the tip passes all of it. -/
theorem history_eq (h : Arranges chain (l.ofSchema schema)) : l.history schema = .ok chain := by
  unfold history
  rw [latest_eq h, Except.map]
  have hwalk := h.walkParents_eq
  rw [tipName] at hwalk
  rw [hwalk, List.reverse_reverse]

end Questions

/-- **Questions are answered from the chain.** After any calls, the history of a schema lists each
of its records once, from the root to the tip and every one below its parent; the tip is the last
of them and the one before the tip the last but one; and the migration in progress is the only
record that is not done. -/
theorem memory_answers {calls : List (Moment × Call)}
    (hcalls : ∀ c ∈ calls, c.2.removesDuplicates = false) (schema : String) :
    let l := after (Call.runs calls) MemoryLedger.empty
    ∃ records chain active,
      LedgerStore.records schema l = (.ok records, l) ∧
      chain.Perm records ∧ (chain.map (·.name)).Nodup ∧ Linked none chain ∧
      LedgerStore.history schema l = (.ok chain, l) ∧
      LedgerStore.latest schema l = (.ok chain.getLast?, l) ∧
      LedgerStore.previous schema l = (.ok chain.dropLast.getLast?, l) ∧
      LedgerStore.active schema l = (.ok active, l) ∧
      (∀ r, active = some r ↔ r ∈ records ∧ r.done = false) ∧
      LedgerStore.isActive schema l = (.ok (records.any (!·.done)), l) := by
  intro l
  have h : IsHistory (l.ofSchema schema) := whole_after hcalls schema
  obtain ⟨chain, hchain⟩ := h.arranged
  have hhistory : LedgerStore.history schema l = (.ok chain, l) :=
    congrArg (·, l) (history_eq hchain)
  have hlatest : LedgerStore.latest schema l = (.ok chain.getLast?, l) :=
    congrArg (·, l) (latest_eq hchain)
  have hprevious : LedgerStore.previous schema l = (.ok chain.dropLast.getLast?, l) :=
    congrArg (·, l) (previous_eq hchain)
  have hflag : (l.active schema).isSome = (l.ofSchema schema).any (!·.done) := by
    rw [active, List.isSome_find?]
  refine ⟨l.ofSchema schema, chain, l.active schema, rfl, hchain.perm, hchain.names,
    hchain.linked, hhistory, hlatest, hprevious, rfl, fun r => h.find?_open, ?_⟩
  rw [← hflag]
  rfl

theorem memory_answers_after_completion :
    let calls : List (Moment × Call) :=
      [(⟨0, some 0⟩, .insert { schema := "public", name := "a", done := true }),
        (⟨1, some 0⟩, .insert { schema := "public", name := "b", parent := some "a" }),
        (⟨2, some 0⟩, .markDone "public" "b" (.map [])),
        (⟨3, some 0⟩, .insert { schema := "public", name := "c", parent := some "b" })]
    let l := after (Call.runs calls) MemoryLedger.empty
    (∀ c ∈ calls, c.2.removesDuplicates = false) ∧
    l.records.map (fun r => (r.name, r.done)) = [("a", true), ("b", true), ("c", false)] ∧
    ∃ records chain active,
      LedgerStore.records "public" l = (.ok records, l) ∧
      chain.Perm records ∧ (chain.map (·.name)).Nodup ∧ Linked none chain ∧
      LedgerStore.history "public" l = (.ok chain, l) ∧
      LedgerStore.latest "public" l = (.ok chain.getLast?, l) ∧
      LedgerStore.previous "public" l = (.ok chain.dropLast.getLast?, l) ∧
      LedgerStore.active "public" l = (.ok active, l) ∧
      (∀ r, active = some r ↔ r ∈ records ∧ r.done = false) ∧
      LedgerStore.isActive "public" l = (.ok (records.any (!·.done)), l) := by
  intro calls l
  have hcalls : ∀ c ∈ calls, c.2.removesDuplicates = false := by decide
  exact ⟨hcalls, by decide, memory_answers hcalls "public"⟩

end MemoryLedger

end SchemaLedger
