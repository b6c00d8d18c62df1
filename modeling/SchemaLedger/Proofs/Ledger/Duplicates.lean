import Mathlib.Tactic.TFAE
import SchemaLedger.Proofs.Ledger.MemoryHistory

/-!
# Removing inferred duplicates from a ledger in memory

A single record is deleted only if it is nobody's parent. The removal of inferred duplicates looks
at the type, the time and the statement of a record, and not at its place in the history: a record
that goes may be the parent of one that stays. Then the one that stays names a parent that is gone
(`parents_lost_by_removal`), where the table would have refused.

This file says exactly when that happens. A removal orphans a record if it goes through and takes
the parent, but not the record (`Orphans`). One that orphans nobody cuts an end off the history and
leaves the ledger intact; one that orphans somebody leaves a record without its parent. So along a
run of any calls, these three say the same (`parents_stay_tfae`): no removal orphans a record; the
histories are whole all the way; every parent is there all the way.
-/

namespace SchemaLedger

open Attempt

/-- Every parent that a record has is a record of its schema. -/
def ParentsThere (records : List Record) : Prop :=
  ∀ r ∈ records, ∀ p, r.parent = some p → ∃ s ∈ records, s.schema = r.schema ∧ s.name = p

theorem Intact.parentsThere {records : List Record} (h : Intact records) :
    ParentsThere records := by
  intro r hr p hp
  obtain ⟨chain, hchain⟩ := (h r.schema).arranged
  have hr' : r ∈ records.filter (·.schema = r.schema) := List.mem_filter.mpr ⟨hr, by simp⟩
  obtain ⟨s, hs, hname⟩ := hchain.exists_parent hr' hp
  obtain ⟨hs, hschema⟩ := List.mem_filter.mp hs
  exact ⟨s, hs, of_decide_eq_true hschema, hname⟩

/-- In an intact ledger a schema and a name stand for one record. -/
theorem Intact.eq_of_key_eq {records : List Record} (h : Intact records) {r s : Record}
    (hr : r ∈ records) (hs : s ∈ records) (hschema : r.schema = s.schema)
    (hname : r.name = s.name) : r = s := by
  obtain ⟨chain, hchain⟩ := (h s.schema).arranged
  refine hchain.eq_of_name_eq (List.mem_filter.mpr ⟨hr, ?_⟩) (List.mem_filter.mpr ⟨hs, ?_⟩) hname
  · exact decide_eq_true hschema
  · exact decide_eq_true rfl

namespace MemoryLedger

/-! ## One removal -/

section Removal

variable {l : MemoryLedger} {schema : String} {createdAt : Moment} {statement : String}

/-- Whether a removal takes a record. -/
def isDuplicate (schema : String) (createdAt : Moment) (statement : String) (r : Record) : Bool :=
  isInferredAt schema createdAt r && holdsStatement statement r

/-- A removal goes through, takes a record and leaves a child of it. -/
def Orphans (schema : String) (createdAt : Moment) (statement : String) (l : MemoryLedger) : Prop :=
  (∃ n, (deleteInferredDuplicates schema createdAt statement l).1 = .ok n) ∧
    ∃ g ∈ l.records, ∃ r ∈ l.records, isDuplicate schema createdAt statement g = true ∧
      isDuplicate schema createdAt statement r = false ∧ g.schema = r.schema ∧
      r.parent = some g.name

/-- A removal takes all duplicates or fails, and then it takes none. -/
theorem deleteInferredDuplicates_cases (l : MemoryLedger) (schema : String) (createdAt : Moment)
    (statement : String) :
    deleteInferredDuplicates schema createdAt statement l =
        (.ok (l.records.countP (isDuplicate schema createdAt statement)),
          ⟨l.records.filter (!isDuplicate schema createdAt statement ·)⟩) ∨
      ∃ e, deleteInferredDuplicates schema createdAt statement l = (.error e, l) := by
  unfold deleteInferredDuplicates
  dsimp only
  split
  next e _ => exact .inr ⟨e, rfl⟩
  next => exact .inl rfl

/-- What stays after a removal that orphans nobody is a ledger with whole histories. -/
theorem whole_of_not_orphans (h : Whole l) (hsafe : ¬ Orphans schema createdAt statement l) :
    Whole (deleteInferredDuplicates schema createdAt statement l).2 := by
  rcases deleteInferredDuplicates_cases l schema createdAt statement with hok | ⟨e, herror⟩
  · rw [hok]
    refine h.filter fun r hr hstays g hg hgone hsame hparent => hsafe ⟨⟨_, by rw [hok]⟩, ?_⟩
    exact ⟨g, hg, r, hr, by simpa using hgone, by simpa using hstays, hsame, hparent⟩
  · rw [herror]
    exact h

/-- The parent that an orphan has lost is nowhere else, since no other record has its name. -/
theorem not_orphans_of_parentsThere (h : Whole l)
    (hthere : ParentsThere (deleteInferredDuplicates schema createdAt statement l).2.records) :
    ¬ Orphans schema createdAt statement l := by
  rintro ⟨⟨n, hn⟩, g, hg, r, hr, hgone, hstays, hsame, hparent⟩
  rcases deleteInferredDuplicates_cases l schema createdAt statement with hok | ⟨e, herror⟩
  · rw [hok] at hthere
    have hr' : r ∈ l.records.filter (!isDuplicate schema createdAt statement ·) :=
      List.mem_filter.mpr ⟨hr, by simp [hstays]⟩
    obtain ⟨s, hs, hschema, hname⟩ := hthere r hr' g.name hparent
    obtain ⟨hs, hsstays⟩ := List.mem_filter.mp hs
    have hsg : s = g := h.eq_of_key_eq hs hg (by rw [hschema, hsame]) hname
    rw [hsg, hgone] at hsstays
    simp at hsstays
  · rw [herror] at hn
    simp at hn

end Removal

/-! ## Runs -/

/-- A call orphans no record. -/
def SparesChildren (l : MemoryLedger) : Call → Prop
  | .deleteInferredDuplicates schema createdAt statement => ¬ Orphans schema createdAt statement l
  | _ => True

/-- No call of a run orphans a record of the ledger that it finds. -/
def RunSparesChildren : List (Moment × Call) → MemoryLedger → Prop
  | [], _ => True
  | c :: rest, l => SparesChildren l c.2 ∧ RunSparesChildren rest (c.2.run c.1 l).2

theorem run_deleteInferredDuplicates_snd (l : MemoryLedger) (now : Moment) (schema : String)
    (createdAt : Moment) (statement : String) :
    ((Call.deleteInferredDuplicates schema createdAt statement).run now l).2 =
      (deleteInferredDuplicates schema createdAt statement l).2 := by
  have hrun : (Call.deleteInferredDuplicates schema createdAt statement).run now l =
      (deleteInferredDuplicates schema createdAt statement >>= fun n => pure (.count n)) l := rfl
  rw [hrun, bind_apply]
  split
  next h => rw [h]; rfl
  next h => rw [h]

/-- A call that orphans nobody keeps the histories whole. -/
theorem whole_of_sparesChildren {l : MemoryLedger} (h : Whole l) {c : Moment × Call}
    (hc : SparesChildren l c.2) : Whole (c.2.run c.1 l).2 := by
  obtain ⟨now, c⟩ := c
  cases hremoves : c.removesDuplicates with
  | false => exact keeps_call hremoves now l h
  | true =>
    cases c with
    | deleteInferredDuplicates schema createdAt statement =>
      rw [run_deleteInferredDuplicates_snd]
      exact whole_of_not_orphans h hc
    | _ => nomatch hremoves

/-- A call after which every parent is there has orphaned nobody. -/
theorem sparesChildren_of_parentsThere {l : MemoryLedger} (h : Whole l) {c : Moment × Call}
    (hthere : ParentsThere (c.2.run c.1 l).2.records) : SparesChildren l c.2 := by
  obtain ⟨now, c⟩ := c
  cases c with
  | deleteInferredDuplicates schema createdAt statement =>
    rw [run_deleteInferredDuplicates_snd] at hthere
    exact not_orphans_of_parentsThere h hthere
  | _ => trivial

theorem whole_of_runSparesChildren {calls : List (Moment × Call)} {l : MemoryLedger} (h : Whole l)
    (hrun : RunSparesChildren calls l) : ∀ m ∈ trace (Call.runs calls) l, Whole m.2 := by
  induction calls generalizing l with
  | nil => exact List.forall_mem_nil _
  | cons c rest ih =>
    have hstep : Whole (c.2.run c.1 l).2 := whole_of_sparesChildren h hrun.1
    exact List.forall_mem_cons.mpr ⟨hstep, ih hstep hrun.2⟩

/-- The histories stay whole up to the first call that orphans a record, so its orphan shows. -/
theorem runSparesChildren_of_parentsThere {calls : List (Moment × Call)} {l : MemoryLedger}
    (h : Whole l) (hthere : ∀ m ∈ trace (Call.runs calls) l, ParentsThere m.2.records) :
    RunSparesChildren calls l := by
  induction calls generalizing l with
  | nil => trivial
  | cons c rest ih =>
    obtain ⟨hfirst, hrest⟩ := List.forall_mem_cons.mp hthere
    have hspares : SparesChildren l c.2 := sparesChildren_of_parentsThere h hfirst
    exact ⟨hspares, ih (whole_of_sparesChildren h hspares) hrest⟩

/-- **Parents stay as long as no removal orphans a record.** For any calls on an empty ledger, in
any order and whether or not they succeed, it is the same that no removal of duplicates takes a
record and leaves its child, that after every call the records of each schema are one chain, and
that after every call every parent is there. -/
theorem parents_stay_tfae (calls : List (Moment × Call)) :
    List.TFAE [
      RunSparesChildren calls MemoryLedger.empty,
      ∀ m ∈ trace (Call.runs calls) MemoryLedger.empty, Whole m.2,
      ∀ m ∈ trace (Call.runs calls) MemoryLedger.empty, ParentsThere m.2.records] := by
  have hempty : Whole MemoryLedger.empty := Intact.nil
  tfae_have 1 → 2 := whole_of_runSparesChildren hempty
  tfae_have 2 → 3 := fun h m hm => (h m hm).parentsThere
  tfae_have 3 → 1 := runSparesChildren_of_parentsThere hempty
  tfae_finish

/-- A step was inferred and another one recorded on top of it; then the inferred step is removed as
a duplicate, and the other one is left without its parent. -/
theorem parents_lost_by_removal :
    ¬ ∀ (calls : List (Moment × Call)) (schema : String) (createdAt : Moment) (statement : String),
      ParentsThere (deleteInferredDuplicates schema createdAt statement
        (after (Call.runs calls) MemoryLedger.empty)).2.records := by
  intro h
  let first : Record :=
    { schema := "public", name := "a", done := true, migrationType := "inferred"
      migration := inferredPayload "create table t ()" "sql_1", createdAt := some ⟨5, some 0⟩ }
  let second : Record := { schema := "public", name := "b", parent := some "a", done := true }
  have hleft : (deleteInferredDuplicates "public" ⟨5, some 0⟩ "create table t ()"
      (after (Call.runs [(⟨0, some 0⟩, .insert first), (⟨1, some 0⟩, .insert second)])
        MemoryLedger.empty)).2.records = [second.stamped ⟨1, some 0⟩] := by decide
  have hthere := h [(⟨0, some 0⟩, .insert first), (⟨1, some 0⟩, .insert second)] "public"
    ⟨5, some 0⟩ "create table t ()"
  rw [hleft] at hthere
  obtain ⟨s, hs, -, hname⟩ := hthere _ (List.mem_singleton.mpr rfl) "a" rfl
  rw [List.mem_singleton.mp hs] at hname
  exact absurd hname (by decide)

end MemoryLedger

end SchemaLedger
