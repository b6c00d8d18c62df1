import SchemaLedger.Ledger.Table
import SchemaLedger.Proofs.Ledger.Chain

/-!
# Ledgers that are intact

A ledger holds the records of many schemas. It is intact if the records of each schema form a
history (`IsHistory`): they are one chain, their types are known, and at most one of them is in
progress. No single check of the ledger asks for a chain. What the checks do ask of a new record is
that its parent is there and nobody else's (`FreePlace`), and in a chain the one such place is under
the tip (`Arranges.freePlace_iff`). So a record that passes the checks extends the chain
(`Intact.append`), and this file shows the same of the other changes: completing a record
(`Intact.map`) and taking out records that leave no child behind (`Intact.filter`).

The constraints of the table are a second form of the same checks: on an intact table both name the
same violation (`guards_broken?`), unless a row is its own parent, which only the table lets pass.
-/

namespace SchemaLedger

/-- The records of one schema are a history: one chain, of known types, and with at most one
migration in progress. -/
structure IsHistory (records : List Record) : Prop where
  arranged : ∃ chain, Arranges chain records
  typed : ∀ r ∈ records, r.migrationType ∈ migrationTypes
  oneActive : records.countP (!·.done) ≤ 1

/-- No migration is in progress among the records. -/
def Settled (records : List Record) : Prop := ∀ r ∈ records, r.done = true

/-- The records of every schema are a history. -/
def Intact (records : List Record) : Prop :=
  ∀ schema, IsHistory (records.filter (·.schema = schema))

/-! ## The place of a new record -/

/-- There is a place for a record under `parent`: the parent is there, and it has no child yet. With
no parent, there is no root yet. -/
structure FreePlace (records : List Record) (parent : Option String) : Prop where
  parent_mem : ∀ p, parent = some p → ∃ s ∈ records, s.name = p
  unused : ∀ s ∈ records, s.parent ≠ parent

/-- The only place in a chain is under its tip. -/
theorem Arranges.freePlace_iff {chain records : List Record} (h : Arranges chain records)
    {parent : Option String} : FreePlace records parent ↔ parent = tipName chain := by
  constructor
  · intro hfree
    cases parent with
    | none => rw [h.eq_nil_of_no_root hfree.unused, tipName_nil]
    | some p =>
      obtain ⟨s, hs, rfl⟩ := hfree.parent_mem p rfl
      rw [tipName, h.getLast?_of_childless hs hfree.unused, Option.map_some]
  · rintro rfl
    rcases List.eq_nil_or_concat' chain with rfl | ⟨front, last, rfl⟩
    · rw [h.perm.symm.eq_nil]
      exact ⟨by simp, by simp⟩
    · rw [tipName_concat]
      refine ⟨fun p hp => ⟨last, h.mem_iff.mp (by simp), Option.some.inj hp⟩, ?_⟩
      exact fun s hs => h.parent_ne_last hs

/-- One check after another: nothing is refused if this check lets pass and so do the rest. -/
theorem ite_some_eq_none {α : Type} {c : Prop} [Decidable c] {a : α} {rest : Option α} :
    (if c then some a else rest) = none ↔ ¬ c ∧ rest = none := by
  by_cases hc : c <;> simp [hc]

/-- What the checks of a ledger ask of a new record. -/
theorem violationFor_eq_none {existing : List Record} {record : Record} :
    violationFor existing record = none ↔
      record.migrationType ∈ migrationTypes ∧
      (∀ s ∈ existing.filter (·.schema = record.schema), s.name ≠ record.name) ∧
      (record.done = true ∨ ∀ s ∈ existing.filter (·.schema = record.schema), s.done = true) ∧
      FreePlace (existing.filter (·.schema = record.schema)) record.parent := by
  unfold violationFor
  generalize existing.filter (·.schema = record.schema) = same
  simp only [ite_some_eq_none]
  refine and_congr not_not (and_congr (by simp) (and_congr ?_ ?_))
  · cases record.done <;> simp
  · cases record.parent with
    | none =>
      rw [ite_some_eq_none]
      constructor
      · rintro ⟨hroot, -⟩
        exact ⟨by simp, by simpa using hroot⟩
      · intro h
        exact ⟨by simpa using h.unused, rfl⟩
    | some p =>
      simp only [ite_some_eq_none]
      constructor
      · rintro ⟨hthere, hunused, -⟩
        refine ⟨fun q hq => ?_, by simpa using hunused⟩
        rw [← Option.some.inj hq]
        simpa using hthere
      · intro h
        exact ⟨by simpa using h.parent_mem p rfl, by simpa using h.unused, trivial⟩

/-! ## Changes to the records of a schema -/

/-- A change to a record that leaves it at its place in the history and never reopens it. -/
structure KeepsPlace (f : Record → Record) : Prop where
  schema : ∀ r, (f r).schema = r.schema
  name : ∀ r, (f r).name = r.name
  parent : ∀ r, (f r).parent = r.parent
  migrationType : ∀ r, (f r).migrationType = r.migrationType
  done : ∀ r, r.done = true → (f r).done = true

/-- No change is such a change. -/
theorem KeepsPlace.refl : KeepsPlace id :=
  ⟨fun _ => rfl, fun _ => rfl, fun _ => rfl, fun _ => rfl, fun _ h => h⟩

/-- The change of one record among others is such a change, too. -/
theorem KeepsPlace.onKey {f : Record → Record} (h : KeepsPlace f) (schema name : String) :
    KeepsPlace fun r => if r.schema = schema ∧ r.name = name then f r else r := by
  constructor <;> intro r <;> split
  · exact h.schema r
  · rfl
  · exact h.name r
  · rfl
  · exact h.parent r
  · rfl
  · exact h.migrationType r
  · rfl
  · exact h.done r
  · exact id

/-- Such a change can be made before or after the records of a schema are picked. -/
theorem KeepsPlace.filter_schema {f : Record → Record} (h : KeepsPlace f) (records : List Record)
    (schema : String) :
    (records.map f).filter (·.schema = schema) = (records.filter (·.schema = schema)).map f := by
  rw [List.filter_map]
  simp [Function.comp_def, h.schema]

/-- Completing a record is such a change, whatever becomes of its resulting schema. -/
theorem keepsPlace_complete (resulting : Value → Value) (updated : Option Moment → Option Moment) :
    KeepsPlace fun r => { r with
      done := true
      resultingSchema := resulting r.resultingSchema
      updatedAt := updated r.updatedAt } :=
  ⟨fun _ => rfl, fun _ => rfl, fun _ => rfl, fun _ => rfl, fun _ _ => rfl⟩

/-- The row that is found under a key has this key. -/
theorem Table.key_of_row? {rows : Table} {schema name : String} {r : Record}
    (h : row? rows schema name = some r) : r.schema = schema ∧ r.name = name := by
  simpa using List.find?_some h

/-- A row with a new name is found where it was added. -/
theorem Table.row?_concat {rows : Table} {r : Record}
    (hnew : ∀ s ∈ rows.filter (·.schema = r.schema), s.name ≠ r.name) :
    row? (rows ++ [r]) r.schema r.name = some r := by
  have hnone : row? rows r.schema r.name = none := by
    refine List.find?_eq_none.mpr fun s hs hkey => ?_
    have hkey : s.schema = r.schema ∧ s.name = r.name := by simpa using hkey
    exact hnew s (List.mem_filter.mpr ⟨hs, decide_eq_true hkey.1⟩) hkey.2
  rw [row?] at hnone
  rw [row?, List.find?_append, hnone, Option.none_or]
  exact List.find?_cons_of_pos (by simp)

/-- A change of a record that leaves it at its place is found under its key. -/
theorem Table.row?_updateRow {f : Record → Record} (hf : KeepsPlace f) (rows : Table)
    (schema name : String) :
    row? (updateRow rows schema name f) schema name = (row? rows schema name).map f := by
  have hkey := hf.onKey schema name
  have hmap : row? (updateRow rows schema name f) schema name = (row? rows schema name).map
      fun r => if r.schema = schema ∧ r.name = name then f r else r := by
    rw [row?, updateRow, List.find?_map]
    simp only [Function.comp_def, hkey.schema, hkey.name]
    rfl
  rw [hmap]
  cases hrow : row? rows schema name with
  | none => rfl
  | some r => rw [Option.map_some, if_pos (key_of_row? hrow), Option.map_some]

namespace IsHistory

variable {records : List Record}

theorem nil : IsHistory [] := ⟨⟨[], .nil⟩, by simp, by simp⟩

/-- A history grows by a record that passes the checks. -/
theorem concat (h : IsHistory records) {r : Record} (htype : r.migrationType ∈ migrationTypes)
    (hname : ∀ s ∈ records, s.name ≠ r.name)
    (hactive : r.done = true ∨ ∀ s ∈ records, s.done = true)
    (hplace : FreePlace records r.parent) : IsHistory (records ++ [r]) := by
  obtain ⟨chain, hchain⟩ := h.arranged
  refine ⟨⟨chain ++ [r], hchain.concat hname (hchain.freePlace_iff.mp hplace)⟩, ?_, ?_⟩
  · intro s hs
    rcases List.mem_append.mp hs with hs | hs
    · exact h.typed s hs
    · rw [List.mem_singleton.mp hs]
      exact htype
  · rw [List.countP_append]
    rcases hactive with hdone | hall
    · simpa [hdone] using h.oneActive
    · have hnone : records.countP (!·.done) = 0 := by
        simpa [List.countP_eq_zero] using hall
      rw [hnone, Nat.zero_add]
      exact List.countP_le_length

theorem map (h : IsHistory records) {f : Record → Record} (hf : KeepsPlace f) :
    IsHistory (records.map f) := by
  obtain ⟨chain, hchain⟩ := h.arranged
  refine ⟨⟨chain.map f, hchain.map hf.name hf.parent⟩, ?_, ?_⟩
  · intro s hs
    obtain ⟨r, hr, rfl⟩ := List.mem_map.mp hs
    rw [hf.migrationType]
    exact h.typed r hr
  · rw [List.countP_map]
    refine Nat.le_trans (List.countP_mono_left fun r _ hr => ?_) h.oneActive
    have hopen : ¬ (f r).done = true := by simpa using hr
    simpa using mt (hf.done r) hopen

/-- A history shrinks by records that are not the parent of any that stays. -/
theorem filter (h : IsHistory records) {keep : Record → Bool}
    (hkeep : ∀ r ∈ records, keep r = true → ∀ g ∈ records, keep g = false →
      r.parent ≠ some g.name) : IsHistory (records.filter keep) := by
  obtain ⟨chain, hchain⟩ := h.arranged
  refine ⟨⟨chain.filter keep, hchain.filter hkeep⟩, ?_, ?_⟩
  · exact fun r hr => h.typed r (List.mem_filter.mp hr).1
  · exact Nat.le_trans (List.filter_sublist.countP_le) h.oneActive

/-- The migration in progress is the one that a search finds. -/
theorem find?_open (h : IsHistory records) {r : Record} :
    records.find? (!·.done) = some r ↔ r ∈ records ∧ r.done = false := by
  rw [← List.head?_filter]
  have hone := h.oneActive
  rw [List.countP_eq_length_filter] at hone
  have hmem : r ∈ records ∧ r.done = false ↔ r ∈ records.filter (!·.done) := by simp
  rw [hmem]
  generalize records.filter (!·.done) = active at hone
  rcases active with _ | ⟨s, _ | ⟨u, rest⟩⟩
  · simp
  · simp [eq_comm]
  · simp at hone

end IsHistory

/-! ## Changes to a ledger -/

/-- If no record of a schema names another one as its parent, that one is nobody's parent. -/
theorem parent_ne_of_childless {records : List Record} {schema name : String}
    (h : ¬ (records.filter (·.schema = schema)).any (·.parent = some name) = true) {r g : Record}
    (hr : r ∈ records) (hg : (g.schema = schema && g.name = name) = true)
    (hsame : g.schema = r.schema) : r.parent ≠ some g.name := by
  intro hparent
  have hg : g.schema = schema ∧ g.name = name := by simpa using hg
  refine h (List.any_eq_true.mpr ⟨r, List.mem_filter.mpr ⟨hr, ?_⟩, ?_⟩)
  · exact decide_eq_true (by rw [← hsame, hg.1])
  · exact decide_eq_true (by rw [hparent, hg.2])

theorem filter_schema_comm (records : List Record) (keep : Record → Bool) (schema : String) :
    (records.filter keep).filter (·.schema = schema) =
      (records.filter (·.schema = schema)).filter keep := by
  rw [List.filter_filter, List.filter_filter]
  simp only [Bool.and_comm]

/-- A row that is added belongs to one schema. -/
theorem Table.ofSchema_concat {rows : Table} {r : Record} {schema : String}
    (hr : r.schema = schema) : ofSchema (rows ++ [r]) schema = ofSchema rows schema ++ [r] := by
  simp [ofSchema, hr]

theorem Table.ofSchema_concat_of_ne {rows : Table} {r : Record} {schema : String}
    (hr : r.schema ≠ schema) : ofSchema (rows ++ [r]) schema = ofSchema rows schema := by
  simp [ofSchema, hr]

/-- What a removal has to observe in each schema is observed among the records of one. -/
theorem ofSchema_kept {records : List Record} {keep : Record → Bool} {schema : String}
    (hkeep : ∀ r ∈ records, keep r = true → ∀ g ∈ records, keep g = false →
      g.schema = r.schema → r.parent ≠ some g.name) :
    ∀ r ∈ records.filter (·.schema = schema), keep r = true →
      ∀ g ∈ records.filter (·.schema = schema), keep g = false → r.parent ≠ some g.name := by
  intro r hr hr' g hg hg'
  have hr := List.mem_filter.mp hr
  have hg := List.mem_filter.mp hg
  exact hkeep r hr.1 hr' g hg.1 hg' (by rw [of_decide_eq_true hg.2, of_decide_eq_true hr.2])

namespace Intact

variable {records : List Record}

theorem nil : Intact [] := fun _ => IsHistory.nil

/-- A record that passes the checks may join. -/
theorem append (h : Intact records) {r : Record} (hr : violationFor records r = none) :
    Intact (records ++ [r]) := by
  obtain ⟨htype, hname, hactive, hplace⟩ := violationFor_eq_none.mp hr
  intro schema
  rw [List.filter_append]
  by_cases hschema : r.schema = schema
  · subst hschema
    simpa using (h r.schema).concat htype hname hactive hplace
  · simpa [hschema] using h schema

/-- Nobody is its own parent. -/
theorem parent_ne_self (h : Intact records) {r : Record} (hr : r ∈ records) :
    r.parent ≠ some r.name := by
  intro hparent
  obtain ⟨chain, hchain⟩ := (h r.schema).arranged
  have hr' : r ∈ records.filter (·.schema = r.schema) := List.mem_filter.mpr ⟨hr, by simp⟩
  exact hchain.acyclic r (.single ⟨hr', hr', hparent⟩)

theorem map (h : Intact records) {f : Record → Record} (hf : KeepsPlace f) :
    Intact (records.map f) := by
  intro schema
  rw [hf.filter_schema]
  exact (h schema).map hf

/-- Records may go as long as none that stays in their schema has one of them as its parent. -/
theorem filter (h : Intact records) {keep : Record → Bool}
    (hkeep : ∀ r ∈ records, keep r = true → ∀ g ∈ records, keep g = false →
      g.schema = r.schema → r.parent ≠ some g.name) : Intact (records.filter keep) := by
  intro schema
  rw [filter_schema_comm]
  exact (h schema).filter (ofSchema_kept hkeep)

end Intact

/-! ## The constraints of the table -/

section Constraints

variable {rows : Table} {row : Record}

theorem brokenBy_migrationsKey : Constraint.migrationsKey.brokenBy rows row =
    (rows.filter (·.schema = row.schema)).any (·.name = row.name) := by
  rw [Constraint.brokenBy, List.any_filter]

theorem brokenBy_onlyOneActive : Constraint.onlyOneActive.brokenBy rows row =
    (!row.done && (rows.filter (·.schema = row.schema)).any (!·.done)) := by
  rw [Constraint.brokenBy, List.any_filter]

/-- The index over roots refuses what the check for a second root does. -/
theorem brokenBy_onlyFirstWithoutParent (hparent : row.parent = none) :
    Constraint.onlyFirstWithoutParent.brokenBy rows row =
      (rows.filter (·.schema = row.schema)).any (·.parent = none) := by
  rw [Constraint.brokenBy, List.any_filter, hparent, Option.isNone_none, Bool.true_and]
  refine congrArg _ (funext fun r => ?_)
  cases r.parent <;> simp

/-- The index over parents refuses what the check for a fork does. -/
theorem brokenBy_historyIsLinear {p : String} (hparent : row.parent = some p) :
    Constraint.historyIsLinear.brokenBy rows row =
      (rows.filter (·.schema = row.schema)).any (·.parent = some p) := by
  simp [Constraint.brokenBy, List.any_filter, hparent]

/-- The reference to a parent is checked like a dangling parent, as long as the row does not refer
to itself. -/
theorem brokenBy_parentReference {p : String} (hparent : row.parent = some p)
    (hself : p ≠ row.name) : Constraint.parentReference.brokenBy rows row =
      !(rows.filter (·.schema = row.schema)).any (·.name = p) := by
  simp [Constraint.brokenBy, List.any_filter, hparent, hself.symm]

/-- A row that breaks no constraint and finds its place free passes the checks. -/
theorem violationFor_of_broken?_eq_none (hbroken : Table.broken? rows row = none)
    (hplace : FreePlace (rows.filter (·.schema = row.schema)) row.parent) :
    violationFor rows row = none := by
  rw [Table.broken?_eq_none] at hbroken
  have htype := hbroken .migrationTypeCheck
  have hname := hbroken .migrationsKey
  have hactive := hbroken .onlyOneActive
  rw [brokenBy_migrationsKey] at hname
  rw [brokenBy_onlyOneActive, Bool.and_eq_false_iff] at hactive
  refine violationFor_eq_none.mpr ⟨?_, by simpa using hname, by simpa using hactive, hplace⟩
  simpa [Constraint.brokenBy] using htype

/-- An open row that breaks no constraint finds no migration in progress. -/
theorem settled_of_broken?_eq_none (hbroken : Table.broken? rows row = none)
    (hopen : row.done = false) : Settled (rows.filter (·.schema = row.schema)) := by
  have hactive := Table.broken?_eq_none.mp hbroken .onlyOneActive
  rw [brokenBy_onlyOneActive, hopen] at hactive
  simpa [Settled] using hactive

/-- Where no parent is missing, the constraints find what the checks of a ledger find, for every
row but one: a row that the checks refuse only since it is its own parent breaks no constraint. -/
theorem guards_broken?_of_parents
    (hthere : ∀ s ∈ rows.filter (·.schema = row.schema), ∀ p, s.parent = some p →
      ∃ u ∈ rows.filter (·.schema = row.schema), u.name = p) :
    (Table.broken? rows row).map Constraint.guards =
      if row.parent = some row.name ∧ violationFor rows row = some .danglingParent then none
      else violationFor rows row := by
  have htype : Constraint.migrationTypeCheck.brokenBy rows row =
      decide (row.migrationType ∉ migrationTypes) := by
    simp [Constraint.brokenBy]
  unfold Table.broken? violationFor
  simp only [Constraint.all, List.find?_cons, htype, brokenBy_migrationsKey,
    brokenBy_onlyOneActive]
  generalize hsame : rows.filter (·.schema = row.schema) = same at *
  by_cases ht : row.migrationType ∈ migrationTypes
  swap
  · simp [ht, Constraint.guards]
  simp only [ht, not_true_eq_false, decide_false, if_false]
  cases hname : same.any (·.name = row.name)
  swap
  · simp [Constraint.guards]
  cases hactive : !row.done && same.any (!·.done)
  swap
  · simp [Constraint.guards]
  cases hparent : row.parent with
  | none =>
    rw [brokenBy_onlyFirstWithoutParent hparent, hsame]
    have hlinear : Constraint.historyIsLinear.brokenBy rows row = false := by
      simp [Constraint.brokenBy, hparent]
    have hreference : Constraint.parentReference.brokenBy rows row = false := by
      simp [Constraint.brokenBy, hparent]
    rw [hlinear, hreference, if_neg (by simp)]
    cases same.any (·.parent = none) <;> rfl
  | some p =>
    have hroot : Constraint.onlyFirstWithoutParent.brokenBy rows row = false := by
      simp [Constraint.brokenBy, hparent]
    -- the table looks for a fork first, but a parent with a child is there
    have hfree : same.any (·.name = p) = false → same.any (·.parent = some p) = false := by
      intro hmissing
      refine List.any_eq_false.mpr fun s hs hsp => ?_
      obtain ⟨u, hu, hup⟩ := hthere s hs p (of_decide_eq_true hsp)
      exact List.any_eq_false.mp hmissing u hu (decide_eq_true hup)
    rw [hroot, brokenBy_historyIsLinear hparent, hsame]
    by_cases hself : p = row.name
    · -- the row is there itself when the reference is checked
      have hreference : Constraint.parentReference.brokenBy rows row = false := by
        simp [Constraint.brokenBy, hparent, hself]
      subst hself
      simp [hreference, hfree hname, hname]
    · rw [brokenBy_parentReference hparent hself, hsame]
      cases hfound : same.any (·.name = p)
      · simp [hfree hfound, hfound, hself, Constraint.guards]
      · cases hfork : same.any (·.parent = some p) <;>
          simp [hfork, hfound, hself, Constraint.guards]

/-- On an intact table the constraints find what the checks of a ledger find, for every row but one
that is its own parent. -/
theorem guards_broken? (h : Intact rows) (hself : row.parent ≠ some row.name) :
    (Table.broken? rows row).map Constraint.guards = violationFor rows row := by
  obtain ⟨chain, hchain⟩ := (h row.schema).arranged
  rw [guards_broken?_of_parents fun s hs p hp => hchain.exists_parent hs hp,
    if_neg fun hown => hself hown.1]

end Constraints

end SchemaLedger
