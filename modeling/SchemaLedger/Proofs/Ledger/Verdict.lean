import SchemaLedger.Proofs.Ledger.Duplicates
import SchemaLedger.Proofs.Ledger.TableQuestions

/-!
# The verdict on a new record

Two judges decide on a new record. A ledger in memory asks five questions about single records; a
table has six constraints, which a database reports in an order of its own. This file says what
either of them decides.

The questions of the ledger are exactly right for what they guard: a record passes them if and only
if the histories with it are whole again (`passes_iff_intact`). That what passes does no harm is
`Intact.append`. Conversely, in a whole history no two records have the same name or the same
parent, and nobody is its own parent, so that the last record of it, wherever it stands, passed.

The constraints are stated of a whole table (`Constraint.Holds`), and a row breaks those that the
table with it would not satisfy (`Table.valid_concat_iff`). On every table that satisfies them, be
it a history or not, the table gives the verdict of the ledger for the same reason, with one
exception (`table_verdict`): a row that is its own parent finds its parent there once it has joined,
so the table lets it pass (`own_parent_joins`).
-/

namespace SchemaLedger

/-! ## The checks of a ledger -/

theorem IsHistory.perm {records other : List Record} (h : IsHistory records)
    (hperm : records.Perm other) : IsHistory other := by
  obtain ⟨chain, hchain⟩ := h.arranged
  refine ⟨⟨chain, hchain.perm.trans hperm, hchain.names, hchain.linked⟩, ?_, ?_⟩
  · exact fun r hr => h.typed r (hperm.mem_iff.mpr hr)
  · rw [← hperm.countP_eq]
    exact h.oneActive

/-- The order of the records does not matter. -/
theorem Intact.perm {records other : List Record} (h : Intact records)
    (hperm : records.Perm other) : Intact other := fun schema => (h schema).perm (hperm.filter _)

/-- A record of a history finds its place free among the others. -/
theorem IsHistory.freePlace_of_cons {record : Record} {same : List Record}
    (h : IsHistory (record :: same)) : FreePlace same record.parent := by
  obtain ⟨chain, hchain⟩ := h.arranged
  refine ⟨fun p hp => ?_, fun s hs hparent => ?_⟩
  · obtain ⟨s, hs, hname⟩ := hchain.exists_parent (List.mem_cons_self ..) hp
    rcases List.mem_cons.mp hs with rfl | hs
    · have hown : IsParent (s :: same) s s :=
        ⟨List.mem_cons_self .., List.mem_cons_self .., by rw [hp, hname]⟩
      exact absurd (.single hown) (hchain.acyclic s)
    · exact ⟨s, hs, hname⟩
  · have hparents := hchain.nodup_parents
    rw [List.map_cons, List.nodup_cons] at hparents
    exact hparents.1 (hparent ▸ List.mem_map_of_mem hs)

/-- A record of whole histories passes the checks against the others. -/
theorem Intact.passes {existing : List Record} {record : Record}
    (h : Intact (record :: existing)) : violationFor existing record = none := by
  have hown : IsHistory (record :: existing.filter (·.schema = record.schema)) := by
    simpa using h record.schema
  obtain ⟨chain, hchain⟩ := hown.arranged
  have hnames := hchain.names_records
  rw [List.map_cons, List.nodup_cons] at hnames
  refine violationFor_eq_none.mpr ⟨hown.typed record (List.mem_cons_self ..), ?_, ?_,
    hown.freePlace_of_cons⟩
  · exact fun s hs hname => hnames.1 (hname ▸ List.mem_map_of_mem hs)
  · cases hdone : record.done with
    | true => exact .inl rfl
    | false =>
      have hone := hown.oneActive
      rw [List.countP_cons_of_pos (by simp [hdone])] at hone
      have hnone := List.countP_eq_zero.mp (Nat.le_zero.mp (Nat.le_of_succ_le_succ hone))
      exact .inr fun s hs => by simpa using hnone s hs

/-- **The checks are exact.** Given histories that are whole, a record passes the checks if and only
if the histories with it, in whatever order, are whole again. -/
theorem passes_iff_intact {existing joined : List Record} {record : Record} (h : Intact existing)
    (hjoined : joined.Perm (record :: existing)) :
    violationFor existing record = none ↔ Intact joined := by
  constructor
  · intro hpasses
    have happended : Intact (existing ++ [record]) := h.append hpasses
    exact happended.perm ((List.perm_append_singleton ..).trans hjoined.symm)
  · intro hwhole
    exact (hwhole.perm hjoined).passes

/-- In a schema of two records and beside another schema, a record under the tip passes and one
under the root does not. -/
theorem passes_iff_intact_of_two_places :
    let root : Record := { schema := "public", name := "a", done := true }
    let other : Record := { schema := "audit", name := "a" }
    let tip : Record := { schema := "public", name := "b", parent := some "a", done := true }
    let existing := [root, other, tip]
    let under (parent : String) : Record :=
      { schema := "public", name := "c", parent := some parent }
    let joined (parent : String) := [root, under parent, tip, other]
    Intact existing ∧ (∀ parent, (joined parent).Perm (under parent :: existing)) ∧
      violationFor existing (under "b") = none ∧ Intact (joined "b") ∧
      violationFor existing (under "a") = some .nonLinearHistory ∧ ¬ Intact (joined "a") := by
  intro root other tip existing under joined
  have hroot : Intact [root] := Intact.nil.append (by decide)
  have hother : Intact [root, other] := hroot.append (by decide)
  have h : Intact existing := hother.append (by decide)
  have hjoined : ∀ parent, (joined parent).Perm (under parent :: existing) := fun parent =>
    (List.Perm.swap ..).trans (((List.Perm.swap ..).cons root).cons (under parent))
  have htip : violationFor existing (under "b") = none := by decide
  have hfork : violationFor existing (under "a") = some .nonLinearHistory := by decide
  refine ⟨h, hjoined, htip, (passes_iff_intact h (hjoined "b")).mp htip, hfork, fun hwhole => ?_⟩
  have hpasses := (passes_iff_intact h (hjoined "a")).mpr hwhole
  rw [hfork] at hpasses
  nomatch hpasses

/-! ## The constraints of the table -/

/-- What a constraint asks of the rows of a table. -/
def Constraint.Holds (rows : Table) : Constraint → Prop
  | migrationTypeCheck => ∀ r ∈ rows, r.migrationType ∈ migrationTypes
  | migrationsKey => rows.Pairwise fun r s => r.schema = s.schema → r.name ≠ s.name
  | onlyOneActive =>
    rows.Pairwise fun r s => r.schema = s.schema → ¬ (r.done = false ∧ s.done = false)
  | onlyFirstWithoutParent =>
    rows.Pairwise fun r s => r.schema = s.schema → ¬ (r.parent = none ∧ s.parent = none)
  | historyIsLinear =>
    rows.Pairwise fun r s => r.schema = s.schema → r.parent = s.parent → s.parent = none
  | parentReference => ParentsThere rows

/-- The rows satisfy all constraints. -/
def Table.Valid (rows : Table) : Prop := ∀ c : Constraint, c.Holds rows

section Constraints

variable {rows : Table} {row : Record}

theorem pairwise_concat_iff {R : Record → Record → Prop} (h : rows.Pairwise R) :
    (rows ++ [row]).Pairwise R ↔ ∀ r ∈ rows, R r row := by
  simp [List.pairwise_append, h]

/-- A table keeps a constraint exactly if the row that joins does not break it. -/
theorem Constraint.holds_concat_iff {c : Constraint} (h : c.Holds rows) :
    c.Holds (rows ++ [row]) ↔ c.brokenBy rows row = false := by
  cases c with
  | migrationTypeCheck =>
    have h : ∀ r ∈ rows, r.migrationType ∈ migrationTypes := h
    refine List.forall_mem_append.trans ?_
    rw [and_iff_right h, List.forall_mem_singleton]
    simp [brokenBy]
  | migrationsKey | onlyOneActive | onlyFirstWithoutParent | historyIsLinear =>
    refine (pairwise_concat_iff h).trans ?_
    grind [brokenBy, Option.isNone_iff_eq_none, Option.isSome_iff_ne_none]
  | parentReference =>
    have h : ParentsThere rows := h
    show ParentsThere (rows ++ [row]) ↔ _
    grind [brokenBy, ParentsThere]

theorem Table.Valid.nil : Valid [] := by
  intro c
  cases c with
  | migrationTypeCheck | parentReference => exact List.forall_mem_nil _
  | migrationsKey | onlyOneActive | onlyFirstWithoutParent | historyIsLinear => exact .nil

/-- A row joins exactly if the table with it satisfies all constraints. -/
theorem Table.valid_concat_iff (h : Valid rows) :
    Valid (rows ++ [row]) ↔ broken? rows row = none :=
  (forall_congr' fun c => Constraint.holds_concat_iff (h c)).trans broken?_eq_none.symm

/-- On a valid table the constraints give the verdict of the checks, but for a row that is its own
parent. -/
theorem Table.Valid.guards_broken? (h : Valid rows) :
    (broken? rows row).map Constraint.guards =
      if row.parent = some row.name ∧ violationFor rows row = some .danglingParent then none
      else violationFor rows row := by
  refine guards_broken?_of_parents fun s hs p hp => ?_
  obtain ⟨hs, hschema⟩ := List.mem_filter.mp hs
  have hthere : ParentsThere rows := h .parentReference
  obtain ⟨u, hu, husame, hname⟩ := hthere s hs p hp
  refine ⟨u, List.mem_filter.mpr ⟨hu, decide_eq_true ?_⟩, hname⟩
  rw [husame, of_decide_eq_true hschema]

end Constraints

namespace Database

variable {t : Tables} {now : Moment} {record : Record}

/-- What a table answers to a new record: the record joins with the times that it lacked, or it is
refused because of an invariant, and nothing changes. -/
def InsertGives (t : Tables) (now : Moment) (record : Record) : Option Violation → Prop
  | none => insert now record ⟨some t⟩ = (.ok (record.stamped now),
      ⟨some { t with migrations := t.migrations ++ [record.stamped now] }⟩)
  | some v => ∃ said, insert now record ⟨some t⟩ =
      (.error (.ledger (.integrity v record.schema (some record.name) (some said))), ⟨some t⟩)

/-- The answer follows the first constraint that is broken. -/
theorem insertGives_guards (hread : record.readable = true) :
    InsertGives t now record
      ((Table.broken? t.migrations (record.stamped now)).map Constraint.guards) := by
  have hmapping : (record.stamped now).resultingSchema.isMapping = true :=
    isMapping_of_readable hread
  have hinsert := insert_apply t now record
  rw [if_pos (storable_of_readable hread)] at hinsert
  cases hbroken : Table.broken? t.migrations (record.stamped now) with
  | none =>
    rw [hbroken] at hinsert
    simp only [written_of_isMapping hmapping] at hinsert
    exact hinsert
  | some c =>
    rw [hbroken] at hinsert
    refine ⟨Text.trim c.report, hinsert.trans ?_⟩
    simp [translated, LedgerError.ofConstraint, Constraint.ofName?_name]

/-- **The table judges like the checks, but for records that are their own parent.** On every table
that satisfies its constraints, a record that can be stored and whose resulting schema is a mapping
is refused for the invariant that the checks of a ledger name, and joins if they name none. Only a
record that is its own parent, and that the checks refuse for a parent that is not there, joins all
the same. In either case it joins exactly if the table with it satisfies the constraints. -/
theorem table_verdict (h : Table.Valid t.migrations) (hread : record.readable = true)
    (now : Moment) :
    let verdict :=
      if record.parent = some record.name ∧
        violationFor t.migrations record = some .danglingParent then none
      else violationFor t.migrations record
    InsertGives t now record verdict ∧
      (verdict = none ↔ Table.Valid (t.migrations ++ [record.stamped now])) := by
  intro verdict
  have hverdict : (Table.broken? t.migrations (record.stamped now)).map Constraint.guards =
      verdict := h.guards_broken?
  rw [← hverdict, Table.valid_concat_iff h, Option.map_eq_none_iff]
  exact ⟨insertGives_guards hread, Iff.rfl⟩

/-- An open record beside the root breaks two constraints, and both judges name the same one. -/
theorem table_verdict_of_open_fork :
    let root : Record := { schema := "public", name := "a", done := true }
    let tip : Record := { schema := "public", name := "b", parent := some "a" }
    let t : Tables := { migrations := [root, tip] }
    let fork : Record := { schema := "public", name := "c", parent := some "a" }
    Table.Valid t.migrations ∧ fork.readable = true ∧
      violationFor t.migrations fork = some .activeMigration ∧
      InsertGives t ⟨0, some 0⟩ fork (some .activeMigration) ∧
      ¬ Table.Valid (t.migrations ++ [fork.stamped ⟨0, some 0⟩]) := by
  intro root tip t fork
  have hroot : Table.Valid [root] := (Table.valid_concat_iff .nil).mpr (by decide)
  have h : Table.Valid t.migrations := (Table.valid_concat_iff hroot).mpr (by decide)
  have hviolation : violationFor t.migrations fork = some .activeMigration := by decide
  have hread : fork.readable = true := rfl
  obtain ⟨hinsert, hvalid⟩ := table_verdict h hread ⟨0, some 0⟩
  simp only [hviolation] at hinsert hvalid
  exact ⟨h, hread, hviolation, by simpa using hinsert, by simpa using hvalid⟩

/-- The first record of a schema names itself as its parent: the checks of a ledger refuse it, and
the table lets it join. -/
theorem own_parent_joins :
    ¬ ∀ (t : Tables) (record : Record) (now : Moment), Table.Valid t.migrations →
      record.readable = true → InsertGives t now record (violationFor t.migrations record) := by
  intro h
  let own : Record := { schema := "public", name := "a", parent := some "a", done := true }
  obtain ⟨said, hrefused⟩ : InsertGives {} ⟨0, some 0⟩ own (some .danglingParent) :=
    h {} own ⟨0, some 0⟩ .nil rfl
  have hjoins : (insert ⟨0, some 0⟩ own installed).1.toOption.isSome = true := by decide
  have hrefused : insert ⟨0, some 0⟩ own installed = _ := hrefused
  rw [hrefused] at hjoins
  nomatch hjoins

end Database

end SchemaLedger
