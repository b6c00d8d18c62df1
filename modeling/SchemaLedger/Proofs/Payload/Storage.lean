import SchemaLedger.Ledger.Record
import SchemaLedger.Proofs.Payload.Grammar

/-!
# Payloads in the ledger

The ledger stores a payload as a mapping that describes it, but for its name
(`Payload.describes_toLedger`). So a payload that was accepted is accepted again in the form in
which it is stored, and comes out as it went in, without its name. A record with this mapping has
the label that the payload declares, and tells the statement of its first operation
(`Payload.stored_but_for_name`).
-/

namespace SchemaLedger

namespace Payload

/-! ## The stored fields -/

/-- The stored entries are the label, if there is one, and the operations. -/
theorem toLedger_eq (p : Payload) :
    p.toLedger = (p.versionSchema.elim [] fun label => [(.text "version_schema", .text label)]) ++
      [(.text "operations", .list (p.operations.map .map))] := by
  unfold toLedger
  cases p.versionSchema <;> rfl

@[simp] theorem field?_name_toLedger (p : Payload) : p.toLedger.field? "name" = none := by
  rw [toLedger_eq]
  cases p.versionSchema <;> rfl

@[simp] theorem field?_versionSchema_toLedger (p : Payload) :
    p.toLedger.field? "version_schema" = p.versionSchema.map .text := by
  rw [toLedger_eq]
  cases p.versionSchema <;> rfl

@[simp] theorem field?_operations_toLedger (p : Payload) :
    p.toLedger.field? "operations" = some (.list (p.operations.map .map)) := by
  rw [toLedger_eq]
  cases p.versionSchema <;> rfl

theorem keys_toLedger (p : Payload) :
    ∀ e ∈ p.toLedger,
      ∃ field, e.1 = .text field ∧ field ∈ ["name", "version_schema", "operations"] := by
  rw [toLedger_eq]
  cases p.versionSchema <;> simp

theorem textAt_versionSchema_toLedger (p : Payload) :
    TextAt p.toLedger "version_schema" p.versionSchema := by
  unfold TextAt
  rw [field?_versionSchema_toLedger]
  cases p.versionSchema with
  | none => exact .inl ⟨.inl rfl, rfl⟩
  | some label => exact .inr ⟨label, rfl, rfl⟩

/-- An accepted payload has operations of one kind each, named by texts, also if its document had
binary data for them. -/
theorem kinds_of_validate {v : Value} {p : Payload} (h : validate v = .ok p) :
    ∀ o ∈ p.operations, ∃ kind content, o = [(.text kind, content)] := by
  obtain ⟨m, -, ⟨-, -, hoperations, -⟩, hkinds, -⟩ := validate_eq_ok_iff.mp h
  exact kinds_of_readOperations hoperations hkinds

/-- The stored mapping has all of an accepted payload but its name. -/
theorem describes_toLedger {v : Value} {p : Payload} (h : validate v = .ok p) :
    Describes p.toLedger { p with name := none } := by
  obtain ⟨m, -, -, -, hlabel⟩ := validate_eq_ok_iff.mp h
  have hkinds := kinds_of_validate h
  exact
    { keys := p.keys_toLedger
      name := .inl ⟨.inl p.field?_name_toLedger, rfl⟩
      versionSchema := p.textAt_versionSchema_toLedger
      operations := .inr p.field?_operations_toLedger
      kinds := hkinds
      label := hlabel }

/-! ## Records with a stored payload -/

/-- The statement of the first operation if it is one of SQL, else null. -/
def statement (p : Payload) : Value :=
  match p.operations with
  | [] => .null
  | o :: _ => Record.fieldOrNull (Record.fieldOrNull (.map o) "sql") "up"

variable {p : Payload} {r : Record}

theorem label_of_toLedger (h : r.migration = p.toLedger) :
    r.label = p.versionSchema.getD r.name := by
  unfold Record.label
  rw [h, field?_versionSchema_toLedger]
  cases p.versionSchema <;> rfl

theorem statement_of_toLedger (h : r.migration = p.toLedger) :
    r.statement = .ok p.statement := by
  unfold Record.statement statement
  rw [h, field?_operations_toLedger]
  cases p.operations <;> rfl

/-- **Storing a payload loses nothing but its name.** What is stored of an accepted payload is
accepted again, as the payload without its name, and this one is stored as before. A record with it
has the label of the payload, or its own name if there is none, and tells the statement of the first
operation. -/
theorem stored_but_for_name {document : Value} (h : validate document = .ok p) :
    validate (.map p.toLedger) = .ok { p with name := none } ∧
      ({ p with name := none } : Payload).toLedger = p.toLedger ∧
      ∀ r : Record, r.migration = p.toLedger →
        r.label = p.versionSchema.getD r.name ∧ r.statement = .ok p.statement :=
  ⟨(describes_toLedger h).validate, rfl,
    fun _ hr => ⟨label_of_toLedger hr, statement_of_toLedger hr⟩⟩

/-- A statement with a null beside it, and a second operation that is null. -/
theorem stored_but_for_name_of_nulls :
    let operations : List Mapping :=
      [[(.text "sql", .map [(.text "up", .text "drop table t"), (.text "down", .null)])],
        [(.text "add", .null)]]
    let document : Value := .map [(.text "operations", .list (operations.map .map)),
      (.text "version_schema", .null), (.text "name", .text "02_drop")]
    let p : Payload := { name := some "02_drop", operations }
    let r : Record := { schema := "public", name := "02_drop", migration := p.toLedger }
    validate document = .ok p ∧ validate (.map p.toLedger) = .ok { operations } ∧
      r.label = "02_drop" ∧ r.statement = .ok (.text "drop table t") := by
  intro operations document p r
  have hp : validate document = .ok p := rfl
  obtain ⟨hstored, -, hrecord⟩ := stored_but_for_name hp
  obtain ⟨hlabel, hstatement⟩ := hrecord r rfl
  exact ⟨hp, hstored, hlabel, hstatement⟩

end Payload

end SchemaLedger
