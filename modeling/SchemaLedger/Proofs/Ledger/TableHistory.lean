import SchemaLedger.Inference.Recorder
import SchemaLedger.Ledger.Database
import SchemaLedger.Lifecycle
import SchemaLedger.Proofs.Json.Kept
import SchemaLedger.Proofs.Ledger.Intact
import SchemaLedger.Proofs.Run

/-!
# The histories in the table

The table of migrations knows no chains either: its constraints compare a new row with single rows
that are there, and they even let a row be its own parent. What keeps the histories whole is that
the tool only ever adds a record under the tip, and that it does all of an operation in one
transaction.

The first part says what each operation of the ledger does to a database with tables. The second
part derives what a successful one ensures: reading the tip finds the free place
(`ensures_latest`), and a row that joins there leaves the table intact (`ensures_insert`), as does
a removal that the reference to parents lets pass (`ensures_change_deleteRows`). The last part
puts these together for the operations of the tool and for the recorder: after any sequence of
their transactions the rows of every schema are a history (`table_histories`).
-/

namespace SchemaLedger

open Attempt

/-! ## Rows -/

namespace Table

/-- Rows can be removed exactly if no row that stays has one of them as its parent. -/
theorem deleteRows_eq_ok {rows kept : Table} {gone : Record → Bool} :
    deleteRows rows gone = .ok kept ↔
      (∀ r ∈ rows, gone r = false → ∀ g ∈ rows, gone g = true → g.schema = r.schema →
        r.parent ≠ some g.name) ∧ rows.filter (!gone ·) = kept := by
  unfold deleteRows
  dsimp only
  split
  next h =>
    refine ⟨nofun, fun hkept => ?_⟩
    obtain ⟨r, hr, g, hg, hsame, hparent⟩ : ∃ r ∈ rows.filter (!gone ·), ∃ g ∈ rows.filter gone,
        g.schema = r.schema ∧ some g.name = r.parent := by simpa [and_assoc] using h
    obtain ⟨hr, hstays⟩ := List.mem_filter.mp hr
    obtain ⟨hg, hgone⟩ := List.mem_filter.mp hg
    exact absurd hparent.symm (hkept.1 r hr (by simpa using hstays) g hg hgone hsame)
  next h =>
    have hfree : ∀ r ∈ rows, gone r = false → ∀ g ∈ rows, gone g = true →
        g.schema = r.schema → r.parent ≠ some g.name := by
      intro r hr hstays g hg hgone hsame hparent
      refine h (List.any_eq_true.mpr ⟨r, List.mem_filter.mpr ⟨hr, by simp [hstays]⟩, ?_⟩)
      refine List.any_eq_true.mpr ⟨g, List.mem_filter.mpr ⟨hg, hgone⟩, ?_⟩
      simp [hsame, hparent]
    exact ⟨fun hkept => ⟨hfree, Except.ok.inj hkept⟩, fun hkept => congrArg Except.ok hkept.2⟩

/-- Among the rows of a chain there is only one without a child, so it is the newest such row. -/
theorem newest?_childless {rows : Table} {chain : List Record} (h : Arranges chain rows) :
    newest? (childless rows) = chain.getLast? := by
  have htips : childless rows = chain.getLast?.toList := h.tips_eq
  rw [htips]
  cases chain.getLast? <;> rfl

section Key

variable {rows : Table} {schema name : String}

/-- What holds of all rows still does after a change that it allows. -/
theorem forall_mem_updateRow {P : Record → Prop} {f : Record → Record} (h : ∀ r ∈ rows, P r)
    (hf : ∀ r ∈ rows, P (f r)) : ∀ r ∈ updateRow rows schema name f, P r := by
  intro s hs
  obtain ⟨r, hr, rfl⟩ := List.mem_map.mp hs
  split
  · exact hf r hr
  · exact h r hr

theorem updateRow_id (rows : Table) (schema name : String) :
    updateRow rows schema name id = rows := by
  simp [updateRow]

theorem eq_parentReference_of_deleteRows {gone : Record → Bool} {c : Constraint}
    (h : deleteRows rows gone = .error c) : c = .parentReference := by
  unfold deleteRows at h
  dsimp only at h
  split at h
  next => exact (Except.error.inj h).symm
  next => nomatch h

/-- On an intact table the reference to parents protects a row exactly if it has a child. -/
theorem deleteRows_key (h : Intact rows) {row : Record} (hrow : row? rows schema name = some row) :
    deleteRows rows (fun r => r.schema = schema && r.name = name) =
      if (ofSchema rows schema).any (·.parent = some name) then .error .parentReference
      else .ok (rows.filter fun r => !(r.schema = schema && r.name = name)) := by
  obtain ⟨chain, hchain⟩ := (h schema).arranged
  have hmem : row ∈ rows := List.mem_of_find?_eq_some hrow
  have hkey := key_of_row? hrow
  split
  next hchild =>
    obtain ⟨r, hr, hparent⟩ := List.any_eq_true.mp hchild
    have hparent : r.parent = some name := of_decide_eq_true hparent
    have hschema : r.schema = schema := of_decide_eq_true (List.mem_filter.mp hr).2
    -- the child is another row, since nobody is its own parent
    have hother : r.name ≠ name := by
      intro hname
      exact hchain.acyclic r (.single ⟨hr, hr, by rw [hparent, hname]⟩)
    have hrow' : (row.schema = schema && row.name = name) = true := by simpa using hkey
    have hr' : (r.schema = schema && r.name = name) = false := by simp [hother]
    cases hresult : deleteRows rows fun r => r.schema = schema && r.name = name with
    | error c => rw [eq_parentReference_of_deleteRows hresult]
    | ok kept =>
      have hfree := (deleteRows_eq_ok.mp hresult).1 r (List.mem_filter.mp hr).1 hr' row hmem hrow'
      exact absurd (by rw [hparent, hkey.2]) (hfree (by rw [hkey.1, hschema]))
  next hchild =>
    exact deleteRows_eq_ok.mpr ⟨fun r hr _ g _ hg => parent_ne_of_childless hchild hr hg, rfl⟩

end Key

end Table

/-! ## The operations on a database with tables -/

namespace Database

variable (t : Tables)

theorem ask_apply {α : Type} (f : Table → Except Failure α) :
    ask f ⟨some t⟩ = (f t.migrations, ⟨some t⟩) := rfl

theorem change_apply (refused : Constraint → Failure)
    (statement : Table → Except Constraint Table) :
    change refused statement ⟨some t⟩ =
      match statement t.migrations with
      | .ok kept => (.ok (), ⟨some { t with migrations := kept }⟩)
      | .error c => (.error (refused c), ⟨some t⟩) := by
  rw [change, bind_apply, ask_apply]
  cases statement t.migrations <;> rfl

theorem requireStorable_apply (storable : Bool) (d : Database) :
    requireStorable storable d = (if storable then .ok () else .error .database, d) := rfl

/-- A row that can be stored and breaks no constraint is added; else the first constraint that it
breaks is reported. -/
theorem insert_apply (now : Moment) (record : Record) :
    insert now record ⟨some t⟩ =
      if record.storable then
        match Table.broken? t.migrations (record.stamped now) with
        | none => (written (record.stamped now),
            ⟨some { t with migrations := t.migrations ++ [record.stamped now] }⟩)
        | some c => (.error (translated record.schema record.name c), ⟨some t⟩)
      else (.error .database, ⟨some t⟩) := by
  have hstamped : (record.stamped now).storable = record.storable := rfl
  rw [insert, bind_apply, requireStorable_apply, hstamped]
  cases record.storable with
  | false => rfl
  | true =>
    simp only [if_true, bind_apply, change_apply, Table.insertRow]
    cases Table.broken? t.migrations (record.stamped now) <;> rfl

/-- Without tables nothing can be added. -/
theorem insert_without_tables (now : Moment) (record : Record) :
    insert now record ⟨none⟩ = (.error .database, ⟨none⟩) := by
  rw [insert, bind_apply, requireStorable_apply]
  cases (record.stamped now).storable <;> rfl

theorem get_apply (schema name : String) :
    get schema name ⟨some t⟩ =
      (match Table.row? t.migrations schema name with
        | some row => read row
        | none => .error (.ledger (.notFound schema (some name))), ⟨some t⟩) := by
  rw [get, bind_apply, findRow, ask_apply]
  cases Table.row? t.migrations schema name <;> rfl

theorem markDone_apply (now : Moment) (schema name : String) (resulting : Value) :
    markDone now schema name resulting ⟨some t⟩ =
      match Table.row? t.migrations schema name with
      | none => (.error (.ledger (.notFound schema (some name))), ⟨some t⟩)
      | some row =>
        if row.done then (.error (.ledger (.alreadyDone schema name)), ⟨some t⟩)
        else if Json.storable resulting then
          let finish := fun r : Record =>
            { r with done := true, resultingSchema := resulting, updatedAt := some now }
          (written (finish (stored row)),
            ⟨some { t with migrations := Table.updateRow t.migrations schema name finish }⟩)
        else (.error .database, ⟨some t⟩) := by
  rw [markDone, bind_apply, findRow, ask_apply]
  cases Table.row? t.migrations schema name with
  | none => rfl
  | some row =>
    simp only
    cases row.done with
    | true => rfl
    | false =>
      simp only [Bool.false_eq_true, if_false, bind_apply, requireStorable_apply]
      cases Json.storable resulting <;> rfl

theorem delete_apply (schema name : String) :
    delete schema name ⟨some t⟩ =
      match Table.row? t.migrations schema name with
      | none => (.error (.ledger (.notFound schema (some name))), ⟨some t⟩)
      | some _ =>
        match Table.deleteRows t.migrations (fun r => r.schema = schema && r.name = name) with
        | .ok kept => (.ok (), ⟨some { t with migrations := kept }⟩)
        | .error c => (.error (translated schema name c), ⟨some t⟩) := by
  rw [delete, bind_apply, findRow, ask_apply]
  cases Table.row? t.migrations schema name with
  | none => rfl
  | some row => simp only [change_apply]

/-- On an intact table a row is removed exactly if it has no child. -/
theorem delete_of_row? (h : Intact t.migrations) {schema name : String} {row : Record}
    (hrow : Table.row? t.migrations schema name = some row) :
    delete schema name ⟨some t⟩ =
      if (Table.ofSchema t.migrations schema).any (·.parent = some name) then
        (.error (translated schema name .parentReference), ⟨some t⟩)
      else
        (.ok (), ⟨some { t with
          migrations := t.migrations.filter fun r => !(r.schema = schema && r.name = name) }⟩) := by
  rw [delete_apply, hrow]
  simp only [Table.deleteRows_key h hrow]
  cases (Table.ofSchema t.migrations schema).any (·.parent = some name) <;> rfl

/-- A row whose resulting schema the database can give out as a mapping. -/
def Legible (row : Record) : Prop := ∃ v, readMapping (Json.kept row.resultingSchema) = .ok v

/-- A row is given out with all it has, but for its resulting schema. -/
theorem written_eq_ok {row r : Record} (h : written row = .ok r) :
    ∃ v, readMapping row.resultingSchema = .ok v ∧ r = { row with resultingSchema := v } := by
  cases hv : readMapping row.resultingSchema with
  | error e => simp [written, hv, Except.map] at h
  | ok v =>
    rw [written, hv] at h
    exact ⟨v, rfl, (Except.ok.inj h).symm⟩

/-- A row whose record was given out when it was written can be given out again. -/
theorem legible_of_written {row r : Record} (hstorable : row.storable = true)
    (h : written row = .ok r) : Legible row := by
  obtain ⟨v, hv, -⟩ := written_eq_ok h
  exact Json.exists_readMapping_kept (Bool.and_eq_true_iff.mp hstorable).2 ⟨v, hv⟩

/-- A row that is read was legible. -/
theorem read_eq_ok {row r : Record} (h : read row = .ok r) :
    ∃ v, readMapping (Json.kept row.resultingSchema) = .ok v ∧
      r = { stored row with resultingSchema := v } := written_eq_ok h

/-- What is added can be stored and breaks no constraint, and it is added at the end. -/
theorem insert_eq_ok {t : Tables} {now : Moment} {record r : Record} {d : Database}
    (h : insert now record ⟨some t⟩ = (.ok r, d)) :
    record.storable = true ∧ Table.broken? t.migrations (record.stamped now) = none ∧
      written (record.stamped now) = .ok r ∧
      d = ⟨some { t with migrations := t.migrations ++ [record.stamped now] }⟩ := by
  rw [insert_apply] at h
  split at h
  next hstorable =>
    split at h
    next hbroken =>
      obtain ⟨hwritten, hd⟩ := Prod.mk.inj h
      exact ⟨hstorable, hbroken, hwritten, hd.symm⟩
    next => simp at h
  next => simp at h

/-- What is completed was open, its schema can be stored, and only its row changes. -/
theorem markDone_eq_ok {t : Tables} {now : Moment} {schema name : String} {resulting : Value}
    {r : Record} {d : Database} (h : markDone now schema name resulting ⟨some t⟩ = (.ok r, d)) :
    ∃ row v, Table.row? t.migrations schema name = some row ∧ row.done = false ∧
      Json.storable resulting = true ∧ readMapping resulting = .ok v ∧
      d = ⟨some { t with migrations := Table.updateRow t.migrations schema name fun r =>
        { r with done := true, resultingSchema := resulting, updatedAt := some now } }⟩ := by
  rw [markDone_apply] at h
  split at h
  next => simp at h
  next row hrow =>
    split at h
    next => simp at h
    next hopen =>
      split at h
      next hstorable =>
        obtain ⟨hwritten, hd⟩ := Prod.mk.inj h
        obtain ⟨v, hv, -⟩ := written_eq_ok hwritten
        exact ⟨row, v, hrow, by simpa using hopen, hstorable, hv, hd.symm⟩
      next => simp at h

/-! ## What a successful operation ensures -/

/-- The database has tables, and the table of migrations is intact. -/
def Sound (d : Database) : Prop := ∃ t : Tables, d = ⟨some t⟩ ∧ Intact t.migrations

/-- Moreover, `parent` is where the next record of the schema belongs. -/
def OpenAt (schema : String) (parent : Option String) (d : Database) : Prop :=
  ∃ t : Tables, d = ⟨some t⟩ ∧ Intact t.migrations ∧
    FreePlace (t.migrations.filter (·.schema = schema)) parent

theorem keeps_ask {α : Type} {P : Database → Prop} (f : Table → Except Failure α) :
    Keeps P (ask f) := keeps_query _

theorem keeps_get {P : Database → Prop} (schema name : String) : Keeps P (get schema name) :=
  keeps_bind (keeps_ask _) fun _ => keeps_lift _

theorem keeps_isActive {P : Database → Prop} (schema : String) :
    Keeps P (LedgerStore.isActive (σ := Database) schema) :=
  keeps_bind (keeps_ask _) fun _ => keeps_pure _

theorem readOption_name {row : Option Record} {r : Option Record} (h : readOption row = .ok r) :
    r.map (·.name) = row.map (·.name) := by
  cases row with
  | none => rw [← Except.ok.inj h]
  | some row =>
    cases hread : read row with
    | error e => simp [readOption, hread, Except.map] at h
    | ok s =>
      obtain ⟨v, -, rfl⟩ := read_eq_ok hread
      rw [readOption, hread] at h
      rw [← Except.ok.inj h]
      rfl

/-- The tip that is read names the free place. -/
theorem ensures_latest (schema : String) :
    Ensures Sound (latest schema) fun tip d => OpenAt schema (tip.map (·.name)) d := by
  rintro d tip d' ⟨t, rfl, h⟩ hx
  rw [latest, ask_apply, Prod.mk.injEq] at hx
  obtain ⟨hread, rfl⟩ := hx
  obtain ⟨chain, hchain⟩ := (h schema).arranged
  refine ⟨t, rfl, h, hchain.freePlace_iff.mpr ?_⟩
  have htip : Table.newest? (Table.childless (Table.ofSchema t.migrations schema)) =
      chain.getLast? := Table.newest?_childless hchain
  rw [readOption_name hread, htip, tipName]

/-- A row that finds its place free extends the history of its schema. -/
theorem ensures_insert (now : Moment) {record : Record} {schema : String} {parent : Option String}
    (hschema : record.schema = schema) (hparent : record.parent = parent) :
    Ensures (OpenAt schema parent) (insert now record) fun _ => Sound := by
  subst hschema hparent
  rintro d r d' ⟨t, rfl, h, hplace⟩ hx
  obtain ⟨-, hbroken, -, rfl⟩ := insert_eq_ok hx
  exact ⟨_, rfl, h.append (violationFor_of_broken?_eq_none hbroken hplace)⟩

/-- A removal that the reference to parents lets pass leaves the histories whole. -/
theorem ensures_change_deleteRows (refused : Constraint → Failure) (gone : Record → Bool) :
    Ensures Sound (change refused (Table.deleteRows · gone)) fun _ => Sound := by
  rintro d u d' ⟨t, rfl, h⟩ hx
  rw [change_apply] at hx
  split at hx
  next kept hkept =>
    rw [← (Prod.mk.inj hx).2]
    obtain ⟨hfree, rfl⟩ := Table.deleteRows_eq_ok.mp hkept
    refine ⟨_, rfl, h.filter fun r hr hstays g hg hgone => ?_⟩
    exact hfree r hr (by simpa using hstays) g hg (by simpa using hgone)
  next => simp at hx

theorem ensures_delete (schema name : String) :
    Ensures Sound (delete schema name) fun _ => Sound :=
  ensures_bind (keeps_ask _).ensures fun _ => ensures_change_deleteRows _ _

theorem ensures_deleteInferredDuplicates (schema : String) (createdAt : Moment)
    (statement : String) :
    Ensures Sound (deleteInferredDuplicates schema createdAt statement) fun _ => Sound :=
  ensures_bind (keeps_ask _).ensures fun _ =>
    ensures_bind (ensures_change_deleteRows _ _) fun _ => ensures_pure fun _ h => h

theorem ensures_markDone (now : Moment) (schema name : String) (resulting : Value) :
    Ensures Sound (markDone now schema name resulting) fun _ => Sound := by
  rintro d r d' ⟨t, rfl, h⟩ hx
  obtain ⟨row, v, -, -, -, -, rfl⟩ := markDone_eq_ok hx
  exact ⟨_, rfl, h.map ((keepsPlace_complete (fun _ => resulting) fun _ => some now).onKey
    schema name)⟩

end Database

/-! ## The operations of the tool and the recorder -/

namespace Lifecycle

open Database (Sound OpenAt)

section

variable {σ : Type} [LedgerStore σ]

/-- The check passes exactly if the record is there and not done. -/
theorem checkOpen_eq_ok {schema name : String} {s s' : σ} :
    checkOpen schema name s = (.ok (), s') ↔
      ∃ r, LedgerStore.get schema name s = (.ok r, s') ∧ r.done = false := by
  rw [checkOpen, bind_eq_ok]
  constructor
  · rintro ⟨r, t, hget, hcheck⟩
    split at hcheck
    next => nomatch hcheck
    next hopen =>
      obtain ⟨-, rfl⟩ := Prod.mk.inj hcheck
      exact ⟨r, hget, by simpa using hopen⟩
  · rintro ⟨r, hget, hopen⟩
    refine ⟨r, s', hget, ?_⟩
    rw [hopen]
    rfl

/-- The check changes nothing that asking for the record does not change. -/
theorem keeps_checkOpen {P : σ → Prop} {schema name : String}
    (hget : Keeps P (LedgerStore.get schema name)) : Keeps P (checkOpen schema name) := by
  refine keeps_bind hget fun r => ?_
  split
  · exact fun _ h => h
  · exact keeps_pure _

/-- A completion reads the snapshot before it writes. -/
theorem complete_apply (now : Moment) (snapshot : String → Except Failure Value)
    (schema name : String) (s : σ) :
    complete now snapshot schema name s =
      match snapshot schema with
      | .error e => (.error e, s)
      | .ok v => LedgerStore.markDone now schema name v s := by
  rw [complete, bind_apply, lift_apply]
  cases snapshot schema <;> rfl

end

theorem ensures_start (now : Moment) (schema name : String) (p : Payload) :
    Ensures Sound (start (σ := Database) now schema name p) fun _ => Sound :=
  ensures_bind (Database.ensures_latest schema) fun _ => Database.ensures_insert now rfl rfl

theorem ensures_complete (now : Moment) (snapshot : String → Except Failure Value)
    (schema name : String) :
    Ensures Sound (complete (σ := Database) now snapshot schema name) fun _ => Sound :=
  ensures_bind (keeps_lift _).ensures fun _ => Database.ensures_markDone now schema name _

theorem ensures_rollback (schema name : String) :
    Ensures Sound (rollback (σ := Database) schema name) fun _ => Sound :=
  ensures_bind (keeps_checkOpen (Database.keeps_get schema name)).ensures fun _ =>
    Database.ensures_delete schema name

theorem ensures_createBaseline (now : Moment) (snapshot : String → Except Failure Value)
    (schema name : String) :
    Ensures Sound (createBaseline (σ := Database) now snapshot schema name) fun _ => Sound :=
  ensures_bind (Database.ensures_latest schema) fun _ =>
    ensures_bind (keeps_lift _).ensures fun _ => Database.ensures_insert now rfl rfl

/-- What each operation of the tool ensures is ensured by any of them. -/
theorem Operation.ensures_of {σ : Type} [LedgerStore σ] {P : σ → Prop} {now : Moment}
    {snapshot : String → Except Failure Value}
    (hstart : ∀ schema name p, Ensures P (Lifecycle.start now schema name p) fun _ => P)
    (hcomplete : ∀ schema name,
      Ensures P (Lifecycle.complete now snapshot schema name) fun _ => P)
    (hrollback : ∀ schema name, Ensures P (Lifecycle.rollback schema name) fun _ => P)
    (hbaseline : ∀ schema name,
      Ensures P (Lifecycle.createBaseline now snapshot schema name) fun _ => P)
    (o : Operation) : Ensures P (o.run now snapshot) fun _ => P := by
  cases o with
  | start schema name p =>
    exact ensures_bind (hstart schema name p) fun _ => ensures_pure fun _ h => h
  | complete schema name =>
    exact ensures_bind (hcomplete schema name) fun _ => ensures_pure fun _ h => h
  | rollback schema name =>
    exact ensures_bind (hrollback schema name) fun _ => ensures_pure fun _ h => h
  | createBaseline schema name =>
    exact ensures_bind (hbaseline schema name) fun _ => ensures_pure fun _ h => h

theorem Operation.ensures_run (now : Moment) (snapshot : String → Except Failure Value)
    (o : Operation) : Ensures Sound (o.run (σ := Database) now snapshot) fun _ => Sound :=
  o.ensures_of (ensures_start now) (ensures_complete now snapshot) ensures_rollback
    (ensures_createBaseline now snapshot)

end Lifecycle

namespace Recorder

open Database (Sound OpenAt)

section Desk

variable {σ α : Type} {P : σ → Prop}

theorem ensures_onLedger {Q : α → σ → Prop} {x : Action σ α} (hx : Ensures P x Q) :
    Ensures (fun d : Desk σ => P d.ledger) (onLedger x) fun a d => Q a d.ledger := by
  intro d a d' hd h
  obtain ⟨hanswer, rfl⟩ := Prod.mk.inj h
  exact hx d.ledger a (x d.ledger).2 hd (Prod.ext hanswer rfl)

theorem keeps_onLedger {x : Action σ α} (hx : Keeps P x) :
    Keeps (fun d : Desk σ => P d.ledger) (onLedger x) := fun d hd => hx d.ledger hd

theorem keeps_note (r : Request) : Keeps (fun d : Desk σ => P d.ledger) (note r) :=
  fun _ hd => hd

theorem keeps_readSnapshot (s : Surroundings) (schema : String) :
    Keeps (fun d : Desk σ => P d.ledger) (readSnapshot s schema) :=
  keeps_bind (keeps_note _) fun _ => keeps_lift _

theorem keeps_drawLabel (taken : List String) :
    Keeps (fun d : Desk σ => P d.ledger) (drawLabel taken) := fun _ hd => hd

theorem keeps_readClock (s : Surroundings) :
    Keeps (fun d : Desk σ => P d.ledger) (readClock s) :=
  keeps_bind (keeps_note _) fun _ => keeps_pure _

variable [LedgerStore σ] {s : Surroundings} {e : DdlEvent} {schema : String}

/-- Choosing a label asks the ledger, but does not change it. -/
theorem keeps_freshLabel (hask : Keeps P (LedgerStore.records schema)) :
    Keeps (fun d : Desk σ => P d.ledger) (freshLabel schema) :=
  keeps_bind (keeps_onLedger (keeps_bind hask fun _ => keeps_pure _)) fun _ => keeps_drawLabel _

/-- The tip is read after the duplicates are gone, and what is asked after that changes nothing. -/
theorem ensures_nameStep {P' : σ → Prop} {Q : Option String → σ → Prop}
    (hremove : Ensures P (LedgerStore.deleteInferredDuplicates schema e.timestamp e.statement)
      fun _ => P')
    (hlatest : Ensures P' (LedgerStore.latest schema) fun tip => Q (tip.map (·.name)))
    (hask : ∀ parent, Keeps (Q parent) (LedgerStore.latestNonInferred schema)) :
    Ensures (fun d : Desk σ => P d.ledger) (nameStep s e schema)
      fun n d => Q n.parent d.ledger := by
  refine ensures_bind (ensures_onLedger hremove) fun _ => ?_
  refine ensures_bind (ensures_onLedger hlatest) fun tip => ?_
  refine ensures_bind (keeps_readClock s).ensures fun now => ?_
  refine ensures_bind (keeps_onLedger (hask _)).ensures fun base => ?_
  exact ensures_pure fun _ h => h

/-- So the new step joins under what is left when the duplicates are gone. -/
theorem ensures_record_of {P' R : σ → Prop} {Q : Option String → σ → Prop}
    (hremove : Ensures P (LedgerStore.deleteInferredDuplicates schema e.timestamp e.statement)
      fun _ => P')
    (hlatest : Ensures P' (LedgerStore.latest schema) fun tip => Q (tip.map (·.name)))
    (hask : ∀ parent, Keeps (Q parent) (LedgerStore.latestNonInferred schema))
    (hlabels : ∀ parent, Keeps (Q parent) (LedgerStore.records schema))
    (hinsert : ∀ (parent : Option String) (r : Record), r.schema = schema → r.parent = parent →
      Ensures (Q parent) (LedgerStore.insert s.now r) fun _ => R) :
    Ensures (fun d : Desk σ => P d.ledger) (record s e schema) fun _ d => R d.ledger := by
  refine ensures_bind (ensures_nameStep hremove hlatest hask) fun n => ?_
  refine ensures_bind (keeps_freshLabel (hlabels n.parent)).ensures fun label => ?_
  refine ensures_bind (keeps_readSnapshot (P := Q n.parent) s schema).ensures fun snapshot => ?_
  exact ensures_onLedger (hinsert n.parent _ rfl rfl)

/-- An event either leaves the ledger alone or records a step where no migration is in progress, so
it ensures what the recording of a step ensures there. -/
theorem onEvent_ensures_of {R : String → σ → Prop}
    (hactive : ∀ schema, Ensures P (LedgerStore.isActive schema)
      fun active l => P l ∧ (active = false → R schema l))
    (hrecord : ∀ schema, Ensures (fun d : Desk σ => P d.ledger ∧ R schema d.ledger)
      (record s e schema) fun _ d => P d.ledger) :
    Ensures (fun d : Desk σ => P d.ledger) (onEvent s e) fun _ d => P d.ledger := by
  unfold onEvent unlessIgnored
  split
  · exact ensures_pure fun _ h => h
  · split
    · exact ensures_pure fun _ h => h
    · exact ensures_pure fun _ h => h
    next schema _ =>
      refine ensures_bind (ensures_onLedger (hactive schema)) fun active => ?_
      split
      next => exact ensures_pure fun _ h => h.1
      next hquiet =>
        refine ensures_bind ((hrecord schema).imp (fun _ h => ?_) fun _ _ h => h)
          fun _ => ensures_pure fun _ h => h
        exact ⟨h.1, h.2 (by simpa using hquiet)⟩

end Desk

theorem ensures_record (s : Surroundings) (e : DdlEvent) (schema : String) :
    Ensures (fun d : Desk Database => Sound d.ledger) (record s e schema)
      fun _ d => Sound d.ledger :=
  ensures_record_of (Q := OpenAt schema) (Database.ensures_deleteInferredDuplicates _ _ _)
    (Database.ensures_latest schema) (fun _ => Database.keeps_ask _) (fun _ => Database.keeps_ask _)
    fun _ _ hschema hparent => Database.ensures_insert s.now hschema hparent

/-- What the recording of a step ensures in any case is ensured by an event. -/
theorem onEvent_ensures_of_record {P : Database → Prop} {s : Surroundings} {e : DdlEvent}
    (hrecord : ∀ schema, Ensures (fun d : Desk Database => P d.ledger) (record s e schema)
      fun _ d => P d.ledger) :
    Ensures (fun d : Desk Database => P d.ledger) (onEvent s e) fun _ d => P d.ledger :=
  onEvent_ensures_of (R := fun _ => P)
    (fun schema => (Database.keeps_isActive schema).ensures.imp (fun _ h => h)
      fun _ _ h => ⟨h, fun _ => h⟩)
    fun schema => (hrecord schema).imp (fun _ h => h.2) fun _ _ h => h

theorem ensures_onEvent (s : Surroundings) (e : DdlEvent) :
    Ensures (fun d : Desk Database => Sound d.ledger) (onEvent s e) fun _ d => Sound d.ledger :=
  onEvent_ensures_of_record (ensures_record s e)

end Recorder

/-! ## Transactions -/

/-- What comes to a ledger: an operation of the tool, or a statement from outside that the
recorder is told of. The clock, the snapshots and the supply of labels may be different each time.
-/
inductive Step where
  | operation (now : Moment) (snapshot : String → Except Failure Value) (o : Lifecycle.Operation)
  | event (s : Surroundings) (labels : List String) (e : DdlEvent)

namespace Step

variable {σ : Type} [LedgerStore σ]

/-- What a step does to the ledger; the answer is the record that it wrote, if any. -/
def act : Step → Action σ (Option Record)
  | operation now snapshot o => o.run now snapshot
  | event s labels e => fun l =>
    let (answer, desk) := Recorder.onEvent s e { ledger := l, labels }
    (answer, desk.ledger)

/-- The step as one transaction. -/
def commit (step : Step) : Action σ (Option Record) := atomically step.act

/-- What an event ensures of the ledger on the desk is ensured of the ledger. -/
theorem ensures_event {P : σ → Prop} {s : Surroundings} {e : DdlEvent}
    (h : Ensures (fun d : Desk σ => P d.ledger) (Recorder.onEvent s e) fun _ d => P d.ledger)
    (labels : List String) : Ensures P ((event s labels e).act (σ := σ)) fun _ => P := by
  intro l a l' hl hx
  obtain ⟨hanswer, rfl⟩ := Prod.mk.inj hx
  exact h _ a _ hl (Prod.ext hanswer rfl)

/-- What operations and events ensure of the ledger is ensured by each step. -/
theorem ensures_of {P : σ → Prop}
    (hoperation : ∀ now snapshot (o : Lifecycle.Operation),
      Ensures P (o.run now snapshot) fun _ => P)
    (hevent : ∀ s e, Ensures (fun d : Desk σ => P d.ledger) (Recorder.onEvent s e)
      fun _ d => P d.ledger)
    (step : Step) : Ensures P (step.act (σ := σ)) fun _ => P := by
  cases step with
  | operation now snapshot o => exact hoperation now snapshot o
  | event s labels e => exact ensures_event (hevent s e) labels

theorem ensures_act (step : Step) :
    Ensures Database.Sound (step.act (σ := Database)) fun _ => Database.Sound :=
  step.ensures_of Lifecycle.Operation.ensures_run Recorder.ensures_onEvent

end Step

/-- **The histories in the table are whole.** Whatever the tool and the recorder do to an empty
table, each time in one transaction, the rows of a schema are one chain of known types with at
most one migration in progress. -/
theorem table_histories (steps : List Step) (versions : List VersionMark) (schema : String) :
    IsHistory (Table.ofSchema (after (steps.map Step.commit) ⟨some { versions }⟩ : Database).rows
      schema) := by
  have hempty : Database.Sound ⟨some { versions }⟩ := ⟨_, rfl, Intact.nil⟩
  have hsound : Database.Sound (after (steps.map Step.commit) ⟨some { versions }⟩) := by
    refine keeps_after (fun x hx => ?_) hempty
    obtain ⟨step, -, rfl⟩ := List.mem_map.mp hx
    exact keeps_atomically step.ensures_act
  obtain ⟨t, ht, h⟩ := hsound
  rw [ht]
  exact h schema

end SchemaLedger
