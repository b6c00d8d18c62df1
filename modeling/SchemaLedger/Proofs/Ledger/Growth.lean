import SchemaLedger.Proofs.Ledger.InFlight
import SchemaLedger.Proofs.Ledger.TableQuestions

/-!
# How histories grow

A history is read back by queries and a walk along the parents, and it is written by operations
that know nothing of the walk. This file relates the two: what a successful operation of the tool
does to the history that is read before and after it (`Operation.Changes`). A start and a baseline
add one record at the end, a rollback drops the last record, and a completion changes one record
where it stands. Histories of other schemas stay as they are, and an operation that fails changes
nothing (`Task.commit_cases`).

That a rollback can only drop the last record is the work of two constraints. The reference to
parents keeps a record with a child, and since the records form a line, a record without a child is
the last one.

Of these changes only the rollback and the completion touch a record that is there, and both refuse
a record that is done. So a record that is done is there for good (`Retains`), at its place and with
all it has. And a migration that was just started is the last record, so that its rollback puts the
rows back exactly (`Task.commit_rollback_of_start`). The main statement is `histories_grow`.
-/

namespace SchemaLedger

open Attempt

/-! ## Rows -/

namespace Table

variable {rows front back : Table} {schema other name : String} {r : Record}

theorem mem_of_row? (h : row? rows schema name = some r) :
    r ∈ ofSchema rows schema ∧ r.name = name := by
  have hkey := key_of_row? h
  exact ⟨List.mem_filter.mpr ⟨List.mem_of_find?_eq_some h, decide_eq_true hkey.1⟩, hkey.2⟩

/-- A row is changed where it stands. -/
theorem ofSchema_updateRow {f : Record → Record} (hf : KeepsPlace f)
    (hrows : ofSchema rows schema = front ++ r :: back)
    (hnames : ((front ++ r :: back).map (·.name)).Nodup) :
    ofSchema (updateRow rows schema r.name f) schema = front ++ f r :: back := by
  have hschema : ∀ s ∈ front ++ r :: back, s.schema = schema := by
    intro s hs
    rw [← hrows] at hs
    exact of_decide_eq_true (List.mem_filter.mp hs).2
  rw [List.map_append, List.map_cons, List.nodup_append, List.nodup_cons] at hnames
  obtain ⟨-, ⟨hback, -⟩, hfront⟩ := hnames
  have hother : ∀ part : List Record, (∀ s ∈ part, s.name ≠ r.name) →
      part.map (fun s => if s.schema = schema ∧ s.name = r.name then f s else s) = part := by
    intro part hpart
    refine (List.map_congr_left fun s hs => ?_).trans (List.map_id _)
    exact if_neg fun hkey => hpart s hs hkey.2
  rw [updateRow, ofSchema, (hf.onKey schema r.name).filter_schema]
  rw [ofSchema] at hrows
  rw [hrows, List.map_append, List.map_cons, if_pos ⟨hschema r (by simp), rfl⟩, hother front,
    hother back]
  · exact fun s hs hname => hback (hname ▸ List.mem_map_of_mem hs)
  · exact fun s hs hname => hfront _ (List.mem_map_of_mem hs) _ (List.mem_cons_self ..) hname

theorem ofSchema_updateRow_of_ne {f : Record → Record} (hf : KeepsPlace f)
    (hne : other ≠ schema) :
    ofSchema (updateRow rows schema name f) other = ofSchema rows other := by
  rw [updateRow, ofSchema, (hf.onKey schema name).filter_schema]
  refine (List.map_congr_left fun s hs => ?_).trans (List.map_id _)
  have hs : s.schema = other := of_decide_eq_true (List.mem_filter.mp hs).2
  exact if_neg fun hkey => hne (hs.symm.trans hkey.1)

/-- What is left when the last row of a schema goes. -/
theorem ofSchema_removed (hrows : ofSchema rows schema = front ++ [r])
    (hnames : ((front ++ [r]).map (·.name)).Nodup) :
    ofSchema (rows.filter fun s => !(s.schema = schema && s.name = r.name)) schema = front := by
  have hschema : ∀ s ∈ front ++ [r], s.schema = schema := by
    intro s hs
    rw [← hrows] at hs
    exact of_decide_eq_true (List.mem_filter.mp hs).2
  rw [List.map_append, List.nodup_append] at hnames
  rw [ofSchema, filter_schema_comm]
  rw [ofSchema] at hrows
  rw [hrows, List.filter_append, List.filter_eq_self.mpr, List.filter_eq_nil_iff.mpr,
    List.append_nil]
  · intro s hs
    rw [List.mem_singleton.mp hs]
    simp [hschema r (by simp)]
  · intro s hs
    have hname := hnames.2.2 s.name (List.mem_map_of_mem hs) r.name (by simp)
    simp [hname]

theorem ofSchema_removed_of_ne (hne : other ≠ schema) :
    ofSchema (rows.filter fun s => !(s.schema = schema && s.name = name)) other =
      ofSchema rows other := by
  rw [ofSchema, filter_schema_comm]
  refine List.filter_eq_self.mpr fun s hs => ?_
  have hs : s.schema = other := of_decide_eq_true (List.mem_filter.mp hs).2
  simp [hs, hne]

/-- A row that joined and goes again leaves the rows as they were. -/
theorem removed_concat (hnew : row? rows r.schema r.name = none) :
    ((rows ++ [r]).filter fun s => !(s.schema = r.schema && s.name = r.name)) = rows := by
  have hrows : ∀ s ∈ rows, (!(s.schema = r.schema && s.name = r.name)) = true := by
    intro s hs
    simpa [imp_iff_not_or] using List.find?_eq_none.mp hnew s hs
  rw [List.filter_append, List.filter_eq_self.mpr hrows]
  simp

end Table

/-! ## The history that is read -/

namespace Database

/-- The rows of a schema as the database gives them out. -/
def shownRows (d : Database) (schema : String) : List Record :=
  (Table.ofSchema d.rows schema).map shown

theorem shownRows_mk (t : Tables) (schema : String) :
    shownRows ⟨some t⟩ schema = (Table.ofSchema t.migrations schema).map shown := rfl

/-- What is read as the history are the rows of the schema. -/
theorem history_of_tidy {d : Database} (h : Tidy d) (schema : String) :
    LedgerStore.history schema d = (.ok (d.shownRows schema), d) := by
  obtain ⟨⟨t, rfl, hi⟩, hordered⟩ := h
  exact history_shown hordered.legible (hordered.arranges hi schema)

theorem tipName_shownRows (t : Tables) (schema : String) :
    tipName (shownRows ⟨some t⟩ schema) = tipName (Table.ofSchema t.migrations schema) := by
  rw [shownRows_mk, tipName, List.getLast?_map, Option.map_map]
  rfl

variable {t : Tables} {schema other : String} {front back : Table} {row : Record}

/-- A row that joins is the last one of its schema. -/
theorem shownRows_concat (t : Tables) (row : Record) (hrow : row.schema = schema) :
    let d : Database := ⟨some { t with migrations := t.migrations ++ [row] }⟩
    d.shownRows schema = shownRows ⟨some t⟩ schema ++ [shown row] ∧
      ∀ other ≠ schema, d.shownRows other = shownRows ⟨some t⟩ other := by
  refine ⟨?_, fun other hne => ?_⟩
  · rw [shownRows_mk, shownRows_mk, Table.ofSchema_concat hrow, List.map_append,
      List.map_singleton]
  · rw [shownRows_mk, shownRows_mk, Table.ofSchema_concat_of_ne (hrow.trans_ne hne.symm)]

/-- A row that is completed stays where it stands. -/
theorem shownRows_completed (now : Moment) {resulting v : Value}
    (hv : readMapping (Json.kept resulting) = .ok v)
    (hrows : Table.ofSchema t.migrations schema = front ++ row :: back)
    (hnames : ((front ++ row :: back).map (·.name)).Nodup) :
    let d : Database := ⟨some { t with
      migrations := Table.updateRow t.migrations schema row.name fun r =>
        { r with done := true, resultingSchema := resulting, updatedAt := some now } }⟩
    d.shownRows schema = front.map shown ++
        { shown row with done := true, resultingSchema := v, updatedAt := some now.toUtc } ::
          back.map shown ∧
      ∀ other ≠ schema, d.shownRows other = shownRows ⟨some t⟩ other := by
  have hplace := keepsPlace_complete (fun _ => resulting) fun _ => some now
  have hshown :
      shown { row with done := true, resultingSchema := resulting, updatedAt := some now } =
        { shown row with done := true, resultingSchema := v, updatedAt := some now.toUtc } := by
    rw [shown, shown, hv]
    rfl
  refine ⟨?_, fun other hne => ?_⟩
  · rw [shownRows_mk, Table.ofSchema_updateRow hplace hrows hnames, List.map_append, List.map_cons,
      hshown]
  · rw [shownRows_mk, shownRows_mk, Table.ofSchema_updateRow_of_ne hplace hne]

/-- The last row of a schema goes. -/
theorem shownRows_removed (hrows : Table.ofSchema t.migrations schema = front ++ [row])
    (hnames : ((front ++ [row]).map (·.name)).Nodup) :
    let d : Database := ⟨some { t with
      migrations := t.migrations.filter fun s => !(s.schema = schema && s.name = row.name) }⟩
    d.shownRows schema = front.map shown ∧
      ∀ other ≠ schema, d.shownRows other = shownRows ⟨some t⟩ other := by
  refine ⟨?_, fun other hne => ?_⟩
  · rw [shownRows_mk, Table.ofSchema_removed hrows hnames]
  · rw [shownRows_mk, shownRows_mk, Table.ofSchema_removed_of_ne hne]

end Database

/-! ## What an operation does -/

namespace Lifecycle

open Database (Sound Tidy shown)

/-- The schema that an operation is about. -/
def Operation.schema : Operation → String
  | start schema _ _ | complete schema _ | rollback schema _ | createBaseline schema _ => schema

/-- The record that a start adds. -/
def startRecord (now : Moment) (schema name : String) (p : Payload) (parent : Option String) :
    Record :=
  { schema, name, parent
    migration := p.toLedger
    createdAt := some now
    updatedAt := some now }

/-- The record that a baseline adds. -/
def baselineRecord (now : Moment) (schema name : String) (present : Value)
    (parent : Option String) : Record :=
  { schema, name, parent
    migration := Mapping.ofFields [("operations", .list [])]
    done := true
    resultingSchema := present
    migrationType := "baseline"
    createdAt := some now
    updatedAt := some now }

/-- The snapshot of a schema as it comes back from the database. -/
def keptSnapshot (snapshot : String → Except Failure Value) (schema : String) :
    Except Failure Value := do
  readMapping (Json.kept (← snapshot schema))

/-- The one way in which an operation that succeeds changes the history of its schema from `old` to
`new`. -/
def Operation.Changes (now : Moment) (snapshot : String → Except Failure Value)
    (old new : List Record) : Operation → Prop
  | start schema name p =>
    new = old ++ [(startRecord now.toUtc schema name p (tipName old)).asJson]
  | complete schema name =>
    ∃ front r back v, keptSnapshot snapshot schema = .ok v ∧
      old = front ++ r :: back ∧ r.name = name ∧ r.done = false ∧
      new = front ++
        { r with done := true, resultingSchema := v, updatedAt := some now.toUtc } :: back
  | rollback _ name => ∃ r, r.name = name ∧ r.done = false ∧ old = new ++ [r]
  | createBaseline schema name =>
    ∃ v, keptSnapshot snapshot schema = .ok v ∧
      new = old ++ [baselineRecord now.toUtc schema name v (tipName old)]

/-- What is done in a history is there in another one, at the same place and with all it has. -/
def Retains (old new : List Record) : Prop :=
  ∀ (i : Nat) (r : Record), old[i]? = some r → r.done = true → new[i]? = some r

theorem Retains.refl (records : List Record) : Retains records records := fun _ _ h _ => h

theorem Retains.trans {old mid new : List Record} (h : Retains old mid) (h' : Retains mid new) :
    Retains old new := fun i r hr hdone => h' i r (h i r hr hdone) hdone

theorem retains_append (old more : List Record) : Retains old (old ++ more) := by
  intro i r hr _
  obtain ⟨hi, -⟩ := List.getElem?_eq_some_iff.mp hr
  rw [List.getElem?_append_left hi, hr]

/-- An end that is not done may go. -/
theorem retains_dropLast {new : List Record} {r : Record} (hopen : r.done = false) :
    Retains (new ++ [r]) new := by
  intro i s hs hdone
  by_cases hi : i < new.length
  · rwa [List.getElem?_append_left hi] at hs
  · rw [List.getElem?_append_right (by omega)] at hs
    have hsr : s = r := List.mem_singleton.mp (List.mem_of_getElem? hs)
    rw [hsr, hopen] at hdone
    nomatch hdone

/-- A record that is not done may change where it stands. -/
theorem retains_replace {front back : List Record} {r s : Record} (hopen : r.done = false) :
    Retains (front ++ r :: back) (front ++ s :: back) := by
  intro i q hq hdone
  by_cases hi : i < front.length
  · rw [List.getElem?_append_left hi] at hq ⊢
    exact hq
  · rw [List.getElem?_append_right (by omega)] at hq ⊢
    cases hk : i - front.length with
    | zero =>
      rw [hk, List.getElem?_cons_zero, Option.some.injEq] at hq
      rw [← hq, hopen] at hdone
      nomatch hdone
    | succ k =>
      rw [hk, List.getElem?_cons_succ] at hq
      rw [List.getElem?_cons_succ, hq]

/-- No operation undoes what is done. -/
theorem Operation.Changes.retains {now : Moment} {snapshot : String → Except Failure Value}
    {old new : List Record} {o : Operation} (h : o.Changes now snapshot old new) :
    Retains old new := by
  cases o with
  | start schema name p =>
    rw [show new = old ++ _ from h]
    exact retains_append _ _
  | complete schema name =>
    obtain ⟨front, r, back, v, -, rfl, -, hopen, rfl⟩ := h
    exact retains_replace hopen
  | rollback schema name =>
    obtain ⟨r, -, hopen, rfl⟩ := h
    exact retains_dropLast hopen
  | createBaseline schema name =>
    obtain ⟨v, -, rfl⟩ := h
    exact retains_append _ _

section Effects

variable {t : Tables} {d : Database} {now : Moment} {snapshot : String → Except Failure Value}
  {schema name : String} {p : Payload} {r : Record}

theorem latest_of_tidy (h : Tidy ⟨some t⟩) (schema : String) :
    LedgerStore.latest schema (⟨some t⟩ : Database) =
      (.ok ((Table.ofSchema t.migrations schema).getLast?.map shown), ⟨some t⟩) := by
  obtain ⟨⟨_, ht, hi⟩, hordered⟩ := h
  cases ht
  exact Database.latest_shown hordered.legible (hordered.arranges hi schema)

/-- The tip that is read has the name of the last row. -/
theorem name_shown (rows : List Record) :
    (rows.getLast?.map shown).map (·.name) = tipName rows := by
  rw [Option.map_map]
  rfl

/-- A start adds an open row that was not there. -/
theorem start_rows (h : Tidy ⟨some t⟩) (hx : start now schema name p ⟨some t⟩ = (.ok r, d)) :
    let row := startRecord now schema name p (tipName (Table.ofSchema t.migrations schema))
    Table.row? t.migrations schema name = none ∧
      d = ⟨some { t with migrations := t.migrations ++ [row] }⟩ := by
  intro row
  rw [start, bind_ok (latest_of_tidy h schema), name_shown] at hx
  obtain ⟨-, hbroken, -, hd⟩ := Database.insert_eq_ok hx
  refine ⟨List.find?_eq_none.mpr fun s hs => ?_, hd⟩
  have hkey := Table.broken?_eq_none.mp hbroken .migrationsKey
  rw [Constraint.brokenBy, List.any_eq_false] at hkey
  exact hkey s hs

/-- A baseline is added as a completed row. -/
theorem createBaseline_rows (h : Tidy ⟨some t⟩)
    (hx : createBaseline now snapshot schema name ⟨some t⟩ = (.ok r, d)) :
    ∃ present v, snapshot schema = .ok present ∧ readMapping (Json.kept present) = .ok v ∧
      let row :=
        baselineRecord now schema name present (tipName (Table.ofSchema t.migrations schema))
      d = ⟨some { t with migrations := t.migrations ++ [row] }⟩ := by
  rw [createBaseline, bind_ok (latest_of_tidy h schema), name_shown] at hx
  obtain ⟨present, d', hlift, hinsert⟩ := bind_eq_ok.mp hx
  obtain ⟨hpresent, rfl⟩ := Prod.mk.inj hlift
  obtain ⟨hstorable, -, hwritten, rfl⟩ := Database.insert_eq_ok hinsert
  obtain ⟨v, hv⟩ := Database.legible_of_written hstorable hwritten
  exact ⟨present, v, hpresent, hv, rfl⟩

/-- A row is completed if it was open. -/
theorem complete_rows (hx : complete now snapshot schema name ⟨some t⟩ = (.ok r, d)) :
    ∃ row present v, snapshot schema = .ok present ∧ readMapping (Json.kept present) = .ok v ∧
      Table.row? t.migrations schema name = some row ∧ row.done = false ∧
      d = ⟨some { t with migrations := Table.updateRow t.migrations schema name fun r =>
        { r with done := true, resultingSchema := present, updatedAt := some now } }⟩ := by
  rw [complete_apply] at hx
  split at hx
  next => simp at hx
  next present hpresent =>
    obtain ⟨row, _, hrow, hopen, hstorable, hread, rfl⟩ := Database.markDone_eq_ok hx
    obtain ⟨v, hv⟩ := Json.exists_readMapping_kept hstorable ⟨_, hread⟩
    exact ⟨row, present, v, hpresent, hv, hrow, hopen, rfl⟩

/-- A row is rolled back if it was open and the last one of its schema. -/
theorem rollback_rows (h : Tidy ⟨some t⟩) {u : Unit}
    (hx : rollback schema name ⟨some t⟩ = (.ok u, d)) :
    ∃ front row, Table.ofSchema t.migrations schema = front ++ [row] ∧ row.name = name ∧
      row.done = false ∧
      d = ⟨some { t with
        migrations := t.migrations.filter fun s => !(s.schema = schema && s.name = name) }⟩ := by
  obtain ⟨⟨_, ht, hi⟩, hordered⟩ := h
  cases ht
  obtain ⟨u', d', hcheck, hdelete⟩ := bind_eq_ok.mp hx
  obtain ⟨q, hget, hopen⟩ := checkOpen_eq_ok.mp hcheck
  have hget : Database.get schema name ⟨some t⟩ = (.ok q, d') := hget
  rw [Database.get_apply] at hget
  obtain ⟨hread, rfl⟩ := Prod.mk.inj hget
  split at hread
  next row hrow =>
    obtain ⟨v, -, rfl⟩ := Database.written_eq_ok hread
    have hdelete : Database.delete schema name ⟨some t⟩ = (.ok u, d) := hdelete
    rw [Database.delete_of_row? t hi hrow] at hdelete
    split at hdelete
    next => simp at hdelete
    next hchild =>
      obtain ⟨-, hd⟩ := Prod.mk.inj hdelete
      obtain ⟨hmem, rfl⟩ := Table.mem_of_row? hrow
      -- nobody has the row as its parent, so it is the last one
      have hlast := (hordered.arranges hi schema).getLast?_of_childless hmem fun s hs hparent =>
        hchild (List.any_eq_true.mpr ⟨s, hs, decide_eq_true hparent⟩)
      obtain ⟨front, hfront⟩ := List.getLast?_eq_some_iff.mp hlast
      exact ⟨front, row, hfront, rfl, hopen, hd.symm⟩
  next => simp at hread

/-- An operation that succeeds changes the history of its schema in its one way, and no other. -/
theorem Operation.changes_run {o : Operation} {d' : Database} {answer : Option Record}
    (h : Tidy d) (hx : o.run now snapshot d = (.ok answer, d')) :
    o.Changes now snapshot (d.shownRows o.schema) (d'.shownRows o.schema) ∧
      ∀ other ≠ o.schema, d'.shownRows other = d.shownRows other := by
  obtain ⟨⟨t, rfl, hi⟩, hordered⟩ := h
  have h : Tidy ⟨some t⟩ := ⟨⟨t, rfl, hi⟩, hordered⟩
  have hnames : ∀ schema, ((Table.ofSchema t.migrations schema).map (·.name)).Nodup :=
    fun schema => (hordered.arranges hi schema).names
  cases o with
  | start schema name p =>
    obtain ⟨r, d₁, hstart, hpure⟩ := bind_eq_ok.mp hx
    obtain ⟨-, rfl⟩ := Prod.mk.inj hpure
    obtain ⟨-, rfl⟩ := start_rows h hstart
    let row := startRecord now schema name p (tipName (Table.ofSchema t.migrations schema))
    obtain ⟨hown, hother⟩ := Database.shownRows_concat t row rfl
    refine ⟨hown.trans ?_, hother⟩
    rw [Operation.schema, Database.tipName_shownRows]
    rfl
  | complete schema name =>
    obtain ⟨r, d₁, hcomplete, hpure⟩ := bind_eq_ok.mp hx
    obtain ⟨-, rfl⟩ := Prod.mk.inj hpure
    obtain ⟨row, present, v, hpresent, hv, hrow, hopen, rfl⟩ := complete_rows hcomplete
    obtain ⟨hmem, rfl⟩ := Table.mem_of_row? hrow
    obtain ⟨front, back, hrows⟩ := List.append_of_mem hmem
    obtain ⟨hown, hother⟩ :=
      Database.shownRows_completed now hv hrows (hrows ▸ hnames schema)
    refine ⟨⟨front.map shown, shown row, back.map shown, v, ?_, ?_, rfl, hopen, hown⟩, hother⟩
    · rw [keptSnapshot, hpresent]
      exact hv
    · exact (congrArg (List.map shown) hrows).trans (by rw [List.map_append, List.map_cons])
  | rollback schema name =>
    obtain ⟨u, d₁, hrollback, hpure⟩ := bind_eq_ok.mp hx
    obtain ⟨-, rfl⟩ := Prod.mk.inj hpure
    obtain ⟨front, row, hrows, rfl, hopen, rfl⟩ := rollback_rows h hrollback
    obtain ⟨hown, hother⟩ := Database.shownRows_removed hrows (hrows ▸ hnames schema)
    refine ⟨⟨shown row, rfl, hopen, ?_⟩, hother⟩
    rw [show Database.shownRows _ (Operation.rollback schema row.name).schema = _ from hown]
    exact (congrArg (List.map shown) hrows).trans (by rw [List.map_append, List.map_singleton])
  | createBaseline schema name =>
    obtain ⟨r, d₁, hbaseline, hpure⟩ := bind_eq_ok.mp hx
    obtain ⟨-, rfl⟩ := Prod.mk.inj hpure
    obtain ⟨present, v, hpresent, hv, rfl⟩ := createBaseline_rows h hbaseline
    let row := baselineRecord now schema name present
      (tipName (Table.ofSchema t.migrations schema))
    have hrow : shown row = { row with
        resultingSchema := v, createdAt := some now.toUtc, updatedAt := some now.toUtc } := by
      rw [shown, show readMapping (Json.kept row.resultingSchema) = .ok v from hv]
      rfl
    obtain ⟨hown, hother⟩ := Database.shownRows_concat t row rfl
    refine ⟨⟨v, ?_, hown.trans ?_⟩, hother⟩
    · rw [keptSnapshot, hpresent]
      exact hv
    · rw [hrow, Operation.schema, Database.tipName_shownRows]
      rfl

/-- A migration that was just started is the last row, and its rollback takes just that row. -/
theorem rollback_of_start (h : Tidy d) {d' : Database}
    (hx : start now schema name p d = (.ok r, d')) : rollback schema name d' = (.ok (), d) := by
  have h' : Tidy d' := tidy_start now schema name p d r d' h hx
  obtain ⟨⟨t, rfl, hi⟩, hordered⟩ := h
  obtain ⟨hnew, rfl⟩ := start_rows ⟨⟨t, rfl, hi⟩, hordered⟩ hx
  obtain ⟨⟨t', ht', hi'⟩, hordered'⟩ := h'
  cases ht'
  let row := startRecord now schema name p (tipName (Table.ofSchema t.migrations schema))
  have hrows : Table.ofSchema (t.migrations ++ [row]) schema =
      Table.ofSchema t.migrations schema ++ row :: [] := Table.ofSchema_concat rfl
  have hrollback := hordered'.rollback_apply hi' hrows rfl
  have hback : (t.migrations ++ [row]).filter (fun s => !(s.schema = schema && s.name = row.name)) =
      t.migrations := Table.removed_concat (show Table.row? _ row.schema row.name = none from hnew)
  rw [if_pos rfl, hback] at hrollback
  exact atomically_eq_ok.mp hrollback

end Effects

/-! ## Operations one after another -/

/-- An operation of the tool with the time at which it runs and the schema snapshots it would
find. -/
structure Task where
  now : Moment
  snapshot : String → Except Failure Value
  operation : Operation

/-- The histories that are read from a database. -/
def Reads (d : Database) (histories : String → List Record) : Prop :=
  ∀ schema, LedgerStore.history schema d = (.ok (histories schema), d)

namespace Task

/-- The operation as one transaction. -/
def commit (task : Task) : Action Database (Option Record) :=
  atomically (task.operation.run task.now task.snapshot)

theorem tidy_commit (task : Task) : Keeps Tidy task.commit :=
  keeps_atomically (task.operation.tidy_run task.now task.snapshot)

theorem tidy_after (tasks : List Task) {d : Database} (h : Tidy d) :
    Tidy (after (tasks.map commit) d) := by
  refine keeps_after (fun x hx => ?_) h
  obtain ⟨task, -, rfl⟩ := List.mem_map.mp hx
  exact task.tidy_commit

/-- What the transaction of an operation does to the histories that are read. -/
theorem commit_cases (task : Task) {d : Database} (h : Tidy d) :
    match task.commit d with
    | (.ok _, d') =>
      task.operation.Changes task.now task.snapshot (d.shownRows task.operation.schema)
          (d'.shownRows task.operation.schema) ∧
        ∀ other ≠ task.operation.schema, d'.shownRows other = d.shownRows other
    | (.error _, d') => d' = d := by
  split
  next answer d' hx => exact Operation.changes_run h (atomically_eq_ok.mp hx)
  next e d' hx => exact eq_of_atomically_eq_error hx

/-- No transaction undoes what is done. -/
theorem retains_commit (task : Task) {d : Database} (h : Tidy d) (schema : String) :
    Retains (d.shownRows schema) ((task.commit d).2.shownRows schema) := by
  have hcases := task.commit_cases h
  split at hcases
  next answer d' hx =>
    rw [hx]
    by_cases hschema : schema = task.operation.schema
    · rw [hschema]
      exact hcases.1.retains
    · rw [hcases.2 schema hschema]
      exact .refl _
  next e d' hx =>
    rw [hx, hcases]
    exact .refl _

theorem retains_after (tasks : List Task) {d : Database} (h : Tidy d) (schema : String) :
    Retains (d.shownRows schema) ((after (tasks.map commit) d).shownRows schema) := by
  induction tasks generalizing d with
  | nil => exact .refl _
  | cons task rest ih => exact (task.retains_commit h schema).trans (ih (task.tidy_commit d h))

/-- A start and a rollback of the same migration put the rows back exactly. -/
theorem commit_rollback_of_start {d : Database} (h : Tidy d) (now now' : Moment)
    (snapshot snapshot' : String → Except Failure Value) (schema name : String) (p : Payload) :
    match commit ⟨now, snapshot, .start schema name p⟩ d with
    | (.ok _, d') => commit ⟨now', snapshot', .rollback schema name⟩ d' = (.ok none, d)
    | (.error _, d') => d' = d := by
  split
  next answer d' hx =>
    obtain ⟨r, d₁, hstart, hpure⟩ := bind_eq_ok.mp (atomically_eq_ok.mp hx)
    obtain ⟨-, rfl⟩ := Prod.mk.inj hpure
    exact atomically_eq_ok.mpr (bind_eq_ok.mpr ⟨(), d, rollback_of_start h hstart, rfl⟩)
  next e d' hx => exact eq_of_atomically_eq_error hx

end Task

/-- **Histories grow at the end, and what is done stays.** After any operations on an empty table,
each in one transaction, the histories can be read. A further operation that succeeds changes the
history of its schema in its one way and no other history; one that fails changes nothing. Whatever
comes later, a record that is done stays at its place with all it has. And a start is undone exactly
by its rollback. -/
theorem histories_grow (tasks : List Task) (versions : List VersionMark) :
    let d : Database := after (tasks.map Task.commit) ⟨some { versions }⟩
    ∃ old, Reads d old ∧
      (∀ task : Task,
        match task.commit d with
        | (.ok _, d') => ∃ new, Reads d' new ∧
          task.operation.Changes task.now task.snapshot (old task.operation.schema)
            (new task.operation.schema) ∧
          ∀ other ≠ task.operation.schema, new other = old other
        | (.error _, d') => d' = d) ∧
      (∀ later : List Task, ∃ new, Reads (after (later.map Task.commit) d) new ∧
        ∀ schema, Retains (old schema) (new schema)) ∧
      ∀ now snapshot schema name p now' snapshot',
        match Task.commit ⟨now, snapshot, .start schema name p⟩ d with
        | (.ok _, d') => Task.commit ⟨now', snapshot', .rollback schema name⟩ d' = (.ok none, d)
        | (.error _, d') => d' = d := by
  intro d
  have h : Tidy d := Task.tidy_after tasks ⟨⟨_, rfl, Intact.nil⟩, Ordered.nil⟩
  refine ⟨d.shownRows, Database.history_of_tidy h, fun task => ?_, fun later => ?_, ?_⟩
  · have hcases := task.commit_cases h
    have htidy := task.tidy_commit d h
    split at hcases
    next answer d' hx =>
      rw [hx] at htidy
      exact ⟨d'.shownRows, Database.history_of_tidy htidy, hcases⟩
    next => exact hcases
  · exact ⟨_, Database.history_of_tidy (Task.tidy_after later h), Task.retains_after later h⟩
  · intro now snapshot schema name p now' snapshot'
    exact Task.commit_rollback_of_start h now now' snapshot snapshot' schema name p

/-- All of these succeed: a baseline, a migration on top of it and its rollback. -/
example :
    let task (o : Operation) : Task := ⟨⟨0, some 0⟩, fun _ => .ok (.map []), o⟩
    let operations : List Operation :=
      [.createBaseline "public" "a", .start "public" "b" {}, .rollback "public" "b"]
    (trace (operations.map fun o => (task o).commit) ⟨some {}⟩).map (·.1.toOption.isSome) =
      [true, true, true] := by decide

end Lifecycle

end SchemaLedger
