import SchemaLedger.Proofs.Ledger.TableQuestions

/-!
# The migration in progress and the tip

While a migration is in progress no other one can start, and the recorder leaves the history alone.
So one would expect it at the tip, where it can be rolled back. A baseline is different: it is
recorded as done right away, and nothing asks whether a migration is in progress. It joins on top of
that migration, which from then on has a child and cannot be rolled back any more
(`in_flight_not_always_tip`).

This file says what is true of every sequence of transactions: nothing but baselines ever stands
above a migration in progress, and it can be rolled back exactly if there are none
(`in_flight_below_baselines`).

The argument rests on the order of the rows. A row joins under the tip and at the end of the table,
and rows go from the tip downwards, so the rows of a schema stand in the table as they stand in the
chain. Then "above" is "later in the table", and that whatever comes after an open row is a baseline
is kept by every change (`Ordered`).
-/

namespace SchemaLedger

open Attempt

/-- The rows of each schema stand in the order of their chain, only baselines come after an open
row, and every row can be given out. -/
structure Ordered (rows : Table) : Prop where
  linked : ∀ schema, Linked none (Table.ofSchema rows schema)
  above : ∀ schema, (Table.ofSchema rows schema).Pairwise fun r s =>
    r.done = true ∨ s.migrationType = "baseline"
  legible : ∀ r ∈ rows, Database.Legible r

namespace Ordered

variable {rows : Table}

theorem nil : Ordered [] := ⟨fun _ => trivial, fun _ => .nil, List.forall_mem_nil _⟩

/-- The rows of a schema are their own arrangement. -/
theorem arranges (h : Ordered rows) (hi : Intact rows) (schema : String) :
    Arranges (Table.ofSchema rows schema) (Table.ofSchema rows schema) := by
  obtain ⟨chain, hchain⟩ := (hi schema).arranged
  exact ⟨.refl _, hchain.names_records, h.linked schema⟩

/-- A row joins at the end. It is a baseline, or it finds no migration in progress. -/
theorem append (h : Ordered rows) (hi : Intact rows) {r : Record}
    (hr : violationFor rows r = none) (hlegible : Database.Legible r)
    (hdone : r.done = true →
      r.migrationType = "baseline" ∨ Settled (Table.ofSchema rows r.schema)) :
    Ordered (rows ++ [r]) := by
  obtain ⟨-, -, hactive, hplace⟩ := violationFor_eq_none.mp hr
  have hparent : r.parent = tipName (Table.ofSchema rows r.schema) :=
    (h.arranges hi r.schema).freePlace_iff.mp hplace
  have hquiet : r.migrationType = "baseline" ∨ Settled (Table.ofSchema rows r.schema) :=
    hactive.elim hdone .inr
  refine ⟨fun schema => ?_, fun schema => ?_, ?_⟩
  · by_cases hschema : r.schema = schema
    · rw [← hschema, Table.ofSchema_concat rfl]
      exact linked_concat.mpr ⟨h.linked r.schema, hparent⟩
    · rw [Table.ofSchema_concat_of_ne hschema]
      exact h.linked schema
  · by_cases hschema : r.schema = schema
    · rw [← hschema, Table.ofSchema_concat rfl, List.pairwise_append]
      refine ⟨h.above r.schema, List.pairwise_singleton _ _, fun s hs u hu => ?_⟩
      rw [List.mem_singleton.mp hu]
      exact hquiet.elim .inr fun hsettled => .inl (hsettled s hs)
    · rw [Table.ofSchema_concat_of_ne hschema]
      exact h.above schema
  · exact List.forall_mem_append.mpr ⟨h.legible, List.forall_mem_singleton.mpr hlegible⟩

/-- Rows may change where they stand. -/
theorem map (h : Ordered rows) {f : Record → Record} (hf : KeepsPlace f)
    (hlegible : ∀ r ∈ rows.map f, Database.Legible r) : Ordered (rows.map f) := by
  have hschema : ∀ schema,
      Table.ofSchema (rows.map f) schema = (Table.ofSchema rows schema).map f :=
    hf.filter_schema rows
  refine ⟨fun schema => ?_, fun schema => ?_, hlegible⟩
  · rw [hschema]
    exact (h.linked schema).map hf.name hf.parent
  · rw [hschema, List.pairwise_map]
    refine (h.above schema).imp fun {r s} hrs => ?_
    rw [hf.migrationType]
    exact hrs.imp_left (hf.done r)

/-- Rows may go as long as none that stays has one of them as its parent. -/
theorem filter (h : Ordered rows) {keep : Record → Bool}
    (hkeep : ∀ r ∈ rows, keep r = true → ∀ g ∈ rows, keep g = false →
      g.schema = r.schema → r.parent ≠ some g.name) : Ordered (rows.filter keep) := by
  have hschema : ∀ schema,
      Table.ofSchema (rows.filter keep) schema = (Table.ofSchema rows schema).filter keep :=
    filter_schema_comm rows keep
  refine ⟨fun schema => ?_, fun schema => ?_, fun r hr => h.legible r (List.mem_filter.mp hr).1⟩
  · rw [hschema]
    exact (h.linked schema).filter (ofSchema_kept hkeep)
  · rw [hschema]
    exact (h.above schema).filter keep

end Ordered

namespace Database

/-- The database has tables, and its rows are intact and in order. -/
def Tidy (d : Database) : Prop := Sound d ∧ Ordered d.rows

/-- No migration of the schema is in progress. -/
def Quiet (schema : String) (d : Database) : Prop := Settled (Table.ofSchema d.rows schema)

/-! ## The operations of the ledger -/

/-- What is kept by the removal of rows is kept by the statement that removes them. -/
theorem keeps_change_deleteRows {P : Table → Prop}
    (hP : ∀ rows gone kept, Table.deleteRows rows gone = .ok kept → P rows → P kept)
    (refused : Constraint → Failure) (gone : Record → Bool) :
    Keeps (fun d => P d.rows) (change refused (Table.deleteRows · gone)) := by
  rintro ⟨_ | t⟩ h
  · exact h
  · rw [change_apply]
    split
    next kept hkept => exact hP _ _ _ hkept h
    next => exact h

theorem keeps_ordered_deleteRows (refused : Constraint → Failure) (gone : Record → Bool) :
    Keeps (fun d => Ordered d.rows) (change refused (Table.deleteRows · gone)) := by
  refine keeps_change_deleteRows (fun rows gone kept hkept h => ?_) refused gone
  obtain ⟨hfree, rfl⟩ := Table.deleteRows_eq_ok.mp hkept
  refine h.filter fun r hr hstays g hg hgone => ?_
  exact hfree r hr (by simpa using hstays) g hg (by simpa using hgone)

theorem keeps_quiet_deleteRows (schema : String) (refused : Constraint → Failure)
    (gone : Record → Bool) : Keeps (Quiet schema) (change refused (Table.deleteRows · gone)) := by
  refine keeps_change_deleteRows (P := fun rows => Settled (Table.ofSchema rows schema))
    (fun rows gone kept hkept h r hr => ?_) refused gone
  obtain ⟨-, rfl⟩ := Table.deleteRows_eq_ok.mp hkept
  obtain ⟨hr, hschema⟩ := List.mem_filter.mp hr
  exact h r (List.mem_filter.mpr ⟨(List.mem_filter.mp hr).1, hschema⟩)

theorem tidy_delete (schema name : String) : Ensures Tidy (delete schema name) fun _ => Tidy :=
  (ensures_delete schema name).and
    (keeps_bind (keeps_ask _) fun _ => keeps_ordered_deleteRows _ _).ensures

/-- The removal of duplicates opens no migration. -/
theorem tidy_deleteInferredDuplicates (schema : String) (createdAt : Moment) (statement : String) :
    Ensures (fun d => Tidy d ∧ Quiet schema d)
      (deleteInferredDuplicates schema createdAt statement) fun _ d => Tidy d ∧ Quiet schema d := by
  refine ((ensures_deleteInferredDuplicates schema createdAt statement).and ?_).and ?_
  · exact (keeps_bind (keeps_ask _) fun _ => keeps_bind (keeps_ordered_deleteRows _ _) fun _ =>
      keeps_pure _).ensures
  · exact (keeps_bind (keeps_ask _) fun _ => keeps_bind (keeps_quiet_deleteRows schema _ _) fun _ =>
      keeps_pure _).ensures

/-- The tip is read without a change to the rows. -/
theorem tidy_latest (schema : String) :
    Ensures Tidy (latest schema) fun tip d => OpenAt schema (tip.map (·.name)) d ∧ Ordered d.rows :=
  (ensures_latest schema).and (keeps_ask _).ensures

/-- A row joins at the end of the table. If it is done, it is a baseline or joins while no migration
is in progress; if it is open, the table itself makes sure of the latter. -/
theorem tidy_insert (now : Moment) {record : Record} {schema : String} {parent : Option String}
    (hschema : record.schema = schema) (hparent : record.parent = parent) :
    Ensures (fun d => (OpenAt schema parent d ∧ Ordered d.rows) ∧
        (record.done = true → record.migrationType = "baseline" ∨ Quiet schema d))
      (insert now record) fun _ => Tidy := by
  subst hschema hparent
  rintro d r d' ⟨⟨⟨t, rfl, h, hplace⟩, hordered⟩, hquiet⟩ hx
  obtain ⟨hstorable, hbroken, hwritten, rfl⟩ := insert_eq_ok hx
  have hfits : violationFor t.migrations (record.stamped now) = none :=
    violationFor_of_broken?_eq_none hbroken hplace
  exact ⟨⟨_, rfl, h.append hfits⟩, hordered.append h hfits (legible_of_written hstorable hwritten)
    hquiet⟩

/-- A row is completed where it stands. -/
theorem tidy_markDone (now : Moment) (schema name : String) (resulting : Value) :
    Ensures Tidy (markDone now schema name resulting) fun _ => Tidy := by
  have hordered : Ensures (fun d => Ordered d.rows) (markDone now schema name resulting)
      fun _ d => Ordered d.rows := by
    rintro ⟨_ | t⟩ r d' h hx
    · nomatch hx
    obtain ⟨row, v, -, -, hstorable, hv, rfl⟩ := markDone_eq_ok hx
    have hlegible := Json.exists_readMapping_kept hstorable ⟨v, hv⟩
    have hplace := (keepsPlace_complete (fun _ => resulting) fun _ => some now).onKey schema name
    exact h.map hplace (Table.forall_mem_updateRow h.legible fun _ _ => hlegible)
  exact (ensures_markDone now schema name resulting).and hordered

/-- If the answer is that no migration is in progress, none is. -/
theorem quiet_isActive (schema : String) :
    Ensures Tidy (LedgerStore.isActive (σ := Database) schema)
      fun active d => Tidy d ∧ (active = false → Quiet schema d) := by
  intro d active d' h hx
  refine ⟨(keeps_isActive schema).ensures d active d' h hx, ?_⟩
  rintro rfl
  obtain ⟨t, rfl, -⟩ := h.1
  obtain ⟨row, d'', hask, hpure⟩ := bind_eq_ok.mp hx
  obtain ⟨hread, rfl⟩ := Prod.mk.inj hask
  obtain ⟨hanswer, rfl⟩ := Prod.mk.inj hpure
  have hnone : row = none := Option.isNone_iff_eq_none.mp (by simpa using Except.ok.inj hanswer)
  have hname := readOption_name hread
  rw [hnone, Option.map_none] at hname
  intro r hr
  simpa using List.find?_eq_none.mp (Option.map_eq_none_iff.mp hname.symm) r hr

end Database

/-! ## The operations of the tool and the recorder -/

open Database (Sound OpenAt Tidy Quiet)

namespace Lifecycle

theorem tidy_start (now : Moment) (schema name : String) (p : Payload) :
    Ensures Tidy (start (σ := Database) now schema name p) fun _ => Tidy :=
  ensures_bind (Database.tidy_latest schema) fun _ =>
    (Database.tidy_insert now rfl rfl).imp (fun _ h => ⟨h, nofun⟩) fun _ _ h => h

theorem tidy_complete (now : Moment) (snapshot : String → Except Failure Value)
    (schema name : String) :
    Ensures Tidy (complete (σ := Database) now snapshot schema name) fun _ => Tidy :=
  ensures_bind (keeps_lift _).ensures fun _ => Database.tidy_markDone now schema name _

theorem tidy_rollback (schema name : String) :
    Ensures Tidy (rollback (σ := Database) schema name) fun _ => Tidy :=
  ensures_bind (keeps_checkOpen (Database.keeps_get schema name)).ensures fun _ =>
    Database.tidy_delete schema name

/-- A baseline is the one record that may join on top of a migration in progress. -/
theorem tidy_createBaseline (now : Moment) (snapshot : String → Except Failure Value)
    (schema name : String) :
    Ensures Tidy (createBaseline (σ := Database) now snapshot schema name) fun _ => Tidy := by
  refine ensures_bind (Database.tidy_latest schema) fun tip => ?_
  refine ensures_bind (keeps_lift _).ensures fun present => ?_
  exact (Database.tidy_insert now rfl rfl).imp (fun _ h => ⟨h, fun _ => .inl rfl⟩) fun _ _ h => h

theorem Operation.tidy_run (now : Moment) (snapshot : String → Except Failure Value)
    (o : Operation) : Ensures Tidy (o.run (σ := Database) now snapshot) fun _ => Tidy :=
  o.ensures_of (tidy_start now) (tidy_complete now snapshot) tidy_rollback
    (tidy_createBaseline now snapshot)

end Lifecycle

namespace Recorder

/-- An inferred step joins while no migration is in progress, which its own removal of duplicates
does not change. -/
theorem tidy_record (s : Surroundings) (e : DdlEvent) (schema : String) :
    Ensures (fun d : Desk Database => Tidy d.ledger ∧ Quiet schema d.ledger) (record s e schema)
      fun _ d => Tidy d.ledger := by
  let Q : Option String → Database → Prop := fun parent d =>
    (OpenAt schema parent d ∧ Ordered d.rows) ∧ Quiet schema d
  refine ensures_record_of (Q := Q) (Database.tidy_deleteInferredDuplicates _ _ _)
    ((Database.tidy_latest schema).and (Database.keeps_ask _).ensures)
    (fun _ => Database.keeps_ask _) (fun _ => Database.keeps_ask _)
    fun _ r hschema hparent => ?_
  exact (Database.tidy_insert s.now hschema hparent).imp (fun _ h => ⟨h.1, fun _ => .inr h.2⟩)
    fun _ _ h => h

theorem tidy_onEvent (s : Surroundings) (e : DdlEvent) :
    Ensures (fun d : Desk Database => Tidy d.ledger) (onEvent s e) fun _ d => Tidy d.ledger :=
  onEvent_ensures_of Database.quiet_isActive fun schema => tidy_record s e schema

end Recorder

namespace Step

theorem tidy_act (step : Step) : Ensures Tidy (step.act (σ := Database)) fun _ => Tidy :=
  step.ensures_of Lifecycle.Operation.tidy_run Recorder.tidy_onEvent

theorem tidy_commit (step : Step) : Keeps Tidy (step.commit (σ := Database)) :=
  keeps_atomically step.tidy_act

/-- Transactions lead from an empty table to tidy ones only. -/
theorem tidy_after (steps : List Step) (versions : List VersionMark) :
    Tidy (after (steps.map Step.commit) ⟨some { versions }⟩) := by
  have hempty : Tidy ⟨some { versions }⟩ := ⟨⟨_, rfl, Intact.nil⟩, Ordered.nil⟩
  refine keeps_after (fun x hx => ?_) hempty
  obtain ⟨step, -, rfl⟩ := List.mem_map.mp hx
  exact step.tidy_commit

end Step

/-! ## What stands above a migration in progress -/

section Above

variable {t : Tables} {schema : String} {front above : List Record} {r : Record}

/-- Above an open row there are only baselines, and they are done. -/
theorem Ordered.above_open (h : Ordered t.migrations) (hi : Intact t.migrations)
    (hrows : Table.ofSchema t.migrations schema = front ++ r :: above) (hopen : r.done = false) :
    ∀ s ∈ above, s.done = true ∧ s.migrationType = "baseline" := by
  intro s hs
  have habove := h.above schema
  rw [hrows, List.pairwise_append] at habove
  have hs' := List.rel_of_pairwise_cons habove.2.1 hs
  rw [hopen] at hs'
  refine ⟨?_, hs'.resolve_left (by simp)⟩
  -- a second open row would be the same one
  rw [← Bool.not_eq_false]
  intro hsopen
  have hr : r ∈ Table.ofSchema t.migrations schema := by simp [hrows]
  have hsmem : s ∈ Table.ofSchema t.migrations schema := by simp [hrows, hs]
  have hsame := ((hi schema).find?_open.mpr ⟨hr, hopen⟩).symm.trans
    ((hi schema).find?_open.mpr ⟨hsmem, hsopen⟩)
  have hnodup := (h.arranges hi schema).nodup
  rw [hrows, List.nodup_append, List.nodup_cons] at hnodup
  exact hnodup.2.1.1 (Option.some.inj hsame ▸ hs)

/-- The tip is the last row above, or the row itself if there is none. -/
theorem Ordered.latest_apply (h : Ordered t.migrations) (hi : Intact t.migrations)
    (hrows : Table.ofSchema t.migrations schema = front ++ r :: above) :
    ∃ tip, LedgerStore.latest schema (⟨some t⟩ : Database) = (.ok (some tip), ⟨some t⟩) ∧
      tip.name = (above.getLast?.getD r).name ∧ tip.done = (above.getLast?.getD r).done := by
  have hlast : (Table.ofSchema t.migrations schema).getLast? = some (above.getLast?.getD r) := by
    simp [hrows, List.getLast?_cons]
  have hask : LedgerStore.latest schema (⟨some t⟩ : Database) =
      (.ok ((Table.ofSchema t.migrations schema).getLast?.map Database.shown), ⟨some t⟩) :=
    Database.latest_shown h.legible (h.arranges hi schema)
  refine ⟨Database.shown (above.getLast?.getD r), ?_, rfl, rfl⟩
  rw [hask, hlast]
  rfl

/-- An open row has a child exactly if something stands above it. -/
theorem Ordered.hasChild_iff (h : Ordered t.migrations) (hi : Intact t.migrations)
    (hrows : Table.ofSchema t.migrations schema = front ++ r :: above) :
    (Table.ofSchema t.migrations schema).any (·.parent = some r.name) = !above.isEmpty := by
  have hchain := h.arranges hi schema
  have hlinked := h.linked schema
  rw [hrows] at hlinked
  cases above with
  | nil =>
    rw [hrows] at hchain
    refine List.any_eq_false.mpr fun s hs => ?_
    simpa using hchain.parent_ne_last (hrows ▸ hs)
  | cons s rest =>
    refine List.any_eq_true.mpr ⟨s, by simp [hrows], ?_⟩
    exact decide_eq_true hlinked.child_of_next

/-- A rollback of an open row gets past the check; then the row goes if it has no child. -/
theorem Ordered.rollback_apply (h : Ordered t.migrations) (hi : Intact t.migrations)
    (hrows : Table.ofSchema t.migrations schema = front ++ r :: above) (hopen : r.done = false) :
    atomically (Lifecycle.rollback schema r.name) (⟨some t⟩ : Database) =
      if above = [] then
        (.ok (), ⟨some { t with
          migrations := t.migrations.filter fun s => !(s.schema = schema && s.name = r.name) }⟩)
      else (.error (Database.translated schema r.name .parentReference), ⟨some t⟩) := by
  have hmem : r ∈ Table.ofSchema t.migrations schema := by simp [hrows]
  have hrow : Table.row? t.migrations schema r.name = some r :=
    (find?_key ..).trans ((h.arranges hi schema).named?_of_mem hmem)
  have hget : LedgerStore.get schema r.name (⟨some t⟩ : Database) =
      (.ok (Database.shown r), ⟨some t⟩) := by
    show Database.get schema r.name ⟨some t⟩ = _
    rw [Database.get_apply, hrow]
    exact congrArg (·, _) (Database.read_of_legible (h.legible r (List.mem_filter.mp hmem).1))
  have hcheck : Lifecycle.checkOpen schema r.name (⟨some t⟩ : Database) = (.ok (), ⟨some t⟩) :=
    Lifecycle.checkOpen_eq_ok.mpr ⟨_, hget, hopen⟩
  have hrollback : Lifecycle.rollback schema r.name (⟨some t⟩ : Database) =
      Database.delete schema r.name ⟨some t⟩ := bind_ok hcheck
  have hdelete := Database.delete_of_row? t hi hrow
  rw [h.hasChild_iff hi hrows] at hdelete
  rw [← hrollback] at hdelete
  cases above with
  | nil =>
    rw [if_pos rfl]
    exact atomically_ok hdelete
  | cons s rest =>
    rw [if_neg (by simp)]
    have herror : Lifecycle.rollback schema r.name (⟨some t⟩ : Database) =
        (.error (Database.translated schema r.name .parentReference), ⟨some t⟩) := hdelete
    exact atomically_error (by rw [herror])

end Above

/-- A migration in progress among the rows of its schema, with what stands above it. -/
structure InFlight (d : Database) (schema : String) (r : Record) (front above : List Record)
    (tip : Record) : Prop where
  /-- The rows stand in the order of the chain. -/
  rows : Table.ofSchema d.rows schema = front ++ r :: above
  linked : Linked none (front ++ r :: above)
  /-- Only completed baselines stand above. -/
  baselines : ∀ s ∈ above, s.done = true ∧ s.migrationType = "baseline"
  /-- The tip is the last of them, or the migration itself if there are none. -/
  latest : LedgerStore.latest schema d = (.ok (some tip), d)
  tip_name : tip.name = (above.getLast?.getD r).name
  tip_open : tip.done = false ↔ above = []
  /-- It can be rolled back exactly if there are none; else the reference to it refuses. -/
  rollback : atomically (Lifecycle.rollback schema r.name) d =
    if above = [] then
      (.ok (), d.withRows (d.rows.filter fun s => !(s.schema = schema && s.name = r.name)))
    else (.error (Database.translated schema r.name .parentReference), d)

/-- **Only baselines stand above a migration in progress.** After any transactions on an empty
table, the rows of a schema with a migration in progress are a chain in which only completed
baselines come after it. The tip is the last of these, and the migration can be rolled back exactly
if there are none; otherwise the rollback is refused because of the reference to its parent, and
changes nothing. -/
theorem in_flight_below_baselines (steps : List Step) (versions : List VersionMark)
    (schema : String) :
    let d : Database := after (steps.map Step.commit) ⟨some { versions }⟩
    ∀ r ∈ Table.ofSchema d.rows schema, r.done = false →
      ∃ front above tip, InFlight d schema r front above tip := by
  intro d r hr hopen
  obtain ⟨⟨t, ht, hi⟩, hordered⟩ := Step.tidy_after steps versions
  have hd : d = ⟨some t⟩ := ht
  rw [hd] at hr ⊢
  rw [ht] at hordered
  have h : Ordered t.migrations := hordered
  obtain ⟨front, above, hrows⟩ := List.append_of_mem hr
  obtain ⟨tip, hlatest, hname, hdone⟩ := h.latest_apply hi hrows
  have habove := h.above_open hi hrows hopen
  refine ⟨front, above, tip, hrows, hrows ▸ h.linked schema, habove, hlatest, hname, ?_,
    h.rollback_apply hi hrows hopen⟩
  rw [hdone]
  rcases List.eq_nil_or_concat' above with rfl | ⟨rest, last, rfl⟩
  · simp [hopen]
  · simp [(habove last (by simp)).1]

/-- A migration that was started on top of a baseline is such a migration in progress. -/
theorem in_flight_below_baselines_of_start :
    let steps : List Step :=
      [.operation ⟨0, some 0⟩ (fun _ => .ok (.map [])) (.createBaseline "public" "a"),
        .operation ⟨1, some 0⟩ (fun _ => .ok (.map [])) (.start "public" "b" {})]
    let d : Database := after (steps.map Step.commit) ⟨some {}⟩
    let r : Record :=
      { schema := "public", name := "b", parent := some "a", createdAt := some ⟨1, some 0⟩
        updatedAt := some ⟨1, some 0⟩, migration := ({} : Payload).toLedger }
    r ∈ Table.ofSchema d.rows "public" ∧ r.done = false ∧
      ∃ front above tip, InFlight d "public" r front above tip := by
  intro steps d r
  have hr : r ∈ Table.ofSchema d.rows "public" := by decide
  exact ⟨hr, rfl, in_flight_below_baselines steps [] "public" r hr rfl⟩

/-- A migration is started, and then a baseline is recorded: the baseline is the tip, and the
migration cannot be rolled back. -/
theorem in_flight_not_always_tip :
    ¬ ∀ (steps : List Step) (versions : List VersionMark) (schema : String),
      let d : Database := after (steps.map Step.commit) ⟨some { versions }⟩
      ∀ r ∈ Table.ofSchema d.rows schema, r.done = false →
        (∃ tip, LedgerStore.latest schema d = (.ok (some tip), d) ∧ tip.name = r.name ∧
          tip.done = false) ∧
        ∃ d', atomically (Lifecycle.rollback schema r.name) d = (.ok (), d') := by
  intro h
  let steps : List Step :=
    [.operation ⟨0, some 0⟩ (fun _ => .ok (.map [])) (.start "public" "a" {}),
      .operation ⟨1, some 0⟩ (fun _ => .ok (.map [])) (.createBaseline "public" "b")]
  let d : Database := after (steps.map Step.commit) ⟨some {}⟩
  have hrow : ∃ r ∈ Table.ofSchema d.rows "public", r.done = false := by decide
  obtain ⟨r, hr, hopen⟩ := hrow
  obtain ⟨⟨tip, htip, -, hdone⟩, -⟩ := h steps [] "public" r hr hopen
  have hbaseline : (LedgerStore.latest "public" d).1.toOption.map (·.map (·.done)) =
      some (some true) := by decide
  have hlatest : LedgerStore.latest "public" d = (.ok (some tip), d) := htip
  rw [hlatest] at hbaseline
  simp [Except.toOption, hdone] at hbaseline

end SchemaLedger
