import SchemaLedger.Clients
import SchemaLedger.Proofs.Ledger.MemoryHistory
import SchemaLedger.Proofs.Ledger.TableHistory

/-!
# What clients can rely on

When several clients move on one ledger, what they do to each other does not depend on where the
ledger lives. All that matters is what a single transaction does to the records, and this file says
it once for both ledgers: it lists the laws (`Lawful`), shows that the ledger in memory and the
table obey them, and says what each move of a client comes down to.

The laws are the same but for one case. A start whose own name is the parent that it read is refused
in memory, because that parent is not there; the table takes it, because its reference to parents is
checked when the row is already there. So the laws say when a start is refused only for other names.
-/

namespace SchemaLedger

open Attempt SharedLedger

/-- The record that a start adds under a tip. -/
def Start.record (s : Start) (schema : String) (parent : Option String) : Record :=
  { schema
    name := s.name
    migration := s.payload.toLedger
    parent
    createdAt := some s.now
    updatedAt := some s.now }

/-- What single transactions do to a shared ledger. -/
structure Lawful (σ : Type) [SharedLedger σ] (Whole : σ → Prop) : Prop where
  intact : ∀ {l : σ}, Whole l → Intact (contents l)
  /-- Reading the tip changes nothing, and finds the free place. -/
  latest_keeps : ∀ (schema : String) (l : σ), (transaction (LedgerStore.latest schema) l).2 = l
  latest_free : ∀ {schema : String} {l l' : σ} {tip : Option Record}, Whole l →
    transaction (LedgerStore.latest schema) l = (.ok tip, l') →
    FreePlace (Table.ofSchema (contents l) schema) (tip.map (·.name))
  /-- A start adds its record or changes nothing, and adds it only if no migration is in
  progress. -/
  start_refused : ∀ {s : Start} {schema : String} {parent : Option String} {l l' : σ} {e : Failure},
    transaction (s.under schema parent) l = (.error e, l') → l' = l
  start_joined : ∀ {s : Start} {schema : String} {parent : Option String} {l l' : σ} {r : Record},
    transaction (s.under schema parent) l = (.ok r, l') →
    r = s.record schema parent ∧ contents l' = contents l ++ [r] ∧
      Settled (Table.ofSchema (contents l) schema)
  /-- Unless its name is the parent that it read or its payload cannot be recorded, the checks of
  the history decide. -/
  start_whole : ∀ {s : Start} {schema : String} {parent : Option String} {l l' : σ} {r : Record},
    Whole l → parent ≠ some s.name → transaction (s.under schema parent) l = (.ok r, l') → Whole l'
  start_fits : ∀ {s : Start} {schema : String} {parent : Option String} {l : σ},
    Whole l → parent ≠ some s.name → accepts (σ := σ) s.payload.toLedger = true →
    violationFor (contents l) (s.record schema parent) = none →
    ∃ r l', transaction (s.under schema parent) l = (.ok r, l')
  start_violates : ∀ {s : Start} {schema : String} {parent : Option String} {l : σ} {v : Violation},
    Whole l → parent ≠ some s.name → accepts (σ := σ) s.payload.toLedger = true →
    violationFor (contents l) (s.record schema parent) = some v →
    ∃ detail, transaction (s.under schema parent) l =
      (.error (.ledger (.integrity v schema (some s.name) detail)), l)
  /-- A completion changes its record only, and leaves it where it is. -/
  complete_whole : ∀ (now : Moment) (snapshot : String → Except Failure Value)
    (schema name : String), Keeps Whole
      (transaction (Lifecycle.complete (σ := σ) now snapshot schema name))
  complete_changes : ∀ (now : Moment) (snapshot : String → Except Failure Value)
    (schema name : String) (l : σ), ∃ f, KeepsPlace f ∧
      contents (transaction (Lifecycle.complete now snapshot schema name) l).2 =
        Table.updateRow (contents l) schema name f ∧
      ∀ r, (transaction (Lifecycle.complete now snapshot schema name) l).1 = .ok r →
        (∃ row, Table.row? (contents l) schema name = some row ∧ row.done = false) ∧
          ∀ q, (f q).done = true
  /-- The check of a rollback changes nothing, and passes only if the migration is not done. -/
  check_keeps : ∀ (schema name : String) (l : σ),
    (transaction (Lifecycle.checkOpen schema name) l).2 = l
  check_ok : ∀ {schema name : String} {l l' : σ},
    transaction (Lifecycle.checkOpen schema name) l = (.ok (), l') →
    ∃ row, Table.row? (contents l) schema name = some row ∧ row.done = false
  /-- A record is deleted, or nothing changes; it is deleted exactly if it is there without a
  child. -/
  delete_whole : ∀ (schema name : String), Keeps Whole
    (transaction (LedgerStore.delete (σ := σ) schema name))
  delete_refused : ∀ {schema name : String} {l l' : σ} {e : Failure},
    transaction (LedgerStore.delete schema name) l = (.error e, l') → l' = l
  delete_ok : ∀ {schema name : String} {l l' : σ},
    transaction (LedgerStore.delete schema name) l = (.ok (), l') →
    (∃ row, Table.row? (contents l) schema name = some row) ∧
      contents l' = (contents l).filter fun r => !(r.schema = schema && r.name = name)
  delete_iff : ∀ {schema name : String} {l : σ} {row : Record}, Whole l →
    Table.row? (contents l) schema name = some row →
    ((transaction (LedgerStore.delete schema name) l).1 = .ok () ↔
      ∀ r ∈ Table.ofSchema (contents l) schema, r.parent ≠ some name)

/-- A record joins only if no migration is in progress. -/
theorem settled_of_fits {records : List Record} {s : Start} {schema : String}
    {parent : Option String} (h : violationFor records (s.record schema parent) = none) :
    Settled (Table.ofSchema records schema) :=
  (violationFor_eq_none.mp h).2.2.1.resolve_left (by simp [Start.record])

theorem childless_iff {records : List Record} {name : String} :
    ¬ records.any (·.parent = some name) = true ↔ ∀ r ∈ records, r.parent ≠ some name := by
  simp

/-! ## The ledger in memory -/

namespace MemoryLedger

theorem under_apply (s : Start) (schema : String) (parent : Option String) (l : MemoryLedger) :
    s.under schema parent l =
      match violationFor l.records (s.record schema parent) with
      | some v => (.error (.ledger (.integrity v schema (some s.name) none)), l)
      | none => (.ok (s.record schema parent), ⟨l.records ++ [s.record schema parent]⟩) := rfl

/-- A completion changes its record if it is there and not done. -/
theorem markDone_changes (now : Moment) (schema name : String) (resulting : Value)
    (l : MemoryLedger) :
    ∃ f, KeepsPlace f ∧
      (markDone now schema name resulting l).2.records = Table.updateRow l.records schema name f ∧
      ∀ r, (markDone now schema name resulting l).1 = .ok r →
        (∃ row, Table.row? l.records schema name = some row ∧ row.done = false) ∧
          ∀ q, (f q).done = true := by
  rw [markDone_apply]
  split
  next => exact ⟨id, .refl, (Table.updateRow_id ..).symm, fun _ h => nomatch h⟩
  next row hrow =>
    split
    next => exact ⟨id, .refl, (Table.updateRow_id ..).symm, fun _ h => nomatch h⟩
    next hopen =>
      have hopen : row.done = false := by simpa using hopen
      split
      next => exact ⟨_, keepsPlace_complete id id, rfl, fun _ h => nomatch h⟩
      next m _ =>
        exact ⟨_, keepsPlace_complete (fun _ => .map m) fun _ => some now, rfl,
          fun _ _ => ⟨⟨row, hrow, hopen⟩, fun _ => rfl⟩⟩

section Laws

variable {s : Start} {schema name : String} {parent : Option String} {l l' : MemoryLedger}
  {r row : Record} {e : Failure} {v : Violation}

theorem latest_free {tip : Option Record} (h : Whole l)
    (hlatest : LedgerStore.latest schema l = (.ok tip, l')) :
    FreePlace (Table.ofSchema l.records schema) (tip.map (·.name)) := by
  obtain ⟨chain, hchain⟩ := (h schema).arranged
  have htip : l.latest schema = .ok tip := congrArg Prod.fst hlatest
  rw [latest_eq hchain, Except.ok.injEq] at htip
  rw [← htip]
  exact hchain.freePlace_iff.mpr rfl

theorem start_refused (h : s.under schema parent l = (.error e, l')) : l' = l := by
  rw [under_apply] at h
  split at h
  next => exact (Prod.mk.inj h).2.symm
  next => nomatch h

theorem start_joined (h : s.under schema parent l = (.ok r, l')) :
    r = s.record schema parent ∧ l'.records = l.records ++ [r] ∧
      Settled (Table.ofSchema l.records schema) := by
  rw [under_apply] at h
  split at h
  next => nomatch h
  next hfits =>
    obtain ⟨hr, rfl⟩ := Prod.mk.inj h
    rw [← Except.ok.inj hr]
    exact ⟨rfl, rfl, settled_of_fits hfits⟩

theorem start_whole (hl : Whole l) (h : s.under schema parent l = (.ok r, l')) : Whole l' := by
  have hinsert : insert s.now (s.record schema parent) l = (.ok r, l') := h
  have hkeeps := keeps_insert s.now (s.record schema parent) l hl
  rwa [hinsert] at hkeeps

theorem start_fits (hfits : violationFor l.records (s.record schema parent) = none) :
    ∃ r l', s.under schema parent l = (.ok r, l') := by
  rw [under_apply, hfits]
  exact ⟨_, _, rfl⟩

theorem start_violates (hv : violationFor l.records (s.record schema parent) = some v) :
    ∃ detail, s.under schema parent l =
      (.error (.ledger (.integrity v schema (some s.name) detail)), l) := by
  rw [under_apply, hv]
  exact ⟨none, rfl⟩

theorem complete_whole (now : Moment) (snapshot : String → Except Failure Value)
    (schema name : String) : Keeps Whole (Lifecycle.complete now snapshot schema name) := by
  intro l hl
  rw [Lifecycle.complete_apply]
  split
  · exact hl
  · exact keeps_markDone now schema name _ l hl

theorem complete_changes (now : Moment) (snapshot : String → Except Failure Value)
    (schema name : String) (l : MemoryLedger) :
    ∃ f, KeepsPlace f ∧
      (Lifecycle.complete now snapshot schema name l).2.records =
        Table.updateRow l.records schema name f ∧
      ∀ r, (Lifecycle.complete now snapshot schema name l).1 = .ok r →
        (∃ row, Table.row? l.records schema name = some row ∧ row.done = false) ∧
          ∀ q, (f q).done = true := by
  rw [Lifecycle.complete_apply]
  split
  · exact ⟨id, .refl, (Table.updateRow_id ..).symm, fun _ h => nomatch h⟩
  · exact markDone_changes now schema name _ l

theorem check_ok (h : Lifecycle.checkOpen schema name l = (.ok (), l')) :
    ∃ row, Table.row? l.records schema name = some row ∧ row.done = false := by
  obtain ⟨r, hget, hopen⟩ := Lifecycle.checkOpen_eq_ok.mp h
  have hget : l.get schema name = .ok r := congrArg Prod.fst hget
  rw [get_eq] at hget
  cases hrow : Table.row? l.records schema name with
  | none => simp [hrow] at hget
  | some row =>
    rw [hrow, Except.ok.injEq] at hget
    exact ⟨row, rfl, hget ▸ hopen⟩

theorem delete_refused (h : delete schema name l = (.error e, l')) : l' = l := by
  rw [delete_apply] at h
  split at h
  next => exact (Prod.mk.inj h).2.symm
  next =>
    split at h
    next => exact (Prod.mk.inj h).2.symm
    next => nomatch h

theorem delete_ok (h : delete schema name l = (.ok (), l')) :
    (∃ row, Table.row? l.records schema name = some row) ∧
      l'.records = l.records.filter fun r => !(r.schema = schema && r.name = name) := by
  rw [delete_apply] at h
  split at h
  next => nomatch h
  next row hrow =>
    split at h
    next => nomatch h
    next =>
      rw [← (Prod.mk.inj h).2]
      exact ⟨⟨row, hrow⟩, rfl⟩

theorem delete_iff (hrow : Table.row? l.records schema name = some row) :
    (delete schema name l).1 = .ok () ↔
      ∀ r ∈ Table.ofSchema l.records schema, r.parent ≠ some name := by
  rw [delete_apply, hrow, ← childless_iff]
  show _ ↔ ¬ (Table.ofSchema l.records schema).any (·.parent = some name) = true
  simp only
  split
  next hchild => exact ⟨nofun, fun h => absurd hchild h⟩
  next hchild => exact ⟨fun _ => hchild, fun _ => rfl⟩

end Laws

theorem lawful : Lawful MemoryLedger Whole where
  intact h := h
  latest_keeps _ _ := rfl
  latest_free := latest_free
  start_refused := start_refused
  start_joined := start_joined
  start_whole hl _ h := start_whole hl h
  start_fits _ _ _ hfits := start_fits hfits
  start_violates _ _ _ hv := start_violates hv
  complete_whole := complete_whole
  complete_changes := complete_changes
  check_keeps _ _ l := Lifecycle.keeps_checkOpen (P := (· = l)) (keeps_query _) l rfl
  check_ok := check_ok
  delete_whole := keeps_delete
  delete_refused := delete_refused
  delete_ok := delete_ok
  delete_iff _ hrow := delete_iff hrow

end MemoryLedger

/-! ## The ledger in a database -/

namespace Database

/-- A record that is started can be stored if its payload can. -/
theorem storable_record (s : Start) (schema : String) (parent : Option String) :
    (s.record schema parent).storable = Json.storable (.map s.payload.toLedger) :=
  Bool.and_true _

/-- The constraints decide about a start whose payload can be stored. -/
theorem under_apply (s : Start) (schema : String) (parent : Option String) (t : Tables) :
    atomically (s.under schema parent) (⟨some t⟩ : Database) =
      if Json.storable (.map s.payload.toLedger) then
        match Table.broken? t.migrations (s.record schema parent) with
        | none => (.ok (s.record schema parent),
            ⟨some { t with migrations := t.migrations ++ [s.record schema parent] }⟩)
        | some c => (.error (translated schema s.name c), ⟨some t⟩)
      else (.error .database, ⟨some t⟩) := by
  have hinsert := insert_apply t s.now (s.record schema parent)
  have hunder : s.under schema parent (⟨some t⟩ : Database) =
      insert s.now (s.record schema parent) ⟨some t⟩ := rfl
  have hstamped : (s.record schema parent).stamped s.now = s.record schema parent := rfl
  rw [hstamped, storable_record] at hinsert
  rw [atomically, hunder, hinsert]
  cases Json.storable (.map s.payload.toLedger) with
  | false => rfl
  | true => cases Table.broken? t.migrations (s.record schema parent) <;> rfl

/-- A completed row was there and not done. -/
theorem markDone_changes {now : Moment} {schema name : String} {resulting : Value}
    {d d' : Database} {r : Record} (h : markDone now schema name resulting d = (.ok r, d')) :
    ∃ f, KeepsPlace f ∧ d'.rows = Table.updateRow d.rows schema name f ∧
      (∃ row, Table.row? d.rows schema name = some row ∧ row.done = false) ∧
        ∀ q, (f q).done = true := by
  obtain ⟨_ | t⟩ := d
  · nomatch h
  obtain ⟨row, -, hrow, hopen, -, -, rfl⟩ := markDone_eq_ok h
  exact ⟨_, keepsPlace_complete (fun _ => resulting) fun _ => some now, rfl, ⟨row, hrow, hopen⟩,
    fun _ => rfl⟩

section Laws

variable {s : Start} {schema name : String} {parent : Option String} {d d' : Database}
  {r row : Record} {v : Violation}

theorem latest_keeps (schema : String) (d : Database) :
    (atomically (latest schema) d).2 = d :=
  keeps_atomically (P := (· = d)) (keeps_ask _).ensures d rfl

theorem latest_free {tip : Option Record} (hd : Sound d)
    (hlatest : atomically (latest schema) d = (.ok tip, d')) :
    FreePlace (Table.ofSchema d.rows schema) (tip.map (·.name)) := by
  have hkeeps := latest_keeps schema d
  rw [hlatest] at hkeeps
  obtain ⟨t, rfl, -, hfree⟩ := ensures_latest schema d tip d' hd (atomically_eq_ok.mp hlatest)
  rw [← hkeeps]
  exact hfree

/-- What joins breaks no constraint. -/
theorem start_eq_ok (h : atomically (s.under schema parent) d = (.ok r, d')) :
    ∃ t : Tables, d = ⟨some t⟩ ∧
      Table.broken? t.migrations (s.record schema parent) = none ∧ r = s.record schema parent ∧
      d' = ⟨some { t with migrations := t.migrations ++ [r] }⟩ := by
  obtain ⟨_ | t⟩ := d
  · have hinsert : insert s.now (s.record schema parent) ⟨none⟩ = (.ok r, d') :=
      atomically_eq_ok.mp h
    rw [insert_without_tables] at hinsert
    nomatch hinsert
  · rw [under_apply] at h
    split at h
    next =>
      split at h
      next hbroken =>
        obtain ⟨hr, rfl⟩ := Prod.mk.inj h
        obtain rfl := Except.ok.inj hr
        exact ⟨t, rfl, hbroken, rfl, rfl⟩
      next => nomatch h
    next => nomatch h

theorem start_joined (h : atomically (s.under schema parent) d = (.ok r, d')) :
    r = s.record schema parent ∧ d'.rows = d.rows ++ [r] ∧
      Settled (Table.ofSchema d.rows schema) := by
  obtain ⟨t, rfl, hbroken, hr, rfl⟩ := start_eq_ok h
  exact ⟨hr, rfl, settled_of_broken?_eq_none hbroken rfl⟩

theorem start_whole (hd : Sound d) (hself : parent ≠ some s.name)
    (h : atomically (s.under schema parent) d = (.ok r, d')) : Sound d' := by
  obtain ⟨t, rfl, hbroken, rfl, rfl⟩ := start_eq_ok h
  obtain ⟨_, ht, hi⟩ := hd
  cases ht
  have hguards : (Table.broken? t.migrations (s.record schema parent)).map Constraint.guards =
      violationFor t.migrations (s.record schema parent) := guards_broken? hi hself
  rw [hbroken] at hguards
  exact ⟨_, rfl, hi.append hguards.symm⟩

theorem start_fits (hd : Sound d) (hself : parent ≠ some s.name)
    (hstorable : Json.storable (.map s.payload.toLedger) = true)
    (hfits : violationFor d.rows (s.record schema parent) = none) :
    ∃ r d', atomically (s.under schema parent) d = (.ok r, d') := by
  obtain ⟨t, rfl, hi⟩ := hd
  have hfits : violationFor t.migrations (s.record schema parent) = none := hfits
  rw [← guards_broken? hi hself, Option.map_eq_none_iff] at hfits
  rw [under_apply, if_pos hstorable, hfits]
  exact ⟨_, _, rfl⟩

theorem start_violates (hd : Sound d) (hself : parent ≠ some s.name)
    (hstorable : Json.storable (.map s.payload.toLedger) = true)
    (hv : violationFor d.rows (s.record schema parent) = some v) :
    ∃ detail, atomically (s.under schema parent) d =
      (.error (.ledger (.integrity v schema (some s.name) detail)), d) := by
  obtain ⟨t, rfl, hi⟩ := hd
  have hv : violationFor t.migrations (s.record schema parent) = some v := hv
  rw [← guards_broken? hi hself] at hv
  obtain ⟨c, hc, rfl⟩ := Option.map_eq_some_iff.mp hv
  rw [under_apply, if_pos hstorable, hc]
  refine ⟨some (Text.trim c.report), ?_⟩
  simp [translated, LedgerError.ofConstraint, Constraint.ofName?_name]

theorem complete_changes (now : Moment) (snapshot : String → Except Failure Value)
    (schema name : String) (d : Database) :
    ∃ f, KeepsPlace f ∧
      (atomically (Lifecycle.complete now snapshot schema name) d).2.rows =
        Table.updateRow d.rows schema name f ∧
      ∀ r, (atomically (Lifecycle.complete now snapshot schema name) d).1 = .ok r →
        (∃ row, Table.row? d.rows schema name = some row ∧ row.done = false) ∧
          ∀ q, (f q).done = true := by
  rcases hcomplete : Lifecycle.complete now snapshot schema name d with ⟨e | r, d'⟩
  · rw [atomically_error (by rw [hcomplete])]
    exact ⟨id, .refl, (Table.updateRow_id ..).symm, fun _ h => nomatch h⟩
  · rw [atomically_ok hcomplete]
    rw [Lifecycle.complete_apply] at hcomplete
    split at hcomplete
    next => nomatch hcomplete
    next =>
      obtain ⟨f, hf, hrows, hchanged⟩ := markDone_changes hcomplete
      exact ⟨f, hf, hrows, fun _ _ => hchanged⟩

theorem check_ok (h : atomically (Lifecycle.checkOpen schema name) d = (.ok (), d')) :
    ∃ row, Table.row? d.rows schema name = some row ∧ row.done = false := by
  obtain ⟨_ | t⟩ := d
  · nomatch h
  obtain ⟨r, hget, hopen⟩ := Lifecycle.checkOpen_eq_ok.mp (atomically_eq_ok.mp h)
  have hget : get schema name ⟨some t⟩ = (.ok r, d') := hget
  rw [get_apply, Prod.mk.injEq] at hget
  cases hrow : Table.row? t.migrations schema name with
  | none => simp [hrow] at hget
  | some row =>
    rw [hrow] at hget
    obtain ⟨v, -, rfl⟩ := read_eq_ok hget.1
    exact ⟨row, hrow, hopen⟩

theorem delete_ok (h : atomically (delete schema name) d = (.ok (), d')) :
    (∃ row, Table.row? d.rows schema name = some row) ∧
      d'.rows = d.rows.filter fun r => !(r.schema = schema && r.name = name) := by
  obtain ⟨_ | t⟩ := d
  · nomatch h
  have h := atomically_eq_ok.mp h
  rw [delete_apply] at h
  split at h
  next => nomatch h
  next row hrow =>
    split at h
    next kept hkept =>
      obtain ⟨-, rfl⟩ := Prod.mk.inj h
      exact ⟨⟨row, hrow⟩, (Table.deleteRows_eq_ok.mp hkept).2.symm⟩
    next => nomatch h

theorem delete_iff (hd : Sound d) (hrow : Table.row? d.rows schema name = some row) :
    (atomically (delete schema name) d).1 = .ok () ↔
      ∀ r ∈ Table.ofSchema d.rows schema, r.parent ≠ some name := by
  obtain ⟨t, rfl, hi⟩ := hd
  have hrow : Table.row? t.migrations schema name = some row := hrow
  rw [← childless_iff, atomically, delete_of_row? t hi hrow]
  show _ ↔ ¬ (Table.ofSchema t.migrations schema).any (·.parent = some name) = true
  by_cases hchild : (Table.ofSchema t.migrations schema).any (·.parent = some name) = true
  · rw [if_pos hchild]
    exact iff_of_false (by simp) (not_not_intro hchild)
  · rw [if_neg hchild]
    exact ⟨fun _ => hchild, fun _ => rfl⟩

end Laws

theorem lawful : Lawful Database Sound where
  intact := fun ⟨_, ht, h⟩ => ht ▸ h
  latest_keeps := latest_keeps
  latest_free := latest_free
  start_refused := eq_of_atomically_eq_error
  start_joined := start_joined
  start_whole := start_whole
  start_fits := start_fits
  start_violates := start_violates
  complete_whole now snapshot schema name :=
    keeps_atomically (Lifecycle.ensures_complete now snapshot schema name)
  complete_changes := complete_changes
  check_keeps schema name d :=
    keeps_atomically (P := (· = d)) (Lifecycle.keeps_checkOpen (keeps_get schema name)).ensures
      d rfl
  check_ok := check_ok
  delete_whole schema name := keeps_atomically (ensures_delete schema name)
  delete_refused := eq_of_atomically_eq_error
  delete_ok := delete_ok
  delete_iff := delete_iff

end Database

/-! ## The moves of a client -/

section Moves

variable {σ α : Type} [SharedLedger σ]

/-- The first half of an operation leaves the ledger as its question does, and the client with what
it found, or with nothing. -/
theorem Shared.learn_apply (client : Nat) (x : Action σ α) (f : α → Finding) (w : Shared σ) :
    Shared.learn client x f w =
      match transaction x w.ledger with
      | (.error e, l) =>
        (.error e, ⟨l, fun k => if k = client then .nothing else w.found k⟩)
      | (.ok a, l) => (.ok (), ⟨l, fun k => if k = client then f a else w.found k⟩) := by
  have hforget : Shared.remember client .nothing w = (.ok (), w.finding client .nothing) := rfl
  have hask : Shared.onLedger x (w.finding client .nothing) =
      ((transaction x w.ledger).1, ⟨(transaction x w.ledger).2,
        fun k => if k = client then .nothing else w.found k⟩) := rfl
  rw [Shared.learn, bind_ok hforget, bind_apply, hask]
  rcases transaction x w.ledger with ⟨e | a, l⟩
  · rfl
  · have hfound : (fun k => if k = client then f a else
        if k = client then Finding.nothing else w.found k) =
        fun k => if k = client then f a else w.found k := by
      funext k
      by_cases hk : k = client
      · rw [if_pos hk, if_pos hk]
      · rw [if_neg hk, if_neg hk, if_neg hk]
    show (Except.ok (), Shared.mk l fun k => if k = client then f a else
      if k = client then Finding.nothing else w.found k) = _
    rw [hfound]

namespace Move

theorem look_apply (client : Nat) (schema : String) (w : Shared σ) :
    (look client schema).act w =
      match transaction (LedgerStore.latest schema) w.ledger with
      | (.error e, l) =>
        (.error e, ⟨l, fun k => if k = client then .nothing else w.found k⟩)
      | (.ok tip, l) => (.ok none,
          ⟨l, fun k => if k = client then .tip schema (tip.map (·.name)) else w.found k⟩) := by
  rw [act, bind_pure_apply, Shared.learn_apply]
  rcases transaction (LedgerStore.latest schema) w.ledger with ⟨e | tip, l⟩ <;> rfl

theorem look_ledger (client : Nat) (schema : String) (w : Shared σ) :
    ((look client schema).act w).2.ledger =
      (transaction (LedgerStore.latest schema) w.ledger).2 := by
  rw [look_apply]
  rcases transaction (LedgerStore.latest schema) w.ledger with ⟨e | tip, l⟩ <;> rfl

theorem join_apply (s : Start) (w : Shared σ) :
    (join s).act w =
      match w.found s.client with
      | .tip schema parent =>
        ((transaction (s.under schema parent) w.ledger).1.map some,
          { w with ledger := (transaction (s.under schema parent) w.ledger).2 })
      | _ => (.error .invalidRequest, w) := by
  have hfound : Shared.lastFound s.client w = (.ok (w.found s.client), w) := rfl
  rw [act, bind_ok hfound]
  cases w.found s.client with
  | tip schema parent => exact bind_pure_apply ..
  | _ => rfl

theorem complete_apply (now : Moment) (snapshot : String → Except Failure Value)
    (schema name : String) (w : Shared σ) :
    (complete now snapshot schema name).act w =
      ((transaction (Lifecycle.complete now snapshot schema name) w.ledger).1.map fun _ => none,
        { w with
          ledger := (transaction (Lifecycle.complete now snapshot schema name) w.ledger).2 }) :=
  bind_pure_apply ..

theorem check_apply (client : Nat) (schema name : String) (w : Shared σ) :
    (check client schema name).act w =
      match transaction (Lifecycle.checkOpen schema name) w.ledger with
      | (.error e, l) =>
        (.error e, ⟨l, fun k => if k = client then .nothing else w.found k⟩)
      | (.ok (), l) => (.ok none,
          ⟨l, fun k => if k = client then .inProgress schema name else w.found k⟩) := by
  rw [act, bind_pure_apply, Shared.learn_apply]
  rcases transaction (Lifecycle.checkOpen schema name) w.ledger with ⟨e | u, l⟩ <;> rfl

theorem check_ledger (client : Nat) (schema name : String) (w : Shared σ) :
    ((check client schema name).act w).2.ledger =
      (transaction (Lifecycle.checkOpen schema name) w.ledger).2 := by
  rw [check_apply]
  rcases transaction (Lifecycle.checkOpen schema name) w.ledger with ⟨e | u, l⟩ <;> rfl

theorem remove_apply (client : Nat) (w : Shared σ) :
    (remove client).act w =
      match w.found client with
      | .inProgress schema name =>
        ((transaction (LedgerStore.delete schema name) w.ledger).1.map fun _ => none,
          { w with ledger := (transaction (LedgerStore.delete schema name) w.ledger).2 })
      | _ => (.error .invalidRequest, w) := by
  have hfound : Shared.lastFound client w = (.ok (w.found client), w) := rfl
  rw [act, bind_ok hfound]
  cases w.found client with
  | inProgress schema name => exact bind_pure_apply ..
  | _ => rfl

end Move

namespace Lawful

variable {Whole : σ → Prop} (laws : Lawful σ Whole)

include laws

/-- A start is refused and changes nothing, or it records its migration under what its client
found. -/
theorem join_cases (s : Start) (w : Shared σ) :
    (∃ e, (Move.join s).act w = (.error e, w)) ∨
      ∃ schema parent r l', w.found s.client = .tip schema parent ∧
        transaction (s.under schema parent) w.ledger = (.ok r, l') ∧
        (Move.join s).act w = (.ok (some r), ⟨l', w.found⟩) := by
  rw [Move.join_apply]
  cases w.found s.client with
  | tip schema parent =>
    simp only
    rcases htaken : transaction (s.under schema parent) w.ledger with ⟨e | r, l'⟩
    · rw [laws.start_refused htaken]
      exact .inl ⟨e, rfl⟩
    · exact .inr ⟨schema, parent, r, l', rfl, htaken, rfl⟩
  | _ => exact .inl ⟨_, rfl⟩

/-- The second half of a rollback fails and changes nothing, or it deletes what its client found. -/
theorem remove_cases (client : Nat) (w : Shared σ) :
    (∃ e, (Move.remove client).act w = (.error e, w)) ∨
      ∃ schema name l', w.found client = .inProgress schema name ∧
        transaction (LedgerStore.delete schema name) w.ledger = (.ok (), l') ∧
        (Move.remove client).act w = (.ok none, ⟨l', w.found⟩) := by
  rw [Move.remove_apply]
  cases w.found client with
  | inProgress schema name =>
    simp only
    rcases htaken : transaction (LedgerStore.delete schema name) w.ledger with ⟨e | u, l'⟩
    · rw [laws.delete_refused htaken]
      exact .inl ⟨e, rfl⟩
    · exact .inr ⟨schema, name, l', rfl, htaken, rfl⟩
  | _ => exact .inl ⟨_, rfl⟩

/-- A start that goes through was made under what its client found. -/
theorem join_ok {s : Start} {w : Shared σ} {r : Record}
    (h : ((Move.join s).act w).1 = .ok (some r)) :
    ∃ schema parent l', w.found s.client = .tip schema parent ∧
      transaction (s.under schema parent) w.ledger = (.ok r, l') ∧
      ((Move.join s).act w).2 = ⟨l', w.found⟩ := by
  rcases laws.join_cases s w with ⟨e, herror⟩ | ⟨schema, parent, r', l', hfound, htaken, hact⟩
  · rw [herror] at h
    nomatch h
  · rw [hact] at h ⊢
    have hr : r' = r := Option.some.inj (Except.ok.inj h)
    exact ⟨schema, parent, l', hfound, hr ▸ htaken, rfl⟩

end Lawful

end Moves

end SchemaLedger
