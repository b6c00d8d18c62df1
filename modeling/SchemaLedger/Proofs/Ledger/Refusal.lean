import Mathlib
import SchemaLedger.Proofs.Ledger.Verdict

/-!
# What a caller sees of a broken constraint

The ledger in a database leaves the invariants to the constraints of the table, and a caller should
see a broken one as an error of the ledger that names the invariant. This file follows every call
from the rows that it would leave if there were no constraints (`Call.intended`) to what its caller
sees.

The table satisfies the constraints before a call (`constrained_after`), so the rows that the call
intends decide. If they satisfy the constraints as well, they are what it leaves, and no failure of
it tells of a constraint. If they do not, the call is refused for one that they break, and changes
nothing (`outcome_call`).

A new row can break any constraint, a completion breaks none (`Table.Valid.map`). Where rows go,
only the reference to parents can be broken, and it is if a row that stays has lost its parent
(`Table.Valid.deleteRows_cases`). A deletion tells so in the words of the ledger. The removal of
inferred duplicates alone lets the caller see what the database said (`broken_constraint_told`).
-/

namespace SchemaLedger

open Attempt

/-- Whether a failure tells of a broken constraint, in the words of the ledger or of the
database. -/
def Failure.isViolation : Failure → Bool
  | .constraint _ | .ledger (.integrity ..) => true
  | _ => false

/-- What the ledger tells of a constraint that the record of a name broke. -/
def LedgerError.broken (k : Constraint) (schema name : String) : LedgerError :=
  .integrity k.guards schema (some name) (some (Text.trim k.report))

/-- The rows with a new one, if its documents can be stored. -/
def Table.joined (rows : Table) (row : Record) : Table :=
  if row.storable then rows ++ [row] else rows

namespace Call

/-- The rows that a call would leave if there were no constraints. -/
def intended (now : Moment) (rows : Table) : Call → Table
  | insert r => rows.joined (r.stamped now)
  | insertAtTip r =>
    match Database.readOption (Table.newest? (Table.childless (Table.ofSchema rows r.schema))) with
    | .ok tip => rows.joined (({ r with parent := tip.map (·.name) } : Record).stamped now)
    | .error _ => rows
  | markDone schema name resulting =>
    if (∃ row ∈ Table.row? rows schema name, row.done = false) ∧ Json.storable resulting then
      Table.updateRow rows schema name fun r =>
        { r with done := true, resultingSchema := resulting, updatedAt := some now }
    else rows
  | delete schema name => rows.filter fun r => !(r.schema = schema && r.name = name)
  | deleteInferredDuplicates schema createdAt statement =>
    rows.filter (!Database.isDuplicate schema createdAt statement ·)
  | _ => rows

/-- What the caller sees if the intended rows break a constraint. -/
def refusal (k : Constraint) : Call → Failure
  | insert r | insertAtTip r => .ledger (.broken k r.schema r.name)
  | markDone schema name _ | delete schema name => .ledger (.broken k schema name)
  | _ => .constraint k

end Call

/-! ## Tables that satisfy the constraints -/

namespace Table

variable {rows : Table}

theorem Valid.eq_of_key_eq (h : Valid rows) {r s : Record} (hr : r ∈ rows) (hs : s ∈ rows)
    (hschema : r.schema = s.schema) (hname : r.name = s.name) : r = s := by
  have hkeys : rows.Pairwise fun r s => r.schema = s.schema → r.name ≠ s.name := h .migrationsKey
  have hnodup : (rows.map fun r => (r.schema, r.name)).Nodup :=
    List.pairwise_map.mpr (hkeys.imp fun hrs heq =>
      hrs (congrArg Prod.fst heq) (congrArg Prod.snd heq))
  exact List.inj_on_of_nodup_map hnodup hr hs (Prod.ext hschema hname)

/-- Where rows go, only the reference to parents can be broken. -/
theorem Valid.filter_iff (h : Valid rows) (keep : Record → Bool) :
    Valid (rows.filter keep) ↔ ParentsThere (rows.filter keep) := by
  refine ⟨fun hvalid => hvalid .parentReference, fun hparents c => ?_⟩
  have hc := h c
  cases c with
  | migrationTypeCheck => exact fun r hr => hc r (List.mem_filter.mp hr).1
  | migrationsKey | onlyOneActive | onlyFirstWithoutParent | historyIsLinear =>
    exact List.Pairwise.filter keep hc
  | parentReference => exact hparents

/-- A change that leaves the rows at their places and reopens none breaks no constraint. -/
theorem Valid.map (h : Valid rows) {f : Record → Record} (hf : KeepsPlace f) :
    Valid (rows.map f) := by
  have hopen : ∀ r, (f r).done = false → r.done = false := by
    intro r hr
    by_contra hdone
    rw [hf.done r (by simpa using hdone)] at hr
    nomatch hr
  intro c
  have hc := h c
  cases c with
  | migrationTypeCheck =>
    intro r hr
    obtain ⟨q, hq, rfl⟩ := List.mem_map.mp hr
    rw [hf.migrationType]
    exact hc q hq
  | migrationsKey | onlyFirstWithoutParent | historyIsLinear =>
    refine List.pairwise_map.mpr (List.Pairwise.imp (fun hrs => ?_) hc)
    simpa only [hf.schema, hf.name, hf.parent] using hrs
  | onlyOneActive =>
    refine List.pairwise_map.mpr (List.Pairwise.imp (fun hrs => ?_) hc)
    rw [hf.schema, hf.schema]
    exact fun hsame hboth => hrs hsame ⟨hopen _ hboth.1, hopen _ hboth.2⟩
  | parentReference =>
    intro r hr p hp
    obtain ⟨q, hq, rfl⟩ := List.mem_map.mp hr
    rw [hf.parent] at hp
    obtain ⟨s, hs, hschema, hname⟩ := hc q hq p hp
    refine ⟨f s, List.mem_map_of_mem hs, ?_, by rw [hf.name, hname]⟩
    rw [hf.schema, hf.schema, hschema]

/-- Every parent is there afterwards exactly if no row that stays loses its parent. -/
theorem Valid.parentsThere_filter_iff (h : Valid rows) {gone : Record → Bool} :
    ParentsThere (rows.filter (!gone ·)) ↔
      ∀ r ∈ rows, gone r = false → ∀ g ∈ rows, gone g = true → g.schema = r.schema →
        r.parent ≠ some g.name := by
  constructor
  · intro hparents r hr hstays g hg hgone hsame hparent
    have hr' : r ∈ rows.filter (!gone ·) := List.mem_filter.mpr ⟨hr, by simpa using hstays⟩
    obtain ⟨s, hs, hschema, hname⟩ := hparents r hr' g.name hparent
    obtain ⟨hs, hsstays⟩ := List.mem_filter.mp hs
    -- no other row has the key of the one that goes
    have hsg : s = g := h.eq_of_key_eq hs hg (by rw [hschema, hsame]) hname
    rw [hsg, hgone] at hsstays
    nomatch hsstays
  · intro hfree r hr p hp
    have hthere : ParentsThere rows := h .parentReference
    obtain ⟨hr, hstays⟩ := List.mem_filter.mp hr
    obtain ⟨s, hs, hschema, rfl⟩ := hthere r hr p hp
    refine ⟨s, List.mem_filter.mpr ⟨hs, ?_⟩, hschema, rfl⟩
    by_contra hgone
    exact hfree r hr (by simpa using hstays) s hs (by simpa using hgone) hschema hp

/-- The database lets rows go exactly if every parent is there afterwards. -/
theorem Valid.deleteRows_cases (h : Valid rows) (gone : Record → Bool) :
    (Valid (rows.filter (!gone ·)) ∧ deleteRows rows gone = .ok (rows.filter (!gone ·))) ∨
      (¬ Constraint.parentReference.Holds (rows.filter (!gone ·)) ∧
        deleteRows rows gone = .error .parentReference) := by
  by_cases hparents : ParentsThere (rows.filter (!gone ·))
  · have hfree := h.parentsThere_filter_iff.mp hparents
    exact .inl ⟨(h.filter_iff _).mpr hparents, deleteRows_eq_ok.mpr ⟨hfree, rfl⟩⟩
  · refine .inr ⟨hparents, ?_⟩
    cases hresult : deleteRows rows gone with
    | ok kept =>
      obtain ⟨hfree, -⟩ := deleteRows_eq_ok.mp hresult
      exact absurd (h.parentsThere_filter_iff.mpr hfree) hparents
    | error c => rw [eq_parentReference_of_deleteRows hresult]

end Table

/-! ## Failures that tell of no constraint -/

section Mild

variable {α β : Type}

def Mild (x : Except Failure α) : Prop := ∀ e, x = .error e → e.isViolation = false

theorem mild_ok (a : α) : Mild (.ok a) := fun _ h => nomatch h

theorem mild_error {e : Failure} (h : e.isViolation = false) :
    Mild (.error e : Except Failure α) := fun _ he => Except.error.inj he ▸ h

theorem Mild.map {x : Except Failure α} (h : Mild x) (f : α → β) : Mild (x.map f) := by
  cases x with
  | ok a => exact mild_ok _
  | error e => exact mild_error (h e rfl)

theorem mild_mapM {f : α → Except Failure β} (h : ∀ x, Mild (f x)) (xs : List α) :
    Mild (xs.mapM f) := by
  induction xs with
  | nil => exact mild_ok _
  | cons x rest ih =>
    rw [List.mapM_cons]
    cases hx : f x with
    | error e => exact mild_error (h x e hx)
    | ok y =>
      cases hrest : rest.mapM f with
      | error e => exact mild_error (ih e hrest)
      | ok ys => exact mild_ok _

theorem mild_readMapping (v : Value) : Mild (readMapping v) := by
  unfold readMapping
  split
  · exact mild_ok _
  · exact mild_error rfl

end Mild

namespace Database

variable {α β : Type}

theorem mild_written (row : Record) : Mild (written row) := (mild_readMapping _).map _

theorem mild_readOption (row : Option Record) : Mild (readOption row) := by
  cases row with
  | none => exact mild_ok _
  | some row => exact (mild_written _).map _

/-- A question leaves the database alone, and a failure of it tells of no broken constraint. -/
def Calm (x : Action Database α) : Prop := ∀ d, (x d).2 = d ∧ Mild (x d).1

theorem calm_pure (a : α) : Calm (pure a) := fun _ => ⟨rfl, mild_ok a⟩

theorem calm_lift {x : Except Failure α} (h : Mild x) : Calm (.lift x) := fun _ => ⟨rfl, h⟩

theorem calm_ask {f : Table → Except Failure α} (h : ∀ rows, Mild (f rows)) : Calm (ask f) := by
  rintro ⟨tables⟩
  cases tables with
  | none => exact ⟨rfl, mild_error rfl⟩
  | some t => exact ⟨rfl, h t.migrations⟩

theorem calm_bind {x : Action Database α} {f : α → Action Database β} (hx : Calm x)
    (hf : ∀ a, Calm (f a)) : Calm (x >>= f) := by
  intro d
  obtain ⟨hstill, hmild⟩ := hx d
  rw [bind_apply]
  split
  next a d' h =>
    rw [h] at hstill
    rw [show d' = d from hstill]
    exact hf a d
  next e d' h =>
    rw [h] at hstill hmild
    exact ⟨hstill, mild_error (hmild e rfl)⟩

theorem calm_get (schema name : String) : Calm (get schema name) := by
  refine calm_bind (calm_ask fun rows => ?_) fun _ => calm_lift (mild_written _)
  split
  · exact mild_ok _
  · exact mild_error rfl

theorem calm_active (schema : String) : Calm (active schema) :=
  calm_ask fun _ => mild_readOption _

theorem calm_latest (schema : String) : Calm (latest schema) :=
  calm_ask fun _ => mild_readOption _

theorem calm_records (schema : String) : Calm (records schema) :=
  calm_ask fun _ => mild_mapM (fun row => mild_written (stored row)) _

theorem calm_previous (schema : String) : Calm (previous schema) := by
  refine calm_bind (calm_latest schema) fun tip => ?_
  split
  · exact calm_pure _
  · exact calm_bind (calm_get _ _) fun _ => calm_pure _

theorem calm_history (schema : String) : Calm (history schema) := by
  refine calm_bind (calm_latest schema) fun tip => ?_
  split
  · exact calm_pure _
  · exact calm_bind (calm_records _) fun _ => calm_pure _

/-! ## What comes of a call -/

/-- What comes of a call that intends to leave `rows`: either they satisfy the constraints and are
left, or they break one, which the caller sees, and nothing is changed. -/
inductive Outcome (d : Database) (rows : Table) (refusal : Constraint → Failure) :
    Except Failure α × Database → Prop where
  | left {answer : Except Failure α} (hvalid : Table.Valid rows) (hmild : Mild answer) :
      Outcome d rows refusal (answer, d.withRows rows)
  | refused (k : Constraint) (hbroken : ¬ k.Holds rows) :
      Outcome d rows refusal (.error (refusal k), d)

variable {t : Tables} {refusal : Constraint → Failure}

theorem Outcome.answer {d : Database} {rows : Table} {x : Action Database α}
    (h : Outcome d rows refusal (x d)) (f : α → β) :
    Outcome d rows refusal ((x >>= fun a => pure (f a)) d) := by
  rw [bind_pure_apply]
  generalize x d = result at h
  cases h with
  | left hvalid hmild => exact .left hvalid (hmild.map f)
  | refused k hbroken => exact .refused k hbroken

theorem Outcome.still (h : Table.Valid t.migrations) {answer : Except Failure α}
    (hmild : Mild answer) : Outcome ⟨some t⟩ t.migrations refusal (answer, ⟨some t⟩) :=
  .left h hmild

theorem outcome_calm (h : Table.Valid t.migrations) {x : Action Database α} (hx : Calm x) :
    Outcome ⟨some t⟩ t.migrations refusal (x ⟨some t⟩) := by
  obtain ⟨hstill, hmild⟩ := hx ⟨some t⟩
  have happly : x ⟨some t⟩ = ((x ⟨some t⟩).1, ⟨some t⟩) := Prod.ext rfl hstill
  rw [happly]
  exact .still h hmild

theorem translated_eq (schema name : String) (k : Constraint) :
    translated schema name k = .ledger (.broken k schema name) := by
  simp [translated, LedgerError.ofConstraint, LedgerError.broken, Constraint.ofName?_name]

theorem outcome_insert (h : Table.Valid t.migrations) (now : Moment) (r : Record) :
    Outcome ⟨some t⟩ (Table.joined t.migrations (r.stamped now))
      (fun k => .ledger (.broken k r.schema r.name)) (insert now r ⟨some t⟩) := by
  have hstamped : (r.stamped now).storable = r.storable := rfl
  rw [insert_apply, Table.joined, hstamped]
  cases r.storable with
  | false => exact .still h (mild_error rfl)
  | true =>
    simp only [if_true]
    split
    next hbroken => exact .left ((Table.valid_concat_iff h).mpr hbroken) (mild_written _)
    next k hbroken =>
      rw [translated_eq]
      refine .refused k fun hholds => ?_
      have hk := (Constraint.holds_concat_iff (h k)).mp hholds
      rw [List.find?_some hbroken] at hk
      nomatch hk

theorem outcome_markDone (h : Table.Valid t.migrations) (now : Moment) (schema name : String)
    (resulting : Value) :
    Outcome ⟨some t⟩ ((Call.markDone schema name resulting).intended now t.migrations)
      (fun k => .ledger (.broken k schema name)) (markDone now schema name resulting ⟨some t⟩) := by
  rw [markDone_apply, Call.intended]
  cases Table.row? t.migrations schema name with
  | none =>
    rw [if_neg (by simp)]
    exact .still h (mild_error rfl)
  | some row =>
    by_cases hdone : row.done = true
    · rw [if_neg (by simp [hdone])]
      simp only [hdone, if_true]
      exact .still h (mild_error rfl)
    · simp only [hdone, Bool.false_eq_true, if_false]
      cases Json.storable resulting with
      | false =>
        rw [if_neg (by simp)]
        exact .still h (mild_error rfl)
      | true =>
        rw [if_pos (by simpa using hdone)]
        have hplace := keepsPlace_complete (fun _ => resulting) fun _ => some now
        exact .left (h.map (hplace.onKey schema name)) (mild_written _)

theorem outcome_delete (h : Table.Valid t.migrations) (schema name : String) :
    Outcome ⟨some t⟩ (t.migrations.filter fun r => !(r.schema = schema && r.name = name))
      (fun k => .ledger (.broken k schema name)) (delete schema name ⟨some t⟩) := by
  rw [delete_apply]
  cases hrow : Table.row? t.migrations schema name with
  | none =>
    have hnone : ∀ r ∈ t.migrations, (!(r.schema = schema && r.name = name)) = true := by
      intro r hr
      rw [Bool.not_eq_true', ← Bool.not_eq_true]
      exact List.find?_eq_none.mp hrow r hr
    rw [List.filter_eq_self.mpr hnone]
    exact .still h (mild_error rfl)
  | some row =>
    rcases h.deleteRows_cases fun r => r.schema = schema && r.name = name with
      ⟨hvalid, hok⟩ | ⟨hbroken, herror⟩
    · simp only [hok]
      exact .left hvalid (mild_ok _)
    · simp only [herror, translated_eq]
      exact .refused _ hbroken

theorem deleteInferredDuplicates_apply (t : Tables) (schema : String) (createdAt : Moment)
    (statement : String) :
    deleteInferredDuplicates schema createdAt statement ⟨some t⟩ =
      match Table.deleteRows t.migrations (isDuplicate schema createdAt statement) with
      | .ok kept => (.ok (t.migrations.countP (isDuplicate schema createdAt statement)),
          ⟨some { t with migrations := kept }⟩)
      | .error k => (.error (.constraint k), ⟨some t⟩) := by
  rw [deleteInferredDuplicates, bind_apply, ask_apply]
  dsimp only
  rw [bind_apply, change_apply]
  cases Table.deleteRows t.migrations (isDuplicate schema createdAt statement) <;> rfl

theorem outcome_deleteInferredDuplicates (h : Table.Valid t.migrations) (schema : String)
    (createdAt : Moment) (statement : String) :
    Outcome ⟨some t⟩ (t.migrations.filter (!isDuplicate schema createdAt statement ·)) .constraint
      (deleteInferredDuplicates schema createdAt statement ⟨some t⟩) := by
  rw [deleteInferredDuplicates_apply]
  rcases h.deleteRows_cases (isDuplicate schema createdAt statement) with
    ⟨hvalid, hok⟩ | ⟨hbroken, herror⟩
  · rw [hok]
    exact .left hvalid (mild_ok _)
  · rw [herror]
    exact .refused _ hbroken

theorem outcome_call (h : Table.Valid t.migrations) (now : Moment) (c : Call) :
    Outcome ⟨some t⟩ (c.intended now t.migrations) c.refusal (c.run now ⟨some t⟩) := by
  cases c with
  | insert r => exact (outcome_insert h now r).answer Answer.record
  | insertAtTip r =>
    have hlatest : (LedgerStore.latest r.schema : Action Database _) ⟨some t⟩ =
        (readOption (Table.newest? (Table.childless (Table.ofSchema t.migrations r.schema))),
          ⟨some t⟩) := rfl
    refine Outcome.answer (x := LedgerStore.insertAtTip now r) ?_ Answer.record
    rw [LedgerStore.insertAtTip, bind_apply, hlatest, Call.intended]
    cases htip : readOption (Table.newest? (Table.childless (Table.ofSchema t.migrations r.schema)))
      with
    | error e => exact .still h (mild_error (mild_readOption _ e htip))
    | ok tip => exact outcome_insert h now _
  | markDone schema name v => exact (outcome_markDone h now schema name v).answer Answer.record
  | delete schema name => exact (outcome_delete h schema name).answer fun _ => Answer.done
  | deleteInferredDuplicates schema createdAt statement =>
    exact (outcome_deleteInferredDuplicates h schema createdAt statement).answer Answer.count
  | get schema name => exact (outcome_calm h (calm_get _ _)).answer Answer.record
  | active schema => exact (outcome_calm h (calm_active _)).answer Answer.record?
  | latest schema => exact (outcome_calm h (calm_latest _)).answer Answer.record?
  | previous schema => exact (outcome_calm h (calm_previous _)).answer Answer.record?
  | history schema => exact (outcome_calm h (calm_history _)).answer Answer.records
  | records schema => exact (outcome_calm h (calm_records _)).answer Answer.records
  | schemas => exact (outcome_calm h (calm_ask fun _ => mild_ok _)).answer Answer.names
  | latestNonInferred schema =>
    exact (outcome_calm h (calm_ask fun _ => mild_readOption _)).answer Answer.record?
  | isActive schema =>
    exact (outcome_calm h (calm_bind (calm_active _) fun _ => calm_pure _)).answer Answer.flag
  | versionLabels schema =>
    exact (outcome_calm h (calm_bind (calm_records _) fun _ => calm_pure _)).answer Answer.names
  | checkHistory schema =>
    exact (outcome_calm h (calm_bind (calm_records _) fun _ => calm_pure _)).answer Answer.problems

/-- The database has tables, and the table of migrations satisfies its constraints. -/
def Constrained (d : Database) : Prop := ∃ t : Tables, d = ⟨some t⟩ ∧ Table.Valid t.migrations

/-- Whatever is called on an empty table, the constraints hold. Calls whose transaction is rolled
back leave nothing, so this covers whatever a call can find in the table. -/
theorem constrained_after (calls : List (Moment × Call)) (versions : List VersionMark) :
    Constrained (after (Call.runs calls) ⟨some { versions }⟩) := by
  refine keeps_after (P := Constrained) (fun x hx => ?_) ⟨_, rfl, .nil⟩
  obtain ⟨c, -, rfl⟩ := List.mem_map.mp hx
  rintro d ⟨t, rfl, h⟩
  have houtcome := outcome_call h c.1 c.2
  generalize c.2.run c.1 (⟨some t⟩ : Database) = result at houtcome
  cases houtcome with
  | left hvalid => exact ⟨_, rfl, hvalid⟩
  | refused => exact ⟨t, rfl, h⟩

/-- Only a removal of duplicates is refused in the words of the database, and only for the reference
to parents. -/
theorem lost_of_refused (h : Table.Valid t.migrations) {now : Moment} {c : Call}
    {k k' : Constraint} (hbroken : ¬ k.Holds (c.intended now t.migrations))
    (hsaid : c.refusal k = .constraint k') :
    c.removesDuplicates = true ∧ ¬ ParentsThere (c.intended now t.migrations) := by
  cases c with
  -- the first four are told in the words of the ledger, and a question intends what is there
  | insert | insertAtTip | markDone | delete => nomatch hsaid
  | deleteInferredDuplicates =>
    exact ⟨rfl, fun hparents => hbroken ((h.filter_iff _).mpr hparents k)⟩
  | _ => exact absurd (h k) hbroken

/-- **A broken constraint is told in the words of the ledger, but for removals of duplicates.** Make
any calls on an empty table, and one more. If the rows that it intends satisfy the constraints, they
are what it leaves, and no failure of it tells of a constraint. If they do not, the call changes
nothing and is refused for a constraint that they break. The refusal is an error of the ledger,
except that a removal of duplicates that would take a parent and leave its child, and no other call,
fails with what the database said. -/
theorem broken_constraint_told (calls : List (Moment × Call)) (versions : List VersionMark)
    (now : Moment) (c : Call) :
    let d := after (Call.runs calls) (⟨some { versions }⟩ : Database)
    let rows := c.intended now d.rows
    (Table.Valid rows → (c.run now d).2 = d.withRows rows ∧
      ∀ e, (c.run now d).1 = .error e → e.isViolation = false) ∧
    (¬ Table.Valid rows →
      ∃ k : Constraint, ¬ k.Holds rows ∧ c.run now d = (.error (c.refusal k), d)) ∧
    ((∃ k, (c.run now d).1 = .error (.constraint k)) ↔
      c.removesDuplicates = true ∧ ¬ ParentsThere rows) := by
  intro d rows
  obtain ⟨t, hd, h⟩ : Constrained d := constrained_after calls versions
  have hrows : rows = c.intended now t.migrations :=
    congrArg (fun d : Database => c.intended now d.rows) hd
  have houtcome := outcome_call h now c
  rw [← hd, ← hrows] at houtcome
  generalize hresult : c.run now d = result at houtcome
  cases houtcome with
  | left hvalid hmild =>
    refine ⟨fun _ => ⟨rfl, hmild⟩, fun hinvalid => absurd hvalid hinvalid, ?_⟩
    constructor
    · rintro ⟨k, hk⟩
      nomatch hmild _ hk
    · rintro ⟨-, hlost⟩
      exact absurd (hvalid .parentReference) hlost
  | refused k hbroken =>
    -- the refusal of a removal is the only one in the words of the database
    refine ⟨fun hvalid => absurd (hvalid k) hbroken, fun _ => ⟨k, hbroken, rfl⟩, ?_⟩
    rw [hrows] at hbroken ⊢
    constructor
    · rintro ⟨k', hsaid⟩
      exact lost_of_refused h hbroken (Except.error.inj hsaid)
    · rintro ⟨hremoves, -⟩
      cases c with
      | deleteInferredDuplicates => exact ⟨k, rfl⟩
      | _ => nomatch hremoves

/-- The database finds the statement of an inferred step. -/
theorem statementText?_of_inferredPayload {r : Record} {statement label : String}
    (h : r.migration = inferredPayload statement label) :
    Table.statementText? r = some statement := by
  have hzero : "0".toNat? = some 0 := Nat.toNat?_repr 0
  have hkept : r.asJson.migration =
      [(.text "operations", .list [.map [(.text "sql", .map [(.text "up", .text statement)])]]),
        (.text "version_schema", .text label)] := by
    rw [Record.asJson, h]
    rfl
  rw [Table.statementText?, hkept]
  simp only [List.foldl_cons, List.foldl_nil, Table.descend, hzero]
  rfl

/-- A removal that takes a row and leaves its child fails with what the database said. -/
theorem removal_refused_of_child {schema statement : String} {createdAt : Moment} {g r : Record}
    (hg : g ∈ t.migrations) (hgone : isDuplicate schema createdAt statement g = true)
    (hr : r ∈ t.migrations) (hstays : isDuplicate schema createdAt statement r = false)
    (hsame : g.schema = r.schema) (hparent : r.parent = some g.name) :
    deleteInferredDuplicates schema createdAt statement ⟨some t⟩ =
      (.error (.constraint .parentReference), ⟨some t⟩) := by
  rw [deleteInferredDuplicates_apply]
  cases hresult : Table.deleteRows t.migrations (isDuplicate schema createdAt statement) with
  | ok kept =>
    have hfree := (Table.deleteRows_eq_ok.mp hresult).1
    exact absurd hparent (hfree r hr hstays g hg hgone hsame)
  | error k => rw [Table.eq_parentReference_of_deleteRows hresult]

/-- A step is recorded and another one on top of it, and then the first one is taken for a
duplicate: the caller sees what the database said. -/
theorem removal_told_by_database :
    ¬ ∀ (calls : List (Moment × Call)) (now : Moment) (c : Call) (k : Constraint),
      (c.run now (after (Call.runs calls) Database.installed)).1 ≠ .error (.constraint k) := by
  intro h
  let parent : Record :=
    { schema := "public", name := "a", done := true, migrationType := "inferred",
      migration := inferredPayload "create table t ()" "sql_1", createdAt := some ⟨5, some 0⟩ }
  let child : Record := { schema := "public", name := "b", parent := some "a", done := true }
  let rows : Table := [parent.stamped ⟨0, some 0⟩, child.stamped ⟨1, some 0⟩]
  have hrows : after (Call.runs [(⟨0, some 0⟩, .insert parent), (⟨1, some 0⟩, .insert child)])
      installed = ⟨some { migrations := rows }⟩ := by decide
  have hparent : isDuplicate "public" ⟨5, some 0⟩ "create table t ()"
      (parent.stamped ⟨0, some 0⟩) = true := by
    rw [isDuplicate, statementText?_of_inferredPayload (r := parent.stamped ⟨0, some 0⟩) rfl]
    decide
  have hrefused : deleteInferredDuplicates "public" ⟨5, some 0⟩ "create table t ()"
      ⟨some { migrations := rows }⟩ = _ :=
    removal_refused_of_child (List.mem_cons_self ..) hparent
      (List.mem_cons_of_mem _ (List.mem_singleton.mpr rfl)) (by decide) rfl rfl
  refine h [(⟨0, some 0⟩, .insert parent), (⟨1, some 0⟩, .insert child)] ⟨2, some 0⟩
    (.deleteInferredDuplicates "public" ⟨5, some 0⟩ "create table t ()") .parentReference ?_
  rw [hrows, Call.run, bind_pure_apply]
  exact congrArg (fun x => x.1.map Answer.count) hrefused

end Database

end SchemaLedger
