import SchemaLedger.Proofs.Ledger.Clients

/-!
# Racing starts

A client that starts a migration reads the tip and then records the migration under it. Other
clients may move in between, so the tip that it read may be completed, rolled back or replaced by
the time it is used. Nothing goes wrong with the history all the same: a record that joins under a
stale parent would fork the chain, dangle, or stand next to a migration in progress, and the ledger
refuses each of these.

This file says what that means at every moment of a race (`Orderly`), and shows that a ledger that
keeps to the laws is orderly as long as it is whole (`Lawful.orderly`). Two arguments carry it.
Between two starts of a schema the first migration is lost from among those in progress, since the
second start finds none; and the one move that loses it is a completion or a removal of that very
migration (`exists_lost`, `Lawful.mem_act`). And when several clients start from the same tip, the
first one leaves a migration in progress, on which each later one founders before its place in the
chain is looked at (`violationFor_eq_activeMigration`).

The ledger in memory stays whole whatever the clients do. The table stays whole exactly as long as
no start joins as its own parent, which can happen when a migration is rolled back and another
client, which had read its name, reuses it (`racing_starts`, `own_parent_after_rollback`).
-/

namespace SchemaLedger

open Attempt SharedLedger

variable {σ : Type} [SharedLedger σ]

/-! ## Moments of a race -/

/-- What the client found is the tip of the schema as it is. -/
def Shared.AtTip (w : Shared σ) (client : Nat) (schema : String) : Prop :=
  ∃ chain, Arranges chain (Table.ofSchema (contents w.ledger) schema) ∧
    w.found client = .tip schema (tipName chain)

/-- The migration is in progress. -/
def Shared.Underway (w : Shared σ) (schema name : String) : Prop :=
  ∃ r ∈ contents w.ledger, r.schema = schema ∧ r.name = name ∧ r.done = false

/-- The move completes the migration, or is the second half of its rollback. -/
def Move.Ends (w : Shared σ) (schema name : String) : Move → Prop
  | .complete _ _ s n => s = schema ∧ n = name
  | .remove client => w.found client = .inProgress schema name
  | _ => False

/-- The answer tells one of the starts that a migration is in progress. -/
def ToldActive (schema : String) (starts : List Start)
    (answer : Except Failure (Option Record)) : Prop :=
  ∃ s ∈ starts, ∃ detail,
    answer = .error (.ledger (.integrity .activeMigration schema (some s.name) detail))

/-- A moment of a race at which everything is in order. -/
structure Orderly (w : Shared σ) : Prop where
  /-- The records of every schema are one chain with at most one migration in progress. -/
  intact : Intact (contents w.ledger)
  /-- A client that reads the tip finds the end of the chain. -/
  looks : ∀ (client : Nat) (schema : String), (∃ a, ((Move.look client schema).act w).1 = .ok a) →
    ((Move.look client schema).act w).2.AtTip client schema
  /-- A start that is refused changes nothing. -/
  refused : ∀ s : Start, (∃ e, ((Move.join s).act w).1 = .error e) → ((Move.join s).act w).2 = w
  /-- If a migration is started here and later another one of its schema, whatever happens in
  between, then in between it was completed or rolled back. -/
  turns : ∀ (s s' : Start) (r r' : Record) (between : List Move),
    ((Move.join s).act w).1 = .ok (some r) →
    ((Move.join s').act (after (between.map Move.act) ((Move.join s).act w).2)).1 = .ok (some r') →
    r'.schema = r.schema →
    ∃ front m back, between = front ++ m :: back ∧
      let before := after (front.map Move.act) ((Move.join s).act w).2
      m.Ends before r.schema r.name ∧ before.Underway r.schema r.name ∧
        ¬ (m.act before).2.Underway r.schema r.name
  /-- If clients that are all at the tip of a schema start migrations with different new names while
  none is in progress, the first one succeeds and all others are told of the one in progress;
  provided that the ledger can record their payloads at all. -/
  crowd : ∀ (schema : String) (first : Start) (others : List Start),
    (∀ s ∈ first :: others, accepts (σ := σ) s.payload.toLedger = true) →
    Settled (Table.ofSchema (contents w.ledger) schema) →
    (∀ s ∈ first :: others, w.AtTip s.client schema) →
    ((first :: others).map (·.name)).Nodup →
    (∀ s ∈ first :: others, ∀ r ∈ Table.ofSchema (contents w.ledger) schema, r.name ≠ s.name) →
    (∃ r, ((Move.join first).act w).1 = .ok (some r)) ∧
      ∀ m ∈ trace ((others.map Move.join).map Move.act) ((Move.join first).act w).2,
        ToldActive schema others m.1

/-- Whether the answer to a move is a new record that is its own parent. -/
def ownParent : Except Failure (Option Record) → Bool
  | .ok (some r) => r.parent = some r.name
  | _ => false

/-! ## Single moves on a lawful ledger -/

/-- A record of a known type and a new name that is not done is refused for the migration in
progress, wherever it would join. -/
theorem violationFor_eq_activeMigration {records : List Record} {record : Record}
    (htype : record.migrationType ∈ migrationTypes)
    (hname : ∀ r ∈ Table.ofSchema records record.schema, r.name ≠ record.name)
    (hopen : record.done = false) {r : Record} (hr : r ∈ Table.ofSchema records record.schema)
    (hactive : r.done = false) : violationFor records record = some .activeMigration := by
  have hunused : (Table.ofSchema records record.schema).any (·.name = record.name) = false := by
    simpa using hname
  have hany : (Table.ofSchema records record.schema).any (!·.done) = true :=
    List.any_eq_true.mpr ⟨r, hr, by rw [hactive]; rfl⟩
  unfold Table.ofSchema at hunused hany
  simp only [violationFor, hunused, hany, hopen, htype]
  rfl

namespace Lawful

variable {Whole : σ → Prop} (laws : Lawful σ Whole)

include laws

/-- Only a start answers with a record. -/
theorem exists_eq_join {m : Move} {w : Shared σ} {r : Record}
    (h : (m.act w).1 = .ok (some r)) : ∃ s, m = .join s := by
  cases m with
  | join s => exact ⟨s, rfl⟩
  | look client schema =>
    rw [Move.look_apply] at h
    split at h <;> nomatch h
  | complete now snapshot schema name =>
    rw [Move.complete_apply] at h
    cases hanswer : (transaction (Lifecycle.complete now snapshot schema name) w.ledger).1 with
    | error e => simp [hanswer, Except.map] at h
    | ok r => simp [hanswer, Except.map] at h
  | check client schema name =>
    rw [Move.check_apply] at h
    split at h <;> nomatch h
  | remove client =>
    rcases laws.remove_cases client w with ⟨e, hact⟩ | ⟨_, _, _, -, -, hact⟩
    · rw [hact] at h
      nomatch h
    · rw [hact] at h
      nomatch h

/-- A move keeps the ledger whole, unless it starts a migration that is its own parent. -/
theorem whole_act {m : Move} {w : Shared σ} (hw : Whole w.ledger)
    (hown : ownParent (m.act w).1 = false) : Whole (m.act w).2.ledger := by
  cases m with
  | look client schema =>
    rw [Move.look_ledger, laws.latest_keeps]
    exact hw
  | join s =>
    rcases laws.join_cases s w with ⟨e, hact⟩ | ⟨schema, parent, r, l', -, htaken, hact⟩
    · rw [hact]
      exact hw
    · rw [hact] at hown ⊢
      obtain ⟨rfl, -, -⟩ := laws.start_joined htaken
      exact laws.start_whole hw (of_decide_eq_false hown) htaken
  | complete now snapshot schema name =>
    rw [Move.complete_apply]
    exact laws.complete_whole now snapshot schema name w.ledger hw
  | check client schema name =>
    rw [Move.check_ledger, laws.check_keeps]
    exact hw
  | remove client =>
    rcases laws.remove_cases client w with ⟨e, hact⟩ | ⟨schema, name, l', -, htaken, hact⟩
    · rw [hact]
      exact hw
    · rw [hact]
      have hkeeps := laws.delete_whole schema name w.ledger hw
      rwa [htaken] at hkeeps

/-- A record stays as it is through every move but a completion of it or a removal of it. -/
theorem mem_act {m : Move} {w : Shared σ} {r : Record} (hr : r ∈ contents w.ledger)
    (hm : ¬ m.Ends w r.schema r.name) : r ∈ contents (m.act w).2.ledger := by
  cases m with
  | look client schema =>
    rw [Move.look_ledger, laws.latest_keeps]
    exact hr
  | join s =>
    rcases laws.join_cases s w with ⟨e, hact⟩ | ⟨schema, parent, r', l', -, htaken, hact⟩
    · rw [hact]
      exact hr
    · rw [hact]
      show r ∈ contents l'
      rw [(laws.start_joined htaken).2.1]
      exact List.mem_append_left _ hr
  | complete now snapshot schema name =>
    obtain ⟨f, -, hcontents, -⟩ := laws.complete_changes now snapshot schema name w.ledger
    have hother : ¬ (r.schema = schema ∧ r.name = name) := fun h => hm ⟨h.1.symm, h.2.symm⟩
    rw [Move.complete_apply, hcontents]
    exact List.mem_map.mpr ⟨r, hr, if_neg hother⟩
  | check client schema name =>
    rw [Move.check_ledger, laws.check_keeps]
    exact hr
  | remove client =>
    rcases laws.remove_cases client w with ⟨e, hact⟩ | ⟨schema, name, l', hfound, htaken, hact⟩
    · rw [hact]
      exact hr
    · have hother : ¬ (r.schema = schema ∧ r.name = name) := by
        rintro ⟨rfl, rfl⟩
        exact hm hfound
      rw [hact]
      show r ∈ contents l'
      rw [(laws.delete_ok htaken).2]
      exact List.mem_filter.mpr ⟨hr, by simpa [← not_and_or] using hother⟩

/-! ## Everything is in order on a whole ledger -/

/-- Reading the tip of a chain finds its end. -/
theorem atTip_of_look {client : Nat} {schema : String} {w : Shared σ} (hw : Whole w.ledger)
    {a : Option Record} (h : ((Move.look client schema).act w).1 = .ok a) :
    ((Move.look client schema).act w).2.AtTip client schema := by
  obtain ⟨chain, hchain⟩ := (laws.intact hw schema).arranged
  have hkeeps := laws.latest_keeps schema w.ledger
  rw [Move.look_apply] at h ⊢
  rcases hread : transaction (LedgerStore.latest schema) w.ledger with ⟨e | tip, l⟩
  · rw [hread] at h
    nomatch h
  · rw [hread] at hkeeps
    have htip : tip.map (·.name) = tipName chain :=
      hchain.freePlace_iff.mp (laws.latest_free hw hread)
    obtain rfl : l = w.ledger := hkeeps
    refine ⟨chain, hchain, ?_⟩
    rw [← htip]
    exact if_pos rfl

/-- From a start on, the migration is in progress until a move ends it, and no other migration of
its schema is started before that. -/
theorem exists_ends {s s' : Start} {r r' : Record} {between : List Move} {w : Shared σ}
    (hfirst : ((Move.join s).act w).1 = .ok (some r))
    (hsecond : ((Move.join s').act (after (between.map Move.act) ((Move.join s).act w).2)).1 =
      .ok (some r'))
    (hschema : r'.schema = r.schema) :
    ∃ front m back, between = front ++ m :: back ∧
      let before := after (front.map Move.act) ((Move.join s).act w).2
      m.Ends before r.schema r.name ∧ before.Underway r.schema r.name ∧
        ¬ (m.act before).2.Underway r.schema r.name := by
  have hstart : ((Move.join s).act w).2.Underway r.schema r.name := by
    obtain ⟨schema, parent, l', -, htaken, hw'⟩ := laws.join_ok hfirst
    obtain ⟨hr, hcontents, -⟩ := laws.start_joined htaken
    rw [hw']
    refine ⟨r, ?_, rfl, rfl, by rw [hr]; rfl⟩
    show r ∈ contents l'
    rw [hcontents]
    exact List.mem_append_right _ (List.mem_singleton.mpr rfl)
  have hend : ¬ (after (between.map Move.act) ((Move.join s).act w).2).Underway
      r.schema r.name := by
    obtain ⟨schema, parent, l', -, htaken, -⟩ := laws.join_ok hsecond
    obtain ⟨hr', -, hsettled⟩ := laws.start_joined htaken
    rintro ⟨q, hq, hqschema, -, hqopen⟩
    have hqdone : q.done = true := by
      refine hsettled q (List.mem_filter.mpr ⟨hq, decide_eq_true ?_⟩)
      rw [hqschema, ← hschema, hr']
      rfl
    rw [hqopen] at hqdone
    nomatch hqdone
  obtain ⟨front, m, back, hbetween, hbefore, hafter⟩ := exists_lost
    (P := fun v : Shared σ => v.Underway r.schema r.name) hstart hend
  refine ⟨front, m, back, hbetween, ?_, hbefore, hafter⟩
  by_contra hends
  obtain ⟨q, hq, hqschema, hqname, hqopen⟩ := hbefore
  rw [← hqschema, ← hqname] at hends
  exact hafter ⟨q, laws.mem_act hq hends, hqschema, hqname, hqopen⟩

/-- At the tip, while no migration is in progress, a start with a new name goes through. -/
theorem join_at_tip {s : Start} {schema : String} {w : Shared σ} (hw : Whole w.ledger)
    (haccepts : accepts (σ := σ) s.payload.toLedger = true)
    (hsettled : Settled (Table.ofSchema (contents w.ledger) schema))
    (htip : w.AtTip s.client schema)
    (hname : ∀ r ∈ Table.ofSchema (contents w.ledger) schema, r.name ≠ s.name) :
    ∃ r l', (Move.join s).act w = (.ok (some r), ⟨l', w.found⟩) ∧ Whole l' ∧
      contents l' = contents w.ledger ++ [r] ∧ r.schema = schema ∧ r.name = s.name ∧
      r.done = false := by
  obtain ⟨chain, hchain, hfound⟩ := htip
  have hself := hchain.tipName_ne hname
  have hfits : violationFor (contents w.ledger) (s.record schema (tipName chain)) = none :=
    violationFor_eq_none.mpr
      ⟨by simp [Start.record, migrationTypes], hname, .inr hsettled, hchain.freePlace_iff.mpr rfl⟩
  obtain ⟨r, l', htaken⟩ := laws.start_fits hw hself haccepts hfits
  obtain ⟨rfl, hcontents, -⟩ := laws.start_joined htaken
  refine ⟨_, l', ?_, laws.start_whole hw hself htaken, hcontents, rfl, rfl, rfl⟩
  rw [Move.join_apply, hfound]
  simp only [htaken]
  rfl

/-- While a migration is in progress, a start with a new name is told so, under whichever parent
that is not its own name. -/
theorem join_refused_active {s : Start} {schema : String} {parent : Option String} {w : Shared σ}
    (hw : Whole w.ledger) (haccepts : accepts (σ := σ) s.payload.toLedger = true)
    (hfound : w.found s.client = .tip schema parent) (hself : parent ≠ some s.name)
    (hname : ∀ r ∈ Table.ofSchema (contents w.ledger) schema, r.name ≠ s.name) {r : Record}
    (hr : r ∈ Table.ofSchema (contents w.ledger) schema) (hopen : r.done = false) :
    ∃ detail, (Move.join s).act w =
      (.error (.ledger (.integrity .activeMigration schema (some s.name) detail)), w) := by
  have hviolates :
      violationFor (contents w.ledger) (s.record schema parent) = some .activeMigration :=
    violationFor_eq_activeMigration (by simp [Start.record, migrationTypes]) hname rfl hr hopen
  obtain ⟨detail, hrefused⟩ := laws.start_violates hw hself haccepts hviolates
  refine ⟨detail, ?_⟩
  rw [Move.join_apply, hfound]
  simp only [hrefused]
  rfl

/-- Of several starts from one tip with different new names the first one goes through, and leaves a
migration in progress, of which all others are told. -/
theorem first_of_crowd {schema : String} {first : Start} {others : List Start} {w : Shared σ}
    (hw : Whole w.ledger)
    (haccepts : ∀ s ∈ first :: others, accepts (σ := σ) s.payload.toLedger = true)
    (hsettled : Settled (Table.ofSchema (contents w.ledger) schema))
    (htips : ∀ s ∈ first :: others, w.AtTip s.client schema)
    (hnames : ((first :: others).map (·.name)).Nodup)
    (hnew : ∀ s ∈ first :: others, ∀ r ∈ Table.ofSchema (contents w.ledger) schema,
      r.name ≠ s.name) :
    (∃ r, ((Move.join first).act w).1 = .ok (some r)) ∧
      ∀ m ∈ trace ((others.map Move.join).map Move.act) ((Move.join first).act w).2,
        ToldActive schema others m.1 := by
  obtain ⟨haccepts_first, haccepts⟩ := List.forall_mem_cons.mp haccepts
  obtain ⟨htip, htips⟩ := List.forall_mem_cons.mp htips
  obtain ⟨hname, hnew⟩ := List.forall_mem_cons.mp hnew
  rw [List.map_cons, List.nodup_cons] at hnames
  obtain ⟨r, l', hact, hl', hcontents, hschema, hrname, hopen⟩ :=
    laws.join_at_tip hw haccepts_first hsettled htip hname
  have hrows : Table.ofSchema (contents l') schema =
      Table.ofSchema (contents w.ledger) schema ++ [r] := by
    rw [hcontents, Table.ofSchema_concat hschema]
  have hr : r ∈ Table.ofSchema (contents l') schema := by simp [hrows]
  have hrefused : ∀ s ∈ others, ∃ detail, (Move.join s).act ⟨l', w.found⟩ =
      (.error (.ledger (.integrity .activeMigration schema (some s.name) detail)),
        ⟨l', w.found⟩) := by
    intro s hs
    obtain ⟨chain, hchain, hfound⟩ := htips s hs
    have hunused : ∀ q ∈ Table.ofSchema (contents l') schema, q.name ≠ s.name := by
      rw [hrows]
      refine List.forall_mem_append.mpr ⟨hnew s hs, List.forall_mem_singleton.mpr ?_⟩
      rw [hrname]
      intro hsame
      exact hnames.1 (hsame ▸ List.mem_map_of_mem hs)
    have hself : tipName chain ≠ some s.name := hchain.tipName_ne (hnew s hs)
    exact laws.join_refused_active (w := ⟨l', w.found⟩) hl' (haccepts s hs) hfound hself hunused
      hr hopen
  rw [hact, List.map_map]
  refine ⟨⟨r, rfl⟩, forall_mem_trace_of_still (P := ToldActive schema others) fun x hx => ?_⟩
  obtain ⟨s, hs, rfl⟩ := List.mem_map.mp hx
  obtain ⟨detail, hact'⟩ := hrefused s hs
  rw [Function.comp_apply, hact']
  exact ⟨⟨s, hs, detail, rfl⟩, rfl⟩

theorem orderly {w : Shared σ} (hw : Whole w.ledger) : Orderly w where
  intact := laws.intact hw
  looks := fun _ _ ⟨_, ha⟩ => laws.atTip_of_look hw ha
  refused := by
    rintro s ⟨e, he⟩
    rcases laws.join_cases s w with ⟨e', hact⟩ | ⟨_, _, r, l', -, -, hact⟩
    · rw [hact]
    · rw [hact] at he
      nomatch he
  turns := fun _ _ _ _ _ hfirst hsecond hschema => laws.exists_ends hfirst hsecond hschema
  crowd := fun _ _ _ haccepts hsettled htips hnames hnew =>
    laws.first_of_crowd hw haccepts hsettled htips hnames hnew

/-- As long as no start joins as its own parent, everything is in order at every moment. -/
theorem orderly_of_not_ownParent {moves : List Move} {w : Shared σ} (hw : Whole w.ledger)
    (hown : ∀ m ∈ trace (moves.map Move.act) w, ownParent m.1 = false) :
    ∀ v ∈ states (moves.map Move.act) w, Orderly v := by
  induction moves generalizing w with
  | nil => exact List.forall_mem_singleton.mpr (laws.orderly hw)
  | cons m rest ih =>
    obtain ⟨hfirst, hrest⟩ := List.forall_mem_cons.mp hown
    exact List.forall_mem_cons.mpr ⟨laws.orderly hw, ih (laws.whole_act hw hfirst) hrest⟩

/-- Only a start can join as its own parent. -/
theorem join_of_ownParent {m : Move} {w : Shared σ} (hown : ownParent (m.act w).1 = true) :
    ∃ s r, m = .join s ∧ (m.act w).1 = .ok (some r) ∧ r.parent = some r.name := by
  rcases hanswer : (m.act w).1 with e | _ | r
  · rw [hanswer] at hown
    nomatch hown
  · rw [hanswer] at hown
    nomatch hown
  · rw [hanswer] at hown
    obtain ⟨s, rfl⟩ := laws.exists_eq_join hanswer
    exact ⟨s, r, rfl, rfl, of_decide_eq_true hown⟩

/-- A start that joins as its own parent leaves a ledger that is not intact. -/
theorem not_ownParent_of_intact {m : Move} {w : Shared σ}
    (h : Intact (contents (m.act w).2.ledger)) : ownParent (m.act w).1 = false := by
  rw [← Bool.not_eq_true]
  intro hown
  obtain ⟨s, r, rfl, hanswer, hself⟩ := laws.join_of_ownParent hown
  obtain ⟨schema, parent, l', -, htaken, hw'⟩ := laws.join_ok hanswer
  obtain ⟨-, hcontents, -⟩ := laws.start_joined htaken
  rw [hw'] at h
  have hr : r ∈ contents l' := by simp [hcontents]
  exact h.parent_ne_self hr hself

theorem not_ownParent_of_orderly {moves : List Move} {w : Shared σ}
    (h : ∀ v ∈ states (moves.map Move.act) w, Orderly v) :
    ∀ m ∈ trace (moves.map Move.act) w, ownParent m.1 = false := by
  induction moves generalizing w with
  | nil => exact List.forall_mem_nil _
  | cons m rest ih =>
    have hrest : ∀ v ∈ states (rest.map Move.act) (m.act w).2, Orderly v :=
      (List.forall_mem_cons.mp h).2
    have hnext : Orderly (m.act w).2 := hrest _ (mem_states ..)
    exact List.forall_mem_cons.mpr ⟨laws.not_ownParent_of_intact hnext.intact, ih hrest⟩

end Lawful

/-! ## Races on the two ledgers -/

/-- In memory a start keeps the histories whole whatever its parent, since the checks refuse a
parent that is not there. -/
theorem MemoryLedger.whole_join (s : Start) {w : Shared MemoryLedger} (hw : Whole w.ledger) :
    Whole ((Move.join s).act w).2.ledger := by
  rcases lawful.join_cases s w with ⟨e, hact⟩ | ⟨schema, parent, r, l', -, htaken, hact⟩
  · rw [hact]
    exact hw
  · have hinsert : insert s.now (s.record schema parent) w.ledger = (.ok r, l') := htaken
    have hkeeps := keeps_insert s.now (s.record schema parent) w.ledger hw
    rw [hact]
    rwa [hinsert] at hkeeps

theorem MemoryLedger.not_ownParent (moves : List Move) {w : Shared MemoryLedger}
    (hw : Whole w.ledger) : ∀ m ∈ trace (moves.map Move.act) w, ownParent m.1 = false := by
  induction moves generalizing w with
  | nil => exact List.forall_mem_nil _
  | cons m rest ih =>
    have hown : ownParent (m.act w).1 = false := by
      rw [← Bool.not_eq_true]
      intro hown
      obtain ⟨s, -, rfl, -⟩ := lawful.join_of_ownParent hown
      rw [lawful.not_ownParent_of_intact (whole_join s hw)] at hown
      nomatch hown
    exact List.forall_mem_cons.mpr ⟨hown, ih (lawful.whole_act hw hown)⟩

/-- **Racing starts.** Clients read tips, start migrations under what they read, complete them and
roll them back, all in any order, on a ledger whose histories are whole. In memory, everything is in
order at every moment: each history stays one chain with at most one migration in progress, refused
starts change nothing, between two starts of a schema the first migration was completed or rolled
back, and of several starts from one tip all but the first are told of the migration in progress.
In a database the same holds exactly if no start joins as its own parent. -/
theorem racing_starts (moves : List Move) :
    (∀ w : Shared MemoryLedger, MemoryLedger.Whole w.ledger →
      ∀ v ∈ states (moves.map Move.act) w, Orderly v) ∧
    ∀ w : Shared Database, Database.Sound w.ledger →
      ((∀ v ∈ states (moves.map Move.act) w, Orderly v) ↔
        ∀ m ∈ trace (moves.map Move.act) w, ownParent m.1 = false) := by
  constructor
  · intro w hw
    exact MemoryLedger.lawful.orderly_of_not_ownParent hw (MemoryLedger.not_ownParent moves hw)
  · intro w hw
    exact ⟨Database.lawful.not_ownParent_of_orderly,
      Database.lawful.orderly_of_not_ownParent hw⟩

/-- Of two starts from one tip the second one is refused; it goes through once the first migration
is completed. -/
theorem racing_starts_of_two_clients :
    let moves : List Move :=
      [.look 0 "public", .look 1 "public", .join ⟨0, ⟨0, some 0⟩, "a", {}⟩,
        .join ⟨1, ⟨1, some 0⟩, "b", {}⟩,
        .complete ⟨2, some 0⟩ (fun _ => .ok (.map [])) "public" "a",
        .look 1 "public", .join ⟨1, ⟨3, some 0⟩, "b", {}⟩]
    let m : Shared MemoryLedger := { ledger := .empty }
    let d : Shared Database := { ledger := .installed }
    (trace (moves.map Move.act) m).map (fun x => (contents x.2.ledger).length) =
      [0, 0, 1, 1, 1, 1, 2] ∧
    MemoryLedger.Whole m.ledger ∧ Database.Sound d.ledger ∧
    (∀ x ∈ trace (moves.map Move.act) d, ownParent x.1 = false) ∧
    (∀ v ∈ states (moves.map Move.act) m, Orderly v) ∧
    ∀ v ∈ states (moves.map Move.act) d, Orderly v := by
  intro moves m d
  have hm : MemoryLedger.Whole m.ledger := Intact.nil
  have hd : Database.Sound d.ledger := ⟨{}, rfl, Intact.nil⟩
  have hown : ∀ x ∈ trace (moves.map Move.act) d, ownParent x.1 = false := by decide
  exact ⟨by decide, hm, hd, hown, (racing_starts moves).1 m hm,
    ((racing_starts moves).2 d hd).mpr hown⟩

/-- One client starts a migration, another one reads it as the tip, the first one rolls it back, and
the second one starts a migration of the same name: on the table it joins as its own parent. -/
theorem own_parent_after_rollback :
    ¬ ∀ (moves : List Move) (w : Shared Database), Database.Sound w.ledger →
      Intact (contents (after (moves.map Move.act) w).ledger) := by
  intro h
  let moves : List Move :=
    [.look 0 "public", .join ⟨0, ⟨0, some 0⟩, "a", {}⟩, .look 1 "public", .check 0 "public" "a",
      .remove 0, .join ⟨1, ⟨1, some 0⟩, "a", {}⟩]
  let w : Shared Database := { ledger := .installed }
  have hintact : Intact (contents (after (moves.map Move.act) w).ledger) :=
    h moves w ⟨{}, rfl, Intact.nil⟩
  have hself : ∃ r ∈ contents (after (moves.map Move.act) w).ledger,
      r.parent = some r.name := by decide
  obtain ⟨r, hr, hparent⟩ := hself
  exact hintact.parent_ne_self hr hparent

end SchemaLedger
