import SchemaLedger.Proofs.Ledger.Clients

/-!
# A completion against a rollback

One client rolls a migration back while another one completes it. The rollback makes sure that the
migration is not done, and then deletes it; the deletion does not look again. So a completion that
comes in between is lost: it succeeds, the rollback succeeds as well, and the record is gone
(`completion_lost`).

This file says that this is the only way to lose one. Of the three orders in which the moves can
come, the other two end with the record in place and a rollback that failed: after the completion
the check refuses, and after the deletion there is nothing to complete. And even in between, a
record with a child stays (`lost_completion_iff`).
-/

namespace SchemaLedger

open Attempt SharedLedger

/-! ## Single records -/

namespace Table

variable {rows : Table} {schema name : String}

theorem row?_removed :
    row? (rows.filter fun r => !(r.schema = schema && r.name = name)) schema name = none := by
  refine List.find?_eq_none.mpr fun r hr => ?_
  simpa only [Bool.not_eq_true', Bool.not_eq_true] using (List.mem_filter.mp hr).2

/-- Changes of records at their places leave it open who has a child. -/
theorem childless_updateRow {f : Record → Record} (hf : KeepsPlace f) :
    (∀ r ∈ ofSchema (updateRow rows schema name f) schema, r.parent ≠ some name) ↔
      ∀ r ∈ ofSchema rows schema, r.parent ≠ some name := by
  have hkey := hf.onKey schema name
  rw [ofSchema, updateRow, hkey.filter_schema, List.forall_mem_map]
  simp only [hkey.parent]
  rfl

end Table

/-! ## The moves against each other -/

/-- One client rolls a migration back while another one completes it. -/
structure Contest where
  client : Nat
  now : Moment
  snapshot : String → Except Failure Value
  schema : String
  name : String

namespace Contest

variable (c : Contest)

/-- The first half of the rollback. -/
def check : Move := .check c.client c.schema c.name

/-- The second half of the rollback. -/
def remove : Move := .remove c.client

/-- The completion. -/
def complete : Move := .complete c.now c.snapshot c.schema c.name

/-- The three moves are different ones. -/
theorem moves_ne :
    (c.check ≠ c.complete ∧ c.check ≠ c.remove) ∧ (c.complete ≠ c.check ∧ c.complete ≠ c.remove) ∧
      c.remove ≠ c.check ∧ c.remove ≠ c.complete := by
  simp [check, complete, remove]

/-- The record of the migration. -/
def row? {σ : Type} [SharedLedger σ] (w : Shared σ) : Option Record :=
  Table.row? (contents w.ledger) c.schema c.name

/-- No record has the migration as its parent. -/
def Childless {σ : Type} [SharedLedger σ] (w : Shared σ) : Prop :=
  ∀ r ∈ Table.ofSchema (contents w.ledger) c.schema, r.parent ≠ some c.name

end Contest

variable {σ : Type} [SharedLedger σ]

/-- Somewhere in a run a move goes through. -/
def WentThrough (m : Move) : List Move → Shared σ → Prop
  | [], _ => False
  | x :: rest, w => (x = m ∧ ∃ a, (x.act w).1 = .ok a) ∨ WentThrough m rest (x.act w).2

/-- What becomes of a migration that was completed while another client rolled it back. -/
structure Fate (c : Contest) (moves : List Move) (w : Shared σ) : Prop where
  /-- It is lost exactly if the completion came between a check that passed and the removal of a
  record without a child. -/
  lost_iff : c.row? (after (moves.map Move.act) w) = none ↔
    moves = [c.check, c.complete, c.remove] ∧ WentThrough c.check moves w ∧ c.Childless w
  /-- The rollback goes through exactly if the migration is lost. -/
  rolledBack_iff : WentThrough c.remove moves w ↔ c.row? (after (moves.map Move.act) w) = none
  /-- If it is not lost, it is there and done. -/
  kept : ∀ r, c.row? (after (moves.map Move.act) w) = some r → r.done = true

namespace Lawful

variable {Whole : σ → Prop} (laws : Lawful σ Whole) (c : Contest)

include laws

/-- A check finds an open migration and remembers it, or it fails and remembers nothing. -/
theorem check_cases (w : Shared σ) :
    (∃ e v, c.check.act w = (.error e, v) ∧ v.ledger = w.ledger ∧ v.found c.client = .nothing) ∨
      ∃ v r, c.check.act w = (.ok none, v) ∧ v.ledger = w.ledger ∧
        v.found c.client = .inProgress c.schema c.name ∧ c.row? w = some r ∧ r.done = false := by
  have hkeeps := laws.check_keeps c.schema c.name w.ledger
  rw [Contest.check, Move.check_apply]
  rcases hcheck : transaction (Lifecycle.checkOpen c.schema c.name) w.ledger with ⟨e | u, l⟩
  · rw [hcheck] at hkeeps
    exact .inl ⟨e, _, rfl, hkeeps, if_pos rfl⟩
  · rw [hcheck] at hkeeps
    obtain ⟨r, hr, hopen⟩ := laws.check_ok hcheck
    exact .inr ⟨_, r, rfl, hkeeps, if_pos rfl, hr, hopen⟩

/-- A completion that goes through found the migration open and leaves it done. -/
theorem complete_ok {w : Shared σ} {a : Option Record} (h : (c.complete.act w).1 = .ok a) :
    ∃ v q r, (c.complete.act w).2 = v ∧ v.found = w.found ∧ c.row? w = some q ∧ q.done = false ∧
      c.row? v = some r ∧ r.done = true ∧ (c.Childless v ↔ c.Childless w) := by
  obtain ⟨f, hf, hcontents, hok⟩ :=
    laws.complete_changes c.now c.snapshot c.schema c.name w.ledger
  rw [Contest.complete, Move.complete_apply] at h ⊢
  cases hanswer :
    (transaction (Lifecycle.complete c.now c.snapshot c.schema c.name) w.ledger).1 with
  | error e => simp [hanswer, Except.map] at h
  | ok r =>
    obtain ⟨⟨q, hq, hopen⟩, hdone⟩ := hok r hanswer
    refine ⟨_, q, f q, rfl, rfl, hq, hopen, ?_, hdone q, ?_⟩
    · rw [Contest.row?, hcontents, Table.row?_updateRow hf, hq]
      rfl
    · rw [Contest.Childless, hcontents]
      exact Table.childless_updateRow hf

omit laws in
/-- Without a check that passed there is no removal. -/
theorem remove_of_nothing {w : Shared σ} (h : w.found c.client = .nothing) :
    c.remove.act w = (.error .invalidRequest, w) := by
  rw [Contest.remove, Move.remove_apply, h]

/-- After a check that passed, the migration is removed exactly if no record has it as its
parent. -/
theorem remove_of_inProgress {w : Shared σ} (hw : Whole w.ledger)
    (h : w.found c.client = .inProgress c.schema c.name) {r : Record} (hr : c.row? w = some r) :
    (c.Childless w ∧ ∃ v, c.remove.act w = (.ok none, v) ∧ c.row? v = none) ∨
      (¬ c.Childless w ∧ ∃ e, c.remove.act w = (.error e, w)) := by
  have hiff := laws.delete_iff hw hr
  rcases laws.remove_cases c.client w with ⟨e, hact⟩ | ⟨schema, name, l', hfound, htaken, hact⟩
  · refine .inr ⟨fun hchildless => ?_, e, hact⟩
    have htaken := hiff.mpr hchildless
    rw [Move.remove_apply, h] at hact
    simp [htaken, Except.map] at hact
  · rw [h, Finding.inProgress.injEq] at hfound
    obtain ⟨rfl, rfl⟩ := hfound
    refine .inl ⟨hiff.mp (by rw [htaken]), _, hact, ?_⟩
    show Table.row? (contents l') c.schema c.name = none
    rw [(laws.delete_ok htaken).2]
    exact Table.row?_removed

omit laws in
/-- Where the migration is there and done in the end, and the rollback failed, nothing is lost. -/
theorem fate_of_kept {moves : List Move} {w : Shared σ} {r : Record}
    (hr : c.row? (after (moves.map Move.act) w) = some r) (hdone : r.done = true)
    (hfailed : ¬ WentThrough c.remove moves w)
    (hsafe : ¬ (moves = [c.check, c.complete, c.remove] ∧ WentThrough c.check moves w ∧
      c.Childless w)) : Fate c moves w where
  lost_iff := by
    rw [hr]
    exact ⟨nofun, fun h => absurd h hsafe⟩
  rolledBack_iff := by
    rw [hr]
    exact ⟨fun h => absurd h hfailed, nofun⟩
  kept := by
    intro r' hr'
    rw [hr, Option.some.injEq] at hr'
    rwa [← hr']

/-- After the completion the check refuses, so nothing is removed. -/
theorem fate_of_complete_first {w : Shared σ} (hdone : ∃ a, (c.complete.act w).1 = .ok a) :
    Fate c [c.complete, c.check, c.remove] w := by
  obtain ⟨a, ha⟩ := hdone
  obtain ⟨v, -, r, hv, -, -, -, hr, hrdone, -⟩ := laws.complete_ok c ha
  rcases laws.check_cases c v with ⟨e, v', hcheck, hledger, hnothing⟩ | ⟨_, r', -, -, -, hr', hopen⟩
  · have hremove := remove_of_nothing c hnothing
    refine fate_of_kept c (r := r) ?_ hrdone ?_ ?_
    · simp only [List.map, after, hv, hcheck, hremove]
      rwa [Contest.row?, hledger]
    · simp [WentThrough, c.moves_ne, hv, hcheck, hremove]
    · simp [c.moves_ne]
  · -- the migration would be open and done
    rw [hr, Option.some.injEq] at hr'
    rw [← hr', hrdone] at hopen
    nomatch hopen

/-- A completion that comes last finds the migration, so it was not removed. -/
theorem fate_of_complete_last {w : Shared σ} (hw : Whole w.ledger)
    (hdone : ∃ a, (c.complete.act (c.remove.act (c.check.act w).2).2).1 = .ok a) :
    Fate c [c.check, c.remove, c.complete] w := by
  obtain ⟨a, ha⟩ := hdone
  obtain ⟨v, q, r, hv, -, hq, -, hr, hrdone, -⟩ := laws.complete_ok c ha
  have hfailed : ∃ e, (c.remove.act (c.check.act w).2).1 = .error e := by
    rcases laws.check_cases c w with ⟨e, u, hcheck, -, hnothing⟩ |
      ⟨u, p, hcheck, hledger, hfound, hp, -⟩
    · rw [hcheck, remove_of_nothing c hnothing]
      exact ⟨_, rfl⟩
    · have hp' : c.row? u = some p := by rwa [Contest.row?, hledger]
      rcases laws.remove_of_inProgress c (hledger ▸ hw) hfound hp' with
        ⟨-, v', hremove, hgone⟩ | ⟨-, e, hremove⟩
      · rw [hcheck, hremove, hgone] at hq
        nomatch hq
      · rw [hcheck, hremove]
        exact ⟨e, rfl⟩
  obtain ⟨e, he⟩ := hfailed
  refine fate_of_kept c (r := r) ?_ hrdone ?_ ?_
  · rw [← hr, ← hv]
    rfl
  · simp [WentThrough, c.moves_ne, he]
  · simp [c.moves_ne]

/-- In between, everything depends on the check that was made before and on children. -/
theorem fate_of_complete_between {w : Shared σ} (hw : Whole w.ledger)
    (hdone : ∃ a, (c.complete.act (c.check.act w).2).1 = .ok a) :
    Fate c [c.check, c.complete, c.remove] w := by
  obtain ⟨a, ha⟩ := hdone
  obtain ⟨v, q, r, hv, hfoundv, -, -, hr, hrdone, hchildless⟩ := laws.complete_ok c ha
  rcases laws.check_cases c w with ⟨e, u, hcheck, -, hnothing⟩ |
    ⟨u, p, hcheck, hledger, hfound, -, -⟩
  · rw [hcheck] at hv hfoundv
    have hremove : c.remove.act v = (.error .invalidRequest, v) :=
      remove_of_nothing c (by rw [hfoundv, hnothing])
    refine fate_of_kept c (r := r) ?_ hrdone ?_ ?_
    · simp only [List.map, after, hcheck, hv, hremove]
      exact hr
    · simp [WentThrough, c.moves_ne, hcheck, hv, hremove]
    · simp [WentThrough, c.moves_ne, hcheck]
  · rw [hcheck] at hv hfoundv hchildless
    have hwhole : Whole v.ledger := by
      rw [← hv, Contest.complete, Move.complete_apply]
      exact laws.complete_whole _ _ _ _ u.ledger (hledger ▸ hw)
    have hw' : c.Childless v ↔ c.Childless w := by
      rw [hchildless, Contest.Childless, hledger]
      rfl
    rcases laws.remove_of_inProgress c hwhole (by rw [hfoundv, hfound]) hr with
      ⟨hfree, v', hremove, hgone⟩ | ⟨hchild, e, hremove⟩
    · have hend : after ([c.check, c.complete, c.remove].map Move.act) w = v' := by
        simp only [List.map, after, hcheck, hv, hremove]
      have hcheckWent : WentThrough c.check [c.check, c.complete, c.remove] w := by
        simp [WentThrough, hcheck]
      have hremoveWent : WentThrough c.remove [c.check, c.complete, c.remove] w := by
        simp [WentThrough, c.moves_ne, hcheck, hv, hremove]
      rw [← hend] at hgone
      refine ⟨⟨fun _ => ⟨rfl, hcheckWent, hw'.mp hfree⟩, fun _ => hgone⟩,
        ⟨fun _ => hgone, fun _ => hremoveWent⟩, ?_⟩
      intro r' hr'
      rw [hgone] at hr'
      nomatch hr'
    · refine fate_of_kept c (r := r) ?_ hrdone ?_ ?_
      · simp only [List.map, after, hcheck, hv, hremove]
        exact hr
      · simp [WentThrough, c.moves_ne, hcheck, hv, hremove]
      · rw [← hw']
        exact fun h => hchild h.2.2

theorem fate {moves : List Move} (hmoves : Interleaves [c.check, c.remove] [c.complete] moves)
    {w : Shared σ} (hw : Whole w.ledger) (hdone : WentThrough c.complete moves w) :
    Fate c moves w := by
  rcases interleaves_pair_single.mp hmoves with rfl | rfl | rfl
  · exact laws.fate_of_complete_first c (by simpa [WentThrough, c.moves_ne] using hdone)
  · exact laws.fate_of_complete_between c hw (by simpa [WentThrough, c.moves_ne] using hdone)
  · exact laws.fate_of_complete_last c hw (by simpa [WentThrough, c.moves_ne] using hdone)

end Lawful

/-- **A completion is lost only between the check and the removal.** However the rollback of one
client and the completion of another one interleave, on either ledger and in whatever state its
whole histories are: if the completion succeeds, its record is lost exactly if the completion came
between a check that passed and the removal and the record has no child. The rollback succeeds
exactly then, and otherwise the record is there and done. -/
theorem lost_completion_iff (c : Contest) {moves : List Move}
    (hmoves : Interleaves [c.check, c.remove] [c.complete] moves) :
    (∀ w : Shared MemoryLedger, MemoryLedger.Whole w.ledger → WentThrough c.complete moves w →
      Fate c moves w) ∧
    ∀ w : Shared Database, Database.Sound w.ledger → WentThrough c.complete moves w →
      Fate c moves w :=
  ⟨fun _ hw hdone => MemoryLedger.lawful.fate c hmoves hw hdone,
    fun _ hw hdone => Database.lawful.fate c hmoves hw hdone⟩

/-- A completion that comes first is not lost. -/
theorem lost_completion_iff_of_refused_check :
    let c : Contest := ⟨0, ⟨1, some 0⟩, fun _ => .ok (.map []), "public", "a"⟩
    let moves : List Move := [c.complete, c.check, c.remove]
    let r : Record := { schema := "public", name := "a" }
    let m : Shared MemoryLedger := { ledger := ⟨[r]⟩ }
    let d : Shared Database := { ledger := ⟨some { migrations := [r] }⟩ }
    Interleaves [c.check, c.remove] [c.complete] moves ∧
    MemoryLedger.Whole m.ledger ∧ Database.Sound d.ledger ∧
    WentThrough c.complete moves m ∧ WentThrough c.complete moves d ∧
    (c.row? (after (moves.map Move.act) d)).map (·.done) = some true ∧
    Fate c moves m ∧ Fate c moves d := by
  intro c moves r m d
  have hmoves : Interleaves [c.check, c.remove] [c.complete] moves :=
    interleaves_pair_single.mpr (.inl rfl)
  have hr : Intact [r] := Intact.nil.append (by decide)
  have hm : WentThrough c.complete moves m := .inl ⟨rfl, none, rfl⟩
  have hd : WentThrough c.complete moves d := .inl ⟨rfl, none, by decide⟩
  have hsound : Database.Sound d.ledger := ⟨_, rfl, hr⟩
  exact ⟨hmoves, hr, hsound, hm, hd, by decide,
    (lost_completion_iff c hmoves).1 m hr hm, (lost_completion_iff c hmoves).2 d hsound hd⟩

/-- A migration is found open, then completed, and then removed all the same. -/
theorem completion_lost :
    ¬ ∀ (c : Contest) (moves : List Move) (w : Shared Database),
      Interleaves [c.check, c.remove] [c.complete] moves → Database.Sound w.ledger →
      WentThrough c.complete moves w →
      (∃ r, c.row? (after (moves.map Move.act) w) = some r ∧ r.done = true) ∧
        ¬ WentThrough c.remove moves w := by
  intro h
  let c : Contest := ⟨0, ⟨1, some 0⟩, fun _ => .ok (.map []), "public", "a"⟩
  let moves : List Move := [c.check, c.complete, c.remove]
  let r : Record := { schema := "public", name := "a" }
  let w : Shared Database := { ledger := ⟨some { migrations := [r] }⟩ }
  have hmoves : Interleaves [c.check, c.remove] [c.complete] moves :=
    interleaves_pair_single.mpr (.inr (.inl rfl))
  have hsound : Database.Sound w.ledger := ⟨_, rfl, Intact.nil.append (by decide)⟩
  have hdone : WentThrough c.complete moves w := .inr (.inl ⟨rfl, none, by decide⟩)
  obtain ⟨⟨q, hq, -⟩, -⟩ := h c moves w hmoves hsound hdone
  have hgone : c.row? (after (moves.map Move.act) w) = none := by decide
  rw [hgone] at hq
  nomatch hq

end SchemaLedger
