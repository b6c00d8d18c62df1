import Mathlib.Data.Set.Card
import SchemaLedger.Inference.Recorder
import SchemaLedger.Ledger.Database
import SchemaLedger.Ledger.Memory

/-!
# Drawing a label that is not in use

The recorder draws labels until it comes to one that no record of the schema has. Labels may be drawn
repeatedly, and a record without a label of its own has its name for one.

The draws go through the labels in use and stop at the first other one (`drawFresh_first`). There is
one if the labels are more than the records, counted without repetitions (`exists_unused`), so the
draws end even where labels never run out (`first_unused_label_drawn`).
-/

namespace SchemaLedger

open Attempt

namespace Recorder

/-- A label that some record has. -/
def InUse (records : List Record) (label : String) : Prop := ∃ r ∈ records, r.label = label

instance (records : List Record) : DecidablePred (InUse records) :=
  fun label => inferInstanceAs (Decidable (∃ r ∈ records, r.label = label))

variable {taken labels passed : List String} {label : String} {records : List Record}

/-! ## The draws -/

/-- Labels in use are drawn and passed over. -/
theorem drawFresh_append (hpassed : ∀ x ∈ passed, x ∈ taken) (rest : List String) :
    drawFresh taken (passed ++ rest) =
      (List.replicate passed.length .label ++ (drawFresh taken rest).1,
        (drawFresh taken rest).2) := by
  induction passed with
  | nil => rfl
  | cons x passed ih =>
    obtain ⟨hx, hpassed⟩ := List.forall_mem_cons.mp hpassed
    rw [List.cons_append, drawFresh, if_pos hx, ih hpassed]
    rfl

/-- The draws stop at the first label that is not in use. -/
theorem drawFresh_first (hpassed : ∀ x ∈ passed, x ∈ taken) (hfree : label ∉ taken)
    (left : List String) :
    drawFresh taken (passed ++ label :: left) =
      (List.replicate (passed.length + 1) .label, left, some label) := by
  rw [drawFresh_append hpassed, drawFresh, if_neg hfree, List.replicate_succ']

/-- If all labels are in use, one is asked for in vain after the last of them. -/
theorem drawFresh_exhausted (hlabels : ∀ x ∈ labels, x ∈ taken) :
    drawFresh taken labels = (List.replicate (labels.length + 1) .label, [], none) := by
  have h := drawFresh_append hlabels []
  rw [List.append_nil] at h
  rw [h, drawFresh, List.replicate_succ']

/-- A list that has an element without a property goes on to the first such element. -/
theorem exists_first_without {p : String → Prop} (h : ∃ x ∈ labels, ¬ p x) :
    ∃ passed label left, labels = passed ++ label :: left ∧ (∀ x ∈ passed, p x) ∧ ¬ p label := by
  classical
  have hsome : (labels.find? (¬ p ·)).isSome = true := by simpa using h
  obtain ⟨label, hlabel⟩ := Option.isSome_iff_exists.mp hsome
  obtain ⟨hfirst, passed, left, rfl, hpassed⟩ := List.find?_eq_some_iff_append.mp hlabel
  exact ⟨passed, label, left, rfl, by simpa using hpassed, by simpa using hfirst⟩

/-! ## The fresh label of a schema -/

section Ledger

variable {σ : Type}

theorem onLedger_ok {α : Type} {x : Action σ α} {d : Desk σ} {a : α} {now : σ}
    (h : x d.ledger = (.ok a, now)) : onLedger x d = (.ok a, { d with ledger := now }) := by
  rw [onLedger, within, h]

variable [LedgerStore σ] {schema : String} {ledger : σ}

/-- The draws are made with the labels of the records in view. -/
theorem freshLabel_eq (h : LedgerStore.records schema ledger = (.ok records, ledger))
    (labels : List String) (requests : List Request) :
    ∃ taken : List String, (∀ x, x ∈ taken ↔ InUse records x) ∧
      freshLabel schema ⟨ledger, labels, requests⟩ = drawLabel taken ⟨ledger, labels, requests⟩ := by
  refine ⟨Text.sortedDistinct (records.map (·.label)),
    fun x => Text.mem_sortedDistinct.trans List.mem_map, ?_⟩
  have hask : LedgerStore.versionLabels schema ledger =
      (.ok (Text.sortedDistinct (records.map (·.label))), ledger) := by
    rw [LedgerStore.versionLabels, bind_ok h, pure_apply]
  rw [freshLabel, bind_ok (onLedger_ok hask)]

theorem freshLabel_first (h : LedgerStore.records schema ledger = (.ok records, ledger))
    (hpassed : ∀ x ∈ passed, InUse records x) (hfree : ¬ InUse records label)
    (left : List String) (requests : List Request) :
    freshLabel schema ⟨ledger, passed ++ label :: left, requests⟩ =
      (.ok label, ⟨ledger, left, requests ++ List.replicate (passed.length + 1) .label⟩) := by
  obtain ⟨taken, htaken, heq⟩ := freshLabel_eq h (passed ++ label :: left) requests
  have hdraw := drawFresh_first (fun x hx => (htaken x).mpr (hpassed x hx))
    (mt (htaken label).mp hfree) left
  rw [heq, drawLabel, hdraw]

theorem freshLabel_exhausted (h : LedgerStore.records schema ledger = (.ok records, ledger))
    (hlabels : ∀ x ∈ labels, InUse records x) (requests : List Request) :
    freshLabel schema ⟨ledger, labels, requests⟩ =
      (.error .noLabelLeft,
        ⟨ledger, [], requests ++ List.replicate (labels.length + 1) .label⟩) := by
  obtain ⟨taken, htaken, heq⟩ := freshLabel_eq h labels requests
  rw [heq, drawLabel, drawFresh_exhausted fun x hx => (htaken x).mpr (hlabels x hx)]

/-- An answer comes with the labels up to it drawn, and no others. -/
theorem freshLabel_eq_ok_iff (h : LedgerStore.records schema ledger = (.ok records, ledger))
    {labels : List String} {requests : List Request} {after : Desk σ} :
    freshLabel schema ⟨ledger, labels, requests⟩ = (.ok label, after) ↔
      ∃ passed left, labels = passed ++ label :: left ∧ (∀ x ∈ passed, InUse records x) ∧
        ¬ InUse records label ∧
        after = ⟨ledger, left, requests ++ List.replicate (passed.length + 1) .label⟩ := by
  constructor
  · intro hanswer
    by_cases hall : ∀ x ∈ labels, InUse records x
    · rw [freshLabel_exhausted h hall] at hanswer
      nomatch hanswer
    · push Not at hall
      obtain ⟨passed, first, left, rfl, hpassed, hfree⟩ := exists_first_without hall
      rw [freshLabel_first h hpassed hfree] at hanswer
      obtain ⟨hlabel, hafter⟩ := Prod.mk.inj hanswer
      obtain rfl := Except.ok.inj hlabel
      exact ⟨passed, left, rfl, hpassed, hfree, hafter.symm⟩
  · rintro ⟨passed, left, rfl, hpassed, hfree, rfl⟩
    exact freshLabel_first h hpassed hfree left requests

/-! ## Enough labels -/

/-- Among more labels than there are records, one is not in use. -/
theorem exists_unused {supply : Set String} (h : (records.length : ℕ∞) < supply.encard) :
    ∃ x ∈ supply, ¬ InUse records x := by
  by_contra hnone
  have hsub : supply ⊆ ((records.map (·.label)).toFinset : Set String) := by
    intro x hx
    rw [Finset.mem_coe, List.mem_toFinset, List.mem_map]
    exact not_not.mp fun hfree => hnone ⟨x, hx, hfree⟩
  have hle : supply.encard ≤ (records.length : ℕ∞) :=
    calc supply.encard
      _ ≤ ((records.map (·.label)).toFinset : Set String).encard := Set.encard_le_encard hsub
      _ = ((records.map (·.label)).toFinset.card : ℕ∞) := Set.encard_coe_eq_coe_finsetCard _
      _ ≤ ((records.map (·.label)).length : ℕ∞) := by
        exact_mod_cast List.toFinset_card_le _
      _ = (records.length : ℕ∞) := by rw [List.length_map]
  exact absurd h (not_lt.mpr hle)

theorem exists_freshLabel (h : LedgerStore.records schema ledger = (.ok records, ledger))
    (hmore : records.length < labels.toFinset.card) (requests : List Request) :
    ∃ label after, freshLabel schema ⟨ledger, labels, requests⟩ = (.ok label, after) := by
  have hcard : (records.length : ℕ∞) < (labels.toFinset : Set String).encard := by
    rw [Set.encard_coe_eq_coe_finsetCard]
    exact_mod_cast hmore
  obtain ⟨x, hx, hunused⟩ := exists_unused hcard
  obtain ⟨passed, label, left, rfl, hpassed, hfree⟩ :=
    exists_first_without ⟨x, List.mem_toFinset.mp hx, hunused⟩
  exact ⟨label, _, freshLabel_first h hpassed hfree left requests⟩

/-- Where labels never run out, the draws end at the least number of an unused one. -/
theorem exists_freshLabel_of_endless
    (h : LedgerStore.records schema ledger = (.ok records, ledger)) {supply : ℕ → String}
    (hmore : (records.length : ℕ∞) < (Set.range supply).encard) (requests : List Request) :
    ∃ n, (∀ i < n, InUse records (supply i)) ∧ ¬ InUse records (supply n) ∧
      ∀ left, freshLabel schema ⟨ledger, (List.range (n + 1)).map supply ++ left, requests⟩ =
        (.ok (supply n), ⟨ledger, left, requests ++ List.replicate (n + 1) .label⟩) := by
  obtain ⟨_, ⟨m, rfl⟩, hm⟩ := exists_unused hmore
  have hex : ∃ n, ¬ InUse records (supply n) := ⟨m, hm⟩
  have hbefore : ∀ i < Nat.find hex, InUse records (supply i) :=
    fun i hi => not_not.mp (Nat.find_min hex hi)
  refine ⟨Nat.find hex, hbefore, Nat.find_spec hex, fun left => ?_⟩
  have hpassed : ∀ x ∈ (List.range (Nat.find hex)).map supply, InUse records x := by
    intro x hx
    obtain ⟨i, hi, rfl⟩ := List.mem_map.mp hx
    exact hbefore i (List.mem_range.mp hi)
  have hdrawn := freshLabel_first h hpassed (Nat.find_spec hex) left requests
  rw [List.length_map, List.length_range] at hdrawn
  rwa [List.range_succ, List.map_append, List.append_assoc]

end Ledger

/-! ## The search -/

/-- What the search for a fresh label gives in a ledger where a schema has the given records. -/
structure DrawsFirstUnused {σ : Type} [LedgerStore σ] (schema : String) (ledger : σ)
    (records : List Record) : Prop where
  /-- The answer is the first label that no record has, with the labels up to it drawn. -/
  found : ∀ labels requests label after,
    freshLabel schema ⟨ledger, labels, requests⟩ = (.ok label, after) ↔
      ∃ passed left, labels = passed ++ label :: left ∧ (∀ x ∈ passed, InUse records x) ∧
        ¬ InUse records label ∧
        after = ⟨ledger, left, requests ++ List.replicate (passed.length + 1) .label⟩
  /-- Without such a label all of them are drawn, and one more is asked for. -/
  exhausted : ∀ labels requests, (∀ x ∈ labels, InUse records x) →
    freshLabel schema ⟨ledger, labels, requests⟩ =
      (.error .noLabelLeft, ⟨ledger, [], requests ++ List.replicate (labels.length + 1) .label⟩)
  /-- There is an answer if there are more different labels than records. -/
  enough : ∀ labels requests, records.length < labels.toFinset.card →
    ∃ label after, freshLabel schema ⟨ledger, labels, requests⟩ = (.ok label, after)
  /-- The same holds of labels that never run out: the answer is the first one that no record has,
  and what comes behind it is not looked at. -/
  endless : ∀ (supply : ℕ → String) requests,
    (records.length : ℕ∞) < (Set.range supply).encard →
      ∃ n, (∀ i < n, InUse records (supply i)) ∧ ¬ InUse records (supply n) ∧
        ∀ left, freshLabel schema ⟨ledger, (List.range (n + 1)).map supply ++ left, requests⟩ =
          (.ok (supply n), ⟨ledger, left, requests ++ List.replicate (n + 1) .label⟩)

theorem drawsFirstUnused {σ : Type} [LedgerStore σ] {schema : String} {ledger : σ}
    (h : LedgerStore.records schema ledger = (.ok records, ledger)) :
    DrawsFirstUnused schema ledger records where
  found _ _ _ _ := freshLabel_eq_ok_iff h
  exhausted _ requests hlabels := freshLabel_exhausted h hlabels requests
  enough _ requests hmore := exists_freshLabel h hmore requests
  endless _ requests hmore := exists_freshLabel_of_endless h hmore requests

/-- **The search for a fresh label ends, and it is right.** In every ledger in memory, and in every
table that can be read, the answer is the first of the labels that no record of the schema has, and
the labels up to it are the ones that have been drawn. There is an answer whenever there are more
different labels than the schema has records. -/
theorem first_unused_label_drawn (schema : String) :
    (∀ l : MemoryLedger, DrawsFirstUnused schema l (l.ofSchema schema)) ∧
      ∀ (d : Database) (records : List Record),
        LedgerStore.records schema d = (.ok records, d) → DrawsFirstUnused schema d records :=
  ⟨fun _ => drawsFirstUnused rfl, fun _ _ h => drawsFirstUnused h⟩

/-- One record declares its label and one has its name for a label. Both are drawn, one of them
twice; the label of a record of another schema is free. -/
theorem first_unused_label_drawn_of_repeated_draws :
    let create : Record := { schema := "public", name := "01_create", done := true }
    let step : Record :=
      { schema := "public", name := "02_step", parent := some "01_create", done := true
        migration := inferredPayload "create table t ()" "sql_1", migrationType := "inferred" }
    let other : Record := { schema := "billing", name := "sql_2" }
    let l : MemoryLedger := ⟨[create, step, other]⟩
    let d : Database := ⟨some { migrations := [create, other, step] }⟩
    let labels := ["sql_1", "01_create", "sql_1", "sql_2", "sql_3"]
    let supply : ℕ → String := fun n => if n < 3 then "sql_2" else "sql_3"
    (l.ofSchema "public").length < labels.toFinset.card ∧
      (∃ label after, freshLabel "public" ⟨l, labels, []⟩ = (.ok label, after)) ∧
      freshLabel "public" ⟨l, labels, []⟩ =
        (.ok "sql_2", ⟨l, ["sql_3"], [.label, .label, .label, .label]⟩) ∧
      LedgerStore.records "public" d = (.ok [create, step.asJson], d) ∧
      freshLabel "public" ⟨d, labels, []⟩ =
        (.ok "sql_2", ⟨d, ["sql_3"], [.label, .label, .label, .label]⟩) ∧
      ((l.ofSchema "billing").length : ℕ∞) < (Set.range supply).encard ∧
      ∃ n, freshLabel "billing" ⟨l, (List.range (n + 1)).map supply, []⟩ =
        (.ok (supply n), ⟨l, [], List.replicate (n + 1) .label⟩) := by
  intro create step other l d labels supply
  have hl := (first_unused_label_drawn "public").1 l
  have hmore : (l.ofSchema "public").length < labels.toFinset.card := by decide
  have hrecords : LedgerStore.records "public" d = (.ok [create, step.asJson], d) := by
    have hsorted : [create, step].Pairwise fun r s => Table.createdBefore r s = true := by decide
    have hrows : (Table.ofSchema d.rows "public").mergeSort Table.createdBefore =
        [create, step] := List.mergeSort_of_pairwise hsorted
    show (((Table.ofSchema d.rows "public").mergeSort Table.createdBefore).mapM Database.read,
      d) = _
    rw [hrows]
    rfl
  have hd := (first_unused_label_drawn "public").2 d [create, step.asJson] hrecords
  have hsupply : ((l.ofSchema "billing").length : ℕ∞) < (Set.range supply).encard :=
    Set.one_lt_encard_iff.mpr ⟨"sql_2", "sql_3", ⟨0, rfl⟩, ⟨3, rfl⟩, by decide⟩
  refine ⟨hmore, hl.enough labels [] hmore, ?_, hrecords, ?_, hsupply, ?_⟩
  · exact (hl.found labels [] _ _).mpr
      ⟨["sql_1", "01_create", "sql_1"], ["sql_3"], rfl, by decide, by decide, rfl⟩
  · exact (hd.found labels [] _ _).mpr
      ⟨["sql_1", "01_create", "sql_1"], ["sql_3"], rfl, by decide, by decide, rfl⟩
  · obtain ⟨n, -, -, hdrawn⟩ :=
      ((first_unused_label_drawn "billing").1 l).endless supply [] hsupply
    exact ⟨n, by simpa using hdrawn []⟩

end Recorder

end SchemaLedger
