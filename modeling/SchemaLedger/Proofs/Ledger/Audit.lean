import SchemaLedger.Proofs.Ledger.MemoryHistory
import SchemaLedger.Proofs.Ledger.Unforked

/-!
# The audit of a history

The audit is handed records that somebody else has written, so nothing may be taken for granted:
names may repeat, parents may be missing, records may go round in circles. It counts roots, children
and migrations in progress, and looks for each parent. Only if all this is in order does it climb
from the tip and count the records on the way.

This file says what the audit lets pass: exactly the records that can be arranged as a chain, with
at most one migration in progress, where no parent has an empty name (`checkHistory_eq_nil_iff`).

The counts alone leave records without forks (`Unforked`), once it is clear that names do not repeat
either, which the audit never asks. They do not, since there is one root only: of `n` records,
`n - 1` have a parent, their parents are all different, and the tip is none of them, so that there
are `n` different names (`InOrder.unforked`). What the counts cannot see is a circle beside the
chain. The climb does: it follows parents that are there (`exists_path_of_climb`), meets no record
twice, and so has met all of them if it is as long as the list.

A climb ends at a parent without a name as if it were none (`Arranges.climb_lt`). So a chain in
which a record with an empty name has a child is reported. The checks of a ledger in memory let such
a record join like any other. Hence the audit of what that ledger holds finds nothing, but for these
chains, which it takes for broken ones (`audit_answers`).
-/

namespace SchemaLedger

open Attempt

/-! ## What is counted -/

/-- Parents all differ if those that are there do and at most one is missing. -/
theorem nodup_parents_iff {records : List Record} :
    (records.map (·.parent)).Nodup ↔
      records.countP (·.parent = none) ≤ 1 ∧ (records.filterMap (·.parent)).Nodup := by
  induction records with
  | nil => simp
  | cons r rest ih =>
    rw [List.map_cons, List.nodup_cons, ih]
    cases hparent : r.parent with
    | none =>
      have hnone : none ∉ rest.map (·.parent) ↔ rest.countP (·.parent = none) = 0 := by
        simp [List.countP_eq_zero]
      rw [hnone, List.countP_cons_of_pos (by simp [hparent]), List.filterMap_cons_none hparent]
      constructor
      · rintro ⟨h, -, hnd⟩
        exact ⟨by omega, hnd⟩
      · rintro ⟨h, hnd⟩
        exact ⟨by omega, by omega, hnd⟩
    | some p =>
      have hsome : some p ∉ rest.map (·.parent) ↔ p ∉ rest.filterMap (·.parent) := by simp
      rw [hsome, List.countP_cons_of_neg (by simp [hparent]), List.filterMap_cons_some hparent,
        List.nodup_cons]
      tauto

/-- What the counts find in order: one root, no fork, no parent that is missing, and at most one
migration in progress. -/
structure InOrder (records : List Record) : Prop where
  oneRoot : records.countP (·.parent = none) = 1
  parents : (records.filterMap (·.parent)).Nodup
  parent_mem : ∀ r ∈ records, ∀ p, r.parent = some p → ∃ s ∈ records, s.name = p
  oneActive : records.countP (!·.done) ≤ 1

theorem localProblems_eq_nil_iff {records : List Record} :
    localProblems records = [] ↔ InOrder records := by
  have hroots : ((records.filter (·.parent = none)).map (·.name)).length =
      records.countP (·.parent = none) := by
    rw [List.length_map, List.countP_eq_length_filter]
  have hactive : ((records.filter (!·.done)).map (·.name)).length = records.countP (!·.done) := by
    rw [List.length_map, List.countP_eq_length_filter]
  unfold localProblems
  dsimp only
  rw [List.append_eq_nil_iff, List.append_eq_nil_iff, List.append_eq_nil_iff, hroots, hactive,
    List.filterMap_eq_nil_iff, List.filterMap_eq_nil_iff]
  -- now each kind of problem is an empty list of its own
  constructor
  · rintro ⟨⟨⟨hroot, hchildren⟩, hmissing⟩, hopen⟩
    refine ⟨?_, ?_, ?_, ?_⟩
    · by_contra h
      simp [h] at hroot
    · rw [List.nodup_iff_count_le_one]
      intro p
      by_contra h
      have hp : p ∈ records.filterMap (·.parent) := List.count_pos_iff.mp (by omega)
      have := hchildren p (Text.mem_sortedDistinct.mpr hp)
      rw [if_pos (by omega)] at this
      nomatch this
    · intro r hr p hp
      by_contra h
      have := hmissing r hr
      rw [hp] at this
      simp only at this
      rw [if_neg (by simpa using h)] at this
      nomatch this
    · by_contra h
      rw [if_pos (by omega)] at hopen
      nomatch hopen
  · intro h
    refine ⟨⟨⟨if_pos h.oneRoot, ?_⟩, ?_⟩, if_neg (by have := h.oneActive; omega)⟩
    · intro p _
      have := List.nodup_iff_count_le_one.mp h.parents p
      exact if_neg (by omega)
    · intro r hr
      cases hp : r.parent with
      | none => rfl
      | some p => exact if_pos (by simpa using h.parent_mem r hr p hp)

/-- Only the tip is nobody's parent, so the names are the parents and the name of the tip. Hence no
name comes twice. -/
theorem InOrder.unforked {records : List Record} (h : InOrder records) {tip : Record}
    (htip : tip ∈ records) (hchild : ∀ s ∈ records, s.parent ≠ some tip.name) :
    Unforked records := by
  have hnew : tip.name ∉ records.filterMap (·.parent) := by
    intro hp
    obtain ⟨s, hs, hparent⟩ := List.mem_filterMap.mp hp
    exact hchild s hs hparent
  have hsub : tip.name :: records.filterMap (·.parent) ⊆ records.map (·.name) := by
    intro name hname
    rcases List.mem_cons.mp hname with rfl | hp
    · exact List.mem_map_of_mem htip
    · obtain ⟨r, hr, hparent⟩ := List.mem_filterMap.mp hp
      obtain ⟨s, hs, rfl⟩ := h.parent_mem r hr name hparent
      exact List.mem_map_of_mem hs
  -- all records but the root have a parent, so with the tip there are as many names
  have hlength : (records.filterMap (·.parent)).length + 1 = records.length := by
    have hsplit :=
      List.length_eq_countP_add_countP (fun r : Record => r.parent = none) (l := records)
    have hsome : (records.filterMap (·.parent)).length =
        records.countP fun r => decide ¬ decide (r.parent = none) = true := by
      rw [List.length_filterMap_eq_countP]
      refine List.countP_congr fun r _ => ?_
      cases r.parent <;> simp
    have hroot := h.oneRoot
    omega
  have hnodup : (tip.name :: records.filterMap (·.parent)).Nodup :=
    List.nodup_cons.mpr ⟨hnew, h.parents⟩
  have hperm : (tip.name :: records.filterMap (·.parent)).Perm (records.map (·.name)) := by
    refine (hnodup.subperm hsub).perm_of_length_le ?_
    rw [List.length_map, List.length_cons]
    omega
  exact ⟨hperm.nodup_iff.mp hnodup,
    nodup_parents_iff.mpr ⟨Nat.le_of_eq h.oneRoot, h.parents⟩⟩

/-! ## The climb -/

/-- The record to which a climb goes on from `r`. -/
def nextUp (records : List Record) (r : Record) : Option Record :=
  match r.parent with
  | none => none
  | some p => if p = "" then none else named? records p

theorem climb_none (records : List Record) (limit : Nat) : climb records limit none = 0 := by
  cases limit <;> rfl

theorem climb_some (records : List Record) (limit : Nat) (r : Record) :
    climb records (limit + 1) (some r) = climb records limit (nextUp records r) + 1 := rfl

theorem nextUp_eq_some_iff {records : List Record} {r s : Record} :
    nextUp records r = some s ↔ ∃ p, r.parent = some p ∧ p ≠ "" ∧ named? records p = some s := by
  unfold nextUp
  cases r.parent with
  | none => simp
  | some p => by_cases hp : p = "" <;> simp [hp]

/-- A climb passes a path along the parents, and no parent on it but perhaps the last has an empty
name. -/
theorem exists_path_of_climb {records : List Record} (limit : Nat) {r : Record}
    (hr : r ∈ records) :
    ∃ parent front, Linked parent (front ++ [r]) ∧ (∀ s ∈ front ++ [r], s ∈ records) ∧
      (front ++ [r]).length = climb records (limit + 1) (some r) ∧
      (parent ≠ some "" → ∀ s ∈ front ++ [r], s.parent ≠ some "") := by
  -- the path found from the next record gets `r` at its end
  induction limit generalizing r with
  | zero =>
    refine ⟨r.parent, [], ⟨rfl, trivial⟩, by simpa using hr, rfl, ?_⟩
    intro hp s hs
    rw [List.mem_singleton.mp hs]
    exact hp
  | succ limit ih =>
    rw [climb_some]
    cases hnext : nextUp records r with
    | none =>
      refine ⟨r.parent, [], ⟨rfl, trivial⟩, by simpa using hr, by rw [climb_none]; rfl, ?_⟩
      intro hp s hs
      rw [List.mem_singleton.mp hs]
      exact hp
    | some u =>
      obtain ⟨p, hparent, hp, hu⟩ := nextUp_eq_some_iff.mp hnext
      obtain ⟨hmem, hname⟩ := named?_some hu
      obtain ⟨parent, front, hlinked, hsub, hlength, hempty⟩ := ih hmem
      refine ⟨parent, front ++ [u], ?_, ?_, ?_, ?_⟩
      · rw [linked_append]
        refine ⟨hlinked, ?_, trivial⟩
        rw [tipName_concat, Option.some_or, hname, hparent]
      · intro s hs
        rcases List.mem_append.mp hs with hs | hs
        · exact hsub s hs
        · rw [List.mem_singleton.mp hs]
          exact hr
      · rw [List.length_append, hlength]
        rfl
      · intro hends s hs
        rcases List.mem_append.mp hs with hs | hs
        · exact hempty hends s hs
        · rw [List.mem_singleton.mp hs, hparent]
          exact fun h => hp (Option.some.inj h)

/-- In a chain whose parents all have names a climb passes everything before its start. -/
theorem Arranges.climb_eq {records front back : List Record} {r : Record}
    (h : Arranges (front ++ r :: back) records) (hnamed : ∀ s ∈ records, s.parent ≠ some "")
    {limit : Nat} (hlimit : front.length < limit) :
    climb records limit (some r) = front.length + 1 := by
  induction front using List.reverseRecOn generalizing r back limit with
  | nil =>
    cases limit with
    | zero => exact absurd hlimit (Nat.not_lt_zero _)
    | succ limit =>
      have hparent : r.parent = none := h.linked.1
      have hnext : nextUp records r = none := by rw [nextUp, hparent]
      rw [climb_some, hnext, climb_none]
      rfl
  | append_singleton front u ih =>
    rw [List.append_assoc] at h
    cases limit with
    | zero => exact absurd hlimit (Nat.not_lt_zero _)
    | succ limit =>
      have hparent : r.parent = some u.name := h.linked.child_of_next
      have hr : r ∈ records := h.mem_iff.mp (by simp)
      have hu : u ∈ records := h.mem_iff.mp (by simp)
      have hnext : nextUp records r = some u := by
        refine nextUp_eq_some_iff.mpr ⟨u.name, hparent, ?_, h.named?_of_mem hu⟩
        intro hname
        exact hnamed r hr (by rw [hparent, hname])
      rw [List.length_append, List.length_singleton] at hlimit ⊢
      rw [climb_some, hnext, ih h (by omega)]

/-- A climb ends at a parent without a name, so it does not get past a record that has one. -/
theorem Arranges.climb_lt {records front back : List Record} {r u : Record}
    (h : Arranges (front ++ r :: back) records) (hu : u ∈ front ++ [r])
    (hempty : u.parent = some "") (limit : Nat) :
    climb records limit (some r) < front.length + 1 := by
  induction front using List.reverseRecOn generalizing r back limit with
  | nil =>
    -- the root has no parent at all
    have hparent : r.parent = none := h.linked.1
    rw [List.nil_append, List.mem_singleton] at hu
    rw [← hu, hempty] at hparent
    nomatch hparent
  | append_singleton front v ih =>
    rw [List.append_assoc] at h
    have hparent : r.parent = some v.name := h.linked.child_of_next
    rw [List.length_append, List.length_singleton]
    cases limit with
    | zero => exact Nat.succ_pos _
    | succ limit =>
      rw [climb_some]
      by_cases hname : v.name = ""
      · have hnext : nextUp records r = none := by
          rw [nextUp, hparent]
          exact if_pos hname
        rw [hnext, climb_none]
        omega
      · have hr : r ∈ records := h.mem_iff.mp (by simp)
        have hv : v ∈ records := h.mem_iff.mp (by simp)
        have hnext : nextUp records r = some v :=
          nextUp_eq_some_iff.mpr ⟨v.name, hparent, hname, h.named?_of_mem hv⟩
        have hbefore : u ∈ front ++ [v] := by
          rcases List.mem_append.mp hu with hu | hu
          · exact hu
          · rw [List.mem_singleton.mp hu, hparent] at hempty
            exact absurd (Option.some.inj hempty) hname
        have := ih h hbefore limit
        rw [hnext]
        omega

/-! ## The verdict -/

theorem isOneChain_iff {records : List Record} : isOneChain records = true ↔
    ∃ tip, tips records = [tip] ∧
      climb (byName records) (records.length + 1) (some tip) = records.length := by
  unfold isOneChain
  split
  next tip htips => simp [htips]
  next htips =>
    refine ⟨nofun, ?_⟩
    rintro ⟨tip, htip, -⟩
    exact absurd htip (htips tip)

theorem checkHistory_eq_nil {records : List Record} : checkHistory records = [] ↔
    records = [] ∨ (InOrder records ∧ isOneChain records = true) := by
  unfold checkHistory
  rw [← localProblems_eq_nil_iff]
  by_cases hrecords : records = []
  · simp [hrecords]
  · cases localProblems records with
    | nil => cases isOneChain records <;> simp [hrecords]
    | cons => simp [hrecords]

/-- The counts find nothing wrong with a chain. -/
theorem Arranges.inOrder {records front : List Record} {tip : Record}
    (h : Arranges (front ++ [tip]) records) (hactive : records.countP (!·.done) ≤ 1) :
    InOrder records := by
  have hparents := nodup_parents_iff.mp h.nodup_parents
  refine ⟨?_, hparents.2, fun r hr p hp => h.exists_parent hr hp, hactive⟩
  have hroot : records.countP (·.parent = none) ≠ 0 := by
    intro hzero
    have hnone := h.eq_nil_of_no_root (by simpa using List.countP_eq_zero.mp hzero)
    simp at hnone
  have := hparents.1
  omega

/-- The climb from the tip of a chain passes all of it exactly if every parent has a name. -/
theorem Arranges.isOneChain_iff_named {records front : List Record} {tip : Record}
    (h : Arranges (front ++ [tip]) records) :
    isOneChain records = true ↔ ∀ r ∈ records, r.parent ≠ some "" := by
  have hlength : records.length = front.length + 1 := by
    rw [← h.perm.length_eq, List.length_append, List.length_singleton]
  have htips := h.tips_eq
  rw [List.getLast?_concat] at htips
  rw [isOneChain_iff, byName_eq_self h.names_records]
  constructor
  · rintro ⟨t, ht, hclimb⟩ r hr hempty
    rw [htips] at ht
    cases ht
    have := h.climb_lt (h.mem_iff.mpr hr) hempty (records.length + 1)
    omega
  · intro hnamed
    refine ⟨tip, htips, ?_⟩
    rw [h.climb_eq hnamed (by omega), hlength]

/-- A chain with at most one migration in progress passes, if no parent has an empty name. -/
theorem Arranges.checkHistory_eq {chain records : List Record} (h : Arranges chain records)
    (hactive : records.countP (!·.done) ≤ 1) (hnamed : ∀ r ∈ records, r.parent ≠ some "") :
    checkHistory records = [] := by
  rw [checkHistory_eq_nil]
  rcases List.eq_nil_or_concat' chain with rfl | ⟨front, tip, rfl⟩
  · exact .inl h.perm.symm.eq_nil
  · exact .inr ⟨h.inOrder hactive, h.isOneChain_iff_named.mpr hnamed⟩

/-- **The audit lets pass what is a history.** It finds nothing wrong with a list of records exactly
if they can be arranged as a chain, at most one of them is in progress, and no parent has an empty
name. -/
theorem checkHistory_eq_nil_iff {records : List Record} :
    checkHistory records = [] ↔
      (∃ chain : List Record, chain.Perm records ∧ (chain.map (·.name)).Nodup ∧
        Linked none chain) ∧
      records.countP (!·.done) ≤ 1 ∧ ∀ r ∈ records, r.parent ≠ some "" := by
  constructor
  · intro h
    rcases checkHistory_eq_nil.mp h with rfl | ⟨hcounts, hclimb⟩
    · exact ⟨⟨[], .nil, List.nodup_nil, trivial⟩, by simp, by simp⟩
    · obtain ⟨tip, htips, hclimb⟩ := isOneChain_iff.mp hclimb
      have htip : tip ∈ records ∧ ∀ s ∈ records, s.parent ≠ some tip.name :=
        mem_tips.mp (by rw [htips]; exact List.mem_singleton.mpr rfl)
      have hunforked := hcounts.unforked htip.1 htip.2
      rw [byName_eq_self hunforked.names] at hclimb
      obtain ⟨parent, front, hlinked, hmem, hlength, hnamed⟩ :=
        exists_path_of_climb records.length htip.1
      obtain ⟨root, hroot, hparent⟩ : ∃ root ∈ records, root.parent = none := by
        have hone := hcounts.oneRoot
        simpa using List.countP_pos_iff.mp (show 0 < records.countP (·.parent = none) by omega)
      have hnodup := hunforked.nodup_of_linked hlinked hmem htip.2
      obtain ⟨hends, h⟩ :=
        hunforked.arranges_of_linked hlinked hmem hnodup (by omega) hroot hparent
      refine ⟨⟨front ++ [tip], h.perm, h.names, h.linked⟩, hcounts.oneActive, fun r hr => ?_⟩
      exact hnamed (by rw [hends]; nofun) r (h.mem_iff.mpr hr)
  · rintro ⟨⟨chain, hperm, hnames, hlinked⟩, hactive, hnamed⟩
    exact (Arranges.mk hperm hnames hlinked).checkHistory_eq hactive hnamed

/-! ## The audit of a ledger in memory -/

/-- All that the audit can find wrong with a history is a child of a record without a name. -/
theorem IsHistory.checkHistory_eq {records : List Record} (h : IsHistory records) :
    checkHistory records =
      if ∃ r ∈ records, r.parent = some "" then [.notOneChain] else [] := by
  obtain ⟨chain, hchain⟩ := h.arranged
  by_cases hempty : ∃ r ∈ records, r.parent = some ""
  · rw [if_pos hempty]
    obtain ⟨r, hr, hparent⟩ := hempty
    rcases List.eq_nil_or_concat' chain with rfl | ⟨front, tip, rfl⟩
    · nomatch hchain.mem_iff.mpr hr
    · have hcounts : localProblems records = [] :=
        localProblems_eq_nil_iff.mpr (hchain.inOrder h.oneActive)
      have hclimb : isOneChain records = false := by
        rw [← Bool.not_eq_true, hchain.isOneChain_iff_named]
        exact fun hnamed => hnamed r hr hparent
      have hne : records.isEmpty = false := List.isEmpty_eq_false_iff_exists_mem.mpr ⟨r, hr⟩
      rw [checkHistory, hne, hcounts, hclimb]
      rfl
  · rw [if_neg hempty]
    exact hchain.checkHistory_eq h.oneActive (by simpa using hempty)

namespace MemoryLedger

theorem problems_of_whole {l : MemoryLedger} (h : Whole l) (schema : String) :
    LedgerStore.problems schema l =
      (.ok (if ∃ r ∈ l.ofSchema schema, r.parent = some "" then [.notOneChain] else []), l) := by
  have hhistory : IsHistory (l.ofSchema schema) := h schema
  show (Except.ok (checkHistory (l.ofSchema schema)), l) = _
  rw [hhistory.checkHistory_eq]

/-- **The audit of a ledger in memory.** After any calls but removals of duplicates, the records of a
schema are a history, and the audit finds nothing wrong with them, unless a record with an empty name
has a child. Then it reports the one problem that the records are not one chain, though they are. -/
theorem audit_answers {calls : List (Moment × Call)}
    (hcalls : ∀ c ∈ calls, c.2.removesDuplicates = false) (schema : String) :
    let l := after (Call.runs calls) MemoryLedger.empty
    IsHistory (l.ofSchema schema) ∧
      LedgerStore.problems schema l =
        (.ok (if ∃ r ∈ l.ofSchema schema, r.parent = some "" then [.notOneChain] else []), l) := by
  intro l
  have h : Whole l := whole_after hcalls
  exact ⟨h schema, problems_of_whole h schema⟩

theorem audit_answers_of_empty_names :
    let calls : List (Moment × Call) :=
      [(⟨0, some 0⟩, .insert { schema := "public", name := "a", done := true }),
        (⟨1, some 0⟩, .insert { schema := "public", name := "", parent := some "a", done := true }),
        (⟨2, some 0⟩, .insert { schema := "billing", name := "", done := true }),
        (⟨3, some 0⟩, .insert { schema := "billing", name := "b", parent := some "" })]
    let l := after (Call.runs calls) MemoryLedger.empty
    (∀ c ∈ calls, c.2.removesDuplicates = false) ∧ IsHistory (l.ofSchema "billing") ∧
      LedgerStore.problems "public" l = (.ok [], l) ∧
      LedgerStore.problems "billing" l = (.ok [.notOneChain], l) := by
  intro calls l
  have hcalls : ∀ c ∈ calls, c.2.removesDuplicates = false := by decide
  obtain ⟨-, hpublic⟩ := audit_answers hcalls "public"
  obtain ⟨hhistory, hbilling⟩ := audit_answers hcalls "billing"
  rw [if_neg (by decide)] at hpublic
  rw [if_pos (by decide)] at hbilling
  exact ⟨hcalls, hhistory, hpublic, hbilling⟩

/-- A step with an empty name is recorded and another one on top of it, and the audit reports
them. -/
theorem false_alarm_above_empty_name :
    ¬ ∀ (calls : List (Moment × Call)) (schema : String),
      (∀ c ∈ calls, c.2.removesDuplicates = false) →
        (LedgerStore.problems schema (after (Call.runs calls) MemoryLedger.empty)).1 = .ok [] := by
  intro h
  let calls : List (Moment × Call) :=
    [(⟨0, some 0⟩, .insert { schema := "public", name := "", done := true }),
      (⟨1, some 0⟩, .insert { schema := "public", name := "b", parent := some "", done := true })]
  have hcalls : ∀ c ∈ calls, c.2.removesDuplicates = false := by decide
  have hsilent := h calls "public" hcalls
  rw [problems_of_whole (whole_after hcalls), if_pos (by decide)] at hsilent
  nomatch hsilent

end MemoryLedger

end SchemaLedger
