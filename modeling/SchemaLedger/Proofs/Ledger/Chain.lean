import SchemaLedger.Ledger.History
import Mathlib.Data.List.Induction
import Mathlib.Data.List.Nodup
import Mathlib.Logic.Relation

/-!
# Chains of records

The history of a schema is meant to be one line of migrations from a root to a tip. This file says
what that means for records that come in any order: they can be arranged as a chain (`Arranges`), in
which the first record has no parent and the parent of each later one is the record before it.

The records know each other by name only, so everything about the shape of a history comes down to
where a record stands in its chain: a record and its child are neighbours (`Arranges.neighbours`).
From that follow

- `Arranges.tips_eq`: the one record without a child is the last one of the chain;
- `Arranges.walkParents_eq`: the walk along the parents visits the whole chain, backwards;
- `Arranges.nodup_parents`, `Arranges.acyclic`: there are no forks and no cycles.

The second half says which changes leave a chain a chain: a new record under the tip
(`Arranges.concat`), changes that keep names and parents (`Arranges.map`), and the removal of
records that nobody who stays has as a parent (`Arranges.filter`).
-/

namespace SchemaLedger

/-- Each record's parent is the one before it, and the parent of the first one is `parent`. -/
def Linked : (parent : Option String) → List Record → Prop
  | _, [] => True
  | parent, r :: rest => r.parent = parent ∧ Linked (some r.name) rest

/-- The name of the last record of a chain: the parent for the next one. -/
def tipName (chain : List Record) : Option String := chain.getLast?.map (·.name)

@[simp] theorem tipName_nil : tipName [] = none := rfl

@[simp] theorem tipName_concat (front : List Record) (r : Record) :
    tipName (front ++ [r]) = some r.name := by
  simp [tipName]

/-- A chain can be cut anywhere; the second part hangs on the last record of the first. -/
theorem linked_append {parent : Option String} {front back : List Record} :
    Linked parent (front ++ back) ↔
      Linked parent front ∧ Linked ((tipName front).or parent) back := by
  induction front generalizing parent with
  | nil => simp [Linked]
  | cons r rest ih =>
    have htip : (tipName (r :: rest)).or parent = (tipName rest).or (some r.name) := by
      cases h : rest.getLast? <;> simp [tipName, List.getLast?_cons, h]
    rw [List.cons_append, Linked, Linked, ih, htip, and_assoc]

/-- A chain grows by a record under its tip. -/
theorem linked_concat {front : List Record} {r : Record} :
    Linked none (front ++ [r]) ↔ Linked none front ∧ r.parent = tipName front := by
  simp [linked_append, Linked]

/-- The parent of a record is the last record of what comes before it. -/
theorem Linked.parent_eq {front back : List Record} {r : Record}
    (h : Linked none (front ++ r :: back)) : r.parent = tipName front := by
  have hr := (linked_append.mp h).2.1
  rw [hr, Option.or_none]

/-- The record behind another one is its child. -/
theorem Linked.child_of_next {parent : Option String} {front back : List Record} {r s : Record}
    (h : Linked parent (front ++ r :: s :: back)) : s.parent = some r.name :=
  (linked_append.mp h).2.2.1

/-- The parents of a chain are its names, one place later. -/
theorem Linked.map_parent {parent : Option String} {chain : List Record}
    (h : Linked parent chain) :
    chain.map (·.parent) = (parent :: chain.map fun r => some r.name).dropLast := by
  induction chain generalizing parent with
  | nil => rfl
  | cons r rest ih =>
    rw [List.map_cons, List.map_cons, List.dropLast_cons_of_ne_nil (by simp), ih h.2, h.1]

theorem Linked.map {parent : Option String} {chain : List Record} (h : Linked parent chain)
    {f : Record → Record} (hname : ∀ r, (f r).name = r.name)
    (hparent : ∀ r, (f r).parent = r.parent) : Linked parent (chain.map f) := by
  induction chain generalizing parent with
  | nil => trivial
  | cons r rest ih =>
    refine ⟨by rw [hparent, h.1], ?_⟩
    rw [hname]
    exact ih h.2

/-- Below a record that goes nothing can stay. -/
theorem Linked.filter_eq_nil {g : Record} {chain : List Record} (h : Linked (some g.name) chain)
    {keep : Record → Bool} (hg : keep g = false)
    (hkeep : ∀ r ∈ chain, keep r = true → ∀ s ∈ g :: chain, keep s = false →
      r.parent ≠ some s.name) : chain.filter keep = [] := by
  induction chain generalizing g with
  | nil => rfl
  | cons r rest ih =>
    have hr : keep r = false := by
      rw [← Bool.not_eq_true]
      intro hr
      exact hkeep r (List.mem_cons_self ..) hr g (List.mem_cons_self ..) hg h.1
    rw [List.filter_cons_of_neg (by simp [hr])]
    exact ih h.2 hr fun t ht ht' s hs =>
      hkeep t (List.mem_cons_of_mem _ ht) ht' s (List.mem_cons_of_mem _ hs)

/-- A chain stays one when records go, if no record that stays has one of them as its parent: what
goes is an end of the chain. -/
theorem Linked.filter {parent : Option String} {chain : List Record} (h : Linked parent chain)
    {keep : Record → Bool}
    (hkeep : ∀ r ∈ chain, keep r = true → ∀ g ∈ chain, keep g = false → r.parent ≠ some g.name) :
    Linked parent (chain.filter keep) := by
  induction chain generalizing parent with
  | nil => trivial
  | cons r rest ih =>
    have hrest : ∀ s ∈ rest, keep s = true → ∀ g ∈ rest, keep g = false →
        s.parent ≠ some g.name := fun s hs hs' g hg =>
      hkeep s (List.mem_cons_of_mem _ hs) hs' g (List.mem_cons_of_mem _ hg)
    by_cases hr : keep r = true
    · rw [List.filter_cons_of_pos hr]
      exact ⟨h.1, ih h.2 hrest⟩
    · rw [List.filter_cons_of_neg hr, h.2.filter_eq_nil (by simpa using hr) fun s hs hs' g hg =>
        hkeep s (List.mem_cons_of_mem _ hs) hs' g hg]
      trivial

/-- A record is looked up by its key among the records of its schema. -/
theorem find?_key (records : List Record) (schema name : String) :
    records.find? (fun r => r.schema = schema && r.name = name) =
      named? (records.filter (·.schema = schema)) name := by
  simp [named?, List.find?_filter, Bool.decide_and]

/-- One step of the walk along the parents. -/
theorem walkParents_of_named {records : List Record} {name : String} {r : Record}
    (h : named? records name = some r) :
    walkParents records (some name) = r :: walkParents (without records name) r.parent := by
  rw [walkParents]
  split
  next hnone => simp [hnone] at h
  next s hs =>
    rw [hs, Option.some.injEq] at h
    rw [h]

theorem putByName_of_new {records : List Record} {r : Record}
    (h : ∀ s ∈ records, s.name ≠ r.name) : putByName records r = records ++ [r] := by
  induction records with
  | nil => rfl
  | cons s rest ih =>
    have hrest : putByName rest r = rest ++ [r] := ih fun t ht => h t (List.mem_cons_of_mem _ ht)
    rw [putByName, if_neg (h s (List.mem_cons_self ..)), hrest]
    rfl

/-- Where no name comes twice, every record is kept. -/
theorem byName_eq_self {records : List Record} (h : (records.map (·.name)).Nodup) :
    byName records = records := by
  have hfold : ∀ (rest before : List Record), ((before ++ rest).map (·.name)).Nodup →
      rest.foldl putByName before = before ++ rest := by
    intro rest
    induction rest with
    | nil => simp
    | cons r rest ih =>
      intro before hnd
      have hnew : ∀ s ∈ before, s.name ≠ r.name := by
        intro s hs
        rw [List.map_append, List.nodup_append] at hnd
        exact hnd.2.2 _ (List.mem_map_of_mem hs) _ (by simp)
      rw [List.foldl_cons, putByName_of_new hnew, ih _ (by simpa using hnd)]
      simp
  simpa [byName] using hfold records [] (by simpa using h)

/-- `r` is the parent of `s`, and both are among the records. -/
structure IsParent (records : List Record) (r s : Record) : Prop where
  parent_mem : r ∈ records
  child_mem : s ∈ records
  link : s.parent = some r.name

/-- `chain` is an arrangement of `records` from the root to the tip: it has each of them once, the
first one has no parent, and each later one's parent is the record before it. -/
structure Arranges (chain records : List Record) : Prop where
  perm : chain.Perm records
  names : (chain.map (·.name)).Nodup
  linked : Linked none chain

namespace Arranges

variable {chain records : List Record}

theorem nil : Arranges [] [] := ⟨.refl _, List.nodup_nil, trivial⟩

theorem mem_iff (h : Arranges chain records) {r : Record} : r ∈ chain ↔ r ∈ records :=
  h.perm.mem_iff

theorem mem_of_filter {p : Record → Bool} (h : Arranges chain (records.filter p)) {r : Record}
    (hr : r ∈ chain) : r ∈ records :=
  (List.mem_filter.mp (h.mem_iff.mp hr)).1

theorem nodup (h : Arranges chain records) : chain.Nodup := h.names.of_map

theorem names_records (h : Arranges chain records) : (records.map (·.name)).Nodup :=
  (h.perm.map _).nodup_iff.mp h.names

/-- A name stands for one record. -/
theorem eq_of_name_eq (h : Arranges chain records) {r s : Record} (hr : r ∈ records)
    (hs : s ∈ records) (hname : r.name = s.name) : r = s :=
  List.inj_on_of_nodup_map h.names_records hr hs hname

theorem named?_of_mem (h : Arranges chain records) {r : Record} (hr : r ∈ records) :
    named? records r.name = some r := by
  cases hfound : named? records r.name with
  | none =>
    have := List.find?_eq_none.mp hfound r hr
    simp at this
  | some s =>
    obtain ⟨hs, hname⟩ := named?_some hfound
    rw [h.eq_of_name_eq hs hr hname]

/-- The tip does not have a name that no record has. -/
theorem tipName_ne (h : Arranges chain records) {name : String}
    (hname : ∀ r ∈ records, r.name ≠ name) : tipName chain ≠ some name := by
  intro htip
  obtain ⟨r, hr, hrname⟩ := Option.map_eq_some_iff.mp htip
  exact hname r (h.mem_iff.mp (List.mem_of_getLast? hr)) hrname

/-! ## Where a record stands -/

/-- Right before a record with a parent stands a record of the parent's name. -/
theorem exists_before (h : Arranges chain records) {r : Record} (hr : r ∈ records) {p : String}
    (hparent : r.parent = some p) :
    ∃ front u back, chain = front ++ u :: r :: back ∧ u ∈ records ∧ u.name = p := by
  obtain ⟨front, back, rfl⟩ := List.append_of_mem (h.mem_iff.mpr hr)
  have htip : tipName front = some p := by rw [← h.linked.parent_eq, hparent]
  obtain ⟨u, hu, hname⟩ := Option.map_eq_some_iff.mp htip
  obtain ⟨front', rfl⟩ := List.getLast?_eq_some_iff.mp hu
  exact ⟨front', u, back, by simp, h.mem_iff.mp (by simp), hname⟩

/-- Every parent is there. -/
theorem exists_parent (h : Arranges chain records) {r : Record} (hr : r ∈ records) {p : String}
    (hparent : r.parent = some p) : ∃ s ∈ records, s.name = p := by
  obtain ⟨-, u, -, -, hu, hname⟩ := h.exists_before hr hparent
  exact ⟨u, hu, hname⟩

/-- A record and its child are neighbours in the chain. -/
theorem neighbours (h : Arranges chain records) {r s : Record} (hr : r ∈ records)
    (hs : s ∈ records) (hparent : s.parent = some r.name) :
    ∃ front back, chain = front ++ r :: s :: back := by
  obtain ⟨front, u, back, hchain, hu, hname⟩ := h.exists_before hs hparent
  rw [h.eq_of_name_eq hu hr hname] at hchain
  exact ⟨front, back, hchain⟩

/-- The last record of the chain has no child. -/
theorem parent_ne_last {front : List Record} {last : Record}
    (h : Arranges (front ++ [last]) records) {s : Record} (hs : s ∈ records) :
    s.parent ≠ some last.name := by
  intro hparent
  have hlast : last ∈ records := h.mem_iff.mp (by simp)
  obtain ⟨a, b, hab⟩ := h.neighbours hlast hs hparent
  -- `last` would stand both before its child and at the end
  have hend : last ∈ s :: b := by
    have hl : (a ++ last :: s :: b).getLast? = some last := by rw [← hab]; simp
    rw [List.getLast?_append, List.getLast?_cons_cons] at hl
    exact List.mem_of_getLast? (by simpa using hl)
  have hnd : (last :: s :: b).Nodup := (hab ▸ h.nodup).of_append_right
  exact (List.nodup_cons.mp hnd).1 hend

/-- Every other record has one. -/
theorem exists_child {front : List Record} {last : Record}
    (h : Arranges (front ++ [last]) records) {r : Record} (hr : r ∈ front) :
    ∃ s ∈ records, s.parent = some r.name := by
  obtain ⟨a, b, rfl⟩ := List.append_of_mem hr
  cases b with
  | nil =>
    have hl := h.linked
    rw [List.append_assoc] at hl
    exact ⟨last, h.mem_iff.mp (by simp), hl.child_of_next⟩
  | cons s b =>
    have hl := h.linked
    rw [List.append_assoc] at hl
    exact ⟨s, h.mem_iff.mp (by simp), hl.child_of_next⟩

/-- A history without a root is empty. -/
theorem eq_nil_of_no_root (h : Arranges chain records) (hroot : ∀ r ∈ records, r.parent ≠ none) :
    chain = [] := by
  cases chain with
  | nil => rfl
  | cons r rest => exact absurd h.linked.1 (hroot r (h.mem_iff.mp (List.mem_cons_self ..)))

/-- A record without a child is the last one. -/
theorem getLast?_of_childless (h : Arranges chain records) {r : Record} (hr : r ∈ records)
    (hchild : ∀ s ∈ records, s.parent ≠ some r.name) : chain.getLast? = some r := by
  obtain ⟨front, back, rfl⟩ := List.append_of_mem (h.mem_iff.mpr hr)
  cases back with
  | nil => simp
  | cons s back => exact absurd h.linked.child_of_next (hchild s (h.mem_iff.mp (by simp)))

/-- The tip is the one record that is nobody's parent. -/
theorem tips_eq (h : Arranges chain records) : tips records = chain.getLast?.toList := by
  have hperm : (chain.filter fun r => !hasChild records r).Perm (tips records) := h.perm.filter _
  rcases List.eq_nil_or_concat' chain with rfl | ⟨front, last, rfl⟩
  · simpa using hperm
  · have hfront : (front.filter fun r => !hasChild records r) = [] := by
      refine List.filter_eq_nil_iff.mpr fun r hr => ?_
      obtain ⟨s, hs, hparent⟩ := h.exists_child hr
      simpa [hasChild] using ⟨s, hs, hparent⟩
    have hlast : ([last].filter fun r => !hasChild records r) = [last] := by
      refine List.filter_eq_self.mpr fun r hr => ?_
      rw [List.mem_singleton.mp hr]
      simpa [hasChild] using fun s hs => h.parent_ne_last hs
    rw [List.filter_append, hfront, hlast, List.nil_append] at hperm
    rw [List.perm_singleton.mp hperm.symm]
    simp

theorem findTip_eq (h : Arranges chain records) : findTip records = .ok chain.getLast? := by
  rw [findTip, h.tips_eq]
  cases chain.getLast? <;> rfl

/-! ## The walk along the parents -/

/-- Without the tip, the records form the chain without its end. -/
theorem without_last {front : List Record} {last : Record}
    (h : Arranges (front ++ [last]) records) : Arranges front (without records last.name) := by
  have hnames : (front.map (·.name) ++ [last.name]).Nodup := by simpa using h.names
  have hfront : ∀ r ∈ front, r.name ≠ last.name := by
    intro r hr hname
    have hdisjoint := List.disjoint_of_nodup_append hnames
    exact hdisjoint (List.mem_map_of_mem hr) (by simp [hname])
  refine ⟨?_, hnames.of_append_left, (linked_concat.mp h.linked).1⟩
  have hperm := h.perm.filter fun r => r.name ≠ last.name
  rw [List.filter_append, List.filter_eq_self.mpr (by simpa using hfront)] at hperm
  simpa [without] using hperm

/-- The walk from the tip visits the whole chain, the tip first. -/
theorem walkParents_eq (h : Arranges chain records) :
    walkParents records (tipName chain) = chain.reverse := by
  induction chain using List.reverseRecOn generalizing records with
  | nil => simp [walkParents]
  | append_singleton front last ih =>
    have hlast : named? records last.name = some last := h.named?_of_mem (h.mem_iff.mp (by simp))
    rw [tipName_concat, walkParents_of_named hlast, (linked_concat.mp h.linked).2,
      ih h.without_last, List.reverse_append]
    rfl

/-! ## No forks, no cycles -/

/-- No two records have the same parent, and only one has none. -/
theorem nodup_parents (h : Arranges chain records) : (records.map (·.parent)).Nodup := by
  have hnames : (none :: chain.map fun r => some r.name).Nodup := by
    refine List.nodup_cons.mpr ⟨by simp, ?_⟩
    have hsome : ((chain.map (·.name)).map some).Nodup :=
      h.names.map fun _ _ heq => Option.some.inj heq
    rwa [List.map_map] at hsome
  rw [← (h.perm.map _).nodup_iff, h.linked.map_parent]
  exact hnames.sublist (List.dropLast_sublist _)

/-- A parent stands before its child. -/
theorem idxOf_lt (h : Arranges chain records) {r s : Record} (hrs : IsParent records r s) :
    chain.idxOf r < chain.idxOf s := by
  obtain ⟨front, back, rfl⟩ := h.neighbours hrs.parent_mem hrs.child_mem hrs.link
  have hnd := h.nodup
  rw [List.nodup_append] at hnd
  obtain ⟨-, hback, hdisjoint⟩ := hnd
  have hr : r ∉ front := fun hr => hdisjoint r hr r (by simp) rfl
  have hs : s ∉ front := fun hs => hdisjoint s hs s (by simp) rfl
  have hne : r ≠ s := by
    rintro rfl
    simp at hback
  rw [List.idxOf_append_of_notMem hr, List.idxOf_append_of_notMem hs, List.idxOf_cons_self,
    List.idxOf_cons_ne _ hne]
  omega

/-- Nobody is among its own ancestors. -/
theorem acyclic (h : Arranges chain records) (r : Record) :
    ¬ Relation.TransGen (IsParent records) r r := by
  have hlt : ∀ s, Relation.TransGen (IsParent records) r s → chain.idxOf r < chain.idxOf s := by
    intro s hs
    induction hs with
    | single hrs => exact h.idxOf_lt hrs
    | tail _ hst ih => exact Nat.lt_trans ih (h.idxOf_lt hst)
  exact fun hrr => Nat.lt_irrefl _ (hlt r hrr)

/-! ## Changes -/

/-- A record with a new name joins under the tip. -/
theorem concat (h : Arranges chain records) {r : Record} (hname : ∀ s ∈ records, s.name ≠ r.name)
    (hparent : r.parent = tipName chain) : Arranges (chain ++ [r]) (records ++ [r]) := by
  refine ⟨h.perm.append_right _, ?_, linked_concat.mpr ⟨h.linked, hparent⟩⟩
  rw [List.map_append, List.nodup_append]
  refine ⟨h.names, by simp, ?_⟩
  intro a ha b hb
  obtain ⟨s, hs, rfl⟩ := List.mem_map.mp ha
  rw [List.map_singleton, List.mem_singleton] at hb
  rw [hb]
  exact hname s (h.mem_iff.mp hs)

/-- Records may change as long as they keep their names and parents. -/
theorem map (h : Arranges chain records) {f : Record → Record} (hname : ∀ r, (f r).name = r.name)
    (hparent : ∀ r, (f r).parent = r.parent) : Arranges (chain.map f) (records.map f) := by
  refine ⟨h.perm.map f, ?_, h.linked.map hname hparent⟩
  rw [List.map_map]
  simpa [Function.comp_def, hname] using h.names

/-- Records may go as long as no record that stays has one of them as its parent. -/
theorem filter (h : Arranges chain records) {keep : Record → Bool}
    (hkeep : ∀ r ∈ records, keep r = true → ∀ g ∈ records, keep g = false →
      r.parent ≠ some g.name) : Arranges (chain.filter keep) (records.filter keep) := by
  refine ⟨h.perm.filter keep, h.names.sublist (List.filter_sublist.map _), ?_⟩
  exact h.linked.filter fun r hr hr' g hg hg' =>
    hkeep r (h.mem_iff.mp hr) hr' g (h.mem_iff.mp hg) hg'

end Arranges

end SchemaLedger
