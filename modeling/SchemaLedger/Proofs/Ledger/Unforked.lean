import Mathlib.Data.List.Perm.Subperm
import SchemaLedger.Proofs.Ledger.Chain

/-!
# Records without forks

Names that differ and parents that differ, with "no parent" counted as one of them, do not make a
history: there may be a parent that is missing, and records may go round in circles. They are what
is left of a history when records are taken out of its middle and others are put in, and they are
what one sees of it without following the parents (`Unforked`).

Two facts about such records are enough for most purposes. If one of them has no parent, then one
of them has no child (`Unforked.exists_childless`): otherwise each name would be a parent, and "no
parent" one more, which is one parent too many for the records. And a climb from a record without
a child meets no record twice (`Unforked.nodup_of_linked`), since the two places would have two
records behind them with one parent. So if the climb is as long as the list of records, it is their
arrangement (`Unforked.arranges_of_linked`).
-/

namespace SchemaLedger

theorem mem_tips {records : List Record} {r : Record} :
    r ∈ tips records ↔ r ∈ records ∧ ∀ s ∈ records, s.parent ≠ some r.name := by
  simp [tips, hasChild]

/-- No two records have the same name, and no two have the same parent or both none. -/
structure Unforked (records : List Record) : Prop where
  names : (records.map (·.name)).Nodup
  parents : (records.map (·.parent)).Nodup

theorem Arranges.unforked {chain records : List Record} (h : Arranges chain records) :
    Unforked records := ⟨h.names_records, h.nodup_parents⟩

namespace Unforked

variable {records : List Record}

theorem nil : Unforked [] := ⟨List.nodup_nil, List.nodup_nil⟩

theorem eq_of_name_eq (h : Unforked records) {r s : Record} (hr : r ∈ records) (hs : s ∈ records)
    (hname : r.name = s.name) : r = s := List.inj_on_of_nodup_map h.names hr hs hname

theorem eq_of_parent_eq (h : Unforked records) {r s : Record} (hr : r ∈ records)
    (hs : s ∈ records) (hparent : r.parent = s.parent) : r = s :=
  List.inj_on_of_nodup_map h.parents hr hs hparent

/-! ## Changes -/

/-- A record with a new name joins under a parent that no other record has. -/
theorem concat (h : Unforked records) {r : Record} (hname : ∀ s ∈ records, s.name ≠ r.name)
    (hparent : ∀ s ∈ records, s.parent ≠ r.parent) : Unforked (records ++ [r]) := by
  have hnew : ∀ {α : Type} (f : Record → α), (records.map f).Nodup → (∀ s ∈ records, f s ≠ f r) →
      ((records ++ [r]).map f).Nodup := by
    intro α f hnd hf
    rw [List.map_append, List.nodup_append]
    refine ⟨hnd, by simp, ?_⟩
    intro a ha b hb
    obtain ⟨s, hs, rfl⟩ := List.mem_map.mp ha
    rw [List.map_singleton, List.mem_singleton] at hb
    rw [hb]
    exact hf s hs
  exact ⟨hnew (·.name) h.names hname, hnew (·.parent) h.parents hparent⟩

theorem map (h : Unforked records) {f : Record → Record} (hname : ∀ r, (f r).name = r.name)
    (hparent : ∀ r, (f r).parent = r.parent) : Unforked (records.map f) := by
  constructor
  · rw [List.map_map]
    simpa [Function.comp_def, hname] using h.names
  · rw [List.map_map]
    simpa [Function.comp_def, hparent] using h.parents

theorem filter (h : Unforked records) (keep : Record → Bool) : Unforked (records.filter keep) :=
  ⟨h.names.sublist (List.filter_sublist.map _), h.parents.sublist (List.filter_sublist.map _)⟩

/-! ## Tips -/

theorem exists_childless (h : Unforked records) {root : Record} (hroot : root ∈ records)
    (hparent : root.parent = none) :
    ∃ tip ∈ records, ∀ s ∈ records, s.parent ≠ some tip.name := by
  by_contra hall
  push Not at hall
  have hnames : (none :: (records.map (·.name)).map some).Nodup :=
    List.nodup_cons.mpr ⟨by simp, h.names.map fun _ _ heq => Option.some.inj heq⟩
  -- every name is a parent, and so is "none"
  have hsub : none :: (records.map (·.name)).map some ⊆ records.map (·.parent) := by
    intro p hp
    rcases List.mem_cons.mp hp with rfl | hp
    · exact List.mem_map.mpr ⟨root, hroot, hparent⟩
    · rw [List.map_map] at hp
      obtain ⟨r, hr, rfl⟩ := List.mem_map.mp hp
      obtain ⟨s, hs, hchild⟩ := hall r hr
      exact List.mem_map.mpr ⟨s, hs, hchild⟩
  have hlength := (hnames.subperm hsub).length_le
  simp only [List.length_cons, List.length_map] at hlength
  omega

/-! ## Climbs -/

/-- Where a climb ends in a record without a child, nothing that is met before it is met again: it
would have one child behind it at either place. -/
theorem notMem_of_linked (h : Unforked records) {r : Record} {path : List Record}
    (hlinked : Linked (some r.name) path) (hmem : ∀ s ∈ path, s ∈ records) (hnodup : path.Nodup)
    (hlast : ∀ tip, path.getLast? = some tip → ∀ s ∈ records, s.parent ≠ some tip.name) :
    r ∉ path := by
  intro hr
  obtain ⟨a, b, hab⟩ := List.append_of_mem hr
  cases path with
  | nil => nomatch hr
  | cons s rest =>
    have hs : s.parent = some r.name := hlinked.1
    cases b with
    | nil =>
      have htip : (s :: rest).getLast? = some r := by rw [hab]; simp
      exact hlast r htip s (hmem s (List.mem_cons_self ..)) hs
    | cons t b =>
      have hchild : t.parent = some r.name := by
        rw [hab] at hlinked
        exact hlinked.child_of_next
      have ht : t ∈ rest := by
        cases a with
        | nil =>
          rw [(List.cons.inj hab).2]
          exact List.mem_cons_self ..
        | cons u a =>
          rw [(List.cons.inj hab).2]
          simp
      have hst : s = t := h.eq_of_parent_eq (hmem s (List.mem_cons_self ..))
        (hmem t (List.mem_cons_of_mem _ ht)) (by rw [hs, hchild])
      exact (List.nodup_cons.mp hnodup).1 (hst ▸ ht)

/-- A climb from a record without a child, written down from its end, meets no record twice. -/
theorem nodup_of_linked (h : Unforked records) {parent : Option String} {front : List Record}
    {tip : Record} (hlinked : Linked parent (front ++ [tip]))
    (hmem : ∀ r ∈ front ++ [tip], r ∈ records) (htip : ∀ s ∈ records, s.parent ≠ some tip.name) :
    (front ++ [tip]).Nodup := by
  -- the front is taken off record by record, so what is left still ends in the tip
  induction front generalizing parent with
  | nil => exact List.nodup_singleton tip
  | cons r rest ih =>
    have hmem' : ∀ s ∈ rest ++ [tip], s ∈ records := fun s hs =>
      hmem s (List.mem_cons_of_mem _ hs)
    have hrest : (rest ++ [tip]).Nodup := ih hlinked.2 hmem'
    refine List.nodup_cons.mpr ⟨h.notMem_of_linked hlinked.2 hmem' hrest ?_, hrest⟩
    intro last hlast
    rw [List.append_eq, List.getLast?_concat, Option.some.injEq] at hlast
    exact hlast ▸ htip

/-- A climb that has met as many records as there are has ended at the root, if there is one, and is
their arrangement. -/
theorem arranges_of_linked (h : Unforked records) {parent : Option String} {path : List Record}
    (hlinked : Linked parent path) (hmem : ∀ r ∈ path, r ∈ records) (hnodup : path.Nodup)
    (hlength : path.length = records.length) {root : Record} (hroot : root ∈ records)
    (hparent : root.parent = none) : parent = none ∧ Arranges path records := by
  have hperm : path.Perm records := (hnodup.subperm hmem).perm_of_length_le (by omega)
  obtain ⟨front, back, rfl⟩ := List.append_of_mem (hperm.mem_iff.mpr hroot)
  -- the root has no parent, so the climb ended there
  have hends : (tipName front).or parent = none := by
    rw [← (linked_append.mp hlinked).2.1, hparent]
  rw [Option.or_eq_none_iff] at hends
  rw [hends.2] at hlinked
  exact ⟨hends.2, hperm, (hperm.map _).nodup_iff.mpr h.names, hlinked⟩

end Unforked

end SchemaLedger
