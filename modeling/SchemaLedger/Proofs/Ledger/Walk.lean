import Mathlib.Data.List.Chain
import Mathlib.Data.List.Perm.Subperm
import SchemaLedger.Proofs.Ledger.Chain

/-!
# Walks along the parents

Records that are no history can have any parents: one that is not there, a record itself, or one of a
circle. A walk along the parents ends all the same. It remembers which names it has visited, and each
step visits one more of the names that are there.

`Walks` tells such a walk step by step, with the names visited so far and with its three ways to end;
the walk that is made is told by it (`walks_walkParents`). `FollowsParents` says of a whole list what
it is to be such a walk, and there is one such list only (`walkParents_follows`).
-/

namespace SchemaLedger

/-- A walk along the parents, with the names that were visited before. -/
inductive Walks (records : List Record) : (seen : List String) → (tip : Option String) →
    List Record → Prop where
  /-- There is no parent to go to. -/
  | root {seen : List String} : Walks records seen none []
  /-- The parent was visited before. -/
  | visited {seen : List String} {name : String} : name ∈ seen → Walks records seen (some name) []
  /-- The parent is not there. -/
  | missing {seen : List String} {name : String} :
    named? records name = none → Walks records seen (some name) []
  /-- The walk goes on. -/
  | step {seen : List String} {name : String} {r : Record} {rest : List Record} :
    name ∉ seen → named? records name = some r → Walks records (name :: seen) r.parent rest →
    Walks records seen (some name) (r :: rest)

/-- A list follows the parents from a tip, and stops only where it has to. -/
structure FollowsParents (records : List Record) (tip : Option String) (walk : List Record) :
    Prop where
  /-- It starts with the record of the tip if that is there, and is empty otherwise. -/
  head : walk.head? = tip.bind (named? records)
  /-- Its records are those of the mapping. -/
  found : ∀ r ∈ walk, named? records r.name = some r
  /-- No name comes twice. -/
  names : (walk.map (·.name)).Nodup
  /-- The parent of each record is the next one. -/
  linked : walk.IsChain fun r s => r.parent = some s.name
  /-- The last one has no parent, or one that is not there, or one that was visited. -/
  stops : ∀ last p, walk.getLast? = some last → last.parent = some p →
    named? records p = none ∨ p ∈ walk.map (·.name)

variable {records : List Record} {seen : List String} {tip : Option String} {walk : List Record}

/-! ## The walk that is made -/

/-- The records that were not visited yet. -/
def unseen (records : List Record) (seen : List String) : List Record :=
  records.filter (·.name ∉ seen)

theorem without_unseen (records : List Record) (seen : List String) (name : String) :
    without (unseen records seen) name = unseen records (name :: seen) := by
  rw [without, unseen, unseen, List.filter_filter]
  refine List.filter_congr fun r _ => ?_
  simp [List.mem_cons, Bool.decide_and]

/-- A name that was visited is not found any more. -/
theorem named?_unseen_of_mem {name : String} (h : name ∈ seen) :
    named? (unseen records seen) name = none := by
  refine List.find?_eq_none.mpr fun r hr => ?_
  have hr : r.name ∉ seen := of_decide_eq_true (List.mem_filter.mp hr).2
  simp only [decide_eq_true_eq]
  rintro rfl
  exact hr h

/-- Every other name is found as before. -/
theorem named?_unseen_of_notMem {name : String} (h : name ∉ seen) :
    named? (unseen records seen) name = named? records name := by
  rw [named?, named?, unseen, List.find?_filter]
  congr 1
  funext r
  by_cases hr : r.name = name <;> simp [hr, h]

/-- The walk that is made is one with the names visited so far: the records that it has left are
those that it has not seen. The induction is on the walk that is made. -/
theorem walks_unseen (records : List Record) (seen : List String) (tip : Option String) :
    Walks records seen tip (walkParents (unseen records seen) tip) := by
  generalize hleft : unseen records seen = left
  fun_induction walkParents left tip generalizing seen with
  | case1 => exact .root
  | case2 left name hnone =>
    by_cases hseen : name ∈ seen
    · exact .visited hseen
    · rw [← hleft, named?_unseen_of_notMem hseen] at hnone
      exact .missing hnone
  | case3 left name r hfound ih =>
    rw [← hleft] at hfound
    have hseen : name ∉ seen := by
      intro hseen
      rw [named?_unseen_of_mem hseen] at hfound
      nomatch hfound
    rw [named?_unseen_of_notMem hseen] at hfound
    refine .step hseen hfound (ih (name :: seen) ?_)
    rw [← without_unseen, hleft]

theorem walks_walkParents (records : List Record) (tip : Option String) :
    Walks records [] tip (walkParents records tip) := by
  have hall : unseen records [] = records := by simp [unseen]
  have h := walks_unseen records [] tip
  rwa [hall] at h

/-! ## What a walk is -/

/-- The names of a walk are new ones, and none of them comes twice. -/
theorem Walks.names (h : Walks records seen tip walk) :
    (∀ r ∈ walk, r.name ∉ seen ∧ named? records r.name = some r) ∧
      (walk.map (·.name)).Nodup := by
  induction h with
  | root | visited | missing => exact ⟨List.forall_mem_nil _, List.nodup_nil⟩
  | @step seen name r rest hseen hfound _ ih =>
    obtain ⟨hnames, hnodup⟩ := ih
    obtain ⟨-, rfl⟩ := named?_some hfound
    refine ⟨List.forall_mem_cons.mpr ⟨⟨hseen, hfound⟩, fun s hs => ?_⟩, ?_⟩
    · exact ⟨fun h => (hnames s hs).1 (List.mem_cons_of_mem _ h), (hnames s hs).2⟩
    · rw [List.map_cons, List.nodup_cons]
      refine ⟨fun h => ?_, hnodup⟩
      obtain ⟨s, hs, hname⟩ := List.mem_map.mp h
      exact (hnames s hs).1 (hname ▸ List.mem_cons_self ..)

/-- A walk that goes anywhere goes to its tip. -/
theorem Walks.tip_eq {r : Record} (h : Walks records seen tip (r :: walk)) : tip = some r.name := by
  cases h with
  | step _ hfound _ => rw [(named?_some hfound).2]

/-- A walk that has visited nothing starts with the record of its tip. -/
theorem Walks.head (h : Walks records [] tip walk) : walk.head? = tip.bind (named? records) := by
  cases h with
  | root => rfl
  | visited hseen => nomatch hseen
  | missing hnone => exact hnone.symm
  | step _ hfound _ => exact hfound.symm

theorem Walks.linked (h : Walks records seen tip walk) :
    walk.IsChain fun r s => r.parent = some s.name := by
  induction h with
  | root | visited | missing => exact .nil
  | step _ _ hrest ih =>
    refine List.isChain_cons.mpr ⟨fun s hs => ?_, ih⟩
    obtain ⟨rest, rfl⟩ := List.head?_eq_some_iff.mp hs
    exact hrest.tip_eq

/-- A walk stops at the root, at a parent that is not there, or at one that was visited: before the
walk or on it. -/
theorem Walks.stops (h : Walks records seen tip walk) {last : Record} {p : String}
    (hlast : walk.getLast? = some last) (hp : last.parent = some p) :
    named? records p = none ∨ p ∈ seen ∨ p ∈ walk.map (·.name) := by
  induction h with
  | root | visited | missing => nomatch hlast
  | @step seen name r rest _ hfound hrest ih =>
    rw [List.map_cons, List.mem_cons, (named?_some hfound).2]
    rcases rest with _ | ⟨s, rest⟩
    · -- the walk ends behind its first record
      rw [List.getLast?_singleton, Option.some.injEq] at hlast
      subst hlast
      rw [hp] at hrest
      cases hrest with
      | visited hseen =>
        rcases List.mem_cons.mp hseen with rfl | hseen
        · exact .inr (.inr (.inl rfl))
        · exact .inr (.inl hseen)
      | missing hnone => exact .inl hnone
    · rw [List.getLast?_cons_cons] at hlast
      rcases ih hlast with hnone | hseen | hmem
      · exact .inl hnone
      · rcases List.mem_cons.mp hseen with rfl | hseen
        · exact .inr (.inr (.inl rfl))
        · exact .inr (.inl hseen)
      · exact .inr (.inr (.inr hmem))

theorem Walks.followsParents (h : Walks records [] tip walk) : FollowsParents records tip walk where
  head := h.head
  found r hr := (h.names.1 r hr).2
  names := h.names.2
  linked := h.linked
  stops last p hlast hp := by simpa using h.stops hlast hp

/-! ## There is only one -/

/-- At each step there is one way to go on, or one way to end. -/
theorem Walks.unique {other : List Record} (h : Walks records seen tip walk)
    (h' : Walks records seen tip other) : walk = other := by
  induction h generalizing other with
  | root => cases h'; rfl
  | visited hseen =>
    cases h' with
    | visited | missing => rfl
    | step hnew _ _ => exact absurd hseen hnew
  | missing hnone =>
    cases h' with
    | visited | missing => rfl
    | step _ hfound _ =>
      rw [hnone] at hfound
      nomatch hfound
  | step hnew hfound _ ih =>
    cases h' with
    | visited hseen => exact absurd hseen hnew
    | missing hnone =>
      rw [hnone] at hfound
      nomatch hfound
    | step _ hfound' hrest' =>
      rw [hfound, Option.some.injEq] at hfound'
      subst hfound'
      rw [ih hrest']

/-- Where a list that follows the parents goes on behind a front of it. -/
def GoesOnAt (tip : Option String) (front : List Record) (next : Option String) : Prop :=
  (front = [] ∧ next = tip) ∨ ∃ last, front.getLast? = some last ∧ last.parent = next

/-- Behind each front of a list that follows the parents the rest of it is a walk. The induction is on
the rest; what was visited is the front, which grows at its end. -/
theorem FollowsParents.walks_behind {front back : List Record}
    (h : FollowsParents records tip (front ++ back)) {next : Option String}
    (hnext : GoesOnAt tip front next) : Walks records (front.map (·.name)).reverse next back := by
  induction back generalizing front next with
  | nil =>
    -- where the list ends the walk has to end, in the way that the last record tells
    rw [List.append_nil] at h
    cases next with
    | none => exact .root
    | some p =>
      rcases hnext with ⟨rfl, rfl⟩ | ⟨last, hlast, hp⟩
      · exact .missing h.head.symm
      · rcases h.stops last p hlast hp with hnone | hmem
        · exact .missing hnone
        · exact .visited (List.mem_reverse.mpr hmem)
  | cons r rest ih =>
    have hfound : named? records r.name = some r := h.found r (by simp)
    have hnew : r.name ∉ front.map (·.name) := by
      have hnames := h.names
      rw [List.map_append, List.map_cons, List.nodup_append] at hnames
      exact fun hmem => hnames.2.2 _ hmem _ (List.mem_cons_self ..) rfl
    have hr : next = some r.name := by
      rcases hnext with ⟨rfl, rfl⟩ | ⟨last, hlast, rfl⟩
      · have hhead : some r = next.bind (named? records) := h.head
        obtain ⟨name, rfl, hname⟩ := Option.bind_eq_some_iff.mp hhead.symm
        rw [(named?_some hname).2]
      · exact (List.isChain_append.mp h.linked).2.2 last hlast r rfl
    rw [hr]
    refine .step (by simpa using hnew) hfound ?_
    rw [List.append_cons] at h
    have hrest := ih h (.inr ⟨r, List.getLast?_concat, rfl⟩)
    rwa [List.map_append, List.reverse_append] at hrest

theorem followsParents_iff_walks :
    FollowsParents records tip walk ↔ Walks records [] tip walk := by
  refine ⟨fun h => ?_, fun h => h.followsParents⟩
  have hstart : GoesOnAt tip [] tip := .inl ⟨rfl, rfl⟩
  exact h.walks_behind hstart

/-- **The walk along the parents ends, and it ends as late as it can.** Whatever parents the records
have, the walk from a tip is the one list that starts with the record of the tip, if that is there;
that has no name twice and goes from each record to its parent; and that stops only behind a record
whose parent is none, is not there, or was visited. So it has no more records than there are. -/
theorem walkParents_follows (records : List Record) (tip : Option String) :
    (∀ walk, walkParents records tip = walk ↔ FollowsParents records tip walk) ∧
      (walkParents records tip).length ≤ records.length := by
  have hwalks := walks_walkParents records tip
  refine ⟨fun walk => ?_, ?_⟩
  · rw [followsParents_iff_walks]
    constructor
    · rintro rfl
      exact hwalks
    · exact hwalks.unique
  · have hmem : walkParents records tip ⊆ records := fun r hr =>
      (named?_some (hwalks.names.1 r hr).2).1
    exact (hwalks.names.2.of_map.subperm hmem).length_le

end SchemaLedger
