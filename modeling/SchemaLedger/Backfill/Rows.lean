import SchemaLedger.Backfill.Sweep

/-!
# The rows behind a sweep

What the statement of a batch does to the rows of a table. It selects flagged rows behind a key, in
the order of their keys and as many as fit into the batch, updates them, and answers with their
keys. The update fires the triggers of the table, which may change anything about a row but its key.
So a row is of any type that has a key and a flag (`RowKind`), and what becomes of a row that is
touched is open, down to the statement that touches it.

As a source of pages a table runs dry, whatever becomes of the flags: no row stays behind the last
key of a page that was not behind the key before (`RowKind.source`).
-/

namespace SchemaLedger.Backfill

/-- An order in which any two keys can be compared. -/
structure KeyOrder where
  le : Key → Key → Bool
  trans : ∀ a b c, le a b = true → le b c = true → le a c = true
  total : ∀ a b, (le a b || le b a) = true

namespace KeyOrder

/-- The order of a rank that is given to keys. -/
def ofRank (rank : Key → Int) : KeyOrder where
  le a b := decide (rank a ≤ rank b)
  trans a b c hab hbc :=
    decide_eq_true (Int.le_trans (of_decide_eq_true hab) (of_decide_eq_true hbc))
  total a b := by simpa using Int.le_total (rank a) (rank b)

variable (o : KeyOrder)

/-- Whether a key comes before another one. -/
def before (a b : Key) : Bool := !o.le b a

/-- Whether a key lies behind the one that a batch starts behind, if there is one. -/
def behind (after : Option Key) (a : Key) : Bool := after.all (o.before · a)

theorem before_eq_false {a b : Key} : o.before a b = false ↔ o.le b a = true := by
  rw [before, Bool.not_eq_false']

theorem le_of_before {a b : Key} (h : o.before a b = true) : o.le a b = true := by
  have htotal := o.total a b
  rw [Bool.or_eq_true] at htotal
  refine htotal.resolve_right fun hba => ?_
  rw [o.before_eq_false.mpr hba] at h
  nomatch h

theorem before_irrefl (a : Key) : o.before a a = false :=
  o.before_eq_false.mpr (by simpa using o.total a a)

theorem before_of_le_of_before {a b c : Key} (hab : o.le a b = true) (hbc : o.before b c = true) :
    o.before a c = true := by
  rw [← Bool.not_eq_false, o.before_eq_false]
  intro hca
  rw [o.before_eq_false.mpr (o.trans c a b hca hab)] at hbc
  nomatch hbc

theorem before_trans {a b c : Key} (hab : o.before a b = true) (hbc : o.before b c = true) :
    o.before a c = true := o.before_of_le_of_before (o.le_of_before hab) hbc

theorem behind_trans {after : Option Key} {a b : Key} (ha : o.behind after a = true)
    (hab : o.behind (some a) b = true) : o.behind after b = true := by
  cases after with
  | none => rfl
  | some c => exact o.before_trans ha hab

end KeyOrder

/-- What a batch has to know about the rows of a table. -/
structure RowKind (ρ : Type) where
  order : KeyOrder
  key : ρ → Key
  flagged : ρ → Bool
  /-- What the update leaves of a row, given how many statements there were before. -/
  touch : (statements : Nat) → ρ → ρ
  key_touch : ∀ n r, key (touch n r) = key r

/-- A table in the course of a sweep. -/
structure Swept (ρ : Type) where
  rows : List ρ
  /-- The keys of the rows that were touched, in the order in which they were. -/
  touched : List Key := []
  /-- The number of statements that were executed. -/
  statements : Nat := 0
  deriving DecidableEq, Repr

namespace RowKind

variable {ρ : Type} (k : RowKind ρ)

/-- Whether the condition of a batch selects a row. -/
def due (after : Option Key) (r : ρ) : Bool := k.flagged r && k.order.behind after (k.key r)

/-- The selected rows in the order of their keys. -/
def pending (after : Option Key) (rows : List ρ) : List ρ :=
  (rows.filter (k.due after)).mergeSort fun r s => k.order.le (k.key r) (k.key s)

/-- The keys of the next batch. -/
def page (size : Nat) (after : Option Key) (rows : List ρ) : Page :=
  ((k.pending after rows).take size).map k.key

/-- The rows after those with the given keys were touched. -/
def touchKeys (n : Nat) (keys : List Key) (rows : List ρ) : List ρ :=
  rows.map fun r => if k.key r ∈ keys then k.touch n r else r

/-- The table after one more batch. -/
def execute (size : Nat) (after : Option Key) (s : Swept ρ) : Swept ρ :=
  let keys := k.page size after s.rows
  { rows := k.touchKeys s.statements keys s.rows
    touched := s.touched ++ keys
    statements := s.statements + 1 }

theorem mem_pending {after : Option Key} {rows : List ρ} {r : ρ} :
    r ∈ k.pending after rows ↔ r ∈ rows ∧ k.due after r = true := by
  rw [pending, List.mem_mergeSort, List.mem_filter]

/-- The keys of a page are keys of rows that were selected. -/
theorem mem_page {size : Nat} {after : Option Key} {rows : List ρ} {a : Key}
    (h : a ∈ k.page size after rows) : ∃ r ∈ rows, k.due after r = true ∧ k.key r = a := by
  obtain ⟨r, hr, rfl⟩ := List.mem_map.mp h
  obtain ⟨hrows, hdue⟩ := k.mem_pending.mp (List.mem_of_mem_take hr)
  exact ⟨r, hrows, hdue, rfl⟩

theorem key_touchKeys (n : Nat) (keys : List Key) (rows : List ρ) :
    (k.touchKeys n keys rows).map k.key = rows.map k.key := by
  rw [touchKeys, List.map_map]
  refine List.map_congr_left fun r _ => ?_
  rw [Function.comp_apply]
  split
  · exact k.key_touch n r
  · rfl

/-- The keys behind a key get fewer from page to page. -/
theorem remaining_lt {size : Nat} {after : Option Key} {rows : List ρ} {n : Nat}
    (h : k.page size after rows ≠ []) :
    (((k.touchKeys n (k.page size after rows) rows).map k.key).filter
        (k.order.behind (some ((k.page size after rows).getLast h)))).length <
      ((rows.map k.key).filter (k.order.behind after)).length := by
  obtain ⟨r, hr, hdue, hlast⟩ := k.mem_page (List.getLast_mem h)
  have hbehind : k.order.behind after (k.key r) = true := (Bool.and_eq_true_iff.mp hdue).2
  rw [key_touchKeys, ← hlast]
  have hfilter : (rows.map k.key).filter (k.order.behind (some (k.key r))) =
      ((rows.map k.key).filter (k.order.behind after)).filter
        (k.order.behind (some (k.key r))) := by
    rw [List.filter_filter]
    refine List.filter_congr fun a _ => ?_
    rw [Bool.eq_iff_iff, Bool.and_eq_true]
    exact ⟨fun ha => ⟨ha, k.order.behind_trans hbehind ha⟩, And.left⟩
  rw [hfilter, List.length_filter_lt_length_iff_exists]
  refine ⟨k.key r, List.mem_filter.mpr ⟨List.mem_map_of_mem hr, hbehind⟩, ?_⟩
  rw [Bool.not_eq_true]
  exact k.order.before_irrefl (k.key r)

/-- A table as a source of pages. -/
def source (size : Nat) : Source (Swept ρ) where
  fetch after s := (.ok (k.page size after s.rows), k.execute size after s)
  remaining after s := ((s.rows.map k.key).filter (k.order.behind after)).length
  remaining_lt := by
    rintro after s s' page h hfetch
    obtain ⟨hpage, rfl⟩ := Prod.mk.inj hfetch
    cases hpage
    exact k.remaining_lt h

end RowKind

end SchemaLedger.Backfill
