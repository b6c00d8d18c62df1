import Mathlib.Data.List.Nodup
import Mathlib.Data.List.Pairwise
import SchemaLedger.Backfill.Rows

/-!
# What a sweep covers

A sweep touches every flagged row of a table exactly once, in the order of the keys, and no other
row (`run_covers_flagged`). This does not depend on what the triggers make of the flags: a sweep
never looks back, so a row that it has touched is not selected again, whether its flag is cleared
or not.

The argument follows what is pending behind a key, as a list in the order of the keys. A page takes
the front of that list, and behind the last key of the page exactly the rest is pending
(`RowKind.Distinct.pending_touchKeys`). Hence a sweep works through the list page by page. A page
that is not full takes all that is left and ends the sweep, and if the last page is full, one more
statement is needed to see that nothing is left.
-/

namespace SchemaLedger.Backfill

/-- Whether an event is the execution of a statement. -/
def Event.isExecution : Event → Bool
  | .executed .. => true
  | _ => false

/-- How many statements were executed. -/
def executions (events : List Event) : Nat := events.countP Event.isExecution

theorem executions_append (events more : List Event) :
    executions (events ++ more) = executions events + executions more := List.countP_append

theorem executions_pause (cfg : Settings) : executions (pause cfg) = 0 := by
  unfold pause
  split <;> rfl

/-- The batches that rows fill are a full one and those of the rest. -/
theorem batches_of_full {n size : Nat} (hsize : 0 < size) (hfits : size ≤ n) :
    (n + size - 1) / size = (n - size + size - 1) / size + 1 := by
  rw [Nat.div_eq_sub_div hsize (show size ≤ n + size - 1 by omega)]
  congr 2
  omega

namespace RowKind

variable {ρ : Type} {k : RowKind ρ} {size n : Nat} {after : Option Key} {rows : List ρ}

/-- The keys of the rows are different ones in the order. -/
def Distinct (k : RowKind ρ) (rows : List ρ) : Prop :=
  (rows.map k.key).Pairwise fun a b => k.order.before a b = true ∨ k.order.before b a = true

/-! ## What is pending -/

theorem Distinct.nodup (h : k.Distinct rows) : (rows.map k.key).Nodup := by
  refine List.Pairwise.imp (fun {a b} hab => ?_) h
  rintro rfl
  rw [k.order.before_irrefl, or_self] at hab
  nomatch hab

theorem Distinct.touchKeys (h : k.Distinct rows) (keys : List Key) :
    k.Distinct (k.touchKeys n keys rows) := by
  rw [Distinct, key_touchKeys]
  exact h

/-- What is pending comes in the strict order of the keys. -/
theorem Distinct.pending (h : k.Distinct rows) (after : Option Key) :
    (k.pending after rows).Pairwise fun r s => k.order.before (k.key r) (k.key s) = true := by
  have hsorted : (k.pending after rows).Pairwise fun r s =>
      k.order.le (k.key r) (k.key s) = true :=
    List.pairwise_mergeSort (fun r s u => k.order.trans (k.key r) (k.key s) (k.key u))
      (fun r s => k.order.total (k.key r) (k.key s)) _
  have hapart : (k.pending after rows).Pairwise fun r s =>
      k.order.before (k.key r) (k.key s) = true ∨ k.order.before (k.key s) (k.key r) = true := by
    rw [RowKind.pending, (List.mergeSort_perm _ _).pairwise_iff Or.symm]
    exact (List.pairwise_map.mp h).filter _
  refine (hsorted.and hapart).imp fun {r s} hrs => hrs.2.resolve_right fun hsr => ?_
  rw [k.order.before_eq_false.mpr hrs.1] at hsr
  exact Bool.false_ne_true hsr

/-- Rows in the strict order of their keys are what is pending if they are the rows selected. -/
theorem Distinct.pending_eq (h : k.Distinct rows) {l : List ρ}
    (hl : l.Pairwise fun r s => k.order.before (k.key r) (k.key s) = true)
    (hperm : (rows.filter (k.due after)).Perm l) : k.pending after rows = l := by
  refine List.Perm.eq_of_pairwise (fun r s _ _ hrs hsr => ?_) (h.pending after) hl
    ((List.mergeSort_perm _ _).trans hperm)
  have hrr := k.order.before_trans hrs hsr
  rw [k.order.before_irrefl] at hrr
  nomatch hrr

/-- No key of a page lies behind its last one. -/
theorem Distinct.behind_last (h : k.Distinct rows) (hpage : k.page size after rows ≠ []) {a : Key}
    (ha : a ∈ k.page size after rows) :
    k.order.behind (some ((k.page size after rows).getLast hpage)) a = false := by
  have hsorted : (k.page size after rows).Pairwise fun a b => k.order.before a b = true :=
    List.pairwise_map.mpr ((h.pending after).take)
  rw [KeyOrder.behind, Option.all_some, KeyOrder.before_eq_false]
  rw [← List.dropLast_append_getLast hpage, List.mem_append, List.mem_singleton] at ha
  rcases ha with ha | rfl
  · exact k.order.le_of_before (hsorted.rel_dropLast_getLast ha)
  · exact k.order.before_eq_false.mp (k.order.before_irrefl _)

/-- What is left of the rows that are pending lies behind the last key of the page. -/
theorem Distinct.behind_of_mem_drop (h : k.Distinct rows) (hpage : k.page size after rows ≠ [])
    {r : ρ} (hr : r ∈ (k.pending after rows).drop size) :
    k.order.behind (some ((k.page size after rows).getLast hpage)) (k.key r) = true := by
  obtain ⟨s, hs, hlast⟩ := List.mem_map.mp (List.getLast_mem hpage)
  have hsorted := h.pending after
  rw [← List.take_append_drop size (k.pending after rows), List.pairwise_append] at hsorted
  rw [← hlast, KeyOrder.behind, Option.all_some]
  exact hsorted.2.2 s hs r hr

theorem due_of_due_last {r : ρ} (hpage : k.page size after rows ≠ [])
    (hr : k.due (some ((k.page size after rows).getLast hpage)) r = true) :
    k.due after r = true := by
  obtain ⟨s, -, hs, hlast⟩ := k.mem_page (List.getLast_mem hpage)
  rw [due, Bool.and_eq_true] at hr hs ⊢
  exact ⟨hr.1, k.order.behind_trans (hlast ▸ hs.2) hr.2⟩

/-- Rows that are touched without being selected make no difference to what is selected. -/
theorem filter_touchKeys {keys : List Key} (hkeys : ∀ a ∈ keys, k.order.behind after a = false) :
    (k.touchKeys n keys rows).filter (k.due after) = rows.filter (k.due after) := by
  have hdue : ∀ r, k.key r ∈ keys → ¬ k.due after r = true := by
    intro r hr hdue
    rw [due, hkeys _ hr, Bool.and_false] at hdue
    nomatch hdue
  induction rows with
  | nil => rfl
  | cons r rest ih =>
    rw [RowKind.touchKeys] at ih ⊢
    rw [List.map_cons]
    by_cases hr : k.key r ∈ keys
    · rw [if_pos hr, List.filter_cons_of_neg (hdue r hr), List.filter_cons_of_neg, ih]
      exact hdue _ (by rwa [k.key_touch])
    · rw [if_neg hr, List.filter_cons, List.filter_cons, ih]

/-- **What a page leaves.** Behind the last key of a page the rest is pending. -/
theorem Distinct.pending_touchKeys (h : k.Distinct rows) (hpage : k.page size after rows ≠ []) :
    k.pending (some ((k.page size after rows).getLast hpage))
        (k.touchKeys n (k.page size after rows) rows) =
      (k.pending after rows).drop size := by
  let last := (k.page size after rows).getLast hpage
  refine (h.touchKeys _).pending_eq (h.pending after).drop ?_
  rw [filter_touchKeys fun a ha => h.behind_last hpage ha]
  have hselect : rows.filter (k.due (some last)) =
      (rows.filter (k.due after)).filter fun r => k.order.behind (some last) (k.key r) := by
    rw [List.filter_filter]
    refine List.filter_congr fun r _ => ?_
    rw [Bool.eq_iff_iff, Bool.and_eq_true]
    refine ⟨fun hr => ⟨(Bool.and_eq_true_iff.mp hr).2, due_of_due_last hpage hr⟩, fun hr => ?_⟩
    exact Bool.and_eq_true_iff.mpr ⟨(Bool.and_eq_true_iff.mp hr.2).1, hr.1⟩
  have hrest : ((k.pending after rows).filter fun r => k.order.behind (some last) (k.key r)) =
      (k.pending after rows).drop size := by
    conv => lhs; rw [← List.take_append_drop size (k.pending after rows)]
    rw [List.filter_append, List.filter_eq_nil_iff.mpr, List.filter_eq_self.mpr, List.nil_append]
    · exact fun r hr => h.behind_of_mem_drop hpage hr
    · intro r hr
      rw [Bool.not_eq_true]
      exact h.behind_last hpage (List.mem_map_of_mem hr)
  rw [hselect, ← hrest]
  exact ((List.mergeSort_perm _ _).filter _).symm

/-! ## The rows that were touched -/

/-- A row has its key on a page exactly if it is one of the rows of the page. -/
theorem Distinct.key_mem_page (h : k.Distinct rows) {r : ρ} (hr : r ∈ rows) :
    k.key r ∈ k.page size after rows ↔ r ∈ (k.pending after rows).take size := by
  refine ⟨fun hkey => ?_, List.mem_map_of_mem⟩
  obtain ⟨s, hs, hsr⟩ := List.mem_map.mp hkey
  have hsrows : s ∈ rows := (k.mem_pending.mp (List.mem_of_mem_take hs)).1
  rwa [← List.inj_on_of_nodup_map h.nodup hsrows hr hsr]

/-- A page that has room for everything has everything. -/
theorem Distinct.touchKeys_of_short (h : k.Distinct rows)
    (hshort : (k.pending after rows).length ≤ size) :
    k.touchKeys n (k.page size after rows) rows =
      rows.map fun r => if k.due after r then k.touch n r else r := by
  refine List.map_congr_left fun r hr => ?_
  have hiff : k.key r ∈ k.page size after rows ↔ k.due after r = true := by
    rw [h.key_mem_page hr, List.take_of_length_le hshort, k.mem_pending]
    exact and_iff_right hr
  by_cases hdue : k.due after r = true
  · rw [if_pos (hiff.mpr hdue), if_pos hdue]
  · rw [if_neg (mt hiff.mp hdue), if_neg hdue]

/-- A row that was touched is not touched again behind the page, and all others are still to
come. -/
theorem Distinct.touchKeys_of_page (h : k.Distinct rows) (hpage : k.page size after rows ≠ [])
    (when : Key → Nat) :
    ((k.touchKeys n (k.page size after rows) rows).map fun r =>
        if k.due (some ((k.page size after rows).getLast hpage)) r then k.touch (when (k.key r)) r
        else r) =
      rows.map fun r =>
        if k.due after r then
          k.touch (if k.key r ∈ k.page size after rows then n else when (k.key r)) r
        else r := by
  rw [RowKind.touchKeys, List.map_map]
  refine List.map_congr_left fun r hr => ?_
  rw [Function.comp_apply]
  by_cases hkey : k.key r ∈ k.page size after rows
  · have hdue : k.due after r = true :=
      (k.mem_pending.mp (List.mem_of_mem_take ((h.key_mem_page hr).mp hkey))).2
    rw [if_pos hkey, if_pos hkey, if_pos hdue, if_neg]
    -- its key is no longer ahead, whatever became of its flag
    rw [due, k.key_touch, h.behind_last hpage hkey, Bool.and_false]
    exact Bool.false_ne_true
  · rw [if_neg hkey, if_neg hkey]
    by_cases hdue : k.due after r = true
    · rw [if_pos hdue, if_pos]
      have hpending := k.mem_pending.mpr ⟨hr, hdue⟩
      rw [← List.take_append_drop size (k.pending after rows), List.mem_append] at hpending
      have hrest := hpending.resolve_left (mt (h.key_mem_page hr).mpr hkey)
      exact Bool.and_eq_true_iff.mpr
        ⟨(Bool.and_eq_true_iff.mp hdue).1, h.behind_of_mem_drop hpage hrest⟩
    · rw [if_neg hdue, if_neg (mt (due_of_due_last hpage) hdue)]

/-! ## A whole sweep -/

/-- What comes of a sweep of the rows behind a key. -/
structure Covers (k : RowKind ρ) (size : Nat) (after : Option Key) (totals : Totals) (s : Swept ρ)
    (o : Outcome (Swept ρ)) : Prop where
  result : o.result = .ok ⟨totals.rows + (k.pending after s.rows).length,
    totals.batches + ((k.pending after s.rows).length + size - 1) / size⟩
  executions : executions o.events = (k.pending after s.rows).length / size + 1
  touched : o.state.touched = s.touched ++ (k.pending after s.rows).map k.key
  rows : ∃ when : Key → Nat, o.state.rows =
    s.rows.map fun r => if k.due after r then k.touch (when (k.key r)) r else r

/-- The keys stay different ones. -/
theorem Covers.distinct {totals : Totals} {s : Swept ρ} {o : Outcome (Swept ρ)}
    (hc : k.Covers size after totals s o) (h : k.Distinct s.rows) : k.Distinct o.state.rows := by
  obtain ⟨when, hrows⟩ := hc.rows
  have hkeys : o.state.rows.map k.key = s.rows.map k.key := by
    rw [hrows, List.map_map]
    refine List.map_congr_left fun r _ => ?_
    rw [Function.comp_apply]
    split
    · exact k.key_touch _ r
    · rfl
  rw [Distinct, hkeys]
  exact h

theorem length_page (k : RowKind ρ) (size : Nat) (after : Option Key) (rows : List ρ) :
    (k.page size after rows).length = min size (k.pending after rows).length := by
  rw [page, List.length_map, List.length_take]

/-- A page that is not full has all that is pending, and the sweep ends with it. -/
theorem Distinct.covers_of_short {totals : Totals} {s : Swept ρ} {events : List Event}
    {result : Except Failure Totals} (h : k.Distinct s.rows)
    (hshort : (k.pending after s.rows).length < size) (hevents : executions events = 1)
    (hresult : result = .ok ⟨totals.rows + (k.pending after s.rows).length,
      totals.batches + ((k.pending after s.rows).length + size - 1) / size⟩) :
    k.Covers size after totals s ⟨events, result, k.execute size after s⟩ where
  result := hresult
  executions := by rw [hevents, Nat.div_eq_of_lt hshort]
  touched := by
    show s.touched ++ k.page size after s.rows = _
    rw [page, List.take_of_length_le (Nat.le_of_lt hshort)]
  rows := ⟨fun _ => s.statements, h.touchKeys_of_short (Nat.le_of_lt hshort)⟩

/-- **A sweep works through what is pending.** The induction is on the pages; each of them takes the
front of what is pending, and the rest of the sweep starts from what it leaves. -/
theorem Distinct.covers_sweepAfter (t : Target) (cfg : Settings) (after : Option Key)
    (totals : Totals) {s : Swept ρ} (h : k.Distinct s.rows) :
    k.Covers cfg.batchSize after totals s
      (sweepAfter (k.source cfg.batchSize) t cfg after totals s) := by
  have hsize := cfg.batchSize_pos
  fun_induction sweepAfter (k.source cfg.batchSize) t cfg after totals s with
  | case1 after totals s f s' hfetch => nomatch hfetch
  | case2 after totals s s' done hfetch =>
    -- an empty page: nothing was pending
    obtain ⟨hpage, rfl⟩ := Prod.mk.inj hfetch
    have hlength := k.length_page cfg.batchSize after s.rows
    rw [Except.ok.inj hpage, List.length_nil] at hlength
    have hnone : (k.pending after s.rows).length = 0 := by omega
    refine h.covers_of_short (by omega) rfl ?_
    rw [hnone, Nat.zero_add, Nat.div_eq_of_lt (by omega)]
    rfl
  | case3 after totals s page s' hfetch done hpage totals' reported hshort =>
    obtain ⟨hpage', rfl⟩ := Prod.mk.inj hfetch
    cases hpage'
    have hlength := k.length_page cfg.batchSize after s.rows
    have hpos := List.length_pos_iff.mpr hpage
    have hall : (k.page cfg.batchSize after s.rows).length = (k.pending after s.rows).length := by
      omega
    refine h.covers_of_short (by omega) rfl ?_
    rw [Nat.div_eq_of_lt_le (k := 1) (by omega) (by omega), ← hall]
    rfl
  | case4 after totals s page s' hfetch done hpage totals' reported hfull ih =>
    obtain ⟨hpage', rfl⟩ := Prod.mk.inj hfetch
    cases hpage'
    have hlength := k.length_page cfg.batchSize after s.rows
    have hrest : k.pending (some ((k.page cfg.batchSize after s.rows).getLast hpage))
        (k.execute cfg.batchSize after s).rows = (k.pending after s.rows).drop cfg.batchSize :=
      h.pending_touchKeys hpage
    have hfits : cfg.batchSize ≤ (k.pending after s.rows).length := by omega
    have hfilled : (k.page cfg.batchSize after s.rows).length = cfg.batchSize := by omega
    -- the rest of the sweep finds what the page left
    obtain ⟨hresult, hexecutions, htouched, when, hrows⟩ := ih (h.touchKeys _)
    rw [hrest, List.length_drop] at hresult hexecutions
    rw [hrest] at htouched
    refine ⟨hresult.trans ?_, ?_, htouched.trans ?_,
      fun a => if a ∈ k.page cfg.batchSize after s.rows then s.statements else when a,
      hrows.trans (h.touchKeys_of_page hpage when)⟩
    · rw [batches_of_full hsize hfits]
      show Except.ok (Totals.mk (totals.rows + (k.page cfg.batchSize after s.rows).length + _)
        (totals.batches + 1 + _)) = _
      rw [hfilled]
      congr 2 <;> omega
    · show executions (reported ++ pause cfg ++ _) = _
      rw [executions_append, executions_append, executions_pause, hexecutions,
        Nat.div_eq_sub_div hsize hfits]
      show 1 + 0 + _ = _
      omega
    · show s.touched ++ k.page cfg.batchSize after s.rows ++ _ = _
      rw [page, List.append_assoc, ← List.map_append, List.take_append_drop]

/-- From the first batch on, everything that is flagged is pending. -/
theorem due_none (k : RowKind ρ) : k.due none = k.flagged := funext fun _ => Bool.and_true _

theorem pending_none_perm (k : RowKind ρ) (rows : List ρ) :
    (k.pending none rows).Perm (rows.filter k.flagged) := by
  rw [pending, due_none]
  exact List.mergeSort_perm _ _

end RowKind

/-- A run over a table with a primary key is its sweep. -/
theorem run_of_result {σ : Type} {source : Source σ} {t : Target} {cfg : Settings} {s : σ}
    {totals : Totals} (hkey : t.primaryKey ≠ [])
    (h : (sweep source t cfg s).result = .ok totals) :
    run source t cfg s = ((sweep source t cfg s).events, .ok totals) := by
  rw [run, if_neg (by simpa using hkey)]
  show (_, (sweep source t cfg s).result.mapError RunError.failed) = _
  rw [h]
  rfl

/-- A run over a table without flagged rows finds nothing to do. -/
theorem run_of_unflagged {ρ : Type} {k : RowKind ρ} {s : Swept ρ} (t : Target) (cfg : Settings)
    (hkey : t.primaryKey ≠ []) (h : k.Distinct s.rows)
    (hflagged : ∀ r ∈ s.rows, k.flagged r = false) :
    let source := k.source cfg.batchSize
    let outcome := sweep source t cfg s
    run source t cfg s = (outcome.events, .ok ⟨0, 0⟩) ∧ outcome.state.touched = s.touched ∧
      outcome.state.rows = s.rows := by
  intro source outcome
  have hnone : k.pending none s.rows = [] := by
    refine List.Perm.eq_nil ((k.pending_none_perm s.rows).trans ?_)
    rw [List.filter_eq_nil_iff.mpr]
    exact fun r hr => by rw [hflagged r hr]; exact Bool.false_ne_true
  obtain ⟨hresult, -, htouched, when, hrows⟩ := h.covers_sweepAfter t cfg none {}
  have hsize := cfg.batchSize_pos
  have hbatches : (0 + cfg.batchSize - 1) / cfg.batchSize = 0 := Nat.div_eq_of_lt (by omega)
  rw [hnone, List.length_nil, hbatches] at hresult
  rw [hnone, List.map_nil, List.append_nil] at htouched
  refine ⟨run_of_result hkey hresult, htouched, hrows.trans ?_⟩
  refine (List.map_congr_left fun r hr => ?_).trans (List.map_id _)
  rw [k.due_none, hflagged r hr]
  exact if_neg Bool.false_ne_true

/-- **A sweep covers every flagged row exactly once.** The rows of a table come in any order and
with any flags, and the triggers may make of a row that is touched whatever they like. A run over
the table answers with the number of rows that were flagged and the number of batches that these
fill. It executes one statement more than there are full batches. The keys that it touched are those
of the flagged rows, in ascending order, and every row that was not flagged is as it was. -/
theorem run_covers_flagged {ρ : Type} (k : RowKind ρ) (t : Target) (cfg : Settings)
    (rows : List ρ) (hkey : t.primaryKey ≠ []) (h : k.Distinct rows) :
    let flagged := rows.filter k.flagged
    let n := flagged.length
    let source := k.source cfg.batchSize
    let outcome := sweep source t cfg { rows }
    run source t cfg { rows } =
        (outcome.events, .ok ⟨n, (n + cfg.batchSize - 1) / cfg.batchSize⟩) ∧
      executions outcome.events = n / cfg.batchSize + 1 ∧
      outcome.state.touched.Perm (flagged.map k.key) ∧
      outcome.state.touched.Pairwise (fun a b => k.order.before a b = true) ∧
      ∃ when : Key → Nat, outcome.state.rows =
        rows.map fun r => if k.flagged r then k.touch (when (k.key r)) r else r := by
  intro flagged n source outcome
  have hall : (k.pending none rows).Perm flagged := k.pending_none_perm rows
  obtain ⟨hresult, hexecutions, htouched, hrows⟩ :=
    RowKind.Distinct.covers_sweepAfter t cfg none {} (s := { rows }) h
  rw [hall.length_eq] at hresult hexecutions
  rw [List.nil_append] at htouched
  rw [k.due_none] at hrows
  rw [Nat.zero_add, Nat.zero_add] at hresult
  refine ⟨run_of_result hkey hresult, hexecutions, ?_, ?_, hrows⟩
  · rw [show outcome.state.touched = _ from htouched]
    exact hall.map k.key
  · rw [show outcome.state.touched = _ from htouched]
    exact List.pairwise_map.mpr (h.pending none)

/-- Rows of a key and a flag. What becomes of the flag of a row that is touched may depend on the
statement and the row. -/
def RowKind.plain (order : KeyOrder) (outcome : Nat → Key → Bool) : RowKind (Key × Bool) where
  order
  key := Prod.fst
  flagged := Prod.snd
  touch n r := (r.1, outcome n r.1)
  key_touch _ _ := rfl

/-- Two flagged rows in batches of one. The flag of the first is cleared, that of the other is
not. -/
theorem run_covers_flagged_of_reviews :
    let rank : Key → Int
      | [.int n] => n
      | _ => 0
    let k := RowKind.plain (.ofRank rank) fun n _ => n != 0
    let t : Target := ⟨"public", "reviews", ["id"]⟩
    let cfg : Settings := ⟨1, .whole 0, by decide⟩
    let rows := [([.int 3], true), ([.int 1], true), ([.int 2], false)]
    let source := k.source cfg.batchSize
    let outcome := sweep source t cfg { rows }
    t.primaryKey ≠ [] ∧ k.Distinct rows ∧
      run source t cfg { rows } = (outcome.events, .ok ⟨2, 2⟩) ∧
      executions outcome.events = 3 := by
  intro rank k t cfg rows source outcome
  have hkey : t.primaryKey ≠ [] := by decide
  have h : k.Distinct rows := by
    show List.Pairwise _ _
    decide
  have hn : (rows.filter k.flagged).length = 2 := rfl
  have hbatches : (2 + cfg.batchSize - 1) / cfg.batchSize = 2 := Nat.div_one _
  have hfull : 2 / cfg.batchSize = 2 := Nat.div_one _
  obtain ⟨hrun, hexecutions, -⟩ := run_covers_flagged k t cfg rows hkey h
  rw [hn, hbatches] at hrun
  rw [hn, hfull] at hexecutions
  exact ⟨hkey, h, hrun, hexecutions⟩

end SchemaLedger.Backfill
