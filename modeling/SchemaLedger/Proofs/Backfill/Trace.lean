import Mathlib.Algebra.Ring.Nat
import Mathlib.Data.Nat.Find
import SchemaLedger.Backfill.Sweep

/-!
# The course of a sweep

What happens in the course of a sweep, in which order, told without the loop: from the pages alone
(`run_trace`). Each batch is executed in a session of its own, which is closed before anything is
reported of the batch (`settled`). Full pages are followed by the wait for the next batch
(`batchesBefore`), and the sweep ends with the first page that is not full, or with the batch that
fails (`broken`).

A step of the sweep is told by the answer to its batch (`sweepAfter_of_error`, `sweepAfter_of_short`,
`sweepAfter_of_full`). The pages before a batch tell all that the sweep carries along, which is the
key to start behind and the totals so far; so after any number of full pages the sweep is known
(`sweep_eq_after`), and the step that ends it is taken from there.
-/

namespace SchemaLedger.Backfill

/-- The totals of pages. An empty page is no batch. -/
def Totals.ofPages (pages : List Page) : Totals :=
  ⟨(pages.map List.length).sum, pages.countP (!·.isEmpty)⟩

/-- The page of a batch. After the last page there are empty ones. -/
def pageOf (pages : List Page) (batch : Nat) : Page := pages[batch]?.getD []

/-- What the pages before a batch add up to. -/
def totalsBefore (pages : List Page) (batch : Nat) : Totals := .ofPages (pages.take batch)

/-- The key that a batch starts behind. The first one has none, and every other one has the last row
of the page before. -/
def startKey (pages : List Page) : (batch : Nat) → Option Key
  | 0 => none
  | batch + 1 => (pageOf pages batch).getLast?

/-- A batch that does not fail. It is committed and its session closed, and then the rows so far are
reported, if the page has any. -/
def settled (t : Target) (cfg : Settings) (pages : List Page) (batch : Nat) : List Event :=
  asking t cfg (startKey pages batch) ++ [.committed, .closed] ++
    if pageOf pages batch = [] then [] else [.progress (totalsBefore pages (batch + 1)).rows]

/-- A batch that fails. Its session is closed, and nothing is committed. -/
def broken (t : Target) (cfg : Settings) (pages : List Page) (batch : Nat) : List Event :=
  asking t cfg (startKey pages batch) ++ [.closed]

/-- The batches before one, each of them with the wait for the next. -/
def batchesBefore (t : Target) (cfg : Settings) (pages : List Page) (batch : Nat) : List Event :=
  (List.range batch).flatMap fun i => settled t cfg pages i ++ pause cfg

/-! ## One batch -/

section Step

variable {σ : Type} {source : Source σ} {t : Target} {cfg : Settings} {after : Option Key}
  {totals : Totals} {s s' : σ} {page : Page}

/-- A batch that fails ends the sweep. -/
theorem sweepAfter_of_error {f : Failure} (h : source.fetch after s = (.error f, s')) :
    sweepAfter source t cfg after totals s = ⟨asking t cfg after ++ [.closed], .error f, s'⟩ := by
  rw [sweepAfter]
  split
  next f' s'' h' =>
    obtain ⟨hf, rfl⟩ := Prod.mk.inj (h'.symm.trans h)
    rw [Except.error.inj hf]
  next h' => cases h'.symm.trans h

/-- What a batch is answered with decides what is done with its page. -/
theorem sweepAfter_of_ok (h : source.fetch after s = (.ok page, s')) :
    sweepAfter source t cfg after totals s =
      let done := asking t cfg after ++ [.committed, .closed]
      if hp : page = [] then ⟨done, .ok totals, s'⟩
      else
        let totals := totals.add page
        let reported := done ++ [.progress totals.rows]
        if page.length < cfg.batchSize then ⟨reported, .ok totals, s'⟩
        else
          (sweepAfter source t cfg (some (page.getLast hp)) totals s').after
            (reported ++ pause cfg) := by
  rw [sweepAfter]
  split
  next h' => cases h'.symm.trans h
  next page' s'' h' =>
    obtain ⟨hpage, rfl⟩ := Prod.mk.inj (h'.symm.trans h)
    obtain rfl := Except.ok.inj hpage
    rfl

/-- A page that is not full ends the sweep, too. If there are rows on it, they are counted and
reported. -/
theorem sweepAfter_of_short (h : source.fetch after s = (.ok page, s'))
    (hshort : page.length < cfg.batchSize) :
    sweepAfter source t cfg after totals s =
      ⟨asking t cfg after ++ [.committed, .closed] ++
          if page = [] then [] else [.progress (totals.add page).rows],
        .ok (if page = [] then totals else totals.add page), s'⟩ := by
  rw [sweepAfter_of_ok h]
  by_cases hp : page = []
  · rw [dif_pos hp, if_pos hp, if_pos hp, List.append_nil]
  · rw [dif_neg hp, if_neg hp, if_neg hp, if_pos hshort]

/-- After a full page the sweep waits and goes on behind its last row. -/
theorem sweepAfter_of_full (h : source.fetch after s = (.ok page, s'))
    (hfull : cfg.batchSize ≤ page.length) :
    sweepAfter source t cfg after totals s =
      (sweepAfter source t cfg page.getLast? (totals.add page) s').after
        (asking t cfg after ++ [.committed, .closed] ++ [.progress (totals.add page).rows] ++
          pause cfg) := by
  have hsize := cfg.batchSize_pos
  have hp : page ≠ [] := List.ne_nil_of_length_pos (by omega)
  rw [sweepAfter_of_ok h, dif_neg hp, if_neg (by omega), List.getLast?_eq_some_getLast hp]

end Step

/-! ## Prepared answers -/

/-- The answer to a batch, with the answers that are left for the batches behind it. -/
theorem takeAnswer_drop (answers : List (Except Failure Page)) (batch : Nat) :
    takeAnswer (answers.drop batch) = (answers[batch]?.getD (.ok []), answers.drop (batch + 1)) := by
  by_cases h : batch < answers.length
  · rw [List.drop_eq_getElem_cons h, takeAnswer, List.getElem?_eq_getElem h, Option.getD_some]
  · rw [List.drop_eq_nil_of_le (by omega), List.drop_eq_nil_of_le (by omega),
      List.getElem?_eq_none (by omega), takeAnswer, Option.getD_none]

/-- Without a failure the answer to each batch is its page. -/
theorem getD_answersWith_none (pages : List Page) (batch : Nat) :
    (answersWith pages none)[batch]?.getD (.ok []) = .ok (pageOf pages batch) := by
  show (pages.map Except.ok ++ [.ok []])[batch]?.getD (.ok []) = _
  rw [List.getElem?_append, List.length_map]
  split
  next h => simp [pageOf, h]
  next h =>
    rw [pageOf, List.getElem?_eq_none (Nat.le_of_not_lt h)]
    cases batch - pages.length <;> rfl

/-- A failure takes the place of a page. -/
theorem getD_answersWith_some (pages : List Page) (f : Failure) {n batch : Nat}
    (hbatch : batch ≤ pages.length) :
    (answersWith pages (some (n + 1, f)))[batch]?.getD (.ok []) =
      if n = batch then .error f else .ok (pageOf pages batch) := by
  show ((answersWith pages none).set n (.error f))[batch]?.getD (.ok []) = _
  have hlength : batch < (answersWith pages none).length := by simp [answersWith]; omega
  rw [List.getElem?_set]
  split
  next h => rw [if_pos (h ▸ hlength), Option.getD_some]
  next h => exact getD_answersWith_none pages batch

/-! ## The whole course -/

theorem totalsBefore_succ (pages : List Page) (batch : Nat) :
    totalsBefore pages (batch + 1) =
      if pageOf pages batch = [] then totalsBefore pages batch
      else (totalsBefore pages batch).add (pageOf pages batch) := by
  rw [totalsBefore, totalsBefore, List.take_add_one, pageOf]
  cases pages[batch]? with
  | none => simp
  | some page => cases page <;> simp [Totals.ofPages, Totals.add]

variable {t : Target} {cfg : Settings} {pages : List Page} {answers : List (Except Failure Page)}
  {batch : Nat} {f : Failure}

/-- What a batch is answered with. -/
theorem fetch_prepared (after : Option Key) (answers : List (Except Failure Page)) (batch : Nat) :
    Source.prepared.fetch after (answers.drop batch) =
      (answers[batch]?.getD (.ok []), answers.drop (batch + 1)) := takeAnswer_drop answers batch

/-- **The sweep after full pages.** What the sweep carries along is told by the pages before. The
induction is on their number. -/
theorem sweep_eq_after
    (h : ∀ i < batch, answers[i]?.getD (.ok []) = .ok (pageOf pages i) ∧
      cfg.batchSize ≤ (pageOf pages i).length) :
    sweep .prepared t cfg answers =
      (sweepAfter .prepared t cfg (startKey pages batch) (totalsBefore pages batch)
        (answers.drop batch)).after (batchesBefore t cfg pages batch) := by
  induction batch with
  | zero => rfl
  | succ batch ih =>
    obtain ⟨hanswer, hfull⟩ := h batch (Nat.lt_succ_self batch)
    have hsize := cfg.batchSize_pos
    have hp : pageOf pages batch ≠ [] := List.ne_nil_of_length_pos (by omega)
    have hfetch := fetch_prepared (startKey pages batch) answers batch
    rw [hanswer] at hfetch
    have hbatches : batchesBefore t cfg pages (batch + 1) =
        batchesBefore t cfg pages batch ++ (settled t cfg pages batch ++ pause cfg) := by
      rw [batchesBefore, List.range_succ, List.flatMap_append, List.flatMap_singleton]
      rfl
    have htotals := totalsBefore_succ pages batch
    rw [if_neg hp] at htotals
    rw [ih fun i hi => h i (Nat.lt_succ_of_lt hi), sweepAfter_of_full hfetch hfull, hbatches,
      settled, if_neg hp, htotals]
    simp only [Outcome.after, startKey, List.append_assoc]

/-- The sweep up to a page that is not full. -/
theorem run_of_short (hkey : t.primaryKey ≠ [])
    (hanswers : ∀ i ≤ batch, answers[i]?.getD (.ok []) = .ok (pageOf pages i))
    (hfull : ∀ i < batch, cfg.batchSize ≤ (pageOf pages i).length)
    (hshort : (pageOf pages batch).length < cfg.batchSize) :
    run .prepared t cfg answers =
      (batchesBefore t cfg pages batch ++ settled t cfg pages batch,
        .ok (totalsBefore pages (batch + 1))) := by
  have hfetch := fetch_prepared (startKey pages batch) answers batch
  rw [hanswers batch (Nat.le_refl _)] at hfetch
  rw [run, if_neg (by simpa using hkey),
    sweep_eq_after fun i hi => ⟨hanswers i (Nat.le_of_lt hi), hfull i hi⟩,
    sweepAfter_of_short hfetch hshort, settled, totalsBefore_succ]
  split <;> rfl

/-- The sweep up to a failure. -/
theorem run_of_error (hkey : t.primaryKey ≠ [])
    (hanswers : ∀ i < batch, answers[i]?.getD (.ok []) = .ok (pageOf pages i))
    (hfull : ∀ i < batch, cfg.batchSize ≤ (pageOf pages i).length)
    (herror : answers[batch]?.getD (.ok []) = .error f) :
    run .prepared t cfg answers =
      (batchesBefore t cfg pages batch ++ broken t cfg pages batch, .error (.failed f)) := by
  have hfetch := fetch_prepared (startKey pages batch) answers batch
  rw [herror] at hfetch
  rw [run, if_neg (by simpa using hkey), sweep_eq_after fun i hi => ⟨hanswers i hi, hfull i hi⟩,
    sweepAfter_of_error hfetch, broken]
  rfl

/-- One of the pages is the first that is not full, or the empty one behind them is. -/
theorem exists_short (size : Nat) (hsize : 0 < size) (pages : List Page) :
    ∃ last ≤ pages.length, (∀ i < last, size ≤ (pageOf pages i).length) ∧
      (pageOf pages last).length < size := by
  have hend : (pageOf pages pages.length).length < size := by simpa [pageOf] using hsize
  have hexists : ∃ i, (pageOf pages i).length < size := ⟨_, hend⟩
  exact ⟨Nat.find hexists, Nat.find_min' hexists hend,
    fun i hi => Nat.le_of_not_lt (Nat.find_min hexists hi), Nat.find_spec hexists⟩

/-- **The trace of a run.** Batches are executed up to the first page that is not full, where the
pages given are followed by empty ones, or up to the one that fails. Each of them has a session of
its own, and starts behind the last row of the page before. It is committed exactly if it does not
fail, and reported after that if there are rows on its page, with the number of rows so far. Between
two batches there is a wait. If none fails, the answer has the number of rows on the pages and the
number of pages with rows; a failure is passed on. -/
theorem run_trace (t : Target) (cfg : Settings) (pages : List Page) (hkey : t.primaryKey ≠ []) :
    ∃ last, (∀ i < last, cfg.batchSize ≤ (pageOf pages i).length) ∧
      (pageOf pages last).length < cfg.batchSize ∧
      let whole : List Event × Except RunError Totals :=
        (batchesBefore t cfg pages last ++ settled t cfg pages last,
          .ok (.ofPages (pages.take (last + 1))))
      run .prepared t cfg (answersWith pages none) = whole ∧
      ∀ n f, run .prepared t cfg (answersWith pages (some (n + 1, f))) =
        if n ≤ last then
          (batchesBefore t cfg pages n ++ broken t cfg pages n, .error (.failed f))
        else whole := by
  obtain ⟨last, hlast, hfull, hshort⟩ := exists_short cfg.batchSize cfg.batchSize_pos pages
  refine ⟨last, hfull, hshort, ?_, fun n f => ?_⟩
  · exact run_of_short hkey (fun i _ => getD_answersWith_none pages i) hfull hshort
  have hanswer := fun i (hi : i ≤ last) =>
    getD_answersWith_some pages f (n := n) (Nat.le_trans hi hlast)
  split
  next hn =>
    refine run_of_error hkey (fun i hi => ?_) (fun i hi => hfull i (by omega)) ?_
    · rw [hanswer i (by omega), if_neg (by omega)]
    · rw [hanswer n hn, if_pos rfl]
  next hn =>
    refine run_of_short hkey (fun i hi => ?_) hfull hshort
    rw [hanswer i hi, if_neg (by omega)]

/-- Five rows in batches of two, without a failure and with one in the second batch. -/
theorem run_trace_of_reviews :
    let t : Target := ⟨"public", "reviews", ["id"]⟩
    let cfg : Settings := ⟨2, .whole 1, by decide⟩
    let pages : List Page := [[[.int 1], [.int 2]], [[.int 3], [.int 4]], [[.int 5]]]
    let committed (after : Option Key) : List Event := asking t cfg after ++ [.committed, .closed]
    t.primaryKey ≠ [] ∧
      run .prepared t cfg (answersWith pages none) =
        (committed none ++ [.progress 2, .slept (.whole 1)] ++
          committed (some [.int 2]) ++ [.progress 4, .slept (.whole 1)] ++
          committed (some [.int 4]) ++ [.progress 5], .ok ⟨5, 3⟩) ∧
      run .prepared t cfg (answersWith pages (some (2, .database))) =
        (committed none ++ [.progress 2, .slept (.whole 1)] ++
          asking t cfg (some [.int 2]) ++ [.closed], .error (.failed .database)) := by
  intro t cfg pages committed
  have hkey : t.primaryKey ≠ [] := by decide
  obtain ⟨last, hfull, hshort, hwhole, hbroken⟩ := run_trace t cfg pages hkey
  have hlast : last = 2 := by
    match last with
    | 0 | 1 => exact absurd hshort (by decide)
    | 2 => rfl
    | n + 3 => exact absurd (hfull 2 (by omega)) (by decide)
  subst hlast
  exact ⟨hkey, hwhole, hbroken 1 .database⟩

end SchemaLedger.Backfill
