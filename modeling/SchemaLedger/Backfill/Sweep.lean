import SchemaLedger.Backfill.Settings
import SchemaLedger.Backfill.Statement
import SchemaLedger.Ledger.Error

/-!
# The sweep over the rows of a table

A sweep executes one batch after another, each in a session of its own, until a batch comes back
with fewer rows than it could have. The rows come from a source that runs dry: whatever was fetched,
less remains behind the key of the last row.
-/

namespace SchemaLedger.Backfill

/-- The keys of the rows that a batch touched, in ascending order. -/
abbrev Page := List Key

/-- A source of pages in a state of type `σ`. -/
structure Source (σ : Type) where
  /-- Executes the batch behind a key. -/
  fetch : (after : Option Key) → σ → Except Failure Page × σ
  /-- A bound on the rows that remain behind a key. -/
  remaining : (after : Option Key) → σ → Nat
  /-- After a page with rows less remains. -/
  remaining_lt : ∀ {after : Option Key} {s s' : σ} {page : Page} (h : page ≠ []),
    fetch after s = (.ok page, s') → remaining (some (page.getLast h)) s' < remaining after s

/-- What happens in the course of a sweep. -/
inductive Event where
  /-- A session was opened. -/
  | opened
  /-- A statement was executed, or failed. -/
  | executed (statement : String) (parameters : Parameters)
  /-- The batch was committed. -/
  | committed
  /-- The session was closed. -/
  | closed
  /-- So many rows were touched so far. -/
  | progress (rows : Nat)
  /-- The sweep waited. -/
  | slept (delay : Delay)
  deriving DecidableEq, Repr

/-- How much a sweep has done. -/
structure Totals where
  rows : Nat := 0
  batches : Nat := 0
  deriving DecidableEq, Repr

/-- The totals after one more page. -/
def Totals.add (t : Totals) (page : Page) : Totals := ⟨t.rows + page.length, t.batches + 1⟩

/-- What came of a sweep. -/
structure Outcome (σ : Type) where
  events : List Event
  result : Except Failure Totals
  state : σ

/-- The outcome with events that came before. -/
def Outcome.after (o : Outcome σ) (before : List Event) : Outcome σ :=
  { o with events := before ++ o.events }

/-- The execution of a batch in a new session. -/
def asking (t : Target) (cfg : Settings) (after : Option Key) : List Event :=
  [.opened,
    .executed (t.batchText SyncTrigger.needsBackfillColumn after.isNone) ⟨cfg.batchSize, after⟩]

/-- The wait between two batches. -/
def pause (cfg : Settings) : List Event :=
  if cfg.delay.isPositive then [.slept cfg.delay] else []

/-- Sweeps the rows behind a key. -/
def sweepAfter (source : Source σ) (t : Target) (cfg : Settings) (after : Option Key)
    (totals : Totals) (s : σ) : Outcome σ :=
  match _h : source.fetch after s with
  | (.error f, s') => ⟨asking t cfg after ++ [.closed], .error f, s'⟩
  | (.ok page, s') =>
    let done := asking t cfg after ++ [.committed, .closed]
    if hp : page = [] then ⟨done, .ok totals, s'⟩
    else
      let totals := totals.add page
      let reported := done ++ [.progress totals.rows]
      -- a page that is not full is the last one
      if page.length < cfg.batchSize then ⟨reported, .ok totals, s'⟩
      else
        (sweepAfter source t cfg (some (page.getLast hp)) totals s').after (reported ++ pause cfg)
termination_by source.remaining after s
decreasing_by exact source.remaining_lt hp _h

/-- Sweeps all rows. -/
def sweep (source : Source σ) (t : Target) (cfg : Settings) (s : σ) : Outcome σ :=
  sweepAfter source t cfg none {} s

/-- Takes the first of the answers that are left; after the last one there are no more rows. -/
def takeAnswer : List (Except Failure Page) → Except Failure Page × List (Except Failure Page)
  | [] => (.ok [], [])
  | answer :: rest => (answer, rest)

theorem length_takeAnswer {answers rest : List (Except Failure Page)} {page : Page}
    (h : page ≠ []) (ht : takeAnswer answers = (.ok page, rest)) :
    rest.length < answers.length := by
  cases answers with
  | nil => simp_all [takeAnswer]
  | cons a as => cases ht; simp

/-- The source that gives prepared answers, one after another. -/
def Source.prepared : Source (List (Except Failure Page)) where
  fetch _ answers := takeAnswer answers
  remaining _ answers := answers.length
  remaining_lt := length_takeAnswer

/-- Answers with the given pages, of which the `n`-th, counted from one, is a failure instead. -/
def answersWith (pages : List Page) (failing : Option (Nat × Failure)) :
    List (Except Failure Page) :=
  let answers := pages.map .ok ++ [.ok []]
  match failing with
  | none | some (0, _) => answers
  | some (n + 1, f) => answers.set n (.error f)

/-- Why a backfill did not come to its end. -/
inductive RunError where
  | noPrimaryKey (t : Target)
  | failed (f : Failure)
  deriving DecidableEq, Repr

/-- Sweeps a table, if it has a primary key. -/
def run (source : Source σ) (t : Target) (cfg : Settings) (s : σ) :
    List Event × Except RunError Totals :=
  if t.primaryKey.isEmpty then ([], .error (.noPrimaryKey t))
  else
    let outcome := sweep source t cfg s
    (outcome.events, outcome.result.mapError .failed)

end SchemaLedger.Backfill
