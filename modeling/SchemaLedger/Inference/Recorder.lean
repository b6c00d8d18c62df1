import SchemaLedger.Inference.Attribution
import SchemaLedger.Ledger.Store

/-!
# Inferred steps

A schema change from outside the tool becomes a step of the history by itself. The recorder draws
on three things outside the ledger: a clock, a supply of version labels and a reader of schema
snapshots. It notes what it asked them for, so that "it was not asked" can be said of them.
-/

namespace SchemaLedger

/-- What the recorder asked for. -/
inductive Request where
  | time
  | label
  | snapshot (schema : String)
  deriving DecidableEq, Repr

/-- A ledger together with the labels that are left and the requests made so far. -/
structure Desk (σ : Type) where
  ledger : σ
  labels : List String
  requests : List Request := []
  deriving DecidableEq, Repr

/-- What surrounds the recorder during one event. -/
structure Surroundings where
  /-- Whether changes are to be left out of the history. -/
  suppressed : Bool
  /-- What the clock shows. -/
  now : Moment
  /-- Reads the snapshot of a schema. -/
  snapshot : String → Except Failure Value

namespace Recorder

variable {σ : Type}

/-- An operation on the ledger. -/
def onLedger (x : Action σ α) : Action (Desk σ) α :=
  x.within (·.ledger) ({ · with ledger := · })

/-- Notes a request. -/
def note (r : Request) : Action (Desk σ) Unit :=
  .modify fun d => { d with requests := d.requests ++ [r] }

/-- Reads the clock. -/
def readClock (s : Surroundings) : Action (Desk σ) Moment := do
  note .time
  return s.now

/-- Reads the snapshot of a schema. -/
def readSnapshot (s : Surroundings) (schema : String) : Action (Desk σ) Value := do
  note (.snapshot schema)
  .lift (s.snapshot schema)

/-- The requests and labels after drawing labels until one is not taken. -/
def drawFresh (taken : List String) : List String → List Request × List String × Option String
  | [] => ([.label], [], none)
  | label :: rest =>
    if label ∈ taken then
      let (requests, left, found) := drawFresh taken rest
      (.label :: requests, left, found)
    else ([.label], rest, some label)

/-- Draws labels until one is not taken. -/
def drawLabel (taken : List String) : Action (Desk σ) String := fun d =>
  let (requests, left, found) := drawFresh taken d.labels
  (match found with
    | some label => .ok label
    | none => .error .noLabelLeft,
    { d with labels := left, requests := d.requests ++ requests })

/-- The operation as one transaction of the ledger: when it fails, the ledger is put back, while the
labels that were drawn stay drawn. -/
def inTransaction (x : Action (Desk σ) α) : Action (Desk σ) α := fun d =>
  match x d with
  | (.ok a, d') => (.ok a, d')
  | (.error e, d') => (.error e, { d' with ledger := d.ledger })

variable [LedgerStore σ]

/-- The beginning of the names of steps inferred before any other step was made. -/
def initialName : String := "00000_initial"

/-- The name of a step inferred at a time: the name of the latest step that was made on purpose,
and the time. -/
def nextName (base : Option Record) (now : Moment) : String :=
  (base.map (·.name)).getD initialName ++ "_" ++ now.stamp

/-- A version label that no record of the schema has. -/
def freshLabel (schema : String) : Action (Desk σ) String := do
  let taken ← onLedger (LedgerStore.versionLabels schema)
  drawLabel taken

/-- What is known of an inferred step when its name is found. -/
structure Naming where
  /-- The name of the tip. -/
  parent : Option String
  /-- The latest step that was made on purpose. -/
  base : Option Record
  /-- What the clock showed. -/
  now : Moment

/-- The name of the step. -/
def Naming.name (n : Naming) : String := nextName n.base n.now

/-- The first half of recording a statement: makes room for a step of `schema` and finds its name.
Of the statements that were sent together only the last one with a given text stays recorded. -/
def nameStep (s : Surroundings) (e : DdlEvent) (schema : String) : Action (Desk σ) Naming := do
  let _ ← onLedger (LedgerStore.deleteInferredDuplicates schema e.timestamp e.statement)
  -- the tip is read after the duplicates are gone
  let latest ← onLedger (LedgerStore.latest schema)
  let now ← readClock s
  let base ← onLedger (LedgerStore.latestNonInferred schema)
  return { parent := latest.map (·.name), base, now }

/-- The second half: records the step under its name. -/
def recordNamed (s : Surroundings) (e : DdlEvent) (schema : String) (n : Naming) :
    Action (Desk σ) Record := do
  let label ← freshLabel schema
  let snapshot ← readSnapshot s schema
  onLedger (LedgerStore.insert s.now
    { schema
      name := n.name
      migration := inferredPayload e.statement label
      parent := n.parent
      done := true
      resultingSchema := snapshot
      migrationType := "inferred"
      createdAt := some e.timestamp
      updatedAt := some e.timestamp })

/-- Records a statement as a step of `schema`. -/
def record (s : Surroundings) (e : DdlEvent) (schema : String) : Action (Desk σ) Record := do
  recordNamed s e schema (← nameStep s e schema)

/-- Goes on with the schema of a reported statement. Nothing comes of the report if changes are
suppressed, if the statement belongs to no one schema, or if a migration of that schema is in
progress. -/
def unlessIgnored (s : Surroundings) (e : DdlEvent) (act : String → Action (Desk σ) α) :
    Action (Desk σ) (Option α) := do
  if s.suppressed then return none
  else
    match e.schema with
    | .error _ | .ok none => return none
    | .ok (some schema) =>
      if ← onLedger (LedgerStore.isActive schema) then return none
      else return some (← act schema)

/-- What becomes of a reported statement: a recorded step, or nothing. -/
def onEvent (s : Surroundings) (e : DdlEvent) : Action (Desk σ) (Option Record) :=
  unlessIgnored s e (record s e)

end Recorder

end SchemaLedger
