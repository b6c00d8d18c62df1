import SchemaLedger.Environment
import SchemaLedger.Ledger.Database
import SchemaLedger.Session.Suppression
import SchemaLedger.Sql.StateSchema

/-!
# Installing the tables of the tool

An installation executes the statements that create the state schema, out of sight of the hook for
statements from outside, and then records the version of the tool. It can be repeated: tables that
are there keep their rows, and a version that was recorded keeps its time.

The main statement: an installation that succeeds leaves tables with the rows that were there
before (`init_rows`).
-/

namespace SchemaLedger

/-- A session with the database behind it. -/
structure Connection where
  session : Session := {}
  database : Database
  deriving DecidableEq, Repr

/-- Records a version unless it was recorded before. -/
def Tables.marked (t : Tables) (version : String) (now : Moment) : Tables :=
  if t.versions.any (·.version = version) then t
  else { t with versions := t.versions ++ [⟨version, now⟩] }

namespace Database

/-- Whether the tables are there. -/
def isInitialized (d : Database) : Bool := d.tables.isSome

/-- The database with tables, in which a version is recorded. -/
def initialized (d : Database) (version : String) (now : Moment) : Database :=
  ⟨some ((d.tables.getD {}).marked version now)⟩

/-- The recorded versions in the order of their times, which are given in UTC. -/
def versions (d : Database) : Except Failure (List VersionMark) :=
  match d.tables with
  | none => .error .database
  | some t =>
    let notAfter := fun a b : VersionMark =>
      decide (a.initializedAt.instant ≤ b.initializedAt.instant)
    .ok ((t.versions.mergeSort notAfter).map fun v =>
      { v with initializedAt := v.initializedAt.toUtc })

theorem migrations_marked (t : Tables) (version : String) (now : Moment) :
    (t.marked version now).migrations = t.migrations := by
  unfold Tables.marked
  split <;> rfl

@[simp] theorem rows_initialized (d : Database) (version : String) (now : Moment) :
    (d.initialized version now).rows = d.rows := by
  unfold initialized rows
  cases d.tables <;> simp [migrations_marked]

end Database

namespace Installation

/-- An action on the session of a connection. -/
def onSession (x : Attempt Fault Session α) : Attempt Fault Connection α :=
  x.within (·.session) ({ · with session := · })

/-- Changes the database of a connection. -/
def onDatabase (f : Database → Database) : Attempt Fault Connection Unit :=
  .modify fun c => { c with database := f c.database }

/-- The statements of an installation. -/
def statements (env : Environment) (capture : Bool) : List String :=
  Sql.initStatements env.stateSchema capture

/-- Executes statements out of sight of the hook. -/
def executeHidden (list : List String) : Attempt Fault Session Unit :=
  Session.suppressing (.each Session.execute list)

/-- The version to record: the given one unless it is empty, else that of the environment. -/
def versionToRecord (env : Environment) (given : Option String) : String :=
  match given with
  | none | some "" => env.toolVersion
  | some v => v

/-- Installs the tables. -/
def init (env : Environment) (now : Moment) (version : Option String) (capture : Option Bool) :
    Attempt Fault Connection Unit := do
  onSession (executeHidden (statements env (capture.getD env.captureDdl)))
  onDatabase (·.initialized (versionToRecord env version) now)

/-- Removes the tables with all they hold. -/
def uninstall (env : Environment) : Attempt Fault Connection Unit := do
  onSession (.each Session.execute (Sql.dropStateSchema env.stateSchema))
  onDatabase fun _ => ⟨none⟩

/-- The installation as one step in a series of revisions of the database. -/
def upgrade (env : Environment) : Attempt Fault Session Unit := do
  executeHidden (statements env env.captureDdl)
  Session.execute (Sql.recordVersion env.stateSchema env.toolVersion)

/-- The reverse of that step; it leaves the schema itself to the other revisions. -/
def downgrade (env : Environment) : Attempt Fault Session Unit :=
  .each Session.execute (Sql.dropObjects env.stateSchema)

theorem init_rows {env : Environment} {now : Moment} {version : Option String}
    {capture : Option Bool} {c c' : Connection}
    (h : init env now version capture c = (.ok (), c')) :
    c'.database.rows = c.database.rows ∧ c'.database.isInitialized = true := by
  unfold init at h
  cases hx : onSession (executeHidden (statements env (capture.getD env.captureDdl))) c with
  | mk r d =>
    have hd : d.database = c.database := by
      have := congrArg (·.2.database) hx
      simpa [onSession, Attempt.within] using this.symm
    cases r with
    | error e => rw [Attempt.bind_error hx] at h; simp at h
    | ok u =>
      rw [Attempt.bind_ok hx] at h
      have := congrArg Prod.snd h
      simp only [onDatabase, Attempt.modify_apply] at this
      subst this
      simp [hd, Database.isInitialized, Database.initialized]
      rw [← Database.initialized, Database.rows_initialized]

end Installation

end SchemaLedger
