import SchemaLedger.Backfill.Sweep
import SchemaLedger.Command.Help
import SchemaLedger.Text.Line

/-!
# What a command reports

A command prints lines and ends with a status, or it fails. The lines that were printed before a
failure stay printed.
-/

namespace SchemaLedger.Command

/-- Why a command failed. -/
inductive Fatal where
  | failure (f : Failure)
  | settings (e : Backfill.SettingsError)
  | noPrimaryKey (t : Backfill.Target)
  /-- A number is needed where an option was given without a value. -/
  | noNumber
  /-- A name is needed where an option was given without a value. -/
  | noName
  deriving DecidableEq, Repr

/-- The sentence for a failure that is told in one. -/
def Fatal.message? : Fatal → Option String
  | failure f => f.message?
  | settings .batchSizeNotPositive => some "batch size must be > 0"
  | settings _ | noNumber | noName => none
  | noPrimaryKey t => some t.noPrimaryKey

/-- How a command ended. -/
inductive Exit where
  /-- With a status. -/
  | status (code : Nat)
  /-- With a failure. -/
  | failed (e : Fatal)
  deriving DecidableEq, Repr

/-- What a command printed, and how it ended. -/
structure Report where
  lines : List String
  exit : Exit
  deriving DecidableEq, Repr

namespace Report

/-- The end of a command that did what it should. -/
def success (lines : List String) : Report := ⟨lines, .status 0⟩

/-- The end of a command that was not run. -/
def stopped (s : Synopsis) : Stop → Report
  | .help => ⟨s.help, .status 0⟩
  | .usage => ⟨[], .status 2⟩

/-- The end of a command that failed before it printed anything. -/
def failed (f : Failure) : Report := ⟨[], .failed (.failure f)⟩

/-- The lines as they appear: a name with a line break in it makes several of one. -/
def printed (r : Report) : List String := r.lines.flatMap fun line => Text.lines (line ++ "\n")

end Report

/-- A text that may be missing, in a line. -/
def shown (s : Option String) : String := s.getD "None"

end SchemaLedger.Command
