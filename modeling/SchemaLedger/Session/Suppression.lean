import SchemaLedger.Session.Basic
import SchemaLedger.Sql.CaptureHook

/-!
# Keeping statements out of the history

While a flag of the transaction is set, the hook for statements from outside leaves them alone. The
tool sets the flag around its own statements and clears it afterwards, unless a failed statement
made the transaction unusable. Since the flag is a setting of the transaction, the end of an inner
block clears it for the outer block too.

The main statement: the error that leaves a block is the one raised inside it
(`suppressing_error`).
-/

namespace SchemaLedger

namespace Session

/-- Sets or clears the flag. -/
def setFlag (value : String) : Attempt Fault Session Unit := assign Sql.suppressSetting value

/-- Whether a value of the flag keeps statements out. -/
def isSet (value : Option String) : Bool := value = some "TRUE"

/-- Asks whether statements are kept out. -/
def suppressed : Attempt Fault Session Bool := do
  return isSet (← setting Sql.suppressSetting)

/-- The session after a block, given the fault that ended the block if there was one: the flag is
cleared, but a transaction that is unusable is left alone. -/
def afterBlock (s : Session) : Option Fault → Session
  | some f => if f.abortsTransaction then s else (setFlag "" s).2
  | none => (setFlag "" s).2

/-- Runs an action with the flag set, and clears the flag afterwards. -/
def suppressing (body : Attempt Fault Session α) : Attempt Fault Session α := fun s =>
  match body (setFlag "TRUE" s).2 with
  | (.ok a, s') => (.ok a, s'.afterBlock none)
  | (.error f, s') => (.error f, s'.afterBlock (some f))

theorem suppressing_error {body : Attempt Fault Session α} {s : Session} {f : Fault} :
    (suppressing body s).1 = .error f ↔ (body (setFlag "TRUE" s).2).1 = .error f := by
  unfold suppressing
  split <;> simp_all

end Session

/-- A program over a session: it asks for the flag, executes statements, opens blocks in which they
are kept out of the history, handles errors, and raises them. -/
inductive Program where
  /-- Asks whether statements are kept out. -/
  | check
  /-- Executes a defining statement. -/
  | execute (statement : String)
  /-- Runs programs inside a block. -/
  | block (body : List Program)
  /-- Runs programs and goes on after an error. -/
  | handle (body : List Program)
  /-- Raises an error. -/
  | raise (f : Fault)
  deriving Repr

namespace Program

mutual

/-- Runs a program. -/
def run : Program → Attempt Fault Session Unit
  | check => do
    let _ ← Session.suppressed
  | execute statement => Session.execute statement
  | block body => Session.suppressing (runAll body)
  | handle body => Session.handling (runAll body)
  | raise f => .fail f
termination_by structural p => p

/-- Runs programs one after the other, until one of them fails. -/
def runAll : List Program → Attempt Fault Session Unit
  | [] => pure ()
  | p :: rest => do
    run p
    runAll rest
termination_by structural ps => ps

end

end Program

/-- What a program saw: the flag, or an error that it handled. -/
inductive Observation where
  | flag (suppressed : Bool)
  | caught (f : Fault)
  deriving DecidableEq, Repr

/-- What was seen in the course of a journal. -/
def observations (journal : List Entry) : List Observation :=
  journal.filterMap fun
    | .read name value =>
      if name = Sql.suppressSetting then some (.flag (Session.isSet value)) else none
    | .handled f => some (.caught f)
    | _ => none

end SchemaLedger
