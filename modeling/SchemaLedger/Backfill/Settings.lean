import SchemaLedger.Environment
import SchemaLedger.Number.Read

/-!
# The settings of a backfill

How many rows a batch has, and how long to wait between two batches. What is not given is taken
from the environment.
-/

namespace SchemaLedger.Backfill

/-- A time in seconds, as it was given. -/
inductive Delay where
  | whole (seconds : Int)
  | fraction (seconds : Binary64)
  deriving DecidableEq, Repr

/-- Whether there is anything to wait for. -/
def Delay.isPositive : Delay → Bool
  | whole n => decide (0 < n)
  | fraction x => x.isPositive

/-- The settings of a backfill; a batch has at least one row. -/
structure Settings where
  batchSize : Nat
  delay : Delay
  batchSize_pos : 0 < batchSize
  deriving DecidableEq, Repr

/-- What can be wrong with the settings. -/
inductive SettingsError where
  /-- The size in the environment is no integer. -/
  | batchSizeUnreadable
  /-- The delay in the environment is no number. -/
  | delayUnreadable
  /-- A batch would have no rows. -/
  | batchSizeNotPositive
  deriving DecidableEq, Repr

/-- The size of a batch that the environment asks for. -/
def batchSizeFrom (env : Environment) : Except SettingsError Int :=
  match Number.readInt? (env.valueOr "PGROLL_BACKFILL_BATCH_SIZE" "1000") with
  | some n => .ok n
  | none => .error .batchSizeUnreadable

/-- The delay that the environment asks for. -/
def delayFrom (env : Environment) : Except SettingsError Delay :=
  match Number.readFloat? (env.valueOr "PGROLL_BACKFILL_DELAY_S" "0") with
  | some x => .ok (.fraction x)
  | none => .error .delayUnreadable

/-- The settings from what is given and from the environment. -/
def settings (env : Environment) (batchSize : Option Int) (delay : Option Delay) :
    Except SettingsError Settings := do
  let size ← match batchSize with
    | some n => .ok n
    | none => batchSizeFrom env
  let delay ← match delay with
    | some d => .ok d
    | none => delayFrom env
  if h : 0 < size then
    return { batchSize := size.toNat, delay, batchSize_pos := by omega }
  else .error .batchSizeNotPositive

end SchemaLedger.Backfill
