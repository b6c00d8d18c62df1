import SchemaLedger.Action

/-!
# Database sessions

Inside one transaction a session has settings that can be read and set, and it executes statements
that define objects. A session keeps a journal of what happened, and it can be told in advance
which of its defining statements will fail.
-/

namespace SchemaLedger

/-- Settings and their values; a setting is listed once. -/
abbrev Settings := List (String × String)

namespace Settings

/-- The value of a setting. -/
def get? (s : Settings) (name : String) : Option String := (s.find? (·.1 = name)).map (·.2)

/-- Sets a setting: in its place if it is listed, else at the end. -/
def put : Settings → String → String → Settings
  | [], name, value => [(name, value)]
  | (n, v) :: rest, name, value =>
    if n = name then (n, value) :: rest else (n, v) :: put rest name value

theorem get?_put_self (s : Settings) (name value : String) :
    (s.put name value).get? name = some value := by
  induction s with
  | nil => simp [put, get?]
  | cons e rest ih =>
    by_cases h : e.1 = name
    · simp [put, get?, h]
    · simpa [put, get?, h] using ih

theorem get?_put_of_ne {s : Settings} {name other value : String} (h : name ≠ other) :
    (s.put name value).get? other = s.get? other := by
  induction s with
  | nil => simp [put, get?, h]
  | cons e rest ih =>
    obtain ⟨n, v⟩ := e
    by_cases he : n = name
    · subst he
      simp [put, get?, h]
    · by_cases ho : n = other
      · subst ho
        simp [put, get?, he]
      · simpa [put, get?, he, ho] using ih

end Settings

/-- A failure together with the failures that it was raised from, the nearest first. -/
structure Fault where
  failure : Failure
  causes : List Failure := []
  deriving DecidableEq, Repr

/-- Whether a fault tells of a statement that failed, which leaves the transaction unusable: it is a
refusal of the database or was raised directly from one. -/
def Fault.abortsTransaction (f : Fault) : Bool :=
  f.failure.fromDatabase || (f.causes.head?.map Failure.fromDatabase).getD false

/-- What happened in a session. -/
inductive Entry where
  /-- A setting was read, with the value that it had. -/
  | read (setting : String) (value : Option String)
  /-- A setting was set. -/
  | assigned (setting value : String)
  /-- A statement was executed under some settings. -/
  | executed (statement : String) (settings : Settings)
  /-- A statement failed. -/
  | refused (statement : String)
  /-- An error was handled, and the session went on. -/
  | handled (f : Fault)
  deriving DecidableEq, Repr

/-- A session in the middle of a transaction. -/
structure Session where
  settings : Settings := []
  journal : List Entry := []
  /-- How many defining statements were tried. -/
  tried : Nat := 0
  /-- The number of the defining statement that will fail, and how. -/
  failing : Option (Nat × Failure) := none
  deriving DecidableEq, Repr

namespace Session

/-- The session with one more entry in its journal. -/
def noting (s : Session) (e : Entry) : Session := { s with journal := s.journal ++ [e] }

/-- Reads a setting; one that was never set has no value. -/
def setting (name : String) : Attempt Fault Session (Option String) := fun s =>
  (.ok (s.settings.get? name), s.noting (.read name (s.settings.get? name)))

/-- Sets a setting for the rest of the transaction. -/
def assign (name value : String) : Attempt Fault Session Unit := fun s =>
  (.ok (), { s with settings := s.settings.put name value }.noting (.assigned name value))

/-- Executes a defining statement. -/
def execute (statement : String) : Attempt Fault Session Unit := fun s =>
  let counted := { s with tried := s.tried + 1 }
  match s.failing with
  | some (n, failure) =>
    if n = counted.tried then (.error { failure }, counted.noting (.refused statement))
    else (.ok (), counted.noting (.executed statement s.settings))
  | none => (.ok (), counted.noting (.executed statement s.settings))

/-- Whether a statement fails or not, it leaves the settings alone. -/
theorem settings_execute (statement : String) (s : Session) :
    (execute statement s).2.settings = s.settings := by
  rw [execute]
  dsimp only
  split
  · split <;> rfl
  · rfl

/-- A statement that is not planned to fail is executed under the settings of the session. -/
theorem execute_of_ready {s : Session} (statement : String)
    (h : ∀ f, s.failing ≠ some (s.tried + 1, f)) :
    execute statement s =
      (.ok (), { s with tried := s.tried + 1 }.noting (.executed statement s.settings)) := by
  rw [execute]
  dsimp only
  split
  next n failure hfailing =>
    have hn : n ≠ s.tried + 1 := by
      rintro rfl
      exact h failure hfailing
    rw [if_neg hn]
  next => rfl

/-- Runs an action and goes on if it fails, with a note of the error. -/
def handling (x : Attempt Fault Session Unit) : Attempt Fault Session Unit := fun s =>
  match x s with
  | (.ok (), s') => (.ok (), s')
  | (.error f, s') => (.ok (), s'.noting (.handled f))

end Session

end SchemaLedger
