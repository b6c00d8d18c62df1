import SchemaLedger.Session.Suppression

/-!
# Open transactions

A session is told in advance which of its defining statements will fail. In general any statement of
a transaction may fail, also one that reads or sets a setting, and a statement that fails leaves the
settings as they were. What the tool does in a transaction of whatever kind is written down once. A
session is the kind in which only defining statements fail, and there is one in which the failures
of all statements can be planned.

The main statement: in a session, statements are kept out of the history as before
(`suppressing_session`).
-/

namespace SchemaLedger

/-- A kind of open transaction, kept in a state of type `σ`. -/
class Transaction (σ : Type) where
  /-- The settings of the transaction. -/
  settings : σ → Settings
  /-- Reads a setting; one that was never set has no value. -/
  setting : (name : String) → Attempt Fault σ (Option String)
  /-- Sets a setting for the rest of the transaction. -/
  assign : (name value : String) → Attempt Fault σ Unit
  /-- Executes a defining statement. -/
  execute : (statement : String) → Attempt Fault σ Unit
  eq_get?_of_setting {name : String} {v : Option String} {s s' : σ} :
    setting name s = (.ok v, s') → v = (settings s).get? name
  settings_setting (name : String) (s : σ) : settings (setting name s).2 = settings s
  settings_of_assign {name value : String} {s s' : σ} :
    assign name value s = (.ok (), s') → settings s' = (settings s).put name value
  settings_of_failed_assign {name value : String} {f : Fault} {s s' : σ} :
    assign name value s = (.error f, s') → settings s' = settings s
  settings_execute (statement : String) (s : σ) : settings (execute statement s).2 = settings s

instance : Transaction Session where
  settings := Session.settings
  setting := Session.setting
  assign := Session.assign
  execute := Session.execute
  eq_get?_of_setting h := (Except.ok.inj (Prod.mk.inj h).1).symm
  settings_setting _ _ := rfl
  settings_of_assign h := by
    rw [← (Prod.mk.inj h).2]
    rfl
  settings_of_failed_assign := nofun
  settings_execute := Session.settings_execute

/-- A session in which any statement can be made to fail: the plan says of the statements to come,
one after the other, whether they fail and how. -/
structure PlannedSession where
  session : Session := {}
  plan : List (Option Fault) := []
  deriving DecidableEq, Repr

namespace PlannedSession

variable {α : Type} {x : Attempt Fault Session α} {s s' : PlannedSession} {a : Except Fault α}

/-- Makes a statement as planned. -/
def attempt (x : Attempt Fault Session α) : Attempt Fault PlannedSession α := fun s =>
  match s.plan.head?.join with
  | some f => (.error f, { s with plan := s.plan.tail })
  | none => ((x s.session).1, { session := (x s.session).2, plan := s.plan.tail })

theorem attempt_cases (h : attempt x s = (a, s')) :
    (∃ f, a = .error f ∧ s'.session = s.session) ∨ x s.session = (a, s'.session) := by
  unfold attempt at h
  split at h
  next f _ =>
    obtain ⟨rfl, rfl⟩ := Prod.mk.inj h
    exact .inl ⟨f, rfl, rfl⟩
  next =>
    obtain ⟨rfl, rfl⟩ := Prod.mk.inj h
    exact .inr rfl

/-- A statement that keeps the settings does so as planned, too. -/
theorem settings_attempt (h : (x s.session).2.settings = s.session.settings) :
    (attempt x s).2.session.settings = s.session.settings := by
  unfold attempt
  split
  next => rfl
  next => exact h

instance : Transaction PlannedSession where
  settings s := s.session.settings
  setting name := attempt (Session.setting name)
  assign name value := attempt (Session.assign name value)
  execute statement := attempt (Session.execute statement)
  eq_get?_of_setting h := by
    rcases attempt_cases h with ⟨f, hf, -⟩ | hx
    · nomatch hf
    · exact Transaction.eq_get?_of_setting hx
  settings_setting name s := settings_attempt rfl
  settings_of_assign h := by
    rcases attempt_cases h with ⟨f, hf, -⟩ | hx
    · nomatch hf
    · exact Transaction.settings_of_assign hx
  settings_of_failed_assign h := by
    rcases attempt_cases h with ⟨f, -, hs⟩ | hx
    · rw [hs]
    · nomatch hx
  settings_execute statement s := settings_attempt (Session.settings_execute statement s.session)

end PlannedSession

namespace Transaction

variable {σ α : Type} [Transaction σ]

/-- Sets or clears the flag that keeps statements out of the history. -/
def setFlag (value : String) : Attempt Fault σ Unit := assign Sql.suppressSetting value

/-- Whether the flag is set. -/
def isSuppressed (s : σ) : Bool := Session.isSet ((settings s).get? Sql.suppressSetting)

/-- Ends a block with the outcome of its body: the flag is cleared, but a transaction that is
unusable is left alone. -/
def leave : Except Fault α → Attempt Fault σ α
  | .ok a => do
    setFlag ""
    return a
  | .error f => do
    if !f.abortsTransaction then
      setFlag ""
    .fail f

/-- Runs an action with the flag set, and clears the flag afterwards. -/
def suppressing (body : Attempt Fault σ α) : Attempt Fault σ α := do
  setFlag "TRUE"
  leave (← body.settle)

theorem suppressing_session (body : Attempt Fault Session α) :
    suppressing body = Session.suppressing body := by
  funext s
  have hinside : (setFlag "TRUE" : Attempt Fault Session Unit) s =
      (.ok (), (Session.setFlag "TRUE" s).2) := rfl
  rw [suppressing, Attempt.bind_ok hinside, Session.suppressing, Attempt.bind_apply,
    Attempt.settle]
  rcases body (Session.setFlag "TRUE" s).2 with ⟨f | a, s'⟩
  · show leave (.error f) s' = (.error f, s'.afterBlock (some f))
    rw [leave, Session.afterBlock]
    cases f.abortsTransaction <;> rfl
  · rfl

end Transaction

end SchemaLedger
