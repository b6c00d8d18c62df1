import SchemaLedger.Ledger.Error

/-!
# Actions on a state

An operation answers or fails, and either way leaves a state behind: what it changed before a
failure stays changed. A transaction is an action that puts the old state back when it fails.

The main statement: a failed transaction changes nothing (`atomically_error`).
-/

namespace SchemaLedger

/-- An operation on a state of type `σ` that answers with an `α` or fails with an `ε`. -/
def Attempt (ε σ α : Type) : Type := σ → Except ε α × σ

/-- An operation that can fail in any of the known ways. -/
abbrev Action (σ α : Type) : Type := Attempt Failure σ α

namespace Attempt

instance : Monad (Attempt ε σ) where
  pure a := fun s => (.ok a, s)
  bind x f := fun s =>
    match x s with
    | (.ok a, s') => f a s'
    | (.error e, s') => (.error e, s')

/-- Stops with a failure. -/
def fail (e : ε) : Attempt ε σ α := fun s => (.error e, s)

/-- Asks the state something that may fail. -/
def query (f : σ → Except ε α) : Attempt ε σ α := fun s => (f s, s)

/-- An answer that was found elsewhere. -/
def lift (x : Except ε α) : Attempt ε σ α := fun s => (x, s)

/-- Changes the state. -/
def modify (f : σ → σ) : Attempt ε σ Unit := fun s => (.ok (), f s)

/-- The action as one transaction. -/
def atomically (x : Attempt ε σ α) : Attempt ε σ α := fun s =>
  match x s with
  | (.ok a, s') => (.ok a, s')
  | (.error e, _) => (.error e, s)

/-- The action on a part of a larger state. -/
def within (part : τ → σ) (replace : τ → σ → τ) (x : Attempt ε σ α) : Attempt ε τ α := fun t =>
  let (a, s) := x (part t)
  (a, replace t s)

/-- The action with its failures seen as those of a wider kind. -/
def widen (f : ε → ε') (x : Attempt ε σ α) : Attempt ε' σ α := fun s =>
  let (a, s') := x s
  (a.mapError f, s')

/-- Runs the action to its end, and answers with its outcome. -/
def settle (x : Attempt ε σ α) : Attempt ε' σ (Except ε α) := fun s =>
  let (a, s') := x s
  (.ok a, s')

/-- Runs an action for each element of a list, in order. -/
def each (f : α → Attempt ε σ Unit) : List α → Attempt ε σ Unit
  | [] => pure ()
  | x :: rest => do
    f x
    each f rest

@[simp] theorem pure_apply (a : α) (s : σ) : (pure a : Attempt ε σ α) s = (.ok a, s) := rfl

theorem bind_apply (x : Attempt ε σ α) (f : α → Attempt ε σ β) (s : σ) :
    (x >>= f) s = match x s with
      | (.ok a, s') => f a s'
      | (.error e, s') => (.error e, s') := rfl

theorem bind_ok {x : Attempt ε σ α} {f : α → Attempt ε σ β} {s s' : σ} {a : α}
    (h : x s = (.ok a, s')) : (x >>= f) s = f a s' := by rw [bind_apply, h]

theorem bind_error {x : Attempt ε σ α} {f : α → Attempt ε σ β} {s s' : σ} {e : ε}
    (h : x s = (.error e, s')) : (x >>= f) s = (.error e, s') := by rw [bind_apply, h]

@[simp] theorem fail_apply (e : ε) (s : σ) : (fail e : Attempt ε σ α) s = (.error e, s) := rfl

@[simp] theorem query_apply (f : σ → Except ε α) (s : σ) : query f s = (f s, s) := rfl

@[simp] theorem lift_apply (x : Except ε α) (s : σ) : (lift x : Attempt ε σ α) s = (x, s) := rfl

@[simp] theorem modify_apply (f : σ → σ) (s : σ) :
    (modify f : Attempt ε σ Unit) s = (.ok (), f s) := rfl

theorem settle_apply (x : Attempt ε σ α) (s : σ) :
    (settle x : Attempt ε' σ (Except ε α)) s = (.ok (x s).1, (x s).2) := rfl

theorem widen_apply (f : ε → ε') (x : Attempt ε σ α) (s : σ) :
    widen f x s = ((x s).1.mapError f, (x s).2) := rfl

theorem atomically_ok {x : Attempt ε σ α} {s s' : σ} {a : α} (h : x s = (.ok a, s')) :
    atomically x s = (.ok a, s') := by simp [atomically, h]

theorem atomically_error {x : Attempt ε σ α} {s : σ} {e : ε} (h : (x s).1 = .error e) :
    atomically x s = (.error e, s) := by
  cases hx : x s with
  | mk a s' => simp_all [atomically]

end Attempt

end SchemaLedger
