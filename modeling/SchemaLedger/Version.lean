import SchemaLedger.Ledger.Store

/-!
# Version schemas

Each step of a history has a version schema, backed by a physical namespace that may be gone. The
version a number of steps back from the tip is found by counting only the steps whose namespace is
still there, and the search asks for no more namespaces than it needs. It notes what it asks for,
so that this can be said of it.
-/

namespace SchemaLedger

/-- What a search for a version schema found, and the namespaces that it asked for, in order. -/
structure Resolution where
  label : Option String
  probed : List String
  deriving DecidableEq, Repr

/-- A state together with the namespaces that were asked for so far. -/
structure Probing (σ : Type) where
  state : σ
  probed : List String := []
  deriving DecidableEq, Repr

namespace Probing

variable {σ : Type}

/-- An operation on the state. -/
def onState (x : Action σ α) : Action (Probing σ) α := x.within (·.state) ({ · with state := · })

/-- Asks for a namespace, given which ones are present. -/
def probe (present : String → Bool) (name : String) : Action (Probing σ) Bool := fun w =>
  (.ok (present name), { w with probed := w.probed ++ [name] })

/-- Goes along the chain from the tip to the `depth`-th record whose namespace is present. -/
def seek (schema : String) (present : String → Bool) :
    (depth : Nat) → List Record → Action (Probing σ) (Option String)
  | _, [] => return none
  | depth, r :: rest => do
    if ← probe present (namespaceName schema r.label) then
      match depth with
      | 0 => return some r.label
      | depth + 1 => seek schema present depth rest
    else seek schema present depth rest

/-- The label of the version schema `depth` steps back in a chain that runs from the tip to the
root. -/
def labelAt (chain : List Record) (schema : String) (depth : Int) (present : String → Bool) :
    Action (Probing σ) (Option String) :=
  if depth < 0 then .fail .negativeDepth else seek schema present depth.toNat chain

/-- The label of the version schema `depth` steps back in the history of a schema. -/
def label [LedgerStore σ] (present : String → Bool) (schema : String) (depth : Int) :
    Action (Probing σ) (Option String) := do
  let history ← onState (LedgerStore.history schema)
  labelAt history.reverse schema depth present

/-- A whole search, with what it asked for in its answer. -/
def run (search : Action (Probing σ) (Option String)) : Action σ Resolution := fun s =>
  match search { state := s } with
  | (.ok label, w) => (.ok ⟨label, w.probed⟩, w.state)
  | (.error e, w) => (.error e, w.state)

end Probing

/-- The version schema `depth` steps back in a chain that runs from the tip to the root. -/
def resolveVersion (chain : List Record) (schema : String) (depth : Int)
    (present : String → Bool) : Except Failure Resolution :=
  (Probing.run (Probing.labelAt chain schema depth present) ()).1

/-- The version schema `depth` steps back in the history of a schema. -/
def resolve [LedgerStore σ] (present : String → Bool) (schema : String) (depth : Int) :
    Action σ Resolution :=
  Probing.run (Probing.label present schema depth)

/-- The label of the latest version schema. -/
def latestVersion [LedgerStore σ] (present : String → Bool) (schema : String) :
    Action σ (Option String) := do
  return (← resolve present schema 0).label

/-- The label of the version schema before the latest. -/
def previousVersion [LedgerStore σ] (present : String → Bool) (schema : String) :
    Action σ (Option String) := do
  return (← resolve present schema 1).label

end SchemaLedger
