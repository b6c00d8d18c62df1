import SchemaLedger.Ledger.Record
import SchemaLedger.Text.Sorted

/-!
# Histories

The records of a schema form a chain by their parents. This module walks the chain, finds its tip,
says which invariant a new record would break, and reports what is wrong with a list of records
that should be a chain but need not be one.

Records are looked up by name, so these functions take lists with one record for a name;
`byName` makes such a list.
-/

namespace SchemaLedger

/-- Adds a record under its name: in place of the record of that name, else at the end. -/
def putByName : List Record → Record → List Record
  | [], r => [r]
  | s :: rest, r => if s.name = r.name then r :: rest else s :: putByName rest r

/-- One record for each name: the last one, at the place of the first. -/
def byName (records : List Record) : List Record := records.foldl putByName []

/-- The record of a name. -/
def named? (records : List Record) (name : String) : Option Record :=
  records.find? (·.name = name)

theorem named?_some {records : List Record} {name : String} {r : Record}
    (h : named? records name = some r) : r ∈ records ∧ r.name = name :=
  ⟨List.mem_of_find?_eq_some h, by simpa using List.find?_some h⟩

/-- The records with another name. -/
def without (records : List Record) (name : String) : List Record :=
  records.filter (·.name ≠ name)

theorem length_without_lt {records : List Record} {name : String} {r : Record}
    (h : named? records name = some r) : (without records name).length < records.length := by
  obtain ⟨hmem, hname⟩ := named?_some h
  exact List.length_filter_lt_length_iff_exists.2 ⟨r, hmem, by simp [hname]⟩

/-- Follows parents from `tip` towards the root. A record is left out of the list once it was
visited, so the walk ends at the root, at a parent that is not there, or where it would go in
circles. -/
def walkParents (records : List Record) (tip : Option String) : List Record :=
  match tip with
  | none => []
  | some name =>
    match _h : named? records name with
    | none => []
    | some r => r :: walkParents (without records name) r.parent
termination_by records.length
decreasing_by exact length_without_lt _h

/-- Whether some record of the list has `r` as its parent. -/
def hasChild (records : List Record) (r : Record) : Bool := records.any (·.parent = some r.name)

/-- The records without a child. -/
def tips (records : List Record) : List Record := records.filter fun r => !hasChild records r

/-- Whether `a` comes after `b`: by the time of creation, a missing time being the earliest, and by
name among equal times. Times that are not equal and of which neither is later decide nothing. -/
def laterTip (a b : Record) : Except Failure Bool :=
  match a.createdAt, b.createdAt with
  | none, none => .ok (decide (b.name < a.name))
  | some _, none => .ok true
  | none, some _ => .ok false
  | some s, some t =>
    if s.same t then .ok (decide (b.name < a.name))
    else match s.compare? t with
      | none => .error .noOrder
      | some order => .ok (order == .gt)

/-- Goes through a list and keeps the element that none before it and none after it exceeds. -/
def greatestFrom (later : α → α → Except Failure Bool) (best : α) : List α → Except Failure α
  | [] => .ok best
  | x :: rest =>
    match later x best with
    | .error e => .error e
    | .ok true => greatestFrom later x rest
    | .ok false => greatestFrom later best rest

/-- The greatest element, the first of several. -/
def greatest? (later : α → α → Except Failure Bool) : List α → Except Failure (Option α)
  | [] => .ok none
  | x :: rest => (greatestFrom later x rest).map some

/-- The tip of a history: the latest of the records without a child. -/
def findTip (records : List Record) : Except Failure (Option Record) :=
  greatest? laterTip (tips records)

/-- The invariant that `record` would break if it joined `existing`. The type is checked first,
then the name, then the migration in progress, then the place in the chain. -/
def violationFor (existing : List Record) (record : Record) : Option Violation :=
  let same := existing.filter (·.schema = record.schema)
  if record.migrationType ∉ migrationTypes then some .invalidType
  else if same.any (·.name = record.name) then some .duplicateName
  else if !record.done && same.any (!·.done) then some .activeMigration
  else match record.parent with
    | none => if same.any (·.parent = none) then some .duplicateRoot else none
    | some p =>
      if !same.any (·.name = p) then some .danglingParent
      else if same.any (·.parent = some p) then some .nonLinearHistory
      else none

/-- The error for a record that would break an invariant. -/
def violationError (v : Violation) (record : Record) : LedgerError :=
  .integrity v record.schema (some record.name) none

/-- What is wrong with the history of a schema. -/
inductive Problem where
  /-- There is not exactly one record without a parent. -/
  | roots (names : List String)
  /-- Several records have the same parent. -/
  | children (parent : String) (count : Nat)
  /-- A parent is not there. -/
  | missingParent (name parent : String)
  /-- Several migrations are in progress. -/
  | active (names : List String)
  /-- The parents do not lead from one tip through all records. -/
  | notOneChain
  deriving DecidableEq, Repr

/-- The sentence for a problem. -/
def Problem.message : Problem → String
  | roots names =>
    s!"expected exactly one root, found {names.length}: " ++ quotedTexts names
  | children parent count => s!"migration {parent} has {count} children"
  | missingParent name parent => s!"migration {name} references missing parent {parent}"
  | active names => "more than one active migration: " ++ quotedTexts names
  | notOneChain => "history is not a single chain from root to tip"

/-- How many records a climb along the parents passes, `limit` at most. A parent without a name ends
it, like no parent at all. -/
def climb (records : List Record) : (limit : Nat) → Option Record → Nat
  | 0, _ | _, none => 0
  | limit + 1, some r =>
    climb records limit
      (match r.parent with
        | none => none
        | some p => if p = "" then none else named? records p) + 1

/-- Whether the records have one tip from which a climb passes as many records as there are. -/
def isOneChain (records : List Record) : Bool :=
  match tips records with
  | [tip] => climb (byName records) (records.length + 1) (some tip) == records.length
  | _ => false

/-- The problems that can be told without following the parents. -/
def localProblems (records : List Record) : List Problem :=
  let roots := (records.filter (·.parent = none)).map (·.name)
  let parents := records.filterMap (·.parent)
  let active := (records.filter (!·.done)).map (·.name)
  (if roots.length = 1 then [] else [.roots (Text.sorted roots)]) ++
    (Text.sortedDistinct parents).filterMap (fun p =>
      if 1 < parents.count p then some (.children p (parents.count p)) else none) ++
    records.filterMap (fun r =>
      match r.parent with
      | none => none
      | some p => if records.any (·.name = p) then none else some (.missingParent r.name p)) ++
    (if 1 < active.length then [.active (Text.sorted active)] else [])

/-- Everything that is wrong with the history of a schema; whether it is one chain is asked only if
nothing else is wrong. -/
def checkHistory (records : List Record) : List Problem :=
  if records.isEmpty then []
  else
    let problems := localProblems records
    if problems.isEmpty && !isOneChain records then [.notOneChain] else problems

end SchemaLedger
