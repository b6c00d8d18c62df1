import SchemaLedger.Json.Document
import SchemaLedger.Payload
import SchemaLedger.Yaml.Document

/-!
# Migration files

A migration is written in a file whose suffix tells its format. A file that does not name the
migration names it by its own name without the suffix.

The main statement: a file whose document has no name gives a payload that bears the name of the
file (`named_of_missing`).
-/

namespace SchemaLedger.PayloadFile

/-- The formats of migration files. -/
inductive Format where
  | yaml
  | json
  deriving DecidableEq, Repr

/-- A file name split behind its stem: at the last point, unless that is the first or the last
character. -/
def split (file : String) : String × String :=
  let reversed := file.toList.reverse
  let suffix := reversed.takeWhile (· ≠ '.')
  match reversed.drop suffix.length with
  | _ :: stem =>
    if suffix.isEmpty || stem.isEmpty then (file, "")
    else (String.ofList stem.reverse, String.ofList ('.' :: suffix.reverse))
  | [] => (file, "")

/-- The name of a file without its suffix. -/
def stem (file : String) : String := (split file).1

/-- The suffix of a file. -/
def suffix (file : String) : String := (split file).2

/-- The format of a file, whose suffix may be written in any case. -/
def format? (file : String) : Option Format :=
  let s := (suffix file).map Char.toLower
  if s = ".yaml" ∨ s = ".yml" then some .yaml else if s = ".json" then some .json else none

/-- Why a file gives no payload. -/
inductive LoadError where
  /-- The suffix stands for no known format. -/
  | unsupported (suffix : String)
  /-- There is no such file. -/
  | missing
  | json (e : Json.ReadError)
  | yaml (e : Yaml.ReadError)
  /-- The document is no mapping. -/
  | notObject (file : String)
  /-- The document is no payload. -/
  | invalid (details : List Payload.Detail)
  /-- The document would be a payload, but it contains itself. -/
  | endless
  deriving DecidableEq, Repr

/-- The sentence for an error that is told in one. -/
def LoadError.message? : LoadError → Option String
  | unsupported suffix => some ("Unsupported migration format: " ++ suffix)
  | notObject file => some ("Migration file must contain an object: " ++ file)
  | _ => none

/-- The mapping with a name, the given one if it has none. -/
def named (m : Mapping) (name : String) : Mapping :=
  match m.field? "name" with
  | some _ => m
  | none => m ++ [(.text "name", .text name)]

/-- The payload of a document that was read from a file. -/
def ofDocument (file : String) : Value → Except LoadError Payload
  | .map m => (Payload.validate (.map (named m (stem file)))).mapError .invalid
  | _ => .error (.notObject file)

/-- A payload is told from other documents by so many of their upper levels. -/
def payloadDepth : Nat := 3

/-- Why a document that contains itself gives no payload. Its upper levels are looked at like those
of any other document; where it is a part of itself, it has its name there too. -/
def endlessError (file : String) (d : Yaml.Document) : LoadError :=
  let named := d.withDefault (.text "name") (.text (stem file))
  match ofDocument file (named.upper payloadDepth) with
  | .error e => e
  | .ok _ => .endless

/-- The payload of a document with numbered parts. -/
def ofGraph (file : String) (d : Yaml.Document) : Except LoadError Payload :=
  match d.value? with
  | some v => ofDocument file v
  | none => .error (endlessError file d)

/-- The payload of a file with the given content, if the file exists. -/
def load (file : String) (content : Option String) : Except LoadError Payload := do
  match format? file with
  | none => .error (.unsupported (suffix file))
  | some format =>
    match content, format with
    | none, _ => .error .missing
    | some text, .yaml => ofGraph file (← (Yaml.read text).mapError .yaml)
    | some text, .json => ofDocument file (← (Json.read text).mapError .json)

theorem named_of_missing {m : Mapping} {name : String} (h : m.field? "name" = none) :
    (named m name).field? "name" = some (.text name) := by
  unfold named
  rw [h]
  have h' : List.find? (fun e => Scalar.sameKey e.1 (.text "name")) m = none := by
    simpa [Mapping.field?, Mapping.get?] using h
  simp [Mapping.field?, Mapping.get?, List.find?_append, h']

example : split "01_x.y.yml" = ("01_x.y", ".yml") ∧ split ".yaml" = (".yaml", "") ∧
    split "a." = ("a.", "") ∧ split "..yaml" = (".", ".yaml") ∧ split "a" = ("a", "") := by
  decide +kernel

end SchemaLedger.PayloadFile
