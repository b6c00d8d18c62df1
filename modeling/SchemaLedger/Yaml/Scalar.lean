import SchemaLedger.Text.Base64
import SchemaLedger.Value.Basic
import SchemaLedger.Yaml.Node

/-!
# The values of YAML scalars

A scalar has the value that its text has for its tag. Integers may be written in the bases two,
eight, ten and sixteen, and numbers of either kind in groups of sixty. A tag that was announced may
not suit the text: then there is no value, and the reason depends on the tag.
-/

namespace SchemaLedger.Yaml

/-- What was read, or else an error. -/
def orError (e : ReadError) : Option α → Except ReadError α
  | some a => .ok a
  | none => .error e

/-- A decimal integer of any length up to the limit on digits. -/
def decimal (cs : List Char) : Except ReadError Int :=
  orError .impossible (Number.readInt? (String.ofList cs))

/-- An integer in a base that is a power of two. -/
def inBase (base : Nat) (cs : List Char) : Except ReadError Int :=
  orError .impossible (Number.readIntIn? base (String.ofList cs))

/-- The groups between colons, the last one first. -/
def groups (cs : List Char) : List (List Char) := (cs.splitOn ':').reverse

/-- The number that digits in groups of sixty make, the lowest group first. -/
def ofSixties : List Int → Int
  | [] => 0
  | n :: rest => n + 60 * ofSixties rest

/-- An integer without its first sign and without underscores. -/
def magnitude (cs : List Char) : Except ReadError Int :=
  match cs with
  | ['0'] => .ok 0
  | '0' :: 'b' :: digits => inBase 2 digits
  | '0' :: 'x' :: digits => inBase 16 digits
  | '0' :: _ => inBase 8 cs
  | _ =>
    if ':' ∈ cs then ((groups cs).mapM decimal).map ofSixties else decimal cs

/-- The characters of a number without underscores, and its sign. -/
def signed (s : String) : Bool × List Char := Number.splitSign (s.toList.filter (· ≠ '_'))

/-- Reads an integer. -/
def readInt (s : String) : Except ReadError Scalar :=
  let (negative, cs) := signed s
  if cs.isEmpty then .error .noNumber
  else (magnitude cs).map fun n => .int (if negative then -n else n)

/-- The sum of groups of sixty, the lowest group first and in units of `unit`. -/
def sumSixties (sum : Binary64) (unit : Nat) : List Binary64 → Except ReadError Binary64
  | [] => .ok sum
  | x :: rest => do
    let part ← orError .tooLarge (x.scale? unit)
    sumSixties (sum.add part) (60 * unit) rest

/-- A decimal fraction. -/
def fraction (cs : List Char) : Except ReadError Binary64 :=
  orError .impossible (Number.readFloat? (String.ofList cs))

/-- Reads a floating-point number. -/
def readFloat (s : String) : Except ReadError Scalar := do
  let (negative, cs) := signed (s.map Char.toLower)
  let x ←
    if s.toList.all (· = '_') then .error .noNumber
    else if cs = ".inf".toList then .ok (.infinite false)
    else if cs = ".nan".toList then .ok .nan
    else if ':' ∈ cs then do
      sumSixties (Binary64.zero false) 1 (← (groups cs).mapM fraction)
    else fraction cs
  return .float (if negative then x.neg else x)

/-- Reads a truth value. -/
def readTruth (s : String) : Except ReadError Scalar :=
  match truthWords.find? fun (word, _) => word = s.map Char.toLower with
  | some (_, b) => .ok (.bool b)
  | none => .error .notTruth

/-- Reads a date or a moment. -/
def readTime (s : String) : Except ReadError Scalar :=
  match WrittenTime.read? (withoutFinalBreak s.toList) with
  | none => .error .notTime
  | some t =>
    match t.clock with
    | none => if t.date.isValid then .ok (.date t.date) else .error .impossible
    | some (hour, minute, second, digits) =>
      if (t.offset.map Int.natAbs).any (1440 ≤ ·) then .error .impossible
      else
        (orError .impossible (Moment.ofFields? t.date hour minute second
          (Moment.fractionMicros digits) (t.offset.map Offset.ofMinutes))).map .moment

/-- Reads binary data, whose text has to be ASCII. -/
def readBinary (s : String) : Except ReadError Scalar :=
  if s.toList.all (·.toNat < 128) then (orError .malformed (Text.base64? s)).map .bytes
  else .error .malformed

/-- Reads a scalar as its tag says. -/
def readScalar (tag : Tag) (s : String) : Except ReadError Scalar :=
  match tag with
  | .null => .ok .null
  | .bool => readTruth s
  | .int => readInt s
  | .float => readFloat s
  | .timestamp => readTime s
  | .text => .ok (.text s)
  | .binary => readBinary s
  | .sequence | .mapping | .set | .pairs | .merge | .default | .other => .error .malformed

end SchemaLedger.Yaml
