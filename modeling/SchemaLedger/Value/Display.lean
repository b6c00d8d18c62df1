import SchemaLedger.Value.Basic
import SchemaLedger.Number.Shortest
import SchemaLedger.Text.Quoted

/-!
# Documents as text

A document that stands in a message, or serves as a label, is written out: a text by itself as it
is, every other document, and every text inside one, in a notation that tells the kinds apart.
-/

namespace SchemaLedger

/-- Parts in brackets, with commas between them. -/
def bracketed (opening closing : String) (parts : List String) : String :=
  opening ++ ", ".intercalate parts ++ closing

/-- A call-like notation for a date or a moment. -/
def spelledCall (kind : String) (fields : List String) : String :=
  bracketed ("datetime." ++ kind ++ "(") ")" fields

/-- The notation of a clock's distance from UTC, or of the region that it follows. -/
def spelledOffset (x : Offset) : String :=
  let part := fun (name : String) (n : Int) => if n = 0 then [] else [name ++ "=" ++ toString n]
  match x.region with
  | some r => bracketed "zoneinfo.ZoneInfo(" ")" ["key=" ++ Text.quoted r.name]
  | none =>
    if x.micros = 0 then "datetime.timezone.utc"
    else spelledCall "timezone" [spelledCall "timedelta"
      (part "days" (x.micros / microsPerDay) ++
        part "seconds" (x.micros % microsPerDay / 1000000) ++
        part "microseconds" (x.micros % 1000000))]

/-- The notation of a moment: seconds and microseconds only as far as they are not zero, and the
fold only if it is the second. -/
def Moment.spelled (t : Moment) : String :=
  let d := t.date
  let fine := if t.micros ≠ 0 then [t.second, t.micros] else if t.second ≠ 0 then [t.second] else []
  let fold := (t.offset.bind (·.region)).any (·.fold)
  spelledCall "datetime"
    ([toString d.year] ++ ([d.month, d.day, t.hour, t.minute] ++ fine).map toString ++
      (if fold then ["fold=1"] else []) ++
      (t.offset.elim [] fun x => ["tzinfo=" ++ spelledOffset x]))

namespace Scalar

/-- A scalar in the notation that tells the kinds apart. -/
def quoted : Scalar → String
  | .null => "None"
  | .bool b => if b then "True" else "False"
  | .int n => toString n
  | .float x => x.text
  | .text s => Text.quoted s
  | .bytes content => Text.quotedBytes content
  | .date d => spelledCall "date" [toString d.year, toString d.month, toString d.day]
  | .moment t => t.spelled

/-- A scalar as text by itself. -/
def display : Scalar → String
  | .text s => s
  | .date d => d.text
  | .moment t => t.text.map fun c => if c = 'T' then ' ' else c
  | s => s.quoted

end Scalar

namespace Value

mutual

/-- A document in the notation that tells the kinds apart. -/
def quoted : Value → String
  | .scalar s => s.quoted
  | .list xs => bracketed "[" "]" (quotedItems xs)
  | .map m => bracketed "\x7b" "\x7d" (quotedEntries m)
termination_by structural v => v

/-- The items of a list. -/
def quotedItems : List Value → List String
  | [] => []
  | x :: xs => quoted x :: quotedItems xs
termination_by structural xs => xs

/-- The entries of a mapping. -/
def quotedEntries : List (Scalar × Value) → List String
  | [] => []
  | e :: rest => quotedEntry e :: quotedEntries rest
termination_by structural xs => xs

/-- One entry of a mapping. -/
def quotedEntry : Scalar × Value → String
  | (k, v) => k.quoted ++ ": " ++ quoted v
termination_by structural e => e

end

/-- A document as text by itself. -/
def display : Value → String
  | .scalar s => s.display
  | v => v.quoted

@[simp] theorem display_text (s : String) : display (.text s) = s := rfl

example : display (.list [.text "a", .text "it's", .null]) = "['a', \"it's\", None]" := by
  decide +kernel

end Value

/-- A list of texts in the same notation. -/
def quotedTexts (texts : List String) : String := bracketed "[" "]" (texts.map Text.quoted)

end SchemaLedger
