import SchemaLedger.Number.Read
import SchemaLedger.Time.Moment

/-!
# The kinds of YAML scalars

A plain scalar without a tag has the kind that its text looks like: a truth value, a number, a
time, null, or else a text. Numbers may have underscores and bases, and digits in groups of sixty; a
number with an exponent needs a point and a sign in the exponent.
-/

namespace SchemaLedger.Yaml

/-- What a node is. -/
inductive Tag where
  | null
  | bool
  | int
  | float
  | timestamp
  | text
  /-- Binary data in base 64. -/
  | binary
  | sequence
  | mapping
  /-- The keys of a mapping. -/
  | set
  /-- A list of keys with their values. -/
  | pairs
  /-- The key under which another mapping is included. -/
  | merge
  /-- The key of a default value. -/
  | default
  /-- A kind that is not known. -/
  | other
  deriving DecidableEq, Repr

/-- The beginning of the full names of the usual tags. -/
def Tag.standard : String := "tag:yaml.org,2002:"

/-- The tags that have a name. -/
def Tag.names : List (String × Tag) :=
  [("null", .null), ("bool", .bool), ("int", .int), ("float", .float), ("timestamp", .timestamp),
    ("str", .text), ("binary", .binary), ("seq", .sequence), ("map", .mapping), ("set", .set),
    ("omap", .pairs), ("pairs", .pairs), ("merge", .merge), ("value", .default)]

/-- The tag with a full name. -/
def Tag.ofName (name : String) : Tag :=
  ((names.find? fun (n, _) => standard ++ n = name).map (·.2)).getD .other

/-- Whether a character is a digit or an underscore. -/
def isDigitOrLow (c : Char) : Bool := c.isDigit || c = '_'

/-- What follows a sign, if there is one. -/
def afterSign (cs : List Char) : List Char := (Number.splitSign cs).2

/-- What follows a row of digits and underscores that starts with a digit of a kind. -/
def afterDigits? (isFirst : Char → Bool) : List Char → Option (List Char)
  | [] => none
  | c :: rest => if isFirst c then some (rest.dropWhile isDigitOrLow) else none

/-- Whether a text is an exponent with a sign, or nothing. -/
def isSignedExponent : List Char → Bool
  | [] => true
  | c :: sign :: d :: rest =>
    (c = 'e' || c = 'E') && (sign = '+' || sign = '-') && (d :: rest).all Char.isDigit
  | _ => false

/-- What follows groups of sixty, each a colon with a number below sixty; there is at least one if
the text does not stop before. -/
def afterSixties : List Char → List Char
  | ':' :: a :: b :: rest =>
    -- two digits below sixty are preferred to one
    if a.isDigit && b.isDigit && a ≤ '5' then afterSixties rest
    else if a.isDigit then afterSixties (b :: rest)
    else ':' :: a :: b :: rest
  | [':', a] => if a.isDigit then [] else [':', a]
  | cs => cs

/-- What follows at least one group of sixty. -/
def afterSomeSixties? (cs : List Char) : Option (List Char) :=
  let rest := afterSixties cs
  if rest.length < cs.length then some rest else none

/-- Whether a text is a decimal fraction with digits before the point. -/
def isFraction (cs : List Char) : Bool :=
  match afterDigits? Char.isDigit (afterSign cs) with
  | some ('.' :: rest) => isSignedExponent (rest.dropWhile isDigitOrLow)
  | _ => false

/-- Whether a text is a decimal fraction that starts with its point. -/
def isBareFraction : List Char → Bool
  | '.' :: rest => (afterDigits? Char.isDigit rest).any isSignedExponent
  | _ => false

/-- Whether a text is a number in groups of sixty with a point at its end. -/
def isSixtyFraction (cs : List Char) : Bool :=
  match (afterDigits? Char.isDigit (afterSign cs)).bind afterSomeSixties? with
  | some ('.' :: rest) => rest.all isDigitOrLow
  | _ => false

/-- Whether a text is a word for an infinity or for no number. -/
def isNumberWord (cs : List Char) : Bool :=
  String.ofList (afterSign cs) ∈ [".inf", ".Inf", ".INF"] ||
    String.ofList cs ∈ [".nan", ".NaN", ".NAN"]

/-- Whether a text looks like a floating-point number. -/
def looksLikeFloat (cs : List Char) : Bool :=
  isFraction cs || isBareFraction cs || isSixtyFraction cs || isNumberWord cs

/-- Whether a digit may start a decimal number. -/
def isLeadingDigit (c : Char) : Bool := c.isDigit && c ≠ '0'

/-- Whether a text looks like an integer. -/
def looksLikeInt (cs : List Char) : Bool :=
  match afterSign cs with
  | ['0'] => true
  -- a prefix needs at least one character behind it
  | '0' :: 'b' :: d :: rest => (d :: rest).all fun c => c = '0' || c = '1' || c = '_'
  | '0' :: 'x' :: d :: rest =>
    (d :: rest).all fun c => isDigitOrLow c || ('a' ≤ c && c ≤ 'f') || ('A' ≤ c && c ≤ 'F')
  -- a zero in front means base eight
  | '0' :: rest => rest.all fun c => ('0' ≤ c && c ≤ '7') || c = '_'
  | cs =>
    match afterDigits? isLeadingDigit cs with
    | none => false
    | some rest => rest.isEmpty || afterSomeSixties? rest = some []

/-- The fields of a time as it is written. -/
structure WrittenTime where
  date : CivilDate
  /-- Whether month and day have two digits. -/
  padded : Bool
  /-- Hour, minute, second and the digits of a fraction. -/
  clock : Option (Nat × Nat × Nat × List Char)
  /-- The minutes ahead of UTC. -/
  offset : Option Int
  deriving DecidableEq, Repr

namespace WrittenTime

/-- A number of one or two digits, with the count of its digits. -/
def readShort (cs : List Char) : Option (Nat × Nat × List Char) :=
  match Moment.readFixed 2 cs with
  | some (n, rest) => some (n, 2, rest)
  | none => (Moment.readFixed 1 cs).map fun (n, rest) => (n, 1, rest)

/-- What follows the mark between date and clock: a letter, or spaces and tabs. -/
def afterSeparator? : List Char → Option (List Char)
  | 'T' :: rest | 't' :: rest => some rest
  | c :: rest =>
    if c = ' ' || c = '\t' then some (rest.dropWhile fun c => c = ' ' || c = '\t') else none
  | [] => none

/-- The distance from UTC at the end of a text. -/
def readZone (cs : List Char) : Option (Option Int) :=
  match cs.dropWhile fun c => c = ' ' || c = '\t' with
  | [] => if cs.isEmpty then some none else none
  | ['Z'] => some (some 0)
  | sign :: rest => do
    let negative ← if sign = '-' then some true else if sign = '+' then some false else none
    let (hours, _, rest) ← readShort rest
    let minutes ← match rest with
      | [] => some 0
      | ':' :: rest => do
        let (n, rest) ← Moment.readFixed 2 rest
        if rest.isEmpty then some n else none
      | _ => none
    let total := Int.ofNat (hours * 60 + minutes)
    some (some (if negative then -total else total))

/-- Reads a date, or a date with a clock. -/
def read? (cs : List Char) : Option WrittenTime := do
  let (year, cs) ← Moment.readFixed 4 cs
  let cs ← Moment.readMark '-' cs
  let (month, monthWidth, cs) ← readShort cs
  let cs ← Moment.readMark '-' cs
  let (day, dayWidth, cs) ← readShort cs
  let date : CivilDate := ⟨Int.ofNat year, month, day⟩
  let padded := monthWidth == 2 && dayWidth == 2
  if cs.isEmpty then return { date, padded, clock := none, offset := none }
  else do
    let cs ← afterSeparator? cs
    let (hour, _, cs) ← readShort cs
    let cs ← Moment.readMark ':' cs
    let (minute, cs) ← Moment.readFixed 2 cs
    let cs ← Moment.readMark ':' cs
    let (second, cs) ← Moment.readFixed 2 cs
    let (fraction, cs) := match cs with
      | '.' :: rest => (rest.takeWhile Char.isDigit, rest.dropWhile Char.isDigit)
      | rest => ([], rest)
    let offset ← readZone cs
    return { date, padded, clock := some (hour, minute, second, fraction), offset }

end WrittenTime

/-- Whether a text looks like a time. -/
def looksLikeTime (cs : List Char) : Bool :=
  (WrittenTime.read? cs).any fun t => t.clock.isSome || t.padded

/-- The words that are truth values, in lower case. -/
def truthWords : List (String × Bool) :=
  [("yes", true), ("no", false), ("true", true), ("false", false), ("on", true), ("off", false)]

/-- A word in the three ways in which it may be written: all small, with a capital, all large. -/
def spellings (word : String) : List String := [word, word.capitalize, word.map Char.toUpper]

/-- Whether a text is a truth value. -/
def looksLikeTruth (s : String) : Bool := truthWords.any fun (word, _) => s ∈ spellings word

/-- Whether a text is the missing value. -/
def looksLikeNull (s : String) : Bool := s = "" || s = "~" || s ∈ spellings "null"

/-- A text without the line feed at its end, if it has one. -/
def withoutFinalBreak (cs : List Char) : List Char :=
  match cs.reverse with
  | '\n' :: rest => rest.reverse
  | _ => cs

/-- The marks of tags, anchors and aliases. Where one of them stands for a scalar, there is no value
that it could be. -/
def propertyMarks : List String := ["!", "&", "*"]

/-- The tag of a scalar whose kind is told by its looks. A line feed at the end does not count,
unless it is all there is. -/
def Tag.ofPlain (text : String) : Tag :=
  let cs := withoutFinalBreak text.toList
  let s := String.ofList cs
  if s = "" && text ≠ "" then .text
  else if looksLikeTruth s then .bool
  else if looksLikeFloat cs then .float
  else if looksLikeInt cs then .int
  else if s = "<<" then .merge
  else if looksLikeNull s then .null
  else if looksLikeTime cs then .timestamp
  else if s = "=" then .default
  else if s ∈ propertyMarks then .other
  else .text

example : ["yes", "On", "1e3", "1.0e+3", ".5", "1_000", "010", "08", "12:30"].map Tag.ofPlain =
    [.bool, .bool, .text, .float, .float, .int, .int, .text, .int] := by decide +kernel
example : ["190:20:30.15", "12:60", "0x_F", "1.", "~"].map Tag.ofPlain =
    [.float, .text, .int, .float, .null] := by decide +kernel
example : ["2020-1-2", "2020-01-02", "2020-1-2 3:04:05Z"].map Tag.ofPlain =
    [.text, .timestamp, .timestamp] := by decide +kernel
example : ["5\n", "5\n\n", "\n", "", "<<\n", "*"].map Tag.ofPlain =
    [.int, .text, .text, .null, .merge, .other] := by decide +kernel

end SchemaLedger.Yaml
