import SchemaLedger.Number.Binary64
import SchemaLedger.Text.Blank
import SchemaLedger.Text.Digit

/-!
# Numbers read from text

Settings and command-line options give numbers as text. Such a text may have blanks around it,
digits of any script and single underscores between digits. Among the ASCII characters only the
six usual blanks may stand around a number; the separators U+001C to U+001F may not.
-/

namespace SchemaLedger.Number

/-- The blanks of ASCII that may stand around a number. -/
def isPlainBlank (c : Char) : Bool := (9 ≤ c.toNat && c.toNat ≤ 13) || c = ' '

/-- Brings a character to ASCII: digits of any script to the ten digits, blanks outside ASCII to the
space. -/
def toPlain (c : Char) : Char :=
  if c.toNat < 128 then c
  else if Text.isBlank c then ' '
  else match Text.digitValue? c with
    | some d => Char.ofNat (48 + d)
    | none => c

/-- The characters of a number's text, in ASCII and without blanks at the ends. -/
def plainChars (s : String) : List Char :=
  (((s.toList.map toPlain).dropWhile isPlainBlank).reverse.dropWhile isPlainBlank).reverse

/-- Removes underscores that stand between two digits; any other underscore is an error. The flag
tells whether the character before is a digit. -/
def dropSeparators : (afterDigit : Bool) → List Char → Option (List Char)
  | _, [] => some []
  | true, '_' :: c :: rest =>
    if c.isDigit then (dropSeparators true rest).map (c :: ·) else none
  | _, c :: rest =>
    if c = '_' then none else (dropSeparators c.isDigit rest).map (c :: ·)
termination_by _ cs => cs.length

/-- The value of a row of digits in a base; characters that are no digit count as zero. -/
def ofDigits (base : Nat) (digits : List Char) : Nat :=
  digits.foldl (fun n c => n * base + (digitOf c)) 0
where
  /-- The value of one digit, letters counting from ten. -/
  digitOf (c : Char) : Nat :=
    if c.isDigit then c.toNat - 48
    else if 'a' ≤ c ∧ c ≤ 'z' then c.toNat - 87
    else if 'A' ≤ c ∧ c ≤ 'Z' then c.toNat - 55
    else 0

/-- The longest row of decimal digits that is read as an integer. -/
def digitLimit : Nat := 4300

/-- Splits off a sign. -/
def splitSign : List Char → Bool × List Char
  | '-' :: rest => (true, rest)
  | '+' :: rest => (false, rest)
  | cs => (false, cs)

/-- An integer from a row of decimal digits, unless it is too long. -/
def ofDecimalDigits? (negative : Bool) (digits : List Char) : Option Int :=
  if digits.isEmpty || !digits.all Char.isDigit || digitLimit < digits.length then none
  else
    let n := Int.ofNat (ofDigits 10 digits)
    some (if negative then -n else n)

/-- The integer that a text gives, if it gives one. -/
def readInt? (s : String) : Option Int := do
  let cs ← dropSeparators false (plainChars s)
  let (negative, digits) := splitSign cs
  ofDecimalDigits? negative digits

/-- The letter that announces a base behind a zero. -/
def baseLetter? (base : Nat) : Option Char :=
  if base = 2 then some 'b' else if base = 8 then some 'o' else if base = 16 then some 'x' else none

/-- What follows the announcement of a base, if there is one. -/
def afterBase (base : Nat) : List Char → List Char
  | '0' :: c :: rest => if baseLetter? base = some c.toLower then rest else '0' :: c :: rest
  | cs => cs

/-- Whether a character is a digit in a base. -/
def isDigitIn (base : Nat) (c : Char) : Bool := c.isAlphanum && ofDigits.digitOf c < base

/-- The integer that a text without underscores gives in a base that is a power of two; it may be of
any length, and its base may be announced. -/
def readIntIn? (base : Nat) (s : String) : Option Int :=
  let (negative, cs) := splitSign (plainChars s)
  let digits := afterBase base cs
  if digits.isEmpty || !digits.all (isDigitIn base) then none
  else
    let n := Int.ofNat (ofDigits base digits)
    some (if negative then -n else n)

/-- The number with the given digits before and after the point and the given exponent. -/
def ofParts (negative : Bool) (whole fraction : List Char) (exponent : Int) : Binary64 :=
  Binary64.ofDecimal negative (ofDigits 10 (whole ++ fraction))
    (exponent - Int.ofNat fraction.length)

/-- An exponent part such as `e+5`, or nothing; what follows must be the end. -/
def exponentPart? : List Char → Option Int
  | [] => some 0
  | c :: rest =>
    if c = 'e' ∨ c = 'E' then
      let (negative, digits) := splitSign rest
      if digits.isEmpty || !digits.all Char.isDigit then none
      else
        let n := Int.ofNat (ofDigits 10 digits)
        some (if negative then -n else n)
    else none

/-- A decimal fraction without its sign: digits with at most one point, at least one digit, and
perhaps an exponent. -/
def fractionOf? (negative : Bool) (cs : List Char) : Option Binary64 := do
  let whole := cs.takeWhile Char.isDigit
  let rest := cs.dropWhile Char.isDigit
  let (fraction, rest) := match rest with
    | '.' :: r => (r.takeWhile Char.isDigit, r.dropWhile Char.isDigit)
    | r => ([], r)
  if whole.isEmpty && fraction.isEmpty then none
  else
    let e ← exponentPart? rest
    some (ofParts negative whole fraction e)

/-- The floating-point number that a text gives, if it gives one: a decimal fraction, or a word for
an infinity or for no number, in any case of letters. -/
def readFloat? (s : String) : Option Binary64 := do
  let cs ← dropSeparators false (plainChars s)
  let (negative, rest) := splitSign cs
  let word := String.ofList (rest.map Char.toLower)
  if word = "inf" ∨ word = "infinity" then some (.infinite negative)
  else if word = "nan" then some .nan
  else fractionOf? negative rest

example : readInt? " +1_000 " = some 1000 ∧ readInt? "-٣" = some (-3) := by decide +kernel
example : readInt? "1__0" = none ∧ readInt? "_1" = none ∧ readInt? "1_" = none ∧
    readInt? "" = none ∧ readInt? "1.0" = none ∧ readInt? "\x1c5" = none := by decide +kernel
example : readIntIn? 16 " -0xFf\n" = some (-255) ∧ readIntIn? 8 "0o17" = some 15 ∧
    readIntIn? 16 "0b1" = some 177 ∧ readIntIn? 2 "12" = none ∧ readIntIn? 16 "0x" = none := by
  decide +kernel
example : readFloat? "1_0.5_0" = some (Binary64.ofDecimal false 105 (-1)) ∧
    readFloat? "1_.5" = none ∧ readFloat? "." = none ∧ readFloat? "5." = some (Binary64.ofNat 5) ∧
    readFloat? "-Infinity" = some (.infinite true) := by decide +kernel

end SchemaLedger.Number
