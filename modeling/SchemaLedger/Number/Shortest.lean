import SchemaLedger.Number.Binary64

/-!
# The shortest decimal text of a floating-point number

A floating-point number is written with the fewest digits that read back as the same number, and of
the texts with that many digits, the nearest one. The numbers that read back as `m * 2 ^ e` form an
interval around it, half a unit wide on each side (a quarter below a power of two), and its ends
belong to it exactly when `m` is even.

For one digit, two, and so on up to seventeen, the number's two neighbours on that decimal grid are
tried; the first grid that has one in the interval wins. If any point of a grid lies in the
interval then so does one of the two neighbours, so nothing shorter is missed.
-/

namespace SchemaLedger.Binary64

/-- A natural number times a power of ten. -/
structure Decimal where
  digits : Nat
  exponent : Int
  deriving DecidableEq, Repr

/-- The interval of ratios that read back as `m * 2 ^ e`, in quarters of a unit, with the grid step
`10 ^ k` as the measure: a grid point `c` stands for `c * step` and the number for
`4 * m * quarter`. -/
structure Grid where
  quarter : Nat
  step : Nat
  low : Nat
  middle : Nat
  high : Nat
  closed : Bool

/-- The grid of step `10 ^ k` around `m * 2 ^ e`. -/
def Grid.around (m : Nat) (e k : Int) : Grid :=
  let (un, ud) := scaled 1 1 (2 - e)
  let (gn, gd) := match k with
    | .ofNat j => (Nat.pow 10 j, 1)
    | .negSucc j => (1, Nat.pow 10 (j + 1))
  { quarter := un * gd
    step := gn * ud
    -- below a power of two the numbers lie twice as close
    low := if m = Nat.pow 2 52 ∧ leastExponent < e then 4 * m - 1 else 4 * m - 2
    middle := 4 * m
    high := 4 * m + 2
    closed := m % 2 = 0 }

/-- Whether the grid point `c` reads back as the number. -/
def Grid.holds (g : Grid) (c : Nat) : Bool :=
  if g.closed then g.low * g.quarter ≤ c * g.step && c * g.step ≤ g.high * g.quarter
  else g.low * g.quarter < c * g.step && c * g.step < g.high * g.quarter

/-- The neighbour on the grid that reads back as the number, the nearer one if both do and the even
one if they are equally near. -/
def Grid.neighbour? (g : Grid) : Option Nat :=
  let value := g.middle * g.quarter
  let c := value / g.step
  let below := value - c * g.step
  let above := (c + 1) * g.step - value
  match g.holds c, g.holds (c + 1) with
  | true, true =>
    some (if below < above ∨ (below = above ∧ c % 2 = 0) then c else c + 1)
  | true, false => some c
  | false, true => some (c + 1)
  | false, false => none

/-- A power of ten with `10 ^ (p - 1) ≤ m * 2 ^ e ≤ 10 ^ p`, for positive `m`. -/
def magnitude (m : Nat) (e : Int) : Int :=
  let (n, d) := scaled m 1 (-e)
  if d ≤ n then Int.ofNat (Nat.toDigits 10 (n / d)).length
  else 1 - Int.ofNat (Nat.toDigits 10 (d / n)).length

/-- The first neighbour found on the grids of `count`, `count + 1`, … digits, `fuel` grids in
all. -/
def shortestFrom (m : Nat) (e p : Int) (count : Nat) : (fuel : Nat) → Option Decimal
  | 0 => none
  | fuel + 1 =>
    let k := p - Int.ofNat count
    match (Grid.around m e k).neighbour? with
    | some c => some ⟨c, k⟩
    | none => shortestFrom m e p (count + 1) fuel

/-- The shortest decimal that reads back as `m * 2 ^ e`; seventeen digits always do. -/
def shortest (m : Nat) (e : Int) : Decimal :=
  (shortestFrom m e (magnitude m e) 1 18).getD ⟨0, 0⟩

/-- The significant digits of a decimal, without zeros at the end, and the place of the point
relative to their start. -/
def Decimal.layout (d : Decimal) : List Char × Int :=
  let all := Nat.toDigits 10 d.digits
  ((all.reverse.dropWhile (· = '0')).reverse, Int.ofNat all.length + d.exponent)

/-- An exponent with its sign and at least two digits. -/
def exponentText (e : Int) : List Char :=
  let digits := Nat.toDigits 10 e.natAbs
  (if e < 0 then '-' else '+') :: (if digits.length < 2 then '0' :: digits else digits)

/-- Writes digits around a point. -/
def positional (digits : List Char) (point : Int) : List Char :=
  if point ≤ 0 then '0' :: '.' :: List.replicate (-point).toNat '0' ++ digits
  else if digits.length ≤ point.toNat then
    digits ++ List.replicate (point.toNat - digits.length) '0'
  else digits.take point.toNat ++ '.' :: digits.drop point.toNat

/-- Whether a number is written without an exponent: from 10^-4 up to 10^16. -/
def isPositional (point : Int) : Bool := -4 < point && point ≤ 16

/-- Writes digits around a point, where a whole number keeps one zero after the point, or with an
exponent. -/
def positionalOrExponent (digits : List Char) (point : Int) : List Char :=
  if isPositional point then
    positional digits point ++ (if digits.length ≤ point.toNat then ['.', '0'] else [])
  else
    match digits with
    | [] => []
    | [d] => d :: 'e' :: exponentText (point - 1)
    | d :: rest => d :: '.' :: rest ++ 'e' :: exponentText (point - 1)

/-- The text of a finite number that is not zero, without an exponent. -/
def plainDigits (m : Nat) (e : Int) : List Char :=
  let (ds, point) := (shortest m e).layout
  if isPositional point then positionalOrExponent ds point else positional ds point

/-- The text of a number as decimal numbers are written: without an exponent, and zero has no
sign. -/
def plainText : Binary64 → String
  | .finite negative m e =>
    if m = 0 then "0.0"
    else
      let digits := plainDigits m e
      String.ofList (if negative then '-' :: digits else digits)
  | .infinite negative => if negative then "-Infinity" else "Infinity"
  | .nan => "NaN"

/-- The text of a floating-point number. -/
def text : Binary64 → String
  | .finite negative m e =>
    let digits := if m = 0 then ['0', '.', '0']
      else
        let (ds, point) := (shortest m e).layout
        positionalOrExponent ds point
    String.ofList (if negative then '-' :: digits else digits)
  | .infinite negative => if negative then "-inf" else "inf"
  | .nan => "nan"

example : text (ofDecimal false 1 (-1)) = "0.1" ∧ text (ofDecimal true 0 0) = "-0.0" := by
  decide +kernel
example : text (ofDecimal false 1 16) = "1e+16" ∧
    text (ofDecimal false 1 15) = "1000000000000000.0" := by decide +kernel
example : text (ofDecimal false 1 (-4)) = "0.0001" ∧ text (ofDecimal false 1 (-5)) = "1e-05" := by
  decide +kernel
example : plainText (ofDecimal false 15 15) = "15000000000000000" ∧
    plainText (ofDecimal true 1 (-5)) = "-0.00001" ∧ plainText (ofDecimal true 3 0) = "-3.0" := by
  decide +kernel
example : text (ofDecimal false 5 (-324)) = "5e-324" := by decide +kernel
example : text (ofDecimal false 17976931348623157 292) = "1.7976931348623157e+308" := by
  decide +kernel

end SchemaLedger.Binary64
