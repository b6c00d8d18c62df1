/-!
# Binary floating-point numbers of 64 bits

A finite number is a sign, a mantissa below 2^53 and a power of two, kept in the one form that the
64 bits encode: either the mantissa has all 53 bits, or the exponent is the least one, -1074.
Arithmetic is done on exact ratios and rounded once, to the nearest number, a tie going to the
even mantissa. Because everything is stated over `Nat` and `Int`, equality is decidable and proofs
can look inside.
-/

namespace SchemaLedger

/-- A binary floating-point number of 64 bits. -/
inductive Binary64 where
  /-- The number `mantissa * 2 ^ exponent`, or its negation; zero keeps its sign. -/
  | finite (negative : Bool) (mantissa : Nat) (exponent : Int)
  /-- An infinity. -/
  | infinite (negative : Bool)
  /-- Not a number. -/
  | nan
  deriving DecidableEq, Repr, Inhabited

namespace Binary64

/-- The least exponent. -/
def leastExponent : Int := -1074

/-- The greatest exponent. -/
def greatestExponent : Int := 971

/-- A zero with its sign. -/
def zero (negative : Bool) : Binary64 := .finite negative 0 leastExponent

/-- `num / (den * 2 ^ e)` as a ratio of naturals. -/
def scaled (num den : Nat) : Int → Nat × Nat
  | .ofNat e => (num, den * Nat.pow 2 e)
  | .negSucc e => (num * Nat.pow 2 (e + 1), den)

/-- The quotient rounded to the nearest natural, a tie going to the even one. -/
def roundDiv (num den : Nat) : Nat :=
  let q := num / den
  let twice := 2 * (num % den)
  if den < twice ∨ (twice = den ∧ q % 2 = 1) then q + 1 else q

/-- The exponent at which `num / den` has a mantissa of 53 bits, or the least exponent if that is
greater. -/
def exponentFor (num den : Nat) : Int :=
  let guess : Int := Int.ofNat num.log2 - Int.ofNat den.log2 - 52
  -- the logarithms are rounded down, so the guess is right or one too high
  let (n, d) := scaled num den guess
  max leastExponent (if n / d < Nat.pow 2 52 then guess - 1 else guess)

/-- The number nearest to `num / den`, or an infinity beyond the largest finite number. -/
def ofRatio (negative : Bool) (num den : Nat) : Binary64 :=
  if num = 0 then zero negative
  else
    let e := exponentFor num den
    let (n, d) := scaled num den e
    let m := roundDiv n d
    -- rounding up may take one bit too many
    let (m, e) := if m = Nat.pow 2 53 then (Nat.pow 2 52, e + 1) else (m, e)
    if greatestExponent < e then .infinite negative else .finite negative m e

/-- The number nearest to a natural number. -/
def ofNat (n : Nat) : Binary64 := ofRatio false n 1

/-- The number nearest to `digits * 10 ^ exponent`. Exponents far outside the range are settled
by the count of digits alone, so that no power of ten is larger than it has to be. -/
def ofDecimal (negative : Bool) (digits : Nat) (exponent : Int) : Binary64 :=
  let size : Int := Int.ofNat (Nat.toDigits 10 digits).length + exponent
  if digits = 0 ∨ size < -400 then zero negative
  else if 400 < size then .infinite negative
  else match exponent with
    | .ofNat e => ofRatio negative (digits * Nat.pow 10 e) 1
    | .negSucc e => ofRatio negative digits (Nat.pow 10 (e + 1))

/-- The exact value of a finite number, as a ratio with a positive denominator. -/
def toRatio? : Binary64 → Option (Int × Nat)
  | .finite negative m e =>
    let (n, d) := scaled m 1 (-e)
    some (if negative then -Int.ofNat n else Int.ofNat n, d)
  | _ => none

/-- The number with the opposite sign. -/
def neg : Binary64 → Binary64
  | .finite s m e => .finite (!s) m e
  | .infinite s => .infinite (!s)
  | .nan => .nan

/-- Whether the number is greater than zero. -/
def isPositive : Binary64 → Bool
  | .finite s m _ => !s && 0 < m
  | .infinite s => !s
  | .nan => false

/-- Whether the number is zero, of either sign. -/
def isZero : Binary64 → Bool
  | .finite _ m _ => m = 0
  | _ => false

/-- The nearest number to a ratio of integers; an exact zero is positive. -/
def ofIntRatio (num : Int) (den : Nat) : Binary64 := ofRatio (num < 0) num.natAbs den

/-- The sum, rounded once. -/
def add (a b : Binary64) : Binary64 :=
  match a.toRatio?, b.toRatio? with
  | some (n, d), some (n', d') => ofIntRatio (n * d' + n' * d) (d * d')
  -- a number that is not finite outweighs a finite one
  | some _, none => b
  | none, some _ => a
  | none, none => if a = b then a else .nan

/-- The product with a positive natural number, which is rounded first; there is none if that number
is beyond the largest finite one. -/
def scale? (a : Binary64) (k : Nat) : Option Binary64 :=
  (ofNat k).toRatio?.map fun (n, d) =>
    match a with
    | .finite s m e =>
      let (p, q) := scaled m 1 (-e)
      ofRatio s (p * n.toNat) (q * d)
    | a => a

/-- Whether a number and an integer are equal. -/
def equalsInt (a : Binary64) (n : Int) : Bool :=
  match a.toRatio? with
  | some (num, den) => num == n * den
  | none => false

/-- Whether two numbers are equal as keys: zeros of both signs are one number, and a value that is
no number counts as equal to itself. -/
def sameNumber (a b : Binary64) : Bool := a == b || (a.isZero && b.isZero)

example : ofDecimal false 1 (-1) = .finite false 7205759403792794 (-56) := by decide +kernel
example : ofDecimal false 1 400 = .infinite false ∧ ofDecimal true 1 (-400) = zero true := by
  decide +kernel
example : ofDecimal false 5 (-324) = .finite false 1 (-1074) := by decide +kernel
example : (ofDecimal false 1 (-1)).add (ofDecimal false 2 (-1)) =
    ofDecimal false 30000000000000004 (-17) := by decide +kernel

end Binary64

end SchemaLedger
