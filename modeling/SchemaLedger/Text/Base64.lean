/-!
# Binary data in base 64

Binary data is written with sixty-four digits of six bits each, so that four digits give three
bytes. Equals signs fill up the last group of four. Every other character may stand between the
digits and counts for nothing.
-/

namespace SchemaLedger.Text

/-- The value of a digit in base 64. -/
def base64Value? (c : Char) : Option Nat :=
  if 'A' ≤ c ∧ c ≤ 'Z' then some (c.toNat - 65)
  else if 'a' ≤ c ∧ c ≤ 'z' then some (c.toNat - 71)
  else if c.isDigit then some (c.toNat + 4)
  else if c = '+' then some 62
  else if c = '/' then some 63
  else none

/-- Reads digits from the given place in a group of four on. `bits` are those of the digit before
that make no byte yet, and `fill` counts the equals signs behind it. -/
def base64From (place bits fill : Nat) : List Char → Option (List UInt8)
  | [] => if place = 0 then some [] else none
  | c :: rest =>
    if c = '=' then
      -- what follows a group that is filled up is not looked at
      if place < 2 then base64From place bits fill rest
      else if 4 ≤ place + fill + 1 then some []
      else base64From place bits (fill + 1) rest
    else
      match base64Value? c with
      | none => base64From place bits fill rest
      | some v =>
        if place = 0 then base64From 1 v 0 rest
        else
          -- the digit gives its upper bits to a byte and keeps the lower ones
          let kept := 2 ^ (6 - 2 * place)
          (base64From ((place + 1) % 4) (v % kept) 0 rest).map
            ((bits * 4 ^ place + v / kept).toUInt8 :: ·)

/-- The bytes of a text in base 64, unless its last group is incomplete. -/
def base64? (s : String) : Option (List UInt8) := base64From 0 0 0 s.toList

example : base64? "aGk=" = some [104, 105] ∧ base64? "aG\nVs" = some [104, 101, 108] ∧
    base64? "" = some [] ∧ base64? "a" = none ∧ base64? "aGk" = none ∧
    base64? "/w==" = some [255] := by decide +kernel

end SchemaLedger.Text
