/-!
# Escaped characters

An escape in a text gives a character by a number: its code point, or one half of a pair for a
character beyond U+FFFF. The numbers of a text are joined to characters here. Half of a pair by
itself stands for no character and is shown as the replacement character.
-/

namespace SchemaLedger.Text

/-- The value of a hexadecimal digit. -/
def hexValue? (c : Char) : Option Nat :=
  if c.isDigit then some (c.toNat - 48)
  else if 'a' ≤ c ∧ c ≤ 'f' then some (c.toNat - 87)
  else if 'A' ≤ c ∧ c ≤ 'F' then some (c.toNat - 55)
  else none

/-- The number that a row of hexadecimal digits gives. -/
def hexNumber? (digits : List Char) : Option Nat :=
  digits.foldlM (fun n c => (hexValue? c).map (n * 16 + ·)) 0

/-- Whether a code unit is the first half of a pair. -/
def isHighHalf (n : Nat) : Bool := 0xD800 ≤ n && n < 0xDC00

/-- Whether a code unit is the second half of a pair. -/
def isLowHalf (n : Nat) : Bool := 0xDC00 ≤ n && n < 0xE000

/-- The character of a code point. -/
def charOf (n : Nat) : Char := if n.isValidChar then Char.ofNat n else '\ufffd'

/-- The characters of a row of numbers, with the halves of pairs joined. -/
def joinPairs : List Nat → List Char
  | [] => []
  | high :: low :: rest =>
    if isHighHalf high && isLowHalf low then
      charOf (0x10000 + (high - 0xD800) * 0x400 + (low - 0xDC00)) :: joinPairs rest
    else charOf high :: joinPairs (low :: rest)
  | [n] => [charOf n]

example : joinPairs [0x61, 0xD83D, 0xDE00, 0xD83D] = ['a', '😀', '\ufffd'] := by decide +kernel

end SchemaLedger.Text
