/-!
# Blank characters

A label or an expression counts as missing when it holds nothing but blanks. Blank is every
character of the Unicode white space class together with the four separators U+001C to U+001F;
the zero-width space U+200B and the byte order mark U+FEFF are not blank.

The main statements: core's white space is blank (`isBlank_of_isWhitespace`), and a text trims to
nothing exactly when all of it is blank (`trimChars_eq_nil`).
-/

namespace SchemaLedger.Text

/-- Whether a character is blank. -/
def isBlank (c : Char) : Bool :=
  let n := c.toNat
  (9 ≤ n && n ≤ 13) || (28 ≤ n && n ≤ 32) || n == 0x85 || n == 0xA0 || n == 0x1680 ||
    (0x2000 ≤ n && n ≤ 0x200A) || n == 0x2028 || n == 0x2029 || n == 0x202F || n == 0x205F ||
    n == 0x3000

/-- Drops blanks from both ends. -/
def trimChars (cs : List Char) : List Char :=
  ((cs.dropWhile isBlank).reverse.dropWhile isBlank).reverse

/-- The text without the blanks at its ends. -/
def trim (s : String) : String := String.ofList (trimChars s.toList)

/-- Whether a text holds nothing but blanks; the empty text does. -/
def allBlank (s : String) : Bool := s.toList.all isBlank

theorem isBlank_of_isWhitespace {c : Char} (h : c.isWhitespace = true) : isBlank c = true := by
  simp only [Char.isWhitespace, Bool.or_eq_true, decide_eq_true_eq] at h
  rcases h with ((rfl | rfl) | rfl) | rfl <;> decide

theorem dropWhile_isBlank_eq_nil {cs : List Char} :
    cs.dropWhile isBlank = [] ↔ cs.all isBlank = true := by
  induction cs with
  | nil => simp
  | cons c cs ih => by_cases h : isBlank c <;> simp_all

theorem trimChars_eq_nil {cs : List Char} : trimChars cs = [] ↔ cs.all isBlank = true := by
  constructor
  · intro h
    have h' : (cs.dropWhile isBlank).all isBlank = true := by
      simpa [trimChars, dropWhile_isBlank_eq_nil] using h
    cases hd : cs.dropWhile isBlank with
    | nil => exact dropWhile_isBlank_eq_nil.1 hd
    | cons c rest =>
      have hc := List.head?_dropWhile_not isBlank cs
      simp [hd] at hc h'
      simp [hc] at h'
  · intro h
    simp [trimChars, dropWhile_isBlank_eq_nil.2 h]

theorem trim_eq_empty {s : String} : trim s = "" ↔ allBlank s = true := by
  rw [trim, allBlank, ← trimChars_eq_nil]
  constructor
  · intro h
    have := congrArg String.toList h
    simpa using this
  · intro h
    rw [h]

example : isBlank '\u0085' = true ∧ isBlank '\u3000' = true ∧ isBlank '\u200b' = false := by decide

end SchemaLedger.Text
