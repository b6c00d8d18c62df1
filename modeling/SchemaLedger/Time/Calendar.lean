/-!
# The calendar

Days are counted from the first of January of year 1, which is day 0, in the calendar of today
carried back to the beginning. A date is read off its day number and back.

The main statements: the year found for a day is the one that contains it
(`daysBeforeYear_yearOf_le`, `lt_daysBeforeYear_yearOf_succ`), and a day number survives the way to
a date and back (`CivilDate.toDay_ofDay`).
-/

namespace SchemaLedger

/-- Whether a year has a 29th of February. -/
def isLeapYear (y : Int) : Bool := y % 4 = 0 && (y % 100 ≠ 0 || y % 400 = 0)

/-- The days between the start of year 1 and the start of `y`. -/
def daysBeforeYear (y : Int) : Int :=
  365 * (y - 1) + (y - 1) / 4 - (y - 1) / 100 + (y - 1) / 400

/-- The year that contains a day: an estimate from the mean length of a year, put right by at most
one. -/
def yearOf (day : Int) : Int :=
  let guess := 400 * day / 146097 + 1
  if day < daysBeforeYear guess then guess - 1
  else if daysBeforeYear (guess + 1) ≤ day then guess + 1
  else guess

theorem daysBeforeYear_yearOf_le (day : Int) : daysBeforeYear (yearOf day) ≤ day := by
  unfold yearOf
  simp only
  split
  · unfold daysBeforeYear at *; omega
  · split
    · assumption
    · omega

theorem lt_daysBeforeYear_yearOf_succ (day : Int) : day < daysBeforeYear (yearOf day + 1) := by
  unfold yearOf
  simp only
  split
  · next h => simpa using h
  · split
    · unfold daysBeforeYear at *; omega
    · omega

/-- The lengths of the months of a year. -/
def monthLengths (leap : Bool) : List Nat :=
  [31, if leap then 29 else 28, 31, 30, 31, 30, 31, 31, 30, 31, 30, 31]

/-- The length of month `m`, counted from 1; 0 for a month that does not exist. -/
def daysInMonth (leap : Bool) (m : Nat) : Nat :=
  if m = 0 then 0 else (monthLengths leap)[m - 1]?.getD 0

/-- The days of a year before month `m`. -/
def daysBeforeMonth (leap : Bool) (m : Nat) : Nat :=
  ((monthLengths leap).take (m - 1)).foldr (· + ·) 0

/-- Walks through months of the given lengths, the first of which is month `m`, to the one that
contains the day `d` counted from its start; gives the month and the day within it from 0. -/
def monthAt (m : Nat) : (lengths : List Nat) → (d : Nat) → Nat × Nat
  | [], d => (m, d)
  | n :: rest, d => if d < n then (m, d) else monthAt (m + 1) rest (d - n)

/-- A date of the calendar. -/
structure CivilDate where
  year : Int
  month : Nat
  day : Nat
  deriving DecidableEq, Repr

namespace CivilDate

/-- The day number of a date. -/
def toDay (c : CivilDate) : Int :=
  daysBeforeYear c.year + Int.ofNat (daysBeforeMonth (isLeapYear c.year) c.month) +
    Int.ofNat c.day - 1

/-- The date of a day number. -/
def ofDay (day : Int) : CivilDate :=
  let y := yearOf day
  let (m, d) := monthAt 1 (monthLengths (isLeapYear y)) (day - daysBeforeYear y).toNat
  ⟨y, m, d + 1⟩

/-- Whether the date exists, in the years 1 to 9999. -/
def isValid (c : CivilDate) : Bool :=
  1 ≤ c.year && c.year ≤ 9999 && 1 ≤ c.month && c.month ≤ 12 && 1 ≤ c.day &&
    c.day ≤ daysInMonth (isLeapYear c.year) c.month

end CivilDate

theorem le_monthAt (lengths : List Nat) (m d : Nat) : m ≤ (monthAt m lengths d).1 := by
  induction lengths generalizing m d with
  | nil => exact Nat.le_refl m
  | cons n rest ih =>
    unfold monthAt
    split
    · exact Nat.le_refl m
    · exact Nat.le_trans (Nat.le_succ m) (ih (m + 1) (d - n))

/-- The months walked through and the day within the last one add up to the day. -/
theorem sum_take_monthAt (lengths : List Nat) (m d : Nat) :
    (lengths.take ((monthAt m lengths d).1 - m)).foldr (· + ·) 0 + (monthAt m lengths d).2 =
      d := by
  induction lengths generalizing m d with
  | nil => simp [monthAt]
  | cons n rest ih =>
    unfold monthAt
    split
    · simp
    · -- the walk goes on in the next month, whose number is one greater
      have hle := le_monthAt rest (m + 1) (d - n)
      have := ih (m + 1) (d - n)
      rw [show (monthAt (m + 1) rest (d - n)).1 - m
        = ((monthAt (m + 1) rest (d - n)).1 - (m + 1)) + 1 by omega]
      simp only [List.take_succ_cons, List.foldr_cons]
      omega

theorem daysBeforeMonth_monthAt (leap : Bool) (d : Nat) :
    daysBeforeMonth leap (monthAt 1 (monthLengths leap) d).1 +
      (monthAt 1 (monthLengths leap) d).2 = d :=
  sum_take_monthAt (monthLengths leap) 1 d

theorem CivilDate.toDay_ofDay (day : Int) : (ofDay day).toDay = day := by
  have h := daysBeforeYear_yearOf_le day
  have hm :=
    daysBeforeMonth_monthAt (isLeapYear (yearOf day)) (day - daysBeforeYear (yearOf day)).toNat
  simp only [CivilDate.toDay, CivilDate.ofDay]
  simp only [Int.ofNat_eq_natCast]
  omega

example : CivilDate.ofDay 0 = ⟨1, 1, 1⟩ ∧ (CivilDate.mk 1970 1 1).toDay = 719162 := by decide
example : CivilDate.ofDay 738944 = ⟨2024, 2, 29⟩ := by decide

end SchemaLedger
