import SchemaLedger.Time.Calendar
import SchemaLedger.Number.Read

/-!
# Moments

A moment is what a clock showed: the wall time, in microseconds, and how far that clock stood from
UTC, if that is known. A clock may follow the rules of a region and be put forward or back; then
times that it shows twice come with the fold, which tells the two readings apart, and the offset
depends on it.

Two readings of clocks that follow one region are compared by what the clocks showed, whatever their
folds and offsets. Readings of different clocks with a known offset are compared as instants, except
that a time whose offset depends on the fold equals no reading of another clock, although it has an
order with it. Without offsets the wall times are compared; a moment with an offset and one without
are never equal and have no order. So `same` is not "neither before nor after", and the order is
that of the instants only where no two readings are of one region at different offsets
(`compare?_of_steady`, `same_of_steady`).

Bringing a moment to UTC keeps its instant (`instant_toUtc`).
-/

namespace SchemaLedger

/-- Microseconds in a day. -/
def microsPerDay : Int := 86400000000

/-- Microseconds in a minute. -/
def microsPerMinute : Int := 60000000

/-- A region whose rules a clock follows, and what they say about one reading of it. -/
structure Region where
  name : String
  /-- Whether this is the second time that the clock shows what it shows. -/
  fold : Bool := false
  /-- How many microseconds the clock is ahead of UTC when it shows the same with the other fold. -/
  otherwise : Int
  deriving DecidableEq, Repr

/-- How far a clock is ahead of UTC. -/
structure Offset where
  /-- The distance in microseconds. -/
  micros : Int
  /-- The region that the clock follows, unless the distance is fixed. -/
  region : Option Region := none
  deriving DecidableEq, Repr

namespace Offset

/-- A fixed number of minutes ahead of UTC. -/
def ofMinutes (minutes : Int) : Offset := { micros := minutes * microsPerMinute }

/-- A numeral is a fixed number of minutes. -/
instance (n : Nat) : OfNat Offset n := ⟨ofMinutes n⟩

@[simp] theorem micros_zero : (0 : Offset).micros = 0 := rfl

@[simp] theorem region_zero : (0 : Offset).region = none := rfl

/-- Whether two clocks follow one region. -/
def sameRegion (x y : Offset) : Bool :=
  match x.region, y.region with
  | some r, some s => r.name = s.name
  | _, _ => false

/-- Whether the offset depends on the fold: the clock shows this time twice, or skips it. -/
def isAmbiguous (x : Offset) : Bool := x.region.any (·.otherwise ≠ x.micros)

/-- Whether readings with these offsets are compared as instants: two of one region have the same
offset, and others do not depend on the fold. -/
def steady (x y : Offset) : Bool :=
  if x.sameRegion y then x.micros = y.micros else !x.isAmbiguous && !y.isAmbiguous

end Offset

/-- What a clock showed. -/
structure Moment where
  /-- Microseconds since the start of year 1, on this clock. -/
  wall : Int
  /-- How far this clock is ahead of UTC, if known. -/
  offset : Option Offset
  deriving DecidableEq, Repr, Inhabited

namespace Moment

/-- The instant in UTC; a clock without an offset is taken to show UTC. -/
def instant (t : Moment) : Int := t.wall - t.offset.elim 0 Offset.micros

/-- The same instant on a clock that shows UTC. -/
def toUtc (t : Moment) : Moment := ⟨t.instant, some 0⟩

/-- The order of two moments, if they have one. -/
def compare? (a b : Moment) : Option Ordering :=
  match a.offset, b.offset with
  | some x, some y =>
    some (if x.sameRegion y then compare a.wall b.wall else compare a.instant b.instant)
  | none, none => some (compare a.wall b.wall)
  | _, _ => none

/-- Whether two moments are equal. -/
def same (a b : Moment) : Bool :=
  match a.offset, b.offset with
  | some x, some y =>
    if x.sameRegion y then a.wall = b.wall
    else !x.isAmbiguous && !y.isAmbiguous && a.instant = b.instant
  | none, none => a.wall = b.wall
  | _, _ => false

/-- Whether both offsets are known and the readings are compared as instants. -/
def steadyWith (a b : Moment) : Bool :=
  match a.offset, b.offset with
  | some x, some y => x.steady y
  | _, _ => false

@[simp] theorem instant_toUtc (t : Moment) : t.toUtc.instant = t.instant := by
  simp [toUtc, instant]

@[simp] theorem toUtc_toUtc (t : Moment) : t.toUtc.toUtc = t.toUtc := by
  simp [toUtc, instant]

theorem compare?_self (t : Moment) : t.compare? t = some .eq := by
  unfold compare?
  cases t.offset <;> simp

theorem same_self (t : Moment) : t.same t = true := by
  unfold same
  rcases t.offset with _ | ⟨micros, _ | region⟩
  · simp
  · simp [Offset.sameRegion, Offset.isAmbiguous]
  · simp [Offset.sameRegion]

/-- Two moments with known offsets have an order. -/
theorem exists_compare? {a b : Moment} (ha : a.offset.isSome = true)
    (hb : b.offset.isSome = true) : ∃ order, a.compare? b = some order := by
  obtain ⟨x, hx⟩ := Option.isSome_iff_exists.mp ha
  obtain ⟨y, hy⟩ := Option.isSome_iff_exists.mp hb
  rw [compare?, hx, hy]
  exact ⟨_, rfl⟩

section Steady

variable {a b : Moment}

theorem steadyWith_iff : a.steadyWith b = true ↔
    ∃ x y, a.offset = some x ∧ b.offset = some y ∧ x.steady y = true := by
  rcases hx : a.offset with _ | x
  · simp [steadyWith, hx]
  · rcases hy : b.offset with _ | y <;> simp [steadyWith, hx, hy]

/-- Steady readings have the order of their instants. -/
theorem compare?_of_steady (h : a.steadyWith b = true) :
    a.compare? b = some (compare a.instant b.instant) := by
  obtain ⟨x, y, hx, hy, h⟩ := steadyWith_iff.mp h
  simp only [compare?, hx, hy]
  by_cases hregion : x.sameRegion y = true
  · have hmicros : x.micros = y.micros := by simpa [Offset.steady, hregion] using h
    rw [if_pos hregion, instant, instant, hx, hy]
    simp only [Option.elim, hmicros, compare, compareOfLessAndEq, Int.sub_lt_sub_right_iff,
      Int.sub_left_inj]
  · rw [if_neg hregion]

end Steady

/-- The date that the clock showed. -/
def date (t : Moment) : CivilDate := .ofDay (t.wall / microsPerDay)

/-- Microseconds since midnight on the clock. -/
def sinceMidnight (t : Moment) : Nat := (t.wall % microsPerDay).toNat

/-- The hour shown. -/
def hour (t : Moment) : Nat := t.sinceMidnight / 3600000000

/-- The minute shown. -/
def minute (t : Moment) : Nat := t.sinceMidnight / 60000000 % 60

/-- The second shown. -/
def second (t : Moment) : Nat := t.sinceMidnight / 1000000 % 60

/-- The microseconds shown. -/
def micros (t : Moment) : Nat := t.sinceMidnight % 1000000

/-- The moment with the given fields, if they are a date and a time of day. -/
def ofFields? (d : CivilDate) (hour minute second micros : Nat) (offset : Option Offset) :
    Option Moment :=
  if d.isValid && hour < 24 && minute < 60 && second < 60 && micros < 1000000 then
    some ⟨d.toDay * microsPerDay +
      Int.ofNat (((hour * 60 + minute) * 60 + second) * 1000000 + micros), offset⟩
  else none

end Moment

/-- The last `width` decimal digits of `n`, leading zeros kept. -/
def fixedDigits : (width : Nat) → (n : Nat) → List Char
  | 0, _ => []
  | width + 1, n => fixedDigits width (n / 10) ++ [Char.ofNat (48 + n % 10)]

@[simp] theorem length_fixedDigits (width n : Nat) : (fixedDigits width n).length = width := by
  induction width generalizing n with
  | zero => rfl
  | succ width ih => simp [fixedDigits, ih]

namespace CivilDate

/-- The date as `YYYY-MM-DD`. -/
def text (d : CivilDate) : String :=
  String.ofList (fixedDigits 4 d.year.toNat ++ '-' :: fixedDigits 2 d.month ++
    '-' :: fixedDigits 2 d.day)

end CivilDate

namespace Moment

/-- The offset as `+HH:MM`, then `:SS` unless it is whole minutes, then six digits of fraction
unless it is whole seconds. -/
def offsetText (x : Offset) : List Char :=
  let micros := x.micros.natAbs
  (if x.micros < 0 then '-' else '+') :: fixedDigits 2 (micros / 3600000000) ++
    ':' :: fixedDigits 2 (micros / 60000000 % 60) ++
    (if micros % 60000000 = 0 then [] else ':' :: fixedDigits 2 (micros / 1000000 % 60)) ++
    (if micros % 1000000 = 0 then [] else '.' :: fixedDigits 6 (micros % 1000000))

/-- The moment as `YYYY-MM-DDTHH:MM:SS`, then six digits of fraction unless it is zero, then the
offset if there is one. -/
def text (t : Moment) : String :=
  t.date.text ++ String.ofList ('T' :: fixedDigits 2 t.hour ++ ':' :: fixedDigits 2 t.minute ++
    ':' :: fixedDigits 2 t.second ++
    (if t.micros = 0 then [] else '.' :: fixedDigits 6 t.micros) ++
    t.offset.elim [] offsetText)

/-- The digits of the moment without separators, to the microsecond: the year as it is, every other
field at its full width. -/
def stamp (t : Moment) : String :=
  let d := t.date
  String.ofList (Nat.toDigits 10 d.year.toNat ++ fixedDigits 2 d.month ++ fixedDigits 2 d.day ++
    fixedDigits 2 t.hour ++ fixedDigits 2 t.minute ++ fixedDigits 2 t.second ++
    fixedDigits 6 t.micros)

/-- Reads exactly `width` decimal digits. -/
def readFixed (width : Nat) (cs : List Char) : Option (Nat × List Char) :=
  let digits := cs.take width
  if digits.length = width && digits.all Char.isDigit then
    some (Number.ofDigits 10 digits, cs.drop width)
  else none

/-- Reads one expected character. -/
def readMark (c : Char) : List Char → Option (List Char)
  | [] => none
  | d :: rest => if d = c then some rest else none

/-- The value of a fraction of a second in microseconds; digits after the sixth are dropped. -/
def fractionMicros (digits : List Char) : Nat :=
  Number.ofDigits 10 (digits.take 6 ++ List.replicate (6 - digits.length) '0')

/-- Reads an offset up to the end of the text: none, `Z`, or hours and minutes with a sign. -/
def readOffset : List Char → Option (Option Offset)
  | [] => some none
  | ['Z'] => some (some 0)
  | c :: rest => do
    let negative ← if c = '-' then some true else if c = '+' then some false else none
    let (h, rest) ← readFixed 2 rest
    let rest ← readMark ':' rest
    let (m, rest) ← readFixed 2 rest
    if rest ≠ [] ∨ 24 ≤ h ∨ 60 ≤ m then none
    else
      let minutes := Int.ofNat (h * 60 + m)
      some (some (.ofMinutes (if negative then -minutes else minutes)))

/-- Reads `YYYY-MM-DDTHH:MM:SS`, an optional fraction and an optional offset. -/
def read? (s : String) : Option Moment := do
  let (year, cs) ← readFixed 4 s.toList
  let cs ← readMark '-' cs
  let (month, cs) ← readFixed 2 cs
  let cs ← readMark '-' cs
  let (day, cs) ← readFixed 2 cs
  let cs ← readMark 'T' cs
  let (hour, cs) ← readFixed 2 cs
  let cs ← readMark ':' cs
  let (minute, cs) ← readFixed 2 cs
  let cs ← readMark ':' cs
  let (second, cs) ← readFixed 2 cs
  let (fraction, cs) := match cs with
    | '.' :: rest => (rest.takeWhile Char.isDigit, rest.dropWhile Char.isDigit)
    | rest => ([], rest)
  let offset ← readOffset cs
  ofFields? ⟨Int.ofNat year, month, day⟩ hour minute second (fractionMicros fraction) offset

/-- The moment in UTC so many microseconds after the start of 1970. -/
def ofUnixMicros (micros : Int) : Moment :=
  ⟨(⟨1970, 1, 1⟩ : CivilDate).toDay * microsPerDay + micros, some 0⟩

example : (read? "2026-03-04T05:06:07.5+09:30").map text = some "2026-03-04T05:06:07.500000+09:30" ∧
    (read? "2026-03-04T05:06:07+09:30").map (text ∘ toUtc) = some "2026-03-03T19:36:07+00:00" ∧
    (read? "0999-03-04T05:06:07+00:00").map stamp = some "9990304050607000000" := by
  decide +kernel
example : (ofUnixMicros 1000000000000000).text = "2001-09-09T01:46:40+00:00" := by decide +kernel

end Moment

end SchemaLedger
