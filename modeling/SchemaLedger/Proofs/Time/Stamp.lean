import Mathlib.Algebra.Ring.Nat
import Mathlib.Order.Monotone.Basic
import SchemaLedger.Time.Moment

/-!
# Stamps in order

A stamp is the digits of a date and a time of day, one field after the other. For the years 1000 to
9999 all fields have a fixed width, so a stamp is the twenty digits of one number
(`Moment.toList_stamp`): the fields written as a number, most significant first. Digits of a fixed
width are ordered like the numbers that they stand for (`fixedDigits_lt_iff`), and the number of a
moment grows with the time on its clock (`Moment.stampNumber_lt_of_wall`): from second to second
because every field has room for more than it counts (`strictMono_spread`), and from day to day
because a later day has a later date (`CivilDate.number_ofDay_lt`).

So stamps are ordered as the clock readings are (`Moment.stamp_lt_iff`), and different readings have
different stamps. In other years stamps are shorter or longer, and neither need be so.
-/

namespace SchemaLedger

/-! ## Digits of a fixed width -/

theorem digitChar_of_lt {d : Nat} (h : d < 10) : Nat.digitChar d = Char.ofNat (48 + d) := by
  rw [← Nat.toNat_digitChar_of_lt_ten h, Char.ofNat_toNat]

/-- The digits of a number are those of its front and those of its end. -/
theorem fixedDigits_add (v w n : Nat) :
    fixedDigits (v + w) n = fixedDigits v (n / 10 ^ w) ++ fixedDigits w n := by
  induction w generalizing n with
  | zero => simp [fixedDigits]
  | succ w ih =>
    rw [Nat.add_succ, fixedDigits, ih, fixedDigits, Nat.div_div_eq_div_mul, ← Nat.pow_succ',
      List.append_assoc]

/-- The first digit, and those behind it. -/
theorem fixedDigits_succ (w n : Nat) :
    fixedDigits (w + 1) n = Char.ofNat (48 + n / 10 ^ w % 10) :: fixedDigits w n := by
  rw [Nat.add_comm, fixedDigits_add]
  rfl

/-- Only the last digits of a number are written. -/
theorem fixedDigits_mod (w n : Nat) : fixedDigits w (n % 10 ^ w) = fixedDigits w n := by
  induction w generalizing n with
  | zero => rfl
  | succ w ih =>
    rw [fixedDigits, fixedDigits, Nat.pow_succ', Nat.mod_mul_right_div_self, ih,
      Nat.mod_mul_right_mod]

/-- Two numbers that are written one after the other make one number. -/
theorem fixedDigits_append {v w a b : Nat} (hb : b < 10 ^ w) :
    fixedDigits v a ++ fixedDigits w b = fixedDigits (v + w) (a * 10 ^ w + b) := by
  have hfront : (a * 10 ^ w + b) / 10 ^ w = a := by
    rw [Nat.add_comm, Nat.add_mul_div_right b a (Nat.pow_pos (by decide)), Nat.div_eq_of_lt hb,
      Nat.zero_add]
  have hend : (a * 10 ^ w + b) % 10 ^ w = b := by
    rw [Nat.mul_add_mod_self_right, Nat.mod_eq_of_lt hb]
  rw [fixedDigits_add, hfront, ← fixedDigits_mod w (_ + _), hend]

/-- A number that is as long as the width needs no leading zeros. -/
theorem toDigits_eq_fixedDigits {w n : Nat} (hlow : 10 ^ w ≤ n) (hhigh : n < 10 ^ (w + 1)) :
    Nat.toDigits 10 n = fixedDigits (w + 1) n := by
  induction w generalizing n with
  | zero =>
    have hlt : n < 10 := hhigh
    show _ = [Char.ofNat (48 + n % 10)]
    rw [Nat.toDigits_of_lt_base hlt, digitChar_of_lt hlt, Nat.mod_eq_of_lt hlt]
  | succ w ih =>
    rw [Nat.pow_succ'] at hlow hhigh
    have hlong : ¬ n < 10 := by
      have : 0 < 10 ^ w := Nat.pow_pos (by decide)
      omega
    rw [Nat.toDigits_eq_if (by decide), if_neg hlong, ih (by omega) (by omega),
      digitChar_of_lt (Nat.mod_lt n (by decide))]
    rfl

/-- Of two numbers that differ in the digits that are written only, the smaller one is written as
the smaller text. The induction is on the first digit. -/
theorem fixedDigits_lt {w m n : Nat} (hfront : m / 10 ^ w = n / 10 ^ w) (h : m < n) :
    fixedDigits w m < fixedDigits w n := by
  induction w with
  | zero =>
    rw [Nat.pow_zero, Nat.div_one, Nat.div_one] at hfront
    exact absurd hfront h.ne
  | succ w ih =>
    rw [fixedDigits_succ, fixedDigits_succ, List.cons_lt_cons_iff]
    by_cases heq : m / 10 ^ w = n / 10 ^ w
    · exact .inr ⟨by rw [heq], ih heq⟩
    · left
      have hle : m / 10 ^ w ≤ n / 10 ^ w := Nat.div_le_div_right h.le
      rw [Nat.pow_succ, ← Nat.div_div_eq_div_mul, ← Nat.div_div_eq_div_mul] at hfront
      have hdigit : m / 10 ^ w % 10 < n / 10 ^ w % 10 := by omega
      have hm : m / 10 ^ w % 10 < 10 := Nat.mod_lt _ (by decide)
      have hn : n / 10 ^ w % 10 < 10 := Nat.mod_lt _ (by decide)
      rw [← digitChar_of_lt hm, ← digitChar_of_lt hn]
      show (Nat.digitChar _).toNat < (Nat.digitChar _).toNat
      rw [Nat.toNat_digitChar_of_lt_ten hm, Nat.toNat_digitChar_of_lt_ten hn]
      exact Nat.add_lt_add_left hdigit 48

/-- Digits of a fixed width have the order of the numbers. -/
theorem fixedDigits_lt_iff {w m n : Nat} (hm : m < 10 ^ w) (hn : n < 10 ^ w) :
    fixedDigits w m < fixedDigits w n ↔ m < n := by
  have hfront : m / 10 ^ w = n / 10 ^ w := by rw [Nat.div_eq_of_lt hm, Nat.div_eq_of_lt hn]
  refine ⟨fun h => ?_, fixedDigits_lt hfront⟩
  by_contra hle
  rcases (Nat.le_of_not_lt hle).lt_or_eq with hlt | rfl
  · exact List.lt_asymm h (fixedDigits_lt hfront.symm hlt)
  · exact List.lt_irrefl _ h

/-! ## Later days have later dates -/

theorem daysBeforeYear_le {y z : Int} (h : y ≤ z) : daysBeforeYear y ≤ daysBeforeYear z := by
  unfold daysBeforeYear
  omega

theorem yearOf_le {day day' : Int} (h : day ≤ day') : yearOf day ≤ yearOf day' := by
  by_contra hlt
  have hyears : daysBeforeYear (yearOf day' + 1) ≤ daysBeforeYear (yearOf day) :=
    daysBeforeYear_le (by omega)
  have hday := daysBeforeYear_yearOf_le day
  have hday' := lt_daysBeforeYear_yearOf_succ day'
  omega

/-- A later day is in a later month, or later in the same one. -/
theorem monthAt_lt (lengths : List Nat) (m : Nat) {d d' : Nat} (h : d < d') :
    (monthAt m lengths d).1 < (monthAt m lengths d').1 ∨
      (monthAt m lengths d).1 = (monthAt m lengths d').1 ∧
        (monthAt m lengths d).2 < (monthAt m lengths d').2 := by
  induction lengths generalizing m d d' with
  | nil => exact .inr ⟨rfl, h⟩
  | cons n rest ih =>
    unfold monthAt
    by_cases hd : d < n
    · -- the earlier day is in this month, and the later one here or in a month behind it
      rw [if_pos hd]
      by_cases hd' : d' < n
      · rw [if_pos hd']
        exact .inr ⟨rfl, h⟩
      · rw [if_neg hd']
        exact .inl (le_monthAt rest (m + 1) (d' - n))
    · rw [if_neg hd, if_neg (by omega)]
      exact ih (m + 1) (by omega)

/-- A day within the months is in one of them. -/
theorem monthAt_of_lt_sum {lengths : List Nat} {m d : Nat}
    (h : d < lengths.foldr (· + ·) 0) :
    (monthAt m lengths d).1 < m + lengths.length ∧ ∃ n ∈ lengths, (monthAt m lengths d).2 < n := by
  induction lengths generalizing m d with
  | nil => exact absurd h (Nat.not_lt_zero d)
  | cons n rest ih =>
    rw [List.foldr_cons] at h
    unfold monthAt
    by_cases hd : d < n
    · rw [if_pos hd, List.length_cons]
      exact ⟨by simp, n, List.mem_cons_self, hd⟩
    · rw [if_neg hd, List.length_cons]
      obtain ⟨hmonth, n', hn', hlt⟩ := ih (m := m + 1) (show d - n < _ by omega)
      exact ⟨by omega, n', List.mem_cons_of_mem _ hn', hlt⟩

theorem sum_monthLengths (leap : Bool) :
    (monthLengths leap).foldr (· + ·) 0 = if leap then 366 else 365 := by
  cases leap <;> rfl

theorem daysBeforeYear_succ (y : Int) :
    daysBeforeYear (y + 1) = daysBeforeYear y + if isLeapYear y then 366 else 365 := by
  unfold daysBeforeYear isLeapYear
  by_cases h4 : y % 4 = 0 <;> by_cases h100 : y % 100 = 0 <;> by_cases h400 : y % 400 = 0
  all_goals
    simp only [h4, h100, h400]
    simp
    omega

/-- A date has a month and a day of at most two digits. -/
theorem CivilDate.ofDay_lt (day : Int) : (ofDay day).month < 100 ∧ (ofDay day).day < 100 := by
  have hlow := daysBeforeYear_yearOf_le day
  have hhigh := lt_daysBeforeYear_yearOf_succ day
  rw [daysBeforeYear_succ] at hhigh
  have hwithin : (day - daysBeforeYear (yearOf day)).toNat <
      (monthLengths (isLeapYear (yearOf day))).foldr (· + ·) 0 := by
    rw [sum_monthLengths]
    split at hhigh <;> simp_all <;> omega
  obtain ⟨hmonth, n, hn, hday⟩ := monthAt_of_lt_sum (m := 1) hwithin
  have hlengths : ∀ leap, (monthLengths leap).length = 12 ∧ ∀ n ∈ monthLengths leap, n ≤ 31 := by
    decide
  obtain ⟨hlength, hle⟩ := hlengths (isLeapYear (yearOf day))
  have := hle n hn
  unfold ofDay
  dsimp only
  omega

/-- The digits of a date, read as a number. -/
def CivilDate.number (d : CivilDate) : Nat := (d.year.toNat * 100 + d.month) * 100 + d.day

/-- **A later day has a later date**, from year 1 on. -/
theorem CivilDate.number_ofDay_lt {day day' : Int} (h : day < day') (hyear : 1 ≤ yearOf day) :
    (ofDay day).number < (ofDay day').number := by
  obtain ⟨hmonth, hday⟩ := ofDay_lt day
  have hyears := yearOf_le h.le
  rcases hyears.lt_or_eq with hlt | heq
  · have : (ofDay day).year = yearOf day := rfl
    have : (ofDay day').year = yearOf day' := rfl
    unfold number
    omega
  · have hlow := daysBeforeYear_yearOf_le day
    have hoffset : (day - daysBeforeYear (yearOf day)).toNat <
        (day' - daysBeforeYear (yearOf day)).toNat := by omega
    have hlt := monthAt_lt (monthLengths (isLeapYear (yearOf day))) 1 hoffset
    unfold number ofDay at *
    dsimp only at *
    rw [← heq]
    omega

/-! ## Later seconds have later times of day -/

/-- A count that is told in units of `b` can be told in units that have room for more. -/
theorem strictMono_spread {f : Nat → Nat} (hf : StrictMono f) {b c : Nat} (hb : 0 < b)
    (hc : b ≤ c) : StrictMono fun n => f (n / b) * c + n % b := by
  intro m n h
  rcases (Nat.div_le_div_right h.le : m / b ≤ n / b).lt_or_eq with hlt | heq
  · have hm : m % b < c := (Nat.mod_lt m hb).trans_le hc
    calc f (m / b) * c + m % b
        < (f (m / b) + 1) * c := by rw [Nat.succ_mul]; exact Nat.add_lt_add_left hm _
      _ ≤ f (n / b) * c := Nat.mul_le_mul_right c (hf hlt)
      _ ≤ f (n / b) * c + n % b := Nat.le_add_right ..
  · have hmod : m % b < n % b := by
      have hm := Nat.div_add_mod m b
      have hn := Nat.div_add_mod n b
      rw [heq] at hm
      omega
    dsimp only
    rw [heq]
    exact Nat.add_lt_add_left hmod _

/-- The digits of a time of day, given in microseconds since midnight, read as a number. -/
def timeNumber (n : Nat) : Nat :=
  ((n / 3600000000 * 100 + n / 60000000 % 60) * 100 + n / 1000000 % 60) * 1000000 + n % 1000000

/-- The seconds, the minutes and the hours are counted in units of a hundred. -/
theorem timeNumber_strictMono : StrictMono timeNumber := by
  have hminutes := strictMono_spread strictMono_id (show 0 < 60 by decide) (show 60 ≤ 100 by decide)
  have hseconds := strictMono_spread hminutes (show 0 < 60 by decide) (show 60 ≤ 100 by decide)
  have hmicros := strictMono_spread hseconds (show 0 < 1000000 by decide) (Nat.le_refl _)
  simp only [id, Nat.div_div_eq_div_mul] at hmicros
  exact hmicros

namespace Moment

variable {t u : Moment}

theorem sinceMidnight_lt (t : Moment) : t.sinceMidnight < 86400000000 := by
  unfold sinceMidnight microsPerDay
  omega

theorem timeNumber_lt (t : Moment) : timeNumber t.sinceMidnight < 10 ^ 12 :=
  (timeNumber_strictMono t.sinceMidnight_lt).trans (by decide)

/-! ## Stamps -/

/-- The year has four digits. -/
def HasFourDigitYear (t : Moment) : Prop := 1000 ≤ t.date.year ∧ t.date.year ≤ 9999

instance (t : Moment) : Decidable t.HasFourDigitYear := inferInstanceAs (Decidable (_ ∧ _))

/-- The digits of a stamp, read as a number. -/
def stampNumber (t : Moment) : Nat := t.date.number * 10 ^ 12 + timeNumber t.sinceMidnight

/-- **A stamp is the digits of one number**, if the year has four of them. -/
theorem toList_stamp (h : t.HasFourDigitYear) :
    t.stamp.toList = fixedDigits 20 t.stampNumber := by
  obtain ⟨hlow, hhigh⟩ := h
  obtain ⟨hmonth, hday⟩ := CivilDate.ofDay_lt (t.wall / microsPerDay)
  have htime := t.sinceMidnight_lt
  have hyear : Nat.toDigits 10 t.date.year.toNat = fixedDigits 4 t.date.year.toNat :=
    toDigits_eq_fixedDigits (w := 3) (by omega) (by omega)
  have hhour : t.hour < 10 ^ 2 := by unfold hour; omega
  have hminute : t.minute < 10 ^ 2 := by unfold minute; omega
  have hsecond : t.second < 10 ^ 2 := by unfold second; omega
  have hmicros : t.micros < 10 ^ 6 := by unfold micros; omega
  unfold stamp
  dsimp only
  rw [String.toList_ofList, hyear, fixedDigits_append hmonth, fixedDigits_append hday,
    fixedDigits_append hhour, fixedDigits_append hminute, fixedDigits_append hsecond,
    fixedDigits_append hmicros]
  refine congrArg (fixedDigits 20) ?_
  unfold stampNumber CivilDate.number timeNumber hour minute second micros
  omega

theorem stampNumber_lt (h : t.HasFourDigitYear) : t.stampNumber < 10 ^ 20 := by
  obtain ⟨hlow, hhigh⟩ := h
  obtain ⟨hmonth, hday⟩ := CivilDate.ofDay_lt (t.wall / microsPerDay)
  have htime := t.timeNumber_lt
  have hnumber : t.date.number < 10 ^ 8 := by
    change t.date.month < 100 at hmonth
    change t.date.day < 100 at hday
    unfold CivilDate.number
    omega
  unfold stampNumber
  omega

/-- The later the clock, the greater the number. -/
theorem stampNumber_lt_of_wall (ht : t.HasFourDigitYear) (h : t.wall < u.wall) :
    t.stampNumber < u.stampNumber := by
  have hdays : t.wall / microsPerDay ≤ u.wall / microsPerDay := by
    unfold microsPerDay
    omega
  have htime := t.timeNumber_lt
  rcases hdays.lt_or_eq with hlt | heq
  · have hdate : t.date.number < u.date.number :=
      CivilDate.number_ofDay_lt hlt (le_trans (by decide) ht.1)
    unfold stampNumber
    omega
  · have hsince : t.sinceMidnight < u.sinceMidnight := by
      unfold sinceMidnight
      unfold microsPerDay at *
      omega
    have hdate : t.date = u.date := congrArg CivilDate.ofDay heq
    unfold stampNumber
    rw [hdate]
    exact Nat.add_lt_add_left (timeNumber_strictMono hsince) _

/-- **Stamps have the order of the clock readings.** -/
theorem stamp_lt_iff (ht : t.HasFourDigitYear) (hu : u.HasFourDigitYear) :
    t.stamp < u.stamp ↔ t.wall < u.wall := by
  have hmono : ∀ {t u : Moment}, t.HasFourDigitYear → u.HasFourDigitYear → t.wall < u.wall →
      t.stamp < u.stamp := by
    intro t u ht hu h
    rw [String.lt_iff, toList_stamp ht, toList_stamp hu,
      fixedDigits_lt_iff (stampNumber_lt ht) (stampNumber_lt hu)]
    exact stampNumber_lt_of_wall ht h
  refine ⟨fun h => ?_, hmono ht hu⟩
  by_contra hle
  rcases (Int.not_lt.mp hle).lt_or_eq with hlt | heq
  · exact String.lt_asymm h (hmono hu ht hlt)
  · have hsame : t.stamp = u.stamp := by
      unfold stamp hour minute second micros date sinceMidnight
      rw [heq]
    rw [hsame] at h
    exact String.lt_irrefl _ h

/-- Different clock readings have different stamps. -/
theorem wall_eq_of_stamp_eq (ht : t.HasFourDigitYear) (hu : u.HasFourDigitYear)
    (h : t.stamp = u.stamp) : t.wall = u.wall := by
  have hnotlt : ¬ t.wall < u.wall := by
    rw [← stamp_lt_iff ht hu, h]
    exact String.lt_irrefl _
  have hnotgt : ¬ u.wall < t.wall := by
    rw [← stamp_lt_iff hu ht, h]
    exact String.lt_irrefl _
  omega

/-- Moments in UTC are ordered as their clocks are. -/
theorem compare?_eq_lt_iff (ht : t.offset = some 0) (hu : u.offset = some 0) :
    t.compare? u = some .lt ↔ t.wall < u.wall := by
  have hsteady : t.steadyWith u = true := steadyWith_iff.mpr ⟨0, 0, ht, hu, rfl⟩
  rw [compare?_of_steady hsteady, Option.some.injEq, Int.compare_eq_lt, instant, instant, ht, hu]
  simp

theorem length_stamp (h : t.HasFourDigitYear) : t.stamp.toList.length = 20 := by
  rw [toList_stamp h, length_fixedDigits]

end Moment

end SchemaLedger
