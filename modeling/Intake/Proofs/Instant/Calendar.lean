import Intake.Instant.Calendar

/-!
# Dates and their numbers

Each number is the number of one date of the calendar (`Date.toDays_ofDays`, `Date.exists_ofDays`).
Within an era the year of a day is found by a division that skips leap days; it goes up from day to
day, and so it is right for all days of a year if it is right for the first and the last one
(`yearOfEra_eq`).
-/

namespace Intake.Instant

/-! ## Years of an era -/

/-- How many days of an era lie before one of its years. -/
def daysBefore (y : Nat) : Nat := 365 * y + y / 4 - y / 100 + y / 400

/-- The year of a day of an era. -/
def yearOfDay (day : Nat) : Nat := (day - day / 1460 + day / 36524 - day / 146096) / 365

theorem yearOfDay_le_succ (day : Nat) : yearOfDay day ≤ yearOfDay (day + 1) := by
  have hstep : day - day / 1460 + day / 36524 - day / 146096
      ≤ day + 1 - (day + 1) / 1460 + (day + 1) / 36524 - (day + 1) / 146096 := by
    omega
  exact Nat.div_le_div_right hstep

theorem yearOfDay_mono {a b : Nat} (h : a ≤ b) : yearOfDay a ≤ yearOfDay b := by
  induction h with
  | refl => exact Nat.le_refl _
  | step _ ih => exact Nat.le_trans ih (yearOfDay_le_succ _)

theorem yearOfDay_ends : ∀ y < 400,
    yearOfDay (daysBefore y) = y ∧ yearOfDay (daysBefore (y + 1) - 1) = y := by
  decide +kernel

theorem exists_year {day n : Nat} (h : day < daysBefore n) :
    ∃ y < n, daysBefore y ≤ day ∧ day < daysBefore (y + 1) := by
  induction n with
  | zero => cases h
  | succ n ih =>
    by_cases hn : daysBefore n ≤ day
    · exact ⟨n, Nat.lt_succ_self n, hn, h⟩
    · obtain ⟨y, hy, hbounds⟩ := ih (Nat.not_le.mp hn)
      exact ⟨y, Nat.lt_succ_of_lt hy, hbounds⟩

/-- A day of an era lies in its year. -/
theorem bounds_yearOfDay {day : Nat} (h : day < 146097) :
    yearOfDay day < 400 ∧ daysBefore (yearOfDay day) ≤ day
      ∧ day < daysBefore (yearOfDay day + 1) := by
  obtain ⟨y, hy, hlow, hhigh⟩ := exists_year (show day < daysBefore 400 from h)
  obtain ⟨hfirst, hlast⟩ := yearOfDay_ends y hy
  have hbelow := yearOfDay_mono hlow
  have habove := yearOfDay_mono (Nat.le_sub_one_of_lt hhigh)
  rw [hfirst] at hbelow
  rw [hlast] at habove
  rw [Nat.le_antisymm habove hbelow]
  exact ⟨hy, hlow, hhigh⟩

/-- A year has a leap day at its end if the next year, which begins with January, is a leap year. -/
theorem daysBefore_succ {y : Nat} (hy : y < 400) :
    daysBefore (y + 1) = daysBefore y + 365 + if isLeapYear (y + 1 : Nat) then 1 else 0 := by
  have hall : ∀ y < 400,
      daysBefore (y + 1) = daysBefore y + 365 + if isLeapYear (y + 1 : Nat) then 1 else 0 := by
    decide +kernel
  exact hall y hy

theorem isLeapYear_add_era (era y : Int) : isLeapYear (era * 400 + y) = isLeapYear y := by
  have h4 : (era * 400 + y) % 4 = y % 4 := by omega
  have h100 : (era * 400 + y) % 100 = y % 100 := by omega
  have h400 : (era * 400 + y) % 400 = y % 400 := by omega
  rw [isLeapYear, isLeapYear, h4, h100, h400]

/-! ## Months of a year -/

/-- How many days of a year lie before one of its months. -/
def daysBeforeMonth (monthOfYear : Nat) : Nat := (153 * monthOfYear + 2) / 5

/-- The month of a day of a year. -/
def monthOfDay (day : Nat) : Nat := (5 * day + 2) / 153

/-- The number of a month in the calendar. -/
def monthNumber (monthOfYear : Nat) : Nat :=
  if monthOfYear < 10 then monthOfYear + 3 else monthOfYear - 9

/-- A day of a year lies in its month. Only the last month is not over on the last day but one. -/
theorem bounds_monthOfDay : ∀ day < 366, monthOfDay day < 12
    ∧ daysBeforeMonth (monthOfDay day) ≤ day
    ∧ day + 1 ≤ daysBeforeMonth (monthOfDay day)
      + daysIn (if day = 365 then 4 else 1) (monthNumber (monthOfDay day)) := by
  decide +kernel

theorem daysIn_le_of_isLeapYear {a b : Int} (h : isLeapYear a = true → isLeapYear b = true)
    (month : Nat) : daysIn a month ≤ daysIn b month := by
  unfold daysIn
  split
  · by_cases ha : isLeapYear a = true
    · exact Nat.le_of_eq (by rw [if_pos ha, if_pos (h ha)])
    · rw [if_neg ha]
      split <;> omega
  · exact Nat.le_refl _

/-! ## Dates -/

/-- The parts of a day's number: its era, the year of the era, the day of the year. -/
structure Day (n : Int) where
  era : Int
  year : Nat
  day : Nat
  number : n + 719468 = era * 146097 + daysBefore year + day
  year_lt : year < 400
  day_lt : day < 365 + if isLeapYear (year + 1 : Nat) then 1 else 0
  date : Date.ofDays n = {
    year := era * 400 + year + if monthNumber (monthOfDay day) ≤ 2 then 1 else 0
    month := monthNumber (monthOfDay day)
    day := day - daysBeforeMonth (monthOfDay day) + 1 }

/-- The parts of each number. -/
theorem exists_day (n : Int) : Nonempty (Day n) := by
  obtain ⟨dayOfEra, hday⟩ : ∃ day : Nat, (day : Int) = (n + 719468) % 146097 :=
    ⟨((n + 719468) % 146097).toNat, by omega⟩
  obtain ⟨hyear, hlow, hhigh⟩ := bounds_yearOfDay (show dayOfEra < 146097 by omega)
  have hbefore : daysBefore (yearOfDay dayOfEra)
      = 365 * yearOfDay dayOfEra + yearOfDay dayOfEra / 4 - yearOfDay dayOfEra / 100 := by
    rw [daysBefore, Nat.div_eq_of_lt hyear]
    rfl
  rw [daysBefore_succ hyear] at hhigh
  refine ⟨⟨(n + 719468) / 146097, yearOfDay dayOfEra, dayOfEra - daysBefore (yearOfDay dayOfEra),
    by omega, hyear, by omega, ?_⟩⟩
  have htoNat : ((n + 719468) % 146097).toNat = dayOfEra := by omega
  rw [hbefore]
  unfold Date.ofDays
  simp only [htoNat]
  rfl

theorem Day.day_lt_366 {n : Int} (d : Day n) : d.day < 366 := by
  have := d.day_lt
  split at this <;> omega

/-- The number of a date whose year is counted from March. -/
theorem toDays_of_monthOfYear (era : Int) {year : Nat} (hyear : year < 400) {monthOfYear : Nat}
    (hmonth : monthOfYear < 12) (day : Nat) :
    (Date.mk (era * 400 + year + if monthNumber monthOfYear ≤ 2 then 1 else 0)
      (monthNumber monthOfYear) (day + 1)).toDays
        = era * 146097 + daysBefore year + daysBeforeMonth monthOfYear + day - 719468 := by
  have hcount : daysBefore year = 365 * year + year / 4 - year / 100 := by
    rw [daysBefore, Nat.div_eq_of_lt hyear]
    rfl
  have hera : (era * 400 + (year : Int)) / 400 = era := by omega
  have hyearOfEra : (era * 400 + (year : Int)) % 400 = year := by omega
  unfold Date.toDays
  by_cases hlate : monthOfYear < 10
  · have hnumber : monthNumber monthOfYear = monthOfYear + 3 := if_pos hlate
    have hback : ¬ monthOfYear + 3 ≤ 2 := by omega
    simp only [hnumber, if_neg hback, Int.add_zero, hera, hyearOfEra, Nat.add_sub_cancel]
    rw [hcount, daysBeforeMonth]
    omega
  · have hnumber : monthNumber monthOfYear = monthOfYear - 9 := if_neg hlate
    have hback : monthOfYear - 9 ≤ 2 := by omega
    have hmonths : monthOfYear - 9 + 9 = monthOfYear := by omega
    simp only [hnumber, if_pos hback, Int.add_sub_cancel, hera, hyearOfEra, hmonths]
    rw [hcount, daysBeforeMonth]
    omega

/-- The number of the date of a number is the number. -/
theorem Date.toDays_ofDays (n : Int) : (Date.ofDays n).toDays = n := by
  obtain ⟨d⟩ := exists_day n
  obtain ⟨hmonth, hlow, -⟩ := bounds_monthOfDay d.day d.day_lt_366
  have hnumber := d.number
  rw [d.date, toDays_of_monthOfYear d.era d.year_lt hmonth]
  omega

/-- The month of a day is not longer in its year than the calendar says: the leap day is the last
day of a year that ends in a leap year. -/
theorem Day.daysIn_le {n : Int} (d : Day n) :
    daysIn (if d.day = 365 then 4 else 1) (monthNumber (monthOfDay d.day))
      ≤ daysIn (d.era * 400 + d.year + if monthNumber (monthOfDay d.day) ≤ 2 then 1 else 0)
        (monthNumber (monthOfDay d.day)) := by
  by_cases hmarch : monthNumber (monthOfDay d.day) ≤ 2
  · refine daysIn_le_of_isLeapYear (fun hleap => ?_) _
    have hlast : d.day = 365 := Classical.byContradiction fun hne => by
      rw [if_neg hne] at hleap
      exact absurd hleap (by decide)
    have hday := d.day_lt
    rw [if_pos hmarch, Int.add_assoc, isLeapYear_add_era]
    refine Classical.byContradiction fun hno => ?_
    rw [if_neg (show ¬ isLeapYear ((d.year + 1 : Nat) : Int) = true from hno)] at hday
    omega
  · have hother : monthNumber (monthOfDay d.day) ≠ 2 := by omega
    exact Nat.le_of_eq (by rw [daysIn, if_neg hother, daysIn, if_neg hother])

/-- The date of a number is a date of the calendar. -/
theorem Date.exists_ofDays (n : Int) : (Date.ofDays n).exists = true := by
  obtain ⟨d⟩ := exists_day n
  obtain ⟨hmonth, hlow, hhigh⟩ := bounds_monthOfDay d.day d.day_lt_366
  have hnumber : 1 ≤ monthNumber (monthOfDay d.day) ∧ monthNumber (monthOfDay d.day) ≤ 12 := by
    unfold monthNumber
    split <;> omega
  have hlength := d.daysIn_le
  rw [d.date]
  simp only [Date.exists, Bool.and_eq_true, decide_eq_true_eq]
  exact ⟨⟨⟨hnumber.1, hnumber.2⟩, Nat.succ_le_succ (Nat.zero_le _)⟩, by omega⟩

end Intake.Instant
