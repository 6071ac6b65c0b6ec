/-!
# The calendar

Dates of the Gregorian calendar, carried on before its start and past the year 9999, and the count
of days from 1 January 1970. Years are counted from March, so that a leap day is the last day of
its year, and in eras of 400 years, which all have 146097 days.
-/

namespace Intake.Instant

/-- A date: month and day count from one. -/
structure Date where
  year : Int
  month : Nat
  day : Nat
deriving DecidableEq

/-- Whether a year has a leap day. -/
def isLeapYear (y : Int) : Bool :=
  y % 4 == 0 && (y % 100 != 0 || y % 400 == 0)

/-- How many days a month has. -/
def daysIn (year : Int) (month : Nat) : Nat :=
  if month = 2 then if isLeapYear year then 29 else 28
  else if month = 4 ∨ month = 6 ∨ month = 9 ∨ month = 11 then 30
  else 31

/-- Whether there is such a date. -/
def Date.exists (d : Date) : Bool :=
  1 ≤ d.month && d.month ≤ 12 && 1 ≤ d.day && d.day ≤ daysIn d.year d.month

/-- The number of a date: 0 for 1 January 1970. -/
def Date.toDays (d : Date) : Int :=
  let y := if d.month ≤ 2 then d.year - 1 else d.year
  let era := y / 400
  let yearOfEra := y % 400
  -- months from March on: five of them make 153 days, again and again
  let monthOfYear := if d.month ≤ 2 then d.month + 9 else d.month - 3
  let dayOfYear : Int := (153 * monthOfYear + 2) / 5 + d.day - 1
  era * 146097 + (yearOfEra * 365 + yearOfEra / 4 - yearOfEra / 100 + dayOfYear) - 719468

/-- The date with a number. -/
def Date.ofDays (n : Int) : Date :=
  -- days from 1 March of the year 0
  let z := n + 719468
  let era := z / 146097
  let dayOfEra := (z % 146097).toNat
  let yearOfEra := (dayOfEra - dayOfEra / 1460 + dayOfEra / 36524 - dayOfEra / 146096) / 365
  let dayOfYear := dayOfEra - (365 * yearOfEra + yearOfEra / 4 - yearOfEra / 100)
  let monthOfYear := (5 * dayOfYear + 2) / 153
  let month := if monthOfYear < 10 then monthOfYear + 3 else monthOfYear - 9
  { year := era * 400 + yearOfEra + (if month ≤ 2 then 1 else 0)
    month := month
    day := dayOfYear - (153 * monthOfYear + 2) / 5 + 1 }

example : (Date.ofDays 0, Date.ofDays 18321, Date.ofDays (-719529)) =
    (⟨1970, 1, 1⟩, ⟨2020, 2, 29⟩, ⟨-1, 12, 31⟩) := by decide

example : (Date.mk 2000 3 1).toDays = 11017 := by decide

end Intake.Instant
