import RaggedTrajectory.Number.Natural

/-!
# The calendar

Dates of the Gregorian calendar, extended to all years, and the number of days between them.
-/

namespace RaggedTrajectory.Calendar

/-- Whether a year has a leap day. -/
def isLeap (year : Int) : Bool := year % 4 = 0 ∧ (year % 100 ≠ 0 ∨ year % 400 = 0)

/-- The days of a month. -/
def daysInMonth (year : Int) (month : Nat) : Nat :=
  if month = 2 then if isLeap year then 29 else 28
  else if month = 4 ∨ month = 6 ∨ month = 9 ∨ month = 11 then 30
  else 31

/-- The first year. -/
def minYear : Int := -262143

/-- The last year. -/
def maxYear : Int := 262142

/-- Whether a date exists within the years of the calendar. -/
def isDate (year : Int) (month day : Nat) : Bool :=
  minYear ≤ year ∧ year ≤ maxYear ∧ 1 ≤ month ∧ month ≤ 12 ∧ 1 ≤ day ∧
    day ≤ daysInMonth year month

/-- The days before a month in a year that starts in March. -/
def daysBefore (monthFromMarch : Nat) : Nat := (153 * monthFromMarch + 2) / 5

/-- The number of a day: the days since the first of March of the year zero. -/
def dayNumber (year : Int) (month day : Nat) : Int :=
  let shifted := if month ≤ 2 then year - 1 else year
  let monthFromMarch := (month + 9) % 12
  365 * shifted + shifted / 4 - shifted / 100 + shifted / 400 + daysBefore monthFromMarch + day - 1

/-- The date with a given number. -/
def ofDayNumber (number : Int) : Int × Nat × Nat :=
  let era := number / 146097
  let dayOfEra := (number % 146097).toNat
  let yearOfEra := (dayOfEra - dayOfEra / 1460 + dayOfEra / 36524 - dayOfEra / 146096) / 365
  let dayOfYear := dayOfEra - (365 * yearOfEra + yearOfEra / 4 - yearOfEra / 100)
  let monthFromMarch := (5 * dayOfYear + 2) / 153
  let day := dayOfYear - daysBefore monthFromMarch + 1
  let month := if monthFromMarch < 10 then monthFromMarch + 3 else monthFromMarch - 9
  let year := 400 * era + yearOfEra
  (if month ≤ 2 then year + 1 else year, month, day)

end RaggedTrajectory.Calendar
