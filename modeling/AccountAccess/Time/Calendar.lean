/-!
# The proleptic Gregorian calendar

Dates are counted in days from 1970-01-01.  The year is taken to begin in March,
so that the leap day is the last day of its year and the lengths of the months
before it follow one linear rule; four centuries are then a fixed number of days.
-/

namespace AccountAccess
namespace Time

/-- A date of the calendar; months and days count from one. -/
structure Date where
  year : Int
  month : Int
  day : Int
  deriving DecidableEq, Repr

/-- The days in four centuries. -/
def daysPerEra : Int := 146097

/-- The days from the start of an era, 1 March of a year divisible by 400, to
1970-01-01. -/
def epochOffset : Int := 719468

/-- The number of days from 1970-01-01 to a date. -/
def daysOfDate (date : Date) : Int :=
  let year := if date.month ≤ 2 then date.year - 1 else date.year
  let era := year / 400
  let yearOfEra := year % 400
  let dayOfYear := (153 * ((date.month + 9) % 12) + 2) / 5 + date.day - 1
  let dayOfEra := yearOfEra * 365 + yearOfEra / 4 - yearOfEra / 100 + dayOfYear
  era * daysPerEra + dayOfEra - epochOffset

/-- The date a number of days after 1970-01-01. -/
def dateOfDays (days : Int) : Date :=
  let shifted := days + epochOffset
  let era := shifted / daysPerEra
  let dayOfEra := shifted % daysPerEra
  let yearOfEra :=
    (dayOfEra - dayOfEra / 1460 + dayOfEra / 36524 - dayOfEra / 146096) / 365
  let dayOfYear := dayOfEra - (365 * yearOfEra + yearOfEra / 4 - yearOfEra / 100)
  let monthIndex := (5 * dayOfYear + 2) / 153
  let day := dayOfYear - (153 * monthIndex + 2) / 5 + 1
  let month := if monthIndex < 10 then monthIndex + 3 else monthIndex - 9
  let year := yearOfEra + era * 400 + (if month ≤ 2 then 1 else 0)
  ⟨year, month, day⟩

/-- Whether a year has a 29 February. -/
def isLeapYear (year : Int) : Bool :=
  year % 4 == 0 && (year % 100 != 0 || year % 400 == 0)

/-- The number of days in a month of a year; zero when there is no such month. -/
def daysInMonth (year month : Int) : Int :=
  if month = 2 then (if isLeapYear year then 29 else 28)
  else if month ∈ [4, 6, 9, 11] then 30
  else if 1 ≤ month ∧ month ≤ 12 then 31
  else 0

/-- Whether a year, a month and a day name a date. -/
def Date.isValid (date : Date) : Bool :=
  1 ≤ date.day && date.day ≤ daysInMonth date.year date.month

/-- The two counts agree on a leap day and on the days around the epoch. -/
example : dateOfDays (daysOfDate ⟨2024, 2, 29⟩) = ⟨2024, 2, 29⟩ ∧
    daysOfDate ⟨1970, 1, 1⟩ = 0 ∧ dateOfDays (-1) = ⟨1969, 12, 31⟩ := by decide

end Time
end AccountAccess
