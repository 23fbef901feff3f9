/-!
# Dates of the Gregorian calendar

The calendar is extended to all years, year 0 included. A date and the number of days since
1970-01-01 determine each other (`Date.toDays`, `Date.ofDays`).

Both directions count years from March on, so that the leap day is the last day of its year; a
cycle of the calendar is 400 such years, or 146097 days, and 1970-01-01 is day 719468 of the
cycle that starts in year 0.
-/

namespace OpcWire

/-- A day of the calendar. -/
structure Date where
  /-- The year, possibly zero or negative. -/
  year : Int
  /-- The month, from 1 on. -/
  month : Nat
  /-- The day of the month, from 1 on. -/
  day : Nat
  deriving DecidableEq, Repr

namespace Date

/-- Days of a cycle of 400 years. -/
def cycleDays : Nat := 146097

/-- Days from 0000-03-01 to 1970-01-01. -/
def epochDay : Nat := 719468

/-- Whether a year has a leap day. -/
def isLeapYear (year : Int) : Bool :=
  year.emod 4 == 0 && (year.emod 100 != 0 || year.emod 400 == 0)

/-- Number of days of a month. -/
def daysInMonth (year : Int) (month : Nat) : Nat :=
  match month with
  | 2 => if isLeapYear year then 29 else 28
  | 4 | 6 | 9 | 11 => 30
  | _ => 31

/-- The date with given year, month and day, if the calendar has it. -/
def ofFields? (year : Int) (month day : Nat) : Option Date :=
  if 1 ≤ month ∧ month ≤ 12 ∧ 1 ≤ day ∧ day ≤ daysInMonth year month then
    some { year, month, day }
  else none

/-- Days before the month that is `monthFromMarch` months after March. -/
def daysBeforeMonth (monthFromMarch : Nat) : Nat := (153 * monthFromMarch + 2) / 5

/-- Days from 1970-01-01 to a date. -/
def toDays (d : Date) : Int :=
  let year := if d.month ≤ 2 then d.year - 1 else d.year
  let cycle := year.fdiv 400
  let yearOfCycle := (year - cycle * 400).toNat
  let dayOfYear := daysBeforeMonth ((d.month + 9) % 12) + (d.day - 1)
  let dayOfCycle := yearOfCycle * 365 + yearOfCycle / 4 - yearOfCycle / 100 + dayOfYear
  cycle * cycleDays + dayOfCycle - epochDay

/-- The date that is `days` days after 1970-01-01. -/
def ofDays (days : Int) : Date :=
  let shifted := days + epochDay
  let cycle := shifted.fdiv cycleDays
  let dayOfCycle := (shifted - cycle * cycleDays).toNat
  let yearOfCycle :=
    (dayOfCycle - dayOfCycle / 1460 + dayOfCycle / 36524 - dayOfCycle / 146096) / 365
  let dayOfYear := dayOfCycle - (365 * yearOfCycle + yearOfCycle / 4 - yearOfCycle / 100)
  let monthFromMarch := (5 * dayOfYear + 2) / 153
  let month := if monthFromMarch < 10 then monthFromMarch + 3 else monthFromMarch - 9
  let year := cycle * 400 + yearOfCycle
  { year := if month ≤ 2 then year + 1 else year
    month
    day := dayOfYear - daysBeforeMonth monthFromMarch + 1 }

end Date

end OpcWire
