import OpcWire.Calendar.Date
import OpcWire.Text.Decimal

/-!
# Instants

An `Instant` is a moment on the calendar: whole seconds since 1970-01-01 00:00:00 UTC and
nanoseconds after them. Nanoseconds of 10⁹ and more stand for a leap second, which only the last
second of a minute has. Years run from `Instant.minYear` to `Instant.maxYear`.

`Instant.render` writes an instant in the format of RFC 3339.
-/

namespace OpcWire

/-- A moment on the calendar. -/
structure Instant where
  /-- Whole seconds since 1970-01-01 00:00:00 UTC. -/
  seconds : Int
  /-- Nanoseconds after the whole second. -/
  nanos : Nat
  deriving DecidableEq, Repr

namespace Instant

/-- Seconds of a day. -/
def secondsPerDay : Nat := 86400

/-- Nanoseconds of a second. -/
def nanosPerSecond : Nat := 1000000000

/-- The first year of the calendar. -/
def minYear : Int := -262143

/-- The last year of the calendar. -/
def maxYear : Int := 262142

/-- The day of an instant. -/
def date (i : Instant) : Date := .ofDays (i.seconds.fdiv secondsPerDay)

/-- Seconds since midnight. -/
def secondOfDay (i : Instant) : Nat := (i.seconds.fmod secondsPerDay).toNat

/-- The instant `seconds` and `nanos` after 1970, if the calendar has it. -/
def ofUnix? (seconds : Int) (nanos : Nat) : Option Instant :=
  let i : Instant := { seconds, nanos }
  let leapSecond := nanosPerSecond ≤ nanos
  if 2 * nanosPerSecond ≤ nanos ∨ (leapSecond ∧ i.secondOfDay % 60 ≠ 59) then none
  else if minYear ≤ i.date.year ∧ i.date.year ≤ maxYear then some i
  else none

/-- The instant with the given calendar fields in UTC, if the calendar has it. -/
def ofFields? (year : Int) (month day hour minute second : Nat) : Option Instant :=
  if hour < 24 ∧ minute < 60 ∧ second < 60 ∧ minYear ≤ year ∧ year ≤ maxYear then
    (Date.ofFields? year month day).map fun date =>
      { seconds := date.toDays * secondsPerDay + (hour * 3600 + minute * 60 + second : Nat)
        nanos := 0 }
  else none

/-- A year in four digits; a sign stands before years outside 0 to 9999. -/
def renderYear (year : Int) : String :=
  if year < 0 then "-" ++ Decimal.padded 4 year.natAbs
  else if year ≤ 9999 then Decimal.padded 4 year.natAbs
  else "+" ++ Decimal.padded 4 year.natAbs

/-- The fraction of a second in the fewest groups of three digits that are exact. -/
def renderFraction (nanos : Nat) : String :=
  if nanos = 0 then ""
  else if nanos % 1000000 = 0 then "." ++ Decimal.padded 3 (nanos / 1000000)
  else if nanos % 1000 = 0 then "." ++ Decimal.padded 6 (nanos / 1000)
  else "." ++ Decimal.padded 9 nanos

/-- The text of an instant in the format of RFC 3339, with `Z` for UTC. A leap second is written
as second 60. -/
def render (i : Instant) : String :=
  let d := i.date
  let s := i.secondOfDay
  let leap := i.nanos / nanosPerSecond
  renderYear d.year ++ "-" ++ Decimal.padded 2 d.month ++ "-" ++ Decimal.padded 2 d.day ++ "T" ++
    Decimal.padded 2 (s / 3600) ++ ":" ++ Decimal.padded 2 (s / 60 % 60) ++ ":" ++
    Decimal.padded 2 (s % 60 + leap) ++ renderFraction (i.nanos % nanosPerSecond) ++ "Z"

end Instant

end OpcWire
