import OpcWire.Builtin.Number
import OpcWire.Calendar.Instant

/-!
# Timestamps

A `DateTime` counts ticks of 100 nanoseconds since 1601-01-01 00:00:00 UTC in a signed 64-bit
word; zero is the null timestamp. `DateTime.toInstant?` and `DateTime.ofInstant` convert to and
from calendar time. The former asks a calendar for an instant; which calendar that is makes no
difference to what it asks for (`DateTime.toInstantBy?`).
-/

namespace OpcWire

/-- A point in time. -/
structure DateTime where
  /-- Ticks since 1601-01-01 00:00:00 UTC. -/
  ticks : Int64
  deriving DecidableEq, Repr

namespace DateTime

/-- Ticks of a second. -/
def ticksPerSecond : Int := 10000000

/-- Nanoseconds of a tick. -/
def nanosPerTick : Nat := 100

/-- Ticks from 1601-01-01 to 1970-01-01. -/
def unixEpochTicks : Int := 116444736000000000

/-- The least number of ticks. -/
def minTicks : Int := Int64.minValue.toInt

/-- The greatest number of ticks. -/
def maxTicks : Int := Int64.maxValue.toInt

/-- The null timestamp. -/
def null : DateTime := ⟨0⟩

/-- Whether this is the null timestamp. -/
def isNull (t : DateTime) : Bool := t.ticks == 0

/-- Order in time. -/
def compare (a b : DateTime) : Ordering := Ord.compare a.ticks.toInt b.ticks.toInt

/-- The calendar time of a timestamp by a calendar that gives the instant so many seconds and
nanoseconds after 1970. There is none for timestamps so early that their distance to 1970 exceeds
the range of ticks. -/
def toInstantBy? (calendar : Int → Nat → Option Instant) (t : DateTime) : Option Instant :=
  let sinceEpoch := t.ticks.toInt - unixEpochTicks
  if sinceEpoch < minTicks then none
  else calendar (sinceEpoch.fdiv ticksPerSecond)
    ((sinceEpoch.fmod ticksPerSecond).toNat * nanosPerTick)

/-- The calendar time of a timestamp. -/
def toInstant? (t : DateTime) : Option Instant := t.toInstantBy? Instant.ofUnix?

/-- The nearest number of ticks that a timestamp can hold. -/
def saturate (ticks : Int) : Int := max minTicks (min maxTicks ticks)

/-- The timestamp of a calendar time. What is finer than a tick is dropped. The seconds, the
fraction and the distance between the epochs are added up one after the other, and each
intermediate sum is cut off at the range of ticks. -/
def ofInstant (i : Instant) : DateTime :=
  let seconds := saturate (i.seconds * ticksPerSecond)
  let sinceEpoch := saturate (seconds + (i.nanos / nanosPerTick : Nat))
  ⟨Int64.ofInt (saturate (sinceEpoch + unixEpochTicks))⟩

/-- The timestamp with the given calendar fields in UTC, if there is such a date. -/
def ofFields? (year : Int) (month day hour minute second : Nat) : Option DateTime :=
  (Instant.ofFields? year month day hour minute second).map ofInstant

/-- The text of a timestamp: its calendar time, or its ticks where it has none. -/
def render (t : DateTime) : String :=
  match t.toInstant? with
  | some i => i.render
  | none => s!"{t.ticks.toInt} ticks"

/-- Timestamps travel as signed 64-bit words. -/
def codec : Codec DateTime where
  encode t := Codec.int64.encode t.ticks
  decode := DateTime.mk <$> Codec.int64.decode
  zero := null
  same := (· == ·)

end DateTime

end OpcWire
