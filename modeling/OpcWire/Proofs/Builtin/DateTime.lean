import Mathlib.Algebra.Group.Int.Defs
import OpcWire.Builtin.DateTime
import OpcWire.Proofs.Calendar.Instant

/-!
# Timestamps and calendar time

Both conversions in exact integers. From a timestamp to the calendar nothing is lost, and only the
subtraction at the start can fail (`DateTime.toInstantBy?_eq_some_iff`).

The way back adds up three numbers and cuts off after each step. If nothing negative is added, one
cut at the end does the same (`DateTime.saturate_saturate_add`), provided that the sum starts within
the range of ticks or above it. Below the range, the least number of ticks takes the place of the
seconds, and the fraction and the distance between the epochs lead up from there
(`DateTime.toInt_ticks_ofInstant`).
-/

namespace OpcWire

/-! ### Calendar time in ticks -/

namespace Instant

variable {i j : Instant}

/-- The exact number of ticks from 1601-01-01 to a calendar time. What is finer than a tick is
dropped. -/
def exactTicks (i : Instant) : Int :=
  10 ^ 7 * i.seconds + (i.nanos / 100 : Nat) + 116444736000000000

/-- The nanoseconds are those of a second, and a whole number of ticks. -/
structure IsWholeTicks (i : Instant) : Prop where
  nanos_lt : i.nanos < 10 ^ 9
  dvd_nanos : 100 ∣ i.nanos

theorem IsWholeTicks.exactTicks_inj (hi : i.IsWholeTicks) (hj : j.IsWholeTicks) :
    i.exactTicks = j.exactTicks ↔ i = j := by
  refine ⟨fun h => ?_, congrArg exactTicks⟩
  obtain ⟨s, f⟩ := i
  obtain ⟨s', f'⟩ := j
  obtain ⟨hlt, hdvd⟩ := hi
  obtain ⟨hlt', hdvd'⟩ := hj
  simp only [exactTicks, mk.injEq] at *
  omega

theorem IsWholeTicks.exactTicks_lt_iff (hi : i.IsWholeTicks) (hj : j.IsWholeTicks) :
    i.exactTicks < j.exactTicks ↔ i.Before j := by
  obtain ⟨hlt, hdvd⟩ := hi
  obtain ⟨hlt', hdvd'⟩ := hj
  simp only [exactTicks, Before] at *
  omega

end Instant

namespace DateTime

variable {t u : DateTime} {i : Instant} {x y : Int}

theorem minTicks_eq : minTicks = -2 ^ 63 := rfl

theorem maxTicks_eq : maxTicks = 2 ^ 63 - 1 := rfl

theorem toInt_ticks_inj : t.ticks.toInt = u.ticks.toInt ↔ t = u := by
  obtain ⟨t⟩ := t
  obtain ⟨u⟩ := u
  rw [DateTime.mk.injEq]
  exact Int64.toInt_inj

/-! ### To calendar time -/

/-- The first timestamp that has a calendar time, in ticks. -/
def firstTicks : Int := -2 ^ 63 + 116444736000000000

/-- The ticks since 1970 as whole seconds and nanoseconds behind them. -/
def unixTime (t : DateTime) : Instant where
  seconds := (t.ticks.toInt - unixEpochTicks) / ticksPerSecond
  nanos := ((t.ticks.toInt - unixEpochTicks) % ticksPerSecond).toNat * nanosPerTick

theorem isWholeTicks_unixTime (t : DateTime) : t.unixTime.IsWholeTicks := by
  have hrest : (t.ticks.toInt - unixEpochTicks) % ticksPerSecond < ticksPerSecond :=
    Int.emod_lt_of_pos _ (by decide)
  rw [ticksPerSecond] at hrest
  refine ⟨?_, Nat.dvd_mul_left 100 _⟩
  simp only [unixTime, nanosPerTick, ticksPerSecond]
  omega

theorem exactTicks_unixTime (t : DateTime) : t.unixTime.exactTicks = t.ticks.toInt := by
  have hnonneg : 0 ≤ (t.ticks.toInt - unixEpochTicks) % ticksPerSecond :=
    Int.emod_nonneg _ (by decide)
  simp only [unixTime, Instant.exactTicks, unixEpochTicks, ticksPerSecond, nanosPerTick] at *
  omega

/-- **To calendar time.** A timestamp has one unless it is too early. It is the time since 1970,
whose seconds all belong to years of the calendar. -/
theorem toInstantBy?_eq_some_iff {calendar : Int → Nat → Option Instant}
    (hcalendar : Instant.IsCalendar calendar) :
    t.toInstantBy? calendar = some i ↔ firstTicks ≤ t.ticks.toInt ∧ i = t.unixTime := by
  have hlower : minTicks ≤ t.ticks.toInt := t.ticks.minValue_le_toInt
  have hupper : t.ticks.toInt ≤ maxTicks := t.ticks.toInt_le
  rw [minTicks_eq] at hlower
  rw [maxTicks_eq] at hupper
  have hpos : 0 ≤ ticksPerSecond := by decide
  have hon : calendar t.unixTime.seconds t.unixTime.nanos = some t.unixTime := by
    refine hcalendar.of_near ?_ t.isWholeTicks_unixTime.nanos_lt
    simp only [unixTime, unixEpochTicks, ticksPerSecond]
    omega
  have hfirst : t.ticks.toInt - unixEpochTicks < minTicks ↔ ¬ firstTicks ≤ t.ticks.toInt := by
    simp only [unixEpochTicks, minTicks_eq, firstTicks]
    omega
  simp only [toInstantBy?, Int.fdiv_eq_ediv_of_nonneg _ hpos, Int.fmod_eq_emod_of_nonneg _ hpos]
  by_cases hearly : firstTicks ≤ t.ticks.toInt
  · rw [if_neg (fun hlt => hfirst.1 hlt hearly)]
    change calendar t.unixTime.seconds t.unixTime.nanos = some i ↔ _
    rw [hon, Option.some.injEq, eq_comm, and_iff_right hearly]
  · rw [if_pos (hfirst.2 hearly)]
    simp only [hearly, false_and, reduceCtorEq]

theorem toInstant?_eq_some_iff :
    t.toInstant? = some i ↔ firstTicks ≤ t.ticks.toInt ∧ i = t.unixTime :=
  toInstantBy?_eq_some_iff Instant.isCalendar_ofUnix?

/-! ### From calendar time -/

theorem saturate_max (x : Int) : saturate (max minTicks x) = saturate x := by
  simp only [saturate, minTicks_eq, maxTicks_eq]
  omega

/-- **One cut is enough** if the sum grows from a start that is not below the range: it leaves the
range at the upper end only, and stays outside from then on. -/
theorem saturate_saturate_add (hx : minTicks ≤ x) (hy : 0 ≤ y) :
    saturate (saturate x + y) = saturate (x + y) := by
  simp only [saturate, minTicks_eq, maxTicks_eq] at *
  omega

theorem toInt_ofInt_saturate (x : Int) : (Int64.ofInt (saturate x)).toInt = saturate x := by
  refine Int64.toInt_ofInt_of_le ?_ ?_ <;> simp only [saturate, minTicks_eq, maxTicks_eq] <;> omega

/-- **From calendar time.** The seconds are cut off below, and the sum at both ends. -/
theorem toInt_ticks_ofInstant (i : Instant) : (ofInstant i).ticks.toInt =
    saturate (max minTicks (i.seconds * ticksPerSecond) + (i.nanos / nanosPerTick : Nat) +
      unixEpochTicks) := by
  have hfraction : 0 ≤ ((i.nanos / nanosPerTick : Nat) : Int) := Int.natCast_nonneg _
  have hstart : minTicks ≤ max minTicks (i.seconds * ticksPerSecond) := Int.le_max_left _ _
  have hmiddle : minTicks ≤ max minTicks (i.seconds * ticksPerSecond) +
      (i.nanos / nanosPerTick : Nat) := by
    omega
  rw [ofInstant, toInt_ofInt_saturate, ← saturate_max (i.seconds * ticksPerSecond),
    saturate_saturate_add hstart hfraction, saturate_saturate_add hmiddle (by decide)]

end DateTime

end OpcWire
