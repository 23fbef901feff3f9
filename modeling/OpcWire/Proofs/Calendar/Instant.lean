import Mathlib.Algebra.Group.Nat.Defs
import OpcWire.Calendar.Instant

/-!
# Instants of the calendar

A calendar has all seconds of its years (`Instant.IsCalendar`). The year of a date lies in the cycle
of 400 years to which its day belongs (`Date.year_ofDays`), so that a time span around 1970 is
inside any calendar if its cycles are (`Instant.IsCalendar.of_near`).

`Instant.ofUnix?` checks the fields of an instant and changes none of them; the instants that pass
are those of the calendar and its leap seconds (`Instant.ofUnix?_eq_some_iff`).
-/

namespace OpcWire

/-- A day of a cycle lies in one of the 400 years of the cycle, or in the two months behind them. -/
theorem Date.year_ofDays (days : Int) :
    400 * ((days + epochDay) / cycleDays) ≤ (Date.ofDays days).year ∧
      (Date.ofDays days).year ≤ 400 * ((days + epochDay) / cycleDays) + 400 := by
  have hcycle : (days + epochDay).fdiv cycleDays = (days + epochDay) / cycleDays :=
    Int.fdiv_eq_ediv_of_nonneg _ (Int.natCast_nonneg _)
  simp only [Date.ofDays, hcycle]
  generalize hday : (days + epochDay - (days + epochDay) / cycleDays * cycleDays).toNat = day
  have hday : day < 146097 := by
    rw [← hday, cycleDays]
    omega
  have hyear : (day - day / 1460 + day / 36524 - day / 146096) / 365 < 400 := by
    omega
  split <;> omega

namespace Instant

/-- Order in time. -/
def Before (i j : Instant) : Prop :=
  i.seconds < j.seconds ∨ i.seconds = j.seconds ∧ i.nanos < j.nanos

/-- Whether a calendar gives every instant of its years by the seconds and nanoseconds since 1970.
What it makes of leap seconds, and of what is outside its years, is left open. -/
def IsCalendar (calendar : Int → Nat → Option Instant) : Prop :=
  ∀ (s : Int) (f : Nat), f < 10 ^ 9 → -262143 ≤ (Instant.mk s f).date.year →
    (Instant.mk s f).date.year ≤ 262142 → calendar s f = some ⟨s, f⟩

variable {s : Int} {f : Nat} {i : Instant} {calendar : Int → Nat → Option Instant}

/-- **Whole seconds near 1970.** A million million seconds are some 31,700 years, and the calendar
has 262,142 of them to either side of year 0. -/
theorem IsCalendar.of_near (h : IsCalendar calendar) (hs : s.natAbs ≤ 10 ^ 12) (hf : f < 10 ^ 9) :
    calendar s f = some ⟨s, f⟩ := by
  have hdate : (Instant.mk s f).date = Date.ofDays (s / secondsPerDay) := by
    rw [date, Int.fdiv_eq_ediv_of_nonneg _ (Int.natCast_nonneg secondsPerDay)]
  obtain ⟨hlower, hupper⟩ := Date.year_ofDays (s / secondsPerDay)
  rw [← hdate] at hlower hupper
  simp only [secondsPerDay, Date.epochDay, Date.cycleDays] at hlower hupper
  exact h s f hf (by omega) (by omega)

/-- The calendar has an instant if its nanoseconds are those of a second, or of a leap second at
the end of a minute, and its year is one of the calendar. -/
theorem ofUnix?_eq_some_iff : ofUnix? s f = some i ↔
    i = ⟨s, f⟩ ∧ f < 2 * nanosPerSecond ∧ (nanosPerSecond ≤ f → i.secondOfDay % 60 = 59) ∧
      minYear ≤ i.date.year ∧ i.date.year ≤ maxYear := by
  simp only [ofUnix?]
  constructor
  · intro h
    split at h
    · cases h
    · rename_i hnanos
      split at h
      · rename_i hyear
        cases h
        obtain ⟨hlt, hleap⟩ := not_or.1 hnanos
        refine ⟨rfl, Nat.lt_of_not_le hlt, fun hle => ?_, hyear⟩
        exact Decidable.not_not.1 fun h59 => hleap ⟨hle, h59⟩
      · cases h
  · rintro ⟨rfl, hlt, hleap, hyear⟩
    rw [if_neg, if_pos hyear]
    rintro (hle | ⟨hle, h59⟩)
    · exact Nat.not_le_of_lt hlt hle
    · exact h59 (hleap hle)

theorem isCalendar_ofUnix? : IsCalendar ofUnix? := by
  intro s f hf hlower hupper
  have hnanos : f < nanosPerSecond := hf
  exact ofUnix?_eq_some_iff.2
    ⟨rfl, by omega, fun hle => absurd hnanos (Nat.not_lt_of_le hle), hlower, hupper⟩

end Instant

end OpcWire
