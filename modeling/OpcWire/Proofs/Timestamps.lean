import OpcWire.Proofs.Builtin.DateTime

/-!
# What timestamps and calendar time tell of each other

* `calendar_time_exact` : by any calendar, a timestamp has a calendar time unless it is among the
  earliest, and the calendar time tells the timestamp, in the same order;
* `timestamp_saturates_iff` : the way back gives the exact number of ticks, or the nearest one that
  a timestamp can hold, for all calendar times from second `firstSecond` on, and for no earlier one.

Earlier calendar times are not cut off where the range of ticks begins, but a distance between the
epochs above it, where other calendar times belong. So the conversion is neither in order there, nor
does it lead back to the timestamps whose calendar time lies there.
-/

namespace OpcWire

/-! ### To calendar time -/

namespace DateTime

/-- The words that hold the results of the steps to calendar time are wide enough: the distance to
1970, its whole seconds, and the rest in nanoseconds. -/
structure StepsFit (t : DateTime) (i : Instant) : Prop where
  distance : ∃ w : Int64, w.toInt = t.ticks.toInt - unixEpochTicks
  seconds : ∃ w : Int64, w.toInt = i.seconds
  nanos : ∃ w : UInt32, w.toNat = i.nanos

theorem exists_toInt_eq {x : Int} (hlower : -2 ^ 63 ≤ x) (hupper : x < 2 ^ 63) :
    ∃ w : Int64, w.toInt = x :=
  ⟨Int64.ofInt x, Int64.toInt_ofInt_of_le hlower hupper⟩

theorem stepsFit {t : DateTime} (h : firstTicks ≤ t.ticks.toInt) : t.StepsFit t.unixTime := by
  have hupper : t.ticks.toInt ≤ maxTicks := t.ticks.toInt_le
  rw [maxTicks_eq] at hupper
  rw [firstTicks] at h
  refine ⟨?_, ?_, UInt32.ofNat t.unixTime.nanos, ?_⟩
  · apply exists_toInt_eq <;> simp only [unixEpochTicks] <;> omega
  · apply exists_toInt_eq <;> simp only [unixTime, unixEpochTicks, ticksPerSecond] <;> omega
  · rw [UInt32.toNat_ofNat']
    exact Nat.mod_eq_of_lt (by have := t.isWholeTicks_unixTime.nanos_lt; omega)

end DateTime

open DateTime

/-- **Calendar time is exact**, by any calendar. A timestamp has no calendar time exactly if it is
so early that its distance to 1970 is not a number of ticks. All others have the calendar time that
consists of their ticks since 1970, and no step to it leaves its word. So different timestamps have
different calendar times, in the same order. -/
theorem calendar_time_exact (calendar : Int → Nat → Option Instant)
    (hcalendar : Instant.IsCalendar calendar) (t : DateTime) :
    (t.toInstantBy? calendar = none ↔ t.ticks.toInt < -2 ^ 63 + 116444736000000000) ∧
    (∀ i, t.toInstantBy? calendar = some i →
      (i.nanos < 10 ^ 9 ∧ 100 ∣ i.nanos ∧
        10 ^ 7 * i.seconds + (i.nanos / 100 : Nat) + 116444736000000000 = t.ticks.toInt) ∧
      t.StepsFit i) ∧
    ∀ u i j, t.toInstantBy? calendar = some i → u.toInstantBy? calendar = some j →
      (i = j ↔ t = u) ∧ (i.Before j ↔ t.ticks.toInt < u.ticks.toInt) := by
  have hsome {t : DateTime} {i : Instant} :
      t.toInstantBy? calendar = some i ↔ firstTicks ≤ t.ticks.toInt ∧ i = t.unixTime :=
    toInstantBy?_eq_some_iff hcalendar
  refine ⟨?_, ?_, ?_⟩
  · rw [Option.eq_none_iff_forall_ne_some, ← Int.not_le]
    constructor
    · intro hnone hlate
      exact hnone _ (hsome.2 ⟨hlate, rfl⟩)
    · intro hearly i hi
      exact hearly (hsome.1 hi).1
  · intro i hi
    obtain ⟨hlate, rfl⟩ := hsome.1 hi
    obtain ⟨hlt, hdvd⟩ := t.isWholeTicks_unixTime
    exact ⟨⟨hlt, hdvd, t.exactTicks_unixTime⟩, stepsFit hlate⟩
  · intro u i j hi hj
    obtain ⟨-, rfl⟩ := hsome.1 hi
    obtain ⟨-, rfl⟩ := hsome.1 hj
    have ht := t.isWholeTicks_unixTime
    have hu := u.isWholeTicks_unixTime
    rw [← ht.exactTicks_inj hu, ← ht.exactTicks_lt_iff hu, t.exactTicks_unixTime,
      u.exactTicks_unixTime]
    exact ⟨toInt_ticks_inj, Iff.rfl⟩

/-- The earliest timestamp that has a calendar time. -/
def earliest : DateTime := ⟨-9106927300854775808⟩

theorem toInstant?_earliest : earliest.toInstant? = some ⟨-922337203686, 522419200⟩ := by
  decide

/-- By the calendar of `Instant.ofUnix?`, the timestamp before the earliest one has no calendar
time. That of the earliest one lies before 1601, where the null timestamp is. -/
theorem calendar_time_exact_earliest :
    let i : Instant := ⟨-922337203686, 522419200⟩
    Instant.IsCalendar Instant.ofUnix? ∧
      DateTime.toInstant? ⟨-9106927300854775809⟩ = none ∧
      earliest.toInstant? = some i ∧ earliest.StepsFit i ∧
      DateTime.null.toInstant? = some ⟨-11644473600, 0⟩ ∧ i.Before ⟨-11644473600, 0⟩ := by
  have hcalendar := Instant.isCalendar_ofUnix?
  obtain ⟨hnone, -, -⟩ := calendar_time_exact _ hcalendar ⟨-9106927300854775809⟩
  obtain ⟨-, hsome, horder⟩ := calendar_time_exact _ hcalendar earliest
  have hnull : DateTime.null.toInstant? = some ⟨-11644473600, 0⟩ := by decide
  refine ⟨hcalendar, hnone.2 (by decide), toInstant?_earliest, (hsome _ toInstant?_earliest).2,
    hnull, ?_⟩
  exact (horder _ _ _ toInstant?_earliest hnull).2.2 (by decide)

/-! ### From calendar time -/

namespace DateTime

/-- The timestamp has exactly the given number of ticks if it can hold it, and otherwise the least
or the greatest number, whichever is nearer. -/
structure Saturates (t : DateTime) (ticks : Int) : Prop where
  exact : -2 ^ 63 ≤ ticks → ticks < 2 ^ 63 → t.ticks.toInt = ticks
  least : ticks < -2 ^ 63 → t.ticks.toInt = -2 ^ 63
  greatest : 2 ^ 63 ≤ ticks → t.ticks.toInt = 2 ^ 63 - 1

/-- The first whole second, counted from 1970, that is a number of ticks. -/
def firstSecond : Int := -922337203685

variable {t : DateTime} {i : Instant} {x : Int}

theorem saturates_iff : t.Saturates x ↔ t.ticks.toInt = saturate x := by
  simp only [saturate, minTicks_eq, maxTicks_eq]
  constructor
  · rintro ⟨hexact, hleast, hgreatest⟩
    omega
  · intro h
    constructor <;> omega

/-- From the first second on, the sum is cut off once. -/
theorem toInt_ticks_of_firstSecond_le (h : firstSecond ≤ i.seconds) :
    (ofInstant i).ticks.toInt = saturate i.exactTicks := by
  rw [firstSecond] at h
  rw [toInt_ticks_ofInstant]
  simp only [Instant.exactTicks, ticksPerSecond, nanosPerTick, unixEpochTicks, minTicks_eq]
  congr 1
  omega

/-- Before the first second, the seconds have no influence. -/
theorem toInt_ticks_of_lt_firstSecond (h : i.seconds < firstSecond) (hi : i.nanos < 2 * 10 ^ 9) :
    (ofInstant i).ticks.toInt = firstTicks + (i.nanos / 100 : Nat) := by
  rw [firstSecond] at h
  rw [toInt_ticks_ofInstant, firstTicks]
  simp only [ticksPerSecond, nanosPerTick, unixEpochTicks, saturate, minTicks_eq, maxTicks_eq]
  omega

theorem saturate_mono {x y : Int} (h : x ≤ y) : saturate x ≤ saturate y := by
  simp only [saturate]
  omega

theorem saturate_ticks (t : DateTime) : saturate t.ticks.toInt = t.ticks.toInt := by
  have hlower : minTicks ≤ t.ticks.toInt := t.ticks.minValue_le_toInt
  have hupper : t.ticks.toInt ≤ maxTicks := t.ticks.toInt_le
  rw [saturate]
  omega

/-- Before the first second, the result is too late. -/
theorem saturate_lt_ticks (h : i.seconds < firstSecond) (hi : i.nanos < 2 * 10 ^ 9) :
    saturate i.exactTicks < (ofInstant i).ticks.toInt := by
  rw [toInt_ticks_of_lt_firstSecond h hi]
  rw [firstSecond] at h
  simp only [saturate, Instant.exactTicks, minTicks_eq, maxTicks_eq, firstTicks]
  omega

theorem toInt_ticks_eq_saturate_iff (hi : i.nanos < 2 * 10 ^ 9) :
    (ofInstant i).ticks.toInt = saturate i.exactTicks ↔ firstSecond ≤ i.seconds := by
  constructor
  · intro hticks
    refine Int.not_lt.1 fun hearly => ?_
    exact Int.ne_of_gt (saturate_lt_ticks hearly hi) hticks
  · exact toInt_ticks_of_firstSecond_le

theorem saturate_le_ticks (hi : i.nanos < 2 * 10 ^ 9) :
    saturate i.exactTicks ≤ (ofInstant i).ticks.toInt := by
  by_cases hlate : firstSecond ≤ i.seconds
  · exact Int.le_of_eq (toInt_ticks_of_firstSecond_le hlate).symm
  · exact Int.le_of_lt (saturate_lt_ticks (Int.not_le.1 hlate) hi)

end DateTime

/-- **Timestamps saturate from the first second on.** A calendar time, leap seconds included, has
the timestamp with its exact number of ticks, or with the nearest number that a timestamp can hold,
if and only if it is not before `firstSecond`. An earlier one has a timestamp that only its fraction
of a second decides, and that is always too late. So the order of two calendar times is kept if the
earlier one is not before `firstSecond`; and the calendar time of a timestamp leads back to it under
the same condition. -/
theorem timestamp_saturates_iff (i : Instant) (hi : i.nanos < 2 * 10 ^ 9) :
    ((ofInstant i).Saturates i.exactTicks ↔ firstSecond ≤ i.seconds) ∧
    (i.seconds < firstSecond →
      (ofInstant i).ticks.toInt = -2 ^ 63 + (i.nanos / 100 : Nat) + 116444736000000000 ∧
        saturate i.exactTicks < (ofInstant i).ticks.toInt) ∧
    (firstSecond ≤ i.seconds → ∀ j : Instant, j.nanos < 2 * 10 ^ 9 →
      i.exactTicks ≤ j.exactTicks → (ofInstant i).ticks.toInt ≤ (ofInstant j).ticks.toInt) ∧
    ∀ t : DateTime, t.toInstant? = some i → (ofInstant i = t ↔ firstSecond ≤ i.seconds) := by
  refine ⟨?_, ?_, ?_, ?_⟩
  · exact saturates_iff.trans (toInt_ticks_eq_saturate_iff hi)
  · intro hearly
    refine ⟨?_, saturate_lt_ticks hearly hi⟩
    rw [toInt_ticks_of_lt_firstSecond hearly hi, firstTicks]
    omega
  · intro hlate j hj hle
    rw [toInt_ticks_of_firstSecond_le hlate]
    exact Int.le_trans (saturate_mono hle) (saturate_le_ticks hj)
  · intro t ht
    obtain ⟨-, rfl⟩ := toInstant?_eq_some_iff.1 ht
    rw [← toInt_ticks_eq_saturate_iff hi, exactTicks_unixTime, saturate_ticks, toInt_ticks_inj]

/-- A leap second with exact ticks; the last second of the calendar, which is beyond the range of
ticks; and the calendar time of the earliest timestamp, which does not lead back to it. -/
theorem timestamp_saturates_iff_leapSecond :
    let leap : Instant := ⟨1483228799, 1999999999⟩
    let last : Instant := ⟨8210266876799, 999999999⟩
    let i : Instant := ⟨-922337203686, 522419200⟩
    (ofInstant leap).ticks.toInt = 131277024009999999 ∧
      (ofInstant leap).ticks.toInt ≤ (ofInstant last).ticks.toInt ∧
      (ofInstant last).ticks.toInt = 2 ^ 63 - 1 ∧
      earliest.toInstant? = some i ∧ ofInstant i ≠ earliest := by
  obtain ⟨hleap, -, horder, -⟩ := timestamp_saturates_iff ⟨1483228799, 1999999999⟩ (by decide)
  obtain ⟨hlast, -, -, -⟩ := timestamp_saturates_iff ⟨8210266876799, 999999999⟩ (by decide)
  obtain ⟨-, -, -, hback⟩ := timestamp_saturates_iff ⟨-922337203686, 522419200⟩ (by decide)
  refine ⟨?_, ?_, ?_, toInstant?_earliest, ?_⟩
  · exact (hleap.2 (by decide)).exact (by decide) (by decide)
  · exact horder (by decide) ⟨8210266876799, 999999999⟩ (by decide) (by decide)
  · exact (hlast.2 (by decide)).greatest (by decide)
  · exact fun hsame => absurd ((hback earliest toInstant?_earliest).1 hsame) (by decide)

/-- **Early calendar times do not saturate.** The last second before `firstSecond` has exact ticks
within the range, and gets others. The first second of the calendar is far below the range, and does
not get the least number of ticks. An instant before the former gets a later timestamp than it. And
the calendar time of the earliest timestamp does not lead back to it. -/
theorem timestamp_of_early_instant_unsaturated :
    let i : Instant := ⟨-922337203686, 0⟩
    let first : Instant := ⟨-8334601228800, 0⟩
    let before : Instant := ⟨-922337203687, 999999999⟩
    (Instant.ofUnix? i.seconds i.nanos = some i ∧ i.exactTicks = -9106927300860000000 ∧
      (ofInstant i).ticks.toInt = -9106927300854775808 ∧ ¬ (ofInstant i).Saturates i.exactTicks) ∧
    (Instant.ofUnix? first.seconds first.nanos = some first ∧ first.exactTicks < -2 ^ 63 ∧
      (ofInstant first).ticks.toInt = -9106927300854775808 ∧
      ¬ (ofInstant first).Saturates first.exactTicks) ∧
    (Instant.ofUnix? before.seconds before.nanos = some before ∧
      before.exactTicks < i.exactTicks ∧
      (ofInstant i).ticks.toInt < (ofInstant before).ticks.toInt) ∧
    ∃ j, earliest.toInstant? = some j ∧ ofInstant j ≠ earliest := by
  refine ⟨⟨by decide, by decide, by decide, ?_⟩, ⟨by decide, by decide, by decide, ?_⟩,
    ⟨by decide, by decide, by decide⟩, _, toInstant?_earliest, by decide⟩
  · exact fun h => absurd (h.exact (by decide) (by decide)) (by decide)
  · exact fun h => absurd (h.least (by decide)) (by decide)

end OpcWire
