import BranchingInterview.Calendar.Form
import BranchingInterview.Proofs.Calendar.DayNumber
import Mathlib.Data.Option.Basic

/-!
The instant that some parts name. Its day is the date among the parts, whatever the time of day and
the offset are, and it is in its range if its date in universal time is.
-/

namespace BranchingInterview

open Calendar

namespace Instant

/-- The date in universal time. -/
def universalDay (instant : Instant) : Date := .ofDayNumber (instant.second / secondsPerDay)

theorem inRange_universalDay_iff {instant : Instant} :
    instant.universalDay.InRange ↔ firstSecond ≤ instant.second ∧ instant.second < endSecond := by
  rw [universalDay, Date.inRange_ofDayNumber_iff, firstSecond, endSecond, secondsPerDay]
  omega

/-- The instant at which a clock with an offset shows what universal time shows at this one. -/
def moved (instant : Instant) (offset : Int) : Instant :=
  ⟨instant.second - offset, instant.nano, offset⟩

theorem day_moved {instant : Instant} (hzero : instant.offset = 0) (offset : Int) :
    (instant.moved offset).day = instant.day := by
  rw [day, day, moved, hzero, Int.sub_add_cancel, Int.add_zero]

end Instant

namespace Calendar.Parts

/-- The second of the day on the clock that the parts were read from. -/
def clockSecond (parts : Parts) : Nat :=
  parts.hour * 3600 + parts.minute * 60 + if parts.second = 60 then 59 else parts.second

def clockNano (parts : Parts) : Nat :=
  if parts.second = 60 then parts.nano + 1000000000 else parts.nano

def instantOn (parts : Parts) (date : Date) : Instant :=
  ⟨date.dayNumber * Instant.secondsPerDay + parts.clockSecond - parts.offset, parts.clockNano,
    parts.offset⟩

/-- Each of the parts is within its range. -/
structure Name (parts : Parts) (date : Date) : Prop where
  found : Date.of? parts.year parts.month parts.day = some date
  inRange : date.InRange
  time : parts.hour ≤ 23 ∧ parts.minute ≤ 59 ∧ parts.second ≤ 60
  offset : parts.offset.natAbs < Instant.secondsPerDay.natAbs

variable {parts : Parts} {date other : Date}

theorem Name.clockSecond_lt (hname : parts.Name date) : parts.clockSecond < 86400 := by
  obtain ⟨hhour, hminute, hsecond⟩ := hname.time
  rw [clockSecond]
  split <;> omega

theorem Name.unique (hdate : parts.Name date) (hother : parts.Name other) : date = other := by
  have heq := hdate.found
  rw [hother.found] at heq
  exact (Option.some.inj heq).symm

theorem Name.year_eq (hname : parts.Name date) :
    date.year = parts.year ∧ date.month = parts.month ∧ date.day = parts.day := by
  have hdate := hname.found
  rw [Date.of?] at hdate
  split at hdate
  · cases hdate
    exact ⟨rfl, rfl, rfl⟩
  · cases hdate

/-- The instant falls on the date that was read, on the clock it was read from. -/
theorem Name.day_instantOn (hname : parts.Name date) : (parts.instantOn date).day = date := by
  have hclock := hname.clockSecond_lt
  -- The offset cancels out, and what is left of the day is less than a whole day.
  have hday : ((parts.instantOn date).second + (parts.instantOn date).offset) /
      Instant.secondsPerDay = date.dayNumber := by
    simp only [instantOn, Instant.secondsPerDay]
    omega
  rw [Instant.day, hday, Date.ofDayNumber_dayNumber]

theorem instant?_eq_some_iff {instant : Instant} :
    parts.instant? = some instant ↔
      ∃ date, parts.Name date ∧ parts.instantOn date = instant ∧ instant.universalDay.InRange := by
  simp only [instant?, Option.bind_eq_bind, Option.bind_eq_some_iff, Option.guard_eq_some',
    exists_and_left, exists_const, Option.pure_def, Option.some.injEq]
  constructor
  · rintro ⟨date, hfound, hrange, htime, hoffset, hsecond, rfl⟩
    refine ⟨date, ⟨hfound, hrange, htime, hoffset⟩, rfl, ?_⟩
    rw [Instant.inRange_universalDay_iff]
    exact hsecond
  · rintro ⟨date, ⟨hfound, hrange, htime, hoffset⟩, rfl, hsecond⟩
    rw [Instant.inRange_universalDay_iff] at hsecond
    exact ⟨date, hfound, hrange, htime, hoffset, hsecond, rfl⟩

theorem Name.withOffset (hname : parts.Name date) {offset : Int}
    (hsmall : offset.natAbs < Instant.secondsPerDay.natAbs) :
    ({ parts with offset } : Parts).Name date :=
  ⟨hname.found, hname.inRange, hname.time, hsmall⟩

/-- Another offset moves the instant, if it does not leave the range by that. -/
theorem instant?_withOffset {instant : Instant} (hinstant : parts.instant? = some instant)
    (hzero : parts.offset = 0) {offset : Int}
    (hsmall : offset.natAbs < Instant.secondsPerDay.natAbs) :
    ({ parts with offset } : Parts).instant? =
      if (instant.moved offset).universalDay.InRange then some (instant.moved offset)
      else none := by
  obtain ⟨date, hname, rfl, -⟩ := instant?_eq_some_iff.1 hinstant
  have hmoved : ({ parts with offset } : Parts).instantOn date =
      (parts.instantOn date).moved offset := by
    rw [instantOn, instantOn, Instant.moved, hzero, Int.sub_zero]
    rfl
  split
  · next hrange => exact instant?_eq_some_iff.2 ⟨date, hname.withOffset hsmall, hmoved, hrange⟩
  · next hrange =>
      rw [Option.eq_none_iff_forall_ne_some]
      intro other hother
      obtain ⟨found, hfound, rfl, hinside⟩ := instant?_eq_some_iff.1 hother
      rw [hfound.unique (hname.withOffset hsmall), hmoved] at hinside
      exact hrange hinside

end Calendar.Parts

end BranchingInterview
