import BranchingInterview.Calendar.Date
import Mathlib.Tactic.ByContra

/-!
Dates and day numbers. A date is found again from its number, and the range of dates is a range of
numbers.
-/

namespace BranchingInterview

namespace Calendar

theorem daysBeforeYear_mono {year later : Int} (hle : year ≤ later) :
    daysBeforeYear year ≤ daysBeforeYear later := by
  simp only [daysBeforeYear]
  omega

theorem yearOfDay_eq {day year : Int} (hlow : daysBeforeYear year ≤ day)
    (hhigh : day < daysBeforeYear (year + 1)) : yearOfDay day = year := by
  obtain ⟨hstart, hend⟩ := yearOfDay_bounds day
  apply Int.le_antisymm
  · by_contra hlater
    have hmono := daysBeforeYear_mono (show year + 1 ≤ yearOfDay day by omega)
    omega
  · by_contra hearlier
    have hmono := daysBeforeYear_mono (show yearOfDay day + 1 ≤ year by omega)
    omega

theorem le_yearOfDay_iff {year day : Int} : year ≤ yearOfDay day ↔ daysBeforeYear year ≤ day := by
  obtain ⟨hstart, hend⟩ := yearOfDay_bounds day
  constructor
  · intro hle
    exact Int.le_trans (daysBeforeYear_mono hle) hstart
  · intro hday
    by_contra hearlier
    have hmono := daysBeforeYear_mono (show yearOfDay day + 1 ≤ year by omega)
    omega

theorem daysBeforeMonth_bounds : ∀ (leap : Bool), ∀ month ≤ 12, 1 ≤ month →
    daysBeforeMonth leap month + daysInMonth leap month ≤ if leap then 366 else 365 := by
  decide +kernel

theorem monthOfDay_eq : ∀ (leap : Bool), ∀ month ≤ 12, 1 ≤ month →
    ∀ day < daysInMonth leap month, monthOfDay leap (daysBeforeMonth leap month + day) = month := by
  decide +kernel

end Calendar

open Calendar

namespace Date

@[ext]
theorem ext {left right : Date} (hyear : left.year = right.year) (hmonth : left.month = right.month)
    (hday : left.day = right.day) : left = right := by
  cases left
  cases right
  cases hyear
  cases hmonth
  cases hday
  rfl

/-- The place of a date in its year, from 0. -/
def dayInYear (date : Date) : Nat :=
  daysBeforeMonth (isLeapYear date.year) date.month + (date.day - 1)

theorem dayInYear_lt (date : Date) :
    date.dayInYear < if isLeapYear date.year then 366 else 365 := by
  have hbounds := daysBeforeMonth_bounds (isLeapYear date.year) date.month date.month_le
    date.month_pos
  have hpos := date.day_pos
  have hle := date.day_le
  rw [dayInYear]
  omega

theorem dayNumber_eq (date : Date) :
    date.dayNumber + epochDay = daysBeforeYear date.year + date.dayInYear := by
  have hpos := date.day_pos
  rw [dayNumber, dayInYear]
  omega

theorem yearOfDay_dayNumber (date : Date) : yearOfDay (date.dayNumber + epochDay) = date.year := by
  have hlt := date.dayInYear_lt
  rw [dayNumber_eq]
  apply yearOfDay_eq
  · omega
  · rw [daysBeforeYear_succ]
    split at hlt
    · next hleap =>
        rw [if_pos hleap]
        omega
    · next hleap =>
        rw [if_neg hleap]
        omega

theorem dayOfYear_dayNumber (date : Date) :
    dayOfYear (date.dayNumber + epochDay) = date.dayInYear := by
  rw [dayOfYear, yearOfDay_dayNumber, dayNumber_eq]
  omega

theorem monthOfDay_dayInYear (date : Date) :
    monthOfDay (isLeapYear date.year) date.dayInYear = date.month := by
  have hpos := date.day_pos
  have hle := date.day_le
  exact monthOfDay_eq _ _ date.month_le date.month_pos _ (by omega)

/-- A date is found again from its number. -/
theorem ofDayNumber_dayNumber (date : Date) : ofDayNumber date.dayNumber = date := by
  have hyear := date.yearOfDay_dayNumber
  have hplace := date.dayOfYear_dayNumber
  have hmonth := date.monthOfDay_dayInYear
  have hpos := date.day_pos
  ext
  · exact hyear
  · simp only [ofDayNumber, hyear, hplace, hmonth]
  · simp only [ofDayNumber, hyear, hplace, hmonth]
    rw [dayInYear]
    omega

theorem inRange_ofDayNumber_iff {number : Int} :
    (ofDayNumber number).InRange ↔
      daysBeforeYear minYear ≤ number + epochDay ∧
        number + epochDay < daysBeforeYear (maxYear + 1) := by
  have hlast : yearOfDay (number + epochDay) ≤ maxYear ↔
      ¬maxYear + 1 ≤ yearOfDay (number + epochDay) := by omega
  change minYear ≤ yearOfDay (number + epochDay) ∧ yearOfDay (number + epochDay) ≤ maxYear ↔ _
  rw [hlast, le_yearOfDay_iff, le_yearOfDay_iff, Int.not_le]

end Date

end BranchingInterview
