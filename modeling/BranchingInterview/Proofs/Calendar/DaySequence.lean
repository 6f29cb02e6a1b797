import BranchingInterview.Proofs.Calendar.DayNumber

/-!
Dates one after the other. A date is earlier than another one by its year, then by its month, then by
its day; their numbers stand in the same order, and every number is that of a date.
-/

namespace BranchingInterview

open Calendar

/-- Every month ends before a later one begins. -/
theorem Calendar.daysBeforeMonth_add_le : ∀ (leap : Bool), ∀ later ≤ 12, ∀ month < later, 1 ≤ month →
    daysBeforeMonth leap month + daysInMonth leap month ≤ daysBeforeMonth leap later := by
  decide +kernel

namespace Date

variable {left right : Date}

instance : LT Date where
  lt left right :=
    left.year < right.year ∨ left.year = right.year ∧
      (left.month < right.month ∨ left.month = right.month ∧ left.day < right.day)

instance (left right : Date) : Decidable (left < right) := inferInstanceAs (Decidable (_ ∨ _))

theorem lt_iff :
    left < right ↔ left.year < right.year ∨ left.year = right.year ∧
      (left.month < right.month ∨ left.month = right.month ∧ left.day < right.day) :=
  Iff.rfl

instance : LE Date where
  le left right := ¬right < left

instance (left right : Date) : Decidable (left ≤ right) := inferInstanceAs (Decidable (¬_))

theorem le_iff_not_lt : left ≤ right ↔ ¬right < left := Iff.rfl

theorem dayInYear_lt_of_month_lt (hyear : left.year = right.year) (hmonth : left.month < right.month) :
    left.dayInYear < right.dayInYear := by
  have hends := daysBeforeMonth_add_le (isLeapYear right.year) right.month right.month_le left.month
    hmonth left.month_pos
  have hpos := left.day_pos
  have hle := left.day_le
  rw [hyear] at hle
  calc
    left.dayInYear = daysBeforeMonth (isLeapYear right.year) left.month + (left.day - 1) := by
      rw [dayInYear, hyear]
    _ < daysBeforeMonth (isLeapYear right.year) right.month := by omega
    _ ≤ right.dayInYear := Nat.le_add_right _ _

theorem dayNumber_lt_of_lt (hlt : left < right) : left.dayNumber < right.dayNumber := by
  have hleft := left.dayNumber_eq
  have hright := right.dayNumber_eq
  rcases lt_iff.1 hlt with hyear | ⟨hyear, hmonth | ⟨hmonth, hday⟩⟩
  · -- The year of the first date is over before that of the second one begins.
    have hends := left.dayInYear_lt
    have hnext := daysBeforeYear_succ left.year
    have hmono := daysBeforeYear_mono (show left.year + 1 ≤ right.year by omega)
    split at hends
    · next hleap =>
        rw [if_pos hleap] at hnext
        omega
    · next hleap =>
        rw [if_neg hleap] at hnext
        omega
  · have hplace := dayInYear_lt_of_month_lt hyear hmonth
    rw [hyear] at hleft
    omega
  · have hpos := left.day_pos
    have hplace : left.dayInYear < right.dayInYear := by
      rw [dayInYear, dayInYear, hyear, hmonth]
      omega
    rw [hyear] at hleft
    omega

theorem lt_trichotomy (left right : Date) : left < right ∨ left = right ∨ right < left := by
  rw [lt_iff, lt_iff, Date.ext_iff]
  omega

theorem dayNumber_lt_iff : left.dayNumber < right.dayNumber ↔ left < right := by
  refine ⟨fun hnumber => ?_, dayNumber_lt_of_lt⟩
  rcases lt_trichotomy left right with hlt | rfl | hgt
  · exact hlt
  · exact absurd hnumber (Int.lt_irrefl _)
  · exact absurd hnumber (Int.lt_asymm (dayNumber_lt_of_lt hgt))

theorem dayNumber_le_iff : left.dayNumber ≤ right.dayNumber ↔ left ≤ right := by
  rw [le_iff_not_lt, ← dayNumber_lt_iff, Int.not_lt]

theorem dayNumber_ofDayNumber (number : Int) : (ofDayNumber number).dayNumber = number := by
  have hyear := yearOfDay_bounds (number + epochDay)
  have hmonth := monthOfDay_bounds (isLeapYear (yearOfDay (number + epochDay)))
    (dayOfYear (number + epochDay)) (dayOfYear_lt (number + epochDay))
  have hday : (dayOfYear (number + epochDay) : Int) =
      number + epochDay - daysBeforeYear (yearOfDay (number + epochDay)) :=
    Int.toNat_of_nonneg (by omega)
  simp only [dayNumber, ofDayNumber]
  omega

theorem ofDayNumber_lt_iff {number later : Int} :
    ofDayNumber number < ofDayNumber later ↔ number < later := by
  rw [← dayNumber_lt_iff, dayNumber_ofDayNumber, dayNumber_ofDayNumber]

end Date

end BranchingInterview
