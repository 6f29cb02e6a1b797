import BranchingInterview.Calendar.Date

/-!
Instants: seconds of universal time since 1970, nanoseconds, and the offset of the clock they were
read from. Instants are ordered by universal time alone; the day an instant falls on is the day
that clock shows.
-/

namespace BranchingInterview

/-- A leap second is the second before it with 1000000000 nanoseconds or more. -/
structure Instant where
  second : Int
  nano : Nat
  /-- Seconds that the clock is ahead of universal time. -/
  offset : Int
deriving DecidableEq

namespace Instant

def secondsPerDay : Int := 86400

instance : LT Instant where
  lt left right :=
    left.second < right.second ∨ left.second = right.second ∧ left.nano < right.nano

instance : LE Instant where
  le left right := ¬ right < left

instance (left right : Instant) : Decidable (left < right) :=
  inferInstanceAs (Decidable (_ ∨ _))

instance (left right : Instant) : Decidable (left ≤ right) :=
  inferInstanceAs (Decidable (¬ _))

theorem lt_iff {left right : Instant} :
    left < right ↔
      left.second < right.second ∨ left.second = right.second ∧ left.nano < right.nano :=
  Iff.rfl

theorem le_iff_not_lt {left right : Instant} : left ≤ right ↔ ¬right < left := Iff.rfl

theorem lt_iff_not_le {left right : Instant} : left < right ↔ ¬right ≤ left := by
  rw [le_iff_not_lt, Decidable.not_not]

theorem lt_trans {first second third : Instant} (hfirst : first < second)
    (hsecond : second < third) : first < third := by
  rw [lt_iff] at *
  omega

theorem le_trans {first second third : Instant} (hfirst : first ≤ second)
    (hsecond : second ≤ third) : first ≤ third := by
  rw [le_iff_not_lt, lt_iff] at *
  omega

theorem le_total (left right : Instant) : left ≤ right ∨ right ≤ left := by
  rw [le_iff_not_lt, le_iff_not_lt, lt_iff, lt_iff]
  omega

/-- Midnight of universal time at the start of a date. -/
def startOfDay (date : Date) : Instant := ⟨date.dayNumber * secondsPerDay, 0, 0⟩

def day (instant : Instant) : Date :=
  .ofDayNumber ((instant.second + instant.offset) / secondsPerDay)

end Instant

end BranchingInterview
