/-!
Dates of the proleptic Gregorian calendar, which has a year 0 and negative years. A date and its
day number, counted from 1970-01-01, determine each other.
-/

namespace BranchingInterview

namespace Calendar

def isLeapYear (year : Int) : Bool :=
  year % 4 == 0 && (year % 100 != 0 || year % 400 == 0)

def daysInMonth (leap : Bool) (month : Nat) : Nat :=
  match month with
  | 2 => if leap then 29 else 28
  | 4 | 6 | 9 | 11 => 30
  | _ => 31

def daysBeforeMonth (leap : Bool) (month : Nat) : Nat :=
  (List.range' 1 (month - 1)).foldl (fun days month => days + daysInMonth leap month) 0

/-- Days from the first of January of year 0 to that of another year. -/
def daysBeforeYear (year : Int) : Int :=
  365 * year + (year + 3) / 4 - (year + 99) / 100 + (year + 399) / 400

/-- The day number of 1970-01-01 when days are counted from year 0. -/
def epochDay : Int := daysBeforeYear 1970

/-- The year a day counted from year 0 falls in: the mean length of a year gives it up to one. -/
def yearOfDay (day : Int) : Int :=
  let guess := day * 400 / 146097
  if day < daysBeforeYear guess then guess - 1
  else if daysBeforeYear (guess + 1) ≤ day then guess + 1
  else guess

/-- The month a day of the year falls in: one more than the later months already begun. -/
def monthOfDay (leap : Bool) (day : Nat) : Nat :=
  1 + (List.range' 2 11).countP fun month => daysBeforeMonth leap month ≤ day

def minYear : Int := -262143

def maxYear : Int := 262142

theorem yearOfDay_bounds (day : Int) :
    daysBeforeYear (yearOfDay day) ≤ day ∧ day < daysBeforeYear (yearOfDay day + 1) := by
  unfold yearOfDay
  simp only
  split
  next hlow =>
    rw [Int.sub_add_cancel]
    refine ⟨?_, hlow⟩
    simp only [daysBeforeYear] at *
    omega
  next hlow =>
    split
    next hhigh =>
      refine ⟨hhigh, ?_⟩
      simp only [daysBeforeYear] at *
      omega
    next hhigh => omega

theorem daysBeforeYear_succ (year : Int) :
    daysBeforeYear (year + 1) = daysBeforeYear year + if isLeapYear year then 366 else 365 := by
  have hleap : isLeapYear year = true ↔ year % 4 = 0 ∧ (year % 100 ≠ 0 ∨ year % 400 = 0) := by
    simp [isLeapYear]
  simp only [daysBeforeYear]
  split
  next h => rw [hleap] at h; omega
  next h => rw [hleap] at h; omega

/-- The day of its year, from 0, that a day counted from year 0 is. -/
def dayOfYear (day : Int) : Nat :=
  (day - daysBeforeYear (yearOfDay day)).toNat

theorem dayOfYear_lt (day : Int) :
    dayOfYear day < if isLeapYear (yearOfDay day) then 366 else 365 := by
  have hbounds := yearOfDay_bounds day
  rw [daysBeforeYear_succ] at hbounds
  unfold dayOfYear
  cases hleap : isLeapYear (yearOfDay day) <;> simp only [hleap] at hbounds ⊢ <;>
    simp only [↓reduceIte, Bool.false_eq_true] at hbounds ⊢ <;> omega

theorem monthOfDay_bounds : ∀ (leap : Bool) (day : Nat), day < (if leap then 366 else 365) →
    monthOfDay leap day ≤ 12 ∧ daysBeforeMonth leap (monthOfDay leap day) ≤ day ∧
      day < daysBeforeMonth leap (monthOfDay leap day) +
        daysInMonth leap (monthOfDay leap day) := by
  decide +kernel

end Calendar

open Calendar

structure Date where
  year : Int
  month : Nat
  day : Nat
  month_pos : 1 ≤ month
  month_le : month ≤ 12
  day_pos : 1 ≤ day
  day_le : day ≤ daysInMonth (isLeapYear year) month
deriving DecidableEq

namespace Date

def of? (year : Int) (month day : Nat) : Option Date :=
  if h : (1 ≤ month ∧ month ≤ 12) ∧ 1 ≤ day ∧ day ≤ daysInMonth (isLeapYear year) month then
    some ⟨year, month, day, h.1.1, h.1.2, h.2.1, h.2.2⟩
  else none

/-- Days since 1970-01-01. -/
def dayNumber (date : Date) : Int :=
  daysBeforeYear date.year + daysBeforeMonth (isLeapYear date.year) date.month + date.day - 1 -
    epochDay

def ofDayNumber (number : Int) : Date :=
  let day := number + epochDay
  let leap := isLeapYear (yearOfDay day)
  let month := monthOfDay leap (dayOfYear day)
  have hmonth := monthOfDay_bounds leap (dayOfYear day) (dayOfYear_lt day)
  { year := yearOfDay day
    month := month
    day := dayOfYear day - daysBeforeMonth leap month + 1
    month_pos := Nat.le_add_right 1 _
    month_le := hmonth.1
    day_pos := Nat.le_add_left 1 _
    day_le := Nat.succ_le_of_lt (Nat.sub_lt_left_of_lt_add hmonth.2.1 hmonth.2.2) }

def InRange (date : Date) : Prop := minYear ≤ date.year ∧ date.year ≤ maxYear

instance (date : Date) : Decidable date.InRange := inferInstanceAs (Decidable (_ ∧ _))

def padded (width n : Nat) : List Char :=
  let digits := Nat.toDigits 10 n
  List.replicate (width - digits.length) '0' ++ digits

/-- The year with four digits or more, and with a sign outside 0 to 9999. -/
def yearChars (year : Int) : List Char :=
  if year < 0 then '-' :: padded 4 year.natAbs
  else if 9999 < year then '+' :: padded 4 year.natAbs
  else padded 4 year.natAbs

def chars (date : Date) : List Char :=
  yearChars date.year ++ '-' :: padded 2 date.month ++ '-' :: padded 2 date.day

def text (date : Date) : String := String.ofList date.chars

def epoch : Date := ⟨1970, 1, 1, by decide, by decide, by decide, by decide⟩

instance : Inhabited Date := ⟨epoch⟩

end Date

end BranchingInterview
