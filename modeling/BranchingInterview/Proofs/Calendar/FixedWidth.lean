import BranchingInterview.Proofs.Calendar.DateText
import BranchingInterview.Proofs.Calendar.DaySequence
import BranchingInterview.Proofs.Text.DigitOrder

/-!
Dates and times whose parts have a fixed width. Such a text has a shape, in which only its digits are
left open; two texts of one shape stand in the order of the instants that they write.
-/

namespace BranchingInterview

open Calendar Text

/-! A text of a shape is made of numbers with leading zeros. -/

namespace Text

/-- The shape of a text: every digit of it as 0. -/
def shape (chars : List Char) : List Char := chars.map fun c => if c.isDigit then '0' else c

/-- A text goes by a pattern, in which 0 stands for any digit. -/
def HasShape (text pattern : String) : Prop := shape text.toList = pattern.toList

instance (text pattern : String) : Decidable (HasShape text pattern) :=
  inferInstanceAs (Decidable (_ = _))

variable {width n m : Nat} {chars digits rest more : List Char}

theorem isDigit_of_shape (hshape : shape chars = List.replicate width '0') :
    chars.length = width ∧ ∀ c ∈ chars, c.isDigit = true := by
  obtain ⟨hlength, hzero⟩ := List.eq_replicate_iff.1 hshape
  refine ⟨(List.length_map _).symm.trans hlength, fun c hc => ?_⟩
  by_contra hdigit
  have hmark : c = '0' := by simpa [hdigit] using hzero _ (List.mem_map_of_mem hc)
  rw [hmark] at hdigit
  exact hdigit rfl

theorem length_toDigits_natOfDigits (hdigits : ∀ c ∈ digits, c.isDigit = true)
    (hsome : 0 < digits.length) : (Nat.toDigits 10 (natOfDigits digits)).length ≤ digits.length :=
  (Nat.length_toDigits_le_iff (by decide) hsome).2 (natOfDigits_lt hdigits)

theorem padded_natOfDigits (hdigits : ∀ c ∈ digits, c.isDigit = true) (hsome : 0 < digits.length) :
    Date.padded digits.length (natOfDigits digits) = digits := by
  have hlength := Date.length_padded (length_toDigits_natOfDigits hdigits hsome)
  have hpadded : ∀ c ∈ Date.padded digits.length (natOfDigits digits), c.isDigit = true :=
    fun _ => Date.isDigit_of_mem_padded
  exact (natOfDigits_inj hpadded hdigits hlength).1 (Date.natOfDigits_padded _ _)

theorem lt_of_length_toDigits (hfits : (Nat.toDigits 10 n).length ≤ 2) : n < 100 :=
  (Nat.length_toDigits_le_iff (by decide) (by decide)).1 hfits

theorem exists_padded_of_shape (hwidth : 0 < width)
    (hshape : shape chars = List.replicate width '0' ++ rest) :
    ∃ n after, (Nat.toDigits 10 n).length ≤ width ∧ chars = Date.padded width n ++ after ∧
      shape after = rest := by
  obtain ⟨digits, after, rfl, hzeros, hafter⟩ := List.map_eq_append_iff.1 hshape
  obtain ⟨rfl, hdigits⟩ := isDigit_of_shape hzeros
  refine ⟨natOfDigits digits, after, length_toDigits_natOfDigits hdigits hwidth, ?_, hafter⟩
  rw [padded_natOfDigits hdigits hwidth]

theorem exists_cons_of_shape {mark : Char} (hmark : mark ≠ '0') (hshape : shape chars = mark :: rest) :
    ∃ after, chars = mark :: after ∧ shape after = rest := by
  obtain ⟨c, after, rfl, hc, hafter⟩ := List.map_eq_cons_iff.1 hshape
  split at hc
  · exact absurd hc.symm hmark
  · exact ⟨after, by rw [hc], hafter⟩

theorem padded_append_lt_iff (hn : (Nat.toDigits 10 n).length ≤ width)
    (hm : (Nat.toDigits 10 m).length ≤ width) :
    Date.padded width n ++ rest < Date.padded width m ++ more ↔ n < m ∨ n = m ∧ rest < more := by
  have hlength := (Date.length_padded hn).trans (Date.length_padded hm).symm
  rw [append_lt_append_iff (fun _ => Date.isDigit_of_mem_padded)
    (fun _ => Date.isDigit_of_mem_padded) hlength, Date.natOfDigits_padded,
    Date.natOfDigits_padded]

theorem padded_two_append_lt_iff (hn : n < 100) (hm : m < 100) :
    Date.padded 2 n ++ rest < Date.padded 2 m ++ more ↔ n < m ∨ n = m ∧ rest < more :=
  padded_append_lt_iff (Date.length_toDigits_le_two hn) (Date.length_toDigits_le_two hm)

end Text

namespace Calendar.Parts

/-- The time of day among some parts as a text, in universal time. -/
def clockChars (parts : Parts) : List Char :=
  'T' :: (Date.padded 2 parts.hour ++ ':' :: (Date.padded 2 parts.minute ++
    ':' :: (Date.padded 2 parts.second ++ ['Z'])))

/-- Each part of a date and a time has no more digits than its place in a text, and that is all. -/
structure FixedWidth (parts : Parts) : Prop where
  year_nonneg : 0 ≤ parts.year
  year_le : parts.year ≤ 9999
  month_lt : parts.month < 100
  day_lt : parts.day < 100
  hour_lt : parts.hour < 100
  minute_lt : parts.minute < 100
  second_lt : parts.second < 100
  nano_eq : parts.nano = 0
  offset_eq : parts.offset = 0

/-- The parts are earlier in the first place where they differ from others. -/
def Precedes (left right : Parts) : Prop :=
  left.year < right.year ∨ left.year = right.year ∧
    (left.month < right.month ∨ left.month = right.month ∧
      (left.day < right.day ∨ left.day = right.day ∧
        (left.hour < right.hour ∨ left.hour = right.hour ∧
          (left.minute < right.minute ∨ left.minute = right.minute ∧
            left.second < right.second))))

variable {parts left right : Parts} {chars rest more : List Char}

theorem isBlank_of_mem_clockChars {c : Char} (hc : c ∈ parts.clockChars) :
    isBlank c = false := by
  simp only [clockChars, List.mem_append, List.mem_cons, List.not_mem_nil, or_false] at hc
  rcases hc with rfl | hc | rfl | hc | rfl | hc | rfl
  · decide
  · exact Date.isBlank_of_mem_padded hc
  · decide
  · exact Date.isBlank_of_mem_padded hc
  · decide
  · exact Date.isBlank_of_mem_padded hc
  · decide

theorem FixedWidth.yearChars_eq (hwidth : parts.FixedWidth) :
    Date.yearChars parts.year = Date.padded 4 parts.year.natAbs := by
  have hlow := hwidth.year_nonneg
  have hhigh := hwidth.year_le
  rw [Date.yearChars, if_neg (by omega), if_neg (by omega)]

theorem FixedWidth.length_year (hwidth : parts.FixedWidth) :
    (Nat.toDigits 10 parts.year.natAbs).length ≤ 4 := by
  have hlow := hwidth.year_nonneg
  have hhigh := hwidth.year_le
  exact (Nat.length_toDigits_le_iff (by decide) (by decide)).2 (by omega)

theorem dateChars_append_lt_iff (hleft : left.FixedWidth) (hright : right.FixedWidth) :
    left.dateChars ++ rest < right.dateChars ++ more ↔
      left.year < right.year ∨ left.year = right.year ∧
        (left.month < right.month ∨ left.month = right.month ∧
          (left.day < right.day ∨ left.day = right.day ∧ rest < more)) := by
  have hlow := hleft.year_nonneg
  have hlow' := hright.year_nonneg
  have hyear : left.year.natAbs < right.year.natAbs ↔ left.year < right.year := by omega
  have hsame : left.year.natAbs = right.year.natAbs ↔ left.year = right.year := by omega
  simp only [dateChars, hleft.yearChars_eq, hright.yearChars_eq, List.append_assoc,
    List.cons_append]
  rw [padded_append_lt_iff hleft.length_year hright.length_year, List.cons_lt_cons_self,
    padded_two_append_lt_iff hleft.month_lt hright.month_lt, List.cons_lt_cons_self,
    padded_two_append_lt_iff hleft.day_lt hright.day_lt, hyear, hsame]

theorem clockChars_lt_iff (hleft : left.FixedWidth) (hright : right.FixedWidth) :
    left.clockChars < right.clockChars ↔
      left.hour < right.hour ∨ left.hour = right.hour ∧
        (left.minute < right.minute ∨ left.minute = right.minute ∧
          left.second < right.second) := by
  rw [clockChars, clockChars, List.cons_lt_cons_self,
    padded_two_append_lt_iff hleft.hour_lt hright.hour_lt, List.cons_lt_cons_self,
    padded_two_append_lt_iff hleft.minute_lt hright.minute_lt, List.cons_lt_cons_self,
    padded_two_append_lt_iff hleft.second_lt hright.second_lt]
  simp only [List.lt_irrefl, and_false, or_false]

/-! A text of a shape writes parts of fixed width, and is read as these. -/

theorem exists_date_of_shape (hshape : shape chars = "0000-00-00".toList ++ rest) :
    ∃ parts after, FixedWidth parts ∧ parts.dateOnly = parts ∧ chars = parts.dateChars ++ after ∧
      shape after = rest := by
  have hmarks : "0000-00-00".toList ++ rest =
      List.replicate 4 '0' ++ '-' :: (List.replicate 2 '0' ++ '-' :: (List.replicate 2 '0' ++ rest)) :=
    rfl
  rw [hmarks] at hshape
  obtain ⟨year, _, hyear, rfl, hafterYear⟩ := exists_padded_of_shape (by decide) hshape
  obtain ⟨_, rfl, hfromMonth⟩ := exists_cons_of_shape (by decide) hafterYear
  obtain ⟨month, _, hmonth, rfl, hafterMonth⟩ := exists_padded_of_shape (by decide) hfromMonth
  obtain ⟨_, rfl, hfromDay⟩ := exists_cons_of_shape (by decide) hafterMonth
  obtain ⟨day, after, hday, rfl, hafter⟩ := exists_padded_of_shape (by decide) hfromDay
  have hyear : year < 10000 := (Nat.length_toDigits_le_iff (by decide) (by decide)).1 hyear
  have hlast : (year : Int) ≤ 9999 := by omega
  have hwidth : FixedWidth { year := year, month := month, day := day } :=
    ⟨Int.natCast_nonneg year, hlast, lt_of_length_toDigits hmonth, lt_of_length_toDigits hday,
      Nat.succ_pos 99, Nat.succ_pos 99, Nat.succ_pos 99, rfl, rfl⟩
  refine ⟨_, after, hwidth, rfl, ?_, hafter⟩
  rw [dateChars, hwidth.yearChars_eq, Int.natAbs_natCast, List.append_assoc, List.cons_append,
    List.append_assoc, List.cons_append]

theorem exists_clock_of_shape (hwidth : parts.FixedWidth)
    (hshape : shape chars = "T00:00:00Z".toList) :
    ∃ moment, FixedWidth moment ∧ moment.dateChars = parts.dateChars ∧
      chars = moment.clockChars := by
  have hmarks : "T00:00:00Z".toList = 'T' :: (List.replicate 2 '0' ++ ':' ::
      (List.replicate 2 '0' ++ ':' :: (List.replicate 2 '0' ++ ['Z']))) := by decide
  rw [hmarks] at hshape
  obtain ⟨_, rfl, hfromHour⟩ := exists_cons_of_shape (by decide) hshape
  obtain ⟨hour, _, hhour, rfl, hafterHour⟩ := exists_padded_of_shape (by decide) hfromHour
  obtain ⟨_, rfl, hfromMinute⟩ := exists_cons_of_shape (by decide) hafterHour
  obtain ⟨minute, _, hminute, rfl, hafterMinute⟩ := exists_padded_of_shape (by decide) hfromMinute
  obtain ⟨_, rfl, hfromSecond⟩ := exists_cons_of_shape (by decide) hafterMinute
  obtain ⟨second, _, hsecond, rfl, hzone⟩ := exists_padded_of_shape (by decide) hfromSecond
  obtain ⟨_, rfl, hend⟩ := exists_cons_of_shape (by decide) hzone
  obtain rfl := List.map_eq_nil_iff.1 hend
  refine ⟨{ parts with hour, minute, second }, ?_, rfl, rfl⟩
  exact { hwidth with
    hour_lt := lt_of_length_toDigits hhour
    minute_lt := lt_of_length_toDigits hminute
    second_lt := lt_of_length_toDigits hsecond }

theorem FixedWidth.reads (hwidth : parts.FixedWidth) :
    Form.secondsWithZone.Reads (parts.dateChars ++ parts.clockChars) parts := by
  have hform : Form.secondsWithZone = Form.dateItems ++ [.oneOf ['T'], .number .hour, .oneOf [':'],
      .number .minute, .oneOf [':'], .number .second, .fraction, .looseZone] := by rfl
  rw [Form.Reads, hform, readItems_dateItems hwidth.month_lt hwidth.day_lt, clockChars,
    readItems_oneOf (by decide), readItems_number (by decide) hwidth.hour_lt,
    readItems_oneOf (by decide), readItems_number (by decide) hwidth.minute_lt,
    readItems_oneOf (by decide), readItems_number (by decide) hwidth.second_lt]
  have hnano := hwidth.nano_eq
  have hoffset := hwidth.offset_eq
  cases parts
  cases hnano
  cases hoffset
  rfl

variable {date other : Date}

theorem Name.dayNumber_lt_iff (hdate : left.Name date) (hother : right.Name other) :
    date.dayNumber < other.dayNumber ↔ left.year < right.year ∨ left.year = right.year ∧
      (left.month < right.month ∨ left.month = right.month ∧ left.day < right.day) := by
  obtain ⟨hyear, hmonth, hday⟩ := hdate.year_eq
  obtain ⟨hyear', hmonth', hday'⟩ := hother.year_eq
  rw [Date.dayNumber_lt_iff, Date.lt_iff, hyear, hmonth, hday, hyear', hmonth', hday']

/-- A leap second comes after the second before it and before the next minute. -/
theorem Name.clock_lt_iff (hdate : left.Name date) (hother : right.Name other)
    (hleft : left.FixedWidth) (hright : right.FixedWidth) :
    left.clockSecond < right.clockSecond ∨
        left.clockSecond = right.clockSecond ∧ left.clockNano < right.clockNano ↔
      left.hour < right.hour ∨ left.hour = right.hour ∧
        (left.minute < right.minute ∨ left.minute = right.minute ∧
          left.second < right.second) := by
  have htime := hdate.time
  have htime' := hother.time
  simp only [clockSecond, clockNano, hleft.nano_eq, hright.nano_eq]
  split_ifs <;> omega

/-- Parts that are within their ranges name instants in the order in which they precede each other. -/
theorem Name.instantOn_lt_iff (hdate : left.Name date) (hother : right.Name other)
    (hleft : left.FixedWidth) (hright : right.FixedWidth) :
    left.instantOn date < right.instantOn other ↔ left.Precedes right := by
  have hclock := hdate.clockSecond_lt
  have hclock' := hother.clockSecond_lt
  have hearlier := hdate.dayNumber_lt_iff hother
  have hlater := hother.dayNumber_lt_iff hdate
  calc
    left.instantOn date < right.instantOn other ↔
        date.dayNumber < other.dayNumber ∨ date.dayNumber = other.dayNumber ∧
          (left.clockSecond < right.clockSecond ∨
            left.clockSecond = right.clockSecond ∧ left.clockNano < right.clockNano) := by
      simp only [Instant.lt_iff, instantOn, hleft.offset_eq, hright.offset_eq,
        Instant.secondsPerDay]
      omega
    _ ↔ left.Precedes right := by
      rw [hdate.clock_lt_iff hother hleft hright, Precedes]
      omega

end Calendar.Parts

end BranchingInterview
