import BranchingInterview.Proofs.Calendar.Offset

/-!
The text of a date. A date of any year in range, written out and read back, is the midnight of
universal time at which that date begins.
-/

namespace BranchingInterview

open Calendar Text

theorem Calendar.daysInMonth_le (leap : Bool) (month : Nat) : daysInMonth leap month ≤ 31 := by
  unfold daysInMonth
  split
  · cases leap <;> decide
  all_goals decide

namespace Date

variable {width limit n : Nat} {rest : List Char}

theorem padded_ne_nil (width n : Nat) : padded width n ≠ [] :=
  List.append_ne_nil_of_right_ne_nil _ Nat.toDigits_ne_nil

theorem readDigits_padded (hfits : (padded width n).length ≤ limit) (hrest : EndsDigits rest) :
    readDigits limit (padded width n ++ rest) = some (n, rest) := by
  refine readDigits_eq_some_iff.2 ⟨padded width n, ⟨rfl, ?_, hfits, Or.inr hrest⟩, ?_, ?_⟩
  · exact fun c hc => isDigit_of_mem_padded hc
  · exact padded_ne_nil width n
  · exact natOfDigits_padded width n

theorem readYear_yearChars (year : Int) (hrest : EndsDigits rest) :
    readYear (yearChars year ++ rest) = some (year, rest) := by
  have hdigits {limit : Nat} (hfits : (padded 4 year.natAbs).length ≤ limit) :
      readDigits limit (padded 4 year.natAbs ++ rest) = some (year.natAbs, rest) :=
    readDigits_padded hfits hrest
  have hall : (padded 4 year.natAbs).length ≤ (padded 4 year.natAbs ++ rest).length := by
    rw [List.length_append]
    exact Nat.le_add_right _ _
  rw [readYear_eq_some_iff, yearChars]
  split_ifs with hnegative hlarge
  · exact ⟨['-'], -1, _, _, _, rfl, .minus _, hdigits hall, by omega⟩
  · exact ⟨['+'], 1, _, _, _, rfl, .plus _, hdigits hall, by omega⟩
  · have hfour : (Nat.toDigits 10 year.natAbs).length ≤ 4 :=
      (Nat.length_toDigits_le_iff (by decide) (by decide)).2 (by omega)
    have hlength := Nat.le_of_eq (length_padded hfour)
    exact ⟨[], 1, _, _, _, rfl, .none _, hdigits hlength, by omega⟩

theorem yearChars_ne_nil (year : Int) : yearChars year ≠ [] := by
  rw [yearChars]
  split_ifs
  · exact List.cons_ne_nil _ _
  · exact List.cons_ne_nil _ _
  · exact padded_ne_nil _ _

theorem isBlank_of_mem_padded {c : Char} (hc : c ∈ padded width n) : isBlank c = false :=
  isBlank_of_isDigit (isDigit_of_mem_padded hc)

theorem isBlank_of_mem_yearChars {year : Int} {c : Char} (hc : c ∈ yearChars year) :
    isBlank c = false := by
  rw [yearChars] at hc
  split_ifs at hc
  · rcases List.mem_cons.1 hc with rfl | hc
    · decide
    · exact isBlank_of_mem_padded hc
  · rcases List.mem_cons.1 hc with rfl | hc
    · decide
    · exact isBlank_of_mem_padded hc
  · exact isBlank_of_mem_padded hc

theorem of?_eq_self (date : Date) : Date.of? date.year date.month date.day = some date :=
  dif_pos ⟨⟨date.month_pos, date.month_le⟩, date.day_pos, date.day_le⟩

theorem month_lt (date : Date) : date.month < 100 :=
  Nat.lt_of_le_of_lt date.month_le (by decide)

theorem day_lt (date : Date) : date.day < 100 := by
  have hmonth := daysInMonth_le (isLeapYear date.year) date.month
  have hday := date.day_le
  omega

end Date

namespace Text

/-- A text without blanks has none at its ends. -/
theorem trimmed_of_not_blank {chars : List Char} (hchars : ∀ c ∈ chars, isBlank c = false) :
    trimmed chars = chars :=
  trimmed_eq_self_iff.2
    ⟨fun c hc => hchars c (List.mem_of_head? hc), fun c hc => hchars c (List.mem_of_getLast? hc)⟩

end Text

namespace Calendar

variable {field : Field} {parts : Parts} {items : List Item} {rest : List Char} {n : Nat}

/-! Items read what is written for them, and the items after them the rest. -/

theorem readItems_oneOf {choices : List Char} {c : Char} (hc : c ∈ choices) :
    readItems (.oneOf choices :: items) parts (c :: rest) = readItems items parts rest := by
  simp [readItems, Item.read, hc]

theorem readItems_number (hfield : field ≠ .year) (hsmall : n < 100) :
    readItems (.number field :: items) parts (Date.padded 2 n ++ rest) =
      readItems items (parts.set n field) rest := by
  have hwidth : field.maxDigits = 2 := by
    cases field with
    | year => exact absurd rfl hfield
    | _ => rfl
  have hexactly := Date.readExactly_padded (Date.length_toDigits_le_two hsmall) rest
  rw [← hwidth] at hexactly
  have hnumber := readNumber_of_readExactly hexactly
  rw [hwidth] at hnumber
  simp [readItems, Item.read, hnumber]

theorem readItems_year (year : Int) (hrest : EndsDigits rest) :
    readItems (.number .year :: items) parts (Date.yearChars year ++ rest) =
      readItems items (parts.set year .year) rest := by
  have hblank : skipBlanks (Date.yearChars year) = Date.yearChars year :=
    skipBlanks_eq_self_iff.2 fun _ hc => Date.isBlank_of_mem_yearChars (List.mem_of_head? hc)
  have hsome : skipBlanks (Date.yearChars year) ≠ [] := by
    rw [hblank]
    exact Date.yearChars_ne_nil year
  have hnumber : readNumber .year (skipBlanks (Date.yearChars year ++ rest)) = some (year, rest) := by
    rw [skipBlanks_append hsome, hblank]
    exact Date.readYear_yearChars year hrest
  simp [readItems, Item.read, hnumber]

namespace Parts

/-- The date among some parts, with the rest as in a text that tells nothing more. -/
def dateOnly (parts : Parts) : Parts :=
  { year := parts.year, month := parts.month, day := parts.day }

/-- The date among some parts as a text. -/
def dateChars (parts : Parts) : List Char :=
  Date.yearChars parts.year ++ '-' :: (Date.padded 2 parts.month ++ '-' :: Date.padded 2 parts.day)

theorem isBlank_of_mem_dateChars {c : Char} (hc : c ∈ parts.dateChars) : isBlank c = false := by
  simp only [dateChars, List.mem_append, List.mem_cons] at hc
  rcases hc with hc | rfl | hc | rfl | hc
  · exact Date.isBlank_of_mem_yearChars hc
  · decide
  · exact Date.isBlank_of_mem_padded hc
  · decide
  · exact Date.isBlank_of_mem_padded hc

theorem readItems_dateItems (hmonth : parts.month < 100) (hday : parts.day < 100)
    (rest : List Char) :
    readItems (Form.dateItems ++ items) {} (parts.dateChars ++ rest) =
      readItems items parts.dateOnly rest := by
  simp only [Form.dateItems, dateChars, List.append_assoc, List.cons_append, List.nil_append]
  rw [readItems_year parts.year (endsDigits_cons (by decide) _), readItems_oneOf (by decide),
    readItems_number (by decide) hmonth, readItems_oneOf (by decide),
    readItems_number (by decide) hday]
  rfl

theorem reads_dateItems (hmonth : parts.month < 100) (hday : parts.day < 100) :
    Form.dateItems.Reads parts.dateChars parts.dateOnly := by
  have hread : readItems (Form.dateItems ++ []) {} (parts.dateChars ++ []) =
      some (parts.dateOnly, []) := readItems_dateItems hmonth hday []
  rw [List.append_nil, List.append_nil] at hread
  exact hread

/-- Parts without an offset name an instant of the date that is among them. -/
theorem Name.instant?_eq {date : Date} (hname : parts.Name date) (hzero : parts.offset = 0) :
    parts.instant? = some (parts.instantOn date) := by
  have huniversal : (parts.instantOn date).universalDay = date := by
    have hday := hname.day_instantOn
    have hoffset : (parts.instantOn date).offset = 0 := hzero
    rw [Instant.day, hoffset, Int.add_zero] at hday
    exact hday
  refine instant?_eq_some_iff.2 ⟨date, hname, rfl, ?_⟩
  rw [huniversal]
  exact hname.inRange

end Parts

/-- A text without blanks is read as the form has it that reads all of it. -/
theorem parse_of_reads_of_not_blank {form : Form} (hform : form ∈ Form.all) {text : String}
    (hblank : ∀ c ∈ text.toList, isBlank c = false) (hreads : form.Reads text.toList parts)
    (nullDate : Date) : parse nullDate text = parts.instant? := by
  rw [← trimmed_of_not_blank hblank] at hreads
  exact parse_of_reads hform hreads nullDate

/-- The parts that the text of a date writes. -/
def dateParts (date : Date) : Parts := { year := date.year, month := date.month, day := date.day }

theorem toList_text (date : Date) : date.text.toList = (dateParts date).dateChars := by
  rw [Date.text, String.toList_ofList, Date.chars, List.append_assoc, List.cons_append]
  rfl

theorem name_dateParts {date : Date} (hrange : date.InRange) : (dateParts date).Name date := by
  refine ⟨date.of?_eq_self, hrange, ?_, ?_⟩
  · exact (by decide : (0 : Nat) ≤ 23 ∧ (0 : Nat) ≤ 59 ∧ (0 : Nat) ≤ 60)
  · exact (by decide : (0 : Int).natAbs < Instant.secondsPerDay.natAbs)

theorem instantOn_dateParts (date : Date) :
    (dateParts date).instantOn date = .startOfDay date := by
  simp [Parts.instantOn, Parts.clockSecond, Parts.clockNano, dateParts, Instant.startOfDay]

theorem day_startOfDay {date : Date} (hrange : date.InRange) :
    (Instant.startOfDay date).day = date := by
  rw [← instantOn_dateParts, (name_dateParts hrange).day_instantOn]

/-- The text of a date is read as the start of the date. -/
theorem parse_text {date : Date} (hrange : date.InRange) (nullDate : Date) :
    parse nullDate date.text = some (.startOfDay date) := by
  have hreads : Form.dateItems.Reads date.text.toList (dateParts date) := by
    rw [toList_text]
    exact Parts.reads_dateItems date.month_lt date.day_lt
  have hblank : ∀ c ∈ date.text.toList, isBlank c = false := by
    rw [toList_text]
    exact fun _ => Parts.isBlank_of_mem_dateChars
  rw [parse_of_reads_of_not_blank (by decide) hblank hreads, (name_dateParts hrange).instant?_eq rfl,
    instantOn_dateParts]

end Calendar

end BranchingInterview
