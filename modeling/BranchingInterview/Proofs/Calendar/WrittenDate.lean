import BranchingInterview.Proofs.Calendar.FormOrder
import BranchingInterview.Proofs.Calendar.Instants
import BranchingInterview.Proofs.DateOrder
import BranchingInterview.Proofs.Evaluation

/-!
Dates as they are written. A text that is read as an instant has the date of that instant at its
head, whatever time and offset follow; so two texts fall on the same day if the same date is written
at their heads.
-/

namespace BranchingInterview

open Calendar Text

namespace Calendar

/-- The signs that a number may have: only a year has one. -/
def Field.signs : Field → List (List Char × Int)
  | .year => [([], 1), (['+'], 1), (['-'], -1)]
  | _ => [([], 1)]

/-- A number as it is written: blanks, a sign that the field may have, and digits. -/
structure WrittenNumber (field : Field) where
  blanks : List Char
  sign : List Char
  factor : Int
  digits : List Char
  isBlank_of_mem : ∀ c ∈ blanks, isBlank c = true
  sign_mem : (sign, factor) ∈ field.signs
  isDigit_of_mem : ∀ c ∈ digits, c.isDigit = true
  digits_ne_nil : digits ≠ []

namespace WrittenNumber

variable {field : Field}

def chars (number : WrittenNumber field) : List Char :=
  number.blanks ++ (number.sign ++ number.digits)

def value (number : WrittenNumber field) : Int := number.factor * natOfDigits number.digits

end WrittenNumber

/-- A date as it is written: year, month and day, with hyphens between them. -/
structure WrittenDate where
  year : WrittenNumber .year
  month : WrittenNumber .month
  day : WrittenNumber .day

def WrittenDate.chars (written : WrittenDate) : List Char :=
  written.year.chars ++ '-' :: (written.month.chars ++ '-' :: written.day.chars)

/-- The numbers at the head of a text, to the last digit of the third, are those of a date. -/
def Writes (chars : List Char) (date : Date) : Prop :=
  ∃ (written : WrittenDate) (rest : List Char),
    chars = written.chars ++ rest ∧ EndsDigits rest ∧
      date.year = written.year.value ∧ date.month = written.month.value ∧
      date.day = written.day.value

/-! A text writes one date only. -/

/-- A text has one head that satisfies a test and ends where the test fails. -/
theorem eq_of_append_eq {test : Char → Bool} {first second rest more : List Char}
    (hfirst : ∀ c ∈ first, test c = true) (hrest : ∀ c ∈ rest.head?, test c = false)
    (hsecond : ∀ c ∈ second, test c = true) (hmore : ∀ c ∈ more.head?, test c = false)
    (heq : first ++ rest = second ++ more) : first = second ∧ rest = more := by
  have hsame : first = second := by
    rw [← takeWhile_append_eq hfirst hrest, heq, takeWhile_append_eq hsecond hmore]
  rw [hsame] at heq
  exact ⟨hsame, List.append_cancel_left heq⟩

namespace Field

theorem not_blank_or_digit_of_sign (field : Field) : ∀ pair ∈ field.signs, ∀ c ∈ pair.1,
    isBlank c = false ∧ c.isDigit = false := by
  have hall : ∀ pair ∈ field.signs, (pair.1.all fun c => !isBlank c && !c.isDigit) = true := by
    cases field <;> decide
  intro pair hpair c hc
  simpa using List.all_eq_true.1 (hall pair hpair) c hc

theorem unsigned_mem (field : Field) : ([], 1) ∈ field.signs := by
  cases field <;> decide

theorem factor_unique (field : Field) : ∀ pair ∈ field.signs, ∀ other ∈ field.signs,
    pair.1 = other.1 → pair.2 = other.2 := by
  cases field <;> decide

end Field

namespace WrittenNumber

variable {field : Field}

theorem isDigit_head (number : WrittenNumber field) (rest : List Char) :
    ∀ c ∈ (number.digits ++ rest).head?, c.isDigit = true := by
  intro c hc
  cases hdigits : number.digits with
  | nil => exact absurd hdigits number.digits_ne_nil
  | cons digit digits =>
      rw [hdigits] at hc
      cases hc
      exact number.isDigit_of_mem c (by simp [hdigits])

theorem not_blank_head (number : WrittenNumber field) (rest : List Char) :
    ∀ c ∈ (number.sign ++ (number.digits ++ rest)).head?, isBlank c = false := by
  intro c hc
  cases hsign : number.sign with
  | nil =>
      rw [hsign, List.nil_append] at hc
      exact isBlank_of_isDigit (number.isDigit_head rest c hc)
  | cons mark sign =>
      rw [hsign] at hc
      cases hc
      exact (field.not_blank_or_digit_of_sign _ number.sign_mem c (by simp [hsign])).1

theorem unique {first second : WrittenNumber field} {rest more : List Char}
    (hrest : EndsDigits rest) (hmore : EndsDigits more)
    (heq : first.chars ++ rest = second.chars ++ more) :
    first.value = second.value ∧ rest = more := by
  -- Blanks, sign and digits come off one after the other, each up to the first other character.
  simp only [chars, List.append_assoc] at heq
  have hsigned := (eq_of_append_eq first.isBlank_of_mem (first.not_blank_head rest)
    second.isBlank_of_mem (second.not_blank_head more) heq).2
  have hmark (number : WrittenNumber field) : ∀ c ∈ number.sign, (!c.isDigit) = true := by
    intro c hc
    rw [(field.not_blank_or_digit_of_sign _ number.sign_mem c hc).2, Bool.not_false]
  have hhead (number : WrittenNumber field) (rest : List Char) :
      ∀ c ∈ (number.digits ++ rest).head?, (!c.isDigit) = false := by
    intro c hc
    rw [number.isDigit_head rest c hc, Bool.not_true]
  obtain ⟨hsign, hunsigned⟩ :=
    eq_of_append_eq (hmark first) (hhead first rest) (hmark second) (hhead second more) hsigned
  obtain ⟨hdigits, htail⟩ :=
    eq_of_append_eq first.isDigit_of_mem hrest second.isDigit_of_mem hmore hunsigned
  have hfactor : first.factor = second.factor :=
    field.factor_unique _ first.sign_mem _ second.sign_mem hsign
  exact ⟨by rw [value, value, hfactor, hdigits], htail⟩

end WrittenNumber

theorem endsDigits_hyphen (rest : List Char) : EndsDigits ('-' :: rest) :=
  endsDigits_cons (by decide) rest

theorem Writes.unique {chars : List Char} {one other : Date} (hone : Writes chars one)
    (hother : Writes chars other) : one = other := by
  obtain ⟨first, rest, rfl, hrest, hyear, hmonth, hday⟩ := hone
  obtain ⟨second, more, heq, hmore, hyear', hmonth', hday'⟩ := hother
  simp only [WrittenDate.chars, List.append_assoc, List.cons_append] at heq
  obtain ⟨hsameYear, hafterYear⟩ :=
    WrittenNumber.unique (endsDigits_hyphen _) (endsDigits_hyphen _) heq
  obtain ⟨hsameMonth, hafterMonth⟩ :=
    WrittenNumber.unique (endsDigits_hyphen _) (endsDigits_hyphen _) (List.cons.inj hafterYear).2
  obtain ⟨hsameDay, -⟩ := WrittenNumber.unique hrest hmore (List.cons.inj hafterMonth).2
  ext
  · rw [hyear, hyear', hsameYear]
  · rw [← Int.natCast_inj, hmonth, hmonth', hsameMonth]
  · rw [← Int.natCast_inj, hday, hday', hsameDay]

/-! Each form reads a written date, and keeps it. -/

variable {field : Field} {parts next : Parts} {chars rest : List Char}

theorem exists_writtenNumber {limit value : Nat} {blanks sign after : List Char} {factor : Int}
    (hblanks : ∀ c ∈ blanks, isBlank c = true) (hsign : (sign, factor) ∈ field.signs)
    (hread : readDigits limit after = some (value, rest)) :
    ∃ number : WrittenNumber field, blanks ++ (sign ++ after) = number.chars ++ rest ∧
      number.value = factor * value := by
  obtain ⟨digits, hstarts, hdigits, rfl⟩ := readDigits_eq_some_iff.1 hread
  refine ⟨⟨blanks, sign, factor, digits, hblanks, hsign, hstarts.isDigit, hdigits⟩, ?_, rfl⟩
  simp only [WrittenNumber.chars, hstarts.split, List.append_assoc]

theorem exists_writtenNumber_of_readNumber {blanks : List Char} {value : Int}
    (hblanks : ∀ c ∈ blanks, isBlank c = true)
    (hread : readNumber field chars = some (value, rest)) :
    ∃ number : WrittenNumber field, blanks ++ chars = number.chars ++ rest ∧
      number.value = value := by
  cases field with
  | year =>
      obtain ⟨sign, factor, after, limit, number, rfl, hsign, hdigits, rfl⟩ :=
        readYear_eq_some_iff.1 hread
      have hmem : (sign, factor) ∈ Field.year.signs := by cases hsign <;> decide
      exact exists_writtenNumber hblanks hmem hdigits
  | _ =>
      obtain ⟨⟨number, left⟩, hdigits, hpair⟩ := Option.map_eq_some_iff.1 hread
      cases hpair
      obtain ⟨written, hsplit, hvalue⟩ :=
        exists_writtenNumber hblanks (Field.unsigned_mem _) hdigits
      exact ⟨written, hsplit, by rw [hvalue, Int.one_mul]⟩

/-- Whether an item reads the number of a field. -/
def Item.isNumberOf (field : Field) : Item → Bool
  | .digits other width => other == field && 0 < width
  | .number other => other == field
  | _ => false

theorem Item.exists_writtenNumber_of_read {item : Item} (hnumber : item.isNumberOf field = true)
    (hread : item.read parts chars = some (next, rest)) :
    ∃ number : WrittenNumber field, chars = number.chars ++ rest ∧
      next = parts.set number.value field := by
  cases item with
  | digits other width =>
      rw [isNumberOf, Bool.and_eq_true, beq_iff_eq, decide_eq_true_eq] at hnumber
      obtain ⟨rfl, hwidth⟩ := hnumber
      obtain ⟨⟨value, left⟩, hexactly, hpair⟩ := Option.map_eq_some_iff.1 hread
      cases hpair
      obtain ⟨number, hsplit, hvalue⟩ := exists_writtenNumber (List.forall_mem_nil _)
        other.unsigned_mem (readDigits_of_readExactly hexactly hwidth)
      exact ⟨number, hsplit, by rw [hvalue, Int.one_mul]⟩
  | number other =>
      rw [isNumberOf, beq_iff_eq] at hnumber
      subst hnumber
      obtain ⟨⟨value, left⟩, hvalue, hpair⟩ := Option.map_eq_some_iff.1 hread
      cases hpair
      have hblanks : ∀ c ∈ chars.takeWhile isBlank, isBlank c = true :=
        fun c hc => List.mem_takeWhile_imp hc
      obtain ⟨number, hsplit, rfl⟩ := exists_writtenNumber_of_readNumber hblanks hvalue
      refine ⟨number, ?_, rfl⟩
      rw [← hsplit, skipBlanks, List.takeWhile_append_dropWhile]
  | _ => cases hnumber

theorem WrittenNumber.natCast_toNat_value (number : WrittenNumber field) (hfield : field ≠ .year) :
    (number.value.toNat : Int) = number.value := by
  have hfactor : ∀ pair ∈ field.signs, pair.2 = 1 := by
    cases field with
    | year => exact absurd rfl hfield
    | _ => decide
  have hone : number.factor = 1 := hfactor _ number.sign_mem
  rw [value, hone, Int.one_mul, Int.toNat_natCast]

/-- Whether an item leaves the date as it is. -/
def Item.keepsDate : Item → Bool
  | .digits field _ | .number field => !([.year, .month, .day] : List Field).contains field
  | _ => true

theorem Item.date_eq_of_keepsDate {item : Item} (hkeeps : item.keepsDate = true)
    (hchanges : item.Changes parts next) :
    (next.year, next.month, next.day) = (parts.year, parts.month, parts.day) := by
  cases item with
  | digits field width | number field =>
      obtain ⟨value, rfl⟩ := hchanges
      cases field with
      | year | month | day => cases hkeeps
      | _ => rfl
  | oneOf choices => rw [hchanges]
  | _ =>
      obtain ⟨value, rfl⟩ := hchanges
      rfl

/-- Whether some items keep the date, and cannot go on with the last number of it. -/
def Form.endsDate : Form → Bool
  | [] => true
  | .oneOf choices :: items => (choices.all fun c => !c.isDigit) && items.all Item.keepsDate
  | _ => false

/-- Whether the first items of a form read a written date, which the others keep. -/
def Form.startsWithDate : Form → Bool
  | year :: .oneOf ['-'] :: month :: .oneOf ['-'] :: day :: items =>
      year.isNumberOf .year && month.isNumberOf .month && day.isNumberOf .day && endsDate items
  | _ => false

theorem Form.endsDigits_of_endsDate {items : List Item} (hends : endsDate items = true)
    (hread : readItems items parts chars = some (next, [])) : EndsDigits chars := by
  rw [endsDate.eq_def] at hends
  split at hends
  · cases hread
    exact endsDigits_nil
  · next choices items =>
      rw [Bool.and_eq_true] at hends
      obtain ⟨middle, after, hitem, -⟩ := readItems_cons_eq_some_iff.1 hread
      obtain ⟨c, hc, rfl, -⟩ := Item.read_oneOf_eq_some_iff.1 hitem
      have hdigit : c.isDigit = false := by simpa using List.all_eq_true.1 hends.1 c hc
      exact endsDigits_cons hdigit after
  · cases hends

theorem Form.date_eq_of_endsDate {items : List Item} (hends : endsDate items = true)
    (hread : readItems items parts chars = some (next, rest)) :
    (next.year, next.month, next.day) = (parts.year, parts.month, parts.day) := by
  have hkeeps : items.all Item.keepsDate = true := by
    rw [endsDate.eq_def] at hends
    split at hends
    · rfl
    · rw [Bool.and_eq_true] at hends
      exact hends.2
    · cases hends
  exact readItems_keeps (fun parts => (parts.year, parts.month, parts.day))
    (fun item hitem _ _ => Item.date_eq_of_keepsDate (List.all_eq_true.1 hkeeps item hitem)) hread

/-- The numbers of a written date are those that a form has read. -/
theorem Form.exists_writtenDate {form : Form} (hform : form ∈ all) (hreads : form.Reads chars parts) :
    ∃ (written : WrittenDate) (rest : List Char),
      chars = written.chars ++ rest ∧ EndsDigits rest ∧ parts.year = written.year.value ∧
        parts.month = written.month.value ∧ parts.day = written.day.value := by
  have hall : ∀ form ∈ all, form.startsWithDate = true := by decide
  have hstarts := hall form hform
  rw [startsWithDate.eq_def] at hstarts
  split at hstarts
  · next yearItem monthItem dayItem items =>
      -- Five items read the date; the text before each of them is what the item before it left.
      simp only [Bool.and_eq_true] at hstarts
      obtain ⟨⟨⟨hyearItem, hmonthItem⟩, hdayItem⟩, hitems⟩ := hstarts
      obtain ⟨_, _, hreadYear, hafterYear⟩ := readItems_cons_eq_some_iff.1 hreads
      obtain ⟨_, _, hhyphen, hfromMonth⟩ := readItems_cons_eq_some_iff.1 hafterYear
      obtain ⟨_, _, hreadMonth, hafterMonth⟩ := readItems_cons_eq_some_iff.1 hfromMonth
      obtain ⟨_, _, hhyphen', hfromDay⟩ := readItems_cons_eq_some_iff.1 hafterMonth
      obtain ⟨_, rest, hreadDay, hafterDay⟩ := readItems_cons_eq_some_iff.1 hfromDay
      obtain ⟨year, rfl, rfl⟩ := Item.exists_writtenNumber_of_read hyearItem hreadYear
      obtain ⟨_, hc, rfl, rfl⟩ := Item.read_oneOf_eq_some_iff.1 hhyphen
      obtain ⟨month, rfl, rfl⟩ := Item.exists_writtenNumber_of_read hmonthItem hreadMonth
      obtain ⟨_, hc', rfl, rfl⟩ := Item.read_oneOf_eq_some_iff.1 hhyphen'
      obtain ⟨day, rfl, rfl⟩ := Item.exists_writtenNumber_of_read hdayItem hreadDay
      obtain rfl := List.mem_singleton.1 hc
      obtain rfl := List.mem_singleton.1 hc'
      have hdate := date_eq_of_endsDate hitems hafterDay
      simp only [Parts.set, Prod.mk.injEq] at hdate
      obtain ⟨hyear, hmonth, hday⟩ := hdate
      refine ⟨⟨year, month, day⟩, rest, ?_, endsDigits_of_endsDate hitems hafterDay, hyear, ?_, ?_⟩
      · simp only [WrittenDate.chars, List.append_assoc, List.cons_append]
      · rw [hmonth, month.natCast_toNat_value (by decide)]
      · rw [hday, day.natCast_toNat_value (by decide)]
  · cases hstarts

/-- A text other than `null` writes the date on which its instant falls, and no other. -/
theorem writes_iff_day_eq {nullDate : Date} {text : String} {instant : Instant}
    (hparse : parse nullDate text = some instant) (hnull : Text.trimmed text.toList ≠ nullText)
    (date : Date) : Writes (Text.trimmed text.toList) date ↔ instant.day = date := by
  obtain ⟨form, hform, parts, hreads, hinstant⟩ := exists_reads_of_parse hparse hnull
  obtain ⟨found, hname, rfl, -⟩ := Parts.instant?_eq_some_iff.1 hinstant
  obtain ⟨hyear, hmonth, hday⟩ := hname.year_eq
  obtain ⟨written, rest, hsplit, hends, hwritten⟩ := Form.exists_writtenDate hform hreads
  rw [← hyear, ← hmonth, ← hday] at hwritten
  have hwrites : Writes (Text.trimmed text.toList) found :=
    ⟨written, rest, hsplit, hends, hwritten⟩
  rw [hname.day_instantOn]
  constructor
  · exact hwrites.unique
  · rintro rfl
    exact hwrites

end Calendar

/-- A text that is read as an instant writes the date that the instant falls on, so the operator for
equal dates asks whether the written dates are the same. -/
theorem equalsDate_of_written (nullDate : Date) :
    (∀ text instant, parseDate nullDate text = .ok instant →
      Text.trimmed text.toList ≠ nullText →
        ∀ date, Writes (Text.trimmed text.toList) date ↔ instant.day = date) ∧
      ∀ (comparison : Comparison) (responses : Responses) (left right : String),
        comparison.hasKey = true → comparison.operator = .equalsDate →
        comparison.resolve responses = some left → comparison.operand = some right →
        (∃ instant, parseDate nullDate left = .ok instant) →
        (∃ instant, parseDate nullDate right = .ok instant) →
        Text.trimmed left.toList ≠ nullText → Text.trimmed right.toList ≠ nullText →
          ∃ one other, Writes (Text.trimmed left.toList) one ∧
            Writes (Text.trimmed right.toList) other ∧
            comparison.evaluate nullDate responses = .ok (decide (one = other)) := by
  refine ⟨?_, ?_⟩
  · intro text instant hread hnull date
    exact writes_iff_day_eq (parseDate_eq_ok_iff.1 hread) hnull date
  · rintro comparison responses left right hkey hoperator hleft hright ⟨first, hfirst⟩
      ⟨second, hsecond⟩ hnull hnull'
    rw [parseDate_eq_ok_iff] at hfirst hsecond
    refine ⟨first.day, second.day, ?_, ?_, ?_⟩
    · exact (writes_iff_day_eq hfirst hnull _).2 rfl
    · exact (writes_iff_day_eq hsecond hnull' _).2 rfl
    · have hdate : comparison.operator.isDate = true := by rw [hoperator]; rfl
      have hresult : comparison.evaluate nullDate responses = _ :=
        Comparison.evaluate_of_isDate hkey hdate nullDate responses
      rw [hresult, hleft, hright, hoperator]
      exact compareDates_of_parse hfirst hsecond _

/-- A leap second of a day before the era, late on a clock that is behind universal time, and the
same day written otherwise. -/
theorem equalsDate_of_written_leapSecond :
    let late := "-0044-03-15T23:59:60.5-05:00"
    let plain := " -44-3- 15 "
    let date : Date := ⟨-44, 3, 15, by decide, by decide, by decide, by decide⟩
    let comparison : Comparison :=
      { operator := .equalsDate, key := some "q", operand := some plain }
    let answered : Responses := .ofList [("q", { answer := .text late })]
    Writes (Text.trimmed late.toList) date ∧ Writes (Text.trimmed plain.toList) date ∧
      comparison.hasKey = true ∧ comparison.resolve answered = some late ∧
      comparison.evaluate .epoch answered = .ok true := by
  intro late plain date comparison answered
  obtain ⟨hwrites, hequals⟩ := equalsDate_of_written .epoch
  have hkey : comparison.hasKey = true := by decide
  have hresolve : comparison.resolve answered = some late := by decide +kernel
  have hnull : Text.trimmed late.toList ≠ nullText := by decide +kernel
  have hnull' : Text.trimmed plain.toList ≠ nullText := by decide +kernel
  have hlate : parseDate .epoch late = .ok ⟨-63549255601, 1500000000, -18000⟩ := by decide +kernel
  have hplain : parseDate .epoch plain = .ok ⟨-63549360000, 0, 0⟩ := by decide +kernel
  have hdate := (hwrites late _ hlate hnull date).2 (by decide +kernel)
  have hdate' := (hwrites plain _ hplain hnull' date).2 (by decide +kernel)
  obtain ⟨one, other, hone, hother, hresult⟩ := hequals comparison answered late plain hkey rfl
    hresolve rfl ⟨_, hlate⟩ ⟨_, hplain⟩ hnull hnull'
  rw [hone.unique hdate, hother.unique hdate'] at hresult
  exact ⟨hdate, hdate', hkey, hresolve, by simpa using hresult⟩

end BranchingInterview
