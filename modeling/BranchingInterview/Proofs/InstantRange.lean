import BranchingInterview.Proofs.Calendar.DateText
import BranchingInterview.Proofs.Calendar.UniversalTime
import BranchingInterview.Proofs.Calendar.WrittenDate
import BranchingInterview.Proofs.DateOrder
import BranchingInterview.Proofs.Text.DigitOrder
import Mathlib.Tactic.Ring

/-!
The range of instants. Whatever is read as an instant is within the range of dates, both in universal
time and on the clock it was read from, and has a fraction of a second and an offset that belong to a
time of day; a text that names anything beyond that range is no date.
-/

namespace BranchingInterview

open Calendar Text

/-- A moment of a day in range, on a clock that differs from universal time by whole minutes and by
less than a day. -/
structure Instant.WellFormed (instant : Instant) : Prop where
  offset_minutes : instant.offset % 60 = 0
  offset_lt : -secondsPerDay < instant.offset ∧ instant.offset < secondsPerDay
  nano_lt : instant.nano < 2000000000
  leap_second : 1000000000 ≤ instant.nano → instant.second % 60 = 59
  inRange_universalDay : instant.universalDay.InRange
  inRange_day : instant.day.InRange

namespace Calendar

variable {parts next : Parts} {chars rest : List Char}

/-! Each item reads a fraction below one second and an offset of whole minutes. -/

theorem nanosOfDigits_lt {digits : List Char} (hdigits : ∀ c ∈ digits, c.isDigit = true) :
    nanosOfDigits digits < 1000000000 := by
  have hnine : ((digits ++ List.replicate 9 '0').take 9).length = 9 := by
    rw [List.length_take, List.length_append, List.length_replicate]
    omega
  have htaken : ∀ c ∈ (digits ++ List.replicate 9 '0').take 9, c.isDigit = true := by
    intro c hc
    rcases List.mem_append.1 (List.mem_of_mem_take hc) with hdigit | hzero
    · exact hdigits c hdigit
    · rw [List.eq_of_mem_replicate hzero]
      rfl
  calc
    nanosOfDigits digits < Nat.pow 10 ((digits ++ List.replicate 9 '0').take 9).length :=
      natOfDigits_lt htaken
    _ = 1000000000 := by rw [hnine]

theorem lt_of_readFraction {nano : Nat} (hread : readFraction chars = some (nano, rest)) :
    nano < 1000000000 := by
  rw [readFraction.eq_def] at hread
  split at hread
  · next after =>
      obtain ⟨digits, left, hstarts⟩ := exists_startsWithDigits after.length after
      simp only [hstarts.spanDigits_eq] at hread
      by_cases hnone : digits.isEmpty = true
      · rw [if_pos hnone] at hread
        cases hread
      · rw [if_neg hnone] at hread
        cases hread
        exact nanosOfDigits_lt hstarts.isDigit
  · cases hread
    decide

theorem offsetSeconds_emod (sign : Int) (hours minutes : Nat) :
    offsetSeconds sign hours minutes % 60 = 0 := by
  have hminutes : offsetSeconds sign hours minutes = 60 * (sign * (60 * hours + minutes)) := by
    rw [offsetSeconds]
    ring
  rw [hminutes]
  exact Int.mul_emod_right _ _

theorem emod_of_readLooseZone {offset : Int} (hread : readLooseZone chars = some (offset, rest)) :
    offset % 60 = 0 := by
  rw [readLooseZone.eq_def] at hread
  split at hread
  · cases hread
    rfl
  · cases hread
    rfl
  · obtain ⟨⟨sign, signed⟩, -, hsigned⟩ := Option.bind_eq_some_iff.1 hread
    obtain ⟨⟨hours, after⟩, -, hafter⟩ := Option.bind_eq_some_iff.1 hsigned
    simp only at hafter
    split at hafter
    · cases hafter
      exact offsetSeconds_emod sign hours 0
    · obtain ⟨⟨minutes, left⟩, -, hpair⟩ := Option.bind_eq_some_iff.1 hafter
      cases hpair
      exact offsetSeconds_emod sign hours minutes

/-- What holds of the parts from item to item. -/
structure Parts.Sound (parts : Parts) : Prop where
  nano_lt : parts.nano < 1000000000
  offset_minutes : parts.offset % 60 = 0

theorem Item.sound_of_read {item : Item} (hsound : parts.Sound)
    (hread : item.read parts chars = some (next, rest)) : next.Sound := by
  cases item with
  | digits field width | number field =>
      obtain ⟨value, rfl⟩ := changes_of_read hread
      cases field <;> exact ⟨hsound.nano_lt, hsound.offset_minutes⟩
  | oneOf choices =>
      obtain rfl := changes_of_read hread
      exact hsound
  | fraction =>
      obtain ⟨⟨nano, left⟩, hfraction, hpair⟩ := Option.map_eq_some_iff.1 hread
      cases hpair
      exact ⟨lt_of_readFraction hfraction, hsound.offset_minutes⟩
  | zone | looseZone =>
      have hzone := emod_of_readLooseZone (readLooseZone_of_read (by decide) hread)
      obtain ⟨offset, rfl⟩ := changes_of_read hread
      exact ⟨hsound.nano_lt, hzone⟩

theorem sound_of_readItems {items : List Item} (hsound : parts.Sound)
    (hread : readItems items parts chars = some (next, rest)) : next.Sound := by
  induction items generalizing parts chars with
  | nil =>
      cases hread
      exact hsound
  | cons item items ih =>
      obtain ⟨middle, after, hitem, hitems⟩ := readItems_cons_eq_some_iff.1 hread
      exact ih (Item.sound_of_read hsound hitem) hitems

theorem Form.Reads.sound {form : Form} (hreads : form.Reads chars parts) : parts.Sound := by
  apply sound_of_readItems _ hreads
  constructor <;> decide

namespace Parts

variable {date : Date}

/-- The instant that sound parts name is well formed, if its date in universal time is in range. -/
theorem Name.wellFormed (hname : parts.Name date) (hsound : parts.Sound)
    (hrange : (parts.instantOn date).universalDay.InRange) : (parts.instantOn date).WellFormed where
  offset_minutes := hsound.offset_minutes
  offset_lt := by
    have hoffset := hname.offset
    simp only [instantOn, Instant.secondsPerDay] at hoffset ⊢
    omega
  nano_lt := by
    have hnano := hsound.nano_lt
    simp only [instantOn, clockNano]
    split <;> omega
  leap_second := by
    intro hlong
    have hnano := hsound.nano_lt
    have hoffset := hsound.offset_minutes
    by_cases hleap : parts.second = 60
    · simp only [instantOn, clockSecond, if_pos hleap, Instant.secondsPerDay]
      omega
    · simp only [instantOn, clockNano, if_neg hleap] at hlong
      omega
  inRange_universalDay := hrange
  inRange_day := by
    rw [hname.day_instantOn]
    exact hname.inRange

/-- Every part is one of a date in range, of a time of day, or of an offset of less than a day. -/
structure WithinRange (parts : Parts) : Prop where
  year : minYear ≤ parts.year ∧ parts.year ≤ maxYear
  month : 1 ≤ parts.month ∧ parts.month ≤ 12
  day : 1 ≤ parts.day ∧ parts.day ≤ daysInMonth (isLeapYear parts.year) parts.month
  time : parts.hour ≤ 23 ∧ parts.minute ≤ 59 ∧ parts.second ≤ 60
  offset : -Instant.secondsPerDay < parts.offset ∧ parts.offset < Instant.secondsPerDay

/-- The date that the parts are those of. -/
def WithinRange.dateOf (hwithin : parts.WithinRange) : Date :=
  ⟨parts.year, parts.month, parts.day, hwithin.month.1, hwithin.month.2, hwithin.day.1,
    hwithin.day.2⟩

theorem WithinRange.name (hwithin : parts.WithinRange) : parts.Name hwithin.dateOf := by
  refine ⟨hwithin.dateOf.of?_eq_self, hwithin.year, hwithin.time, ?_⟩
  have hoffset := hwithin.offset
  rw [Instant.secondsPerDay] at hoffset ⊢
  omega

theorem Name.withinRange (hname : parts.Name date) : parts.WithinRange := by
  obtain ⟨hyear, hmonth, hday⟩ := hname.year_eq
  have hoffset := hname.offset
  rw [Instant.secondsPerDay] at hoffset
  refine ⟨?_, ?_, ?_, hname.time, ?_⟩
  · rw [← hyear]
    exact hname.inRange
  · rw [← hmonth]
    exact ⟨date.month_pos, date.month_le⟩
  · rw [← hyear, ← hmonth, ← hday]
    exact ⟨date.day_pos, date.day_le⟩
  · rw [Instant.secondsPerDay]
    omega

theorem instant?_of_not_withinRange (hbeyond : ¬parts.WithinRange) : parts.instant? = none := by
  rw [Option.eq_none_iff_forall_ne_some]
  intro instant hinstant
  obtain ⟨date, hname, -, -⟩ := instant?_eq_some_iff.1 hinstant
  exact hbeyond hname.withinRange

/-- Parts that are within their ranges name the instant that they say, unless the date in universal
time is out of range. -/
theorem instant?_of_withinRange (hwithin : parts.WithinRange) :
    parts.instant? =
      if (parts.instantOn hwithin.dateOf).universalDay.InRange then
        some (parts.instantOn hwithin.dateOf)
      else none := by
  by_cases hrange : (parts.instantOn hwithin.dateOf).universalDay.InRange
  · rw [if_pos hrange]
    exact instant?_eq_some_iff.2 ⟨_, hwithin.name, rfl, hrange⟩
  · rw [if_neg hrange, Option.eq_none_iff_forall_ne_some]
    intro instant hinstant
    obtain ⟨date, hname, rfl, hinside⟩ := instant?_eq_some_iff.1 hinstant
    rw [hname.unique hwithin.name] at hinside
    exact hrange hinside

end Parts

theorem wellFormed_startOfDay {date : Date} (hrange : date.InRange) :
    (Instant.startOfDay date).WellFormed := by
  have hname := name_dateParts hrange
  have hsound : (dateParts date).Sound := ⟨show (0 : Nat) < 1000000000 by decide, rfl⟩
  have huniversal : (Instant.startOfDay date).universalDay.InRange := by
    have hday := day_startOfDay hrange
    rw [Instant.day, Instant.startOfDay, Int.add_zero] at hday
    rw [Instant.universalDay, Instant.startOfDay, hday]
    exact hrange
  rw [← instantOn_dateParts] at huniversal ⊢
  exact hname.wellFormed hsound huniversal

theorem wellFormed_of_parse {nullDate : Date} (hnull : nullDate.InRange) {text : String}
    {instant : Instant} (hparse : parse nullDate text = some instant) : instant.WellFormed := by
  by_cases htext : trimmed text.toList = nullText
  · rw [parse, if_pos htext] at hparse
    rw [← Option.some.inj hparse]
    exact wellFormed_startOfDay hnull
  · obtain ⟨form, -, parts, hreads, hinstant⟩ := exists_reads_of_parse hparse htext
    obtain ⟨date, hname, rfl, hrange⟩ := Parts.instant?_eq_some_iff.1 hinstant
    exact hname.wellFormed hreads.sound hrange

theorem ne_nullText_of_isDigit {c : Char} (hc : c ∈ chars) (hdigit : c.isDigit = true) :
    chars ≠ nullText := by
  rintro rfl
  have hletters : nullText.all (fun c => !c.isDigit) = true := by decide
  have hletter : c.isDigit = false := by simpa using List.all_eq_true.1 hletters c hc
  exact absurd hdigit (Bool.eq_false_iff.1 hletter)

/-- A year that is too large or too small to be that of a date makes a text no date. -/
theorem parse_of_year_beyond (nullDate : Date) {text : String} {year : WrittenNumber .year}
    (htext : trimmed text.toList = year.chars ++ '-' :: rest)
    (hbeyond : year.value < minYear ∨ maxYear < year.value) : parse nullDate text = none := by
  have hnull : trimmed text.toList ≠ nullText := by
    obtain ⟨c, hc⟩ := List.exists_mem_of_ne_nil _ year.digits_ne_nil
    refine ne_nullText_of_isDigit ?_ (year.isDigit_of_mem c hc)
    rw [htext, WrittenNumber.chars]
    simp [hc]
  rw [Option.eq_none_iff_forall_ne_some]
  intro instant hparse
  obtain ⟨form, hform, parts, hreads, hinstant⟩ := exists_reads_of_parse hparse hnull
  obtain ⟨date, hname, -, -⟩ := Parts.instant?_eq_some_iff.1 hinstant
  obtain ⟨written, more, hsplit, -, hyear, -⟩ := Form.exists_writtenDate hform hreads
  -- The hyphen ends the year of the text, so it is the one that the form has read.
  have hsame : written.year.value = year.value := by
    rw [htext, WrittenDate.chars, List.append_assoc, List.cons_append] at hsplit
    exact (WrittenNumber.unique (endsDigits_hyphen _) (endsDigits_hyphen _) hsplit).1.symm
  have hrange := hname.withinRange.year
  rw [hyear, hsame] at hrange
  omega

end Calendar

/-- A date operator that has two texts to compare fails on one of them, or compares the instants that
they are read as. -/
theorem Comparison.evaluate_of_texts {comparison : Comparison} {responses : Responses}
    {left right : String} (hkey : comparison.hasKey = true)
    (hdate : comparison.operator.isDate = true) (hleft : comparison.resolve responses = some left)
    (hright : comparison.operand = some right) (hpresent : left ≠ "" ∧ right ≠ "")
    (nullDate : Date) :
    (∃ text ∈ [left, right], comparison.evaluate nullDate responses = .error (.invalidDate text)) ∨
      ∃ first last, parseDate nullDate left = .ok first ∧ parseDate nullDate right = .ok last ∧
        comparison.evaluate nullDate responses = .ok (comparison.operator.Asks first last) := by
  have hresult : comparison.evaluate nullDate responses =
      comparison.operator.holds nullDate (some left) (some right) := by
    rw [← hleft, ← hright]
    exact evaluate_of_isDate hkey hdate nullDate responses
  have hboth : bothPresent (some left) (some right) = some (left, right) :=
    bothPresent_eq_some_iff.2 ⟨rfl, rfl, hpresent⟩
  obtain ⟨test, htest⟩ := Operator.exists_compareDates hdate
  cases hfirst : Calendar.parse nullDate left with
  | none =>
      refine Or.inl ⟨left, by simp, ?_⟩
      rw [hresult, htest, compareDates_of_bothPresent hboth]
      exact Or.inl (parseDate_eq_error_iff.2 ⟨hfirst, rfl⟩)
  | some first =>
      cases hlast : Calendar.parse nullDate right with
      | none =>
          refine Or.inl ⟨right, by simp, ?_⟩
          rw [hresult, htest, compareDates_of_bothPresent hboth]
          exact Or.inr ⟨⟨first, parseDate_eq_ok_iff.2 hfirst⟩, parseDate_eq_error_iff.2 ⟨hlast, rfl⟩⟩
      | some last =>
          refine Or.inr ⟨first, last, parseDate_eq_ok_iff.2 hfirst, parseDate_eq_ok_iff.2 hlast, ?_⟩
          rw [hresult, Operator.holds_of_parse hdate hfirst hlast]

/-- Parts within their ranges make a text the instant that they say, unless its date in universal time
is out of range. -/
theorem parseDate_of_withinRange {text : String} {form : Form} {parts : Parts}
    (hform : form ∈ Form.all) (hreads : form.Reads (trimmed text.toList) parts)
    (hwithin : parts.WithinRange) (nullDate : Date) :
    parseDate nullDate text =
      if (parts.instantOn hwithin.dateOf).universalDay.InRange then
        .ok (parts.instantOn hwithin.dateOf)
      else .error (.invalidDate text) := by
  have hparse := parse_of_reads hform hreads nullDate
  rw [Parts.instant?_of_withinRange hwithin] at hparse
  by_cases hrange : (parts.instantOn hwithin.dateOf).universalDay.InRange
  · rw [if_pos hrange]
    exact parseDate_eq_ok_iff.2 (hparse.trans (if_pos hrange))
  · rw [if_neg hrange]
    exact parseDate_eq_error_iff.2 ⟨hparse.trans (if_neg hrange), rfl⟩

theorem parseDate_of_not_withinRange {text : String} {form : Form} {parts : Parts}
    (hform : form ∈ Form.all) (hreads : form.Reads (trimmed text.toList) parts)
    (hbeyond : ¬parts.WithinRange) (nullDate : Date) :
    parseDate nullDate text = .error (.invalidDate text) := by
  have hparse := parse_of_reads hform hreads nullDate
  rw [Parts.instant?_of_not_withinRange hbeyond] at hparse
  exact parseDate_eq_error_iff.2 ⟨hparse, rfl⟩

/-- What is read as an instant is well formed, so dates are compared within their range. What a form
reads is the instant that its parts say, and no date if a part or the date in universal time is out of
range; a year of any number of digits that is out of range makes a text no date. -/
theorem parseDate_wellFormed {nullDate : Date} (hnull : nullDate.InRange) :
    (∀ text instant, parseDate nullDate text = .ok instant → instant.WellFormed) ∧
      (∀ (comparison : Comparison) (responses : Responses) (left right : String),
        comparison.hasKey = true → comparison.operator.isDate = true →
        comparison.resolve responses = some left → comparison.operand = some right →
        left ≠ "" ∧ right ≠ "" →
        (∃ text ∈ [left, right],
          comparison.evaluate nullDate responses = .error (.invalidDate text)) ∨
          ∃ first last, first.WellFormed ∧ last.WellFormed ∧
            parseDate nullDate left = .ok first ∧ parseDate nullDate right = .ok last ∧
            comparison.evaluate nullDate responses = .ok (comparison.operator.Asks first last)) ∧
      (∀ text, ∀ form ∈ Form.all, ∀ parts, form.Reads (trimmed text.toList) parts →
        (∀ hwithin : parts.WithinRange,
          let instant := parts.instantOn hwithin.dateOf
          parseDate nullDate text =
            if instant.universalDay.InRange then .ok instant else .error (.invalidDate text)) ∧
          (¬parts.WithinRange → parseDate nullDate text = .error (.invalidDate text))) ∧
      ∀ text (year : WrittenNumber .year) rest,
        trimmed text.toList = year.chars ++ '-' :: rest →
        year.value < minYear ∨ maxYear < year.value →
          parseDate nullDate text = .error (.invalidDate text) := by
  have hformed {text : String} {instant : Instant}
      (hread : parseDate nullDate text = .ok instant) : instant.WellFormed :=
    wellFormed_of_parse hnull (parseDate_eq_ok_iff.1 hread)
  refine ⟨fun _ _ => hformed, ?_, ?_, ?_⟩
  · intro comparison responses left right hkey hdate hleft hright hpresent
    rcases Comparison.evaluate_of_texts hkey hdate hleft hright hpresent nullDate with
      hfails | ⟨first, last, hfirst, hlast, hresult⟩
    · exact Or.inl hfails
    · exact Or.inr ⟨first, last, hformed hfirst, hformed hlast, hfirst, hlast, hresult⟩
  · intro text form hform parts hreads
    exact ⟨fun hwithin => parseDate_of_withinRange hform hreads hwithin nullDate,
      fun hbeyond => parseDate_of_not_withinRange hform hreads hbeyond nullDate⟩
  · intro text year rest htext hbeyond
    exact parseDate_eq_error_iff.2 ⟨parse_of_year_beyond nullDate htext hbeyond, rfl⟩

/-- The last leap second of all, the same on a clock that is behind universal time, and a year of
twenty-one digits; `null` stands for the first day of all. -/
theorem parseDate_wellFormed_lastSecond :
    let first : Date := ⟨-262143, 1, 1, by decide, by decide, by decide, by decide⟩
    let last := "+262142-12-31T23:59:60.9999999999 z"
    let beyond := "+262142-12-31T23:59:60-00:01"
    let distant := "+100000000000000000000-01-01"
    let comparison : Comparison := { operator := .after, key := some "q", operand := some "null" }
    let answered : Responses := .ofList [("q", { answer := .text last })]
    first.InRange ∧ parseDate first last = .ok ⟨endSecond - 1, 1999999999, 0⟩ ∧
      Instant.WellFormed ⟨endSecond - 1, 1999999999, 0⟩ ∧
      (Instant.startOfDay first).WellFormed ∧
      ((∃ text ∈ [last, "null"],
        comparison.evaluate first answered = .error (.invalidDate text)) ∨
          ∃ instant other, instant.WellFormed ∧ other.WellFormed ∧
            comparison.evaluate first answered = .ok (Operator.after.Asks instant other)) ∧
      parseDate first beyond = .error (.invalidDate beyond) ∧
      parseDate first distant = .error (.invalidDate distant) := by
  intro first last beyond distant comparison answered
  have hrange : first.InRange := by decide
  have hlast : parseDate first last = .ok ⟨endSecond - 1, 1999999999, 0⟩ := by decide +kernel
  have hnull : parseDate first "null" = .ok (.startOfDay first) := by decide +kernel
  have hresolve : comparison.resolve answered = some last := by decide +kernel
  obtain ⟨hformed, hcompare, hreads, hyear⟩ := parseDate_wellFormed hrange
  have hcompared := hcompare comparison answered last "null" (by decide) (by decide) hresolve rfl
    (by decide)
  refine ⟨hrange, hlast, hformed _ _ hlast, hformed _ _ hnull, ?_, ?_, ?_⟩
  · refine hcompared.imp_right ?_
    rintro ⟨instant, other, hinstant, hother, -, -, hresult⟩
    exact ⟨instant, other, hinstant, hother, hresult⟩
  · let parts : Parts := ⟨262142, 12, 31, 23, 59, 60, 0, -60⟩
    have hbeyond : Form.secondsWithZone.Reads (trimmed beyond.toList) parts := by
      change readItems Form.secondsWithZone {} (trimmed beyond.toList) = some (parts, [])
      decide +kernel
    have hwithin : parts.WithinRange := by constructor <;> decide
    let date : Date := ⟨262142, 12, 31, by decide, by decide, by decide, by decide⟩
    have hafter : ¬(parts.instantOn date).universalDay.InRange := by decide +kernel
    exact ((hreads beyond _ (by decide) parts hbeyond).1 hwithin).trans (if_neg hafter)
  · let year : WrittenNumber .year :=
      ⟨[], ['+'], 1, "100000000000000000000".toList, List.forall_mem_nil _, by decide,
        List.all_eq_true.1 (by decide), by decide⟩
    exact hyear distant year "01-01".toList (by decide +kernel) (Or.inr (by decide +kernel))

end BranchingInterview
