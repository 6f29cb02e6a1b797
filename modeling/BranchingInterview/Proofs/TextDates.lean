import BranchingInterview.Proofs.Calendar.FixedWidth
import BranchingInterview.Proofs.DateOrder
import BranchingInterview.Proofs.TextOrder
import Mathlib.Data.String.Basic

/-!
Dates that are compared as texts. Among dates that are written with all their digits, and among times
of universal time that are, the operators for texts tell what the operators for dates tell.
-/

namespace BranchingInterview

open Calendar Text

variable {nullDate : Date} {text left right : String} {instant first second : Instant}

/-! The parts that a valid text of a shape writes. -/

namespace Calendar.Parts

theorem exists_of_date (hshape : HasShape text "0000-00-00")
    (hparse : parse nullDate text = some instant) :
    ∃ parts date, FixedWidth parts ∧ parts.dateOnly = parts ∧ parts.Name date ∧
      parts.instantOn date = instant ∧ text.toList = parts.dateChars := by
  rw [HasShape, ← List.append_nil "0000-00-00".toList] at hshape
  obtain ⟨parts, after, hwidth, honly, hchars, hafter⟩ := exists_date_of_shape hshape
  rw [List.map_eq_nil_iff.1 hafter, List.append_nil] at hchars
  have hblank : ∀ c ∈ text.toList, isBlank c = false := by
    rw [hchars]
    exact fun _ => isBlank_of_mem_dateChars
  have hreads : Form.dateItems.Reads text.toList parts := by
    rw [hchars, ← honly]
    exact reads_dateItems hwidth.month_lt hwidth.day_lt
  rw [parse_of_reads_of_not_blank (by decide) hblank hreads] at hparse
  obtain ⟨date, hname, hinstant, -⟩ := instant?_eq_some_iff.1 hparse
  exact ⟨parts, date, hwidth, honly, hname, hinstant, hchars⟩

theorem exists_of_moment (hshape : HasShape text "0000-00-00T00:00:00Z")
    (hparse : parse nullDate text = some instant) :
    ∃ parts date, FixedWidth parts ∧ parts.Name date ∧ parts.instantOn date = instant ∧
      text.toList = parts.dateChars ++ parts.clockChars := by
  have hmarks : "0000-00-00T00:00:00Z".toList = "0000-00-00".toList ++ "T00:00:00Z".toList := by
    decide
  rw [HasShape, hmarks] at hshape
  obtain ⟨day, after, hday, -, hchars, hafter⟩ := exists_date_of_shape hshape
  obtain ⟨parts, hwidth, hdate, rfl⟩ := exists_clock_of_shape hday hafter
  rw [← hdate] at hchars
  have hblank : ∀ c ∈ text.toList, isBlank c = false := by
    intro c hc
    rw [hchars] at hc
    rcases List.mem_append.1 hc with hc | hc
    · exact isBlank_of_mem_dateChars hc
    · exact isBlank_of_mem_clockChars hc
  have hreads : Form.secondsWithZone.Reads text.toList parts := by
    rw [hchars]
    exact hwidth.reads
  rw [parse_of_reads_of_not_blank (by decide) hblank hreads] at hparse
  obtain ⟨date, hname, hinstant, -⟩ := instant?_eq_some_iff.1 hparse
  exact ⟨parts, date, hwidth, hname, hinstant, hchars⟩

end Calendar.Parts

/-! Valid texts of one shape are ordered like the instants that they write. -/

theorem lt_iff_of_dates (hleft : HasShape left "0000-00-00") (hright : HasShape right "0000-00-00")
    (hfirst : parse nullDate left = some first) (hsecond : parse nullDate right = some second) :
    left < right ↔ first < second := by
  obtain ⟨day, date, hwidth, honly, hname, rfl, hchars⟩ := Parts.exists_of_date hleft hfirst
  obtain ⟨later, other, hwidth', honly', hname', rfl, hchars'⟩ := Parts.exists_of_date hright hsecond
  calc
    left < right ↔ day.dateChars ++ [] < later.dateChars ++ [] := by
      rw [String.lt_iff_toList_lt, hchars, hchars', List.append_nil, List.append_nil]
    _ ↔ day.dateOnly.Precedes later.dateOnly := by
      rw [Parts.dateChars_append_lt_iff hwidth hwidth']
      simp only [Parts.Precedes, Parts.dateOnly, List.lt_irrefl, Nat.lt_irrefl, and_false, or_false]
    _ ↔ day.Precedes later := by rw [honly, honly']
    _ ↔ day.instantOn date < later.instantOn other :=
      (hname.instantOn_lt_iff hname' hwidth hwidth').symm

theorem eq_iff_of_dates (hleft : HasShape left "0000-00-00") (hright : HasShape right "0000-00-00")
    (hfirst : parse nullDate left = some first) (hsecond : parse nullDate right = some second) :
    left = right ↔ first.day = second.day := by
  constructor
  · rintro rfl
    rw [Option.some.inj (hfirst.symm.trans hsecond)]
  · intro hday
    obtain ⟨day, date, -, -, hname, rfl, hchars⟩ := Parts.exists_of_date hleft hfirst
    obtain ⟨later, other, -, -, hname', rfl, hchars'⟩ := Parts.exists_of_date hright hsecond
    rw [hname.day_instantOn, hname'.day_instantOn] at hday
    obtain ⟨hyear, hmonth, hday⟩ := hday ▸ hname.year_eq
    obtain ⟨hyear', hmonth', hday'⟩ := hname'.year_eq
    rw [← String.toList_inj, hchars, hchars', Parts.dateChars, Parts.dateChars, ← hyear, ← hmonth,
      ← hday, ← hyear', ← hmonth', ← hday']

theorem lt_iff_of_moments (hleft : HasShape left "0000-00-00T00:00:00Z")
    (hright : HasShape right "0000-00-00T00:00:00Z")
    (hfirst : parse nullDate left = some first) (hsecond : parse nullDate right = some second) :
    left < right ↔ first < second := by
  obtain ⟨moment, date, hwidth, hname, rfl, hchars⟩ := Parts.exists_of_moment hleft hfirst
  obtain ⟨later, other, hwidth', hname', rfl, hchars'⟩ := Parts.exists_of_moment hright hsecond
  calc
    left < right ↔ moment.dateChars ++ moment.clockChars < later.dateChars ++ later.clockChars := by
      rw [String.lt_iff_toList_lt, hchars, hchars']
    _ ↔ moment.Precedes later := by
      rw [Parts.dateChars_append_lt_iff hwidth hwidth', Parts.clockChars_lt_iff hwidth hwidth']
      exact Iff.rfl
    _ ↔ moment.instantOn date < later.instantOn other :=
      (hname.instantOn_lt_iff hname' hwidth hwidth').symm

/-! The operators for texts and those for dates, on texts that are ordered like their instants. -/

namespace Operator

/-- The operators for texts, each with the one that asks the same of dates. -/
def ofDates : List (Operator × Operator) :=
  [(gt, after), (gte, afterOrEqual), (lt, before), (lte, beforeOrEqual)]

theorem holds_eq_of_lt_iff (hfirst : parse nullDate left = some first)
    (hsecond : parse nullDate right = some second) (hearlier : left < right ↔ first < second)
    (hlater : right < left ↔ second < first) :
    ∀ pair ∈ ofDates, pair.1.holds nullDate (some left) (some right) =
      pair.2.holds nullDate (some left) (some right) := by
  have hfamilies : ∀ pair ∈ ofDates, pair.1.isNumber = true ∧ pair.2.isDate = true := by decide
  intro pair hpair
  obtain ⟨hnumber, hdate⟩ := hfamilies pair hpair
  have hasks : pair.1.orders left right = decide (pair.2.Asks first second) := by
    simp only [ofDates, List.mem_cons, List.not_mem_nil, or_false] at hpair
    rcases hpair with rfl | rfl | rfl | rfl
    · exact decide_eq_decide.2 hlater
    · exact decide_eq_decide.2 (String.not_lt.symm.trans (not_congr hearlier))
    · exact decide_eq_decide.2 hearlier
    · exact decide_eq_decide.2 (String.not_lt.symm.trans (not_congr hlater))
  rw [holds_of_ne_empty hnumber (ne_empty_of_parse hfirst) (ne_empty_of_parse hsecond),
    holds_of_parse hdate hfirst hsecond, hasks]

end Operator

/-- On dates that are written with all their digits, and on times of universal time that are, the
operators that order texts tell what those that order instants tell; on such dates equal texts are
equal days. -/
theorem texts_follow_instants {nullDate : Date} {comparison : Comparison} {responses : Responses}
    {left right : String} (hleft : comparison.resolve responses = some left)
    (hright : comparison.operand = some right)
    (hfirst : ∃ instant, parseDate nullDate left = .ok instant)
    (hsecond : ∃ instant, parseDate nullDate right = .ok instant) :
    let result (operator : Operator) :=
      ({ comparison with operator } : Comparison).evaluate nullDate responses
    (∀ pattern ∈ ["0000-00-00", "0000-00-00T00:00:00Z"],
      HasShape left pattern → HasShape right pattern →
        result .gt = result .after ∧ result .gte = result .afterOrEqual ∧
          result .lt = result .before ∧ result .lte = result .beforeOrEqual) ∧
      (HasShape left "0000-00-00" → HasShape right "0000-00-00" →
        result .eq = result .equalsDate) := by
  intro result
  obtain ⟨first, hfirst⟩ := hfirst
  obtain ⟨second, hsecond⟩ := hsecond
  rw [parseDate_eq_ok_iff] at hfirst hsecond
  refine ⟨fun pattern hpattern hshape hshape' => ?_, fun hshape hshape' => ?_⟩
  · have horder : (left < right ↔ first < second) ∧ (right < left ↔ second < first) := by
      simp only [List.mem_cons, List.not_mem_nil, or_false] at hpattern
      rcases hpattern with rfl | rfl
      · exact ⟨lt_iff_of_dates hshape hshape' hfirst hsecond,
          lt_iff_of_dates hshape' hshape hsecond hfirst⟩
      · exact ⟨lt_iff_of_moments hshape hshape' hfirst hsecond,
          lt_iff_of_moments hshape' hshape hsecond hfirst⟩
    have hholds := Operator.holds_eq_of_lt_iff hfirst hsecond horder.1 horder.2
    have hresult : ∀ pair ∈ Operator.ofDates, result pair.1 = result pair.2 := by
      have hlooks : ∀ pair ∈ Operator.ofDates,
          pair.1 ≠ .alwaysExecute ∧ pair.2 ≠ .alwaysExecute := by decide
      intro pair hpair
      refine Comparison.evaluate_eq_of_holds_eq (hlooks pair hpair).1 (hlooks pair hpair).2 ?_
      rw [hleft, hright]
      exact hholds pair hpair
    exact ⟨hresult (.gt, .after) (by decide), hresult (.gte, .afterOrEqual) (by decide),
      hresult (.lt, .before) (by decide), hresult (.lte, .beforeOrEqual) (by decide)⟩
  · refine Comparison.evaluate_eq_of_holds_eq (by decide) (by decide) ?_
    have hsame : Operator.equalsDate.holds nullDate (some left) (some right) =
        .ok (decide (first.day = second.day)) := Operator.holds_of_parse rfl hfirst hsecond
    rw [hleft, hright, hsame, Operator.holds, Option.isSome_some, Bool.true_and, Option.some_beq_some,
      beq_eq_decide]
    exact congrArg Except.ok (decide_eq_decide.2 (eq_iff_of_dates hshape hshape' hfirst hsecond))

/-- A leap second and the midnight after it, and the leap day of the year 0 twice. -/
theorem texts_follow_instants_leapSecond :
    let left := "2016-12-31T23:59:60Z"
    let right := "2017-01-01T00:00:00Z"
    let day := "0000-02-29"
    let comparison : Comparison := { operator := .lt, key := some "q", operand := some right }
    let dated : Comparison := { operator := .equalsDate, key := some "q", operand := some day }
    let answered (text : String) : Responses := .ofList [("q", { answer := .text text })]
    HasShape left "0000-00-00T00:00:00Z" ∧ HasShape right "0000-00-00T00:00:00Z" ∧
      comparison.evaluate .epoch (answered left) = .ok true ∧
      ({ comparison with operator := .before } : Comparison).evaluate .epoch (answered left) =
        .ok true ∧
      HasShape day "0000-00-00" ∧ dated.evaluate .epoch (answered day) = .ok true := by
  intro left right day comparison dated answered
  have hshape : HasShape left "0000-00-00T00:00:00Z" := by decide
  have hshape' : HasShape right "0000-00-00T00:00:00Z" := by decide
  have hday : HasShape day "0000-00-00" := by decide
  have hresolve : comparison.resolve (answered left) = some left := by decide +kernel
  have hresolve' : dated.resolve (answered day) = some day := by decide +kernel
  have hfirst : parseDate .epoch left = .ok ⟨1483228799, 1000000000, 0⟩ := by decide +kernel
  have hsecond : parseDate .epoch right = .ok ⟨1483228800, 0, 0⟩ := by decide +kernel
  have hleap : parseDate .epoch day = .ok ⟨-62162121600, 0, 0⟩ := by decide +kernel
  obtain ⟨horders, -⟩ := texts_follow_instants hresolve rfl ⟨_, hfirst⟩ ⟨_, hsecond⟩
  obtain ⟨-, -, hlt, -⟩ := horders _ (by decide) hshape hshape'
  obtain ⟨-, hequals⟩ := texts_follow_instants hresolve' rfl ⟨_, hleap⟩ ⟨_, hleap⟩
  have hearlier : comparison.evaluate .epoch (answered left) = .ok true := by decide +kernel
  have hsame : ({ dated with operator := .eq } : Comparison).evaluate .epoch (answered day) =
      .ok true := by decide +kernel
  exact ⟨hshape, hshape', hearlier, hlt.symm.trans hearlier, hday,
    (hequals hday hday).symm.trans hsame⟩

end BranchingInterview
