import BranchingInterview.Proofs.Calendar.DaySequence
import BranchingInterview.Proofs.Calendar.UniversalTime
import BranchingInterview.Proofs.DateOrder

/-!
Days and instants on one clock. Instants that were read from clocks with the same offset fall on days
in the same order as they follow each other, so a day is a stretch of instants without gaps. Texts
without an offset of their own all share the offset of universal time.
-/

namespace BranchingInterview

open Calendar

namespace Instant

variable {left right first middle last : Instant}

theorem day_lt_iff :
    left.day < right.day ↔
      (left.second + left.offset) / secondsPerDay < (right.second + right.offset) / secondsPerDay :=
  Date.ofDayNumber_lt_iff

theorem lt_of_day_lt (hoffset : left.offset = right.offset) (hday : left.day < right.day) :
    left < right := by
  rw [day_lt_iff, hoffset, secondsPerDay] at hday
  refine lt_iff.2 (Or.inl ?_)
  omega

theorem not_day_lt_of_lt (hoffset : left.offset = right.offset) (hlt : left < right) :
    ¬right.day < left.day := by
  have hsecond : left.second ≤ right.second := by
    rcases lt_iff.1 hlt with hsecond | ⟨hsecond, -⟩
    · exact Int.le_of_lt hsecond
    · exact Int.le_of_eq hsecond
  rw [day_lt_iff, hoffset, secondsPerDay]
  omega

/-- What lies between two instants of one day is of that day. -/
theorem day_eq_of_between (hfirst : first.offset = middle.offset)
    (hlast : middle.offset = last.offset) (hafter : first < middle) (hbefore : middle < last)
    (hsame : first.day = last.day) : middle.day = first.day := by
  have hstart := not_day_lt_of_lt hfirst hafter
  have hend := not_day_lt_of_lt hlast hbefore
  rw [← hsame] at hend
  rcases Date.lt_trichotomy middle.day first.day with hlt | heq | hgt
  · exact absurd hlt hstart
  · exact heq
  · exact absurd hgt hend

end Instant

/-- Of two texts read with one offset, the one of the earlier day is before the other, and the one
before the other is not of a later day. So they are not of one day if an instant of another day lies
between them. -/
theorem days_follow_instants (nullDate : Date) :
    (∀ (comparison : Comparison) (responses : Responses) (left right : String)
        (first last : Instant), comparison.hasKey = true →
        comparison.resolve responses = some left → comparison.operand = some right →
        parseDate nullDate left = .ok first → parseDate nullDate right = .ok last →
        first.offset = last.offset →
        let result (operator : Operator) :=
          ({ comparison with operator } : Comparison).evaluate nullDate responses
        (first.day < last.day → result .before = .ok true) ∧
          (result .before = .ok true → ¬last.day < first.day) ∧
          ∀ middle : Instant, middle.offset = first.offset →
            first < middle ∧ middle < last ∨ last < middle ∧ middle < first →
            middle.day ≠ first.day ∨ middle.day ≠ last.day →
            result .equalsDate = .ok false) ∧
      ∀ text instant, parseDate nullDate text = .ok instant → IsUniversal text →
        instant.offset = 0 := by
  refine ⟨?_, fun text instant hread huniversal =>
    offset_eq_zero_of_isUniversal (parseDate_eq_ok_iff.1 hread) huniversal⟩
  intro comparison responses left right first last hkey hleft hright hfirst hlast hoffset result
  rw [parseDate_eq_ok_iff] at hfirst hlast
  have hresult (operator : Operator) (hdate : operator.isDate = true) :
      result operator = .ok (operator.Asks first last) := by
    have hholds := Comparison.evaluate_of_isDate hkey hdate nullDate responses
    rw [hleft, hright, Operator.holds_of_parse hdate hfirst hlast] at hholds
    simpa only [result, hright] using hholds
  rw [hresult .before rfl, hresult .equalsDate rfl]
  refine ⟨fun hday => ?_, fun hresult => ?_, fun middle hmiddle hbetween hother => ?_⟩
  · have hbefore : Operator.before.Asks first last := Instant.lt_of_day_lt hoffset hday
    rw [decide_eq_true hbefore]
  · exact Instant.not_day_lt_of_lt hoffset (of_decide_eq_true (Except.ok.inj hresult))
  · refine congrArg Except.ok (decide_eq_false fun hsame => ?_)
    have hday : middle.day = first.day := by
      rcases hbetween with ⟨hafter, hbefore⟩ | ⟨hafter, hbefore⟩
      · exact Instant.day_eq_of_between hmiddle.symm (hmiddle.trans hoffset) hafter hbefore hsame
      · rw [hsame]
        exact Instant.day_eq_of_between (hmiddle.trans hoffset).symm hmiddle hafter hbefore
          hsame.symm
    rcases hother with hother | hother
    · exact hother hday
    · exact hother (hday.trans hsame)

/-- A leap second before midnight and the evening after, on a clock ahead of universal time: the noon
between them is of the second day. -/
theorem days_follow_instants_leapSecond :
    let left := "1969-12-31T23:59:60.25+05:30"
    let right := "1970-01-01T20:00+05:30"
    let noon : Instant := ⟨23400, 0, 19800⟩
    let comparison : Comparison := { operator := .before, key := some "q", operand := some right }
    let answered : Responses := .ofList [("q", { answer := .text left })]
    comparison.hasKey = true ∧ parseDate .epoch "1970-01-01T12:00+05:30" = .ok noon ∧
      comparison.evaluate .epoch answered = .ok true ∧
      ({ comparison with operator := .equalsDate } : Comparison).evaluate .epoch answered =
        .ok false ∧
      ∃ instant, parseDate .epoch " 1970-01-01T00:00 z " = .ok instant ∧ instant.offset = 0 := by
  intro left right noon comparison answered
  have hkey : comparison.hasKey = true := by decide
  have hleft : comparison.resolve answered = some left := by decide +kernel
  have hfirst : parseDate .epoch left = .ok ⟨-19801, 1250000000, 19800⟩ := by decide +kernel
  have hlast : parseDate .epoch right = .ok ⟨52200, 0, 19800⟩ := by decide +kernel
  have hnoon : parseDate .epoch "1970-01-01T12:00+05:30" = .ok noon := by decide +kernel
  have hzulu : parseDate .epoch " 1970-01-01T00:00 z " = .ok ⟨0, 0, 0⟩ := by decide +kernel
  have huniversal : IsUniversal " 1970-01-01T00:00 z " :=
    Or.inr (Or.inr ⟨'z', by decide +kernel, rfl⟩)
  obtain ⟨hdays, hoffset⟩ := days_follow_instants .epoch
  obtain ⟨hearlier, -, hapart⟩ :=
    hdays comparison answered left right _ _ hkey hleft rfl hfirst hlast rfl
  refine ⟨hkey, hnoon, hearlier (by decide +kernel), ?_, _, hzulu, hoffset _ _ hzulu huniversal⟩
  exact hapart noon rfl (Or.inl (by decide)) (Or.inl (by decide +kernel))

end BranchingInterview
