import BranchingInterview.Comparison
import Mathlib.Data.Option.Basic

/-!
What the evaluation of a comparison looks at, and how it can fail: a date operator that has two texts
to compare reports the first of them that is no date, and nothing else fails.
-/

namespace BranchingInterview

open Calendar

theorem Comparison.hasKey_iff {comparison : Comparison} :
    comparison.hasKey = true ↔ comparison.key ∉ [none, some ""] := by
  rcases comparison with ⟨operator, _ | key, field, operand⟩ <;> simp [hasKey]

theorem Comparison.evaluate_of_always {comparison : Comparison}
    (halways : comparison.operator = .alwaysExecute) (nullDate : Date) (responses : Responses) :
    comparison.evaluate nullDate responses = .ok true := by
  have hnow : comparison.holdsAtOnce = true := by
    rw [holdsAtOnce, halways]
    rfl
  rw [evaluate, if_pos hnow]

/-- With a key to look up, every other operator looks at the response and the operand. -/
theorem Comparison.evaluate_of_hasKey {comparison : Comparison} {operator : Operator}
    (hkey : comparison.hasKey = true) (hlooks : operator ≠ .alwaysExecute) (nullDate : Date)
    (responses : Responses) :
    ({ comparison with operator } : Comparison).evaluate nullDate responses =
      operator.holds nullDate (comparison.resolve responses) comparison.operand := by
  have hlater : ({ comparison with operator } : Comparison).holdsAtOnce = false := by
    change (operator == .alwaysExecute || !comparison.hasKey) = false
    rw [hkey, Bool.not_true, Bool.or_false, beq_eq_false_iff_ne]
    exact hlooks
  rw [evaluate, hlater]
  rfl

/-- Operators that tell the same of a response and an operand are of one use in a comparison. -/
theorem Comparison.evaluate_eq_of_holds_eq {comparison : Comparison} {operator other : Operator}
    {nullDate : Date} {responses : Responses} (hlooks : operator ≠ .alwaysExecute)
    (hother : other ≠ .alwaysExecute)
    (hholds : operator.holds nullDate (comparison.resolve responses) comparison.operand =
      other.holds nullDate (comparison.resolve responses) comparison.operand) :
    ({ comparison with operator } : Comparison).evaluate nullDate responses =
      ({ comparison with operator := other } : Comparison).evaluate nullDate responses := by
  by_cases hkey : comparison.hasKey = true
  · rw [evaluate_of_hasKey hkey hlooks, evaluate_of_hasKey hkey hother, hholds]
  · have hnow (operator : Operator) :
        ({ comparison with operator } : Comparison).holdsAtOnce = true := by
      simp only [hasKey] at hkey
      simp [holdsAtOnce, hasKey, hkey]
    rw [evaluate, evaluate, if_pos (hnow operator), if_pos (hnow other)]

theorem bothPresent_of_missing {response operand : Option String}
    (hmissing : response ∈ [none, some ""] ∨ operand ∈ [none, some ""]) :
    bothPresent response operand = none := by
  rcases response with _ | response
  · rfl
  · rcases operand with _ | operand
    · rfl
    · have hempty : response = "" ∨ operand = "" := by simpa using hmissing
      rw [bothPresent, if_pos hempty]

theorem parseDate_eq_error_iff {nullDate : Date} {text : String} {error : ScriptError} :
    parseDate nullDate text = .error error ↔
      Calendar.parse nullDate text = none ∧ error = .invalidDate text := by
  rw [parseDate]
  cases Calendar.parse nullDate text with
  | none => simp [eq_comm]
  | some instant => simp

theorem parseDate_eq_ok_iff {nullDate : Date} {text : String} {instant : Instant} :
    parseDate nullDate text = .ok instant ↔ Calendar.parse nullDate text = some instant := by
  rw [parseDate]
  cases Calendar.parse nullDate text <;> simp

/-! A comparison of dates fails on the first of two texts that is no date. -/

/-- A text is read as a date: it is `null`, or one of the forms reads all of it. -/
def Calendar.IsDate (text : String) : Prop :=
  Text.trim text = "null" ∨
    ∃ form ∈ Form.all, ∃ instant, form.read (Text.trimmed text.toList) = some instant

/-- A text is the first of two that is no date. -/
def FirstMisread (response operand text : String) : Prop :=
  ¬IsDate response ∧ text = response ∨ IsDate response ∧ ¬IsDate operand ∧ text = operand

/-- A date operator has a response and an operand to compare, and a text is the first of the two that
is no date. -/
def Comparison.Misreads (comparison : Comparison) (responses : Responses) (text : String) : Prop :=
  comparison.operator ∈ [.after, .afterOrEqual, .before, .beforeOrEqual, .equalsDate] ∧
    comparison.key ∉ [none, some ""] ∧
    ∃ response operand, comparison.resolve responses = some response ∧
      comparison.operand = some operand ∧ response ≠ "" ∧ operand ≠ "" ∧
      FirstMisread response operand text

theorem Calendar.trim_eq_null_iff {text : String} :
    Text.trim text = "null" ↔ Text.trimmed text.toList = nullText := by
  rw [← String.toList_inj, Text.trim, String.toList_ofList]
  exact Iff.rfl

theorem Calendar.isDate_iff (nullDate : Date) {text : String} :
    IsDate text ↔ ∃ instant, parse nullDate text = some instant := by
  rw [IsDate, trim_eq_null_iff, parse]
  by_cases hnull : Text.trimmed text.toList = nullText
  · simp [hnull]
  · simp only [hnull, false_or, if_false, readInstant, ← Option.isSome_iff_exists,
      List.findSome?_isSome_iff]

theorem parseDate_eq_error_iff_not_isDate {nullDate : Date} {text : String} {error : ScriptError} :
    parseDate nullDate text = .error error ↔ ¬IsDate text ∧ error = .invalidDate text := by
  rw [parseDate_eq_error_iff, isDate_iff nullDate, Option.eq_none_iff_forall_ne_some, not_exists]

theorem bothPresent_eq_some_iff {response operand : Option String} {left right : String} :
    bothPresent response operand = some (left, right) ↔
      response = some left ∧ operand = some right ∧ left ≠ "" ∧ right ≠ "" := by
  rcases response with _ | response
  · simp [bothPresent]
  · rcases operand with _ | operand
    · simp [bothPresent]
    · rw [bothPresent]
      split <;> grind

theorem exists_parseDate_eq_ok_iff (nullDate : Date) {text : String} :
    (∃ instant, parseDate nullDate text = .ok instant) ↔ IsDate text := by
  simp only [parseDate_eq_ok_iff, isDate_iff nullDate]

section

variable {nullDate : Date} {test : Instant → Instant → Bool} {response operand : Option String}
  {error : ScriptError}

/-- Of two texts that are there the response is read first. -/
theorem compareDates_of_bothPresent {left right : String}
    (hpresent : bothPresent response operand = some (left, right)) :
    compareDates nullDate test response operand = .error error ↔
      parseDate nullDate left = .error error ∨
        (∃ instant, parseDate nullDate left = .ok instant) ∧
          parseDate nullDate right = .error error := by
  simp only [compareDates, hpresent]
  cases parseDate nullDate left with
  | error reason => simp [bind, Except.bind]
  | ok first => cases parseDate nullDate right <;> simp [bind, Except.bind, pure, Except.pure]

theorem compareDates_eq_error_iff :
    compareDates nullDate test response operand = .error error ↔
      ∃ text, error = .invalidDate text ∧ ∃ left right,
        bothPresent response operand = some (left, right) ∧ FirstMisread left right text := by
  constructor
  · intro herror
    rcases hpresent : bothPresent response operand with _ | ⟨left, right⟩
    · simp [compareDates, hpresent] at herror
    · rw [compareDates_of_bothPresent hpresent, exists_parseDate_eq_ok_iff,
        parseDate_eq_error_iff_not_isDate, parseDate_eq_error_iff_not_isDate] at herror
      rcases herror with ⟨hleft, herror⟩ | ⟨hleft, hright, herror⟩
      · exact ⟨left, herror, left, right, rfl, Or.inl ⟨hleft, rfl⟩⟩
      · exact ⟨right, herror, left, right, rfl, Or.inr ⟨hleft, hright, rfl⟩⟩
  · rintro ⟨text, rfl, left, right, hpresent, hmisread⟩
    rw [compareDates_of_bothPresent hpresent, exists_parseDate_eq_ok_iff,
      parseDate_eq_error_iff_not_isDate, parseDate_eq_error_iff_not_isDate]
    simpa [FirstMisread] using hmisread

theorem Operator.holds_eq_error_iff {operator : Operator} :
    operator.holds nullDate response operand = .error error ↔
      operator ∈ [after, afterOrEqual, before, beforeOrEqual, equalsDate] ∧
        ∃ text, error = .invalidDate text ∧ ∃ left right,
          bothPresent response operand = some (left, right) ∧ FirstMisread left right text := by
  cases operator with
  | after | afterOrEqual | before | beforeOrEqual | equalsDate =>
      rw [holds, compareDates_eq_error_iff]
      simp
  | _ => simp [holds]

end

theorem Comparison.evaluate_eq_error_iff {comparison : Comparison} {nullDate : Date}
    {responses : Responses} {error : ScriptError} :
    comparison.evaluate nullDate responses = .error error ↔
      ∃ text, error = .invalidDate text ∧ comparison.Misreads responses text := by
  have hevaluate : comparison.evaluate nullDate responses = .error error ↔
      comparison.hasKey = true ∧ comparison.operator.holds nullDate (comparison.resolve responses)
        comparison.operand = .error error := by
    by_cases halways : comparison.operator = .alwaysExecute
    · rw [evaluate_of_always halways, halways]
      simp [Operator.holds]
    · by_cases hkey : comparison.hasKey = true
      · have hlooks : comparison.evaluate nullDate responses = _ :=
          evaluate_of_hasKey hkey halways nullDate responses
        simp [hlooks, hkey]
      · have hnow : comparison.holdsAtOnce = true := by simp [holdsAtOnce, hkey]
        simp [evaluate, hnow, hkey]
  rw [hevaluate, hasKey_iff, Operator.holds_eq_error_iff]
  constructor
  · rintro ⟨hkey, hdate, text, herror, left, right, hpresent, hmisread⟩
    obtain ⟨hleft, hright, hsome, hsome'⟩ := bothPresent_eq_some_iff.1 hpresent
    exact ⟨text, herror, hdate, hkey, left, right, hleft, hright, hsome, hsome', hmisread⟩
  · rintro ⟨text, herror, hdate, hkey, left, right, hleft, hright, hsome, hsome', hmisread⟩
    have hpresent := bothPresent_eq_some_iff.2 ⟨hleft, hright, hsome, hsome'⟩
    exact ⟨hkey, hdate, text, herror, left, right, hpresent, hmisread⟩

/-- A comparison fails only on a text that is no date. -/
theorem Comparison.exists_of_evaluate_eq_error {nullDate : Date} {responses : Responses}
    {comparison : Comparison} {error : ScriptError}
    (herror : comparison.evaluate nullDate responses = .error error) :
    ∃ text, error = .invalidDate text := by
  obtain ⟨text, htext, -⟩ := evaluate_eq_error_iff.1 herror
  exact ⟨text, htext⟩

end BranchingInterview
