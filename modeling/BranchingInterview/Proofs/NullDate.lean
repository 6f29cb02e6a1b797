import BranchingInterview.Proofs.Calendar.DateText
import BranchingInterview.Proofs.DateOrder

/-!
The date that `null` stands for. Under a null date the text `null` and the text of that date are read
as the same instant, so no date operator tells them apart.
-/

namespace BranchingInterview

open Calendar

/-- What a comparison of dates makes of one of its texts, unless that is missing or empty. -/
def readSide (nullDate : Date) : Option String → Option (Except ScriptError Instant)
  | none => none
  | some text => if text = "" then none else some (parseDate nullDate text)

variable {nullDate other : Date} {text : String}

theorem readSide_of_parse {instant : Instant} (hparse : Calendar.parse nullDate text = some instant) :
    readSide nullDate (some text) = some (.ok instant) := by
  rw [readSide, if_neg (ne_empty_of_parse hparse), parseDate, hparse]

theorem compareDates_eq_readSide (test : Instant → Instant → Bool)
    (response operand : Option String) :
    compareDates nullDate test response operand =
      match readSide nullDate response, readSide nullDate operand with
      | some left, some right => do return test (← left) (← right)
      | _, _ => .ok false := by
  rcases response with _ | response
  · rfl
  · rcases operand with _ | operand
    · by_cases hresponse : response = "" <;> simp [readSide, hresponse, compareDates, bothPresent]
    · by_cases hresponse : response = ""
      · simp [readSide, hresponse, compareDates, bothPresent]
      · by_cases hoperand : operand = "" <;>
          simp [readSide, hresponse, hoperand, compareDates, bothPresent]

/-- A date operator sees of its texts only what they are read as. -/
theorem Operator.holds_congr {operator : Operator} (hdate : operator.isDate = true)
    {response operand answer bound : Option String}
    (hresponse : readSide nullDate response = readSide other answer)
    (hoperand : readSide nullDate operand = readSide other bound) :
    operator.holds nullDate response operand = operator.holds other answer bound := by
  obtain ⟨test, htest⟩ := exists_compareDates hdate
  rw [htest, htest, compareDates_eq_readSide, compareDates_eq_readSide, hresponse, hoperand]

theorem Calendar.parse_of_null (hnull : Text.trim text = "null") (nullDate : Date) :
    parse nullDate text = some (.startOfDay nullDate) := by
  rw [parse, if_pos (trim_eq_null_iff.1 hnull)]

/-- A text, and the same text or, if it is `null`, the one of a date. -/
inductive Dated (date : Date) : Option String → Option String → Prop
  | same (text : Option String) : Dated date text text
  | written {text : String} (hnull : Text.trim text = "null") :
      Dated date (some text) (some date.text)

theorem Dated.readSide_eq {date : Date} {text other : Option String} (hdated : Dated date text other)
    (hrange : date.InRange) : readSide date text = readSide date other := by
  cases hdated with
  | same => rfl
  | written hnull =>
      rw [readSide_of_parse (parse_of_null hnull date), readSide_of_parse (parse_text hrange date)]

/-- The text of a date is read, whatever `null` stands for, as the midnight that `null` is read as if
it stands for that date; and in place of `null` it changes what none of the date operators tells. -/
theorem null_stands_for_date {date : Date} (hrange : date.InRange) :
    (∀ nullDate, ∃ instant, parseDate nullDate date.text = .ok instant ∧
        parseDate date "null" = .ok instant ∧ instant.offset = 0 ∧ instant.nano = 0 ∧
        instant.second % Instant.secondsPerDay = 0 ∧ instant.day = date) ∧
      (∀ (comparison : Comparison) (operator : Operator) (responses others : Responses)
        (operand : Option String), operator.isDate = true →
        Dated date (comparison.resolve responses) (comparison.resolve others) →
        Dated date comparison.operand operand →
        ({ comparison with operator } : Comparison).evaluate date responses =
          ({ comparison with operator, operand } : Comparison).evaluate date others) ∧
      ∀ (comparison : Comparison) (responses : Responses) (key : String) (response : Response),
        comparison.key = some key →
        comparison.resolve (responses.insert key { response with answer := .text date.text }) =
          some date.text := by
  refine ⟨fun nullDate => ⟨.startOfDay date, ?_, ?_, rfl, rfl, ?_, day_startOfDay hrange⟩, ?_, ?_⟩
  · exact parseDate_eq_ok_iff.2 (parse_text hrange nullDate)
  · exact parseDate_eq_ok_iff.2 (parse_of_null (by decide) date)
  · exact Int.mul_emod_left _ _
  · intro comparison operator responses others operand hdate hresponse hoperand
    have hholds : operator.holds date (comparison.resolve responses) comparison.operand =
        operator.holds date (comparison.resolve others) operand :=
      Operator.holds_congr hdate (hresponse.readSide_eq hrange) (hoperand.readSide_eq hrange)
    exact if_congr Iff.rfl rfl hholds
  · intro comparison responses key response hkey
    simp [Comparison.resolve, hkey, KeyMap.get?_insert, Answer.resolve]

/-- The first day of all, in place of a field that a record lacks and of an operand in blanks. -/
theorem null_stands_for_date_firstDay :
    let date : Date := ⟨-262143, 1, 1, by decide, by decide, by decide, by decide⟩
    let comparison : Comparison :=
      { operator := .equalsDate, key := some "q", field := some "until", operand := some " null " }
    let unknown : Record := ⟨[("name", .string "Ada")], by decide, by trivial⟩
    let response : Response := { answer := .record unknown }
    let answered : Responses := .ofList [("q", response)]
    let dated : Responses := answered.insert "q" { response with answer := .text date.text }
    date.InRange ∧ date.text = "-262143-01-01" ∧
      (∃ instant, parseDate .epoch date.text = .ok instant ∧ parseDate date "null" = .ok instant ∧
        instant.day = date) ∧
      ({ comparison with operand := some date.text } : Comparison).evaluate date answered =
        .ok true ∧
      ({ comparison with operator := .after } : Comparison).evaluate date dated = .ok false := by
  intro date comparison unknown response answered dated
  have hrange : date.InRange := by decide
  have hnull : Text.trim " null " = "null" := by decide +kernel
  have hmissing : comparison.resolve answered = some "null" := by decide +kernel
  obtain ⟨hreads, hreplace, hanswer⟩ := null_stands_for_date hrange
  obtain ⟨instant, htext, hstands, -, -, -, hday⟩ := hreads .epoch
  have hdated : Dated date (comparison.resolve answered) (comparison.resolve dated) := by
    rw [hmissing, hanswer comparison answered "q" response rfl]
    exact .written (by decide)
  have hoperand := hreplace comparison .equalsDate answered answered _ rfl (.same _) (.written hnull)
  have hresponse := hreplace comparison .after answered dated _ rfl hdated (.same _)
  have hsame : comparison.evaluate date answered = .ok true := by decide +kernel
  have hlater : ({ comparison with operator := .after } : Comparison).evaluate date answered =
      .ok false := by decide +kernel
  refine ⟨hrange, by decide +kernel, ⟨instant, htext, hstands, hday⟩, ?_, ?_⟩
  · exact hoperand.symm.trans hsame
  · exact hresponse.symm.trans hlater

end BranchingInterview
