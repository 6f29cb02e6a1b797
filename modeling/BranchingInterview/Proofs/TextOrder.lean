import BranchingInterview.Proofs.Evaluation

/-!
The operators that order texts, on answers that are missing. Two tests decide what is missing:
`isEmpty` also takes the text `null` for it, while an ordering takes every text that is not empty.
So an answer may be empty and still stand in an order to the operand, but only the text `null`
does.
-/

namespace BranchingInterview

section

variable {test : String → String → Bool}

theorem compareTexts_of_missing {response operand : Option String}
    (hmissing : response ∈ [none, some ""] ∨ operand ∈ [none, some ""]) :
    compareTexts test response operand = false := by
  rw [compareTexts, bothPresent_of_missing hmissing]
  rfl

theorem compareTexts_of_ne_empty {text : String} (hpresent : text ≠ "") (operand : Option String) :
    compareTexts test (some text) operand =
      operand.any fun operand => operand != "" && test text operand := by
  cases operand with
  | none => rfl
  | some operand =>
      by_cases hempty : operand = ""
      · rw [compareTexts_of_missing (Or.inr (by simp [hempty])), hempty]
        rfl
      · have hboth : bothPresent (some text) (some operand) = some (text, operand) :=
          if_neg (not_or.2 ⟨hpresent, hempty⟩)
        rw [compareTexts, hboth, Option.any_some, Option.any_some, bne_iff_ne.2 hempty,
          Bool.true_and]

theorem compareTexts_some (response operand : String) :
    compareTexts test (some response) (some operand) =
      (response != "" && (operand != "" && test response operand)) := by
  by_cases hempty : response = ""
  · rw [hempty, compareTexts_of_missing (Or.inl (by simp)), bne_self_eq_false, Bool.false_and]
  · rw [compareTexts_of_ne_empty hempty, Option.any_some, bne_iff_ne.2 hempty, Bool.true_and]

end

theorem isUnanswered_iff {response : Option String} :
    isUnanswered response = true ↔ response ∈ [none, some "", some absentText] := by
  cases response with
  | none => simp [isUnanswered]
  | some text => simp [isUnanswered]

/-- What an ordering operator asks of the text of an answer and the operand. -/
def Operator.orders : Operator → String → String → Bool
  | gt, response, operand => operand < response
  | gte, response, operand => operand ≤ response
  | lt, response, operand => response < operand
  | lte, response, operand => response ≤ operand
  | _, _, _ => false

theorem Operator.holds_of_isNumber {operator : Operator} (hnumber : operator.isNumber = true)
    (nullDate : Date) (response operand : Option String) :
    operator.holds nullDate response operand =
      .ok (compareTexts operator.orders response operand) := by
  cases operator with
  | gt | gte | lt | lte => rfl
  | _ => cases hnumber

theorem Operator.holds_of_ne_empty {operator : Operator} {left right : String}
    (hnumber : operator.isNumber = true) (hleft : left ≠ "") (hright : right ≠ "") (nullDate : Date) :
    operator.holds nullDate (some left) (some right) = .ok (operator.orders left right) := by
  rw [holds_of_isNumber hnumber, compareTexts_some, bne_iff_ne.2 hleft, bne_iff_ne.2 hright,
    Bool.true_and, Bool.true_and]

namespace Comparison

variable {comparison : Comparison} {operator : Operator} {responses : Responses}

theorem evaluate_of_isNumber (hkey : comparison.hasKey = true) (hnumber : operator.isNumber = true)
    (nullDate : Date) (responses : Responses) :
    ({ comparison with operator } : Comparison).evaluate nullDate responses =
      .ok (compareTexts operator.orders (comparison.resolve responses) comparison.operand) := by
  rw [← operator.holds_of_isNumber hnumber nullDate]
  refine evaluate_of_hasKey hkey ?_ nullDate responses
  rintro rfl
  cases hnumber

/-- The answer is a record without the field that the comparison looks at. -/
def FieldMissing (comparison : Comparison) (responses : Responses) : Prop :=
  ∃ key field response record, comparison.key = some key ∧ comparison.field = some field ∧
    responses.get? key = some response ∧ response.answer = .record record ∧
    record.get? field = none

theorem FieldMissing.resolve_eq (hmissing : comparison.FieldMissing responses) :
    comparison.resolve responses = some absentText := by
  obtain ⟨key, field, response, record, hkey, hfield, hresponse, hanswer, hrecord⟩ := hmissing
  simp only [resolve, hkey, hfield, hresponse, Option.bind_eq_bind, Option.bind_some, hanswer,
    Answer.resolve, hrecord]
  rfl

/-- An ordering holds of nothing that is missing or empty. The text `null`, which is also what a
field missing from a record gives, is ordered like any other text, though it counts as no answer. -/
theorem ordering_of_isEmpty (hkey : comparison.hasKey = true)
    (hnumber : operator.isNumber = true) (nullDate : Date) (responses : Responses) :
    let result (operator : Operator) :=
      ({ comparison with operator } : Comparison).evaluate nullDate responses
    let text := comparison.resolve responses
    (result .isEmpty = .ok true ↔ text ∈ [none, some "", some absentText]) ∧
      (text ∈ [none, some ""] → result operator = .ok false) ∧
      (text = some absentText →
        result operator =
          .ok (comparison.operand.any fun operand =>
            operand != "" && operator.orders absentText operand)) ∧
      (comparison.FieldMissing responses → text = some absentText) := by
  intro result text
  have hresult : result operator = .ok (compareTexts operator.orders text comparison.operand) :=
    evaluate_of_isNumber hkey hnumber nullDate responses
  have hisEmpty : result .isEmpty = .ok (isUnanswered text) :=
    evaluate_of_hasKey hkey (by decide) nullDate responses
  refine ⟨?_, ?_, ?_, FieldMissing.resolve_eq⟩
  · rw [hisEmpty, Except.ok.injEq, isUnanswered_iff]
  · intro hmissing
    rw [hresult, compareTexts_of_missing (Or.inl hmissing)]
  · intro htext
    rw [hresult, htext, compareTexts_of_ne_empty (by decide)]

theorem ordering_of_isEmpty_fieldMissing :
    let comparison : Comparison :=
      { operator := .lt, key := some "q", field := some "age", operand := some "old" }
    let ada : Record := ⟨[("name", .string "Ada")], by decide, by trivial⟩
    let answered : Responses := .ofList [("q", { answer := .record ada })]
    comparison.hasKey = true ∧ Operator.lt.isNumber = true ∧ comparison.FieldMissing answered ∧
      comparison.evaluate .epoch answered = .ok true ∧
      comparison.evaluate .epoch {} = .ok false := by
  intro comparison ada answered
  have hkey : comparison.hasKey = true := by decide
  have hnumber : Operator.lt.isNumber = true := by decide
  have hmissing : comparison.FieldMissing answered :=
    ⟨"q", "age", { answer := .record ada }, ada, rfl, rfl, by decide, rfl, by decide⟩
  obtain ⟨-, -, hordered, hnull⟩ := ordering_of_isEmpty hkey hnumber .epoch answered
  obtain ⟨-, hnothing, -, -⟩ := ordering_of_isEmpty hkey hnumber .epoch {}
  refine ⟨hkey, hnumber, hmissing, (hordered (hnull hmissing)).trans ?_, hnothing (by decide)⟩
  exact congrArg Except.ok (by decide)

/-- Ada has no age, and the age that she does not have is above 18. -/
theorem not_ordering_of_isEmpty_null :
    let ada : Record := ⟨[("name", .string "Ada")], by decide, by trivial⟩
    let responses : Responses := .ofList [("q", { answer := .record ada })]
    let result (operator : Operator) :=
      Comparison.evaluate .epoch responses
        { operator, key := some "q", field := some "age", operand := some "18" }
    result .isEmpty = .ok true ∧ result .gt = .ok true ∧
      ¬(result .isEmpty = .ok true →
        ∀ operator, operator.isNumber = true → result operator = .ok false) := by
  intro ada responses result
  have hisEmpty : result .isEmpty = .ok true := by rfl
  have habove : compareTexts Operator.gt.orders (some absentText) (some "18") = true := by decide
  have hgt : result .gt = .ok true := congrArg Except.ok habove
  refine ⟨hisEmpty, hgt, fun hexcluded => ?_⟩
  cases hgt.symm.trans (hexcluded hisEmpty .gt rfl)

end Comparison

end BranchingInterview
