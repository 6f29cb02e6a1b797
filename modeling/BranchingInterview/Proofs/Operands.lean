import BranchingInterview.Proofs.InstantRange
import BranchingInterview.Proofs.TextOperators
import BranchingInterview.Proofs.Unanswered

/-!
Operands of the operators that order texts and dates. Validation takes every text for an operand,
the empty one too, while evaluation takes the empty text for a missing operand. So a valid
comparison either compares every response that is there, or its operand is empty and it holds of
none.
-/

namespace BranchingInterview

open Text

namespace Operator

/-- What an ordering operator asks of the bytes of a response and an operand. -/
def OrdersBytes (response operand : List UInt8) : Operator → Prop
  | gt => operand < response
  | gte => operand ≤ response
  | lt => response < operand
  | lte => response ≤ operand
  | _ => False

instance (response operand : List UInt8) :
    (operator : Operator) → Decidable (operator.OrdersBytes response operand)
  | gt => inferInstanceAs (Decidable (operand < response))
  | gte => inferInstanceAs (Decidable (operand ≤ response))
  | lt => inferInstanceAs (Decidable (response < operand))
  | lte => inferInstanceAs (Decidable (response ≤ operand))
  | alwaysExecute | eq | isEmpty | isNotEmpty | after | afterOrEqual | before | beforeOrEqual
  | equalsDate => inferInstanceAs (Decidable False)

/-- What comparing a response with an operand gives: the result for their bytes, or for the dates
that they are read as, which fails on the first of them that is no date. -/
inductive Compared (nullDate : Date) (operator : Operator) (response operand : String) :
    Except ScriptError Bool → Prop
  | texts (hnumber : operator.isNumber = true) :
      Compared nullDate operator response operand
        (.ok (operator.OrdersBytes (bytes response) (bytes operand)))
  | dates (hdate : operator.isDate = true) {first last : Instant}
      (hfirst : parseDate nullDate response = .ok first)
      (hlast : parseDate nullDate operand = .ok last) :
      Compared nullDate operator response operand (.ok (operator.Asks first last))
  | misread (hdate : operator.isDate = true) {text : String}
      (hmisread : FirstMisread response operand text) :
      Compared nullDate operator response operand (.error (.invalidDate text))

variable {operator : Operator} {response : String}

theorem orders_eq_ordersBytes (operator : Operator) (response operand : String) :
    operator.orders response operand =
      decide (operator.OrdersBytes (bytes response) (bytes operand)) := by
  have hle (left right : String) : bytes left ≤ bytes right ↔ left ≤ right :=
    not_congr bytes_lt_bytes_iff
  cases operator with
  | gt | gte | lt | lte => simp [orders, OrdersBytes, bytes_lt_bytes_iff, hle]
  | _ => rfl

/-- No response comes before the empty text, and every other operator finds something else. -/
theorem compared_empty_iff (hpresent : response ≠ "") (nullDate : Date) :
    operator.Compared nullDate response "" (.ok false) ↔ operator ∈ [lt, lte] := by
  have hlt := bytes_empty_lt hpresent
  have hnumber : ∀ operator ∈ [lt, lte], operator.isNumber = true := by decide
  constructor
  · intro hcompared
    generalize hresult : Except.ok false = result at hcompared
    cases hcompared with
    | texts hnumber =>
        have hfalse := decide_eq_false_iff_not.1 (Except.ok.inj hresult).symm
        cases operator with
        | lt | lte => decide
        | gt => exact absurd hlt hfalse
        | gte => exact absurd (List.lt_asymm hlt) hfalse
        | _ => cases hnumber
    | dates hdate hfirst hlast =>
        rw [parseDate, Calendar.parse_empty] at hlast
        cases hlast
    | misread => cases hresult
  · intro hmem
    have hfalse : ¬operator.OrdersBytes (bytes response) (bytes "") := by
      rcases List.mem_cons.1 hmem with rfl | hmem
      · exact List.lt_asymm hlt
      · rw [List.mem_singleton.1 hmem]
        exact fun hle => hle hlt
    rw [← decide_eq_false hfalse]
    exact .texts (hnumber operator hmem)

theorem requiresOperand_of_compares
    (hcompares : operator.isNumber = true ∨ operator.isDate = true) :
    operator.requiresOperand = true := by
  have hneither : ∀ operator ∈ [alwaysExecute, isEmpty, isNotEmpty],
      ¬(operator.isNumber = true ∨ operator.isDate = true) := by
    decide
  apply requiresOperand_iff.2
  intro hmem
  exact hneither operator hmem hcompares

theorem ne_alwaysExecute_of_compares
    (hcompares : operator.isNumber = true ∨ operator.isDate = true) :
    operator ≠ alwaysExecute := by
  rintro rfl
  exact absurd (requiresOperand_of_compares hcompares) (by decide)

end Operator

namespace Comparison

variable {comparison : Comparison} {responses : Responses}

theorem validate_eq_ok_iff_of_compares
    (hcompares : comparison.operator.isNumber = true ∨ comparison.operator.isDate = true) :
    comparison.validate = .ok () ↔ comparison.hasKey = true ∧ comparison.operand ≠ none := by
  have hkey := Operator.requiresKey_iff.2 (Operator.ne_alwaysExecute_of_compares hcompares)
  have hoperand := Operator.requiresOperand_of_compares hcompares
  rw [validate, hkey, hoperand, ← Option.isSome_iff_ne_none]
  cases comparison.hasKey <;> cases comparison.operand <;> simp

theorem evaluate_of_missing (hkey : comparison.hasKey = true)
    (hcompares : comparison.operator.isNumber = true ∨ comparison.operator.isDate = true)
    (hmissing : comparison.resolve responses ∈ [none, some ""] ∨
      comparison.operand ∈ [none, some ""]) (nullDate : Date) :
    comparison.evaluate nullDate responses = .ok false := by
  rcases hcompares with hnumber | hdate
  · exact resultOf_of_missing hkey hmissing hnumber nullDate
  · obtain ⟨test, htest⟩ := Operator.exists_compareDates hdate
    have hresult : comparison.evaluate nullDate responses = _ :=
      evaluate_of_isDate hkey hdate nullDate responses
    rw [hresult, htest, compareDates_of_missing hmissing]

theorem compared_evaluate {left right : String} (htexts : comparison.Compares responses left right)
    (hcompares : comparison.operator.isNumber = true ∨ comparison.operator.isDate = true)
    (hpresent : left ≠ "" ∧ right ≠ "") (nullDate : Date) :
    comparison.operator.Compared nullDate left right (comparison.evaluate nullDate responses) := by
  obtain ⟨hkey, hleft, hright⟩ := htexts
  rcases hcompares with hnumber | hdate
  · have hresult : comparison.evaluate nullDate responses = _ :=
      evaluate_of_hasKey hkey (Operator.ne_alwaysExecute_of_compares (Or.inl hnumber)) nullDate
        responses
    rw [hresult, hleft, hright, Operator.holds_of_ne_empty hnumber hpresent.1 hpresent.2,
      Operator.orders_eq_ordersBytes]
    exact .texts hnumber
  · rcases evaluate_of_texts hkey hdate hleft hright hpresent nullDate with
      ⟨text, -, herror⟩ | ⟨first, last, hfirst, hlast, hresult⟩
    · obtain ⟨found, hfound, -, -, response, operand, hresponse, hoperand, -, -, hmisread⟩ :=
        evaluate_eq_error_iff.1 herror
      obtain rfl : left = response := Option.some.inj (hleft.symm.trans hresponse)
      obtain rfl : right = operand := Option.some.inj (hright.symm.trans hoperand)
      rw [herror, hfound]
      exact .misread hdate hmisread
    · rw [hresult]
      exact .dates hdate hfirst hlast

/-- A comparison that orders texts or dates is valid with a key and any operand. With an operand
that is not empty it compares every response that is there. With the empty one it holds of no
responses at all, which is what comparing gives only where a text is asked to come before it. -/
theorem compared_of_validate (comparison : Comparison) (nullDate : Date)
    (hcompares : comparison.operator.isNumber = true ∨ comparison.operator.isDate = true) :
    (comparison.validate = .ok () ↔ comparison.hasKey = true ∧ comparison.operand ≠ none) ∧
      ∀ operand, comparison.validate = .ok () → comparison.operand = some operand →
        (∀ responses response, comparison.resolve responses = some response → response ≠ "" →
          (comparison.operator.Compared nullDate response operand
              (comparison.evaluate nullDate responses) ↔
            operand ≠ "" ∨ comparison.operator ∈ [.lt, .lte])) ∧
        (operand = "" → ∀ responses, comparison.evaluate nullDate responses = .ok false) := by
  refine ⟨validate_eq_ok_iff_of_compares hcompares, ?_⟩
  intro operand hvalid hoperand
  obtain ⟨hkey, -⟩ := (validate_eq_ok_iff_of_compares hcompares).1 hvalid
  have hdead (hempty : operand = "") (responses : Responses) :
      comparison.evaluate nullDate responses = .ok false := by
    apply evaluate_of_missing hkey hcompares
    rw [hoperand, hempty]
    exact Or.inr (by decide)
  refine ⟨?_, hdead⟩
  intro responses response hresponse hpresent
  by_cases hempty : operand = ""
  · rw [hdead hempty responses, hempty, Operator.compared_empty_iff hpresent]
    exact ⟨Or.inr, fun hmem => hmem.resolve_left fun hne => hne rfl⟩
  · apply iff_of_true _ (Or.inl hempty)
    exact compared_evaluate ⟨hkey, hresponse, hoperand⟩ hcompares ⟨hpresent, hempty⟩ nullDate

/-- Midnight on a clock that is ahead comes before the null date; it has no order to a text that is
no date, and none to the empty text. -/
theorem compared_of_validate_aheadOfUniversalTime :
    let comparing (operator : Operator) (operand : String) : Comparison :=
      { operator, key := some "q", operand := some operand }
    let text := "1970-01-01T00:00+01:00"
    let answered : Responses := .ofList [("q", { answer := .text text })]
    let result (operator : Operator) (operand : String) :=
      (comparing operator operand).evaluate .epoch answered
    (comparing .before "null").validate = .ok () ∧ (comparing .gt "").validate = .ok () ∧
      (comparing .before "null").resolve answered = some text ∧
      Operator.before.Compared .epoch text "null" (result .before "null") ∧
      Operator.before.Compared .epoch text "soon" (result .before "soon") ∧
      Operator.lte.Compared .epoch text "null" (result .lte "null") ∧
      result .gt "" = .ok false := by
  intro comparing text answered result
  have hresolve (operator : Operator) (operand : String) :
      (comparing operator operand).resolve answered = some text := by rfl
  obtain ⟨hbefore, hbeforeResult⟩ :=
    compared_of_validate (comparing .before "null") .epoch (Or.inr rfl)
  obtain ⟨hsoon, hsoonResult⟩ :=
    compared_of_validate (comparing .before "soon") .epoch (Or.inr rfl)
  obtain ⟨hlte, hlteResult⟩ := compared_of_validate (comparing .lte "null") .epoch (Or.inl rfl)
  obtain ⟨hgt, hgtResult⟩ := compared_of_validate (comparing .gt "") .epoch (Or.inl rfl)
  have hvalidBefore := hbefore.2 ⟨by decide, by decide⟩
  have hvalidSoon := hsoon.2 ⟨by decide, by decide⟩
  have hvalidLte := hlte.2 ⟨by decide, by decide⟩
  have hvalidGt := hgt.2 ⟨by decide, by decide⟩
  refine ⟨hvalidBefore, hvalidGt, hresolve _ _, ?_, ?_, ?_, ?_⟩
  · apply ((hbeforeResult "null" hvalidBefore rfl).1 _ _ (hresolve _ _) (by decide)).2
    exact Or.inl (by decide)
  · apply ((hsoonResult "soon" hvalidSoon rfl).1 _ _ (hresolve _ _) (by decide)).2
    exact Or.inl (by decide)
  · apply ((hlteResult "null" hvalidLte rfl).1 _ _ (hresolve _ _) (by decide)).2
    exact Or.inl (by decide)
  · exact (hgtResult "" hvalidGt rfl).2 rfl answered

/-- The empty operand is valid for `>` and `after`. Every text comes after it and it is no date, but
neither operator compares a response with it. -/
theorem not_compared_of_validate_emptyOperand :
    let comparing (operator : Operator) : Comparison :=
      { operator, key := some "q", operand := some "" }
    let answered : Responses := .ofList [("q", { answer := .text "2024-01-01" })]
    let result (operator : Operator) := (comparing operator).evaluate .epoch answered
    (comparing .gt).validate = .ok () ∧ (comparing .after).validate = .ok () ∧
      (comparing .gt).resolve answered = some "2024-01-01" ∧
      result .gt = .ok false ∧ result .after = .ok false ∧
      ¬Operator.gt.Compared .epoch "2024-01-01" "" (result .gt) ∧
      ¬Operator.after.Compared .epoch "2024-01-01" "" (result .after) := by
  intro comparing answered result
  have hgt : result .gt = .ok false := by rfl
  have hafter : result .after = .ok false := by rfl
  refine ⟨rfl, rfl, rfl, hgt, hafter, ?_, ?_⟩
  · rw [hgt, Operator.compared_empty_iff (by decide)]
    decide
  · rw [hafter, Operator.compared_empty_iff (by decide)]
    decide

end Comparison

end BranchingInterview
