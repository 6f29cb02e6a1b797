import BranchingInterview.Proofs.Evaluation
import Mathlib.Control.Monad.Basic

/-!
The date operators as relations between texts. They fail together or not at all; on texts that are
dates four of them are the two halves of one total preorder, and the fifth is an equivalence.
-/

namespace BranchingInterview

variable {nullDate : Date}

theorem Operator.exists_compareDates {operator : Operator} (hdate : operator.isDate = true) :
    ∃ test, ∀ nullDate response operand,
      operator.holds nullDate response operand = compareDates nullDate test response operand := by
  cases operator with
  | after | afterOrEqual | before | beforeOrEqual | equalsDate => exact ⟨_, fun _ _ _ => rfl⟩
  | _ => cases hdate

theorem compareDates_of_missing {test : Instant → Instant → Bool} {response operand : Option String}
    (hmissing : response ∈ [none, some ""] ∨ operand ∈ [none, some ""]) :
    compareDates nullDate test response operand = .ok false := by
  rw [compareDates, bothPresent_of_missing hmissing]

/-- Whether a comparison of dates fails, and how, does not depend on what is asked of them. -/
theorem compareDates_returns_or_fails (nullDate : Date) (response operand : Option String) :
    (∀ test, ∃ value, compareDates nullDate test response operand = .ok value) ∨
      ∃ error, ∀ test, compareDates nullDate test response operand = .error error := by
  rcases hpresent : bothPresent response operand with _ | ⟨left, right⟩
  · refine Or.inl fun test => ⟨false, ?_⟩
    rw [compareDates, hpresent]
  · cases hleft : parseDate nullDate left with
    | error error =>
        refine Or.inr ⟨error, fun test => ?_⟩
        simp only [compareDates, hpresent, hleft]
        rfl
    | ok first =>
        cases hright : parseDate nullDate right with
        | error error =>
            refine Or.inr ⟨error, fun test => ?_⟩
            simp only [compareDates, hpresent, hleft, hright]
            rfl
        | ok second =>
            refine Or.inl fun test => ⟨test first second, ?_⟩
            simp only [compareDates, hpresent, hleft, hright]
            rfl

theorem Comparison.evaluate_of_isDate {comparison : Comparison} {operator : Operator}
    (hkey : comparison.hasKey = true) (hdate : operator.isDate = true) (nullDate : Date)
    (responses : Responses) :
    ({ comparison with operator } : Comparison).evaluate nullDate responses =
      operator.holds nullDate (comparison.resolve responses) comparison.operand := by
  refine evaluate_of_hasKey hkey ?_ nullDate responses
  rintro rfl
  cases hdate

theorem Calendar.parse_empty (nullDate : Date) : parse nullDate "" = none := by
  rfl

theorem Calendar.ne_empty_of_parse {text : String} {instant : Instant}
    (hparse : parse nullDate text = some instant) : text ≠ "" := by
  rintro rfl
  rw [parse_empty] at hparse
  cases hparse

theorem compareDates_of_parse {left right : String} {first second : Instant}
    (hleft : Calendar.parse nullDate left = some first)
    (hright : Calendar.parse nullDate right = some second) (test : Instant → Instant → Bool) :
    compareDates nullDate test (some left) (some right) = .ok (test first second) := by
  have hpresent : bothPresent (some left) (some right) = some (left, right) := by
    refine if_neg ?_
    rintro (hempty | hempty)
    · exact Calendar.ne_empty_of_parse hleft hempty
    · exact Calendar.ne_empty_of_parse hright hempty
  simp only [compareDates, hpresent, parseDate, hleft, hright]
  rfl

/-- The texts that are read as dates. -/
abbrev DateText (nullDate : Date) : Type :=
  { text : String // ∃ instant, Calendar.parse nullDate text = some instant }

namespace Operator

/-- The operator holds of a response and an operand. -/
def Relates (operator : Operator) (left right : DateText nullDate) : Prop :=
  operator.holds nullDate (some left.1) (some right.1) = .ok true

/-- What a date operator asks of the instants of a response and an operand. -/
def Asks (first second : Instant) : Operator → Prop
  | after => second < first
  | afterOrEqual => second ≤ first
  | before => first < second
  | beforeOrEqual => first ≤ second
  | equalsDate => first.day = second.day
  | _ => False

instance (first second : Instant) : (operator : Operator) → Decidable (operator.Asks first second)
  | after => inferInstanceAs (Decidable (second < first))
  | afterOrEqual => inferInstanceAs (Decidable (second ≤ first))
  | before => inferInstanceAs (Decidable (first < second))
  | beforeOrEqual => inferInstanceAs (Decidable (first ≤ second))
  | equalsDate => inferInstanceAs (Decidable (first.day = second.day))
  | alwaysExecute | eq | gt | gte | lt | lte | isEmpty | isNotEmpty =>
      inferInstanceAs (Decidable False)

theorem holds_of_parse {operator : Operator} (hdate : operator.isDate = true) {left right : String}
    {first second : Instant} (hleft : Calendar.parse nullDate left = some first)
    (hright : Calendar.parse nullDate right = some second) :
    operator.holds nullDate (some left) (some right) = .ok (operator.Asks first second) := by
  cases operator with
  | after | afterOrEqual | before | beforeOrEqual | equalsDate =>
      exact compareDates_of_parse hleft hright _
  | _ => cases hdate

theorem relates_iff {operator : Operator} (hdate : operator.isDate = true)
    {left right : DateText nullDate} {first second : Instant}
    (hleft : Calendar.parse nullDate left.1 = some first)
    (hright : Calendar.parse nullDate right.1 = some second) :
    operator.Relates left right ↔ operator.Asks first second := by
  rw [Relates, holds_of_parse hdate hleft hright, Except.ok.injEq, decide_eq_true_iff]

/-- The operators that compare instants, and not days. -/
def ordering : List Operator := [after, afterOrEqual, before, beforeOrEqual]

theorem relates_trans {operator : Operator} (hordering : operator ∈ ordering)
    {left middle right : DateText nullDate} (hfirst : operator.Relates left middle)
    (hsecond : operator.Relates middle right) : operator.Relates left right := by
  have hdate : ∀ operator ∈ ordering, operator.isDate = true := by decide
  obtain ⟨first, hleft⟩ := left.2
  obtain ⟨second, hmiddle⟩ := middle.2
  obtain ⟨third, hright⟩ := right.2
  rw [relates_iff (hdate operator hordering) hleft hmiddle] at hfirst
  rw [relates_iff (hdate operator hordering) hmiddle hright] at hsecond
  rw [relates_iff (hdate operator hordering) hleft hright]
  cases operator with
  | after => exact Instant.lt_trans hsecond hfirst
  | afterOrEqual => exact Instant.le_trans hsecond hfirst
  | before => exact Instant.lt_trans hfirst hsecond
  | beforeOrEqual => exact Instant.le_trans hfirst hsecond
  | _ => exact absurd hordering (by decide)

theorem equalsDate_equivalence : Equivalence (@Relates nullDate equalsDate) where
  refl text := by
    obtain ⟨instant, htext⟩ := text.2
    exact (relates_iff rfl htext htext).2 rfl
  symm {left right} hsame := by
    obtain ⟨first, hleft⟩ := left.2
    obtain ⟨second, hright⟩ := right.2
    rw [relates_iff rfl hleft hright] at hsame
    rw [relates_iff rfl hright hleft]
    exact hsame.symm
  trans {left middle right} hfirst hsecond := by
    obtain ⟨first, hleft⟩ := left.2
    obtain ⟨second, hmiddle⟩ := middle.2
    obtain ⟨third, hright⟩ := right.2
    rw [relates_iff rfl hleft hmiddle] at hfirst
    rw [relates_iff rfl hmiddle hright] at hsecond
    rw [relates_iff rfl hleft hright]
    exact hfirst.trans hsecond

/-- The ordering operators are the strict and the weak half of one total preorder, both ways
round. -/
structure OrderInstants (nullDate : Date) : Prop where
  le_total : ∀ first second : Instant, first ≤ second ∨ second ≤ first
  le_trans : ∀ first second third : Instant, first ≤ second → second ≤ third → first ≤ third
  asks : ∀ (left right : DateText nullDate) (first second : Instant),
    Calendar.parse nullDate left.1 = some first → Calendar.parse nullDate right.1 = some second →
      (after.Relates left right ↔ ¬first ≤ second) ∧
      (afterOrEqual.Relates left right ↔ second ≤ first) ∧
      (before.Relates left right ↔ ¬second ≤ first) ∧
      (beforeOrEqual.Relates left right ↔ first ≤ second)
  after_iff : ∀ left right : DateText nullDate,
    after.Relates left right ↔ ¬beforeOrEqual.Relates left right
  before_iff : ∀ left right : DateText nullDate,
    before.Relates left right ↔ ¬afterOrEqual.Relates left right
  some_holds : ∀ left right : DateText nullDate,
    after.Relates left right ∨ before.Relates left right ∨
      afterOrEqual.Relates left right ∧ beforeOrEqual.Relates left right
  one_holds : ∀ left right : DateText nullDate,
    ¬(after.Relates left right ∧ before.Relates left right) ∧
      ¬(after.Relates left right ∧
        afterOrEqual.Relates left right ∧ beforeOrEqual.Relates left right) ∧
      ¬(before.Relates left right ∧
        afterOrEqual.Relates left right ∧ beforeOrEqual.Relates left right)
  after_swap : ∀ left right : DateText nullDate,
    after.Relates left right ↔ before.Relates right left
  afterOrEqual_swap : ∀ left right : DateText nullDate,
    afterOrEqual.Relates left right ↔ beforeOrEqual.Relates right left
  trans : ∀ operator ∈ ordering, ∀ left middle right : DateText nullDate,
    operator.Relates left middle → operator.Relates middle right → operator.Relates left right

theorem asks_of_parse {left right : DateText nullDate} {first second : Instant}
    (hleft : Calendar.parse nullDate left.1 = some first)
    (hright : Calendar.parse nullDate right.1 = some second) :
    (after.Relates left right ↔ ¬first ≤ second) ∧
      (afterOrEqual.Relates left right ↔ second ≤ first) ∧
      (before.Relates left right ↔ ¬second ≤ first) ∧
      (beforeOrEqual.Relates left right ↔ first ≤ second) := by
  refine ⟨?_, relates_iff rfl hleft hright, ?_, relates_iff rfl hleft hright⟩
  · rw [relates_iff rfl hleft hright, Asks, Instant.lt_iff_not_le]
  · rw [relates_iff rfl hleft hright, Asks, Instant.lt_iff_not_le]

theorem orderInstants (nullDate : Date) : OrderInstants nullDate := by
  have hasks (left right : DateText nullDate) :
      ∃ first second : Instant,
        (after.Relates left right ↔ ¬first ≤ second) ∧
        (afterOrEqual.Relates left right ↔ second ≤ first) ∧
        (before.Relates left right ↔ ¬second ≤ first) ∧
        (beforeOrEqual.Relates left right ↔ first ≤ second) ∧
        (before.Relates right left ↔ ¬first ≤ second) ∧
        (beforeOrEqual.Relates right left ↔ second ≤ first) := by
    obtain ⟨first, hleft⟩ := left.2
    obtain ⟨second, hright⟩ := right.2
    obtain ⟨hafter, hafterOrEqual, hbefore, hbeforeOrEqual⟩ := asks_of_parse hleft hright
    obtain ⟨-, -, hswapped, hswappedOrEqual⟩ := asks_of_parse hright hleft
    exact ⟨first, second, hafter, hafterOrEqual, hbefore, hbeforeOrEqual, hswapped,
      hswappedOrEqual⟩
  constructor
  case le_total => exact Instant.le_total
  case le_trans => exact fun _ _ _ => Instant.le_trans
  case asks => exact fun _ _ _ _ => asks_of_parse
  case trans => exact fun _ hordering _ _ _ => relates_trans hordering
  all_goals
    intro left right
    obtain ⟨first, second, hafter, hafterOrEqual, hbefore, hbeforeOrEqual, hswapped,
      hswappedOrEqual⟩ := hasks left right
    have htotal := Instant.le_total first second
    simp only [hafter, hafterOrEqual, hbefore, hbeforeOrEqual, hswapped, hswappedOrEqual]
  case some_holds => grind
  case one_holds => grind

end Operator

/-- The date operators fail together, hold of nothing that is missing, and order and compare the
texts that are dates. -/
theorem dateOperators_laws (nullDate : Date) :
    (∀ (comparison : Comparison) (responses : Responses), comparison.hasKey = true →
      let result (operator : Operator) :=
        ({ comparison with operator } : Comparison).evaluate nullDate responses
      (∀ operator, operator.isDate = true →
        result operator =
          operator.holds nullDate (comparison.resolve responses) comparison.operand) ∧
      ((∀ operator, operator.isDate = true → ∃ value, result operator = .ok value) ∨
        ∃ error, ∀ operator, operator.isDate = true → result operator = .error error) ∧
      (comparison.resolve responses ∈ [none, some ""] ∨ comparison.operand ∈ [none, some ""] →
        ∀ operator, operator.isDate = true → result operator = .ok false)) ∧
      Operator.OrderInstants nullDate ∧ Equivalence (@Operator.Relates nullDate .equalsDate) := by
  refine ⟨?_, Operator.orderInstants nullDate, Operator.equalsDate_equivalence⟩
  intro comparison responses hkey result
  have hresult : ∀ operator, operator.isDate = true → ∃ test,
      result operator =
        compareDates nullDate test (comparison.resolve responses) comparison.operand := by
    intro operator hdate
    obtain ⟨test, htest⟩ := Operator.exists_compareDates hdate
    exact ⟨test, (Comparison.evaluate_of_isDate hkey hdate nullDate responses).trans (htest _ _ _)⟩
  refine ⟨?_, ?_, ?_⟩
  · intro operator hdate
    exact Comparison.evaluate_of_isDate hkey hdate nullDate responses
  · rcases compareDates_returns_or_fails nullDate (comparison.resolve responses)
      comparison.operand with hreturns | ⟨error, hfails⟩
    · refine Or.inl fun operator hdate => ?_
      obtain ⟨test, htest⟩ := hresult operator hdate
      rw [htest]
      exact hreturns test
    · refine Or.inr ⟨error, fun operator hdate => ?_⟩
      obtain ⟨test, htest⟩ := hresult operator hdate
      rw [htest, hfails test]
  · intro hmissing operator hdate
    obtain ⟨test, htest⟩ := hresult operator hdate
    rw [htest, compareDates_of_missing hmissing]

/-- A leap second, the midnight after it on a clock that is ahead, and a moment later. -/
theorem dateOperators_laws_leapSecond :
    let comparison : Comparison :=
      { operator := .before, key := some "q", operand := some "2024-01-02T01:00+01:00" }
    let answered : Responses := .ofList [("q", { answer := .text "2024-01-01T23:59:60Z" })]
    let isDate (text : String) := ∃ instant, Calendar.parse .epoch text = some instant
    comparison.hasKey = true ∧
      comparison.evaluate .epoch answered = .ok true ∧
      (∀ operator, operator.isDate = true → ∃ value,
        ({ comparison with operator } : Comparison).evaluate .epoch answered = .ok value) ∧
      ({ comparison with operator := .equalsDate } : Comparison).evaluate .epoch {} = .ok false ∧
      ∃ (first : isDate "2024-01-01T23:59:60Z") (second : isDate "2024-01-02T01:00+01:00")
        (third : isDate " 2024-01-02T00:00:00.5"),
        Operator.before.Relates ⟨_, first⟩ ⟨_, second⟩ ∧
        Operator.before.Relates ⟨_, second⟩ ⟨_, third⟩ ∧
        Operator.before.Relates ⟨_, first⟩ ⟨_, third⟩ := by
  intro comparison answered isDate
  have hkey : comparison.hasKey = true := by decide
  have hbefore : comparison.evaluate .epoch answered = .ok true := by
    decide +kernel +zetaReduce
  obtain ⟨hconditions, horder, -⟩ := dateOperators_laws .epoch
  obtain ⟨-, hreturns, -⟩ := hconditions comparison answered hkey
  obtain ⟨-, -, hmissing⟩ := hconditions comparison {} hkey
  have first : isDate "2024-01-01T23:59:60Z" := Option.isSome_iff_exists.1 (by decide +kernel)
  have second : isDate "2024-01-02T01:00+01:00" := Option.isSome_iff_exists.1 (by decide +kernel)
  have third : isDate " 2024-01-02T00:00:00.5" := Option.isSome_iff_exists.1 (by decide +kernel)
  have hfirst : Operator.before.Relates ⟨_, first⟩ ⟨_, second⟩ := by
    change Operator.before.holds .epoch (some "2024-01-01T23:59:60Z")
      (some "2024-01-02T01:00+01:00") = .ok true
    decide +kernel
  have hsecond : Operator.before.Relates ⟨_, second⟩ ⟨_, third⟩ := by
    change Operator.before.holds .epoch (some "2024-01-02T01:00+01:00")
      (some " 2024-01-02T00:00:00.5") = .ok true
    decide +kernel
  refine ⟨hkey, hbefore, ?_, hmissing (Or.inl (by decide)) .equalsDate rfl, first, second, third,
    hfirst, hsecond, horder.trans .before (by decide) _ _ _ hfirst hsecond⟩
  refine hreturns.resolve_right ?_
  rintro ⟨error, hfails⟩
  cases hbefore.symm.trans (hfails .before rfl)

end BranchingInterview
