import BranchingInterview.Clause
import BranchingInterview.Proofs.Evaluation
import BranchingInterview.Proofs.Groups
import BranchingInterview.Proofs.Validation

/-!
Clauses that are to execute always. Validation makes sure that `alwaysExecute` is then the one
condition of the whole chain, so that no answer matters to the action that is selected. It does not
look at the groups around the condition: an OR without conditions still stops the clause.
-/

namespace BranchingInterview

variable {ε : Type}

namespace Formula

/-- Whether the formula holds where all of its leaves do. -/
def holdsWithLeaves (formula : Formula) : Bool := formula.value fun _ => true

theorem evaluate_of_leaves_hold {test : Comparison → Except ε Bool} (formula : Formula)
    (hleaves : ∀ comparison ∈ formula.leaves, test comparison = .ok true) :
    formula.evaluate test = .ok formula.holdsWithLeaves := by
  obtain ⟨result, hresult⟩ := exists_evaluate_eq_ok formula fun comparison hcomparison =>
    ⟨true, hleaves comparison hcomparison⟩
  have hcompletes : Completes test formula.leaves fun _ => true := by
    intro position comparison value hleaf hvalue
    rw [hleaves comparison (List.mem_of_getElem? hleaf)] at hvalue
    exact Except.ok.inj hvalue
  rw [hresult, holdsWithLeaves, value_of_evaluate test formula result _ hresult hcompletes]

mutual

/-- No OR in the formula is without conditions. -/
def hasAlternatives : Formula → Bool
  | leaf _ => true
  | group _ .and conditions => allHaveAlternatives conditions
  | group _ .or conditions => !conditions.isEmpty && allHaveAlternatives conditions

def allHaveAlternatives : List Formula → Bool
  | [] => true
  | condition :: rest => condition.hasAlternatives && allHaveAlternatives rest

end

mutual

theorem holdsWithLeaves_of_hasAlternatives : ∀ formula : Formula,
    formula.hasAlternatives = true → formula.holdsWithLeaves = true
  | leaf _, _ => rfl
  | group _ .and conditions, hall => by
      rw [holdsWithLeaves, value, GroupKind.combine, List.all_eq_true]
      exact eq_true_of_mem_valuesOfAll conditions hall
  | group _ .or [], hall => by cases hall
  | group _ .or (condition :: rest), hall => by
      have hfirst : condition.hasAlternatives = true := (Bool.and_eq_true_iff.1 hall).1
      have hholds := holdsWithLeaves_of_hasAlternatives condition hfirst
      rw [holdsWithLeaves] at hholds
      rw [holdsWithLeaves, value, GroupKind.combine, valuesOfAll, List.any_cons, hholds]
      rfl

theorem eq_true_of_mem_valuesOfAll : ∀ conditions : List Formula,
    allHaveAlternatives conditions = true →
      ∀ value ∈ valuesOfAll (fun _ => true) conditions, value = true
  | [], _ => fun _ hmem => absurd hmem List.not_mem_nil
  | condition :: rest, hall => by
      obtain ⟨hfirst, hrest⟩ := Bool.and_eq_true_iff.1 hall
      rw [valuesOfAll, List.forall_mem_cons]
      exact ⟨holdsWithLeaves_of_hasAlternatives condition hfirst,
        eq_true_of_mem_valuesOfAll rest hrest⟩

end

end Formula

/-- The action of the first branch whose guard holds with its leaves, or else the last action. -/
def Chain.settled : Chain → Action
  | otherwise action => action
  | branch first rest =>
      if first.guard.toFormula.holdsWithLeaves then first.action else rest.settled

theorem Chain.select_eq_settled {test : Comparison → Except ε Bool} (chain : Chain)
    (hconditions : ∀ comparison ∈ chain.conditions, test comparison = .ok true) :
    chain.select test = .ok chain.settled := by
  induction chain with
  | otherwise action => rfl
  | branch first rest ih =>
      rw [conditions, List.forall_mem_append] at hconditions
      obtain ⟨hguard, hrest⟩ := hconditions
      have hevaluate : first.guard.evaluate test = .ok first.guard.toFormula.holdsWithLeaves :=
        first.guard.toFormula.evaluate_of_leaves_hold hguard
      rw [select, hevaluate, settled]
      cases first.guard.toFormula.holdsWithLeaves with
      | true => rfl
      | false => exact ih hrest

theorem validateAlways_cons_eq_ok_iff {first : Comparison} {rest : List Comparison} :
    validateAlways (first :: rest) = .ok () ↔
      (∀ later ∈ rest, later.operator ≠ .alwaysExecute) ∧
        (first.operator = .alwaysExecute → rest = []) := by
  have hlater : rest.any (·.operator == .alwaysExecute) = false ↔
      ∀ later ∈ rest, later.operator ≠ .alwaysExecute := by
    simp only [List.any_eq_false, beq_iff_eq, ne_eq]
  have halone : (first.operator == .alwaysExecute && !rest.isEmpty) = false ↔
      (first.operator = .alwaysExecute → rest = []) := by
    simp only [Bool.and_eq_false_iff, beq_eq_false_iff_ne, Bool.not_eq_false', List.isEmpty_iff,
      imp_iff_not_or, ne_eq]
  rw [← hlater, ← halone, validateAlways]
  cases rest.any (·.operator == .alwaysExecute) with
  | true => exact iff_of_false (fun hok => by cases hok) fun hvalid => by cases hvalid.1
  | false =>
      cases first.operator == .alwaysExecute && !rest.isEmpty with
      | true => exact iff_of_false (fun hok => by cases hok) fun hvalid => by cases hvalid.2
      | false => exact iff_of_true rfl ⟨rfl, rfl⟩

theorem eq_singleton_of_validateAlways {conditions : List Comparison} {comparison : Comparison}
    (hvalid : validateAlways conditions = .ok ()) (hmem : comparison ∈ conditions)
    (halways : comparison.operator = .alwaysExecute) : conditions = [comparison] := by
  cases conditions with
  | nil => cases hmem
  | cons first rest =>
      obtain ⟨hlater, halone⟩ := validateAlways_cons_eq_ok_iff.1 hvalid
      rcases List.mem_cons.1 hmem with rfl | hrest
      · rw [halone halways]
      · exact absurd halways (hlater comparison hrest)

namespace Clause

variable {clause : Clause} {comparison : Comparison}

theorem validate_eq_ok_iff :
    clause.validate = .ok () ↔ validateAlways clause.conditions = .ok () ∧
      (∀ comparison ∈ clause.conditions, comparison.validate = .ok ()) ∧
        ∀ action ∈ clause.actions, action.validate = .ok () := by
  rw [validate, check_bind_eq_ok_iff, check_bind_eq_ok_iff, forM_eq_ok_iff, forM_eq_ok_iff]

theorem conditions_eq_of_validate (hvalid : clause.validate = .ok ())
    (hmem : comparison ∈ clause.conditions) (halways : comparison.operator = .alwaysExecute) :
    clause.conditions = [comparison] :=
  eq_singleton_of_validateAlways (validate_eq_ok_iff.1 hvalid).1 hmem halways

/-- A valid clause that is to execute always selects one action, whatever the responses. It is the
clause's own if the guard holds with its leaves, as it does where no OR in it is empty. -/
theorem select_of_always (hvalid : clause.validate = .ok ())
    (hleaf : comparison ∈ clause.first.guard.leaves)
    (halways : comparison.operator = .alwaysExecute) :
    (∀ nullDate responses, clause.select (Comparison.evaluate nullDate responses) =
        .ok (if clause.first.guard.toFormula.holdsWithLeaves then clause.first.action
          else clause.rest.settled)) ∧
      (clause.first.guard.toFormula.hasAlternatives = true →
        ∀ nullDate responses, clause.select (Comparison.evaluate nullDate responses) =
          .ok clause.first.action) := by
  have hsole : clause.conditions = [comparison] :=
    conditions_eq_of_validate hvalid (List.mem_append_left _ hleaf) halways
  have hselect : ∀ nullDate responses,
      clause.select (Comparison.evaluate nullDate responses) = .ok clause.toChain.settled := by
    intro nullDate responses
    refine clause.toChain.select_eq_settled fun other hother => ?_
    obtain rfl : other = comparison := List.mem_singleton.1 (hsole ▸ hother)
    exact Comparison.evaluate_of_always halways nullDate responses
  refine ⟨hselect, fun halternatives nullDate responses => ?_⟩
  have hholds := Formula.holdsWithLeaves_of_hasAlternatives _ halternatives
  rw [hselect, toChain, Chain.settled, if_pos hholds]

theorem select_of_always_nested :
    let always : Group := ⟨none, .or, [.group none .and [], .group none .or [.leaf .always]]⟩
    let unreached : Branch := { guard := ⟨none, .or, []⟩, action := .doNothing }
    let clause : Clause :=
      ⟨{ guard := always, action := .push ["a"] }, .branch unreached (.otherwise .endInterview)⟩
    clause.validate = .ok () ∧ .always ∈ always.leaves ∧
      clause.select (Comparison.evaluate .epoch {}) = .ok (.push ["a"]) := by
  intro always unreached clause
  have hvalid : clause.validate = .ok () := by rfl
  have hleaf : .always ∈ always.leaves := by decide
  obtain ⟨-, hown⟩ := select_of_always hvalid hleaf rfl
  exact ⟨hvalid, hleaf, hown (by rfl) .epoch {}⟩

/-- An OR without conditions stands beside the only condition, and the clause never executes. -/
theorem not_select_of_always_emptyOr :
    let guard : Group := ⟨none, .and, [.leaf .always, .group none .or []]⟩
    let clause : Clause := { first := { guard, action := .endInterview } }
    clause.validate = .ok () ∧ .always ∈ guard.leaves ∧
      (∀ nullDate responses,
        clause.select (Comparison.evaluate nullDate responses) = .ok .doNothing) ∧
      ¬∀ nullDate responses,
        clause.select (Comparison.evaluate nullDate responses) = .ok clause.first.action := by
  intro guard clause
  have hselect : ∀ nullDate responses,
      clause.select (Comparison.evaluate nullDate responses) = .ok .doNothing :=
    fun nullDate responses => rfl
  refine ⟨by rfl, by decide, hselect, fun hexecutes => ?_⟩
  cases (hselect .epoch {}).symm.trans (hexecutes .epoch {})

end Clause

end BranchingInterview
