import BranchingInterview.Proofs.Evaluation
import BranchingInterview.Proofs.Text.ByteOrder
import BranchingInterview.Proofs.Validation

/-!
Validation as a list of checks. Everything that validation asks of an interview stands in one list,
each check with the error that it gives: the starting screens first, then the candidates by the byte
order of the screens they are attached to. An interview is reported for the first check that fails.
-/

namespace BranchingInterview

variable {α : Type}

/-- Something that has to be so, and the error if it is not. -/
structure Check where
  passes : Bool
  error : ValidationError

namespace Check

def firstFailure (checks : List Check) : Except ValidationError Unit :=
  match checks.find? fun check => !check.passes with
  | some check => .error check.error
  | none => .ok ()

theorem firstFailure_nil : firstFailure [] = .ok () := rfl

theorem firstFailure_cons (check : Check) (rest : List Check) :
    firstFailure (check :: rest) =
      if check.passes then firstFailure rest else .error check.error := by
  cases hpasses : check.passes <;> simp [firstFailure, hpasses]

theorem firstFailure_append (checks more : List Check) :
    firstFailure (checks ++ more) = firstFailure checks >>= fun _ => firstFailure more := by
  induction checks with
  | nil => rfl
  | cons check rest ih =>
      rw [List.cons_append, firstFailure_cons, firstFailure_cons, ih]
      split <;> rfl

/-- Checking items one after the other makes all of their checks in one list. -/
theorem forM_eq_firstFailure {validate : α → Except ValidationError Unit} {checks : α → List Check}
    (hvalidate : ∀ item, validate item = firstFailure (checks item)) (items : List α) :
    items.forM validate = firstFailure (items.flatMap checks) := by
  induction items with
  | nil => rfl
  | cons item rest ih => rw [List.forM, List.flatMap_cons, firstFailure_append, hvalidate, ih]

theorem firstFailure_eq_ok_iff {checks : List Check} :
    firstFailure checks = .ok () ↔ ∀ check ∈ checks, check.passes = true := by
  have hnone : checks.find? (fun check => !check.passes) = none ↔
      ∀ check ∈ checks, check.passes = true := by
    simp [List.find?_eq_none]
  rw [← hnone, firstFailure]
  cases checks.find? fun check => !check.passes <;> simp

theorem firstFailure_eq_error_iff {checks : List Check} {error : ValidationError} :
    firstFailure checks = .error error ↔
      ∃ before check after, checks = before ++ check :: after ∧
        (∀ earlier ∈ before, earlier.passes = true) ∧ check.passes = false ∧
          check.error = error := by
  constructor
  · intro herror
    rw [firstFailure] at herror
    cases hfound : checks.find? fun check => !check.passes with
    | none => simp [hfound] at herror
    | some check =>
        obtain ⟨hfails, before, after, hsplit, hbefore⟩ := List.find?_eq_some_iff_append.1 hfound
        refine ⟨before, check, after, hsplit, by simpa using hbefore, by simpa using hfails, ?_⟩
        simpa [hfound] using herror
  · rintro ⟨before, check, after, rfl, hbefore, hfails, rfl⟩
    have hpass := firstFailure_eq_ok_iff.2 hbefore
    rw [firstFailure_append, hpass]
    change firstFailure (check :: after) = _
    rw [firstFailure_cons, hfails]
    rfl

end Check

namespace Comparison

/-- Only a comparison that holds always goes without a key. -/
def namesKey (comparison : Comparison) : Bool :=
  comparison.operator = .alwaysExecute ∨ comparison.key ∉ [none, some ""]

def namesOperand (comparison : Comparison) : Bool :=
  comparison.operator ∈ [.alwaysExecute, .isEmpty, .isNotEmpty] ∨ comparison.operand ≠ none

def checks (comparison : Comparison) : List Check :=
  [{ passes := comparison.namesKey, error := .missingKey comparison.operator.label },
    { passes := comparison.namesOperand, error := .missingOperand comparison.operator.label }]

theorem namesKey_eq (comparison : Comparison) :
    comparison.namesKey = !(comparison.operator.requiresKey && !comparison.hasKey) := by
  rw [Bool.eq_iff_iff, namesKey, decide_eq_true_eq, ← hasKey_iff, Bool.not_eq_true',
    Bool.and_eq_false_iff, Bool.not_eq_false', ← Bool.not_eq_true, Operator.requiresKey_iff,
    not_not]

theorem namesOperand_eq (comparison : Comparison) :
    comparison.namesOperand =
      !(comparison.operator.requiresOperand && comparison.operand.isNone) := by
  rw [Bool.eq_iff_iff, namesOperand, decide_eq_true_eq, Bool.not_eq_true',
    Bool.and_eq_false_iff, ← Bool.not_eq_true, Operator.requiresOperand_iff, not_not,
    Option.isNone_eq_false_iff, Option.isSome_iff_ne_none]

theorem validate_eq_firstFailure (comparison : Comparison) :
    comparison.validate = Check.firstFailure comparison.checks := by
  rw [checks, Check.firstFailure_cons, Check.firstFailure_cons, Check.firstFailure_nil,
    namesKey_eq, namesOperand_eq, validate]
  cases comparison.operator.requiresKey && !comparison.hasKey <;>
    cases comparison.operator.requiresOperand && comparison.operand.isNone <;> rfl

end Comparison

/-- A push must name a screen. -/
def Action.checks (action : Action) : List Check :=
  [{ passes := action ≠ .push [], error := .emptyPush }]

theorem Action.validate_eq_firstFailure (action : Action) :
    action.validate = Check.firstFailure action.checks := by
  rw [checks, Check.firstFailure_cons, Check.firstFailure_nil, validate_eq]
  by_cases hempty : action = .push [] <;> simp [hempty]

def Candidate.checks (candidate : Candidate) : List Check :=
  candidate.condition.checks ++ candidate.action.checks

theorem Candidate.validate_eq_firstFailure (candidate : Candidate) :
    candidate.validate = Check.firstFailure candidate.checks := by
  rw [checks, Check.firstFailure_append, ← Comparison.validate_eq_firstFailure,
    ← Action.validate_eq_firstFailure, validate]

namespace Interview

variable (interview : Interview)

/-- An id must be that of a screen. -/
def screenCheck (referrer id : String) : Check :=
  { passes := ∃ screen ∈ interview.screens, screen.id = id, error := .unknownScreen id referrer }

/-- The checks of a candidate that is attached to a screen. -/
def candidateChecks (screen : String) (candidate : Candidate) : List Check :=
  candidate.checks ++
    candidate.action.targets.map
      (interview.screenCheck ("a push action on screen '" ++ screen ++ "'"))

def checks : List Check :=
  interview.startingIds.map (interview.screenCheck "starting state") ++
    interview.actions.entries.flatMap fun entry =>
      entry.2.flatMap (interview.candidateChecks entry.1)

theorem passes_screenCheck (referrer id : String) :
    (interview.screenCheck referrer id).passes = interview.hasScreen id := by
  rw [Bool.eq_iff_iff, screenCheck, decide_eq_true_eq, hasScreen, List.any_eq_true]
  simp only [beq_iff_eq]

theorem validateScreens_eq_firstFailure (referrer : String) (ids : List String) :
    interview.validateScreens referrer ids =
      Check.firstFailure (ids.map (interview.screenCheck referrer)) := by
  have hfails : (fun check => !check.passes) ∘ interview.screenCheck referrer =
      fun id => !interview.hasScreen id := by
    funext id
    rw [Function.comp_apply, passes_screenCheck]
  rw [validateScreens, Check.firstFailure, List.find?_map, hfails]
  cases ids.find? fun id => !interview.hasScreen id <;> rfl

theorem validateCandidate_eq_firstFailure (screen : String) (candidate : Candidate) :
    interview.validateCandidate screen candidate =
      Check.firstFailure (interview.candidateChecks screen candidate) := by
  rw [candidateChecks, Check.firstFailure_append, ← Candidate.validate_eq_firstFailure,
    ← validateScreens_eq_firstFailure, validateCandidate]
  cases candidate.action <;> rfl

theorem validate_eq_firstFailure :
    interview.validate = Check.firstFailure interview.checks := by
  rw [checks, Check.firstFailure_append, ← validateScreens_eq_firstFailure, validate]
  congr 1
  funext _
  refine Check.forM_eq_firstFailure (fun entry => ?_) interview.actions.entries
  exact Check.forM_eq_firstFailure (interview.validateCandidate_eq_firstFailure entry.1) entry.2

theorem ascending_bytes_actions :
    (interview.actions.entries.map Prod.fst).Pairwise fun left right =>
      Text.bytes left < Text.bytes right :=
  interview.actions.ascending.imp Text.bytes_lt_bytes_iff.2

/-- Validation fails with the error of the first check that fails, and passes if there is none. The
checks of candidates come in ascending byte order of the screens they are attached to. -/
theorem validate_reports_first :
    (interview.validate = .ok () ↔ ∀ check ∈ interview.checks, check.passes = true) ∧
      (∀ error, interview.validate = .error error ↔
        ∃ before check after, interview.checks = before ++ check :: after ∧
          (∀ earlier ∈ before, earlier.passes = true) ∧ check.passes = false ∧
            check.error = error) ∧
      (interview.actions.entries.map Prod.fst).Pairwise fun left right =>
        Text.bytes left < Text.bytes right := by
  rw [validate_eq_firstFailure]
  exact ⟨Check.firstFailure_eq_ok_iff, fun error => Check.firstFailure_eq_error_iff,
    interview.ascending_bytes_actions⟩

/-- Of several things that are wrong, the starting screens come first; then, by screen, what a
candidate lacks comes before the targets of its push. -/
theorem validate_reports_first_screens :
    let interview (starting : List String) (operand : Option String) : Interview :=
      { screens := [{ id := "a" }, { id := "b" }]
        startingState := starting
        actions := .ofList
          [("b", [⟨{ operator := .eq }, .push []⟩]),
            ("a", [.always (.push ["b"]),
              ⟨{ operator := .gt, key := some "q", operand }, .push ["b", "x", "y"]⟩])] }
    (interview ["b", "ghost"] none).validate =
        .error (.unknownScreen "ghost" "starting state") ∧
      (interview ["b"] none).validate = .error (.missingOperand ">") ∧
      (interview ["b"] (some "1")).validate =
        .error (.unknownScreen "x" "a push action on screen 'a'") := by
  intro interview
  refine ⟨?_, ?_, ?_⟩
  · apply ((validate_reports_first (interview ["b", "ghost"] none)).2.1 _).2
    exact ⟨(interview ["b", "ghost"] none).checks.take 1, _,
      (interview ["b", "ghost"] none).checks.drop 2, rfl, by decide, rfl, rfl⟩
  · apply ((validate_reports_first (interview ["b"] none)).2.1 _).2
    exact ⟨(interview ["b"] none).checks.take 6, _, (interview ["b"] none).checks.drop 7, rfl,
      by decide, rfl, rfl⟩
  · apply ((validate_reports_first (interview ["b"] (some "1"))).2.1 _).2
    exact ⟨(interview ["b"] (some "1")).checks.take 9, _,
      (interview ["b"] (some "1")).checks.drop 10, rfl, by decide, rfl, rfl⟩

end Interview

end BranchingInterview
