import BranchingInterview.Proofs.Dispatches
import BranchingInterview.Proofs.Groups
import BranchingInterview.Proofs.Policy

/-!
Failures of conditions, told exactly. A comparison fails if and only if a date operator has two texts
to compare and one of them is no date; a group fails if and only if a condition that it evaluates
does; and of a turn, a text that is no date is the error if and only if a candidate that the turn
gets to fails on it.
-/

namespace BranchingInterview

variable {σ : Type}

/-! A group fails on a condition that it gets to. -/

namespace Formula

variable {ε : Type} (test : Comparison → Except ε Bool) (error : ε)

mutual

theorem evaluate_eq_error_iff : ∀ formula : Formula,
    formula.evaluate test = .error error ↔
      ∃ leaf ∈ formula.reached test, test leaf = .error error
  | leaf comparison => by simp [evaluate, reached]
  | group _ kind conditions => evaluateAll_eq_error_iff kind conditions

theorem evaluateAll_eq_error_iff (kind : GroupKind) : ∀ conditions : List Formula,
    evaluateAll test kind conditions = .error error ↔
      ∃ leaf ∈ reachedOfAll test kind conditions, test leaf = .error error
  | [] => by simp [evaluateAll, reachedOfAll]
  | condition :: rest => by
      have hfirst := evaluate_eq_error_iff condition
      have hrest := evaluateAll_eq_error_iff kind rest
      rw [evaluateAll_cons_eq_error_iff, reachedOfAll]
      cases hvalue : condition.evaluate test with
      | error reason =>
          rw [hvalue] at hfirst
          simpa using hfirst
      | ok value =>
          -- Nothing that was looked at in a condition that returns a value has failed.
          have hnone : ¬∃ leaf ∈ condition.reached test, test leaf = .error error := by
            rw [← hfirst, hvalue]
            simp
          by_cases hneutral : value = kind.neutral
          · simp only [hneutral, if_true, List.mem_append, or_and_right, exists_or, hnone, false_or,
              reduceCtorEq, true_and]
            exact hrest
          · simpa [hneutral] using hnone

end

end Formula

/-! A turn fails on the condition of a candidate that it gets to, or on an action. -/

theorem exists_split_cons_iff {α : Type} {first : α} {rest : List α}
    {Stops : List α → α → Prop} :
    (∃ before item after, first :: rest = before ++ item :: after ∧ Stops before item) ↔
      Stops [] first ∨
        ∃ before item after, rest = before ++ item :: after ∧ Stops (first :: before) item := by
  constructor
  · rintro ⟨_ | ⟨head, before⟩, item, after, hsplit, hstops⟩
    · rw [(List.cons.inj hsplit).1]
      exact Or.inl hstops
    · obtain ⟨rfl, hrest⟩ := List.cons.inj hsplit
      exact Or.inr ⟨before, item, after, hrest, hstops⟩
  · rintro (hstops | ⟨before, item, after, rfl, hstops⟩)
    · exact ⟨[], first, rest, rfl, hstops⟩
    · exact ⟨first :: before, item, after, rfl, hstops⟩

theorem exists_of_resolution_eq_error {screens : List Screen} {policy : ScreenPolicy}
    {ids : List String} {error : ScriptError}
    (herror : resolution screens policy ids = .error error) : ∃ id, error = .missingScreen id := by
  unfold resolution at herror
  split at herror
  · next id _ => exact ⟨id, (Except.error.inj herror).symm⟩
  · cases herror

/-- Neither a missing screen nor a rejected command is a text that is no date. -/
theorem Action.result_plan_ne_invalidDate (action : Action) (screens : List Screen)
    (policy : ScreenPolicy) (router : Router σ) (state : σ) (text : String) :
    ((action.plan screens policy).reply router state).1.result ≠ .error (.invalidDate text) := by
  intro hresult
  have hfailure := Plan.failure_of_execute hresult (by simp)
  cases action with
  | push ids =>
      rw [plan, pushPlan] at hfailure
      cases hresolution : resolution screens policy ids with
      | ok found => simp [hresolution] at hfailure
      | error error =>
          obtain ⟨id, rfl⟩ := exists_of_resolution_eq_error hresolution
          simp [hresolution, Plan.fail] at hfailure
  | _ => cases hfailure

namespace Script

variable {script : Script} {router : Router σ} {screen : String} {responses : Responses}
  {text : String}

theorem result_course_eq_invalidDate_iff {candidates : List Candidate} {state : σ} :
    (script.course router screen responses candidates state).result = .error (.invalidDate text) ↔
      ∃ before candidate after, candidates = before ++ candidate :: after ∧
        (script.course router screen responses before state).result = .ok () ∧
        script.guard responses candidate = .error (.invalidDate text) := by
  induction candidates generalizing state with
  | nil => simp [course]
  | cons candidate rest ih =>
      rw [exists_split_cons_iff]
      simp only [course]
      cases hguard : script.guard responses candidate with
      | error reason => simp
      | ok fires =>
          cases fires with
          | false => simpa using ih
          | true =>
              have hreply : (script.dispatch router screen candidate.action state).reply =
                  ((script.actionPlan candidate.action).reply router state).1 := by
                rw [dispatch_eq]
              cases hresult :
                  (script.dispatch router screen candidate.action state).reply.result with
              | error reason =>
                  have hother : reason ≠ .invalidDate text := by
                    rintro rfl
                    rw [hreply] at hresult
                    exact candidate.action.result_plan_ne_invalidDate _ _ _ _ _ hresult
                  simp [Dispatch.followedBy_of_failed hresult, hother]
              | ok _ =>
                  simp only [Dispatch.followedBy_of_ok hresult]
                  simpa using ih

theorem result_process_eq_invalidDate_iff {screen : Screen} {state : σ} :
    (script.reply router state (.process screen responses)).1.result =
        .error (.invalidDate text) ↔
      (script.processCourse router screen.id responses state).result =
        .error (.invalidDate text) := by
  rw [reply_process]
  cases hresult : (script.processCourse router screen.id responses state).result with
  | error reason => simp [Course.finish_of_failed hresult]
  | ok _ =>
      have hnext : ((Plan.send .next).reply router
          (script.processCourse router screen.id responses state).state).1.result ≠
          .error (.invalidDate text) := by
        intro hfailed
        have hfailure := Plan.failure_of_execute hfailed (by simp)
        cases hfailure
      simpa [Course.finish, Reply.andThen, hresult] using hnext

end Script

/-- A comparison fails if and only if a date operator has both texts to compare and one of them is no
date, of which the first is reported. A group fails just on a condition that it evaluates; a turn
fails on a text that is no date just on the condition of a candidate that it gets to. -/
theorem fails_iff_misreads :
    (∀ (comparison : Comparison) (nullDate : Date) (responses : Responses) (error : ScriptError),
      comparison.evaluate nullDate responses = .error error ↔
        ∃ text, error = .invalidDate text ∧ comparison.Misreads responses text) ∧
      (∀ (group : Group) (nullDate : Date) (responses : Responses) (error : ScriptError),
        let test := Comparison.evaluate nullDate responses
        group.evaluate test = .error error ↔
          ∃ leaf ∈ group.reached test,
            ∃ text, error = .invalidDate text ∧ leaf.Misreads responses text) ∧
      ∀ (σ : Type) (script : Script) (router : Router σ) (state : σ) (screen : Screen)
        (responses : Responses) (text : String),
        (script.reply router state (.process screen responses)).1.result =
            .error (.invalidDate text) ↔
          ∃ before candidate after,
            script.actionsFor screen.id = before ++ candidate :: after ∧
            (script.course router screen.id responses before state).result = .ok () ∧
            candidate.condition.Misreads responses text := by
  refine ⟨fun _ _ _ _ => Comparison.evaluate_eq_error_iff, ?_, ?_⟩
  · intro group nullDate responses error test
    have hgroup : group.evaluate test = .error error ↔
        ∃ leaf ∈ group.reached test, test leaf = .error error :=
      Formula.evaluateAll_eq_error_iff test error group.kind group.conditions
    rw [hgroup]
    simp only [test, Comparison.evaluate_eq_error_iff]
  · intro σ script router state screen responses text
    rw [Script.result_process_eq_invalidDate_iff, Script.processCourse,
      Script.result_course_eq_invalidDate_iff]
    simp only [Script.guard, Comparison.evaluate_eq_error_iff, ScriptError.invalidDate.injEq,
      exists_eq_left']

end BranchingInterview
