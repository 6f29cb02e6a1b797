import BranchingInterview.Proofs.Dispatches
import BranchingInterview.Proofs.Policy

/-!
Valid interviews before anything is answered. Validation leaves no condition without a key, so that
of all conditions only those hold that are to hold always or that ask for an answer to be missing.
-/

namespace BranchingInterview

variable {σ : Type}

/-- The operators that hold of a response that is not there. -/
def Operator.holdsUnanswered (operator : Operator) : Bool :=
  operator ∈ [alwaysExecute, isEmpty]

theorem Operator.holds_none (operator : Operator) (nullDate : Date) (operand : Option String) :
    operator.holds nullDate none operand = .ok operator.holdsUnanswered := by
  cases operator <;> rfl

namespace Comparison

variable {comparison : Comparison} {responses : Responses}

/-- There is no response under the key of a comparison. -/
def Unanswered (comparison : Comparison) (responses : Responses) : Prop :=
  ∀ key, comparison.key = some key → responses.get? key = none

theorem Unanswered.resolve_eq (hunanswered : comparison.Unanswered responses) :
    comparison.resolve responses = none := by
  rw [resolve]
  cases hkey : comparison.key with
  | none => rfl
  | some key => simp [hunanswered key hkey]

theorem hasKey_of_validate (hvalid : comparison.validate = .ok ())
    (hlooks : comparison.operator ≠ .alwaysExecute) : comparison.hasKey = true := by
  have hrequires := Operator.requiresKey_iff.2 hlooks
  cases hkey : comparison.hasKey with
  | true => rfl
  | false =>
      rw [validate, hrequires, hkey] at hvalid
      cases hvalid

theorem evaluate_unanswered (hvalid : comparison.validate = .ok ())
    (hunanswered : comparison.Unanswered responses) (nullDate : Date) :
    comparison.evaluate nullDate responses = .ok comparison.operator.holdsUnanswered := by
  by_cases halways : comparison.operator = .alwaysExecute
  · rw [evaluate_of_always halways, halways]
    rfl
  · have hevaluate :=
      evaluate_of_hasKey (hasKey_of_validate hvalid halways) halways nullDate responses
    rw [hunanswered.resolve_eq, Operator.holds_none] at hevaluate
    exact hevaluate

end Comparison

/-- Every target of a push is found, so under no policy does the plan fail. -/
theorem Action.failure_plan_eq_none {interview : Interview} {action : Action}
    (htargets : ∀ id ∈ action.targets, interview.hasScreen id) (policy : ScreenPolicy) :
    (action.plan interview.screens policy).failure = none := by
  have hlenient : (action.plan interview.screens .lenient).failure = none := by
    cases action <;> rfl
  cases policy with
  | lenient => exact hlenient
  | strict => rwa [Action.plan_eq_of_hasScreen htargets]

namespace Script

/-- While nothing that a screen of a valid interview asks about is answered, no condition of it
fails, and those that hold are the ones to hold always or of a missing answer. Their actions are
performed in order, whatever the policy, and then the next screen is asked for. -/
theorem process_unanswered (script : Script) (hvalid : script.interview.validate = .ok ())
    (screen : Screen) (responses : Responses)
    (hunanswered : ∀ candidate ∈ script.actionsFor screen.id,
      candidate.condition.Unanswered responses) :
    let firing := (script.actionsFor screen.id).filter fun candidate =>
      candidate.condition.operator ∈ [.alwaysExecute, .isEmpty]
    (∀ candidate ∈ script.actionsFor screen.id,
        script.guard responses candidate =
          .ok (decide (candidate.condition.operator ∈ [.alwaysExecute, .isEmpty]))) ∧
      ∀ router : Router σ, (∀ command state, (router command state).1 = .ok ()) → ∀ state,
        let course := script.processCourse router screen.id responses state
        let ended := script.reply router state (.process screen responses)
        ended = course.finish router ∧
          course.dispatches.map Dispatch.action = firing.map Candidate.action ∧
          ended.1.result = .ok () ∧
          ended.1.commands =
            (firing.flatMap fun candidate => (script.actionPlan candidate.action).commands) ++
              [.next] ∧
          ended.1.commands.count .next = 1 := by
  intro firing
  have hcandidates : ∀ candidate ∈ script.actionsFor screen.id,
      script.interview.validateCandidate screen.id candidate = .ok () := fun candidate hmem =>
    Interview.validateCandidate_of_mem_actionsFor hvalid hmem
  have hguards : ∀ candidate ∈ script.actionsFor screen.id,
      script.guard responses candidate =
        .ok candidate.condition.operator.holdsUnanswered := by
    intro candidate hmem
    obtain ⟨hcandidate, -⟩ := Interview.validateCandidate_eq_ok_iff.1 (hcandidates candidate hmem)
    have hcondition := (check_bind_eq_ok_iff.1 hcandidate).1
    exact Comparison.evaluate_unanswered hcondition (hunanswered candidate hmem)
      script.settings.nullDate
  refine ⟨hguards, ?_⟩
  intro router haccepts state course ended
  have hfires : ∀ candidate ∈ script.actionsFor screen.id,
      script.fires responses candidate = candidate.condition.operator.holdsUnanswered := by
    intro candidate hmem
    rw [fires, hguards candidate hmem]
  have hplans : ∀ candidate ∈ script.actionsFor screen.id,
      (script.actionPlan candidate.action).failure = none := by
    intro candidate hmem
    have htargets := (Interview.validateCandidate_eq_ok_iff.1 (hcandidates candidate hmem)).2
    exact Action.failure_plan_eq_none htargets script.settings.screenPolicy
  have hfilter : (script.actionsFor screen.id).filter (script.fires responses) = firing :=
    List.filter_congr hfires
  obtain ⟨hok, hactions, hcommands⟩ := course_of_accepting screen.id state haccepts
    (fun candidate hmem => by rw [hguards candidate hmem, hfires candidate hmem]) hplans
  change course.result = .ok () at hok
  change course.dispatches.map Dispatch.action = _ at hactions
  change course.commands = _ at hcommands
  have hended : ended = course.finish router := script.reply_process router state screen responses
  have hreply : ended.1 = ⟨course.commands ++ [.next], .ok ()⟩ := by
    rw [hended, Course.finish_of_accepting haccepts hok]
  have hnext : course.commands.count .next = 0 :=
    List.count_eq_zero_of_not_mem next_not_mem_commands
  rw [hfilter] at hactions hcommands
  refine ⟨hended, hactions, ?_, ?_, ?_⟩
  · rw [hreply]
  · rw [hreply]
    exact congrArg (· ++ [.next]) hcommands
  · rw [hreply, List.count_append, hnext]
    rfl

/-- `q` and `r` are answered, but the screen asks about `p` alone. -/
theorem process_unanswered_malformedDate :
    let about (operator : Operator) : Comparison :=
      { operator, key := some "p", operand := some "no date" }
    let script : Script :=
      { interview :=
          { screens := [{ id := "a" }, { id := "b" }]
            startingState := ["a"]
            actions := .ofList [("a",
              [⟨about .after, .endInterview⟩, ⟨about .isEmpty, .push ["b"]⟩,
                ⟨about .isNotEmpty, .skip {}⟩, .always (.milestone "seen")])] }
        settings := { screenPolicy := .strict } }
    let responses : Responses :=
      .ofList [("q", { answer := .text "" }), ("r", { answer := .text "1" })]
    let router : Router Unit := fun _ state => (.ok (), state)
    script.interview.validate = .ok () ∧
      (∀ candidate ∈ script.actionsFor "a", candidate.condition.Unanswered responses) ∧
      (∀ command state, (router command state).1 = .ok ()) ∧
      (script.reply router () (.process { id := "a" } responses)).1.commands =
        [.push { id := "b" }, .milestone "seen", .next] := by
  intro about script responses router
  have hvalid : script.interview.validate = .ok () := by rfl
  have hunanswered : ∀ candidate ∈ script.actionsFor "a",
      candidate.condition.Unanswered responses := by
    have hactions : script.actionsFor "a" =
        [⟨about .after, .endInterview⟩, ⟨about .isEmpty, .push ["b"]⟩,
          ⟨about .isNotEmpty, .skip {}⟩, .always (.milestone "seen")] := by rfl
    rw [hactions]
    intro candidate hmem key hkey
    have hp : key = "p" := by
      simp only [List.mem_cons, List.not_mem_nil, or_false] at hmem
      obtain rfl | rfl | rfl | rfl := hmem <;> cases hkey
      all_goals rfl
    rw [hp]
    rfl
  have haccepts : ∀ command state, (router command state).1 = .ok () := fun _ _ => rfl
  obtain ⟨-, hprocess⟩ := process_unanswered script hvalid { id := "a" } responses hunanswered
  obtain ⟨-, -, -, hcommands, -⟩ := hprocess router haccepts ()
  exact ⟨hvalid, hunanswered, haccepts, hcommands.trans (by decide +kernel)⟩

end Script

end BranchingInterview
