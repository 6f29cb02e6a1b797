import BranchingInterview.Proofs.Calls
import BranchingInterview.Proofs.Validation

/-!
What a call asks for. Setting a script up asks for its starting screens, processing a screen for the
targets of its push actions. Whatever a call pushes is the screen found for an id it asks for.
-/

namespace BranchingInterview

variable {σ : Type}

/-- The ids that a call may ask for, whether its candidates fire or not. -/
def Script.requests (script : Script) : Call σ → List String
  | .setup => script.interview.startingIds
  | .process screen _ =>
      (script.actionsFor screen.id).flatMap fun candidate => candidate.action.targets
  | .host _ => []

namespace Plan

variable {screens : List Screen} {ids more : List String}

/-- What a plan pushes are screens found for some of the ids. -/
def PushesFrom (plan : Plan) (screens : List Screen) (ids : List String) : Prop :=
  ∀ screen, .push screen ∈ plan.commands → ∃ id ∈ ids, findScreen? screens id = some screen

theorem pushesFrom_nothing {failure : Option ScriptError} :
    PushesFrom { failure } screens ids := by
  intro screen hpush
  cases hpush

theorem pushesFrom_send {command : Command} (hcommand : ∀ screen, command ≠ .push screen) :
    (send command).PushesFrom screens ids := by
  intro screen hpush
  exact absurd (List.mem_singleton.1 hpush).symm (hcommand screen)

theorem PushesFrom.andThen {first next : Plan} (hfirst : first.PushesFrom screens ids)
    (hnext : next.PushesFrom screens more) :
    (first.andThen next).PushesFrom screens (ids ++ more) := by
  have hleft : first.PushesFrom screens (ids ++ more) := by
    intro screen hpush
    obtain ⟨id, hid, hfound⟩ := hfirst screen hpush
    exact ⟨id, List.mem_append_left more hid, hfound⟩
  intro screen hpush
  rw [Plan.andThen] at hpush
  split at hpush
  · exact hleft screen hpush
  · rcases List.mem_append.1 hpush with hpush | hpush
    · exact hleft screen hpush
    · obtain ⟨id, hid, hfound⟩ := hnext screen hpush
      exact ⟨id, List.mem_append_right ids hid, hfound⟩

end Plan

theorem pushesFrom_pushPlan (screens : List Screen) (policy : ScreenPolicy) (ids : List String) :
    (pushPlan screens policy ids).PushesFrom screens ids := by
  rw [pushPlan]
  cases hresolution : resolution screens policy ids with
  | error error => exact Plan.pushesFrom_nothing
  | ok found =>
      intro screen hpush
      obtain ⟨pushed, hpushed, heq⟩ := List.mem_map.1 hpush
      cases heq
      rw [eq_resolvedScreens_of_resolution hresolution, List.mem_reverse] at hpushed
      exact List.mem_filterMap.1 hpushed

theorem Action.pushesFrom_plan (screens : List Screen) (policy : ScreenPolicy) (action : Action) :
    (action.plan screens policy).PushesFrom screens action.targets := by
  cases action with
  | push ids => exact pushesFrom_pushPlan screens policy ids
  | doNothing => exact Plan.pushesFrom_nothing
  | _ =>
      apply Plan.pushesFrom_send
      intro screen hpush
      cases hpush

namespace Script

variable (script : Script)

theorem pushesFrom_callPlan (call : Call σ) :
    (script.callPlan call).PushesFrom script.interview.screens (script.requests call) := by
  cases call with
  | setup =>
      exact pushesFrom_pushPlan script.interview.screens script.settings.screenPolicy _
  | process screen responses =>
      rw [callPlan, processPlan, turnPlan, requests]
      induction script.actionsFor screen.id with
      | nil =>
          apply Plan.pushesFrom_send
          intro pushed hpush
          cases hpush
      | cons candidate candidates ih =>
          rw [List.flatMap_cons]
          refine Plan.PushesFrom.andThen ?_ ih
          rw [candidatePlan]
          rcases script.guard responses candidate with error | _ | _
          · exact Plan.pushesFrom_nothing
          · exact Plan.pushesFrom_nothing
          · exact candidate.action.pushesFrom_plan _ _
  | host change => exact Plan.pushesFrom_nothing

/-- A screen that a call pushes, on whatever router, is the one the script finds for an id it asks
for. -/
theorem exists_request_of_push {router : Router σ} {state : σ} {call : Call σ} {screen : Screen}
    (hpush : .push screen ∈ (script.reply router state call).1.commands) :
    ∃ id ∈ script.requests call, script.screen? id = some screen := by
  rw [reply_eq] at hpush
  have hsent := (script.callPlan call).prefix_of_reply router (call.enter state)
  exact script.pushesFrom_callPlan call screen (hsent.subset hpush)

end Script

end BranchingInterview
