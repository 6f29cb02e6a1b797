import BranchingInterview.Proofs.Plan
import BranchingInterview.Router.Stack

/-!
Routers that keep a stack of screens. Commands reach the stack one screen at a time and in reverse;
actions say how the stack as a whole changes. Both agree on every turn that ends well.
-/

namespace BranchingInterview

variable {σ : Type}

structure Stacks where
  /-- The ids of the screens to show, the next one first. -/
  pending : List String
  saved : String → Option (List String)

namespace Stacks

@[ext]
theorem ext {left right : Stacks} (hpending : left.pending = right.pending)
    (hsaved : left.saved = right.saved) : left = right := by
  cases left
  cases right
  cases hpending
  cases hsaved
  rfl

/-- Puts screens on top, the first one topmost. -/
def cover (held : Stacks) (ids : List String) : Stacks :=
  { held with pending := ids ++ held.pending }

def drop? (held : Stacks) : Option Stacks :=
  match held.pending with
  | [] => none
  | _ :: rest => some { held with pending := rest }

def save (held : Stacks) (name : String) : Stacks :=
  { held with
    saved := fun other => if name = other then some held.pending else held.saved other }

def restore? (held : Stacks) (name : String) : Option Stacks :=
  (held.saved name).map fun pending => { held with pending }

/-- What a command does to the stacks, or why it must be rejected. -/
def follow (held : Stacks) : Command → Except RouterError Stacks
  | .push screen => .ok (held.cover [screen.id])
  | .skip _ => held.drop?.elim (.error .stackUnderflow) .ok
  | .checkpoint name => .ok (held.save name)
  | .restore name => (held.restore? name).elim (.error (.unknownCheckpoint name)) .ok
  | .milestone _ | .next | .complete => .ok held

end Stacks

def resolvedIds (screens : List Screen) (ids : List String) : List String :=
  ids.filter fun id => (findScreen? screens id).isSome

def Stacks.after? (screens : List Screen) (held : Stacks) : Action → Option Stacks
  | .push ids => some (held.cover (resolvedIds screens ids))
  | .skip _ => held.drop?
  | .checkpoint name => some (held.save name)
  | .restore name => held.restore? name
  | .milestone _ | .endInterview | .doNothing => some held

/-- The stacks of a router change as the commands say that it accepts. So it must reject what does
not apply to them, and it may reject any other command. -/
structure Router.KeepsStacks (router : Router σ) (view : σ → Stacks) : Prop where
  accepts : ∀ command state, (router command state).1 = .ok () →
    (view state).follow command = .ok (view (router command state).2)

theorem findScreen?_id {screens : List Screen} {id : String} {screen : Screen}
    (hfound : findScreen? screens id = some screen) : screen.id = id := by
  have hid := List.find?_some hfound
  rwa [beq_iff_eq] at hid

theorem map_id_resolvedScreens (screens : List Screen) (ids : List String) :
    (resolvedScreens screens ids).map Screen.id = resolvedIds screens ids := by
  induction ids with
  | nil => rfl
  | cons id rest ih =>
      rw [resolvedScreens, resolvedIds] at ih ⊢
      cases hfound : findScreen? screens id with
      | none => simpa [hfound] using ih
      | some screen => simpa [hfound, findScreen?_id hfound] using ih

theorem Stacks.cover_cover (held : Stacks) (ids more : List String) :
    (held.cover ids).cover more = held.cover (more ++ ids) := by
  rw [cover, cover, cover, List.append_assoc]

theorem Stacks.foldlM_follow_push (held : Stacks) (screens : List Screen) :
    (screens.map Command.push).foldlM Stacks.follow held =
      .ok (held.cover (screens.reverse.map Screen.id)) := by
  induction screens generalizing held with
  | nil => rfl
  | cons screen rest ih =>
      rw [List.map_cons, List.foldlM_cons, follow]
      change (rest.map Command.push).foldlM Stacks.follow (held.cover [screen.id]) = _
      rw [ih, cover_cover, List.reverse_cons, List.map_append]
      rfl

theorem eq_some_of_elim_eq_ok {α ε : Type} {option : Option α} {reason : ε} {value : α}
    (hok : option.elim (.error reason) .ok = Except.ok value) : option = some value := by
  cases option with
  | none => cases hok
  | some found => exact congrArg some (Except.ok.inj hok)

theorem Stacks.foldlM_follow_singleton (held : Stacks) (command : Command) :
    [command].foldlM Stacks.follow held = held.follow command := by
  rw [List.foldlM_cons]
  cases held.follow command <;> rfl

/-- The commands of an action change the stacks as the action does. -/
theorem Stacks.after?_of_foldlM {screens : List Screen} {policy : ScreenPolicy} {action : Action}
    {held final : Stacks} (hfailure : (action.plan screens policy).failure = none)
    (hfollow : (action.plan screens policy).commands.foldlM Stacks.follow held = .ok final) :
    held.after? screens action = some final := by
  cases action with
  | push ids =>
      rw [after?, ← map_id_resolvedScreens]
      rw [Action.plan, pushPlan] at hfailure hfollow
      cases hresolution : resolution screens policy ids with
      | error error =>
          rw [hresolution] at hfailure
          cases hfailure
      | ok found =>
          rw [hresolution] at hfollow
          simp only [foldlM_follow_push, List.reverse_reverse] at hfollow
          rw [← eq_resolvedScreens_of_resolution hresolution]
          exact congrArg some (Except.ok.inj hfollow)
  | skip responses =>
      rw [Action.plan, Plan.send, foldlM_follow_singleton, follow] at hfollow
      exact eq_some_of_elim_eq_ok hfollow
  | restore name =>
      rw [Action.plan, Plan.send, foldlM_follow_singleton, follow] at hfollow
      exact eq_some_of_elim_eq_ok hfollow
  | checkpoint name =>
      rw [Action.plan, Plan.send, foldlM_follow_singleton, follow] at hfollow
      exact congrArg some (Except.ok.inj hfollow)
  | milestone name =>
      rw [Action.plan, Plan.send, foldlM_follow_singleton, follow] at hfollow
      exact congrArg some (Except.ok.inj hfollow)
  | endInterview =>
      rw [Action.plan, Plan.send, foldlM_follow_singleton, follow] at hfollow
      exact congrArg some (Except.ok.inj hfollow)
  | doNothing => exact congrArg some (Except.ok.inj hfollow)

namespace Router.KeepsStacks

variable {router : Router σ} {view : σ → Stacks} (hrouter : router.KeepsStacks view)

include hrouter

theorem foldlM_follow {commands : List Command} {state : σ}
    (haccepted : (router.sendAll commands state).1 = .ok ()) :
    commands.foldlM Stacks.follow (view state) =
      .ok (view (router.sendAll commands state).2) := by
  induction commands generalizing state with
  | nil => rfl
  | cons command rest ih =>
      rw [sendAll] at haccepted ⊢
      have hfollow := hrouter.accepts command state
      rcases hreply : router command state with ⟨reply | reply, after⟩
      · rw [hreply] at haccepted
        cases haccepted
      · rw [hreply] at haccepted hfollow
        rw [List.foldlM_cons, hfollow rfl]
        exact ih haccepted

theorem after?_of_execute {screens : List Screen} {policy : ScreenPolicy} {action : Action}
    {state : σ} (hok : ((action.plan screens policy).execute router state).1 = .ok ()) :
    (view state).after? screens action =
      some (view ((action.plan screens policy).execute router state).2) := by
  obtain ⟨hfailure, haccepted⟩ := Plan.execute_eq_ok_iff.1 hok
  have hfollow := hrouter.foldlM_follow haccepted
  rw [Plan.snd_execute]
  exact Stacks.after?_of_foldlM hfailure hfollow

theorem foldlM_after? {script : Script} {responses : Responses} {candidates : List Candidate}
    {state : σ} (hok : ((script.turnPlan responses candidates).execute router state).1 = .ok ()) :
    ((candidates.filter (script.fires responses)).map Candidate.action).foldlM
        (Stacks.after? script.interview.screens) (view state) =
      some (view ((script.turnPlan responses candidates).execute router state).2) := by
  induction candidates generalizing state with
  | nil =>
      obtain ⟨-, haccepted⟩ := Plan.execute_eq_ok_iff.1 hok
      have hnext := hrouter.foldlM_follow haccepted
      rw [Plan.snd_execute]
      exact congrArg some (Except.ok.inj hnext)
  | cons candidate candidates ih =>
      have hplan : script.turnPlan responses (candidate :: candidates) =
          (script.candidatePlan responses candidate).andThen
            (script.turnPlan responses candidates) := rfl
      rw [hplan, Plan.execute_andThen] at hok ⊢
      rcases hfirst : (script.candidatePlan responses candidate).execute router state with
        ⟨error | _, after⟩
      · rw [hfirst] at hok
        cases hok
      · rw [hfirst] at hok
        have hrest := ih hok
        rcases hguard : script.guard responses candidate with error | _ | _
        · rw [Script.candidatePlan, hguard] at hfirst
          cases congrArg Prod.fst hfirst
        · have hfires : script.fires responses candidate = false := by
            rw [Script.fires, hguard]
          rw [Script.candidatePlan, hguard] at hfirst
          rw [List.filter_cons_of_neg (by rw [hfires]; decide)]
          cases congrArg Prod.snd hfirst
          exact hrest
        · have hfires : script.fires responses candidate = true := by
            rw [Script.fires, hguard]
          rw [Script.candidatePlan, hguard] at hfirst
          change (candidate.action.plan _ _).execute router state = _ at hfirst
          have haction := hrouter.after?_of_execute (congrArg Prod.fst hfirst)
          rw [hfirst] at haction
          rw [List.filter_cons_of_pos hfires, List.map_cons, List.foldlM_cons, haction]
          exact hrest

end Router.KeepsStacks

namespace StackRouter

def toStacks (router : StackRouter) : Stacks := ⟨router.pending, router.checkpoints.get?⟩

theorem follow_toStacks (router : StackRouter) (command : Command) :
    router.toStacks.follow command =
      match route command router with
      | (.ok (), after) => .ok after.toStacks
      | (.error reason, _) => .error reason := by
  cases command with
  | skip responses =>
      rcases router with ⟨_ | ⟨top, rest⟩, checkpoints, given, milestones, isCompleted⟩ <;> rfl
  | checkpoint name =>
      refine congrArg Except.ok (Stacks.ext rfl ?_)
      funext other
      exact (KeyMap.get?_insert router.checkpoints name other router.pending).symm
  | restore name =>
      simp only [Stacks.follow, Stacks.restore?, toStacks, route]
      cases router.checkpoints.get? name <;> rfl
  | _ => rfl

theorem keepsStacks_route : route.KeepsStacks toStacks where
  accepts command router haccepted := by
    have hfollow := router.follow_toStacks command
    rcases hreply : route command router with ⟨reply | reply, after⟩
    · rw [hreply] at haccepted
      cases haccepted
    · rwa [hreply] at hfollow

end StackRouter

/-- A turn that ends well changes the stacks as the actions that fire do, one after the other, and
the starting screens come to lie on the stack in their order. -/
theorem stacks_of_exchange {router : Router σ} {view : σ → Stacks}
    (hrouter : router.KeepsStacks view) (script : Script) (screen : Screen) (responses : Responses)
    (session : Session σ) :
    (((script.process router screen responses).exchange session).1 = .ok () →
        (((script.actionsFor screen.id).filter (script.fires responses)).map
            Candidate.action).foldlM (Stacks.after? script.interview.screens)
              (view session.router) =
          some (view ((script.process router screen responses).exchange session).2)) ∧
      (((script.setup router).exchange session).1 = .ok () →
        view ((script.setup router).exchange session).2 =
          (view session.router).cover
            (resolvedIds script.interview.screens script.interview.startingIds)) := by
  rw [script.carriesOut_process router screen responses session,
    script.carriesOut_setup router session]
  constructor
  · exact hrouter.foldlM_after?
  · intro hok
    have hcover : (view session.router).after? script.interview.screens
        (.push script.interview.startingIds) = _ := hrouter.after?_of_execute hok
    exact (Option.some.inj hcover).symm

theorem stacks_of_process_detour :
    let start : StackRouter := { pending := ["z"] }
    let turn := (Script.detour.process StackRouter.route { id := "a" } {}).exchange { router := start }
    StackRouter.route.KeepsStacks StackRouter.toStacks ∧ turn.1 = .ok () ∧
      ([.milestone "begun", .push ["b", "x", "c"], .checkpoint "mid", .skip {},
          .restore "mid"].foldlM (Stacks.after? Script.detour.interview.screens) start.toStacks =
        some turn.2.toStacks) ∧ turn.2.pending = ["b", "c", "z"] := by
  intro start turn
  have hok : turn.1 = .ok () := by rfl
  have hkeeps := StackRouter.keepsStacks_route
  have hfold := (stacks_of_exchange hkeeps Script.detour { id := "a" } {} { router := start }).1 hok
  exact ⟨hkeeps, hok, hfold, by decide +kernel⟩

end BranchingInterview
