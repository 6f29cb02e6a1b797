import BranchingInterview.Proofs.Dispatches
import BranchingInterview.Proofs.Moments

/-!
Stacks saved in one turn and restored in another. A router that holds its stacks remembers, under
each name, the stack at the latest action that saved it there; nothing else that a script or a host
does touches what is saved.
-/

namespace BranchingInterview

variable {σ : Type}

/-- A router that restores exactly the names that are saved. It may reject other commands too. -/
structure Router.RestoresSaved (router : Router σ) (view : σ → Stacks) : Prop
    extends router.HoldsStacks view where
  restores : ∀ name state, (router (.restore name) state).1 =
    if ((view state).saved name).isSome then .ok () else .error (.unknownCheckpoint name)

def Dispatch.saves (dispatch : Dispatch σ) (name : String) : Bool :=
  decide (dispatch.action = .checkpoint name) && dispatch.reply.result.isOk

/-- The stack at the latest of some actions that saved it under a name. -/
def latestSaved? (view : σ → Stacks) (past : List (Dispatch σ)) (name : String) :
    Option (List String) :=
  (past.reverse.find? (·.saves name)).map fun dispatch => (view dispatch.before).pending

/-- What is saved are the stacks at the latest actions that saved one. -/
def Stacks.Remembers (held : Stacks) (view : σ → Stacks) (past : List (Dispatch σ)) : Prop :=
  held.saved = latestSaved? view past

namespace Script

variable (script : Script) (router : Router σ)

/-- The actions performed in a call. -/
def performed : Call σ → σ → List (Dispatch σ)
  | .setup, _ => []
  | .process screen responses, state =>
      (script.processCourse router screen.id responses state).dispatches
  | .host _, _ => []

/-- The actions performed in a run, in order. -/
def history : List (Call σ) → σ → List (Dispatch σ)
  | [], _ => []
  | call :: calls, state =>
      script.performed router call state ++
        history calls (script.reply router state call).2

end Script

section Latest

variable {view : σ → Stacks} {past : List (Dispatch σ)} {dispatch : Dispatch σ} {name : String}

theorem latestSaved?_append_singleton :
    latestSaved? view (past ++ [dispatch]) name =
      if dispatch.saves name then some (view dispatch.before).pending
      else latestSaved? view past name := by
  rw [latestSaved?, List.reverse_append, List.reverse_singleton, List.singleton_append,
    List.find?_cons, latestSaved?]
  cases dispatch.saves name <;> rfl

theorem isSome_latestSaved?_iff :
    (latestSaved? view past name).isSome ↔ ∃ saving ∈ past, saving.saves name = true := by
  rw [latestSaved?, Option.isSome_map, List.find?_isSome]
  simp only [List.mem_reverse]

theorem exists_latest {pending : List String}
    (hlatest : latestSaved? view past name = some pending) :
    ∃ first saving between, past = first ++ saving :: between ∧ saving.saves name = true ∧
      (∀ other ∈ between, other.saves name = false) ∧ (view saving.before).pending = pending := by
  obtain ⟨saving, hsaving, hpending⟩ := Option.map_eq_some_iff.1 hlatest
  obtain ⟨hsaves, after, before, hreverse, hafter⟩ := List.find?_eq_some_iff_append.1 hsaving
  refine ⟨before.reverse, saving, after.reverse, ?_, hsaves, ?_, hpending⟩
  · rw [← List.reverse_reverse past, hreverse]
    simp
  · intro other hother
    simpa using hafter other (List.mem_reverse.1 hother)

end Latest

/-! Only checkpoints change what is saved. -/

theorem Stacks.saved_follow {held after : Stacks} {command : Command}
    (hcommand : ∀ name, command ≠ .checkpoint name) (hfollow : held.follow command = .ok after) :
    after.saved = held.saved := by
  cases command with
  | checkpoint name => exact absurd rfl (hcommand name)
  | skip responses =>
      have hdrop := eq_some_of_elim_eq_ok hfollow
      rw [drop?] at hdrop
      split at hdrop
      · cases hdrop
      · cases hdrop
        rfl
  | restore name =>
      obtain ⟨pending, -, rfl⟩ := Option.map_eq_some_iff.1 (eq_some_of_elim_eq_ok hfollow)
      rfl
  | push | milestone | next | complete =>
      cases hfollow
      rfl

/-- A plan that saves no stack. -/
def Plan.SavesNothing (plan : Plan) : Prop :=
  ∀ name, .checkpoint name ∉ plan.commands

theorem Action.savesNothing_plan {screens : List Screen} {policy : ScreenPolicy} {action : Action}
    (haction : ∀ name, action ≠ .checkpoint name) : (action.plan screens policy).SavesNothing := by
  intro name hmem
  have hsends := action.sends_of_mem_plan hmem
  cases action with
  | push ids =>
      obtain ⟨screen, heq⟩ := hsends
      cases heq
  | checkpoint saved => exact haction saved rfl
  | doNothing => exact hsends
  | skip | restore | milestone | endInterview => cases hsends

namespace Router.HoldsStacks

variable {router : Router σ} {view : σ → Stacks} (hrouter : router.HoldsStacks view)

include hrouter

theorem saved_command {command : Command} (hcommand : ∀ name, command ≠ .checkpoint name)
    (state : σ) : (view (router command state).2).saved = (view state).saved := by
  cases hreply : (router command state).1 with
  | error reason => rw [hrouter.rejects command state reason hreply]
  | ok _ => exact Stacks.saved_follow hcommand (hrouter.accepts command state hreply)

theorem saved_sendAll {commands : List Command} (hcommands : ∀ name, .checkpoint name ∉ commands)
    (state : σ) : (view (router.sendAll commands state).2).saved = (view state).saved := by
  induction commands generalizing state with
  | nil => rfl
  | cons command rest ih =>
      have hfirst := hrouter.saved_command
        (fun name heq => hcommands name (heq ▸ List.mem_cons_self)) state
      have hrest := ih fun name hmem => hcommands name (List.mem_cons_of_mem command hmem)
      rw [sendAll]
      rcases hreply : router command state with ⟨reply | reply, after⟩
      · rwa [hreply] at hfirst
      · rw [hreply] at hfirst
        exact (hrest after).trans hfirst

theorem saved_reply (plan : Plan) (hplan : plan.SavesNothing) (state : σ) :
    (view (plan.reply router state).2).saved = (view state).saved := by
  rw [Plan.snd_reply]
  exact hrouter.saved_sendAll hplan state

theorem saved_finish (course : Course σ) :
    (view (course.finish router).2).saved = (view course.state).saved := by
  rw [Course.finish, Reply.andThen]
  cases course.result with
  | error error => rfl
  | ok _ =>
      apply hrouter.saved_reply
      intro name hmem
      cases List.mem_singleton.1 hmem

theorem remembers_dispatch (script : Script) (screen : String) {past : List (Dispatch σ)}
    {state : σ} (action : Action) (hpast : (view state).Remembers view past) :
    (view (script.dispatch router screen action state).after).Remembers view
      (past ++ [script.dispatch router screen action state]) := by
  unfold Stacks.Remembers at hpast ⊢
  funext name
  rw [latestSaved?_append_singleton, Dispatch.saves, Script.dispatch_eq, ← hpast]
  by_cases haction : ∃ saved, action = .checkpoint saved
  · obtain ⟨saved, rfl⟩ := haction
    have hreply := Plan.reply_send (.checkpoint saved) router state
    have haccepts := hrouter.accepts (.checkpoint saved) state
    have hrejects := hrouter.rejects (.checkpoint saved) state
    rw [Script.actionPlan, Action.plan, hreply]
    rcases hanswer : router (.checkpoint saved) state with ⟨reason | _, after⟩
    · rw [hanswer] at hrejects
      rw [hrejects reason rfl]
      simp [Except.isOk, Except.toBool]
    · rw [hanswer] at haccepts
      rw [← Except.ok.inj (haccepts rfl)]
      simp [Stacks.save, Except.isOk, Except.toBool]
  · have hother : ∀ name, action ≠ .checkpoint name := fun name heq => haction ⟨name, heq⟩
    have hsaved := hrouter.saved_reply (script.actionPlan action)
      (Action.savesNothing_plan hother) state
    simp only [hother name, decide_false, Bool.false_and, Bool.false_eq_true, ↓reduceIte, hsaved]

theorem remembers_course (script : Script) (screen : String) (responses : Responses)
    (candidates : List Candidate) {past : List (Dispatch σ)} {state : σ}
    (hpast : (view state).Remembers view past) :
    let course := script.course router screen responses candidates state
    (view course.state).Remembers view (past ++ course.dispatches) ∧
      ∀ earlier dispatch later, course.dispatches = earlier ++ dispatch :: later →
        (view dispatch.before).Remembers view (past ++ earlier) ∧
          dispatch = script.dispatch router screen dispatch.action dispatch.before := by
  apply Script.course_keeps fun past state => (view state).Remembers view past
  · intro past state action hpast
    exact hrouter.remembers_dispatch script screen action hpast
  · exact hpast

theorem remembers_reply (script : Script) {past : List (Dispatch σ)} {state : σ} {call : Call σ}
    (hcall : call.OnlyTakes view) (hpast : (view state).Remembers view past) :
    (view (script.reply router state call).2).Remembers view
      (past ++ script.performed router call state) := by
  cases call with
  | setup =>
      have hpush : ∀ name, Action.push script.interview.startingIds ≠ .checkpoint name := nofun
      have hsaved := hrouter.saved_reply script.setupPlan
        (Action.savesNothing_plan hpush) state
      rw [Script.reply_eq, Script.performed, List.append_nil]
      exact hsaved.trans hpast
  | process screen responses =>
      have hsaved := hrouter.saved_finish (script.processCourse router screen.id responses state)
      have hcourse := hrouter.remembers_course script screen.id responses
        (script.actionsFor screen.id) hpast
      rw [Script.reply_process, Script.performed]
      exact hsaved.trans hcourse.1
  | host change =>
      rw [Script.performed, List.append_nil]
      exact (hcall state).2.trans hpast

theorem remembers_history (script : Script) {calls : List (Call σ)}
    (hcalls : ∀ call ∈ calls, call.OnlyTakes view) {past : List (Dispatch σ)} {state : σ}
    (hpast : (view state).Remembers view past) :
    (view (script.replies router calls state).2).Remembers view
      (past ++ script.history router calls state) := by
  induction calls generalizing past state with
  | nil =>
      rw [Script.history, List.append_nil]
      exact hpast
  | cons call calls ih =>
      have hfirst := hrouter.remembers_reply script (hcalls call List.mem_cons_self) hpast
      rw [Script.history, ← List.append_assoc]
      exact ih (fun later hlater => hcalls later (List.mem_cons_of_mem _ hlater)) hfirst

end Router.HoldsStacks

/-- To restore a name brings the stack back that the latest checkpoint saved under it. -/
theorem Router.RestoresSaved.dispatch_restore {router : Router σ} {view : σ → Stacks}
    (hrouter : router.RestoresSaved view) (script : Script) (screen : String)
    {past : List (Dispatch σ)} {state : σ} (hpast : (view state).Remembers view past)
    (name : String) :
    let dispatch := script.dispatch router screen (.restore name) state
    dispatch.reply.commands = [.restore name] ∧
      match latestSaved? view past name with
      | some pending =>
          dispatch.reply.result = .ok () ∧ view dispatch.after = { view state with pending }
      | none =>
          dispatch.reply.result = .error (.rejected (.unknownCheckpoint name)) ∧
            view dispatch.after = view state := by
  intro dispatch
  have hdispatch : dispatch = _ := script.dispatch_eq router screen (.restore name) state
  rw [hdispatch, Script.actionPlan, Action.plan, Plan.reply_send, ← hpast]
  have hanswer := hrouter.restores name state
  have haccepts := hrouter.accepts (.restore name) state
  have hrejects := hrouter.rejects (.restore name) state
  rcases hreply : router (.restore name) state with ⟨answer, after⟩
  rw [hreply] at hanswer haccepts hrejects
  cases hsaved : (view state).saved name with
  | none =>
      rw [hsaved] at hanswer
      cases hanswer
      exact ⟨rfl, rfl, hrejects _ rfl⟩
  | some pending =>
      rw [hsaved] at hanswer
      cases hanswer
      have hfollow := haccepts rfl
      rw [Stacks.follow, Stacks.restore?, hsaved] at hfollow
      exact ⟨rfl, rfl, (Except.ok.inj hfollow).symm⟩

theorem StackRouter.restoresSaved_route : route.RestoresSaved toStacks where
  toHoldsStacks := holdsStacks_route
  restores name router := by
    cases hsaved : router.checkpoints.get? name <;> simp [route, toStacks, hsaved]

/-- In a turn after any run, an action that restores a name succeeds just if an action before it, in
this turn or an earlier one, saved a stack under the name, and then the stack is again what it was
when the latest of those was performed. Where none was asked to save one, the turn ends there. -/
theorem restores_latest {router : Router σ} {view : σ → Stacks}
    (hrouter : router.RestoresSaved view) (script : Script) {start : σ}
    (hstart : ∀ name, (view start).saved name = none) (calls : List (Call σ))
    (hcalls : ∀ call ∈ calls, call.OnlyTakes view) (screen : Screen) (responses : Responses) :
    let reached := (script.replies router calls start).2
    let course := script.processCourse router screen.id responses reached
    let ended := script.reply router reached (.process screen responses)
    ended = course.finish router ∧
      ∀ earlier dispatch later name, course.dispatches = earlier ++ dispatch :: later →
        dispatch.action = .restore name →
        let past := script.history router calls start ++ earlier
        dispatch.before = stateAfter reached earlier ∧ dispatch.reply.commands = [.restore name] ∧
          (dispatch.reply.result = .ok () ↔ ∃ saving ∈ past, saving.saves name = true) ∧
          (dispatch.reply.result = .ok () →
            ∃ first saving between, past = first ++ saving :: between ∧
              saving.saves name = true ∧ (∀ other ∈ between, other.saves name = false) ∧
              view dispatch.after =
                { view dispatch.before with pending := (view saving.before).pending }) ∧
          ((∀ other ∈ past, other.saves name = false) →
            later = [] ∧ ended.1.result = .error (.rejected (.unknownCheckpoint name)) ∧
              ended.1.commands =
                (earlier.flatMap fun other => other.reply.commands) ++ [.restore name] ∧
              .next ∉ ended.1.commands ∧ ended.2 = dispatch.after ∧
              view dispatch.after = view dispatch.before) := by
  intro reached course ended
  have hfinish : ended = course.finish router :=
    script.reply_process router reached screen responses
  have hhistory : (view reached).Remembers view (script.history router calls start) := by
    have hempty : (view start).Remembers view [] := funext hstart
    exact hrouter.remembers_history script hcalls hempty
  refine ⟨hfinish, ?_⟩
  intro earlier dispatch later name hsplit haction past
  obtain ⟨hpast, hself⟩ := (hrouter.remembers_course script screen.id responses
    (script.actionsFor screen.id) hhistory).2 earlier dispatch later hsplit
  have hdispatch : script.dispatch router screen.id (.restore name) dispatch.before = dispatch := by
    rw [← haction, ← hself]
  have hrestore := hrouter.dispatch_restore script screen.id hpast name
  rw [hdispatch] at hrestore
  obtain ⟨hcommands, hlatest⟩ := hrestore
  have hsaved : (latestSaved? view past name).isSome ↔ ∃ saving ∈ past, saving.saves name = true :=
    isSome_latestSaved?_iff
  refine ⟨Script.before_of_split hsplit, hcommands, ?_⟩
  cases hfound : latestSaved? view past name with
  | some pending =>
      rw [hfound] at hlatest hsaved
      obtain ⟨hok, hafter⟩ := hlatest
      obtain ⟨first, saving, between, hpast, hsaves, hbetween, rfl⟩ := exists_latest hfound
      refine ⟨iff_of_true hok (hsaved.1 rfl), ?_, ?_⟩
      · intro _
        exact ⟨first, saving, between, hpast, hsaves, hbetween, hafter⟩
      · intro hnone
        obtain ⟨other, hother, hsaves⟩ := hsaved.1 rfl
        cases hsaves.symm.trans (hnone other hother)
  | none =>
      rw [hfound] at hlatest hsaved
      obtain ⟨hfailed, hafter⟩ := hlatest
      have hnotOk : dispatch.reply.result ≠ .ok () := by
        rw [hfailed]
        nofun
      refine ⟨iff_of_false hnotOk fun hsome => absurd (hsaved.2 hsome) (by decide), ?_, ?_⟩
      · intro hok
        exact absurd hok hnotOk
      · intro _
        obtain ⟨hlast, hresult, hsent, hnext, hended⟩ := Script.reply_of_failed hfailed hsplit
        rw [hcommands] at hsent
        exact ⟨hlast, hresult, hsent, hnext, hended, hafter⟩

/-- `a` pushes `b` and saves the stack before it pushes `c`; `b` skips two screens and restores the
stack, and `c` restores what was never saved. -/
def Script.outing : Script where
  interview :=
    { screens := [{ id := "a" }, { id := "b" }, { id := "c" }]
      startingState := ["a", "c"]
      actions := .ofList [
        ("a", [.always (.push ["b"]), .always (.checkpoint "mid"), .always (.push ["c"])]),
        ("b", [.always (.skip {}), .always (.skip {}), .always (.restore "mid")]),
        ("c", [.always (.push ["b"]), .always (.restore "lost")])] }

theorem restores_latest_outing :
    let take : Call StackRouter := .host fun router => router.pop.2
    let calls : List (Call StackRouter) :=
      [.setup, take, .process { id := "a" } {}, take, .process { id := "c" } {}]
    let reached := (Script.outing.replies StackRouter.route calls {}).2
    let course := Script.outing.processCourse StackRouter.route "b" {} reached
    StackRouter.route.RestoresSaved StackRouter.toStacks ∧
      (∀ name, (StackRouter.toStacks {}).saved name = none) ∧
      (∀ call ∈ calls, call.OnlyTakes StackRouter.toStacks) ∧
      reached.pending = ["b", "b", "c"] ∧
      ∃ earlier dispatch, course.dispatches = earlier ++ [dispatch] ∧
        dispatch.action = .restore "mid" ∧ dispatch.reply.result = .ok () ∧
        dispatch.before.pending = ["c"] ∧ dispatch.after.pending = ["b", "c"] ∧
        ∃ saving ∈ Script.outing.history StackRouter.route calls {} ++ earlier,
          saving.saves "mid" = true ∧ dispatch.after.pending = saving.before.pending := by
  intro take calls reached course
  have htake : take.OnlyTakes StackRouter.toStacks := by
    intro router
    exact ⟨List.tail_suffix router.pending, rfl⟩
  have hcalls : ∀ call ∈ calls, call.OnlyTakes StackRouter.toStacks := by
    simpa [calls, Call.OnlyTakes] using htake
  have hroute := StackRouter.restoresSaved_route
  have hempty : ∀ name, (StackRouter.toStacks {}).saved name = none := fun _ => rfl
  obtain ⟨-, hrestores⟩ := restores_latest hroute Script.outing hempty calls hcalls { id := "b" } {}
  have hsplit : course.dispatches = course.dispatches.take 2 ++
      [Script.outing.dispatch StackRouter.route "b" (.restore "mid")
        (stateAfter reached (course.dispatches.take 2))] := by rfl
  obtain ⟨-, -, -, hlatest, -⟩ := hrestores _ _ _ "mid" hsplit rfl
  obtain ⟨first, saving, between, hpast, hsaves, -, hafter⟩ := hlatest (by rfl)
  refine ⟨hroute, hempty, hcalls, by decide +kernel, _, _, hsplit, rfl, by rfl,
    by decide +kernel, by decide +kernel, saving, ?_, hsaves, congrArg Stacks.pending hafter⟩
  rw [hpast]
  simp

end BranchingInterview
