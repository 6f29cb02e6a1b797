import BranchingInterview.Proofs.Requests
import BranchingInterview.Proofs.Stacks
import BranchingInterview.Router.Journal

/-!
What a host finds on the stack. A run is watched from command to command: only screens of the
interview are pushed, so that at each moment, also in a turn that fails, every id on the stack and
on a saved stack is the id of a screen that the script finds.
-/

namespace BranchingInterview

variable {σ τ : Type}

/-- The stacks of a router change with the commands it accepts and with no others. -/
structure Router.HoldsStacks (router : Router σ) (view : σ → Stacks) : Prop
    extends router.KeepsStacks view where
  rejects : ∀ command state reason, (router command state).1 = .error reason →
    view (router command state).2 = view state

/-- What is seen after a command, or after a change that the host makes. -/
structure Moment where
  command : Option Command := none
  reply : Except RouterError Unit := .ok ()
  held : Stacks

def Router.watched (router : Router σ) (view : σ → Stacks) : Router (σ × List Moment) :=
  fun command (state, seen) =>
    let (reply, after) := router command state
    (reply, after, seen ++ [{ command, reply, held := view after }])

def Call.watched (view : σ → Stacks) : Call σ → Call (σ × List Moment)
  | .setup => .setup
  | .process screen responses => .process screen responses
  | .host change =>
      .host fun (state, seen) => (change state, seen ++ [{ held := view (change state) }])

/-- The replies of a run, the state it ends in, and its moments in order. -/
def Script.watch (script : Script) (router : Router σ) (view : σ → Stacks) (calls : List (Call σ))
    (state : σ) : List Reply × σ × List Moment :=
  script.replies (router.watched view) (calls.map (Call.watched view)) (state, [])

/-- The host takes screens off the stack, if it changes the stacks at all. -/
def Call.OnlyTakes (view : σ → Stacks) : Call σ → Prop
  | .host change => ∀ state,
      (view (change state)).pending <:+ (view state).pending ∧
        (view (change state)).saved = (view state).saved
  | _ => True

namespace Stacks

def empty : Stacks := ⟨[], fun _ => none⟩

/-- The script finds a screen for every id on the stacks. -/
structure FoundBy (held : Stacks) (script : Script) : Prop where
  pending : ∀ id ∈ held.pending, (script.screen? id).isSome
  saved : ∀ name ids, held.saved name = some ids → ∀ id ∈ ids, (script.screen? id).isSome

end Stacks

/-- What a command pushes is the screen that the script finds for its id. -/
def Script.PushesFound (script : Script) (command : Command) : Prop :=
  ∀ screen, command = .push screen →
    screen ∈ script.interview.screens ∧ script.screen? screen.id = some screen

structure Moment.SoundFor (moment : Moment) (script : Script) : Prop where
  pushes : ∀ command, moment.command = some command → script.PushesFound command
  found : moment.held.FoundBy script

/-! Watching changes nothing. -/

/-- A router does on a part of its state what another router does. -/
def Router.Extends (outer : Router τ) (inner : Router σ) (part : τ → σ) : Prop :=
  ∀ command state,
    inner command (part state) = ((outer command state).1, part (outer command state).2)

theorem Router.extends_recording (router : Router σ) : router.recording.Extends router Prod.fst := by
  intro command state
  rfl

theorem Router.extends_watched (router : Router σ) (view : σ → Stacks) :
    (router.watched view).Extends router Prod.fst := by
  intro command state
  rfl

namespace Router.Extends

variable {outer : Router τ} {inner : Router σ} {part : τ → σ} (hextends : outer.Extends inner part)

include hextends

theorem recording : outer.recording.Extends inner.recording (Prod.map part id) := by
  rintro command ⟨state, given⟩
  simp only [Router.recording, Prod.map, hextends command state, id_eq]

theorem sendAll (commands : List Command) (state : τ) :
    inner.sendAll commands (part state) =
      ((outer.sendAll commands state).1, part (outer.sendAll commands state).2) := by
  induction commands generalizing state with
  | nil => rfl
  | cons command rest ih =>
      rw [Router.sendAll, Router.sendAll, hextends command state]
      rcases outer command state with ⟨reply | reply, after⟩
      · rfl
      · exact ih after

theorem execute (plan : Plan) (state : τ) :
    plan.execute inner (part state) =
      ((plan.execute outer state).1, part (plan.execute outer state).2) := by
  rw [Plan.execute, Plan.execute, hextends.sendAll]
  rcases outer.sendAll plan.commands state with ⟨reply | reply, after⟩ <;> rfl

theorem reply (plan : Plan) (state : τ) :
    plan.reply inner (part state) =
      ((plan.reply outer state).1, part (plan.reply outer state).2) := by
  have hexecute := hextends.recording.execute plan (state, [])
  simp only [Prod.map, id_eq] at hexecute
  rw [Plan.reply, Plan.reply, hexecute]

end Router.Extends

theorem Plan.snd_reply (plan : Plan) (router : Router σ) (state : σ) :
    (plan.reply router state).2 = (router.sendAll plan.commands state).2 := by
  have hexecute := router.extends_recording.execute plan (state, [])
  rw [← Plan.snd_execute, hexecute]
  rfl

namespace Script

variable (script : Script)

theorem callPlan_watched (view : σ → Stacks) (call : Call σ) :
    script.callPlan (call.watched view) = script.callPlan call := by
  cases call <;> rfl

theorem reply_watched (router : Router σ) (view : σ → Stacks) (call : Call σ)
    (state : σ × List Moment) :
    script.reply router state.1 call =
      ((script.reply (router.watched view) state (call.watched view)).1,
        (script.reply (router.watched view) state (call.watched view)).2.1) := by
  have henter : call.enter state.1 = ((call.watched view).enter state).1 := by
    cases call <;> rfl
  rw [reply_eq, reply_eq, callPlan_watched, henter]
  exact (router.extends_watched view).reply (script.callPlan call) _

theorem replies_watched (router : Router σ) (view : σ → Stacks) (calls : List (Call σ))
    (state : σ × List Moment) :
    script.replies router calls state.1 =
      ((script.replies (router.watched view) (calls.map (Call.watched view)) state).1,
        (script.replies (router.watched view) (calls.map (Call.watched view)) state).2.1) := by
  induction calls generalizing state with
  | nil => rfl
  | cons call calls ih =>
      rw [List.map_cons, replies, replies, script.reply_watched router view call state]
      simp only
      rw [ih]

end Script

/-! Only screens that the script finds are pushed. -/

def Plan.PushesFound (plan : Plan) (script : Script) : Prop :=
  ∀ command ∈ plan.commands, script.PushesFound command

namespace Script

variable (script : Script)

theorem pushesFound_callPlan (call : Call σ) : (script.callPlan call).PushesFound script := by
  rintro command hcommand screen rfl
  obtain ⟨id, -, hfound⟩ := script.pushesFrom_callPlan call screen hcommand
  refine ⟨List.mem_reverse.1 (List.mem_of_find?_eq_some hfound), ?_⟩
  rw [screen?, findScreen?_id hfound, hfound]

end Script

/-! Each command, each call and so each run keeps to ids that the script finds. -/

namespace Stacks

variable {script : Script}

theorem foundBy_empty : Stacks.empty.FoundBy script where
  pending id hid := by cases hid
  saved name ids hsaved := by cases hsaved

theorem FoundBy.take {held after : Stacks} (hfound : held.FoundBy script)
    (hpending : after.pending <:+ held.pending) (hsaved : after.saved = held.saved) :
    after.FoundBy script where
  pending id hid := hfound.pending id (hpending.subset hid)
  saved := by
    rw [hsaved]
    exact hfound.saved

theorem FoundBy.follow {held after : Stacks} {command : Command}
    (hfound : held.FoundBy script) (hcommand : script.PushesFound command)
    (hfollow : held.follow command = .ok after) : after.FoundBy script := by
  cases command with
  | push screen =>
      cases hfollow
      refine ⟨?_, hfound.saved⟩
      intro id hid
      rcases List.mem_cons.1 hid with rfl | hbelow
      · rw [(hcommand screen rfl).2]
        rfl
      · exact hfound.pending id hbelow
  | skip responses =>
      have hdrop := eq_some_of_elim_eq_ok hfollow
      rw [drop?] at hdrop
      split at hdrop
      · cases hdrop
      · next top rest hpending =>
          cases hdrop
          refine hfound.take ?_ rfl
          rw [hpending]
          exact List.suffix_cons top rest
  | checkpoint name =>
      cases hfollow
      refine ⟨hfound.pending, ?_⟩
      intro other ids hsaved
      by_cases hname : name = other
      · simp only [save, hname, ↓reduceIte, Option.some.injEq] at hsaved
        subst hsaved
        exact hfound.pending
      · simp only [save, hname, ↓reduceIte] at hsaved
        exact hfound.saved other ids hsaved
  | restore name =>
      have hrestore := eq_some_of_elim_eq_ok hfollow
      obtain ⟨ids, hsaved, rfl⟩ := Option.map_eq_some_iff.1 hrestore
      exact ⟨hfound.saved name ids hsaved, hfound.saved⟩
  | _ =>
      cases hfollow
      exact hfound

end Stacks

/-- The stacks now, and at every moment seen so far, have only ids that the script finds. -/
def Script.FindsAll (script : Script) (view : σ → Stacks) (watched : σ × List Moment) : Prop :=
  (view watched.1).FoundBy script ∧ ∀ moment ∈ watched.2, moment.SoundFor script

theorem Script.FindsAll.note {script : Script} {view : σ → Stacks} {state after : σ}
    {seen : List Moment} {moment : Moment} (hsound : script.FindsAll view (state, seen))
    (hafter : (view after).FoundBy script) (hmoment : moment.SoundFor script) :
    script.FindsAll view (after, seen ++ [moment]) := by
  refine ⟨hafter, ?_⟩
  intro noted hnoted
  rcases List.mem_append.1 hnoted with hearlier | hlast
  · exact hsound.2 noted hearlier
  · rwa [List.mem_singleton.1 hlast]

theorem Script.FindsAll.enter {script : Script} {view : σ → Stacks} {watched : σ × List Moment}
    (hsound : script.FindsAll view watched) {call : Call σ} (hcall : call.OnlyTakes view) :
    script.FindsAll view ((call.watched view).enter watched) := by
  cases call with
  | host change =>
      obtain ⟨hpending, hsaved⟩ := hcall watched.1
      have hafter := hsound.1.take hpending hsaved
      refine hsound.note hafter ⟨?_, hafter⟩
      intro command hnone
      cases hnone
  | _ => exact hsound

namespace Router.HoldsStacks

variable {router : Router σ} {view : σ → Stacks} {script : Script} {watched : σ × List Moment}
  (hrouter : router.HoldsStacks view)

include hrouter

theorem findsAll_command (hsound : script.FindsAll view watched) {command : Command}
    (hcommand : script.PushesFound command) :
    script.FindsAll view (router.watched view command watched).2 := by
  obtain ⟨state, seen⟩ := watched
  have hafter : (view (router command state).2).FoundBy script := by
    cases hreply : (router command state).1 with
    | error reason =>
        rw [hrouter.rejects command state reason hreply]
        exact hsound.1
    | ok accepted => exact hsound.1.follow hcommand (hrouter.accepts command state hreply)
  refine hsound.note hafter ⟨?_, hafter⟩
  intro sent hsent
  cases hsent
  exact hcommand

theorem findsAll_sendAll {commands : List Command}
    (hcommands : ∀ command ∈ commands, script.PushesFound command)
    (hsound : script.FindsAll view watched) :
    script.FindsAll view ((router.watched view).sendAll commands watched).2 := by
  induction commands generalizing watched with
  | nil => exact hsound
  | cons command rest ih =>
      have hstep := hrouter.findsAll_command hsound (hcommands command List.mem_cons_self)
      have hrest := fun later hlater => hcommands later (List.mem_cons_of_mem _ hlater)
      rw [Router.sendAll]
      rcases hreply : router.watched view command watched with ⟨reply | reply, after⟩
      -- A rejected command ends the turn, but its moment has been noted.
      · rwa [hreply] at hstep
      · rw [hreply] at hstep
        exact ih hrest hstep

theorem findsAll_reply {call : Call σ} (hcall : call.OnlyTakes view)
    (hsound : script.FindsAll view watched) :
    script.FindsAll view
      (script.reply (router.watched view) watched (call.watched view)).2 := by
  rw [Script.reply_eq, Plan.snd_reply, Script.callPlan_watched]
  exact hrouter.findsAll_sendAll (script.pushesFound_callPlan call) (hsound.enter hcall)

theorem findsAll_replies {calls : List (Call σ)} (hcalls : ∀ call ∈ calls, call.OnlyTakes view)
    (hsound : script.FindsAll view watched) :
    script.FindsAll view
      (script.replies (router.watched view) (calls.map (Call.watched view)) watched).2 := by
  induction calls generalizing watched with
  | nil => exact hsound
  | cons call calls ih =>
      rw [List.map_cons, Script.replies]
      refine ih (fun later hlater => hcalls later (List.mem_cons_of_mem _ hlater)) ?_
      exact hrouter.findsAll_reply (hcalls call List.mem_cons_self) hsound

end Router.HoldsStacks

theorem StackRouter.holdsStacks_route : route.HoldsStacks toStacks where
  toKeepsStacks := keepsStacks_route
  rejects command router reason hrejected := by
    cases command with
    | skip responses =>
        rw [route] at hrejected ⊢
        split at hrejected
        · rfl
        · cases hrejected
    | restore name =>
        rw [route] at hrejected ⊢
        split at hrejected
        · cases hrejected
        · rfl
    | _ => cases hrejected

namespace Journal

def toStacks (journal : Journal) : Stacks := journal.router.toStacks

/-- The host takes the next screen off the stack. -/
def take (journal : Journal) : Journal := { journal with router := journal.router.pop.2 }

theorem onlyTakes_take : (Call.host take).OnlyTakes toStacks := by
  intro journal
  exact ⟨List.tail_suffix journal.router.pending, rfl⟩

/-- A journal holds its stacks whatever faults it is given. -/
theorem holdsStacks_route : route.HoldsStacks toStacks where
  accepts command journal haccepted := by
    have hforward := StackRouter.holdsStacks_route.accepts command journal.router
    rw [route] at haccepted ⊢
    split at haccepted
    · exact hforward haccepted
    · cases haccepted
    · exact hforward haccepted
  rejects command journal reason hrejected := by
    have hforward := StackRouter.holdsStacks_route.rejects command journal.router reason
    rw [route] at hrejected ⊢
    split at hrejected
    · exact hforward hrejected
    · rfl
    · exact hforward hrejected

end Journal

/-- Watching leaves a run as it is. Whatever the script pushes is the screen it finds for the id,
and at every moment of the run it finds a screen for each id on the stack or saved under a name. -/
theorem findsAll_watch {router : Router σ} {view : σ → Stacks} (hrouter : router.HoldsStacks view)
    (script : Script) {start : σ} (hstart : view start = .empty) (calls : List (Call σ))
    (hcalls : ∀ call ∈ calls, call.OnlyTakes view) :
    let (replies, last, moments) := script.watch router view calls start
    (replies, last) = script.replies router calls start ∧
      (view last).FoundBy script ∧
      ∀ moment ∈ moments,
        (∀ screen, moment.command = some (.push screen) →
          screen ∈ script.interview.screens ∧ script.screen? screen.id = some screen) ∧
        (∀ id ∈ moment.held.pending, (script.screen? id).isSome) ∧
        ∀ name ids, moment.held.saved name = some ids → ∀ id ∈ ids, (script.screen? id).isSome := by
  have hsound : script.FindsAll view (start, []) := by
    refine ⟨?_, fun moment hmem => absurd hmem List.not_mem_nil⟩
    rw [hstart]
    exact Stacks.foundBy_empty
  obtain ⟨hlast, hmoments⟩ := hrouter.findsAll_replies hcalls hsound
  refine ⟨(script.replies_watched router view calls (start, [])).symm, hlast, ?_⟩
  intro moment hmem
  obtain ⟨hpushes, hpending, hsaved⟩ := hmoments moment hmem
  exact ⟨fun screen hpush => hpushes _ hpush screen rfl, hpending, hsaved⟩

/-- The third push is rejected: the turn fails with one of its two screens on the stack. -/
theorem findsAll_watch_detour :
    let start : Journal := { faults := .ofList [("push", { error := .other "full", allowed := 2 })] }
    let calls : List (Call Journal) := [.setup, .host Journal.take, .process { id := "a" } {}]
    let (replies, _, moments) := Script.detour.watch Journal.route Journal.toStacks calls start
    Journal.route.HoldsStacks Journal.toStacks ∧ start.toStacks = .empty ∧
      (∀ call ∈ calls, call.OnlyTakes Journal.toStacks) ∧
      replies.map Reply.result = [.ok (), .ok (), .error (.rejected (.other "full"))] ∧
      moments.map (fun moment => moment.held.pending) = [["a"], [], [], ["c"], ["c"]] ∧
      ∀ moment ∈ moments, ∀ id ∈ moment.held.pending, (Script.detour.screen? id).isSome := by
  intro start calls
  have hcalls : ∀ call ∈ calls, call.OnlyTakes Journal.toStacks := by
    simpa [calls, Call.OnlyTakes] using Journal.onlyTakes_take
  have hempty : start.toStacks = .empty := by rfl
  obtain ⟨-, -, hmoments⟩ :=
    findsAll_watch Journal.holdsStacks_route Script.detour hempty calls hcalls
  exact ⟨Journal.holdsStacks_route, hempty, hcalls, by rfl, by rfl,
    fun moment hmem => (hmoments moment hmem).2.1⟩

end BranchingInterview
