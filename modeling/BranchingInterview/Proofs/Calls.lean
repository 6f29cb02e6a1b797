import BranchingInterview.Proofs.Plan

/-!
Calls. A host sets a script up and lets it process screens, one call after the other, and in between
may change the router itself. Each call has a reply: the commands it sent and what it returned.
-/

namespace BranchingInterview

variable {σ : Type}

/-- What a host does with a script and its router. -/
inductive Call (σ : Type)
  | setup
  | process (screen : Screen) (responses : Responses)
  /-- The host changes the router itself, as when it takes the next screen off the stack. -/
  | host (change : σ → σ)

structure Reply where
  /-- The commands given to the router, the last of which it may have rejected. -/
  commands : List Command := []
  result : Except ScriptError Unit := .ok ()

def Router.recording (router : Router σ) : Router (σ × List Command) :=
  fun command (state, given) =>
    let (reply, after) := router command state
    (reply, after, given ++ [command])

/-- The reply of a turn that finds the router in some state, and the router's state after it. -/
def Turn.reply (turn : Turn (σ × List Command) Unit) (state : σ) : Reply × σ :=
  let (result, after, commands) := turn.exchange { router := (state, []) }
  (⟨commands, result⟩, after)

namespace Script

def reply (script : Script) (router : Router σ) (state : σ) : Call σ → Reply × σ
  | .setup => (script.setup router.recording).reply state
  | .process screen responses => (script.process router.recording screen responses).reply state
  | .host change => ({}, change state)

def replies (script : Script) (router : Router σ) : List (Call σ) → σ → List Reply × σ
  | [], state => ([], state)
  | call :: calls, state =>
      let (reply, after) := script.reply router state call
      let (replies, last) := script.replies router calls after
      (reply :: replies, last)

def callPlan (script : Script) : Call σ → Plan
  | .setup => script.setupPlan
  | .process screen responses => script.processPlan screen.id responses
  | .host _ => {}

end Script

def Call.enter (state : σ) : Call σ → σ
  | .host change => change state
  | _ => state

def Plan.reply (plan : Plan) (router : Router σ) (state : σ) : Reply × σ :=
  let (result, after, commands) := plan.execute router.recording (state, [])
  (⟨commands, result⟩, after)

theorem Script.reply_eq (script : Script) (router : Router σ) (state : σ) (call : Call σ) :
    script.reply router state call = (script.callPlan call).reply router (call.enter state) := by
  cases call with
  | setup =>
      rw [Script.reply, Turn.reply, script.carriesOut_setup router.recording]
      rfl
  | process screen responses =>
      rw [Script.reply, Turn.reply, script.carriesOut_process router.recording screen responses]
      rfl
  | host change => rfl

namespace Router

variable {router : Router σ} {before commands : List Command} {command : Command}
  {state reached after : σ} {reason : RouterError}

/-- A router accepts all of some commands, or those before one that it rejects. -/
theorem accepted_or_rejected (router : Router σ) (commands : List Command) (state : σ) :
    (∃ after, router.sendAll commands state = (.ok (), after)) ∨
      ∃ before command rest reached reason after, commands = before ++ command :: rest ∧
        router.sendAll before state = (.ok (), reached) ∧
        router command reached = (.error reason, after) := by
  induction commands generalizing state with
  | nil => exact Or.inl ⟨state, rfl⟩
  | cons first rest ih =>
      rcases hfirst : router first state with ⟨reason | _, after⟩
      · exact Or.inr ⟨[], first, rest, state, reason, after, rfl, rfl, hfirst⟩
      · have hstep (more : List Command) :
            router.sendAll (first :: more) state = router.sendAll more after := by
          rw [sendAll, hfirst]
        rcases ih after with ⟨last, haccepted⟩ | ⟨before, command, later, reached, reason, last,
          rfl, hbefore, hrejects⟩
        · exact Or.inl ⟨last, (hstep rest).trans haccepted⟩
        · exact Or.inr ⟨first :: before, command, later, reached, reason, last, rfl,
            (hstep before).trans hbefore, hrejects⟩

theorem sendAll_recording_of_accepted
    (haccepted : router.sendAll commands state = (.ok (), after)) (given : List Command) :
    router.recording.sendAll commands (state, given) = (.ok (), after, given ++ commands) := by
  induction commands generalizing state given with
  | nil =>
      obtain rfl : state = after := congrArg Prod.snd haccepted
      rw [List.append_nil, sendAll]
  | cons command rest ih =>
      rw [sendAll] at haccepted
      rw [sendAll, recording]
      rcases hreply : router command state with ⟨reason | _, reached⟩
      · rw [hreply] at haccepted
        cases haccepted
      · rw [hreply] at haccepted
        rw [List.append_cons given command rest]
        exact ih haccepted (given ++ [command])

theorem sendAll_recording_of_rejected (hbefore : router.sendAll before state = (.ok (), reached))
    (hrejects : router command reached = (.error reason, after)) (rest given : List Command) :
    router.recording.sendAll (before ++ command :: rest) (state, given) =
      (.error reason, after, given ++ before ++ [command]) := by
  rw [sendAll_append, sendAll_recording_of_accepted hbefore given]
  simp only [sendAll, recording, hrejects]

end Router

/-- What a router is given of some commands is the first part of them. -/
theorem Router.prefix_of_sendAll_recording (router : Router σ) (commands : List Command) (state : σ)
    (given : List Command) :
    (router.recording.sendAll commands (state, given)).2.2 <+: given ++ commands := by
  rcases router.accepted_or_rejected commands state with ⟨after, haccepted⟩ |
    ⟨before, command, rest, reached, reason, after, rfl, hbefore, hrejects⟩
  · have hsent := sendAll_recording_of_accepted haccepted given
    simp only [hsent, List.prefix_rfl]
  · rw [sendAll_recording_of_rejected hbefore hrejects, List.append_cons before command rest,
      ← List.append_assoc, ← List.append_assoc]
    exact List.prefix_append _ rest

theorem Plan.prefix_of_reply (plan : Plan) (router : Router σ) (state : σ) :
    (plan.reply router state).1.commands <+: plan.commands := by
  change (plan.execute router.recording (state, [])).2.2 <+: plan.commands
  rw [Plan.snd_execute]
  exact router.prefix_of_sendAll_recording plan.commands state []

namespace Plan

variable {plan : Plan} {router : Router σ} {state after : σ}

theorem reply_of_accepted (haccepted : router.sendAll plan.commands state = (.ok (), after)) :
    plan.reply router state = (⟨plan.commands, plan.verdict⟩, after) := by
  rw [reply, execute, Router.sendAll_recording_of_accepted haccepted]
  rfl

theorem reply_of_rejected {before rest : List Command} {command : Command} {reached : σ}
    {reason : RouterError} (hcommands : plan.commands = before ++ command :: rest)
    (hbefore : router.sendAll before state = (.ok (), reached))
    (hrejects : router command reached = (.error reason, after)) :
    plan.reply router state = (⟨before ++ [command], .error (.rejected reason)⟩, after) := by
  rw [reply, execute, hcommands, Router.sendAll_recording_of_rejected hbefore hrejects]
  rfl

end Plan

theorem Script.exists_of_mem_replies {script : Script} {router : Router σ} {calls : List (Call σ)}
    {state : σ} {reply : Reply} (hmem : reply ∈ (script.replies router calls state).1) :
    ∃ call reached, reply = (script.reply router reached call).1 := by
  induction calls generalizing state with
  | nil => exact absurd hmem List.not_mem_nil
  | cons call calls ih =>
      rcases List.mem_cons.1 hmem with rfl | hrest
      · exact ⟨call, state, rfl⟩
      · exact ih hrest

end BranchingInterview
