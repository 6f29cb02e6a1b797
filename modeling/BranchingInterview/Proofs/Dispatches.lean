import BranchingInterview.Proofs.Calls

/-!
A turn as the actions it performs. The candidates of a screen are gone through in order; each one
whose condition holds has its action performed, and the first failure ends the turn. What is left
of a turn that does not fail so is the request for the next screen.
-/

namespace BranchingInterview

variable {σ : Type}

/-- An action as it is performed: what it sent and returned, and the router before and after it. -/
structure Dispatch (σ : Type) where
  action : Action
  before : σ
  reply : Reply
  after : σ

/-- How the candidates of a screen go: the actions performed, what ends them if anything does, and
the state in which they leave the router. -/
structure Course (σ : Type) where
  dispatches : List (Dispatch σ) := []
  result : Except ScriptError Unit := .ok ()
  state : σ

/-- What is sent in one part of a turn and, unless that fails, in the next one. -/
def Reply.andThen (first : Reply × σ) (next : σ → Reply × σ) : Reply × σ :=
  match first.1.result with
  | .ok () =>
      let (reply, after) := next first.2
      ({ reply with commands := first.1.commands ++ reply.commands }, after)
  | .error _ => first

namespace Course

def commands (course : Course σ) : List Command :=
  course.dispatches.flatMap fun dispatch => dispatch.reply.commands

/-- The candidates are done with; only if none of them failed is the next screen asked for. -/
def finish (course : Course σ) (router : Router σ) : Reply × σ :=
  Reply.andThen (⟨course.commands, course.result⟩, course.state) ((Plan.send .next).reply router)

end Course

/-- The course of an action and then, unless it fails, of what is done in the state it leaves. -/
def Dispatch.followedBy (dispatch : Dispatch σ) (rest : σ → Course σ) : Course σ :=
  match dispatch.reply.result with
  | .error error => { dispatches := [dispatch], result := .error error, state := dispatch.after }
  | .ok () =>
      let course := rest dispatch.after
      { course with dispatches := dispatch :: course.dispatches }

namespace Script

/-- Performs one action of a screen. -/
def dispatch (script : Script) (router : Router σ) (screen : String) (action : Action)
    (state : σ) : Dispatch σ :=
  let (reply, after) :=
    (Turn.perform (script.context router.recording (some screen)) action).reply state
  { action, before := state, reply, after }

def course (script : Script) (router : Router σ) (screen : String) (responses : Responses) :
    List Candidate → σ → Course σ
  | [], state => { state }
  | candidate :: rest, state =>
      match script.guard responses candidate with
      | .error error => { result := .error error, state }
      | .ok false => script.course router screen responses rest state
      | .ok true =>
          (script.dispatch router screen candidate.action state).followedBy
            (script.course router screen responses rest)

/-- The course of processing a screen. -/
def processCourse (script : Script) (router : Router σ) (screen : String) (responses : Responses)
    (state : σ) : Course σ :=
  script.course router screen responses (script.actionsFor screen) state

end Script

/-- What a command of an action may be. -/
def Action.Sends : Action → Command → Prop
  | push _, command => ∃ screen, command = .push screen
  | skip responses, command => command = .skip responses
  | checkpoint name, command => command = .checkpoint name
  | restore name, command => command = .restore name
  | milestone name, command => command = .milestone name
  | endInterview, command => command = .complete
  | doNothing, _ => False

theorem Action.sends_of_mem_plan {screens : List Screen} {policy : ScreenPolicy} (action : Action)
    {command : Command} (hmem : command ∈ (action.plan screens policy).commands) :
    action.Sends command := by
  cases action with
  | push ids =>
      rw [plan, pushPlan] at hmem
      cases hresolution : resolution screens policy ids with
      | error error =>
          rw [hresolution] at hmem
          cases hmem
      | ok found =>
          rw [hresolution] at hmem
          obtain ⟨screen, -, rfl⟩ := List.mem_map.1 hmem
          exact ⟨screen, rfl⟩
  | doNothing => cases hmem
  | skip | checkpoint | restore | milestone | endInterview => exact List.mem_singleton.1 hmem

/-! What a plan sends is recorded after whatever was sent before. -/

theorem Router.sendAll_recording (router : Router σ) (commands : List Command) (state : σ)
    (given : List Command) :
    router.recording.sendAll commands (state, given) =
      let (reply, after, sent) := router.recording.sendAll commands (state, [])
      (reply, after, given ++ sent) := by
  rcases router.accepted_or_rejected commands state with ⟨after, haccepted⟩ |
    ⟨before, command, rest, reached, reason, after, rfl, hbefore, hrejects⟩
  · simp only [sendAll_recording_of_accepted haccepted, List.nil_append]
  · simp only [sendAll_recording_of_rejected hbefore hrejects, List.nil_append, List.append_assoc]

theorem Plan.execute_recording (plan : Plan) (router : Router σ) (state : σ)
    (given : List Command) :
    plan.execute router.recording (state, given) =
      let (result, after, sent) := plan.execute router.recording (state, [])
      (result, after, given ++ sent) := by
  rw [execute, execute, router.sendAll_recording plan.commands state given]
  rcases router.recording.sendAll plan.commands (state, []) with ⟨reply | reply, after, sent⟩
  all_goals rfl

theorem Plan.reply_andThen (first next : Plan) (router : Router σ) (state : σ) :
    (first.andThen next).reply router state =
      Reply.andThen (first.reply router state) (next.reply router) := by
  simp only [Plan.reply, Plan.execute_andThen, Reply.andThen]
  rcases first.execute router.recording (state, []) with ⟨error | _, after, sent⟩
  · rfl
  · simp only
    rw [next.execute_recording router after sent]

theorem Course.finish_of_failed {course : Course σ} {error : ScriptError}
    (hfailed : course.result = .error error) (router : Router σ) :
    course.finish router = (⟨course.commands, .error error⟩, course.state) := by
  simp only [finish, Reply.andThen, hfailed]

theorem Router.sendAll_of_accepting {router : Router σ}
    (haccepts : ∀ command state, (router command state).1 = .ok ()) (commands : List Command)
    (state : σ) (given : List Command) :
    router.recording.sendAll commands (state, given) =
      (.ok (), (router.recording.sendAll commands (state, given)).2.1, given ++ commands) := by
  rcases router.accepted_or_rejected commands state with ⟨after, haccepted⟩ |
    ⟨before, command, rest, reached, reason, after, -, -, hrejects⟩
  · rw [sendAll_recording_of_accepted haccepted given]
  · have haccepted := haccepts command reached
    rw [hrejects] at haccepted
    cases haccepted

theorem Plan.reply_of_accepting {router : Router σ} (plan : Plan)
    (haccepts : ∀ command state, (router command state).1 = .ok ()) (state : σ) :
    (plan.reply router state).1 = ⟨plan.commands, plan.verdict⟩ := by
  rw [reply, execute, Router.sendAll_of_accepting haccepts plan.commands state []]
  rfl

theorem Course.finish_of_accepting {router : Router σ} {course : Course σ}
    (haccepts : ∀ command state, (router command state).1 = .ok ()) (hok : course.result = .ok ()) :
    (course.finish router).1 = ⟨course.commands ++ [.next], .ok ()⟩ := by
  have hnext := (Plan.send .next).reply_of_accepting haccepts course.state
  simp only [finish, Reply.andThen, hok, hnext]
  rfl

theorem Plan.reply_send (command : Command) (router : Router σ) (state : σ) :
    (Plan.send command).reply router state =
      match router command state with
      | (.ok (), after) => ({ commands := [command] }, after)
      | (.error reason, after) =>
          ({ commands := [command], result := .error (.rejected reason) }, after) := by
  simp only [Plan.reply, execute, send, Router.sendAll, Router.recording]
  rcases router command state with ⟨reply | reply, after⟩ <;> rfl

/-- The state in which the actions performed leave the router. -/
def stateAfter (start : σ) (performed : List (Dispatch σ)) : σ :=
  (performed.getLast?.map Dispatch.after).getD start

namespace Dispatch

variable {dispatch : Dispatch σ} {rest : σ → Course σ}

theorem finish_followedBy (dispatch : Dispatch σ) (rest : σ → Course σ) (router : Router σ) :
    (dispatch.followedBy rest).finish router =
      Reply.andThen (dispatch.reply, dispatch.after) fun state => (rest state).finish router := by
  obtain ⟨action, before, ⟨sent, error | _⟩, after⟩ := dispatch
  · simp [followedBy, Course.finish, Course.commands, Reply.andThen]
  · simp only [followedBy, Course.finish, Course.commands, Reply.andThen, List.flatMap_cons]
    cases (rest after).result with
    | error error => rfl
    | ok _ => simp only [List.append_assoc]

/-- The first action performed is the one that others follow; a later one is performed only where
the first succeeds. -/
theorem followedBy_split {earlier later : List (Dispatch σ)} {other : Dispatch σ}
    (hsplit : (dispatch.followedBy rest).dispatches = earlier ++ other :: later) :
    (earlier = [] ∧ other = dispatch) ∨
      ∃ more, earlier = dispatch :: more ∧ dispatch.reply.result = .ok () ∧
        (rest dispatch.after).dispatches = more ++ other :: later := by
  rw [followedBy] at hsplit
  cases hresult : dispatch.reply.result with
  | error error =>
      rw [hresult] at hsplit
      obtain ⟨hnil, hsingle⟩ | ⟨more, -, hnone⟩ := List.cons_eq_append_iff.1 hsplit
      · exact Or.inl ⟨hnil, (List.cons.inj hsingle).1⟩
      · exact absurd hnone.symm (List.append_ne_nil_of_right_ne_nil _ (List.cons_ne_nil _ _))
  | ok _ =>
      rw [hresult] at hsplit
      obtain ⟨hnil, hfirst⟩ | ⟨more, hmore, hrest⟩ := List.cons_eq_append_iff.1 hsplit
      · exact Or.inl ⟨hnil, (List.cons.inj hfirst).1⟩
      · exact Or.inr ⟨more, hmore, rfl, hrest⟩

theorem followedBy_of_failed {error : ScriptError} (hfailed : dispatch.reply.result = .error error)
    (rest : σ → Course σ) :
    dispatch.followedBy rest =
      { dispatches := [dispatch], result := .error error, state := dispatch.after } := by
  rw [followedBy, hfailed]

theorem followedBy_of_ok (hok : dispatch.reply.result = .ok ()) (rest : σ → Course σ) :
    dispatch.followedBy rest =
      { rest dispatch.after with dispatches := dispatch :: (rest dispatch.after).dispatches } := by
  rw [followedBy, hok]

end Dispatch

namespace Script

variable (script : Script) (router : Router σ)

/-- Performing an action does what its plan says. -/
theorem dispatch_eq (screen : String) (action : Action) (state : σ) :
    script.dispatch router screen action state =
      { action
        before := state
        reply := ((script.actionPlan action).reply router state).1
        after := ((script.actionPlan action).reply router state).2 } := by
  have hperform := Turn.carriesOut_perform (script.context router.recording (some screen)) action
    { router := (state, []) }
  simp only [dispatch, Turn.reply, hperform]
  rfl

theorem reply_turnPlan (screen : String) (responses : Responses) (candidates : List Candidate)
    (state : σ) :
    (script.turnPlan responses candidates).reply router state =
      (script.course router screen responses candidates state).finish router := by
  induction candidates generalizing state with
  | nil => rfl
  | cons candidate rest ih =>
      have hplan : script.turnPlan responses (candidate :: rest) =
          (script.candidatePlan responses candidate).andThen (script.turnPlan responses rest) := rfl
      rw [hplan, Plan.reply_andThen, candidatePlan, course]
      rcases script.guard responses candidate with error | _ | _
      · rfl
      · exact ih state
      · simp only [Dispatch.finish_followedBy, dispatch_eq, ← ih]

/-- Processing a screen performs the actions of its course and then, unless one of its candidates
failed, asks for the next screen. -/
theorem reply_process (state : σ) (screen : Screen) (responses : Responses) :
    script.reply router state (.process screen responses) =
      (script.processCourse router screen.id responses state).finish router := by
  rw [reply_eq]
  exact script.reply_turnPlan router screen.id responses (script.actionsFor screen.id) state

section

variable {script router} {screen : String} {responses : Responses} {candidates : List Candidate}
  {state : σ}

/-- An action that fails is the last one, and the course ends as it does. -/
theorem course_of_failed {dispatch : Dispatch σ} {earlier later : List (Dispatch σ)}
    {error : ScriptError} (hfailed : dispatch.reply.result = .error error)
    (hsplit : (script.course router screen responses candidates state).dispatches =
      earlier ++ dispatch :: later) :
    later = [] ∧ script.course router screen responses candidates state =
      { dispatches := earlier ++ [dispatch], result := .error error, state := dispatch.after } := by
  induction candidates generalizing state earlier with
  | nil => simp [course] at hsplit
  | cons candidate rest ih =>
      revert hsplit
      rw [course]
      rcases script.guard responses candidate with reason | _ | _ <;> intro hsplit
      · simp at hsplit
      · exact ih hsplit
      · rcases Dispatch.followedBy_split hsplit with ⟨rfl, rfl⟩ | ⟨more, rfl, hok, hrest⟩
        · rw [Dispatch.followedBy_of_failed hfailed] at hsplit ⊢
          exact ⟨(List.cons.inj hsplit).2.symm, rfl⟩
        · obtain ⟨hlast, hcourse⟩ := ih hrest
          rw [Dispatch.followedBy_of_ok hok, hcourse]
          exact ⟨hlast, rfl⟩

/-- What holds at the start of a course, and after an action whenever it holds before the action,
holds at every action of the course and at its end. -/
theorem course_keeps (Holds : List (Dispatch σ) → σ → Prop) (past : List (Dispatch σ))
    (hstep : ∀ past state action, Holds past state →
      Holds (past ++ [script.dispatch router screen action state])
        (script.dispatch router screen action state).after)
    (hstart : Holds past state) :
    Holds (past ++ (script.course router screen responses candidates state).dispatches)
        (script.course router screen responses candidates state).state ∧
      ∀ earlier dispatch later,
        (script.course router screen responses candidates state).dispatches =
          earlier ++ dispatch :: later →
        Holds (past ++ earlier) dispatch.before ∧
          dispatch = script.dispatch router screen dispatch.action dispatch.before := by
  induction candidates generalizing state past with
  | nil => simpa [course] using hstart
  | cons candidate rest ih =>
      rw [course]
      rcases script.guard responses candidate with reason | _ | _
      · simpa using hstart
      · exact ih past hstart
      · have hself (action : Action) : Holds (past ++ [])
              (script.dispatch router screen action state).before ∧
            script.dispatch router screen action state = script.dispatch router screen
              (script.dispatch router screen action state).action
              (script.dispatch router screen action state).before := by
          simpa only [dispatch_eq, List.append_nil, and_true] using hstart
        have hnext := hstep past state candidate.action hstart
        refine ⟨?_, ?_⟩
        · cases hresult : (script.dispatch router screen candidate.action state).reply.result with
          | error error => rwa [Dispatch.followedBy_of_failed hresult]
          | ok _ =>
              rw [Dispatch.followedBy_of_ok hresult, List.append_cons]
              exact (ih _ hnext).1
        · intro earlier dispatch later hsplit
          rcases Dispatch.followedBy_split hsplit with ⟨rfl, rfl⟩ | ⟨more, rfl, -, hrest⟩
          · exact hself candidate.action
          · rw [List.append_cons]
            exact (ih _ hnext).2 more dispatch later hrest

/-- Each action is performed in the state that the ones before it leave. -/
theorem before_of_split {dispatch : Dispatch σ} {earlier later : List (Dispatch σ)}
    (hsplit : (script.course router screen responses candidates state).dispatches =
      earlier ++ dispatch :: later) :
    dispatch.before = stateAfter state earlier := by
  have hstep (past : List (Dispatch σ)) (reached : σ) (action : Action)
      (_ : reached = stateAfter state past) :
      (script.dispatch router screen action reached).after =
        stateAfter state (past ++ [script.dispatch router screen action reached]) := by
    rw [stateAfter, List.getLast?_concat]
    rfl
  exact ((course_keeps (fun past reached => reached = stateAfter state past) [] hstep rfl).2
    earlier dispatch later hsplit).1

/-- An action never asks for the next screen. -/
theorem next_not_mem_dispatch (action : Action) :
    .next ∉ (script.dispatch router screen action state).reply.commands := by
  intro hmem
  rw [dispatch_eq] at hmem
  have hplan := ((script.actionPlan action).prefix_of_reply router state).subset hmem
  have hsends := action.sends_of_mem_plan hplan
  cases action with
  | push ids =>
      obtain ⟨pushed, heq⟩ := hsends
      cases heq
  | doNothing => exact hsends
  | skip | checkpoint | restore | milestone | endInterview => cases hsends

theorem next_not_mem_commands :
    .next ∉ (script.course router screen responses candidates state).commands := by
  intro hmem
  obtain ⟨dispatch, hdispatch, hnext⟩ := List.mem_flatMap.1 hmem
  obtain ⟨earlier, later, hsplit⟩ := List.append_of_mem hdispatch
  have hself := (course_keeps (fun _ _ => True) [] (fun _ _ _ _ => trivial) trivial).2 earlier
    dispatch later hsplit
  rw [hself.2] at hnext
  exact next_not_mem_dispatch dispatch.action hnext

/-- A turn ends with the action that fails in it: the next screen is not asked for. -/
theorem reply_of_failed {screen : Screen} {dispatch : Dispatch σ}
    {earlier later : List (Dispatch σ)} {error : ScriptError}
    (hfailed : dispatch.reply.result = .error error)
    (hsplit : (script.processCourse router screen.id responses state).dispatches =
      earlier ++ dispatch :: later) :
    let ended := script.reply router state (.process screen responses)
    later = [] ∧ ended.1.result = .error error ∧
      ended.1.commands =
        (earlier.flatMap fun other => other.reply.commands) ++ dispatch.reply.commands ∧
      .next ∉ ended.1.commands ∧ ended.2 = dispatch.after := by
  intro ended
  obtain ⟨hlast, hcourse⟩ := course_of_failed hfailed hsplit
  change script.processCourse router screen.id responses state = _ at hcourse
  have hresult : (script.processCourse router screen.id responses state).result = .error error := by
    rw [hcourse]
  have hended : ended = _ :=
    (script.reply_process router state screen responses).trans
      (Course.finish_of_failed hresult router)
  have hnext : .next ∉ (script.processCourse router screen.id responses state).commands :=
    next_not_mem_commands
  rw [hended]
  refine ⟨hlast, rfl, ?_, hnext, ?_⟩
  · rw [hcourse, Course.commands, List.flatMap_append, List.flatMap_singleton]
  · rw [hcourse]

/-- Before a router that accepts every command the candidates that hold have their actions
performed, if no candidate fails. -/
theorem course_of_accepting (screen : String) (state : σ)
    (haccepts : ∀ command state, (router command state).1 = .ok ())
    (hguards : ∀ candidate ∈ candidates,
      script.guard responses candidate = .ok (script.fires responses candidate))
    (hplans : ∀ candidate ∈ candidates, (script.actionPlan candidate.action).failure = none) :
    let course := script.course router screen responses candidates state
    course.result = .ok () ∧
      course.dispatches.map Dispatch.action =
        (candidates.filter (script.fires responses)).map Candidate.action ∧
      course.commands = (candidates.filter (script.fires responses)).flatMap fun candidate =>
        (script.actionPlan candidate.action).commands := by
  induction candidates generalizing state with
  | nil => exact ⟨rfl, rfl, rfl⟩
  | cons candidate rest ih =>
      obtain ⟨hguard, hguards⟩ := List.forall_mem_cons.1 hguards
      obtain ⟨hplan, hplans⟩ := List.forall_mem_cons.1 hplans
      rw [course, hguard]
      cases hfires : script.fires responses candidate with
      | false =>
          rw [List.filter_cons_of_neg (by rw [hfires]; decide)]
          exact ih state hguards hplans
      | true =>
          rw [List.filter_cons_of_pos hfires]
          have hreply := (script.actionPlan candidate.action).reply_of_accepting haccepts state
          have hresult : (script.dispatch router screen candidate.action state).reply =
              ⟨(script.actionPlan candidate.action).commands, .ok ()⟩ := by
            rw [dispatch_eq, hreply, Plan.verdict, hplan]
          simp only
          rw [Dispatch.followedBy_of_ok (by rw [hresult])]
          obtain ⟨hok, hactions, hcommands⟩ :=
            ih (script.dispatch router screen candidate.action state).after hguards hplans
          refine ⟨hok, ?_, ?_⟩
          · rw [List.map_cons, List.map_cons, hactions, dispatch_eq]
          · rw [Course.commands, List.flatMap_cons, List.flatMap_cons, hresult, ← hcommands,
              Course.commands]

end

end Script

end BranchingInterview
