import BranchingInterview.Script

/-!
Turns as plans. What a turn sends is settled before the router is asked anything: a plan lists the
commands and the error, if any, that ends the turn after them. A turn carries its plan out up to the
first command that the router rejects.
-/

namespace BranchingInterview

variable {σ : Type}

structure Plan where
  commands : List Command := []
  /-- The error that ends the turn once the commands are sent. -/
  failure : Option ScriptError := none
deriving DecidableEq

def Router.sendAll (router : Router σ) : List Command → σ → Except RouterError Unit × σ
  | [], state => (.ok (), state)
  | command :: rest, state =>
      match router command state with
      | (.ok (), state) => router.sendAll rest state
      | (.error reason, state) => (.error reason, state)

namespace Plan

def send (command : Command) : Plan := { commands := [command] }

def fail (error : ScriptError) : Plan := { failure := some error }

/-- A plan followed by another one, which a failure of the first leaves out. -/
def andThen (first next : Plan) : Plan :=
  match first.failure with
  | some _ => first
  | none => { commands := first.commands ++ next.commands, failure := next.failure }

/-- What a turn returns if the router accepts every command. -/
def verdict (plan : Plan) : Except ScriptError Unit :=
  match plan.failure with
  | some error => .error error
  | none => .ok ()

def execute (plan : Plan) (router : Router σ) (state : σ) : Except ScriptError Unit × σ :=
  match router.sendAll plan.commands state with
  | (.ok (), state) => (plan.verdict, state)
  | (.error reason, state) => (.error (.rejected reason), state)

end Plan

def resolvedScreens (screens : List Screen) (ids : List String) : List Screen :=
  ids.filterMap (findScreen? screens)

def firstMissing? (screens : List Screen) (ids : List String) : Option String :=
  ids.find? fun id => (findScreen? screens id).isNone

/-- The screens of some ids, or the error of the first id that a strict policy does not drop. -/
def resolution (screens : List Screen) (policy : ScreenPolicy) (ids : List String) :
    Except ScriptError (List Screen) :=
  match policy, firstMissing? screens ids with
  | .strict, some id => .error (.missingScreen id)
  | _, _ => .ok (resolvedScreens screens ids)

theorem eq_resolvedScreens_of_resolution {screens found : List Screen} {policy : ScreenPolicy}
    {ids : List String} (hfound : resolution screens policy ids = .ok found) :
    found = resolvedScreens screens ids := by
  unfold resolution at hfound
  split at hfound
  · cases hfound
  · exact (Except.ok.inj hfound).symm

def pushPlan (screens : List Screen) (policy : ScreenPolicy) (ids : List String) : Plan :=
  match resolution screens policy ids with
  | .ok found => { commands := found.reverse.map .push }
  | .error error => .fail error

def Action.plan (screens : List Screen) (policy : ScreenPolicy) : Action → Plan
  | push ids => pushPlan screens policy ids
  | skip responses => .send (.skip responses)
  | checkpoint name => .send (.checkpoint name)
  | restore name => .send (.restore name)
  | milestone name => .send (.milestone name)
  | endInterview => .send .complete
  | doNothing => {}

theorem Action.plan_eq_fail {screens : List Screen} {policy : ScreenPolicy} {action : Action}
    {error : ScriptError} (hfailure : (action.plan screens policy).failure = some error) :
    action.plan screens policy = .fail error := by
  cases action with
  | push ids =>
      rw [plan, pushPlan] at hfailure ⊢
      cases hresolution : resolution screens policy ids with
      | ok found =>
          rw [hresolution] at hfailure
          cases hfailure
      | error reason =>
          rw [hresolution] at hfailure
          cases hfailure
          rfl
  | _ => cases hfailure

namespace Script

def actionPlan (script : Script) (action : Action) : Plan :=
  action.plan script.interview.screens script.settings.screenPolicy

def guard (script : Script) (responses : Responses) (candidate : Candidate) :
    Except ScriptError Bool :=
  candidate.condition.evaluate script.settings.nullDate responses

def fires (script : Script) (responses : Responses) (candidate : Candidate) : Bool :=
  match script.guard responses candidate with
  | .ok result => result
  | .error _ => false

def candidatePlan (script : Script) (responses : Responses) (candidate : Candidate) : Plan :=
  match script.guard responses candidate with
  | .error error => .fail error
  | .ok true => script.actionPlan candidate.action
  | .ok false => {}

def setupPlan (script : Script) : Plan :=
  pushPlan script.interview.screens script.settings.screenPolicy script.interview.startingIds

def turnPlan (script : Script) (responses : Responses) (candidates : List Candidate) : Plan :=
  (candidates.map (script.candidatePlan responses)).foldr .andThen (.send .next)

def processPlan (script : Script) (screen : String) (responses : Responses) : Plan :=
  script.turnPlan responses (script.actionsFor screen)

end Script

/-- What a turn returns, and the state in which it leaves the router. -/
def Turn.exchange {α : Type} (turn : Turn σ α) (session : Session σ) : Except ScriptError α × σ :=
  ((turn.run.run session).1, (turn.run.run session).2.router)

/-- A part of a turn that returns a result whatever the session is, and sends nothing. -/
def Turn.Returns {α : Type} (turn : Turn σ α) (result : Except ScriptError α) : Prop :=
  ∀ session, turn.exchange session = (result, session.router)

/-- A turn does to a router what a plan says. -/
def Turn.CarriesOut (turn : Turn σ Unit) (router : Router σ) (plan : Plan) : Prop :=
  ∀ session, turn.exchange session = plan.execute router session.router

theorem resolution_cons_of_some {screens : List Screen} {id : String} {screen : Screen}
    (policy : ScreenPolicy) (rest : List String) (hfound : findScreen? screens id = some screen) :
    resolution screens policy (id :: rest) =
      (resolution screens policy rest).map (screen :: ·) := by
  have hmissing : firstMissing? screens (id :: rest) = firstMissing? screens rest := by
    simp [firstMissing?, hfound]
  have hresolved : resolvedScreens screens (id :: rest) =
      screen :: resolvedScreens screens rest := by
    simp [resolvedScreens, hfound]
  simp only [resolution, hmissing, hresolved]
  split <;> rfl

theorem resolution_cons_of_none {screens : List Screen} {id : String} (policy : ScreenPolicy)
    (rest : List String) (hmissing : findScreen? screens id = none) :
    resolution screens policy (id :: rest) =
      if policy.isStrict then .error (.missingScreen id) else resolution screens policy rest := by
  have hfirst : firstMissing? screens (id :: rest) = some id := by
    simp [firstMissing?, hmissing]
  have hresolved : resolvedScreens screens (id :: rest) = resolvedScreens screens rest := by
    simp [resolvedScreens, hmissing]
  cases policy with
  | strict => simp [resolution, hfirst, ScreenPolicy.isStrict]
  | lenient => simp [resolution, hresolved, ScreenPolicy.isStrict]

theorem Router.sendAll_append (router : Router σ) (commands more : List Command) (state : σ) :
    router.sendAll (commands ++ more) state =
      match router.sendAll commands state with
      | (.ok (), state) => router.sendAll more state
      | (.error reason, state) => (.error reason, state) := by
  induction commands generalizing state with
  | nil => rfl
  | cons command rest ih =>
      simp only [List.cons_append, Router.sendAll]
      rcases router command state with ⟨reply | reply, after⟩
      · rfl
      · exact ih after

theorem Plan.snd_execute (plan : Plan) (router : Router σ) (state : σ) :
    (plan.execute router state).2 = (router.sendAll plan.commands state).2 := by
  rw [execute]
  rcases router.sendAll plan.commands state with ⟨reply | reply, after⟩ <;> rfl

theorem Plan.execute_eq_ok_iff {plan : Plan} {router : Router σ} {state : σ} :
    (plan.execute router state).1 = .ok () ↔
      plan.failure = none ∧ (router.sendAll plan.commands state).1 = .ok () := by
  rw [execute, verdict]
  rcases router.sendAll plan.commands state with ⟨reply | reply, after⟩
  · simp
  · cases plan.failure <;> simp

theorem Plan.execute_andThen (first next : Plan) (router : Router σ) (state : σ) :
    (first.andThen next).execute router state =
      match first.execute router state with
      | (.ok (), state) => next.execute router state
      | (.error error, state) => (.error error, state) := by
  rcases first with ⟨commands, failure⟩
  cases failure with
  | some error =>
      simp only [Plan.andThen, Plan.execute, Plan.verdict]
      rcases router.sendAll commands state with ⟨reply | reply, after⟩ <;> rfl
  | none =>
      simp only [Plan.andThen, Plan.execute, Plan.verdict, Router.sendAll_append]
      rcases router.sendAll commands state with ⟨reply | reply, after⟩ <;> rfl

namespace Turn

variable {α β : Type} {router : Router σ} {plan rest : Plan}

theorem run_bind (first : Turn σ α) (next : α → Turn σ β) (session : Session σ) :
    (first >>= next).run.run session =
      match first.run.run session with
      | (.ok value, after) => (next value).run.run after
      | (.error error, after) => (.error error, after) := by
  rcases hfirst : first.run.run session with ⟨result | result, after⟩
  · simp only [ExceptT.run_bind, StateT.run_bind, hfirst]
    rfl
  · simp only [ExceptT.run_bind, StateT.run_bind, hfirst]
    rfl

theorem Returns.exchange_bind {first : Turn σ α} {value : α} (hfirst : first.Returns (.ok value))
    (next : α → Turn σ β) (session : Session σ) :
    ∃ after : Session σ, after.router = session.router ∧
      (first >>= next).exchange session = (next value).exchange after := by
  obtain ⟨hresult, hrouter⟩ := Prod.mk.inj (hfirst session)
  refine ⟨(first.run.run session).2, hrouter, ?_⟩
  have hrun := run_bind first next session
  rcases hstart : first.run.run session with ⟨result, after⟩
  rw [hstart] at hresult hrun
  subst hresult
  rw [exchange, hrun, exchange]

theorem Returns.bind {first : Turn σ α} {next : α → Turn σ β} {value : α}
    {result : Except ScriptError β} (hfirst : first.Returns (.ok value))
    (hnext : (next value).Returns result) : (first >>= next).Returns result := by
  intro session
  obtain ⟨after, hrouter, hexchange⟩ := hfirst.exchange_bind next session
  rw [hexchange, hnext after, hrouter]

theorem Returns.bind_error {first : Turn σ α} {error : ScriptError}
    (hfirst : first.Returns (.error error)) (next : α → Turn σ β) :
    (first >>= next).Returns (.error error) := by
  intro session
  obtain ⟨hresult, hrouter⟩ := Prod.mk.inj (hfirst session)
  have hrun := run_bind first next session
  rcases hstart : first.run.run session with ⟨result, after⟩
  rw [hstart] at hresult hrouter hrun
  subst hresult
  rw [exchange, hrun, ← hrouter]

theorem returns_pure (value : α) : (pure value : Turn σ α).Returns (.ok value) := by
  intro session
  rfl

theorem returns_throw (error : ScriptError) : (throw error : Turn σ α).Returns (.error error) := by
  intro session
  rfl

theorem returns_report (context : TurnContext σ) (event : Log.Event) :
    (report context event).Returns (.ok ()) := by
  intro session
  rfl

theorem returns_reports (context : TurnContext σ) (events : List Log.Event) :
    (events.forM (report context)).Returns (.ok ()) := by
  induction events with
  | nil => exact returns_pure ()
  | cons event events ih =>
      rw [List.forM]
      exact (returns_report context event).bind ih

theorem returns_resolve (context : TurnContext σ) (ids : List String) :
    (resolve context ids).Returns (resolution context.screens context.policy ids) := by
  induction ids with
  | nil =>
      rcases context with ⟨_, _, _ | _, _⟩ <;> exact returns_pure []
  | cons id rest ih =>
      rw [resolve]
      cases hfound : findScreen? context.screens id with
      | some screen =>
          rw [resolution_cons_of_some context.policy rest hfound]
          cases hrest : resolution context.screens context.policy rest with
          | ok screens =>
              rw [hrest] at ih
              exact ih.bind (returns_pure (screen :: screens))
          | error error =>
              rw [hrest] at ih
              exact ih.bind_error _
      | none =>
          rw [resolution_cons_of_none context.policy rest hfound]
          by_cases hstrict : context.policy.isStrict = true
          · simp only [hstrict, ↓reduceIte]
            exact (returns_throw (.missingScreen id)).bind_error _
          · simp only [hstrict]
            exact (returns_report context (.dropped id)).bind ih

theorem returns_check (context : TurnContext σ) (nullDate : Date) (responses : Responses)
    (comparison : Comparison) :
    (check context nullDate responses comparison).Returns
      (comparison.evaluate nullDate responses) := by
  rw [check]
  refine (returns_reports context _).bind ?_
  cases comparison.evaluate nullDate responses with
  | ok result => exact returns_pure result
  | error error => exact returns_throw error

theorem CarriesOut.bind {first : Turn σ α} {next : α → Turn σ Unit} {value : α}
    (hnext : (next value).CarriesOut router plan) (hfirst : first.Returns (.ok value)) :
    (first >>= next).CarriesOut router plan := by
  intro session
  obtain ⟨after, hrouter, hexchange⟩ := hfirst.exchange_bind next session
  rw [hexchange, hnext after, hrouter]

theorem Returns.carriesOut_fail {turn : Turn σ Unit} {error : ScriptError}
    (hturn : turn.Returns (.error error)) : turn.CarriesOut router (.fail error) :=
  hturn

theorem Returns.carriesOut_nothing {turn : Turn σ Unit} (hturn : turn.Returns (.ok ())) :
    turn.CarriesOut router {} :=
  hturn

theorem CarriesOut.andThen {first next : Turn σ Unit} (hfirst : first.CarriesOut router plan)
    (hnext : next.CarriesOut router rest) :
    CarriesOut (do first; next) router (plan.andThen rest) := by
  intro session
  have hrun := run_bind first (fun _ => next) session
  rw [Plan.execute_andThen, ← hfirst session, exchange, hrun, exchange]
  rcases first.run.run session with ⟨result | result, after⟩
  · rfl
  · exact hnext after

theorem CarriesOut.forM {items : List α} {step : α → Turn σ Unit} {steps : α → Plan}
    {next : Turn σ Unit} (hstep : ∀ item, (step item).CarriesOut router (steps item))
    (hnext : next.CarriesOut router rest) :
    CarriesOut (do items.forM step; next) router ((items.map steps).foldr .andThen rest) := by
  induction items with
  | nil => exact hnext
  | cons item items ih =>
      have hunfold : (do (item :: items).forM step; next) =
          (do step item; do items.forM step; next) := by
        rw [List.forM, bind_assoc]
      rw [hunfold]
      exact (hstep item).andThen ih

theorem run_send (context : TurnContext σ) (command : Command) (session : Session σ) :
    (send context command).run.run session =
      match context.router command session.router with
      | (.ok (), after) => (.ok (), { session with router := after })
      | (.error reason, after) => (.error (.rejected reason), { session with router := after }) := by
  obtain ⟨router, screens, policy, screen⟩ := context
  have hget : (get : Turn σ (Session σ)).run.run session = (.ok session, session) := rfl
  have hset (after : Session σ) : (set after : Turn σ PUnit).run.run session = (.ok (), after) := rfl
  rw [send, run_bind, hget]
  simp only [run_bind, hset]
  rcases router command session.router with ⟨reply | reply, after⟩ <;> rfl

theorem carriesOut_send (context : TurnContext σ) (command : Command) :
    (send context command).CarriesOut context.router (.send command) := by
  intro session
  rw [exchange, run_send]
  simp only [Plan.execute, Plan.send, Router.sendAll]
  rcases context.router command session.router with ⟨reply | reply, after⟩ <;> rfl

theorem carriesOut_sendAll (context : TurnContext σ) (items : List α) (command : α → Command) :
    (items.forM fun item => send context (command item)).CarriesOut context.router
      { commands := items.map command } := by
  induction items with
  | nil => exact (returns_pure ()).carriesOut_nothing
  | cons item items ih =>
      rw [List.forM]
      exact (carriesOut_send context (command item)).andThen ih

theorem carriesOut_pushScreens (context : TurnContext σ) (ids : List String) :
    (pushScreens context ids).CarriesOut context.router
      (pushPlan context.screens context.policy ids) := by
  have hresolve := returns_resolve context ids
  rw [pushScreens, pushPlan]
  cases hresolution : resolution context.screens context.policy ids with
  | error error =>
      rw [hresolution] at hresolve
      exact (hresolve.bind_error _).carriesOut_fail
  | ok screens =>
      rw [hresolution] at hresolve
      refine CarriesOut.bind ?_ hresolve
      exact carriesOut_sendAll context screens.reverse .push

theorem carriesOut_perform (context : TurnContext σ) (action : Action) :
    (perform context action).CarriesOut context.router
      (action.plan context.screens context.policy) := by
  refine CarriesOut.bind ?_ (returns_report context (.dispatching action.kind))
  cases action with
  | push screens => exact carriesOut_pushScreens context screens
  | skip responses => exact carriesOut_send context (.skip responses)
  | checkpoint name => exact carriesOut_send context (.checkpoint name)
  | restore name => exact carriesOut_send context (.restore name)
  | milestone name => exact carriesOut_send context (.milestone name)
  | endInterview => exact carriesOut_send context .complete
  | doNothing => exact (returns_pure ()).carriesOut_nothing

end Turn

namespace Script

theorem carriesOut_setup (script : Script) (router : Router σ) :
    (script.setup router).CarriesOut router script.setupPlan := by
  refine Turn.CarriesOut.bind ?_ (Turn.returns_report _ _)
  exact Turn.carriesOut_pushScreens (script.context router none) script.interview.startingIds

theorem carriesOut_process (script : Script) (router : Router σ) (screen : Screen)
    (responses : Responses) :
    (script.process router screen responses).CarriesOut router
      (script.processPlan screen.id responses) := by
  rw [process, processPlan, turnPlan]
  refine Turn.CarriesOut.forM (fun candidate => ?_) (Turn.carriesOut_send _ .next)
  have hcheck := Turn.returns_check (script.context router (some screen.id))
    script.settings.nullDate responses candidate.condition
  rw [candidatePlan]
  cases hguard : script.guard responses candidate with
  | error error =>
      rw [guard] at hguard
      rw [hguard] at hcheck
      exact (hcheck.bind_error _).carriesOut_fail
  | ok fires => 
      rw [guard] at hguard
      rw [hguard] at hcheck
      refine Turn.CarriesOut.bind ?_ hcheck
      cases fires with
      | true => exact Turn.carriesOut_perform _ candidate.action
      | false => exact (Turn.returns_pure ()).carriesOut_nothing

theorem candidatePlan_eq_fail {script : Script} {responses : Responses} {candidate : Candidate}
    {error : ScriptError}
    (hfailure : (script.candidatePlan responses candidate).failure = some error) :
    script.candidatePlan responses candidate = .fail error := by
  revert hfailure
  rw [candidatePlan]
  rcases script.guard responses candidate with reason | _ | _
  · intro hfailure
    cases hfailure
    rfl
  · intro hfailure
    cases hfailure
  · exact Action.plan_eq_fail

theorem commands_candidatePlan (script : Script) (responses : Responses) (candidate : Candidate) :
    (script.candidatePlan responses candidate).commands =
      if script.fires responses candidate then (script.actionPlan candidate.action).commands
      else [] := by
  rw [candidatePlan, fires]
  rcases script.guard responses candidate with reason | _ | _ <;> rfl

theorem foldr_candidatePlan (script : Script) (responses : Responses) {candidates : List Candidate}
    (hcomplete : ∀ candidate ∈ candidates,
      (script.candidatePlan responses candidate).failure = none) (rest : Plan) :
    (candidates.map (script.candidatePlan responses)).foldr .andThen rest =
      { commands := ((candidates.filter (script.fires responses)).flatMap fun candidate =>
          (script.actionPlan candidate.action).commands) ++ rest.commands
        failure := rest.failure } := by
  induction candidates with
  | nil => rfl
  | cons candidate candidates ih =>
      have hnone := hcomplete candidate List.mem_cons_self
      have hrest := ih fun later hlater => hcomplete later (List.mem_cons_of_mem _ hlater)
      rw [List.map_cons, List.foldr_cons, hrest, Plan.andThen, hnone, commands_candidatePlan]
      cases hfires : script.fires responses candidate <;> simp [hfires]

/-- Processing a screen sends what the plan says, and the plan asks nothing of the router: it has
the commands of the candidates that fire, and then `next` unless one of them fails first. -/
theorem process_eq_execute (script : Script) (router : Router σ) (screen : Screen)
    (responses : Responses) (session : Session σ) :
    (script.process router screen responses).exchange session =
        (script.processPlan screen.id responses).execute router session.router ∧
      ((∀ candidate ∈ script.actionsFor screen.id,
          (script.candidatePlan responses candidate).failure = none) →
        script.processPlan screen.id responses =
          { commands :=
              (((script.actionsFor screen.id).filter (script.fires responses)).flatMap
                fun candidate => (script.actionPlan candidate.action).commands) ++ [.next] }) ∧
      ∀ before candidate after error,
        script.actionsFor screen.id = before ++ candidate :: after →
        (∀ earlier ∈ before, (script.candidatePlan responses earlier).failure = none) →
        (script.candidatePlan responses candidate).failure = some error →
        script.processPlan screen.id responses =
          { commands := (before.filter (script.fires responses)).flatMap fun earlier =>
              (script.actionPlan earlier.action).commands
            failure := some error } := by
  refine ⟨carriesOut_process script router screen responses session, ?_, ?_⟩
  · intro hcomplete
    exact foldr_candidatePlan script responses hcomplete (.send .next)
  · intro before candidate after error hactions hbefore hfailure
    have hstop (rest : Plan) :
        (script.candidatePlan responses candidate).andThen rest = .fail error := by
      rw [candidatePlan_eq_fail hfailure]
      rfl
    rw [processPlan, turnPlan, hactions, List.map_append, List.map_cons, List.foldr_append,
      List.foldr_cons, hstop, foldr_candidatePlan script responses hbefore]
    simp [Plan.fail]

/-- After `a` come `b` and `c`; `x` is no screen, and `soon` is no date. -/
def detour : Script where
  interview :=
    { screens := [{ id := "a" }, { id := "b" }, { id := "c" }]
      startingState := ["a"]
      actions := .ofList [("a",
        [.always (.milestone "begun"),
          .always (.push ["b", "x", "c"]),
          .always (.checkpoint "mid"),
          .always (.skip {}),
          .always (.restore "mid"),
          ⟨{ operator := .after, key := some "q", operand := some "soon" }, .endInterview⟩])] }

theorem processPlan_detour :
    let responses : Responses := .ofList [("q", { answer := .text "null" })]
    detour.processPlan "a" responses =
      { commands :=
          [.milestone "begun", .push { id := "c" }, .push { id := "b" }, .checkpoint "mid",
            .skip {}, .restore "mid"]
        failure := some (.invalidDate "soon") } := by
  intro responses
  have hplan := (process_eq_execute detour (fun _ state => (.ok (), state)) { id := "a" } responses
    { router := () }).2.2 ((detour.actionsFor "a").take 5) _ [] (.invalidDate "soon") rfl
    (by decide) (by decide)
  rw [hplan]
  decide

end Script

end BranchingInterview
