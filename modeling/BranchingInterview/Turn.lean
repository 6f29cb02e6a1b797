import BranchingInterview.Log.Event
import BranchingInterview.Router.Basic
import BranchingInterview.Settings

/-!
Turns: the exchange of a script with a router. A turn sends commands and reports events until it
ends or fails; what it sent and reported before a failure stays.
-/

namespace BranchingInterview

/-- The state of a router and the events reported so far. -/
structure Session (σ : Type) where
  router : σ
  reports : List Log.Report := []

abbrev Turn (σ α : Type) := ExceptT ScriptError (StateM (Session σ)) α

/-- The last of some screens with an id. -/
def findScreen? (screens : List Screen) (id : String) : Option Screen :=
  screens.reverse.find? (·.id == id)

/-- What the commands of a turn depend on besides its action. -/
structure TurnContext (σ : Type) where
  router : Router σ
  screens : List Screen
  policy : ScreenPolicy := .lenient
  screen : Option String := none

namespace Turn

variable {σ : Type} (context : TurnContext σ)

def report (event : Log.Event) : Turn σ Unit :=
  modify fun session =>
    { session with reports := session.reports ++ [{ screen := context.screen, event }] }

/-- Gives a command to the router; a rejection ends the turn. -/
def send (command : Command) : Turn σ Unit := do
  let session ← get
  let (reply, router) := context.router command session.router
  set { session with router }
  match reply with
  | .ok () => return
  | .error reason => throw (.rejected reason)

/-- The screens with some ids. An id that no screen has is dropped or ends the turn. -/
def resolve : List String → Turn σ (List Screen)
  | [] => return []
  | id :: rest => do
      match findScreen? context.screens id with
      | some screen => return screen :: (← resolve rest)
      | none =>
          if context.policy.isStrict then throw (.missingScreen id)
          report context (.dropped id)
          resolve rest

/-- Pushes screens so that the first one is shown first. All ids are resolved before anything is
pushed. -/
def pushScreens (ids : List String) : Turn σ Unit := do
  let screens ← resolve context ids
  screens.reverse.forM fun screen => send context (.push screen)

def perform (action : Action) : Turn σ Unit := do
  report context (.dispatching action.kind)
  match action with
  | .push screens => pushScreens context screens
  | .skip responses => send context (.skip responses)
  | .checkpoint name => send context (.checkpoint name)
  | .restore name => send context (.restore name)
  | .milestone name => send context (.milestone name)
  | .endInterview => send context .complete
  | .doNothing => return

def check (nullDate : Date) (responses : Responses) (comparison : Comparison) : Turn σ Bool := do
  (comparison.events nullDate responses).forM (report context)
  liftExcept (comparison.evaluate nullDate responses)
where
  liftExcept : Except ScriptError Bool → Turn σ Bool
    | .ok result => return result
    | .error error => throw error

end Turn

end BranchingInterview
