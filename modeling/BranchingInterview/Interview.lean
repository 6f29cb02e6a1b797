import BranchingInterview.Comparison

/-!
Screens and interviews. An interview starts at the screens its list names, or, if that is empty,
at the screens marked for it; it is valid when its candidate actions are complete and refer to
screens it has.
-/

namespace BranchingInterview

structure Screen where
  id : String
  title : String := ""
  headerText : String := ""
  isInStartingState : Bool := false
  /-- The place among those screens, the lowest first. -/
  startingStateOrder : Option UInt32 := none
deriving DecidableEq

def Screen.startingAt (screen : Screen) (order : UInt32) : Screen :=
  { screen with isInStartingState := true, startingStateOrder := some order }

structure Interview where
  id : String := ""
  name : String := ""
  screens : List Screen := []
  /-- The ids of the screens to start at, the first one shown first. -/
  startingState : List String := []
  /-- The candidate actions of each screen, by its id. -/
  actions : KeyMap (List Candidate) := {}
deriving DecidableEq

def referrerStart : String := "starting state"

def referrerPush (screen : String) : String :=
  "a push action on screen '" ++ screen ++ "'"

namespace Interview

def addScreen (interview : Interview) (screen : Screen) : Interview :=
  { interview with screens := interview.screens ++ [screen] }

def addAction (interview : Interview) (screen : String) (candidate : Candidate) : Interview :=
  { interview with
    actions := interview.actions.alter screen fun others => others.getD [] ++ [candidate] }

/-- The first screen with an id. -/
def screen? (interview : Interview) (id : String) : Option Screen :=
  interview.screens.find? (·.id == id)

def actionsFor (interview : Interview) (screen : String) : List Candidate :=
  (interview.actions.get? screen).getD []

/-- The marked screens that have a place, with their places. -/
def markedScreens (interview : Interview) : List (UInt32 × String) :=
  (interview.screens.filter (·.isInStartingState)).filterMap fun screen =>
    screen.startingStateOrder.map fun order => (order, screen.id)

/-- The ids of the screens to start at; marked screens of one place stay in their order. -/
def startingIds (interview : Interview) : List String :=
  if interview.startingState.isEmpty then
    (interview.markedScreens.mergeSort fun left right => left.1 ≤ right.1).map Prod.snd
  else interview.startingState

def hasScreen (interview : Interview) (id : String) : Bool :=
  interview.screens.any (·.id == id)

def validateScreens (interview : Interview) (referrer : String) (ids : List String) :
    Except ValidationError Unit :=
  match ids.find? fun id => !interview.hasScreen id with
  | some id => .error (.unknownScreen id referrer)
  | none => .ok ()

def validateCandidate (interview : Interview) (screen : String) (candidate : Candidate) :
    Except ValidationError Unit := do
  candidate.validate
  match candidate.action with
  | .push targets => interview.validateScreens (referrerPush screen) targets
  | _ => .ok ()

/-- The starting screens are checked first, then the candidates of each screen, by screen id. -/
def validate (interview : Interview) : Except ValidationError Unit := do
  interview.validateScreens referrerStart interview.startingIds
  interview.actions.entries.forM fun entry =>
    entry.2.forM (interview.validateCandidate entry.1)

end Interview

end BranchingInterview
