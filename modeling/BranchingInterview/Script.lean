import BranchingInterview.Turn

/-!
Scripts. A script runs an interview: it sets a router up with the starting screens, and after each
screen performs the actions whose conditions hold and asks for the next screen.
-/

namespace BranchingInterview

structure Script where
  interview : Interview
  settings : Settings := {}

namespace Script

variable {σ : Type}

/-- The screen a router is given for an id: of several with the id the last one. -/
def screen? (script : Script) (id : String) : Option Screen :=
  findScreen? script.interview.screens id

def actionsFor (script : Script) (screen : String) : List Candidate :=
  script.interview.actionsFor screen

def context (script : Script) (router : Router σ) (screen : Option String) : TurnContext σ :=
  { router, screens := script.interview.screens, policy := script.settings.screenPolicy, screen }

def setup (script : Script) (router : Router σ) : Turn σ Unit := do
  let context := script.context router none
  Turn.report context (.starting script.interview.startingIds)
  Turn.pushScreens context script.interview.startingIds

/-- Work before a screen is shown, of which there is none. -/
def prepare (_script : Script) (_screen : Screen) (_responses : Responses) : Turn σ Unit :=
  return

/-- Performs every action of a screen whose condition holds, in order, then asks for the next
screen. Conditions see the responses given, not those that a skip of this turn adds. -/
def process (script : Script) (router : Router σ) (screen : Screen) (responses : Responses) :
    Turn σ Unit := do
  let context := script.context router (some screen.id)
  (script.actionsFor screen.id).forM fun candidate => do
    if ← Turn.check context script.settings.nullDate responses candidate.condition then
      Turn.perform context candidate.action
  Turn.send context .next

end Script

end BranchingInterview
