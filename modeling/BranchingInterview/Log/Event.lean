import BranchingInterview.Comparison
import BranchingInterview.Text.Quoted

/-!
What a script reports while it runs. Each event has a level, a target that names the part it comes
from, and one line of text.
-/

namespace BranchingInterview.Log

inductive Level
  | error
  | warn
  | info
  | debug
  | trace
deriving DecidableEq, Repr

namespace Level

def verbosity : Level → Nat
  | error => 1
  | warn => 2
  | info => 3
  | debug => 4
  | trace => 5

/-- The name in five columns. -/
def column : Level → String
  | error => "ERROR"
  | warn => " WARN"
  | info => " INFO"
  | debug => "DEBUG"
  | trace => "TRACE"

end Level

inductive Event
  /-- The starting screens are about to be pushed. -/
  | starting (screens : List String)
  | evaluated (operator : Operator) (key : String) (resolved : Option String) (result : Bool)
  | dispatching (kind : Action.Kind)
  /-- A push names a screen that there is not. -/
  | dropped (screen : String)
deriving DecidableEq

def scriptTarget : String := "interview_branching::script"

namespace Event

def level : Event → Level
  | starting _ => .debug
  | evaluated _ _ _ _ => .debug
  | dispatching _ => .info
  | dropped _ => .warn

def target : Event → String
  | starting _ => scriptTarget
  | evaluated _ _ _ _ => "interview_branching::evaluator"
  | dispatching _ => "interview_branching::dispatcher"
  | dropped _ => "interview_branching::dispatcher"

def fields : Event → List String
  | starting _ => ["message", "screens"]
  | evaluated _ _ _ _ => ["message", "operator", "response_key", "resolved", "result"]
  | dispatching _ => ["message", "action"]
  | dropped _ => ["message", "screen_id"]

def text : Event → String
  | starting screens =>
      "Pushing starting state screens=[" ++ ", ".intercalate (screens.map Text.quote) ++ "]"
  | evaluated operator key resolved result =>
      "Evaluated condition operator=" ++ operator.name ++ " response_key=" ++ Text.quote key ++
        " resolved=" ++ Text.quote (resolved.getD "<absent>") ++ " result=" ++ toString result
  | dispatching kind => "Dispatching action action=" ++ kind.name
  | dropped screen =>
      "Dropping reference to unknown screen screen_id=" ++ Text.quote screen

end Event

/-- An event, and the screen that was being processed when it happened. -/
structure Report where
  screen : Option String := none
  event : Event
deriving DecidableEq

end BranchingInterview.Log

namespace BranchingInterview

/-- The events of evaluating a comparison: none if it holds at once or fails. -/
def Comparison.events (nullDate : Date) (responses : Responses) (comparison : Comparison) :
    List Log.Event :=
  if comparison.holdsAtOnce then []
  else
    match comparison.evaluate nullDate responses with
    | .ok result =>
        [.evaluated comparison.operator (comparison.key.getD "") (comparison.resolve responses)
          result]
    | .error _ => []

end BranchingInterview
