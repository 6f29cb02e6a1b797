import BranchingInterview.Answer
import BranchingInterview.Error

/-!
The actions that a script takes when a condition holds.
-/

namespace BranchingInterview

inductive Action
  /-- Show screens next, the first one first. -/
  | push (screens : List String)
  /-- Answer the next screen for the respondent. -/
  | skip (responses : Responses)
  | checkpoint (name : String)
  | restore (name : String)
  | milestone (name : String)
  | endInterview
  | doNothing
deriving DecidableEq

inductive Action.Kind
  | push
  | skip
  | checkpoint
  | restore
  | milestone
  | endInterview
  | doNothing
deriving DecidableEq, Repr

namespace Action

namespace Kind

def all : List Kind :=
  [push, skip, checkpoint, restore, milestone, endInterview, doNothing]

def name : Kind → String
  | push => "push"
  | skip => "skip"
  | checkpoint => "checkpoint"
  | restore => "restore"
  | milestone => "milestone"
  | endInterview => "end_interview"
  | doNothing => "do_nothing"

def ofName? (name : String) : Option Kind :=
  all.find? (·.name == name)

/-- The wording shown to authors. -/
def label : Kind → String
  | push => "Go to stage"
  | skip => "Skip"
  | checkpoint => "Checkpoint"
  | restore => "Restore"
  | milestone => "Milestone"
  | endInterview => "End interview"
  | doNothing => "Do nothing"

theorem ofName?_name (kind : Kind) : ofName? kind.name = some kind := by
  cases kind <;> decide +kernel

end Kind

def kind : Action → Kind
  | push _ => .push
  | skip _ => .skip
  | checkpoint _ => .checkpoint
  | restore _ => .restore
  | milestone _ => .milestone
  | endInterview => .endInterview
  | doNothing => .doNothing

/-- A push must name a screen. -/
def validate : Action → Except ValidationError Unit
  | push [] => .error .emptyPush
  | _ => .ok ()

end Action

end BranchingInterview
