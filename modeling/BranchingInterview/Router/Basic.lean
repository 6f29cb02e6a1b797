import BranchingInterview.Interview

/-!
The commands that a script gives to a router. A router is any state machine that accepts or rejects
each command.
-/

namespace BranchingInterview

inductive Command
  | push (screen : Screen)
  | skip (responses : Responses)
  | checkpoint (name : String)
  | restore (name : String)
  | milestone (name : String)
  | next
  | complete
deriving DecidableEq

def Command.name : Command → String
  | push _ => "push"
  | skip _ => "skip"
  | checkpoint _ => "checkpoint"
  | restore _ => "restore"
  | milestone _ => "milestone"
  | next => "next"
  | complete => "complete"

/-- What a router answers to a command, and its state afterwards. -/
abbrev Router (σ : Type) := Command → σ → Except RouterError Unit × σ

end BranchingInterview
