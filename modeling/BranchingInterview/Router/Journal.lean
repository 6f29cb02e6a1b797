import BranchingInterview.Router.Stack

/-!
A router that keeps a journal of the commands it is given and can be told to reject some of them.
-/

namespace BranchingInterview

/-- Rejects every command of one name, after letting some through. -/
structure Fault where
  error : RouterError
  allowed : Nat := 0
deriving DecidableEq

structure JournalEntry where
  command : Command
  isRejected : Bool
deriving DecidableEq

structure Journal where
  router : StackRouter := {}
  /-- The faults by the names of the commands they reject. -/
  faults : KeyMap Fault := {}
  /-- The commands given, in order. -/
  entries : List JournalEntry := []
deriving DecidableEq

namespace Journal

def note (journal : Journal) (command : Command) (reply : Except RouterError Unit) : Journal :=
  { journal with
    entries := journal.entries ++ [{ command, isRejected := reply matches .error _ }] }

/-- Gives a command to the stack router. -/
def forward (journal : Journal) (command : Command) : Except RouterError Unit × Journal :=
  let (reply, router) := StackRouter.route command journal.router
  (reply, { journal with router }.note command reply)

/-- A command that a fault rejects does not reach the stack router. -/
def route : Router Journal := fun command journal =>
  match journal.faults.get? command.name with
  | none => journal.forward command
  | some { error, allowed := 0 } => (.error error, journal.note command (.error error))
  | some { error, allowed := allowed + 1 } =>
      { journal with faults := journal.faults.insert command.name { error, allowed } }.forward
        command

end Journal

end BranchingInterview
