import BranchingInterview.Router.Basic

/-!
The router of an interview held in memory: a stack of screens still to be shown, with named copies
of it.
-/

namespace BranchingInterview

structure StackRouter where
  /-- The ids of the screens to show, the next one first. -/
  pending : List String := []
  /-- The stacks saved under names. -/
  checkpoints : KeyMap (List String) := {}
  responses : Responses := {}
  milestones : List String := []
  isCompleted : Bool := false
deriving DecidableEq

namespace StackRouter

def answer (router : StackRouter) (responses : Responses) : StackRouter :=
  { router with responses := router.responses.merge responses }

def pop (router : StackRouter) : Option String × StackRouter :=
  (router.pending.head?, { router with pending := router.pending.tail })

def route : Router StackRouter
  | .push screen, router => (.ok (), { router with pending := screen.id :: router.pending })
  | .skip responses, router =>
      match router.pending with
      | [] => (.error .stackUnderflow, router)
      | _ :: rest => (.ok (), { router with pending := rest }.answer responses)
  | .checkpoint name, router =>
      (.ok (), { router with checkpoints := router.checkpoints.insert name router.pending })
  | .restore name, router =>
      match router.checkpoints.get? name with
      | some saved => (.ok (), { router with pending := saved })
      | none => (.error (.unknownCheckpoint name), router)
  | .milestone name, router => (.ok (), { router with milestones := router.milestones ++ [name] })
  | .next, router => (.ok (), router)
  | .complete, router => (.ok (), { router with isCompleted := true })

end StackRouter

end BranchingInterview
