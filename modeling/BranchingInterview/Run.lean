import BranchingInterview.Router.Journal
import BranchingInterview.Script

/-!
Runs of an interview: the host shows the top screen of the stack, takes the answers to it, and lets
the script process it, until the interview is completed or nothing is left to show.
-/

namespace BranchingInterview

inductive Stop
  | completed
  | empty
  | limit
  | failed (error : ScriptError)
deriving DecidableEq

structure Run where
  visited : List String
  stop : Stop
deriving DecidableEq

namespace Script

/-- The screen with an id, or one with nothing but the id. -/
def screenOrBare (script : Script) (id : String) : Screen :=
  (script.screen? id).getD { id }

/-- Shows one screen: its answers join the responses before it is processed. -/
def visit (script : Script) (answers : KeyMap Responses) (id : String) : Turn Journal Unit := do
  modify fun session =>
    { session with
      router.router := session.router.router.answer ((answers.get? id).getD {}) }
  let responses := (← get).router.router.responses
  let screen := script.screenOrBare id
  script.prepare screen responses
  script.process Journal.route screen responses

/-- Takes at most `turns` turns with the answers to each screen. -/
def run (script : Script) (answers : KeyMap Responses) :
    Nat → Session Journal → Run × Session Journal
  | 0, session => (⟨[], .limit⟩, session)
  | turns + 1, session =>
      if session.router.router.isCompleted then (⟨[], .completed⟩, session)
      else
        match session.router.router.pop with
        | (none, _) => (⟨[], .empty⟩, session)
        | (some id, router) =>
            let session := { session with router.router := router }
            match (script.visit answers id).run.run session with
            | (.error error, session) => (⟨[id], .failed error⟩, session)
            | (.ok (), session) =>
                let (run, session) := script.run answers turns session
                ({ run with visited := id :: run.visited }, session)

end Script

end BranchingInterview
